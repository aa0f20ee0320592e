import Http2Comm.Client.Outcome

/-!
# The report of a timeout

The expiry handler does two things under two flags. Under `timed_out` it counts and calls
`responseTimeout()`; under `cb_invoked` it calls back with `-2`. Whoever completes the request
earlier sets only the second flag, and relies on its cancel of the timer for the first. A cancel
that comes too late leaves an expiry queued, and its handler then reports a timeout of a request
that has been answered (`answered_request_reports_timeout`).

`timeout_reported_iff` is that this is the only way for the report and the outcome to disagree:
the expiry handler runs after the request was completed.
-/

set_option autoImplicit false

namespace Http2Comm.Client

open Lib Lib.Machine

/-- The callbacks with status code `-2`. -/
def timeoutCallbacks (es : List Effect) : Nat := (callbacks es).countP (·.statusCode = -2)

/-- The increments of the timed-out counter, over all labels. -/
def timeoutIncrements (es : List Effect) : Nat :=
  (recorded es).count .observedResponsesTimedoutCounter

/-- The reports of a timeout agree with the outcome, and there is at most one. -/
structure ReportsTimeout (client : Http2Client) (rq : Request) : Prop where
  called : timeoutCalls rq.effects = timeoutCallbacks rq.effects
  counted : timeoutIncrements rq.effects =
    if client.metrics then timeoutCallbacks rq.effects else 0
  once : timeoutCalls rq.effects ≤ 1

/-- The expiry handler does not run after the request was completed. -/
def ExpiresFirst (es : List Event) : Prop :=
  ∀ before rest, es = before ++ .timerHandler :: rest → completion before = none

/-! ## One step -/

/-- What the flag `timed_out` says about the reports and the timer. -/
structure Flagged (client : Http2Client) (rq : Request) : Prop where
  kept : Kept rq
  calls : timeoutCalls rq.effects = if rq.task.timedOut then 1 else 0
  increments : timeoutIncrements rq.effects =
    if rq.task.timedOut ∧ client.metrics then 1 else 0
  early : rq.task.timedOut = false → timeoutCallbacks rq.effects = 0
  spent : rq.task.timedOut = true → rq.timer = .done

section step

variable {client : Http2Client} {call : Call} {rq : Request} {e : Event}

/-- Only the expiry handler calls back with `-2`. -/
theorem timeoutCallbacks_next : timeoutCallbacks (rq.next client call e).effects =
    timeoutCallbacks rq.effects +
      match e with
      | .timerHandler => if rq.task.timedOut || rq.task.cbInvoked then 0 else 1
      | _ => 0 := by
  rw [timeoutCallbacks, callbacks_next, List.countP_append]
  congr 1
  cases e with
  | onData chunk =>
    cases rq.onData with
    | none => rfl
    | some res =>
      -- a status code of the server is not negative
      have hcode : (res.statusCode : Int) ≠ -2 := by omega
      simp only
      split_ifs <;> simp [hcode]
  | asyncSend connected reconnected =>
    simp only
    split_ifs <;> simp
  | submit now isConnected hasSession attempt =>
    simp only
    split_ifs <;> simp
  | timerHandler =>
    simp only
    split_ifs <;> simp
  | onClose errorCode =>
    simp only
    split_ifs <;> simp
  | _ => rfl

theorem timedOut_next : (rq.next client call e).task.timedOut =
    match e with
    | .timerHandler => true
    | _ => rq.task.timedOut := by
  rw [task_next]
  cases e with
  | onData chunk =>
    simp only
    split_ifs <;> rfl
  | _ => rfl

theorem flagged_start (client : Http2Client) : Flagged client {} where
  kept := kept_start
  calls := rfl
  increments := by simp [timeoutIncrements]
  early _ := rfl
  spent h := by simp at h

/-- An expiry that is queued is the first. -/
theorem Flagged.first (h : Flagged client rq) (hen : rq.Enabled .timerHandler) :
    rq.task.timedOut = false := by
  cases hto : rq.task.timedOut with
  | false => rfl
  | true => simpa [hen.1] using h.spent hto

theorem flagged_step (h : Flagged client rq) (hen : rq.Enabled e) :
    Flagged client (rq.next client call e) where
  kept := kept_step h.kept hen
  calls := by
    rw [timeoutCalls_next, timedOut_next, h.calls]
    cases e with
    | timerHandler => simp [h.first hen]
    | _ => rfl
  increments := by
    have hincrements := h.increments
    rw [timeoutIncrements] at hincrements ⊢
    rw [recorded_next, timedOut_next, List.count_append, hincrements]
    cases client.metrics with
    | false => simp
    | true =>
      cases e with
      | timerHandler => simp [h.first hen]
      | asyncSend connected reconnected => cases connected <;> cases reconnected <;> simp
      | onResponse now res => cases rq.task.timedOut <;> simp
      | onData chunk =>
        simp only [if_true]
        split_ifs <;> simp
      | _ => simp
  early hto := by
    rw [timedOut_next] at hto
    rw [timeoutCallbacks_next]
    cases e with
    | timerHandler => simp at hto
    | _ => exact h.early hto
  spent hto := by
    rw [timedOut_next] at hto
    rw [timer_next]
    have hspent := h.spent
    have hearly := h.kept.early
    cases e with
    | startTimer =>
      -- the timer is not armed twice
      have hphase : rq.phase = .posted := hen
      simp_all
    | timerExpires =>
      have htimer : rq.timer = .armed := hen
      simp_all
    | _ => simp_all [Request.cancelTimer]

/-- **The report agrees with the outcome after a step exactly if it did before and the step is
not an expiry handler that finds the callback invoked.** -/
theorem agrees_next (h : Flagged client rq) (hen : rq.Enabled e) :
    timeoutCalls (rq.next client call e).effects =
        timeoutCallbacks (rq.next client call e).effects ↔
      timeoutCalls rq.effects = timeoutCallbacks rq.effects ∧
        (e = .timerHandler → rq.task.cbInvoked = false) := by
  rw [timeoutCalls_next, timeoutCallbacks_next]
  cases e with
  | timerHandler =>
    have hto := h.first hen
    simp [h.calls, hto, h.early hto]
  | _ => simp

end step

/-! ## Whole runs -/

section runs

variable {client : Http2Client} {call : Call} {es : List Event}

theorem tracks_run (hrun : (request client call).Run {} es) :
    Tracks client.metrics es ((request client call).after {} es) :=
  history (H := Tracks client.metrics) (tracks_start _) (fun _ _ _ h hen => tracks_step h hen) hrun

theorem expiresFirst_iff (hrun : (request client call).Run {} es) : ExpiresFirst es ↔
    (request client call).Along (fun rq e => e = .timerHandler → rq.task.cbInvoked = false)
      {} es := by
  rw [along_iff_cut]
  have hcut {before rest : List Event} (hes : es = before ++ .timerHandler :: rest) :
      completion before = none ↔
        ((request client call).after {} before).task.cbInvoked = false := by
    subst hes
    obtain ⟨hbefore, hen, -⟩ := run_append.mp hrun
    have htracks := tracks_run hbefore
    constructor
    · exact fun hnone => (htracks.pending hnone).2.1
    · intro hcb
      by_contra hsome
      rcases htracks.completed hsome with hunsent | hinvoked
      · have htimer := htracks.kept.early (Or.inr (Or.inr hunsent))
        rw [hen.1] at htimer
        cases htimer
      · rw [hcb] at hinvoked
        cases hinvoked
  constructor
  · rintro h before e rest hes rfl
    exact (hcut hes).mp (h before rest hes)
  · intro h before rest hes
    exact (hcut hes).mpr (h before _ rest hes rfl)

/-- **A timeout is reported exactly when the outcome is a timeout, if and only if the expiry
handler does not run after the request was completed.** -/
theorem timeout_reported_iff (client : Http2Client) (call : Call) (es : List Event)
    (hrun : (request client call).Run {} es) :
    ReportsTimeout client ((request client call).after {} es) ↔ ExpiresFirst es := by
  have hflagged : Flagged client ((request client call).after {} es) :=
    invariant (fun _ _ h hen => flagged_step h hen) (flagged_start client) hrun
  have hexact := exact_along (I := Flagged client)
    (G := fun rq => timeoutCalls rq.effects = timeoutCallbacks rq.effects)
    (fun _ _ h hen => flagged_step h hen) (fun _ _ h hen => agrees_next h hen)
    (flagged_start client) hrun
  rw [expiresFirst_iff hrun]
  constructor
  · exact fun h => (hexact.mp h.called).2
  · intro h
    have hcalled := hexact.mpr ⟨rfl, h⟩
    refine ⟨hcalled, ?_, ?_⟩
    · rw [← hcalled, hflagged.calls, hflagged.increments]
      cases client.metrics <;> simp
    · rw [hflagged.calls]
      split <;> simp

end runs

/-- A request that times out after its response has begun. -/
theorem timeout_reported_headers :
    ReportsTimeout { metrics := true } ((request { metrics := true } {}).after {}
      [.asyncSend true false, .startTimer, .submit 3 true true .request,
        .onResponse 5 { statusCode := 200 }, .timerExpires, .timerHandler]) := by
  refine (timeout_reported_iff { metrics := true } {} _ (by decide)).mpr ?_
  intro before rest hes
  obtain ⟨hget, htake⟩ := cut_eq hes
  rw [← htake]
  match before.length, hget with
  | 5, _ => rfl

/-- **An answered request that reports a timeout**: the expiry was queued when the data ended. -/
theorem answered_request_reports_timeout :
    ¬∀ (client : Http2Client) (call : Call) (es : List Event),
      (request client call).Run {} es →
      ReportsTimeout client ((request client call).after {} es) := by
  intro h
  have hreports := h {} {} [.asyncSend true false, .startTimer, .submit 3 true true .request,
    .onResponse 5 { statusCode := 200 }, .timerExpires, .onData [], .timerHandler] (by decide)
  exact absurd hreports.called (by decide)

end Http2Comm.Client
