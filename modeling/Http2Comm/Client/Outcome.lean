import Http2Comm.Client.Callback

/-!
# The outcome of a request

What a request is answered with, said without a task, flags or a timer: **the first handler that
completes the request decides**, and it answers from what has been delivered before it. `outcome`
is that sentence as a function of the list of events, and `callbacks_eq_outcome` is that
`async_send` and its handlers compute it.

What it buys here is the two-run question, whether metrics are only observers. They are not
quite: `receptionUs` is stored inside `if (metrics_)`, so a response that ends by data carries
the clock of `on_response` with metrics and a zero without. The two outcomes differ in that field
and nowhere else, hence `metrics_observe_iff`: the callbacks are the same exactly if the request
does not end by data, or the clock read zero.
-/

set_option autoImplicit false

namespace Http2Comm.Client

open Lib Lib.Machine

/-! ## What has been delivered -/

/-- The last `on_response` so far, with its clock. -/
def lastResponse (es : List Event) : Option (Int × Res) :=
  (es.filterMap fun | .onResponse now res => some (now, res) | _ => none).getLast?

/-- The clock of the submit handler. -/
def sendingClock (es : List Event) : Int :=
  ((es.filterMap fun | .submit now .. => some now | _ => none).getLast?).getD 0

theorem lastResponse_snoc (es : List Event) (e : Event) : lastResponse (es ++ [e]) =
    match e with
    | .onResponse now res => some (now, res)
    | _ => lastResponse es := by
  cases e <;> simp [lastResponse]

theorem sendingClock_snoc (es : List Event) (e : Event) : sendingClock (es ++ [e]) =
    match e with
    | .submit now .. => now
    | _ => sendingClock es := by
  cases e <;> simp [sendingClock]

/-! ## Completion -/

/-- The events that complete a request. -/
def Event.completes : Event → Bool
  | .asyncSend connected reconnected => !(connected || reconnected)
  | .submit _ isConnected hasSession attempt => !accepted isConnected hasSession attempt
  | .timerHandler => true
  | .onData chunk => decide (chunk = [])
  | .onClose _ => true
  | _ => false

/-- The first event that completes the request, and what came before it. -/
def completion : List Event → Option (List Event × Event)
  | [] => none
  | e :: es =>
    if e.completes then some ([], e)
    else (completion es).map fun (before, e') => (e :: before, e')

theorem completion_snoc (es : List Event) (e : Event) : completion (es ++ [e]) =
    (completion es).or (if e.completes then some (es, e) else none) := by
  induction es with
  | nil =>
    simp only [List.nil_append, completion]
    split <;> rfl
  | cons e' es ih =>
    simp only [List.cons_append, completion, ih]
    by_cases h' : e'.completes = true
    · simp [h']
    · cases completion es <;> by_cases h : e.completes = true <;> simp [h, h']

/-- What the completing event answers, given what came before it. -/
def answer (metrics : Bool) (before : List Event) : Event → Option Response
  | .asyncSend .. => some { statusCode := -1 }
  | .timerHandler => some { statusCode := -2 }
  | .submit .. => some { statusCode := -3 }
  | .onClose _ => some { statusCode := -4 }
  | .onData _ =>
    (lastResponse before).map fun (now, res) =>
      { body := received before
        statusCode := res.statusCode
        headers := res.headers
        sendingUs := sendingClock before
        receptionUs := if metrics then now else 0 }
  | _ => none

/-- The outcome of a request: the answer of the first event that completes it. -/
def outcome (metrics : Bool) (es : List Event) : Option Response :=
  (completion es).bind fun (before, e) => answer metrics before e

/-! ## The handlers compute the outcome -/

/-- The members of a request, as functions of the events so far. -/
structure Tracks (metrics : Bool) (es : List Event) (rq : Request) : Prop where
  kept : Kept rq
  callbacks : callbacks rq.effects = (outcome metrics es).toList
  pending : completion es = none →
    rq.phase ≠ .unsent ∧ rq.task.cbInvoked = false ∧ rq.task.timedOut = false
  completed : completion es ≠ none → rq.phase = .unsent ∨ rq.task.cbInvoked = true
  data : rq.task.data = received es
  sendingUs : rq.task.sendingUs = sendingClock es
  response : rq.task.timedOut = false → rq.onData = (lastResponse es).map (·.2)
  receptionUs : rq.task.timedOut = false →
    rq.task.receptionUs = if metrics then ((lastResponse es).map (·.1)).getD 0 else 0

theorem tracks_start (metrics : Bool) : Tracks metrics [] {} where
  kept := kept_start
  callbacks := rfl
  pending _ := by simp
  completed h := absurd rfl h
  data := rfl
  sendingUs := rfl
  response _ := rfl
  receptionUs _ := by cases metrics <;> rfl

section step

variable {client : Http2Client} {call : Call} {rq : Request} {es : List Event} {e : Event}

/-- Once completed, nothing calls back any more. -/
theorem callbacks_of_completed (hkept : Kept rq) (hen : rq.Enabled e)
    (h : rq.phase = .unsent ∨ rq.task.cbInvoked = true) :
    callbacks (rq.next client call e).effects = callbacks rq.effects := by
  have hcb (hp : rq.phase ≠ .unsent) : rq.task.cbInvoked = true := h.resolve_left hp
  rw [callbacks_next]
  cases e with
  | asyncSend connected reconnected =>
    -- nothing has called back before `async_send` itself
    have hphase : rq.phase = .created := hen
    have hcb := hcb (by simp [hphase])
    exact absurd (hkept.quiet (Or.inl hphase)) (by simp [hcb])
  | submit now isConnected hasSession attempt =>
    have hphase : rq.phase = .submitting := hen
    simp [hcb (by simp [hphase])]
  | timerHandler =>
    have hcb := hcb fun hp => by simpa [hen.1] using hkept.early (Or.inr (Or.inr hp))
    simp [hcb]
  | onData chunk =>
    have hcb := hcb (by simp [hen.1])
    cases rq.onData <;> simp [hcb]
  | onClose errorCode =>
    have hphase : rq.phase = .submitted := hen
    simp [hcb (by simp [hphase])]
  | _ => simp

/-- The first event that completes the request answers it; one that does not is silent. -/
theorem callbacks_of_pending {metrics : Bool} (h : Tracks metrics es rq) (hen : rq.Enabled e)
    (hpending : completion es = none) :
    callbacks (rq.next client call e).effects = callbacks rq.effects ++
      (if e.completes then answer metrics es e else none).toList := by
  obtain ⟨hunsent, hcb, hto⟩ := h.pending hpending
  rw [callbacks_next]
  cases e with
  | asyncSend connected reconnected =>
    cases connected <;> cases reconnected <;> simp [Event.completes, answer]
  | submit now isConnected hasSession attempt =>
    cases hacc : accepted isConnected hasSession attempt <;>
      simp_all [Event.completes, answer]
  | timerHandler => simp [hcb, hto, Event.completes, answer]
  | onData chunk =>
    obtain ⟨res, hres⟩ := Option.isSome_iff_exists.mp hen.2
    -- the handler was registered by the last `on_response`, and its response is that one
    have hlast := (h.response hto).symm.trans hres
    obtain ⟨⟨now, res'⟩, hnow, rfl⟩ := Option.map_eq_some_iff.mp hlast
    by_cases hchunk : chunk = []
    · simp [hres, hchunk, hcb, Event.completes, answer, hnow, h.data, h.sendingUs,
        h.receptionUs hto]
    · simp [hres, hchunk, Event.completes]
  | onClose errorCode => simp [hcb, hto, Event.completes, answer]
  | _ => simp [Event.completes]

theorem outcome_snoc (metrics : Bool) (es : List Event) (e : Event) :
    outcome metrics (es ++ [e]) = (outcome metrics es).or
      (if completion es = none ∧ e.completes then answer metrics es e else none) := by
  simp only [outcome, completion_snoc]
  cases completion es with
  | none => cases e.completes <;> simp
  | some c => simp

/-- A completing event leaves the request completed, and it stays so. -/
theorem completed_next (hkept : Kept rq) (hen : rq.Enabled e)
    (h : (rq.phase = .unsent ∨ rq.task.cbInvoked = true) ∨ e.completes = true) :
    (rq.next client call e).phase = .unsent ∨
      (rq.next client call e).task.cbInvoked = true := by
  rw [phase_next, task_next]
  have hto := hkept.timedOut
  have hearly := hkept.early
  have hquiet := hkept.quiet
  cases e with
  | asyncSend connected reconnected =>
    have hphase : rq.phase = .created := hen
    cases connected <;> cases reconnected <;> simp_all [Event.completes]
  | startTimer =>
    have hphase : rq.phase = .posted := hen
    simp_all [Event.completes]
  | submit now isConnected hasSession attempt =>
    have hphase : rq.phase = .submitting := hen
    simp_all [Event.completes]
  | timerExpires =>
    have htimer : rq.timer = .armed := hen
    simp_all [Event.completes]
  | timerHandler => cases hcb : rq.task.cbInvoked <;> simp_all
  | timerAborted =>
    obtain ⟨htimer, -⟩ := hen
    simp_all [Event.completes]
  | onResponse now res =>
    have hphase : rq.phase = .submitted := hen
    simp_all [Event.completes]
  | onData chunk =>
    obtain ⟨hphase, hregistered⟩ := hen
    simp_all [Event.completes]
  | onClose errorCode => cases hcb : rq.task.cbInvoked <;> simp_all

/-- An event that does not complete leaves the request pending. -/
theorem pending_next (hen : rq.Enabled e) (he : e.completes = false)
    (h : rq.phase ≠ .unsent ∧ rq.task.cbInvoked = false ∧ rq.task.timedOut = false) :
    (rq.next client call e).phase ≠ .unsent ∧ (rq.next client call e).task.cbInvoked = false ∧
      (rq.next client call e).task.timedOut = false := by
  rw [phase_next, task_next]
  obtain ⟨hphase, hcb, hto⟩ := h
  cases e with
  | asyncSend connected reconnected =>
    cases connected <;> cases reconnected <;> simp_all [Event.completes]
  | submit now isConnected hasSession attempt => simp_all [Event.completes]
  | timerHandler => simp [Event.completes] at he
  | onClose errorCode => simp [Event.completes] at he
  | onData chunk =>
    have hregistered := hen.2
    simp_all [Event.completes]
  | _ => simp_all

/-- **Every handler computes its part of the outcome.** -/
theorem tracks_step (h : Tracks client.metrics es rq) (hen : rq.Enabled e) :
    Tracks client.metrics (es ++ [e]) (rq.next client call e) where
  kept := kept_step h.kept hen
  callbacks := by
    rw [outcome_snoc]
    cases hc : completion es with
    | none =>
      rw [callbacks_of_pending h hen hc, h.callbacks, outcome, hc]
      simp
    | some c =>
      have hsome := h.completed (by simp [hc])
      rw [callbacks_of_completed h.kept hen hsome, h.callbacks]
      simp
  pending hnone := by
    rw [completion_snoc, Option.or_eq_none_iff] at hnone
    exact pending_next hen (by simpa using hnone.2) (h.pending hnone.1)
  completed hsome := by
    rw [completion_snoc] at hsome
    refine completed_next h.kept hen ?_
    by_cases hc : completion es = none
    · right
      simpa [hc] using hsome
    · exact Or.inl (h.completed hc)
  data := by
    rw [received_snoc, task_next, ← h.data]
    cases e with
    | onData chunk => simp [hen.2]
    | _ => simp
  sendingUs := by
    rw [sendingClock_snoc, task_next, ← h.sendingUs]
    cases e with
    | onData chunk => simp [hen.2]
    | _ => rfl
  response hto := by
    rw [lastResponse_snoc, onData_next]
    rw [task_next] at hto
    cases e with
    | onResponse now res => simp_all
    | onData chunk =>
      have hto' : rq.task.timedOut = false := by simpa [hen.2] using hto
      exact h.response hto'
    | timerHandler => simp at hto
    | _ => exact h.response hto
  receptionUs hto := by
    rw [lastResponse_snoc, task_next]
    rw [task_next] at hto
    cases e with
    | onResponse now res =>
      have hto' : rq.task.timedOut = false := hto
      cases hm : client.metrics <;> simp [hto', hm, h.receptionUs hto']
    | onData chunk =>
      have hto' : rq.task.timedOut = false := by simpa [hen.2] using hto
      simpa [hen.2] using h.receptionUs hto'
    | timerHandler => simp at hto
    | _ => exact h.receptionUs hto

end step

/-- **`async_send` and its handlers compute the outcome.** -/
theorem callbacks_eq_outcome {client : Http2Client} {call : Call} {es : List Event}
    (hrun : (request client call).Run {} es) :
    callbacks ((request client call).after {} es).effects
      = (outcome client.metrics es).toList := by
  have htracks : Tracks client.metrics es ((request client call).after {} es) :=
    history (H := Tracks client.metrics) (tracks_start _)
      (fun _ _ _ h hen => tracks_step h hen) hrun
  exact htracks.callbacks

/-! ## Two runs -/

/-- The members that do not depend on metrics. -/
def Alike (rq rq' : Request) : Prop :=
  rq.phase = rq'.phase ∧ rq.timer = rq'.timer ∧ rq.onData = rq'.onData ∧
    rq.task.cbInvoked = rq'.task.cbInvoked ∧ rq.task.timedOut = rq'.task.timedOut

theorem alike_step {client client' : Http2Client} {call : Call} {rq rq' : Request} {e : Event}
    (h : Alike rq rq') (hen : rq.Enabled e) :
    rq'.Enabled e ∧ Alike (rq.next client call e) (rq'.next client' call e) := by
  obtain ⟨hphase, htimer, honData, hcb, hto⟩ := h
  constructor
  · cases e <;> simp only [Request.Enabled, ← hphase, ← htimer, ← honData] <;> exact hen
  · simp only [Alike, phase_next, timer_next, onData_next, task_next, Request.cancelTimer, hphase,
      htimer, honData, hto]
    cases e <;> simp only [hcb, hto, true_and, and_true]
    all_goals split_ifs <;> simp_all

/-- The run of a request is one of every client. -/
theorem run_client {client : Http2Client} (client' : Http2Client) {call : Call} {es : List Event}
    (hrun : (request client call).Run {} es) : (request client' call).Run {} es := by
  have halike : Alike {} {} := ⟨rfl, rfl, rfl, rfl, rfl⟩
  exact (lockstep (M := request client call) (N := request client' call) (R := Alike)
    (fun _ _ _ h hen => alike_step h hen) halike hrun).1

/-- The request ends by data, and the clock at its `on_response` was not zero. -/
def ReceptionShown (es : List Event) : Prop :=
  ∃ before chunk now res, completion es = some (before, .onData chunk) ∧
    lastResponse before = some (now, res) ∧ now ≠ 0

theorem outcome_metrics_iff (es : List Event) :
    outcome true es = outcome false es ↔ ¬ReceptionShown es := by
  unfold outcome ReceptionShown
  cases hc : completion es with
  | none => simp
  | some c =>
    obtain ⟨before, e⟩ := c
    cases e with
    | onData chunk =>
      cases hlast : lastResponse before with
      | none => simp [answer, hlast]
      | some r =>
        obtain ⟨now, res⟩ := r
        simp [answer, hlast]
    | _ => simp [answer]

/-- **Metrics are observers only, but for the reception clock.** With and without metrics the
same events can happen, and the callback gets the same responses exactly if the request does not
end by data after a nonzero clock at its `on_response`. -/
theorem metrics_observe_iff (client : Http2Client) (call : Call) (es : List Event)
    (hrun : (request { client with metrics := true } call).Run {} es) :
    let on := request { client with metrics := true } call
    let off := request { client with metrics := false } call
    off.Run {} es ∧
    (callbacks (on.after {} es).effects = callbacks (off.after {} es).effects ↔
      ¬ReceptionShown es) := by
  intro on off
  have hoff : off.Run {} es := run_client _ hrun
  refine ⟨hoff, ?_⟩
  rw [callbacks_eq_outcome hrun, callbacks_eq_outcome hoff, ← outcome_metrics_iff]
  constructor
  · intro h
    simpa using congrArg List.head? h
  · intro h
    rw [h]

/-- A request that times out. -/
theorem metrics_observe_timeout :
    let es : List Event := [.asyncSend true false, .startTimer, .submit 3 true true .request,
      .onResponse 7 { statusCode := 200 }, .timerExpires, .timerHandler, .onData []]
    callbacks ((request { metrics := true } {}).after {} es).effects
      = callbacks ((request { metrics := false } {}).after {} es).effects := by
  refine (metrics_observe_iff {} {} _ (by decide)).2.mpr ?_
  rintro ⟨before, chunk, now, res, hc, -⟩
  simp [completion, Event.completes, accepted] at hc

/-- **A response that shows whether metrics are on**: answered by data after a reading of 7. -/
theorem metrics_show_reception :
    ¬∀ (client : Http2Client) (call : Call) (es : List Event),
      (request { client with metrics := true } call).Run {} es →
      (request { client with metrics := false } call).Run {} es →
      callbacks ((request { client with metrics := true } call).after {} es).effects
        = callbacks ((request { client with metrics := false } call).after {} es).effects := by
  intro h
  have heq := h {} {} [.asyncSend true false, .startTimer, .submit 3 true true .request,
    .onResponse 7 { statusCode := 200 }, .onData []] (by decide) (by decide)
  exact absurd heq (by decide)

end Http2Comm.Client
