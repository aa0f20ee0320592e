import Http2Comm.Client.Request

/-!
# One callback per request

`cb_invoked` makes the callback at most one; that it is at least one is a promise the handlers
pass on. After the submit handler the promise is the request timer's: pending, or expired with
its handler queued. Whoever cancels the timer calls back in the same breath, and the expiry
handler calls back itself unless somebody has. `Kept` says so in every state.

The buffer is simpler: `on_data` appends every chunk it gets, so `task->data` is the
concatenation of the chunks so far, whatever else has happened (`data_run`).
-/

set_option autoImplicit false

namespace Http2Comm.Client

open Lib Lib.Machine

/-- The promise of a callback, and that it is not kept twice. -/
structure Kept (rq : Request) : Prop where
  /-- Before the submit handler, and on the `-1` path, there is no timer. -/
  early : rq.phase = .created ∨ rq.phase = .posted ∨ rq.phase = .unsent → rq.timer = .unset
  quiet : rq.phase = .created ∨ rq.phase = .posted ∨ rq.phase = .submitting →
    rq.task.cbInvoked = false
  unsent : rq.phase = .unsent → (callbacks rq.effects).length = 1
  invoked : rq.phase ≠ .unsent →
    (callbacks rq.effects).length = if rq.task.cbInvoked then 1 else 0
  timedOut : rq.task.timedOut = true → rq.task.cbInvoked = true
  promised : rq.phase = .submitting ∨ rq.phase = .submitted ∨ rq.phase = .failed →
    rq.task.cbInvoked = true ∨ rq.timer = .armed ∨ rq.timer = .expired

section step

variable {client : Http2Client} {call : Call} {rq : Request} {e : Event}

theorem kept_start : Kept {} where
  early _ := rfl
  quiet _ := rfl
  unsent h := by simp at h
  invoked _ := rfl
  timedOut h := by simp at h
  promised h := by simp at h

/-- **Every handler keeps the promise.** -/
theorem kept_step (h : Kept rq) (hen : rq.Enabled e) : Kept (rq.next client call e) := by
  obtain ⟨hearly, hquiet, hunsent, hinvoked, htimedOut, hpromised⟩ := h
  cases e with
  | asyncSend connected reconnected =>
    have hphase : rq.phase = .created := hen
    constructor <;> simp only [phase_next, timer_next, task_next, callbacks_next]
    all_goals cases hsend : connected || reconnected <;> simp_all
  | startTimer =>
    have hphase : rq.phase = .posted := hen
    constructor <;> simp only [phase_next, timer_next, task_next, callbacks_next]
    all_goals simp_all
  | submit now isConnected hasSession attempt =>
    -- on failure the timer is cancelled and the callback invoked; else the timer is left pending
    have hphase : rq.phase = .submitting := hen
    constructor <;> simp only [phase_next, timer_next, task_next, callbacks_next]
    all_goals cases hacc : accepted isConnected hasSession attempt <;> simp_all
  | timerExpires =>
    have htimer : rq.timer = .armed := hen
    constructor <;> simp only [phase_next, timer_next, task_next, callbacks_next]
    all_goals simp_all
  | timerHandler =>
    -- the handler calls back, or leaves it because somebody has: whoever set either flag
    obtain ⟨htimer, hphase⟩ := hen
    constructor <;> simp only [phase_next, timer_next, task_next, callbacks_next]
    all_goals cases hto : rq.task.timedOut <;> cases hcb : rq.task.cbInvoked <;> simp_all
  | timerAborted =>
    obtain ⟨htimer, hphase⟩ := hen
    constructor <;> simp only [phase_next, timer_next, task_next, callbacks_next]
    all_goals simp_all
  | onResponse now res =>
    have hphase : rq.phase = .submitted := hen
    constructor <;> simp only [phase_next, timer_next, task_next, callbacks_next]
    all_goals simp_all
  | onData chunk =>
    obtain ⟨hphase, hregistered⟩ := hen
    obtain ⟨res, hres⟩ := Option.isSome_iff_exists.mp hregistered
    constructor <;> simp only [phase_next, timer_next, task_next, callbacks_next]
    all_goals by_cases hchunk : chunk = [] <;> cases hcb : rq.task.cbInvoked <;> simp_all
  | onClose errorCode =>
    have hphase : rq.phase = .submitted := hen
    constructor <;> simp only [phase_next, timer_next, task_next, callbacks_next]
    all_goals cases hto : rq.task.timedOut <;> cases hcb : rq.task.cbInvoked <;> simp_all

end step

/-! ## The buffer -/

/-- The chunks delivered so far, concatenated. -/
def received (es : List Event) : Bytes :=
  (es.filterMap fun | .onData chunk => some chunk | _ => none).flatten

theorem received_snoc (es : List Event) (e : Event) :
    received (es ++ [e]) = received es ++ match e with | .onData chunk => chunk | _ => [] := by
  cases e <;> simp [received]

section runs

variable {client : Http2Client} {call : Call} {es : List Event}

theorem kept_run (hrun : (request client call).Run {} es) :
    Kept ((request client call).after {} es) :=
  invariant (fun _ _ h hen => kept_step h hen) kept_start hrun

theorem data_run (hrun : (request client call).Run {} es) :
    ((request client call).after {} es).task.data = received es := by
  refine history (H := fun es rq => rq.task.data = received es) rfl ?_ hrun
  intro es e _ hdata hen
  rw [received_snoc, ← hdata]
  change (Request.next client call _ e).task.data = _
  rw [task_next]
  cases e with
  | onData chunk => simp [hen.2]
  | _ => simp

/-- **One callback per request.** In every state of a run the callback has been invoked at most
once; from the return on the `-1` path, or from the end of the submit handler on, it has been
invoked, or the request timer is pending, or its expiry is queued. A response delivered by the
end of the data carries the chunks received so far. -/
theorem one_callback (hrun : (request client call).Run {} es) :
    let rq := (request client call).after {} es
    (callbacks rq.effects).length ≤ 1 ∧
    (rq.phase = .unsent ∨ rq.phase = .submitted ∨ rq.phase = .failed →
      (callbacks rq.effects).length = 1 ∨ rq.timer = .armed ∨ rq.timer = .expired) ∧
    ∀ before rest, es = before ++ .onData [] :: rest →
      let rq := (request client call).after {} before
      let rq' := (request client call).after {} (before ++ [.onData []])
      callbacks rq'.effects = callbacks rq.effects ∨
        ∃ response, callbacks rq'.effects = callbacks rq.effects ++ [response] ∧
          response.body = received before := by
  intro rq
  have hkept : Kept rq := kept_run hrun
  refine ⟨?_, ?_, ?_⟩
  · by_cases hunsent : rq.phase = .unsent
    · exact Nat.le_of_eq (hkept.unsent hunsent)
    · rw [hkept.invoked hunsent]
      split <;> simp
  · rintro (hunsent | hsubmitted | hfailed)
    · exact Or.inl (hkept.unsent hunsent)
    · refine (hkept.promised (Or.inr (Or.inl hsubmitted))).imp_left fun hcb => ?_
      rw [hkept.invoked (by simp [hsubmitted]), if_pos hcb]
    · refine (hkept.promised (Or.inr (Or.inr hfailed))).imp_left fun hcb => ?_
      rw [hkept.invoked (by simp [hfailed]), if_pos hcb]
  · intro before rest hes rq rq'
    obtain ⟨hbefore, hen, -⟩ := run_append.mp (hes ▸ hrun)
    obtain ⟨res, hres⟩ := Option.isSome_iff_exists.mp hen.2
    have hafter : rq' = rq.next client call (.onData []) := after_append
    have hregistered : rq.onData = some res := hres
    rw [hafter, callbacks_next]
    cases hcb : rq.task.cbInvoked with
    | true => exact Or.inl (by simp [hregistered])
    | false => exact Or.inr ⟨_, by simp [hregistered]; rfl, data_run hbefore⟩

end runs

/-- A response in two chunks, answered in time. -/
theorem one_callback_answered :
    ∃ response,
      callbacks ((request {} {}).after {} ([.asyncSend true false, .startTimer,
        .submit 10 true true .request, .onResponse 12 { statusCode := 200 },
        .onData (ascii "ab"), .onData (ascii "c")] ++ [.onData []])).effects
        = [] ++ [response] ∧ response.body = ascii "abc" :=
  ((one_callback (by decide)).2.2 _ [] rfl).resolve_left (by decide)

end Http2Comm.Client
