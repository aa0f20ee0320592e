import Http2Comm.Client.Callback

/-!
# `Http2Client::send` — a request somebody waits for

`send` hands a wrapper of its promise to `asyncSend`, which hands it to `async_send`, at once or
from the handler of a delay timer, and then blocks in `future.get()`. The promise lives as long as
anybody holds it, the blocked caller among them, so nothing but a call of the wrapper ends the
wait.

From `async_send` on, somebody always holds the wrapper or has called it: that is `Kept`, of the
request. Before that there is the delay timer, whose handler does nothing when it gets an error
code (`dropped_delay_waits`): the branch drops the callback without a call. Without that branch
the call is `Answerable` in every state of every run, and with it never again
(`send_answerable_iff`).
-/

set_option autoImplicit false

namespace Http2Comm.Client

open Lib Lib.Machine

/-! ## The promise -/

/-- A `std::promise`, with the number of calls of `set_value`. -/
structure Promise where
  value : Option Response := none
  setCalls : Nat := 0
  deriving DecidableEq, Repr

/-- `set_value`. On a promise that has a value it throws, as does the `set_exception` that
`callback_wrapper` tries then; the value stays. -/
def Promise.setValue (promise : Promise) (res : Response) : Promise where
  value := if promise.value.isSome then promise.value else some res
  setCalls := promise.setCalls + 1

/-- What `callback_wrapper` captures. -/
structure Wrapper where
  satisfiedFlag : Bool := false
  promise : Promise := {}
  deriving DecidableEq, Repr

/-- `callback_wrapper`. -/
def Wrapper.call (wrapper : Wrapper) (res : Response) : Wrapper :=
  if wrapper.satisfiedFlag then wrapper
  else { satisfiedFlag := true, promise := wrapper.promise.setValue res }

/-! ## State -/

/-- Where the call is: before `asyncSend`, waiting for its delay timer, with the handler of that
timer queued, in `async_send` or its handlers, or given up by the handler of the timer. -/
inductive SendStage where
  | called
  | delayed
  | delayOver (error : Bool)
  | sending
  | dropped
  deriving DecidableEq, Repr

structure Send where
  stage : SendStage := .called
  request : Request := {}
  wrapper : Wrapper := {}
  deriving DecidableEq, Repr

/-- The events of a call of `send`. An error code of the delay timer is any but success. -/
inductive SendEvent where
  | asyncSend
  | delayCompletes (error : Bool)
  | delayHandler (error : Bool)
  | request (e : Event)
  deriving DecidableEq, Repr

def Send.Enabled (s : Send) : SendEvent → Prop
  | .asyncSend => s.stage = .called
  | .delayCompletes _ => s.stage = .delayed
  | .delayHandler error => s.stage = .delayOver error
  | .request e => s.stage = .sending ∧ s.request.Enabled e

instance Send.decidableEnabled (s : Send) (e : SendEvent) : Decidable (s.Enabled e) := by
  unfold Send.Enabled
  split <;> infer_instance

/-- The responses that an event of the request passes to its callback. -/
def newCallbacks (rq rq' : Request) : List Response :=
  (callbacks rq'.effects).drop (callbacks rq.effects).length

section machine

variable (client : Http2Client) (call : Call) (sendDelayMs : Int)

def Send.next (s : Send) : SendEvent → Send
  | .asyncSend => { s with stage := if sendDelayMs ≤ 0 then .sending else .delayed }
  | .delayCompletes error => { s with stage := .delayOver error }
  | .delayHandler error => { s with stage := if error then .dropped else .sending }
  | .request e =>
    let request := s.request.next client call e
    { s with
      request
      wrapper := (newCallbacks s.request request).foldl Wrapper.call s.wrapper }

/-- The runs of one call of `send`. -/
def send : Machine Send SendEvent where
  Enabled s e := s.Enabled e
  next s e := s.next client call sendDelayMs e

instance decidableSend (s : Send) (e : SendEvent) :
    Decidable ((send client call sendDelayMs).Enabled s e) :=
  inferInstanceAs (Decidable (s.Enabled e))

end machine

/-! ## Waiting for something -/

/-- A handler that holds the wrapper is pending: the delay timer, the submit handler, or the
request timer, armed or queued. -/
def Send.Pending (s : Send) : Prop :=
  s.stage = .delayed ∨ (∃ error, s.stage = .delayOver error) ∨
    (s.stage = .sending ∧
      (s.request.phase = .posted ∨ s.request.timer = .armed ∨ s.request.timer = .expired))

/-- The call is still on its way into, or inside, `async_send`. -/
def Send.Inside (s : Send) : Prop :=
  s.stage = .called ∨ (s.stage = .sending ∧ s.request.phase = .created)

/-- The promise is set at most once, and until it is there is something to wait for. -/
def Send.Answerable (s : Send) : Prop :=
  s.wrapper.promise.setCalls ≤ 1 ∧ (s.wrapper.promise.value.isSome ∨ s.Pending ∨ s.Inside)

section step

variable {client : Http2Client} {call : Call} {sendDelayMs : Int} {s : Send} {e : SendEvent}

/-- The flag is as good as the promise, which has been set once with it. -/
def Wrapper.Once (wrapper : Wrapper) : Prop :=
  wrapper.promise.value.isSome = wrapper.satisfiedFlag ∧
    wrapper.promise.setCalls = if wrapper.satisfiedFlag then 1 else 0

theorem once_call {wrapper : Wrapper} (h : wrapper.Once) (res : Response) :
    (wrapper.call res).Once := by
  obtain ⟨hvalue, hcalls⟩ := h
  unfold Wrapper.call
  cases hflag : wrapper.satisfiedFlag with
  | true => exact ⟨hvalue, hcalls⟩
  | false => simp_all [Wrapper.Once, Promise.setValue]

theorem satisfied_call (wrapper : Wrapper) (res : Response) :
    (wrapper.call res).satisfiedFlag = true := by
  unfold Wrapper.call
  split
  · assumption
  · rfl

/-- However often the wrapper is called, the promise is set once, by the first call. -/
theorem once_calls {wrapper : Wrapper} (h : wrapper.Once) (responses : List Response) :
    (responses.foldl Wrapper.call wrapper).Once ∧
      (responses.foldl Wrapper.call wrapper).satisfiedFlag
        = (wrapper.satisfiedFlag || !responses.isEmpty) := by
  induction responses generalizing wrapper with
  | nil => simp [h]
  | cons res responses ih =>
    obtain ⟨honce, hflag⟩ := ih (once_call h res)
    rw [List.foldl_cons]
    refine ⟨honce, ?_⟩
    rw [hflag, satisfied_call]
    simp

/-- What holds of a call in every state. -/
structure Sound (s : Send) : Prop where
  kept : Kept s.request
  once : s.wrapper.Once
  /-- The request has not begun before it is sent. -/
  unsent : s.stage ≠ .sending → s.request = {}
  satisfied : s.wrapper.satisfiedFlag = !(callbacks s.request.effects).isEmpty

theorem sound_start : Sound {} where
  kept := kept_start
  once := ⟨rfl, rfl⟩
  unsent _ := rfl
  satisfied := rfl

/-- The callbacks so far stay. -/
theorem callbacks_newCallbacks (rq : Request) (e : Event) :
    callbacks (rq.next client call e).effects
      = callbacks rq.effects ++ newCallbacks rq (rq.next client call e) := by
  rw [newCallbacks, callbacks_next, List.drop_left]

theorem sound_next (h : Sound s) (hen : s.Enabled e) :
    Sound (s.next client call sendDelayMs e) := by
  obtain ⟨hkept, honce, hunsent, hsatisfied⟩ := h
  cases e with
  | asyncSend =>
    have hstage : s.stage = .called := hen
    exact ⟨hkept, honce, fun _ => hunsent (by simp [hstage]), hsatisfied⟩
  | delayCompletes error =>
    have hstage : s.stage = .delayed := hen
    exact ⟨hkept, honce, fun _ => hunsent (by simp [hstage]), hsatisfied⟩
  | delayHandler error =>
    have hstage : s.stage = .delayOver error := hen
    exact ⟨hkept, honce, fun _ => hunsent (by simp [hstage]), hsatisfied⟩
  | request e =>
    obtain ⟨hstage, hrequest⟩ := hen
    obtain ⟨honce', hflag⟩ :=
      once_calls honce (newCallbacks s.request (s.request.next client call e))
    refine ⟨kept_step hkept hrequest, honce', fun hns => absurd hstage hns, ?_⟩
    simp only [Send.next]
    rw [hflag, hsatisfied, callbacks_newCallbacks]
    cases callbacks s.request.effects <;> simp

/-- **The call is answerable unless it has been dropped.** -/
theorem Sound.answerable_iff (h : Sound s) : s.Answerable ↔ s.stage ≠ .dropped := by
  obtain ⟨hkept, ⟨hvalue, hcalls⟩, hunsent, hsatisfied⟩ := h
  have hlength : (callbacks s.request.effects).length = 1 → s.wrapper.promise.value.isSome := by
    intro hone
    rw [hvalue, hsatisfied]
    cases hcb : callbacks s.request.effects with
    | nil => simp [hcb] at hone
    | cons _ _ => rfl
  have hset : s.wrapper.promise.setCalls ≤ 1 := by
    rw [hcalls]
    split <;> simp
  constructor
  · rintro ⟨-, hready | hpending | hinside⟩ hdropped
    · have hrequest := hunsent (by simp [hdropped])
      rw [hvalue, hsatisfied, hrequest] at hready
      cases hready
    · simp [Send.Pending, hdropped] at hpending
    · simp [Send.Inside, hdropped] at hinside
  · intro hstage
    refine ⟨hset, ?_⟩
    cases hs : s.stage with
    | called => exact Or.inr (Or.inr (Or.inl hs))
    | delayed => exact Or.inr (Or.inl (Or.inl hs))
    | delayOver error => exact Or.inr (Or.inl (Or.inr (Or.inl ⟨error, hs⟩)))
    | dropped => exact absurd hs hstage
    | sending =>
      -- the promise of the request, once its submit handler has begun
      have htimer (hphase : s.request.phase = .submitting ∨ s.request.phase = .submitted ∨
          s.request.phase = .failed) : s.wrapper.promise.value.isSome ∨ s.Pending ∨ s.Inside := by
        rcases hkept.promised hphase with hcb | harmed | hexpired
        · refine Or.inl (hlength ?_)
          rw [hkept.invoked (by rcases hphase with hp | hp | hp <;> simp [hp]), if_pos hcb]
        · exact Or.inr (Or.inl (Or.inr (Or.inr ⟨hs, Or.inr (Or.inl harmed)⟩)))
        · exact Or.inr (Or.inl (Or.inr (Or.inr ⟨hs, Or.inr (Or.inr hexpired)⟩)))
      cases hphase : s.request.phase with
      | created => exact Or.inr (Or.inr (Or.inr ⟨hs, hphase⟩))
      | posted => exact Or.inr (Or.inl (Or.inr (Or.inr ⟨hs, Or.inl hphase⟩)))
      | submitting => exact htimer (Or.inl hphase)
      | submitted => exact htimer (Or.inr (Or.inl hphase))
      | failed => exact htimer (Or.inr (Or.inr hphase))
      | unsent => exact Or.inl (hlength (hkept.unsent hphase))

end step

/-! ## Whole calls -/

section runs

variable {client : Http2Client} {call : Call} {sendDelayMs : Int} {es : List SendEvent}

/-- A call is dropped by the handler of its delay timer, and stays it. -/
theorem dropped_run (hrun : (send client call sendDelayMs).Run {} es) :
    Sound ((send client call sendDelayMs).after {} es) ∧
      (((send client call sendDelayMs).after {} es).stage = .dropped ↔
        .delayHandler true ∈ es) := by
  refine history (H := fun es s => Sound s ∧ (s.stage = .dropped ↔ .delayHandler true ∈ es))
    ⟨sound_start, by simp⟩ ?_ hrun
  rintro es e - ⟨hsound, hdropped⟩ hen
  generalize (send client call sendDelayMs).after {} es = s at *
  refine ⟨sound_next hsound hen, ?_⟩
  change (s.next client call sendDelayMs e).stage = .dropped ↔ _
  rw [List.mem_append, ← hdropped, List.mem_singleton]
  cases e with
  | asyncSend =>
    have hstage : s.stage = .called := hen
    simp only [Send.next]
    split <;> simp [hstage]
  | delayCompletes error =>
    have hstage : s.stage = .delayed := hen
    simp [Send.next, hstage]
  | delayHandler error =>
    have hstage : s.stage = .delayOver error := hen
    cases error <;> simp [Send.next, hstage]
  | request e => simp [Send.next, hen.1]

/-- **A call of `send` is answerable exactly if its delay timer does not fail.** -/
theorem send_answerable_iff (client : Http2Client) (call : Call) (sendDelayMs : Int)
    (es : List SendEvent) (hrun : (send client call sendDelayMs).Run {} es) :
    ((send client call sendDelayMs).after {} es).Answerable ↔ .delayHandler true ∉ es := by
  obtain ⟨hsound, hdropped⟩ := dropped_run hrun
  rw [hsound.answerable_iff]
  exact not_congr hdropped

/-- The promise is set at most once, whatever the delay timer does. -/
theorem set_once (hrun : (send client call sendDelayMs).Run {} es) :
    ((send client call sendDelayMs).after {} es).wrapper.promise.setCalls ≤ 1 := by
  rw [(dropped_run hrun).1.once.2]
  split <;> simp

end runs

/-- A delayed call, up to the wait for its answer. -/
theorem send_answerable_delayed :
    ((send {} {} 5).after {} [.asyncSend, .delayCompletes false, .delayHandler false,
      .request (.asyncSend true false), .request .startTimer]).Answerable :=
  (send_answerable_iff {} {} 5 _ (by decide)).mpr (by decide)

/-- **A delay timer that fails leaves the caller waiting.** -/
theorem dropped_delay_waits :
    ¬∀ (client : Http2Client) (call : Call) (sendDelayMs : Int) (es : List SendEvent),
      (send client call sendDelayMs).Run {} es →
      ((send client call sendDelayMs).after {} es).Answerable := by
  intro h
  have hanswerable := h {} {} 5 [.asyncSend, .delayCompletes true, .delayHandler true] (by decide)
  rcases hanswerable.2 with hready | hpending | hinside
  · exact absurd hready (by decide)
  · rcases hpending with hdelayed | ⟨error, hover⟩ | ⟨hsending, -⟩
    · cases hdelayed
    · cases hover
    · cases hsending
  · rcases hinside with hcalled | ⟨hsending, -⟩
    · cases hcalled
    · cases hsending

end Http2Comm.Client
