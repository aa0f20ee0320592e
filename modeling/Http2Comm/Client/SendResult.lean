import Http2Comm.Client.Outcome
import Http2Comm.Client.Send

/-!
# What `send` returns

`send` is `async_send` with a promise in between, a delay in front and a wrapper around the
callback. None of them shows in the result: **what a call of `send` returns is the outcome of its
request**, as `async_send` would pass it to the callback, whatever the delay, and it does not change
once it is there (`send_result`). The wrapper's flag and the promise are two guards against a second
value; the first of them is enough.
-/

set_option autoImplicit false

namespace Http2Comm.Client

open Lib Lib.Machine

/-- What the request of a call of `send` sees of it. -/
def SendEvent.request? : SendEvent → Option Event
  | .request e => some e
  | _ => none

/-- The events of the request, in order. -/
def ownRequest (es : List SendEvent) : List Event := es.filterMap SendEvent.request?

section step

variable {client : Http2Client} {call : Call} {sendDelayMs : Int} {es : List SendEvent}

theorem value_call {wrapper : Wrapper} (h : wrapper.Once) (res : Response) :
    (wrapper.call res).promise.value = wrapper.promise.value.or (some res) := by
  obtain ⟨hvalue, -⟩ := h
  unfold Wrapper.call
  cases hflag : wrapper.satisfiedFlag with
  | true =>
    obtain ⟨v, hv⟩ := Option.isSome_iff_exists.mp (hvalue.trans hflag)
    simp [hv]
  | false =>
    have hnone : wrapper.promise.value = none := by simpa [hflag] using hvalue
    simp [Promise.setValue, hnone]

/-- The first call of the wrapper sets the promise. -/
theorem value_calls {wrapper : Wrapper} (h : wrapper.Once) (responses : List Response) :
    (responses.foldl Wrapper.call wrapper).promise.value =
      wrapper.promise.value.or responses.head? := by
  induction responses generalizing wrapper with
  | nil => simp
  | cons res responses ih =>
    rw [List.foldl_cons, ih (once_call h res), value_call h, List.head?_cons]
    cases wrapper.promise.value <;> simp

/-- The request of a call of `send`, and the promise. -/
structure Resolves (client : Http2Client) (call : Call) (es : List SendEvent) (s : Send) :
    Prop where
  sound : Sound s
  run : (request client call).Run {} (ownRequest es)
  request : s.request = (Client.request client call).after {} (ownRequest es)
  value : s.wrapper.promise.value = (callbacks s.request.effects).head?

theorem resolves_run (hrun : (send client call sendDelayMs).Run {} es) :
    Resolves client call es ((send client call sendDelayMs).after {} es) := by
  refine history (H := Resolves client call) ⟨sound_start, trivial, rfl, rfl⟩ ?_ hrun
  rintro es e - ⟨hsound, hrun, hrequest, hvalue⟩ hen
  generalize (send client call sendDelayMs).after {} es = s at *
  have hsound' : Sound (s.next client call sendDelayMs e) := sound_next hsound hen
  cases e with
  | request e =>
    have hown : ownRequest (es ++ [.request e]) = ownRequest es ++ [e] := by
      simp [ownRequest, SendEvent.request?]
    refine ⟨hsound', ?_, ?_, ?_⟩
    · rw [hown]
      exact along_snoc.mpr ⟨hrun, hrequest ▸ hen.2⟩
    · change s.request.next client call e = _
      rw [hown, after_append, ← hrequest]
      rfl
    · change ((newCallbacks s.request (s.request.next client call e)).foldl Wrapper.call
        s.wrapper).promise.value = (callbacks (s.request.next client call e).effects).head?
      rw [value_calls hsound.once, hvalue, callbacks_newCallbacks, List.head?_append]
  | _ =>
    have hown (e : SendEvent) (he : e.request? = none) :
        ownRequest (es ++ [e]) = ownRequest es := by
      simp [ownRequest, he]
    refine ⟨hsound', ?_, ?_, hvalue⟩
    · rw [hown _ rfl]
      exact hrun
    · rw [hown _ rfl]
      exact hrequest

/-- A value once set stays. -/
theorem value_next {s : Send} {e : SendEvent} {res : Response} (h : Sound s)
    (hvalue : s.wrapper.promise.value = some res) :
    (s.next client call sendDelayMs e).wrapper.promise.value = some res := by
  cases e with
  | request e =>
    change (List.foldl Wrapper.call s.wrapper _).promise.value = some res
    rw [value_calls h.once, hvalue]
    rfl
  | _ => exact hvalue

end step

/-- **What `send` returns.** In every run of a call of `send`, with any delay, the events of its
request are a run of `async_send`, the value of the promise is the outcome of these events, which
is the response that `async_send` passes to its callback, and a value once set stays. -/
theorem send_result (client : Http2Client) (call : Call) (sendDelayMs : Int)
    (es : List SendEvent) (hrun : (send client call sendDelayMs).Run {} es) :
    let s := (send client call sendDelayMs).after {} es
    let asynchronous := (request client call).after {} (ownRequest es)
    (request client call).Run {} (ownRequest es) ∧
      s.wrapper.promise.value = (callbacks asynchronous.effects).head? ∧
      s.wrapper.promise.value = outcome client.metrics (ownRequest es) ∧
      ∀ more res, (send client call sendDelayMs).Run s more →
        s.wrapper.promise.value = some res →
        ((send client call sendDelayMs).after s more).wrapper.promise.value = some res := by
  intro s asynchronous
  have hresolves : Resolves client call es s := resolves_run hrun
  have hvalue : s.wrapper.promise.value = (callbacks asynchronous.effects).head? := by
    rw [hresolves.value, hresolves.request]
  refine ⟨hresolves.run, hvalue, ?_, ?_⟩
  · rw [hvalue, callbacks_eq_outcome hresolves.run]
    cases outcome client.metrics (ownRequest es) <;> rfl
  · intro more res hmore hset
    have hkept := invariant (M := send client call sendDelayMs)
      (I := fun s => Sound s ∧ s.wrapper.promise.value = some res)
      (fun s e h hen => ⟨sound_next h.1 hen, value_next h.1 h.2⟩) ⟨hresolves.sound, hset⟩ hmore
    exact hkept.2

/-- A delayed call, whose timer has expired when the data ends. -/
def answeredLate : List SendEvent :=
  [.asyncSend, .delayCompletes false, .delayHandler false, .request (.asyncSend true false),
    .request .startTimer, .request (.submit 3 true true .request),
    .request (.onResponse 4 { statusCode := 200 }), .request (.onData (ascii "ab")),
    .request .timerExpires, .request (.onData []), .request .timerHandler]

theorem send_result_late :
    ((send {} {} 5).after {} answeredLate).wrapper.promise.value =
      some { body := ascii "ab", statusCode := 200, sendingUs := 3 } := by
  rw [(send_result {} {} 5 answeredLate (by decide)).2.2.1]
  decide

end Http2Comm.Client
