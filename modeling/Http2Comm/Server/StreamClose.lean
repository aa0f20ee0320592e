import Http2Comm.Server.Stream

/-!
# The response of a closed stream

`on_close` has two ways to tell the answering party that the response is gone. `Stream::close`
sets `closed_`, which the posted handler tests; `Stream::error` sets `error_`, which `commit`
tests **before** it posts. The second test comes too early: a handler that is already posted
when the stream is reset tests only `closed_`, finds it unset and calls the response
(`error_close_uses_response`).

So the response of a closed stream is safe in the runs in which no close with a non-zero code falls
between the test of `error_` and the run of the posted handler. `ClosesClear` is that condition on
one step and `Quiet` the invariant it gives. Where a step breaks it, nothing stops the run from
going on to such a call (`pending_handler_uses_response`).
-/

set_option autoImplicit false

namespace Http2Comm.Server

open Lib Lib.Machine

/-- `Stream::error` does not run while a response handler is posted or about to be. -/
def ClosesClear (st : Stream) : Event → Prop
  | .mark _ => st.errorCode ≠ 0 → st.work ≠ .posting ∧ st.work ≠ .posted
  | _ => True

instance (st : Stream) (e : Event) : Decidable (ClosesClear st e) :=
  match e with
  | .mark _ => inferInstanceAs (Decidable (_ → _))
  | .data .. | .endOfRequest _ | .process .. | .provision _ | .commit | .timerExpires
  | .timerHandler _ | .timerAborted | .post | .respond | .cancelTimer _ | .notify _ =>
    isTrue trivial

/-- After `error` or `close`, no handler that could use the response is on its way. -/
def Quiet (st : Stream) : Prop :=
  st.closing = .marked ∨ st.closing = .finished →
    st.closed = true ∨ (st.error = true ∧ st.work ≠ .posting ∧ st.work ≠ .posted)

/-! ## One step -/

/-- Every step that closes clear keeps the invariant: a close with code zero sets `closed_`, and
a close under error finds no handler on its way and `commit` lets none start. -/
theorem quiet_step (server : Http2Server) (st : Stream) (e : Event) (hq : Quiet st)
    (h : st.Enabled e ∧ ClosesClear st e) : Quiet (st.next server e) := by
  obtain ⟨hen, hclear⟩ := h
  -- most events move the answering party to a place where no handler is on its way
  have hmoved {w : Work} (hposting : w ≠ .posting) (hposted : w ≠ .posted)
      (hc : st.closing = .marked ∨ st.closing = .finished) :
      st.closed = true ∨ (st.error = true ∧ w ≠ .posting ∧ w ≠ .posted) := by
    rcases hq hc with hclosed | ⟨herror, -, -⟩
    · exact Or.inl hclosed
    · exact Or.inr ⟨herror, hposting, hposted⟩
  unfold Quiet
  rw [closing_next, closed_next, error_next, work_next]
  cases e with
  | data chunk receiveDataLen preReserve => exact hq
  | endOfRequest receptionId => simp [hen.2]
  | process now busyConsumers queueSize a => exact hmoved (by simp) (by simp)
  | provision answer => exact hmoved (by simp) (by simp)
  | commit =>
    intro hc
    rcases hq hc with hclosed | ⟨herror, -, -⟩
    · exact Or.inl hclosed
    · -- `error_` is set, so `commit` arms the timer or discards
      refine Or.inr ⟨herror, ?_⟩
      simp only [herror, if_true]
      split <;> simp
  | timerExpires => exact hmoved (by simp) (by simp)
  | timerHandler answer => exact hmoved (by simp) (by simp)
  | timerAborted => exact hmoved (by simp) (by simp)
  | post =>
    intro hc
    rcases hq hc with hclosed | ⟨-, hposting, -⟩
    · exact Or.inl hclosed
    · -- a handler was about to be posted, so the stream was not closed under error
      exact absurd hen hposting
  | respond => exact hmoved (by simp) (by simp)
  | cancelTimer errorCode => simp
  | mark now =>
    intro _
    by_cases hcode : st.errorCode ≠ 0
    · exact Or.inr ⟨if_pos hcode, hclear hcode⟩
    · exact Or.inl (if_neg hcode)
  | notify counter =>
    intro _
    exact hq (Or.inl hen)

/-- Once `on_close` has finished, a quiet stream emits no call on its response. -/
theorem emits_responseCalls (server : Http2Server) (st : Stream) (e : Event) (hq : Quiet st)
    (hen : st.Enabled e) (hfin : st.closing = .finished) :
    (st.emits server e).filter Effect.isResponseCall = [] := by
  cases e with
  | data chunk receiveDataLen preReserve => rfl
  | endOfRequest receptionId => rfl
  | process now busyConsumers queueSize a =>
    exact (observations_of_neutral (reception_neutral _ _ _ _ _)).2.2.2
  | provision answer =>
    simp only [Stream.emits]
    split <;> rfl
  | commit =>
    simp only [Stream.emits]
    split <;> rfl
  | timerExpires => rfl
  | timerHandler answer => rfl
  | timerAborted => rfl
  | post => rfl
  | respond =>
    have hclosed : st.closed = true := (hq (Or.inr hfin)).resolve_right fun hr => hr.2.2 hen
    simp [Stream.emits, hclosed]
  | cancelTimer errorCode => rfl
  | mark now => exact absurd (hfin.symm.trans hen) (by simp)
  | notify counter => exact absurd (hfin.symm.trans hen) (by simp)

/-- `on_close` is delivered once: a finished one stays finished. -/
theorem closing_finished_step (server : Http2Server) (st : Stream) (e : Event)
    (hen : st.Enabled e) (hfin : st.closing = .finished) :
    (st.next server e).closing = .finished := by
  rw [closing_next]
  cases e with
  | cancelTimer errorCode => exact absurd (hfin.symm.trans hen) (by simp)
  | mark now => exact absurd (hfin.symm.trans hen) (by simp)
  | notify counter => rfl
  | _ => exact hfin

/-! ## Whole runs -/

/-- **No use of the response after the stream has closed**, in every run in which no close under
error overtakes a response handler: once `on_close` has finished, the calls on the response stay
what they are. -/
theorem no_response_after_close (server : Http2Server) (req : Request)
    (before rest : List Event) (hrun : (stream server).Run (.start req) (before ++ rest))
    (hclear : (stream server).Along ClosesClear (.start req) (before ++ rest))
    (hfin : ((stream server).after (.start req) before).closing = .finished) :
    ((stream server).after (.start req) (before ++ rest)).responseCalls
      = ((stream server).after (.start req) before).responseCalls := by
  obtain ⟨hbefore, hrest⟩ := along_append.mp (hrun.and hclear)
  have hq : Quiet ((stream server).after (.start req) before) :=
    invariant_along (quiet_step server) (by simp [Quiet, Stream.start]) hbefore
  rw [after_append]
  refine (invariant_along (I := fun st => Quiet st ∧ st.closing = .finished ∧
    st.responseCalls = ((stream server).after (.start req) before).responseCalls) ?_
    ⟨hq, hfin, rfl⟩ hrest).2.2
  rintro st e ⟨hst, hfin', hcalls⟩ he
  refine ⟨quiet_step server st e hst he, closing_finished_step server st e he.1 hfin', ?_⟩
  have hnone := emits_responseCalls server st e hst he.1 hfin'
  calc ((stream server).next st e).responseCalls
      = st.responseCalls ++ (st.emits server e).filter Effect.isResponseCall :=
        responseCalls_append (effects_next server st e)
    _ = st.responseCalls := by rw [hnone, List.append_nil]
    _ = _ := hcalls

/-- The client resets the stream while its delay is provisioned; the `commit` that comes after
`on_close` finds `error_`. -/
theorem no_response_after_close_reset :
    ((stream {}).after (.start {}) ([.endOfRequest 1, .process 0 false 0 acceptAll,
        .cancelTimer 8, .mark 5, .notify 1] ++ [.provision 0, .commit])).responseCalls = [] :=
  no_response_after_close {} {} _ [.provision 0, .commit] (by decide) (by decide) (by decide)

/-- **A reset that overtakes the posted handler.** The handler is posted, the peer resets the
stream with `CANCEL`, `on_close` finishes, and only then the handler runs: it calls
`res.cancel(8)` on the response of the closed stream. -/
theorem error_close_uses_response :
    ¬∀ (server : Http2Server) (req : Request) (before rest : List Event),
      (stream server).Run (.start req) (before ++ rest) →
      ((stream server).after (.start req) before).closing = .finished →
      ((stream server).after (.start req) (before ++ rest)).responseCalls
        = ((stream server).after (.start req) before).responseCalls := by
  intro h
  have := h {} {} [.endOfRequest 1, .process 0 false 0 acceptAll, .provision 0, .commit, .post,
    .cancelTimer 8, .mark 5, .notify 1] [.respond] (by decide) (by decide)
  exact absurd this (by decide)

/-- Whenever a close under error meets a handler that is posted or about to be, the run can go on
to a call on the closed stream's response. -/
theorem pending_handler_uses_response (server : Http2Server) (st : Stream) (now : Int)
    (counter : Nat) (hclosing : st.closing = .timerCancelled) (hcode : st.errorCode ≠ 0)
    (hwork : st.work = .posting ∨ st.work = .posted) (hopen : st.closed = false) :
    ∃ rest, (stream server).Run st ([.mark now, .notify counter] ++ rest) ∧
      ((stream server).after st [.mark now, .notify counter]).closing = .finished ∧
      ((stream server).after st ([.mark now, .notify counter] ++ rest)).responseCalls
        ≠ ((stream server).after st [.mark now, .notify counter]).responseCalls := by
  have hwritten (r : Response) : r.written.filter Effect.isResponseCall ≠ [] := by
    unfold Response.written
    split <;> simp [Effect.isResponseCall]
  rcases hwork with hw | hw
  · refine ⟨[.post, .respond], ?_⟩
    simp [Run, stream, Stream.Enabled, Stream.next, Stream.markError, hclosing, hcode, hw,
      Stream.respond, hopen, Stream.responseCalls, Effect.isResponseCall, hwritten]
  · refine ⟨[.respond], ?_⟩
    simp [Run, stream, Stream.Enabled, Stream.next, Stream.markError, hclosing, hcode, hw,
      Stream.respond, hopen, Stream.responseCalls, Effect.isResponseCall, hwritten]

end Http2Comm.Server
