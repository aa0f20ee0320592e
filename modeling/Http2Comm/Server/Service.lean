import Http2Comm.Lib.Service
import Http2Comm.Server.Completion

/-!
# The server as a service

What a server is for, with its streams, workers, timers and `on_close` out of sight: it is asked by
requests, and each request it answers once, with what the reception **of that very request** in this
very run computed, or it drops it, once. `serving_serves` says that every run of a server, seen from
there, is a run of that service: no interleaving answers a request twice, or with the response of
another, or answers and then drops it, or writes to a stream that has nothing pending.

A request is dropped where its stream is closed before the response is written: while the request
is still received, while the timer runs, at a `commit` that finds the stream in error, or at a
posted handler that finds it closed.
-/

set_option autoImplicit false

namespace Http2Comm.Server

open Lib Lib.Machine

/-- The request that the stream has still to answer. -/
def Stream.pends (st : Stream) : Option Request :=
  if st.work = .finished ∨ (st.work = .receiving ∧ st.closing ≠ .pending) then none
  else some st.req

/-- The calls on its response that an event of a stream makes. -/
def newCalls (st st' : Stream) : List Effect := st'.responseCalls.drop st.responseCalls.length

/-- What an event does to the request: what is written answers it, and otherwise it is dropped where
it is no longer pending. -/
def Stream.replies (server : Http2Server) (st : Stream) (e : Event) :
    Option (Option (List Effect)) :=
  match newCalls st (st.next server e) with
  | [] => if (st.next server e).pends = st.pends then none else some none
  | calls => some (some calls)

/-- What the events of a stream, up to its posted handler, have to say to its request: the response
that its `process` has computed, with the error code of `on_close` if that has come, and not after a
normal close. -/
def AnswersTo (server : Http2Server) (req : Request) (es : List Event) (calls : List Effect) :
    Prop :=
  ∃ before, es = before ++ [.respond] ∧ closeCode before ≠ some 0 ∧
    ∃ now busyConsumers queueSize a, .process now busyConsumers queueSize a ∈ before ∧
      calls = (((Stream.start req).reception server now
        (server.congestion busyConsumers queueSize) a).response.marked (closeCode before)).written

section step

variable {server : Http2Server} {req : Request} {st : Stream} {e : Event} {es : List Event}

theorem newCalls_next (server : Http2Server) (st : Stream) (e : Event) :
    newCalls st (st.next server e) =
      match e with
      | .respond => if st.closed then [] else st.response.written
      | _ => [] := by
  cases e <;> simp only [newCalls, responseCalls_next, List.drop_left]

/-- What is pending stays, until it is settled for good. -/
theorem pends_next (hen : st.Enabled e) : (st.next server e).pends = st.pends ∨
    (st.pends = some st.req ∧ (st.next server e).pends = none) := by
  unfold Stream.pends
  rw [work_next, closing_next, req_next]
  cases e with
  | data chunk receiveDataLen preReserve => exact Or.inl rfl
  | endOfRequest receptionId => simp [hen.1, hen.2]
  | process now busyConsumers queueSize a =>
    have hw : st.work = .queued := hen
    simp [hw]
  | provision answer =>
    have hw : st.work = .provisioning := hen
    simp [hw]
  | commit =>
    have hw : st.work = .committing := hen
    cases hneed : st.needTimer <;> cases herror : st.error <;> simp [hw]
  | timerExpires =>
    have hw : st.work = .armed := hen
    simp [hw]
  | timerHandler answer =>
    have hw : st.work = .expired := hen
    simp [hw]
  | timerAborted =>
    have hw : st.work = .aborted := hen
    simp [hw]
  | post =>
    have hw : st.work = .posting := hen
    simp [hw]
  | respond =>
    have hw : st.work = .posted := hen
    simp [hw]
  | cancelTimer errorCode =>
    have hc : st.closing = .pending := hen
    simp only [hc]
    split_ifs <;> simp_all
  | mark now =>
    have hc : st.closing = .timerCancelled := hen
    simp [hc]
  | notify counter =>
    have hc : st.closing = .marked := hen
    simp [hc]

/-- Once its reception has run, the response of the stream is that of its `process`. -/
theorem received_run (hrun : (stream server).Run (.start req) es)
    (hw : ¬(((stream server).after (.start req) es).work = .receiving ∨
      ((stream server).after (.start req) es).work = .queued)) :
    ∃ now busyConsumers queueSize a, .process now busyConsumers queueSize a ∈ es ∧
      receptionOf server req es =
        ((Stream.start req).reception server now (server.congestion busyConsumers queueSize)
          a).response := by
  refine history (H := fun es st => ¬(st.work = .receiving ∨ st.work = .queued) →
    ∃ now busyConsumers queueSize a, .process now busyConsumers queueSize a ∈ es ∧
      receptionOf server req es =
        ((Stream.start req).reception server now (server.congestion busyConsumers queueSize)
          a).response) (fun hw => absurd (Or.inl rfl) hw) ?_ hrun hw
  intro es e _ h hen hw
  change Stream.Enabled _ e at hen
  have hwaits : ((Stream.next server _ e).work = .receiving ∨ _) ↔ _ := unreceived_next_iff hen
  rw [receptionOf_snoc]
  cases e with
  | process now busyConsumers queueSize a =>
    exact ⟨now, busyConsumers, queueSize, a, by simp, rfl⟩
  | _ =>
    obtain ⟨now, busyConsumers, queueSize, a, hmem, heq⟩ :=
      h fun hbefore => hw (hwaits.mpr ⟨hbefore, rfl⟩)
    exact ⟨now, busyConsumers, queueSize, a, List.mem_append_left _ hmem, heq⟩

/-- What the posted handler writes answers the request. -/
theorem written_answers (hrun : (stream server).Run (.start req) es)
    (hen : ((stream server).after (.start req) es).Enabled .respond)
    (hopen : ((stream server).after (.start req) es).closed = false) :
    AnswersTo server req (es ++ [.respond])
      ((stream server).after (.start req) es).response.written := by
  have htracks := tracks_run hrun
  have hw : ((stream server).after (.start req) es).work = .posted := hen
  obtain ⟨now, busyConsumers, queueSize, a, hmem, heq⟩ := received_run hrun (by simp [hw])
  refine ⟨es, rfl, ?_, now, busyConsumers, queueSize, a, hmem, ?_⟩
  · intro hclosed
    rw [htracks.closed.mpr hclosed] at hopen
    cases hopen
  · rw [htracks.posted (Or.inr hw), heq]

/-- Of what an event writes and what it leaves pending, what it is to the request. -/
theorem replies_eq (hen : st.Enabled e) : st.replies server e =
    match e with
    | .respond => some (if st.closed then none else some st.response.written)
    | _ => if (st.next server e).pends = st.pends then none else some none := by
  unfold Stream.replies
  rw [newCalls_next]
  cases e with
  | respond =>
    have hw : st.work = .posted := hen
    have hbefore : st.pends = some st.req := by simp [Stream.pends, hw]
    have hafter : (st.next server .respond).pends = none := by simp [Stream.pends, work_next]
    by_cases hclosed : st.closed = true
    · simp [hclosed, hbefore, hafter]
    · have hwritten : ∃ call calls, st.response.written = call :: calls := by
        unfold Response.written
        split <;> exact ⟨_, _, rfl⟩
      obtain ⟨call, calls, hcons⟩ := hwritten
      simp [hclosed, hcons]
  | _ => rfl

end step

/-- **A stream settles its request once.** -/
theorem stream_settles (server : Http2Server) :
    Settles (stream server) (∃ req, · = Stream.start req) Stream.pends (AnswersTo server)
      (Stream.replies server) where
  start := by
    rintro _ ⟨req, rfl⟩
    rfl
  settles := by
    rintro _ es e r ⟨req, rfl⟩ hrun hen hreplies
    have htracks := tracks_run hrun
    have hwritten := written_answers hrun
    change Stream.Enabled _ e at hen
    generalize (stream server).after (.start req) es = st at *
    change st.replies server e = some r at hreplies
    change ∃ a, st.pends = some a ∧ (st.next server e).pends = none ∧
      ∀ b ∈ r, AnswersTo server a (es ++ [e]) b
    rw [replies_eq hen] at hreplies
    by_cases hrespond : e = .respond
    · subst hrespond
      have hw : st.work = .posted := hen
      obtain rfl := Option.some.inj hreplies
      refine ⟨req, by simp [Stream.pends, hw, htracks.request],
        by simp [Stream.pends, work_next], ?_⟩
      intro calls hcalls
      split at hcalls
      · simp at hcalls
      · next hclosed =>
        obtain rfl : st.response.written = calls := by simpa using hcalls
        exact hwritten hen (by simpa using hclosed)
    · have hdropped :
          (if (st.next server e).pends = st.pends then none else some none) = some r := by
        rw [← hreplies]
        cases e with
        | respond => exact absurd rfl hrespond
        | _ => rfl
      split at hdropped
      · simp at hdropped
      · next hchanged =>
        obtain rfl := Option.some.inj hdropped
        obtain ⟨hbefore, hafter⟩ := (pends_next hen).resolve_left hchanged
        exact ⟨_, hbefore, hafter, by simp⟩
  silent := by
    rintro _ es e ⟨req, rfl⟩ hrun hen hreplies
    change Stream.Enabled _ e at hen
    generalize (stream server).after (.start req) es = st at *
    change st.replies server e = none at hreplies
    change (st.next server e).pends = st.pends
    rw [replies_eq hen] at hreplies
    by_contra hchanged
    cases e <;> simp [hchanged] at hreplies

/-! ## Whole runs -/

section runs

variable {server : Http2Server} {evs : List ServerEvent}

/-- What the events are to the service. -/
def served (server : Http2Server) (evs : List ServerEvent) :
    List (ServiceEvent (Nat × Request) (List Effect)) :=
  ((stream server).pool (∃ req, · = Stream.start req)).seen
    (poolServiceEvent Stream.pends (Stream.replies server)) [] (evs.map ServerEvent.toPool)

/-- The requests taken, in order. -/
def taken (evs : List ServerEvent) : List Request :=
  evs.filterMap fun | .request req => some req | _ => none

/-- The service is asked by the requests that are taken, each by the index of its stream. -/
theorem asked_served (hrun : (serving server).Run {} evs) :
    ServiceEvent.asked (served server evs) = (taken evs).mapIdx Prod.mk := by
  rw [served, asked_pool (stream_settles server).start _ (streams_pool hrun).1, startedOf,
    List.filterMap_map, taken]
  refine congrArg (fun f => (List.filterMap f evs).mapIdx Prod.mk) (funext fun a => ?_)
  cases a <;> rfl

/-- The requests that have still to be answered, each with the index of its stream. -/
def Serving.pending (sv : Serving) : Multiset (Nat × Request) := pendingOf Stream.pends sv.streams

/-- What answers request `i` of the run: what the events of stream `i` have to say to it. -/
def RequestAnswered (server : Http2Server) (evs : List ServerEvent) :
    Nat × Request → List Effect → Prop :=
  AnsweredBy (AnswersTo server) (evs.map ServerEvent.toPool)

/-- At rest, what is pending is what is still received. -/
theorem pends_atRest {sv : Serving} (hrest : sv.AtRest) {st : Stream} (hst : st ∈ sv.streams) :
    st.pends = none ↔ ¬(st.work = .receiving ∧ st.closing = .pending) := by
  obtain ⟨hw, hc⟩ := hrest st hst
  unfold Stream.pends
  rcases hw with hw | hw <;> rcases hc with hc | hc <;> simp [hw, hc]

end runs

/-- One request is answered after a delay, one is reset while its timer runs, one is still
received when its stream is closed. -/
def threeRequests : List ServerEvent :=
  [.request { method := ascii "GET" }, .request { method := ascii "PUT" },
    .request { method := ascii "POST" }, .on 0 (.endOfRequest 1), .on 1 (.endOfRequest 2),
    .on 0 (.process 7 false 0 acceptAll), .on 1 (.process 8 false 0 acceptAll),
    .on 1 (.provision 5), .on 0 (.provision 0), .on 1 .commit, .on 0 .commit, .on 0 .post,
    .on 1 (.cancelTimer 8), .on 2 (.cancelTimer 0), .on 0 .respond, .on 2 (.mark 9),
    .on 1 (.mark 9), .on 1 .timerAborted, .on 1 (.notify 2), .on 2 (.notify 2)]

end Http2Comm.Server
