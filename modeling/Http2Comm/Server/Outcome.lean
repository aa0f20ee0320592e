import Http2Comm.Server.Handler

/-!
# The outcome of a stream

What a stream answers, said without timers, flags or threads: **nothing before its posted handler
runs; then the response of its reception, unless `on_close` came in between**. A normal close
silences it, and a close under error overwrites the status code, which the handler then reads as
any other: an error code below 100 is a `cancel`, another one a status line. `outcome` is that
sentence as a function of the list of events, and `stream_outcome` is that the streams of a
server compute it, however their parties interleave.

The response of the reception is a function of the request and of the answers that the reception
reads (`receptionOf`). That it is still the response which is posted needs the `error_` test of
`commit`: a close under error that comes before it leaves nothing to post.
-/

set_option autoImplicit false

namespace Http2Comm.Server

open Lib Lib.Machine

/-! ## What has happened -/

def Event.isRespond : Event → Bool
  | .respond => true
  | _ => false

def Event.isMark : Event → Bool
  | .mark _ => true
  | _ => false

/-- The argument of `on_close`, `0` before it. -/
def closeArgument (es : List Event) : Nat :=
  ((es.filterMap fun | .cancelTimer errorCode => some errorCode | _ => none).getLast?).getD 0

/-- The error code under which the stream is marked, by `Stream::close` or `Stream::error`. -/
def closeCode (es : List Event) : Option Nat :=
  if es.any Event.isMark then some (closeArgument es) else none

/-- The response that the reception computes, from the request alone. -/
def receptionOf (server : Http2Server) (req : Request) (es : List Event) : Response :=
  ((es.filterMap fun
    | .process now busyConsumers queueSize a =>
      some ((Stream.start req).reception server now
        (server.congestion busyConsumers queueSize) a).response
    | _ => none).getLast?).getD {}

theorem closeArgument_snoc (es : List Event) (e : Event) : closeArgument (es ++ [e]) =
    match e with
    | .cancelTimer errorCode => errorCode
    | _ => closeArgument es := by
  cases e <;> simp [closeArgument]

theorem receptionOf_snoc (server : Http2Server) (req : Request) (es : List Event) (e : Event) :
    receptionOf server req (es ++ [e]) =
      match e with
      | .process now busyConsumers queueSize a =>
        ((Stream.start req).reception server now
          (server.congestion busyConsumers queueSize) a).response
      | _ => receptionOf server req es := by
  cases e <;> simp [receptionOf]

/-- The response once the stream is marked under the error code, if it is. -/
def Response.marked (response : Response) : Option Nat → Response
  | none | some 0 => response
  | some errorCode => { response with statusCode := errorCode }

theorem closeCode_eq_none {es : List Event} :
    closeCode es = none ↔ es.any Event.isMark = false := by
  unfold closeCode
  split <;> simp_all

/-- What the posted handler calls, given what came before it. -/
def answer (server : Http2Server) (req : Request) (before : List Event) : List Effect :=
  if closeCode before = some 0 then []
  else ((receptionOf server req before).marked (closeCode before)).written

/-- The outcome of a stream: the answer of its posted handler. -/
def outcome (server : Http2Server) (req : Request) (es : List Event) : List Effect :=
  if es.any Event.isRespond then answer server req (es.takeWhile (!·.isRespond)) else []

/-- What came before the first such event does not grow any more. -/
theorem takeWhile_snoc_of_any {p : Event → Bool} {es : List Event} (h : es.any p = true)
    (e : Event) : (es ++ [e]).takeWhile (!p ·) = es.takeWhile (!p ·) := by
  induction es with
  | nil => simp at h
  | cons x es ih =>
    cases hx : p x with
    | true => simp [hx]
    | false =>
      rw [List.any_cons, hx, Bool.false_or] at h
      simp [hx, ih h]

theorem takeWhile_snoc_of_not_any {p : Event → Bool} {es : List Event} (h : es.any p = false)
    {e : Event} (he : p e = true) : (es ++ [e]).takeWhile (!p ·) = es := by
  have hquiet : ∀ x ∈ es, (!p x) = true := by
    intro x hx
    simpa using List.any_eq_false.mp h x hx
  simp [List.takeWhile_append_of_pos hquiet, he]

theorem outcome_snoc (server : Http2Server) (req : Request) (es : List Event) (e : Event) :
    outcome server req (es ++ [e]) =
      if es.any Event.isRespond then outcome server req es
      else if e.isRespond then answer server req es else [] := by
  cases hany : es.any Event.isRespond with
  | true => simp [outcome, hany, takeWhile_snoc_of_any hany]
  | false =>
    cases he : e.isRespond with
    | true => simp [outcome, hany, he, takeWhile_snoc_of_not_any hany he]
    | false => simp [outcome, hany, he]

/-! ## One stream -/

section step

variable {server : Http2Server} {st : Stream} {e : Event} {es : List Event} {req : Request}

theorem req_next (server : Http2Server) (st : Stream) (e : Event) :
    (st.next server e).req = st.req := by
  cases e
  all_goals simp only [Stream.next, Stream.provisionDelay, Stream.commit, Stream.timerHandler,
    Stream.respond, Stream.cancelTimer, Stream.markError, Stream.markClosed, Stream.emit]
  all_goals repeat' split
  all_goals rfl

theorem errorCode_next (server : Http2Server) (st : Stream) (e : Event) :
    (st.next server e).errorCode =
      match e with
      | .cancelTimer errorCode => errorCode
      | _ => st.errorCode := by
  cases e
  all_goals simp only [Stream.next, Stream.provisionDelay, Stream.commit, Stream.timerHandler,
    Stream.respond, Stream.cancelTimer, Stream.markError, Stream.markClosed, Stream.emit]
  all_goals repeat' split
  all_goals rfl

theorem response_next (server : Http2Server) (st : Stream) (e : Event) :
    (st.next server e).response =
      match e with
      | .process now busyConsumers queueSize a =>
        (st.reception server now (server.congestion busyConsumers queueSize) a).response
      | .mark _ =>
        if st.errorCode ≠ 0 then { st.response with statusCode := st.errorCode } else st.response
      | _ => st.response := by
  cases e
  all_goals simp only [Stream.next, Stream.provisionDelay, Stream.commit, Stream.timerHandler,
    Stream.respond, Stream.cancelTimer, Stream.markError, Stream.markClosed, Stream.emit]
  all_goals repeat' split
  all_goals rfl

/-- The response of a reception reads the request and what is there of the response. -/
theorem response_reception {st' : Stream} (hreq : st.req = st'.req)
    (hresponse : st.response = st'.response) (server : Http2Server) (now : Int)
    (congestion : Bool) (a : Answers) :
    (st.reception server now congestion a).response =
      (st'.reception server now congestion a).response := by
  simp only [Stream.reception, hreq, hresponse]
  split <;> rfl

/-- The calls on the response are those of the posted handler. -/
theorem responseCalls_next (server : Http2Server) (st : Stream) (e : Event) :
    (st.next server e).responseCalls = st.responseCalls ++
      match e with
      | .respond => if st.closed then [] else st.response.written
      | _ => [] := by
  rw [responseCalls_append (effects_next server st e)]
  congr 1
  cases e with
  | process now busyConsumers queueSize a =>
    exact (observations_of_neutral (reception_neutral _ _ _ _ _)).2.2.2
  | mark now =>
    simp only [Stream.emits]
    split <;> exact (observations_of_neutral (updateMetrics_neutral _ _ _ _)).2.2.2
  | respond =>
    simp only [Stream.emits, Response.written]
    split_ifs <;> rfl
  | provision answer =>
    simp only [Stream.emits]
    split <;> rfl
  | commit =>
    simp only [Stream.emits]
    split <;> rfl
  | notify counter =>
    simp only [Stream.emits]
    split <;> rfl
  | _ => rfl

/-- The members of a stream, as functions of the events so far. -/
structure Tracks (server : Http2Server) (req : Request) (es : List Event) (st : Stream) : Prop where
  request : st.req = req
  errorCode : st.errorCode = closeArgument es
  unmarked : st.closing = .pending ∨ st.closing = .timerCancelled → closeCode es = none
  closed : st.closed = true ↔ closeCode es = some 0
  error : st.error = true ↔ ∃ code, closeCode es = some (code + 1)
  unreceived : st.work = .receiving ∨ st.work = .queued → receptionOf server req es = {}
  response : st.error = false → st.response = receptionOf server req es
  /-- An error before the last `commit` leaves the response to nobody. -/
  posted : st.work = .posting ∨ st.work = .posted →
    st.response = (receptionOf server req es).marked (closeCode es)
  responded : es.any Event.isRespond = true → st.work = .finished
  calls : st.responseCalls = outcome server req es

theorem tracks_start (server : Http2Server) (req : Request) :
    Tracks server req [] (.start req) where
  request := rfl
  errorCode := rfl
  unmarked _ := rfl
  closed := by simp [Stream.start, closeCode]
  error := by simp [Stream.start, closeCode]
  unreceived _ := rfl
  response _ := rfl
  posted h := by simp [Stream.start] at h
  responded h := by simp at h
  calls := rfl

/-- `on_close` comes once, so its code stays. -/
theorem Tracks.closeCode_snoc (h : Tracks server req es st) (hen : st.Enabled e) :
    closeCode (es ++ [e]) =
      match e with
      | .mark _ => some st.errorCode
      | _ => closeCode es := by
  cases e with
  | cancelTimer errorCode =>
    have hany := closeCode_eq_none.mp (h.unmarked (Or.inl hen))
    simp [closeCode, hany, Event.isMark]
  | mark now => simp [closeCode, Event.isMark, closeArgument_snoc, h.errorCode]
  | _ => simp [closeCode, Event.isMark, closeArgument_snoc]

/-- A marked stream is marked under its error code. -/
theorem Tracks.flags_next (h : Tracks server req es st) (hen : st.Enabled e) :
    ((st.next server e).closed = true ↔ closeCode (es ++ [e]) = some 0) ∧
      ((st.next server e).error = true ↔ ∃ code, closeCode (es ++ [e]) = some (code + 1)) := by
  rw [closed_next, error_next, h.closeCode_snoc hen]
  have hclosed := h.closed
  have herror := h.error
  cases e with
  | mark now =>
    have hnone := h.unmarked (Or.inr hen)
    cases hcode : st.errorCode <;> simp_all
  | _ => exact ⟨hclosed, herror⟩

theorem marked_of_no_error {response : Response} {code : Option Nat}
    (h : ¬∃ errorCode, code = some (errorCode + 1)) : response.marked code = response := by
  match code with
  | none | some 0 => rfl
  | some (errorCode + 1) => exact absurd ⟨errorCode, rfl⟩ h

/-- Before its `process` a stream has no response but that of its constructor. -/
theorem Tracks.unreceived_next (h : Tracks server req es st) (hen : st.Enabled e)
    (hw : (st.next server e).work = .receiving ∨ (st.next server e).work = .queued) :
    receptionOf server req (es ++ [e]) = {} := by
  rw [work_next] at hw
  rw [receptionOf_snoc]
  have hunreceived := h.unreceived
  cases e with
  | commit => split_ifs at hw <;> simp at hw
  | cancelTimer errorCode =>
    simp only at hw
    split_ifs at hw
    · simp at hw
    · exact hunreceived hw
  | endOfRequest receptionId => exact hunreceived (Or.inl hen.1)
  | process now busyConsumers queueSize a => simp at hw
  | _ => simp_all

/-- The response is that of the reception, until `Stream::error`. -/
theorem Tracks.response_next (h : Tracks server req es st) (hen : st.Enabled e)
    (herror : (st.next server e).error = false) :
    (st.next server e).response = receptionOf server req (es ++ [e]) := by
  have herror' : st.error = false := by
    rw [error_next] at herror
    cases e <;> simp_all
  have hresponse := h.response herror'
  rw [Server.response_next, receptionOf_snoc]
  cases e with
  | process now busyConsumers queueSize a =>
    -- the reception finds the response as the constructor left it
    refine response_reception ?_ ?_ server now _ a
    · rw [h.request]
      rfl
    · rw [hresponse, h.unreceived (Or.inr hen)]
      rfl
  | mark now =>
    have hcode : st.errorCode = 0 := by
      rw [error_next] at herror
      by_contra hcode
      simp [hcode] at herror
    simpa [hcode] using hresponse
  | _ => exact hresponse

/-- `commit` posts only without error, and then the response is the one received. -/
theorem Tracks.posted_commit (h : Tracks server req es st)
    (hw : (if st.needTimer = true then Work.armed else if st.error = true then .finished
      else .posting) = .posting) :
    st.response = (receptionOf server req es).marked (closeCode es) := by
  have herror : st.error = false := by
    by_contra herror
    simp only [Bool.not_eq_false] at herror
    simp only [herror] at hw
    split_ifs at hw
  have hno := mt h.error.mpr (by simp [herror])
  rw [marked_of_no_error hno]
  exact h.response herror

/-- What is posted is the response of the reception, under the error code of a close. -/
theorem Tracks.posted_next (h : Tracks server req es st) (hen : st.Enabled e)
    (hw : (st.next server e).work = .posting ∨ (st.next server e).work = .posted) :
    (st.next server e).response =
      (receptionOf server req (es ++ [e])).marked (closeCode (es ++ [e])) := by
  rw [h.closeCode_snoc hen]
  rw [work_next] at hw
  rw [Server.response_next]
  have hposted := h.posted
  cases e with
  | commit =>
    rw [receptionOf_snoc]
    refine h.posted_commit (hw.resolve_right ?_)
    simp only
    split_ifs <;> simp
  | post => simpa [receptionOf_snoc] using hposted (Or.inl hen)
  | mark now =>
    have hnone := h.unmarked (Or.inr hen)
    have hresponse := hposted hw
    rw [hnone] at hresponse
    rw [receptionOf_snoc, hresponse]
    cases st.errorCode <;> simp [Response.marked]
  | cancelTimer errorCode =>
    simp only at hw
    split_ifs at hw
    · simp at hw
    · simpa [receptionOf_snoc] using hposted hw
  | data chunk receiveDataLen preReserve => simpa [receptionOf_snoc] using hposted hw
  | notify counter => simpa [receptionOf_snoc] using hposted hw
  | _ => simp at hw

/-- The posted handler is the one that calls, and once. -/
theorem Tracks.calls_next (h : Tracks server req es st) (hen : st.Enabled e) :
    (st.next server e).responseCalls = outcome server req (es ++ [e]) := by
  rw [responseCalls_next, outcome_snoc, h.calls]
  have hresponded := h.responded
  cases hany : es.any Event.isRespond with
  | true =>
    have hw := hresponded hany
    cases e <;> simp_all [Stream.Enabled]
  | false =>
    have hnothing : outcome server req es = [] := by simp [outcome, hany]
    cases e with
    | respond =>
      have hw : st.work = .posted := hen
      have hclosed := h.closed
      have hresponse := h.posted (Or.inr hw)
      simp only [hnothing, answer, List.nil_append, Event.isRespond, if_true]
      by_cases hcode : closeCode es = some 0
      · simp [hcode, hclosed.mpr hcode]
      · have hopen : st.closed = false := by simpa using mt hclosed.mp hcode
        simp [hcode, hopen, hresponse]
    | _ => simp [hnothing, Event.isRespond]

/-- **One step tracks the events.** -/
theorem tracks_step (h : Tracks server req es st) (hen : st.Enabled e) :
    Tracks server req (es ++ [e]) (st.next server e) where
  request := (req_next server st e).trans h.request
  errorCode := by
    rw [errorCode_next, closeArgument_snoc]
    cases e <;> simp [h.errorCode]
  unmarked hclosing := by
    rw [closing_next] at hclosing
    rw [h.closeCode_snoc hen]
    have hunmarked := h.unmarked
    cases e with
    | cancelTimer errorCode => exact hunmarked (Or.inl hen)
    | mark now => simp at hclosing
    | notify counter => simp at hclosing
    | _ => exact hunmarked hclosing
  closed := (h.flags_next hen).1
  error := (h.flags_next hen).2
  unreceived := h.unreceived_next hen
  response := h.response_next hen
  posted := h.posted_next hen
  responded hany := by
    rw [List.any_append, Bool.or_eq_true] at hany
    rw [work_next]
    rcases hany with hany | hany
    · have hw := h.responded hany
      cases e <;> simp_all [Stream.Enabled]
    · cases e <;> simp [Event.isRespond] at hany ⊢
  calls := h.calls_next hen

end step

/-! ## The streams of a server -/

theorem tracks_run {server : Http2Server} {req : Request} {es : List Event}
    (hrun : (stream server).Run (.start req) es) :
    Tracks server req es ((stream server).after (.start req) es) :=
  history (H := Tracks server req) (tracks_start server req)
    (fun _ _ _ h hen => tracks_step h hen) hrun

/-- **What a stream answers.** In every run of a server, the calls on the response of a stream are
the outcome of the stream's own events. -/
theorem stream_outcome {server : Http2Server} {evs : List ServerEvent}
    (hrun : (serving server).Run {} evs) :
    ∀ i st, ((serving server).after {} evs).streams[i]? = some st →
      st.responseCalls = outcome server st.req (ownEvents i evs) := by
  intro i st hst
  obtain ⟨req, halone, rfl⟩ := stream_alone hrun hst
  have htracks := tracks_run halone
  rw [htracks.calls, htracks.request]

/-- Two streams at once: one is closed under error after its post, the other answers. -/
theorem stream_outcome_interleaved :
    let evs : List ServerEvent :=
      [.request {}, .request {}, .on 0 (.endOfRequest 1), .on 1 (.endOfRequest 2),
        .on 0 (.process 7 false 0 acceptAll), .on 1 (.process 8 false 0 acceptAll),
        .on 0 (.provision 0), .on 0 .commit, .on 0 .post, .on 1 (.provision 0), .on 1 .commit,
        .on 0 (.cancelTimer 8), .on 0 (.mark 9), .on 0 .respond, .on 1 .post, .on 1 .respond]
    ∀ i st, ((serving {}).after {} evs).streams[i]? = some st →
      st.responseCalls = outcome {} st.req (ownEvents i evs) := by
  intro evs
  exact stream_outcome (by decide)

example : outcome {} {} [.endOfRequest 1, .process 7 false 0 acceptAll, .provision 0, .commit,
    .post, .cancelTimer 8, .mark 9, .respond] = [.cancel 8] := by decide

end Http2Comm.Server
