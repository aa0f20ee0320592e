import Http2Comm.Lib.Machine
import Http2Comm.Server.Http2Server
import Http2Comm.URLFunctions

/-!
# `Stream` — one server stream and everything that runs on it

A stream is touched by four parties: nghttp2 (`on_data`, `on_close`), the worker that runs
`process`, the timers `io_context` (expiry of a delayed commit), and the response's `io_context`
(the handler `commit` posts). None of them waits for another, so the model is a machine whose
events are **the statements of these parties that others can see**, and its runs are their
interleavings.

## Where each party stands

`Work` is the position of the party that answers. There is one such position and not two,
because the worker and the timer never answer at the same time: `commit` returns right after
`async_wait`, and what continues is the expiry handler.

```
receiving ─endOfRequest→ queued ─process→ provisioning ─provision→ committing
committing ─commit→ armed | posting | finished
armed ─timerExpires→ expired ─timerHandler→ committing
armed ─cancelTimer→ aborted ─timerAborted→ finished
posting ─post→ posted ─respond→ finished
```

`Closing` is the position of `on_close`: it cancels the timer, then runs `Stream::error` or
`Stream::close`, then the virtual `streamError` or `streamClose`. The statements between these
belong to nobody else's critical section except `mutex_`, which the posted handler and
`error`/`close` hold; each of those is one event.

## What is left out

The `closed_`/`error_`/`status_code_` races are modelled as interleavings of whole statements,
not of memory accesses. Log messages are not modelled. A stream is there for as long as its run
goes on: its lifetime is left out, so what is proved of these runs holds **while the stream is
alive**. Who keeps it alive, and when a handler outlives it, is in `Server.Lifetime`.
-/

set_option autoImplicit false

namespace Http2Comm.Server

open Lib

/-! ## State -/

/-- What a stream does that its surroundings can see, in order. -/
inductive Effect where
  | receive (receptionId : Nat) (requestBody : Bytes) (receptionTimestampUs : Int)
  | receiveError (error : ErrorPair) (allowedMethods : List Bytes)
  | responseDelayMs (receptionId : Nat) (answer : Int)
  | asyncWait (ms : Int)
  | post
  | writeHead (statusCode : Nat) (headers : HeaderMap)
  | endResponse (body : Bytes)
  | cancel (errorCode : Nat)
  | streamError (errorCode : Nat) (serverName : Bytes) (receptionId : Nat)
  | streamClose (receptionId : Nat)
  | metric (update : MetricUpdate)
  deriving DecidableEq, Repr

inductive Work where
  | receiving
  | queued
  | provisioning
  | committing
  | armed
  | expired
  | aborted
  | posting
  | posted
  | finished
  deriving DecidableEq, Repr

inductive Closing where
  | pending
  | timerCancelled
  | marked
  | finished
  deriving DecidableEq, Repr

/-- The members of `Stream`, followed by the positions of the parties. `timer` is the delay the
timer was last set to; `responseDelayMs` is the local of `reception` that `receive` writes and
`errorCode` the argument of `on_close`. -/
structure Stream where
  req : Request := {}
  requestBody : Bytes := []
  closed : Bool := false
  error : Bool := false
  response : Response := {}
  timer : Option Int := none
  needTimer : Bool := false
  receptionTimestampUs : Int := 0
  receptionId : Nat := 0
  work : Work := .receiving
  responseDelayMs : Nat := 0
  closing : Closing := .pending
  errorCode : Nat := 0
  effects : List Effect := []
  deriving DecidableEq, Repr

def Stream.emit (st : Stream) (es : List Effect) : Stream :=
  { st with effects := st.effects ++ es }

section emit

variable (st : Stream) (es : List Effect)

@[simp] theorem emit_requestBody : (st.emit es).requestBody = st.requestBody := rfl
@[simp] theorem emit_closed : (st.emit es).closed = st.closed := rfl
@[simp] theorem emit_error : (st.emit es).error = st.error := rfl
@[simp] theorem emit_response : (st.emit es).response = st.response := rfl
@[simp] theorem emit_timer : (st.emit es).timer = st.timer := rfl
@[simp] theorem emit_needTimer : (st.emit es).needTimer = st.needTimer := rfl
@[simp] theorem emit_receptionId : (st.emit es).receptionId = st.receptionId := rfl
@[simp] theorem emit_work : (st.emit es).work = st.work := rfl
@[simp] theorem emit_responseDelayMs : (st.emit es).responseDelayMs = st.responseDelayMs := rfl
@[simp] theorem emit_closing : (st.emit es).closing = st.closing := rfl
@[simp] theorem emit_errorCode : (st.emit es).errorCode = st.errorCode := rfl
@[simp] theorem emit_effects : (st.emit es).effects = st.effects ++ es := rfl

end emit

/-! ## `reception` -/

/-- The answers of the virtual methods during one reception. `receive` gets the response by
reference and writes a delay; `receiveError` gets it by reference too. -/
structure Answers where
  methodIsAllowed : Bool
  allowedMethods : List Bytes
  methodIsImplemented : Bool
  headersAreOk : Bool
  receive : Response → Response × Nat
  receiveError : ErrorPair → List Bytes → Response → ReceivedError

/-- Answers that accept every request with a `200`. -/
def acceptAll : Answers where
  methodIsAllowed := true
  allowedMethods := []
  methodIsImplemented := true
  headersAreOk := true
  receive _ := ({ statusCode := 200 }, 0)
  receiveError error _ _ := { response := { statusCode := toUnsigned error.1 } }

/-- The congestion argument of `reception`: `process` computes it, and a server without a queue
dispatcher calls `reception()` directly. -/
def Http2Server.congestion (server : Http2Server) (busyConsumers : Bool) (queueSize : Int) :
    Bool :=
  server.queueDispatcher && decide (0 ≤ server.queueDispatcherMaxSize) && busyConsumers &&
    decide (server.queueDispatcherMaxSize < queueSize)

/-- The error a request is rejected with, in the order of the tests of `reception`; `none` is a
valid reception. -/
def rejection (server : Http2Server) (req : Request) (congestion : Bool) (a : Answers) :
    Option (ErrorPair × List Bytes) :=
  if congestion then some (serviceUnavailable, [])
  else if !a.methodIsAllowed then some (methodNotAllowed, a.allowedMethods)
  else if !a.methodIsImplemented then some (methodNotImplemented, [])
  else if a.headersAreOk then
    let apiPath := server.getApiPath
    if apiPath ≠ [] ∧ URLFunctions.matchPrefix req.path apiPath = false then
      some (wrongApiNameOrVersion, [])
    else none
  else some (unsupportedMediaType, [])

/-- The response, the delay and the calls of one reception. -/
structure Reception where
  response : Response
  responseDelayMs : Nat
  effects : List Effect

def Stream.reception (server : Http2Server) (st : Stream) (now : Int) (congestion : Bool)
    (a : Answers) : Reception :=
  match rejection server st.req congestion a with
  | some (error, allowedMethods) =>
    let received := a.receiveError error allowedMethods st.response
    { response := received.response
      responseDelayMs := 0
      effects := .receiveError error allowedMethods :: received.metrics.map .metric }
  | none =>
    let (response, responseDelayMs) := a.receive st.response
    let accepted : MetricUpdate :=
      { family := .observedRequestsAcceptedCounter
        labels := [(ascii "source", server.source), (ascii "method", st.req.method)]
        operation := .increment }
    { response, responseDelayMs
      effects := (if server.metrics then [.metric accepted] else []) ++
        [.receive st.receptionId st.requestBody now] }

/-- The end of `reception`: provision of the response delay. `responseDelayMs` is polled only
when `receive` asked for no delay. -/
def Stream.provisionDelay (server : Http2Server) (st : Stream) (answer : Int) : Stream :=
  if st.responseDelayMs ≠ 0 then
    if server.timersIoContext then
      { st with timer := some st.responseDelayMs, needTimer := true }
    else st
  else
    let polled := st.emit [.responseDelayMs st.receptionId answer]
    if 0 < answer ∧ server.timersIoContext then
      { polled with timer := some answer, needTimer := true }
    else polled

/-! ## `commit` -/

/-- `commit` up to its return or to the `post`. -/
def Stream.commit (st : Stream) : Stream :=
  if st.needTimer then
    { st.emit [.asyncWait (st.timer.getD 0)] with work := .armed }
  else if st.error then
    { st with work := .finished }  -- transport is broken: the response is discarded
  else
    { st with work := .posting }

/-- The expiry handler of `commit`, run with success, up to its own call of `commit`. -/
def Stream.timerHandler (st : Stream) (answer : Int) : Stream :=
  let polled := st.emit [.responseDelayMs st.receptionId answer]
  if 0 < answer then
    { polled with needTimer := true, timer := some answer, work := .committing }
  else
    { polled with needTimer := false, work := .committing }

/-- What the posted handler writes for a response. -/
def Response.written (response : Response) : List Effect :=
  if response.statusCode < 100 then [.cancel response.statusCode]
  else [.writeHead response.statusCode response.headers, .endResponse response.body]

/-- The handler `commit` posts to the response's `io_context`. -/
def Stream.respond (st : Stream) : Stream :=
  if st.closed then { st with work := .finished }
  else { st.emit st.response.written with work := .finished }

/-! ## `on_close` -/

def Stream.updateMetrics (server : Http2Server) (st : Stream) (now : Int)
    (resultCodeLabel : Bytes) : List Effect :=
  if server.metrics then
    let peer := [(ascii "source", server.source), (ascii "method", st.req.method)]
    let result := peer ++ [(resultCodeLabel, toDecimal st.response.statusCode)]
    let durationUs := now - st.receptionTimestampUs
    let requestBodySize := st.requestBody.length
    let responseBodySize := st.response.body.length
    [.metric ⟨.responsesDelaySecondsGauge, result, .set durationUs⟩,
     .metric ⟨.receivedMessagesSizeBytesGauge, peer, .set requestBodySize⟩,
     .metric ⟨.sentMessagesSizeBytesGauge, result, .set responseBodySize⟩,
     .metric ⟨.responsesDelaySecondsHistogram, result, .observe durationUs⟩,
     .metric ⟨.receivedMessagesSizeBytesHistogram, peer, .observe requestBodySize⟩,
     .metric ⟨.sentMessagesSizeBytesHistogram, result, .observe responseBodySize⟩,
     .metric ⟨.observedResponsesCounter, result, .increment⟩]
  else []

/-- `Stream::error`. -/
def Stream.markError (server : Http2Server) (st : Stream) (now : Int) : Stream :=
  let marked :=
    { st with error := true, response := { st.response with statusCode := st.errorCode } }
  marked.emit (marked.updateMetrics server now (ascii "rst_stream_goaway_error_code"))

/-- `Stream::close`. -/
def Stream.markClosed (server : Http2Server) (st : Stream) (now : Int) : Stream :=
  let marked := { st with closed := true }
  marked.emit (marked.updateMetrics server now (ascii "status_code"))

/-- `Stream::cancelTimer`: a pending wait completes with `operation_aborted`, and nothing else
is affected. -/
def Stream.cancelTimer (st : Stream) : Stream :=
  if st.timer.isSome ∧ st.work = .armed then { st with work := .aborted } else st

/-! ## Events -/

/-- The events of a stream. The arguments are what the statement reads from outside: clocks,
answers of virtual methods, the argument of `on_close` and the server's counter. -/
inductive Event where
  | data (chunk : Bytes) (receiveDataLen preReserve : Bool)
  | endOfRequest (receptionId : Nat)
  | process (now : Int) (busyConsumers : Bool) (queueSize : Int) (a : Answers)
  | provision (answer : Int)
  | commit
  | timerExpires
  | timerHandler (answer : Int)
  | timerAborted
  | post
  | respond
  | cancelTimer (errorCode : Nat)
  | mark (now : Int)
  | notify (counter : Nat)

/-- nghttp2 delivers no data of a stream after its `on_close`, and `on_close` once. -/
def Stream.Enabled (st : Stream) : Event → Prop
  | .data chunk _ _ => chunk ≠ [] ∧ st.work = .receiving ∧ st.closing = .pending
  | .endOfRequest _ => st.work = .receiving ∧ st.closing = .pending
  | .process .. => st.work = .queued
  | .provision _ => st.work = .provisioning
  | .commit => st.work = .committing
  | .timerExpires => st.work = .armed
  | .timerHandler _ => st.work = .expired
  | .timerAborted => st.work = .aborted
  | .post => st.work = .posting
  | .respond => st.work = .posted
  | .cancelTimer _ => st.closing = .pending
  | .mark _ => st.closing = .timerCancelled
  | .notify _ => st.closing = .marked

def Stream.next (server : Http2Server) (st : Stream) : Event → Stream
  | .data chunk receiveDataLen _ =>
    if receiveDataLen then { st with requestBody := st.requestBody ++ chunk } else st
  | .endOfRequest receptionId => { st with receptionId, work := .queued }
  | .process now busyConsumers queueSize a =>
    let r := st.reception server now (server.congestion busyConsumers queueSize) a
    { st.emit r.effects with
      receptionTimestampUs := now
      response := r.response
      responseDelayMs := r.responseDelayMs
      work := .provisioning }
  | .provision answer => { st.provisionDelay server answer with work := .committing }
  | .commit => st.commit
  | .timerExpires => { st with work := .expired }
  | .timerHandler answer => st.timerHandler answer
  | .timerAborted => { st with work := .finished }
  | .post => { st.emit [.post] with work := .posted }
  | .respond => st.respond
  | .cancelTimer errorCode => { st.cancelTimer with errorCode, closing := .timerCancelled }
  | .mark now =>
    let marked := if st.errorCode ≠ 0 then st.markError server now else st.markClosed server now
    { marked with closing := .marked }
  | .notify counter =>
    -- `streamError` gets the server's counter, `streamClose` the stream's own identifier
    let call : Effect :=
      if st.errorCode ≠ 0 then .streamError st.errorCode server.name counter
      else .streamClose st.receptionId
    { st.emit [call] with closing := .finished }

instance (st : Stream) (e : Event) : Decidable (st.Enabled e) :=
  match e with
  | .data .. => inferInstanceAs (Decidable (_ ∧ _ ∧ _))
  | .endOfRequest _ => inferInstanceAs (Decidable (_ ∧ _))
  | .process .. | .provision _ | .commit | .timerExpires | .timerHandler _ | .timerAborted
  | .post | .respond => inferInstanceAs (Decidable (st.work = _))
  | .cancelTimer _ | .mark _ | .notify _ => inferInstanceAs (Decidable (st.closing = _))

/-- A stream as `handler` creates it for a request. -/
def Stream.start (req : Request) : Stream := { req }

/-- The runs of a stream of a server. -/
def stream (server : Http2Server) : Machine Stream Event where
  Enabled st e := st.Enabled e
  next st e := st.next server e

instance (server : Http2Server) (st : Stream) (e : Event) :
    Decidable ((stream server).Enabled st e) := inferInstanceAs (Decidable (st.Enabled e))

/-! ## What is observed -/

/-- The calls on the stream's nghttp2 response. -/
def Effect.isResponseCall : Effect → Bool
  | .writeHead .. | .endResponse _ | .cancel _ => true
  | _ => false

def Stream.responseCalls (st : Stream) : List Effect := st.effects.filter Effect.isResponseCall

/-- The answers of the polls of `responseDelayMs`, in order. -/
def polls (es : List Effect) : List Int :=
  es.filterMap fun | .responseDelayMs _ answer => some answer | _ => none

/-- The waits started on the timer, in order. -/
def waits (es : List Effect) : List Int :=
  es.filterMap fun | .asyncWait ms => some ms | _ => none

@[simp] theorem polls_append (es fs : List Effect) : polls (es ++ fs) = polls es ++ polls fs :=
  List.filterMap_append

@[simp] theorem waits_append (es fs : List Effect) : waits (es ++ fs) = waits es ++ waits fs :=
  List.filterMap_append

theorem responseCalls_append {st st' : Stream} {es : List Effect}
    (h : st'.effects = st.effects ++ es) :
    st'.responseCalls = st.responseCalls ++ es.filter Effect.isResponseCall := by
  rw [Stream.responseCalls, h, List.filter_append]
  rfl

/-- Calls of virtual methods other than the poll, and metric updates. -/
def Effect.isNeutral : Effect → Bool
  | .receive .. | .receiveError .. | .metric _ | .streamError .. | .streamClose _ => true
  | _ => false

/-- Neutral effects are seen by none of the observations. -/
theorem observations_of_neutral {es : List Effect} (h : ∀ e ∈ es, e.isNeutral = true) :
    polls es = [] ∧ waits es = [] ∧ .post ∉ es ∧ es.filter Effect.isResponseCall = [] := by
  refine ⟨List.filterMap_eq_nil_iff.mpr ?_, List.filterMap_eq_nil_iff.mpr ?_, ?_,
    List.filter_eq_nil_iff.mpr ?_⟩
  · intro e he
    cases e <;> first | rfl | exact absurd (h _ he) (by simp [Effect.isNeutral])
  · intro e he
    cases e <;> first | rfl | exact absurd (h _ he) (by simp [Effect.isNeutral])
  · exact fun he => absurd (h _ he) (by simp [Effect.isNeutral])
  · intro e he
    cases e <;>
      first | exact Bool.false_ne_true | exact absurd (h _ he) (by simp [Effect.isNeutral])

theorem updateMetrics_metric (server : Http2Server) (st : Stream) (now : Int) (label : Bytes) :
    ∀ e ∈ st.updateMetrics server now label, ∃ update, e = .metric update := by
  unfold Stream.updateMetrics
  split <;> simp

theorem updateMetrics_neutral (server : Http2Server) (st : Stream) (now : Int) (label : Bytes) :
    ∀ e ∈ st.updateMetrics server now label, e.isNeutral = true := by
  intro e he
  obtain ⟨update, rfl⟩ := updateMetrics_metric server st now label e he
  rfl

theorem reception_neutral (server : Http2Server) (st : Stream) (now : Int) (congestion : Bool)
    (a : Answers) : ∀ e ∈ (st.reception server now congestion a).effects, e.isNeutral = true := by
  unfold Stream.reception
  split
  · simp [Effect.isNeutral]
  · simp only
    split <;> simp [Effect.isNeutral]

/-! ## What one event does

One lemma per member, so that no later proof looks into the statements again: what an event
appends to the effects, and what it leaves in the members that the parties share. -/

/-- What the event appends to the effects. -/
def Stream.emits (server : Http2Server) (st : Stream) : Event → List Effect
  | .process now busyConsumers queueSize a =>
    (st.reception server now (server.congestion busyConsumers queueSize) a).effects
  | .provision answer =>
    if st.responseDelayMs ≠ 0 then [] else [.responseDelayMs st.receptionId answer]
  | .commit => if st.needTimer then [.asyncWait (st.timer.getD 0)] else []
  | .timerHandler answer => [.responseDelayMs st.receptionId answer]
  | .post => [.post]
  | .respond => if st.closed then [] else st.response.written
  | .mark now =>
    if st.errorCode ≠ 0 then
      { st with response := { st.response with statusCode := st.errorCode } }.updateMetrics server
        now (ascii "rst_stream_goaway_error_code")
    else st.updateMetrics server now (ascii "status_code")
  | .notify counter =>
    [if st.errorCode ≠ 0 then .streamError st.errorCode server.name counter
      else .streamClose st.receptionId]
  | _ => []

section next

variable (server : Http2Server) (st : Stream) (e : Event)

theorem effects_next : (st.next server e).effects = st.effects ++ st.emits server e := by
  cases e with
  | data chunk receiveDataLen preReserve =>
    simp only [Stream.next]
    split <;> simp [Stream.emits]
  | provision answer =>
    simp only [Stream.next, Stream.provisionDelay, Stream.emits]
    split_ifs <;> simp
  | commit =>
    simp only [Stream.next, Stream.commit, Stream.emits]
    split_ifs <;> simp
  | timerHandler answer =>
    simp only [Stream.next, Stream.timerHandler, Stream.emits]
    split_ifs <;> simp
  | respond =>
    simp only [Stream.next, Stream.respond, Stream.emits]
    split_ifs <;> simp
  | cancelTimer errorCode =>
    simp only [Stream.next, Stream.cancelTimer, Stream.emits]
    split_ifs <;> simp
  | mark now =>
    simp only [Stream.next, Stream.markError, Stream.markClosed, Stream.emits]
    split_ifs <;> rfl
  | endOfRequest receptionId => simp [Stream.next, Stream.emits]
  | timerExpires => simp [Stream.next, Stream.emits]
  | timerAborted => simp [Stream.next, Stream.emits]
  | process now busyConsumers queueSize a => rfl
  | post => rfl
  | notify counter => rfl

/-- Where the answering party stands after an event. -/
theorem work_next : (st.next server e).work =
    match e with
    | .endOfRequest _ => .queued
    | .process .. => .provisioning
    | .provision _ => .committing
    | .commit => if st.needTimer then .armed else if st.error then .finished else .posting
    | .timerExpires => .expired
    | .timerHandler _ => .committing
    | .timerAborted => .finished
    | .post => .posted
    | .respond => .finished
    | .cancelTimer _ => if st.timer.isSome ∧ st.work = .armed then .aborted else st.work
    | _ => st.work := by
  cases e
  all_goals simp only [Stream.next, Stream.commit, Stream.timerHandler, Stream.respond,
    Stream.cancelTimer, Stream.markError, Stream.markClosed]
  all_goals repeat' split
  all_goals rfl

theorem closing_next : (st.next server e).closing =
    match e with
    | .cancelTimer _ => .timerCancelled
    | .mark _ => .marked
    | .notify _ => .finished
    | _ => st.closing := by
  cases e
  all_goals simp only [Stream.next, Stream.provisionDelay, Stream.commit, Stream.timerHandler,
    Stream.respond]
  all_goals repeat' split
  all_goals rfl

theorem closed_next : (st.next server e).closed =
    match e with
    | .mark _ => if st.errorCode ≠ 0 then st.closed else true
    | _ => st.closed := by
  cases e
  all_goals simp only [Stream.next, Stream.provisionDelay, Stream.commit, Stream.timerHandler,
    Stream.respond, Stream.cancelTimer, Stream.markError, Stream.markClosed]
  all_goals repeat' split
  all_goals rfl

theorem error_next : (st.next server e).error =
    match e with
    | .mark _ => if st.errorCode ≠ 0 then true else st.error
    | _ => st.error := by
  cases e
  all_goals simp only [Stream.next, Stream.provisionDelay, Stream.commit, Stream.timerHandler,
    Stream.respond, Stream.cancelTimer, Stream.markError, Stream.markClosed]
  all_goals repeat' split
  all_goals rfl

theorem receptionId_next : (st.next server e).receptionId =
    match e with
    | .endOfRequest receptionId => receptionId
    | _ => st.receptionId := by
  cases e
  all_goals simp only [Stream.next, Stream.provisionDelay, Stream.commit, Stream.timerHandler,
    Stream.respond, Stream.cancelTimer, Stream.markError, Stream.markClosed]
  all_goals repeat' split
  all_goals rfl

theorem needTimer_next : (st.next server e).needTimer =
    match e with
    | .provision answer =>
      if server.timersIoContext ∧ (st.responseDelayMs ≠ 0 ∨ 0 < answer) then true
      else st.needTimer
    | .timerHandler answer => decide (0 < answer)
    | _ => st.needTimer := by
  cases e with
  | provision answer =>
    simp only [Stream.next, Stream.provisionDelay]
    by_cases hdelay : st.responseDelayMs = 0 <;> by_cases hanswer : 0 < answer <;>
      cases htimers : server.timersIoContext <;> simp [hdelay, hanswer]
  | timerHandler answer =>
    simp only [Stream.next, Stream.timerHandler]
    split_ifs <;> simp_all
  | _ =>
    simp only [Stream.next, Stream.commit, Stream.respond, Stream.cancelTimer, Stream.markError,
      Stream.markClosed]
    repeat' split
    all_goals rfl

/-- The timer once created stays. -/
theorem timer_isSome_next : (st.next server e).timer.isSome =
    match e with
    | .provision answer =>
      (decide (server.timersIoContext ∧ (st.responseDelayMs ≠ 0 ∨ 0 < answer)) ||
        st.timer.isSome)
    | .timerHandler answer => (decide (0 < answer) || st.timer.isSome)
    | _ => st.timer.isSome := by
  cases e with
  | provision answer =>
    simp only [Stream.next, Stream.provisionDelay]
    by_cases hdelay : st.responseDelayMs = 0 <;> by_cases hanswer : 0 < answer <;>
      cases htimers : server.timersIoContext <;> simp [hdelay, hanswer]
  | timerHandler answer =>
    simp only [Stream.next, Stream.timerHandler]
    split_ifs <;> simp_all
  | _ =>
    simp only [Stream.next, Stream.commit, Stream.respond, Stream.cancelTimer, Stream.markError,
      Stream.markClosed]
    repeat' split
    all_goals rfl

theorem receptionTimestampUs_next : (st.next server e).receptionTimestampUs =
    match e with
    | .process now .. => now
    | _ => st.receptionTimestampUs := by
  cases e
  all_goals simp only [Stream.next, Stream.provisionDelay, Stream.commit, Stream.timerHandler,
    Stream.respond, Stream.cancelTimer, Stream.markError, Stream.markClosed]
  all_goals repeat' split
  all_goals rfl

theorem requestBody_next : (st.next server e).requestBody = st.requestBody ++
    match e with
    | .data chunk true _ => chunk
    | _ => [] := by
  cases e with
  | data chunk receiveDataLen preReserve => cases receiveDataLen <;> simp [Stream.next]
  | _ =>
    simp only [Stream.next, Stream.provisionDelay, Stream.commit, Stream.timerHandler,
      Stream.respond, Stream.cancelTimer, Stream.markError, Stream.markClosed, List.append_nil]
    repeat' split
    all_goals rfl

end next

end Http2Comm.Server
