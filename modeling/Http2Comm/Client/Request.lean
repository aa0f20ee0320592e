import Http2Comm.Http
import Http2Comm.Lib.Machine
import Http2Comm.Metrics

/-!
# `Http2Client::async_send` — one request and its handlers

A call of `async_send` leaves up to six handlers behind: the submit handler it posts, the
request timer, and nghttp2's `on_response`, `on_data` and `on_close`. They share one `task`
record, each of them decides alone whether to cancel the timer and whether to call back, and
they can run in any order. A request is the task, the timer and the position of the submit
handler; its events are the handlers, each run whole, since all of them run on the one thread of
the connection's `io_context`. The exception is the submit handler, cut in two after it has
armed the timer, so that the timer may expire before the handler cancels it.

`cancel` follows boost: it aborts a wait that is pending and does nothing to an expiry that is
already queued. What nghttp2 delivers after a completion or a timeout is not restricted.

The connection is seen through the answers of `isConnected`, `hasSession`, `getSession` and
`submit` at the moments the handlers ask.
-/

set_option autoImplicit false

namespace Http2Comm.Client

open Lib

/-! ## The client -/

/-- What `async_send` reads of the client besides its connection. -/
structure Http2Client where
  host : Bytes := []
  port : Bytes := []
  secure : Bool := false
  metrics : Bool := false
  source : Bytes := []
  deriving DecidableEq, Repr

def Http2Client.getUri (client : Http2Client) (path scheme : Bytes) : Bytes :=
  let result :=
    if scheme = [] then ascii "http" ++ (if client.secure then ascii "s" else []) else scheme
  let result := result ++ ascii "://" ++ client.host ++ ascii ":" ++ client.port
  match path with
  | [] => result
  | first :: _ => result ++ (if first ≠ '/'.toUInt8 then ascii "/" else []) ++ path

/-- `Http2Client::response`. A member that is not given is value-initialized. -/
structure Response where
  body : Bytes := []
  statusCode : Int
  headers : HeaderMap := []
  sendingUs : Int := 0
  receptionUs : Int := 0
  deriving DecidableEq, Repr

/-- The arguments of `async_send`. -/
structure Call where
  method : Bytes := []
  path : Bytes := []
  body : Bytes := []
  headers : HeaderMap := []
  requestTimeoutMs : Int := 0
  deriving DecidableEq, Repr

def Call.noBodyMethod (call : Call) : Bool :=
  call.method = ascii "GET" || call.method = ascii "DELETE" || call.method = ascii "HEAD"

/-! ## State -/

/-- What a request does that its surroundings can see, in order. -/
inductive Effect where
  | callback (response : Response)
  | responseTimeout
  | notifyClose
  | asyncWait (ms : Int)
  | submit (method uri : Bytes) (headers : HeaderMap) (body : Option Bytes)
  | metric (update : MetricUpdate)
  deriving DecidableEq, Repr

/-- Where `async_send` and its submit handler are. -/
inductive Phase where
  | created
  | posted
  | submitting
  | submitted
  | failed
  | unsent
  deriving DecidableEq, Repr

/-- The request timer: not created, pending, or its handler queued with success, queued with
`operation_aborted`, or run. -/
inductive Timer where
  | unset
  | armed
  | expired
  | aborted
  | done
  deriving DecidableEq, Repr

/-- `Http2Client::task`, value-initialized by `make_shared`. -/
structure Task where
  data : Bytes := []
  sendingUs : Int := 0
  receptionUs : Int := 0
  cbInvoked : Bool := false
  timedOut : Bool := false
  deriving DecidableEq, Repr

/-- What the handlers read of an nghttp2 response. -/
structure Res where
  statusCode : Nat
  headers : HeaderMap := []
  deriving DecidableEq, Repr

/-- A request. `onData` is the response whose `on_data` handler is registered. -/
structure Request where
  phase : Phase := .created
  timer : Timer := .unset
  task : Task := {}
  onData : Option Res := none
  effects : List Effect := []
  deriving DecidableEq, Repr

def Request.emit (rq : Request) (es : List Effect) : Request :=
  { rq with effects := rq.effects ++ es }

/-- `if (!task->cb_invoked) { task->cb_invoked = true; cb(response); }` -/
def Request.invoke (rq : Request) (response : Response) : Request :=
  if rq.task.cbInvoked then rq
  else { rq.emit [.callback response] with task := { rq.task with cbInvoked := true } }

/-- `timer->cancel()`. -/
def Request.cancelTimer (rq : Request) : Request :=
  if rq.timer = .armed then { rq with timer := .aborted } else rq

/-! ## The handlers -/

section handlers

variable (client : Http2Client) (call : Call)

def Http2Client.labels : List (Bytes × Bytes) :=
  [(ascii "source", client.source), (ascii "method", call.method)]

def Http2Client.statusLabels (res : Res) : List (Bytes × Bytes) :=
  client.labels call ++ [(ascii "status_code", toDecimal res.statusCode)]

def Http2Client.updates (us : List MetricUpdate) : List Effect :=
  if client.metrics then us.map .metric else []

/-- `async_send` up to its return or to the `post`. -/
def Request.asyncSend (rq : Request) (connected reconnected : Bool) : Request :=
  if connected || reconnected then
    let requestBodySize := if call.noBodyMethod then 0 else call.body.length
    { rq.emit (client.updates
        [⟨.observedRequestsSentsCounter, client.labels call, .increment⟩,
         ⟨.sentMessagesSizeBytesGauge, client.labels call, .set requestBodySize⟩,
         ⟨.sentMessagesSizeBytesHistogram, client.labels call, .observe requestBodySize⟩]) with
      phase := .posted }
  else
    { rq.emit (client.updates
        [⟨.observedRequestsUnsentsCounter, client.labels call, .increment⟩] ++
        [.callback { statusCode := -1 }]) with
      phase := .unsent }

/-- How the attempt to submit ends when connection and session are there: `getSession` throws,
`submit` throws, or `submit` returns no request or one. -/
inductive Attempt where
  | noSession
  | exception
  | null
  | request
  deriving DecidableEq, Repr

/-- The submit handler up to the arming of the timer. -/
def Request.startTimer (rq : Request) : Request :=
  { rq.emit [.asyncWait call.requestTimeoutMs] with phase := .submitting, timer := .armed }

/-- `session.submit`, with the body unless the method takes none. -/
def Http2Client.submitCall : Effect :=
  .submit call.method (client.getUri call.path []) call.headers
    (if call.noBodyMethod then none else some call.body)

/-- `req` is not null. -/
def accepted (isConnected hasSession : Bool) (attempt : Attempt) : Bool :=
  isConnected && hasSession && decide (attempt = .request)

/-- The rest of the submit handler. -/
def Request.submit (rq : Request) (now : Int) (isConnected hasSession : Bool)
    (attempt : Attempt) : Request :=
  let sending := { rq with task := { rq.task with sendingUs := now } }
  let tried :=
    if isConnected && hasSession && decide (attempt ≠ .noSession) then
      sending.emit [client.submitCall call]
    else sending
  if accepted isConnected hasSession attempt then
    { tried with phase := .submitted }
  else
    { ((tried.emit [.notifyClose]).cancelTimer).invoke { statusCode := -3 } with phase := .failed }

/-- The handler of the request timer, run with anything but `operation_aborted`. -/
def Request.timerHandler (rq : Request) : Request :=
  let done := { rq with timer := .done }
  if rq.task.timedOut then done
  else
    let timedOut := { done with task := { rq.task with timedOut := true } }
    let reported := timedOut.emit (client.updates
      [⟨.observedResponsesTimedoutCounter, client.labels call, .increment⟩] ++
      [.responseTimeout])
    reported.invoke { statusCode := -2 }

def Request.onResponse (rq : Request) (now : Int) (res : Res) : Request :=
  if rq.task.timedOut then rq
  else
    let durationUs := now - rq.task.sendingUs
    let received :=
      if client.metrics then { rq with task := { rq.task with receptionUs := now } } else rq
    { received.emit (client.updates
        [⟨.observedResponsesReceivedCounter, client.statusLabels call res, .increment⟩,
         ⟨.responsesDelaySecondsGauge, client.statusLabels call res, .set durationUs⟩,
         ⟨.responsesDelaySecondsHistogram, client.statusLabels call res,
           .observe durationUs⟩]) with
      onData := some res }

/-- The `on_data` handler registered for `res`. An empty chunk is the end of the data. -/
def Request.onDataHandler (rq : Request) (res : Res) (chunk : Bytes) : Request :=
  if chunk ≠ [] then { rq with task := { rq.task with data := rq.task.data ++ chunk } }
  else
    let answered := rq.cancelTimer.invoke
      { body := rq.task.data
        statusCode := res.statusCode
        headers := res.headers
        sendingUs := rq.task.sendingUs
        receptionUs := rq.task.receptionUs }
    let responseBodySize := answered.task.data.length
    answered.emit (client.updates
      [⟨.receivedMessagesSizeBytesGauge, client.statusLabels call res, .set responseBodySize⟩,
       ⟨.receivedMessagesSizeBytesHistogram, client.statusLabels call res,
         .observe responseBodySize⟩])

/-- The handler does not read the error code. -/
def Request.onClose (rq : Request) : Request :=
  if rq.task.timedOut then rq else rq.cancelTimer.invoke { statusCode := -4 }

end handlers

/-! ## Events -/

/-- The events of a request, with what each reads from outside: clocks, answers of the
connection, and what nghttp2 delivers. -/
inductive Event where
  | asyncSend (connected reconnected : Bool)
  | startTimer
  | submit (now : Int) (isConnected hasSession : Bool) (attempt : Attempt)
  | timerExpires
  | timerHandler
  | timerAborted
  | onResponse (now : Int) (res : Res)
  | onData (chunk : Bytes)
  | onClose (errorCode : Nat)
  deriving DecidableEq, Repr

/-- The timer's handlers wait for the submit handler, which runs on the same thread. -/
def Request.Enabled (rq : Request) : Event → Prop
  | .asyncSend .. => rq.phase = .created
  | .startTimer => rq.phase = .posted
  | .submit .. => rq.phase = .submitting
  | .timerExpires => rq.timer = .armed
  | .timerHandler => rq.timer = .expired ∧ rq.phase ≠ .submitting
  | .timerAborted => rq.timer = .aborted ∧ rq.phase ≠ .submitting
  | .onResponse .. => rq.phase = .submitted
  | .onData _ => rq.phase = .submitted ∧ rq.onData.isSome
  | .onClose _ => rq.phase = .submitted

def Request.next (client : Http2Client) (call : Call) (rq : Request) : Event → Request
  | .asyncSend connected reconnected => rq.asyncSend client call connected reconnected
  | .startTimer => rq.startTimer call
  | .submit now isConnected hasSession attempt =>
    rq.submit client call now isConnected hasSession attempt
  | .timerExpires => { rq with timer := .expired }
  | .timerHandler => rq.timerHandler client call
  | .timerAborted => { rq with timer := .done }
  | .onResponse now res => rq.onResponse client call now res
  | .onData chunk =>
    match rq.onData with
    | some res => rq.onDataHandler client call res chunk
    | none => rq
  | .onClose _ => rq.onClose

instance Request.decidableEnabled (rq : Request) (e : Event) : Decidable (rq.Enabled e) :=
  match e with
  | .asyncSend .. | .startTimer | .submit .. | .onResponse .. | .onClose _ =>
    inferInstanceAs (Decidable (rq.phase = _))
  | .timerExpires => inferInstanceAs (Decidable (rq.timer = _))
  | .timerHandler | .timerAborted | .onData _ => inferInstanceAs (Decidable (_ ∧ _))

/-- The runs of one request of a client. -/
def request (client : Http2Client) (call : Call) : Machine Request Event where
  Enabled rq e := rq.Enabled e
  next rq e := rq.next client call e

instance decidableRequest (client : Http2Client) (call : Call) (rq : Request) (e : Event) :
    Decidable ((request client call).Enabled rq e) := inferInstanceAs (Decidable (rq.Enabled e))

/-! ## What one event does -/

/-- The responses that effects pass to the callback, in order. -/
def callbacks (es : List Effect) : List Response :=
  es.filterMap fun | .callback response => some response | _ => none

@[simp] theorem callbacks_append (es fs : List Effect) :
    callbacks (es ++ fs) = callbacks es ++ callbacks fs := List.filterMap_append

@[simp] theorem callbacks_nil : callbacks [] = [] := rfl

@[simp] theorem callbacks_callback (response : Response) :
    callbacks [.callback response] = [response] := rfl

@[simp] theorem callbacks_updates (client : Http2Client) (us : List MetricUpdate) :
    callbacks (client.updates us) = [] := by
  unfold Http2Client.updates
  split
  · simp [callbacks]
  · rfl

@[simp] theorem callbacks_notifyClose : callbacks [.notifyClose] = [] := rfl

@[simp] theorem callbacks_responseTimeout : callbacks [.responseTimeout] = [] := rfl

@[simp] theorem callbacks_asyncWait (ms : Int) : callbacks [.asyncWait ms] = [] := rfl

@[simp] theorem callbacks_submitCall (client : Http2Client) (call : Call) (es : List Effect) :
    callbacks (client.submitCall call :: es) = callbacks es := rfl

/-- The counter that the effect increments, or the histogram it adds an observation to. -/
def Effect.records : Effect → Option Family
  | .metric ⟨family, _, .increment⟩ => some family
  | .metric ⟨family, _, .observe _⟩ => some family
  | _ => none

/-- The counters incremented and the histograms that got an observation, in order. -/
def recorded (es : List Effect) : List Family := es.filterMap Effect.records

@[simp] theorem recorded_nil : recorded [] = [] := rfl

@[simp] theorem recorded_cons (e : Effect) (es : List Effect) :
    recorded (e :: es) = e.records.toList ++ recorded es := by
  cases h : e.records <;> simp [recorded, h]

@[simp] theorem recorded_append (es fs : List Effect) :
    recorded (es ++ fs) = recorded es ++ recorded fs := List.filterMap_append

/-- The calls of the virtual `responseTimeout`. -/
def timeoutCalls (es : List Effect) : Nat := es.count .responseTimeout

@[simp] theorem timeoutCalls_nil : timeoutCalls [] = 0 := rfl

@[simp] theorem timeoutCalls_cons (e : Effect) (es : List Effect) :
    timeoutCalls (e :: es) = timeoutCalls es + if e = .responseTimeout then 1 else 0 := by
  simp [timeoutCalls, List.count_cons]

@[simp] theorem timeoutCalls_append (es fs : List Effect) :
    timeoutCalls (es ++ fs) = timeoutCalls es + timeoutCalls fs := List.count_append

@[simp] theorem timeoutCalls_updates (client : Http2Client) (us : List MetricUpdate) :
    timeoutCalls (client.updates us) = 0 := by
  unfold Http2Client.updates
  split
  · simp [timeoutCalls, List.count_eq_zero]
  · rfl

section next

variable (client : Http2Client) (call : Call) (rq : Request) (e : Event)

@[simp] theorem callbacks_invoke (response : Response) :
    callbacks (rq.invoke response).effects =
      callbacks rq.effects ++ if rq.task.cbInvoked then [] else [response] := by
  unfold Request.invoke
  split <;> simp [Request.emit]

@[simp] theorem effects_cancelTimer : rq.cancelTimer.effects = rq.effects := by
  unfold Request.cancelTimer
  split <;> rfl

@[simp] theorem task_cancelTimer : rq.cancelTimer.task = rq.task := by
  unfold Request.cancelTimer
  split <;> rfl

@[simp] theorem phase_cancelTimer : rq.cancelTimer.phase = rq.phase := by
  unfold Request.cancelTimer
  split <;> rfl

@[simp] theorem onData_cancelTimer : rq.cancelTimer.onData = rq.onData := by
  unfold Request.cancelTimer
  split <;> rfl

@[simp] theorem phase_invoke (response : Response) : (rq.invoke response).phase = rq.phase := by
  unfold Request.invoke
  split <;> rfl

@[simp] theorem timer_invoke (response : Response) : (rq.invoke response).timer = rq.timer := by
  unfold Request.invoke
  split <;> rfl

@[simp] theorem onData_invoke (response : Response) : (rq.invoke response).onData = rq.onData := by
  unfold Request.invoke
  split <;> rfl

@[simp] theorem task_invoke (response : Response) :
    (rq.invoke response).task = { rq.task with cbInvoked := true } := by
  unfold Request.invoke
  split
  · next h => simp [← h]
  · rfl

@[simp] theorem emit_task (es : List Effect) : (rq.emit es).task = rq.task := rfl
@[simp] theorem emit_phase (es : List Effect) : (rq.emit es).phase = rq.phase := rfl
@[simp] theorem emit_timer (es : List Effect) : (rq.emit es).timer = rq.timer := rfl
@[simp] theorem emit_onData (es : List Effect) : (rq.emit es).onData = rq.onData := rfl
@[simp] theorem emit_effects (es : List Effect) : (rq.emit es).effects = rq.effects ++ es := rfl

/-- What the event passes to the callback. -/
theorem callbacks_next : callbacks (rq.next client call e).effects = callbacks rq.effects ++
    match e with
    | .asyncSend connected reconnected =>
      if connected || reconnected then [] else [{ statusCode := -1 }]
    | .submit _ isConnected hasSession attempt =>
      if accepted isConnected hasSession attempt || rq.task.cbInvoked then []
      else [{ statusCode := -3 }]
    | .timerHandler =>
      if rq.task.timedOut || rq.task.cbInvoked then [] else [{ statusCode := -2 }]
    | .onData chunk =>
      match rq.onData with
      | some res =>
        if chunk ≠ [] ∨ rq.task.cbInvoked then []
        else
          [{ body := rq.task.data
             statusCode := res.statusCode
             headers := res.headers
             sendingUs := rq.task.sendingUs
             receptionUs := rq.task.receptionUs }]
      | none => []
    | .onClose _ =>
      if rq.task.timedOut || rq.task.cbInvoked then [] else [{ statusCode := -4 }]
    | _ => [] := by
  cases e with
  | asyncSend connected reconnected =>
    simp only [Request.next, Request.asyncSend]
    split <;> simp
  | startTimer => simp [Request.next, Request.startTimer]
  | submit now isConnected hasSession attempt =>
    simp only [Request.next, Request.submit]
    cases accepted isConnected hasSession attempt <;>
      cases isConnected && hasSession && decide (attempt ≠ .noSession) <;> simp
  | timerExpires => simp [Request.next]
  | timerHandler =>
    simp only [Request.next, Request.timerHandler]
    cases rq.task.timedOut <;> cases rq.task.cbInvoked <;> simp
  | timerAborted => simp [Request.next]
  | onResponse now res =>
    simp only [Request.next, Request.onResponse]
    split_ifs <;> simp
  | onData chunk =>
    simp only [Request.next]
    cases rq.onData with
    | none => simp
    | some res =>
      simp only [Request.onDataHandler]
      split_ifs <;> simp_all
  | onClose errorCode =>
    simp only [Request.next, Request.onClose]
    cases h : rq.task.timedOut <;> cases h' : rq.task.cbInvoked <;> simp [h']

theorem phase_next : (rq.next client call e).phase =
    match e with
    | .asyncSend connected reconnected =>
      if connected || reconnected then .posted else .unsent
    | .startTimer => .submitting
    | .submit _ isConnected hasSession attempt =>
      if accepted isConnected hasSession attempt then .submitted else .failed
    | _ => rq.phase := by
  cases e
  all_goals simp only [Request.next, Request.asyncSend, Request.startTimer, Request.submit,
    Request.timerHandler, Request.onResponse, Request.onDataHandler, Request.onClose]
  all_goals repeat' split
  all_goals simp_all

theorem timer_next : (rq.next client call e).timer =
    match e with
    | .startTimer => .armed
    | .submit _ isConnected hasSession attempt =>
      if accepted isConnected hasSession attempt then rq.timer else rq.cancelTimer.timer
    | .timerExpires => .expired
    | .timerHandler | .timerAborted => .done
    | .onData chunk => if rq.onData.isSome ∧ chunk = [] then rq.cancelTimer.timer else rq.timer
    | .onClose _ => if rq.task.timedOut then rq.timer else rq.cancelTimer.timer
    | _ => rq.timer := by
  cases e
  all_goals simp only [Request.next, Request.asyncSend, Request.startTimer, Request.submit,
    Request.timerHandler, Request.onResponse, Request.onDataHandler, Request.onClose,
    Request.cancelTimer]
  all_goals repeat' split
  all_goals simp_all

theorem onData_next : (rq.next client call e).onData =
    match e with
    | .onResponse _ res => if rq.task.timedOut then rq.onData else some res
    | _ => rq.onData := by
  cases e
  all_goals simp only [Request.next, Request.asyncSend, Request.startTimer, Request.submit,
    Request.timerHandler, Request.onResponse, Request.onDataHandler, Request.onClose]
  all_goals repeat' split
  all_goals simp_all

theorem task_next : (rq.next client call e).task =
    match e with
    | .submit now isConnected hasSession attempt =>
      { rq.task with
        sendingUs := now
        cbInvoked := rq.task.cbInvoked || !accepted isConnected hasSession attempt }
    | .timerHandler =>
      { rq.task with
        timedOut := true
        cbInvoked := rq.task.cbInvoked || !rq.task.timedOut }
    | .onResponse now _ =>
      { rq.task with
        receptionUs := if !rq.task.timedOut && client.metrics then now else rq.task.receptionUs }
    | .onData chunk =>
      if rq.onData.isSome then
        { rq.task with
          data := rq.task.data ++ chunk
          cbInvoked := rq.task.cbInvoked || decide (chunk = []) }
      else rq.task
    | .onClose _ => { rq.task with cbInvoked := rq.task.cbInvoked || !rq.task.timedOut }
    | _ => rq.task := by
  obtain ⟨phase, timer, ⟨data, sendingUs, receptionUs, cbInvoked, timedOut⟩, onData, effects⟩ := rq
  cases e
  all_goals simp only [Request.next, Request.asyncSend, Request.startTimer, Request.submit,
    Request.timerHandler, Request.onResponse, Request.onDataHandler, Request.onClose]
  all_goals repeat' split
  all_goals simp_all

@[simp] theorem recorded_invoke (response : Response) :
    recorded (rq.invoke response).effects = recorded rq.effects := by
  unfold Request.invoke
  split <;> simp [Effect.records]

@[simp] theorem timeoutCalls_invoke (response : Response) :
    timeoutCalls (rq.invoke response).effects = timeoutCalls rq.effects := by
  unfold Request.invoke
  split <;> simp

/-- What the event records, with metrics enabled. -/
theorem recorded_next : recorded (rq.next client call e).effects = recorded rq.effects ++
    if client.metrics then
      match e with
      | .asyncSend connected reconnected =>
        if connected || reconnected then
          [.observedRequestsSentsCounter, .sentMessagesSizeBytesHistogram]
        else [.observedRequestsUnsentsCounter]
      | .timerHandler =>
        if rq.task.timedOut then [] else [.observedResponsesTimedoutCounter]
      | .onResponse .. =>
        if rq.task.timedOut then []
        else [.observedResponsesReceivedCounter, .responsesDelaySecondsHistogram]
      | .onData chunk =>
        if rq.onData.isSome ∧ chunk = [] then [.receivedMessagesSizeBytesHistogram] else []
      | _ => []
    else [] := by
  cases e
  all_goals simp only [Request.next, Request.asyncSend, Request.startTimer, Request.submit,
    Request.timerHandler, Request.onResponse, Request.onDataHandler, Request.onClose,
    Http2Client.updates]
  all_goals repeat' split
  all_goals simp_all [Effect.records, Http2Client.submitCall]

/-- Only the timer's handler calls `responseTimeout`, and once. -/
theorem timeoutCalls_next : timeoutCalls (rq.next client call e).effects =
    timeoutCalls rq.effects +
      match e with
      | .timerHandler => if rq.task.timedOut then 0 else 1
      | _ => 0 := by
  cases e
  all_goals simp only [Request.next, Request.asyncSend, Request.startTimer, Request.submit,
    Request.timerHandler, Request.onResponse, Request.onDataHandler, Request.onClose]
  all_goals repeat' split
  all_goals simp_all [Http2Client.submitCall]

end next

end Http2Comm.Client
