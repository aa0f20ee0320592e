import Http2Comm.Server.Handler

/-!
# The metrics of a server only observe

`enableMetrics` is read in three places of a stream: `reception`, the default `receiveError` and
`updateMetrics`. Each of them writes to the registry under `if (metrics_)` and to nothing else, so
a server with metrics does what the same server does without, and the registry besides. Stated of
two runs: take the updates out of the answers of `receiveError` (`Event.silent`), and what is left
of a run of the server with metrics is a run of the server without, stream by stream and call by
call (`metrics_observe`).

The client is not like that. Its clock of the response is stored under `if (metrics_)`.
-/

set_option autoImplicit false

namespace Http2Comm.Server

open Lib Lib.Machine

/-! ## Taking the updates out -/

def Effect.isMetric : Effect → Bool
  | .metric _ => true
  | _ => false

/-- The effects that are no updates. -/
def calls (es : List Effect) : List Effect := es.filter (!·.isMetric)

/-- The server without metrics. -/
def Http2Server.silent (server : Http2Server) : Http2Server := { server with metrics := false }

/-- The answers without the updates of `receiveError`. -/
def Answers.silent (a : Answers) : Answers :=
  { a with
    receiveError := fun error allowedMethods response =>
      { a.receiveError error allowedMethods response with metrics := [] } }

def Event.silent : Event → Event
  | .process now busyConsumers queueSize a => .process now busyConsumers queueSize a.silent
  | e => e

def Stream.silent (st : Stream) : Stream := { st with effects := calls st.effects }

def ServerEvent.silent : ServerEvent → ServerEvent
  | .request req => .request req
  | .on i e => .on i e.silent

def Serving.silent (sv : Serving) : Serving := { sv with streams := sv.streams.map Stream.silent }

@[simp] theorem calls_append (es fs : List Effect) : calls (es ++ fs) = calls es ++ calls fs :=
  List.filter_append es fs

theorem calls_cons (e : Effect) (es : List Effect) :
    calls (e :: es) = if e.isMetric then calls es else e :: calls es := by
  cases h : e.isMetric <;> simp [calls, h]

@[simp] theorem calls_nil : calls [] = [] := rfl

@[simp] theorem calls_metrics (us : List MetricUpdate) : calls (us.map .metric) = [] := by
  simp [calls, List.filter_eq_nil_iff, Effect.isMetric]

/-! ## One stream -/

section stream

variable {server : Http2Server} {st : Stream} {e : Event}

/-- The default `receiveError` of the server without metrics is that of the server, silent. -/
theorem silent_defaultReceiveError {a : Answers} {req : Request}
    (h : a.receiveError = server.defaultReceiveError req []) :
    a.silent.receiveError = server.silent.defaultReceiveError req [] := by
  funext error allowedMethods response
  simp only [Answers.silent, h, Http2Server.defaultReceiveError, Http2Server.receiveError,
    Http2Server.silent]
  rfl

theorem calls_updateMetrics (server : Http2Server) (st : Stream) (now : Int) (label : Bytes) :
    calls (st.updateMetrics server now label) = [] := by
  rw [calls, List.filter_eq_nil_iff]
  intro e he
  obtain ⟨update, rfl⟩ := updateMetrics_metric server st now label e he
  simp [Effect.isMetric]

theorem updateMetrics_silent (st : Stream) (now : Int) (label : Bytes) :
    st.updateMetrics server.silent now label = [] := rfl

/-- The tests of the reception read neither the metrics nor `receiveError`. -/
theorem rejection_silent (req : Request) (congestion : Bool) (a : Answers) :
    rejection server.silent req congestion a.silent = rejection server req congestion a := rfl

theorem reception_silent (now : Int) (congestion : Bool) (a : Answers) :
    let r := st.reception server now congestion a
    st.silent.reception server.silent now congestion a.silent =
      { r with effects := calls r.effects } := by
  simp only [Stream.reception, Stream.silent, rejection_silent]
  cases rejection server st.req congestion a with
  | none =>
    cases hmetrics : server.metrics <;>
      simp [Answers.silent, Http2Server.silent, calls_cons, Effect.isMetric]
  | some error => simp [Answers.silent, calls_cons, Effect.isMetric]

theorem calls_written (response : Response) : calls response.written = response.written := by
  unfold Response.written
  split <;> rfl

/-- **An event does the same without metrics.** -/
theorem silent_next : (st.next server e).silent = st.silent.next server.silent e.silent := by
  cases e with
  | data chunk receiveDataLen preReserve => cases receiveDataLen <;> rfl
  | process now busyConsumers queueSize a =>
    have hreception : st.silent.reception server.silent now
        (server.silent.congestion busyConsumers queueSize) a.silent = _ :=
      reception_silent now (server.congestion busyConsumers queueSize) a
    simp only [Stream.next, Event.silent, hreception]
    simp [Stream.silent, Stream.emit]
  | provision answer =>
    by_cases hdelay : st.responseDelayMs = 0 <;> by_cases hanswer : 0 < answer <;>
      cases htimers : server.timersIoContext <;>
        simp [Stream.next, Stream.provisionDelay, Event.silent, Stream.silent,
          Http2Server.silent, Stream.emit, calls_cons, Effect.isMetric, hdelay, hanswer, htimers]
  | commit =>
    cases htimer : st.needTimer <;> cases herror : st.error <;>
      simp [Stream.next, Stream.commit, Event.silent, Stream.silent, Stream.emit, calls_cons,
        Effect.isMetric, htimer, herror]
  | timerHandler answer =>
    by_cases hanswer : 0 < answer <;>
      simp [Stream.next, Stream.timerHandler, Event.silent, Stream.silent, Stream.emit,
        calls_cons, Effect.isMetric, hanswer]
  | post =>
    simp [Stream.next, Event.silent, Stream.silent, Stream.emit, calls_cons, Effect.isMetric]
  | respond =>
    cases hclosed : st.closed <;>
      simp [Stream.next, Stream.respond, Event.silent, Stream.silent, Stream.emit, calls_written,
        hclosed]
  | cancelTimer errorCode =>
    by_cases harmed : st.timer.isSome ∧ st.work = .armed <;>
      simp [Stream.next, Stream.cancelTimer, Event.silent, Stream.silent, harmed]
  | mark now =>
    by_cases hcode : st.errorCode = 0 <;>
      simp [Stream.next, Stream.markError, Stream.markClosed, Event.silent, Stream.silent,
        Stream.emit, calls_updateMetrics, updateMetrics_silent, hcode]
  | notify counter =>
    by_cases hcode : st.errorCode = 0 <;>
      simp [Stream.next, Event.silent, Stream.silent, Http2Server.silent, Stream.emit, calls_cons,
        Effect.isMetric, hcode]
  | endOfRequest receptionId => rfl
  | timerExpires => rfl
  | timerAborted => rfl

theorem silent_enabled : st.silent.Enabled e.silent ↔ st.Enabled e := by
  cases e <;> exact Iff.rfl

end stream

/-! ## The server -/

section serving

variable {server : Http2Server} {sv : Serving} {a : ServerEvent}

theorem enabled_silent : sv.silent.Enabled a.silent ↔ sv.Enabled a := by
  cases a with
  | request req => exact Iff.rfl
  | on i e =>
    simp only [ServerEvent.silent, Serving.Enabled, Serving.silent, List.getElem?_map]
    cases sv.streams[i]? with
    | none => exact Iff.rfl
    | some st =>
      refine and_congr silent_enabled ?_
      cases e <;> exact Iff.rfl

theorem next_silent : sv.silent.next server.silent a.silent = (sv.next server a).silent := by
  cases a with
  | request req => simp [ServerEvent.silent, Serving.next, Serving.silent, Stream.silent,
      Stream.start]
  | on i e =>
    simp only [ServerEvent.silent, Serving.next, Serving.silent, List.getElem?_map]
    cases hst : sv.streams[i]? with
    | none => rfl
    | some st =>
      simp only [Option.map_some, ← silent_next, ← List.map_set]
      cases e with
      | data chunk receiveDataLen preReserve => cases receiveDataLen <;> cases preReserve <;> rfl
      | _ => rfl

/-- **The metrics of a server only observe.** What can happen to a server with metrics can happen
to the server without, and leaves it in the same state, with the same calls in every stream. -/
theorem metrics_observe (server : Http2Server) (evs : List ServerEvent) :
    ((serving server.silent).Run {} (evs.map ServerEvent.silent) ↔
        (serving server).Run {} evs) ∧
      (serving server.silent).after {} (evs.map ServerEvent.silent) =
        ((serving server).after {} evs).silent :=
  image (M := serving server) (N := serving server.silent) (s := {})
    (fun _ _ => enabled_silent) (fun _ _ => next_silent)

end serving

end Http2Comm.Server
