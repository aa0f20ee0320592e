import Http2Comm.Client.Conservation
import Http2Comm.Lib.Split
import Http2Comm.Server.Admission
import Http2Comm.Server.Outcome
import Mathlib.Data.Multiset.Basic

/-!
# `enableMetrics` — who writes to which series

A server and a client register their metric families under their own name, and write to instances
that are labelled with their source and with the method of the request. Any number of endpoints can
share one registry, and families too when they share a name: what keeps their series apart then is
the source, which is the name unless another one is given.

Both halves are proved of every run. What an endpoint writes goes to a family that its
`enableMetrics` has registered, as an operation of that family's kind, under its source and the
method of the request (`updates_registered`). And a series is written by endpoints of one name and
one source only, for one method (`series_of_endpoints`), which rests on the names of the families:
none of their endings ends in another, so a full name shows the endpoint's name and the family.
-/

set_option autoImplicit false

namespace Http2Comm

open Lib

/-! ## Families -/

inductive Kind where
  | counter
  | gauge
  | histogram
  deriving DecidableEq, Repr

/-- What is appended to the endpoint's name. -/
def Family.suffix : Family → Bytes
  | .observedRequestsAcceptedCounter => ascii "_observed_requests_accepted_counter"
  | .observedRequestsErroredCounter => ascii "_observed_requests_errored_counter"
  | .observedResponsesCounter => ascii "_observed_responses_counter"
  | .observedRequestsSentsCounter => ascii "_observed_requests_sents_counter"
  | .observedRequestsUnsentsCounter => ascii "_observed_requests_unsent_counter"
  | .observedResponsesReceivedCounter => ascii "_observed_responses_received_counter"
  | .observedResponsesTimedoutCounter => ascii "_observed_responses_timedout_counter"
  | .responsesDelaySecondsGauge => ascii "_responses_delay_seconds_gauge"
  | .receivedMessagesSizeBytesGauge => ascii "_received_messages_size_bytes_gauge"
  | .sentMessagesSizeBytesGauge => ascii "_sent_messages_size_bytes_gauge"
  | .responsesDelaySecondsHistogram => ascii "_responses_delay_seconds"
  | .receivedMessagesSizeBytesHistogram => ascii "_received_messages_size_bytes"
  | .sentMessagesSizeBytesHistogram => ascii "_sent_messages_size_bytes"

/-- What stands before the endpoint's name in the help text. -/
def Family.help : Family → Bytes
  | .observedRequestsAcceptedCounter => ascii "Requests accepted observed counter in "
  | .observedRequestsErroredCounter => ascii "Requests errored observed counter in "
  | .observedResponsesCounter => ascii "Responses observed counter in "
  | .observedRequestsSentsCounter => ascii "Requests sents observed counter in "
  | .observedRequestsUnsentsCounter => ascii "Requests unsents observed counter in "
  | .observedResponsesReceivedCounter => ascii "Responses received observed counter in "
  | .observedResponsesTimedoutCounter => ascii "Responses timed-out observed counter in "
  | .responsesDelaySecondsGauge => ascii "Message responses delay gauge (seconds) in "
  | .receivedMessagesSizeBytesGauge => ascii "Received messages sizes gauge (bytes) in "
  | .sentMessagesSizeBytesGauge => ascii "Sent messages sizes gauge (bytes) in "
  | .responsesDelaySecondsHistogram => ascii "Message responses delay (seconds) in "
  | .receivedMessagesSizeBytesHistogram => ascii "Received messages sizes (bytes) in "
  | .sentMessagesSizeBytesHistogram => ascii "Sent messages sizes (bytes) in "

def Family.kind : Family → Kind
  | .responsesDelaySecondsGauge | .receivedMessagesSizeBytesGauge
  | .sentMessagesSizeBytesGauge => .gauge
  | .responsesDelaySecondsHistogram | .receivedMessagesSizeBytesHistogram
  | .sentMessagesSizeBytesHistogram => .histogram
  | _ => .counter

def Operation.kind : Operation → Kind
  | .increment => .counter
  | .set _ => .gauge
  | .observe _ => .histogram

/-- A call of `addCounterFamily`, `addGaugeFamily` or `addHistogramFamily`. The family labels are
empty. -/
structure Registration where
  kind : Kind
  name : Bytes
  help : Bytes
  deriving DecidableEq, Repr

def Family.register (name : Bytes) (family : Family) : Registration :=
  { kind := family.kind, name := name ++ family.suffix, help := family.help ++ name }

/-! ## `enableMetrics` -/

namespace Server

/-- The families of a server, in the order in which it registers them. -/
def families : List Family :=
  [.observedRequestsAcceptedCounter, .observedRequestsErroredCounter, .observedResponsesCounter,
    .responsesDelaySecondsGauge, .receivedMessagesSizeBytesGauge, .sentMessagesSizeBytesGauge,
    .responsesDelaySecondsHistogram, .receivedMessagesSizeBytesHistogram,
    .sentMessagesSizeBytesHistogram]

/-- `Http2Server::enableMetrics`, with the calls on the registry. -/
def Http2Server.enableMetrics (server : Http2Server) (metrics : Bool) (source : Bytes) :
    Http2Server × List Registration :=
  if metrics then
    ({ server with metrics, source := if source = [] then server.name else source },
      families.map (Family.register server.name))
  else ({ server with metrics }, [])

end Server

namespace Client

/-- The families of a client, in the order in which it registers them. -/
def families : List Family :=
  [.observedRequestsSentsCounter, .observedRequestsUnsentsCounter,
    .observedResponsesReceivedCounter, .observedResponsesTimedoutCounter,
    .responsesDelaySecondsGauge, .sentMessagesSizeBytesGauge, .receivedMessagesSizeBytesGauge,
    .responsesDelaySecondsHistogram, .sentMessagesSizeBytesHistogram,
    .receivedMessagesSizeBytesHistogram]

/-- `Http2Client::enableMetrics`, with the calls on the registry. `name` is the client's. -/
def Http2Client.enableMetrics (client : Http2Client) (name : Bytes) (metrics : Bool)
    (source : Bytes) : Http2Client × List Registration :=
  if metrics then
    ({ client with metrics, source := if source = [] then name else source },
      families.map (Family.register name))
  else ({ client with metrics }, [])

end Client

/-! ## Updates -/

/-- The keys of the labels that tell results apart. -/
def resultLabels : List Bytes := [ascii "status_code", ascii "rst_stream_goaway_error_code"]

/-- An update as an endpoint with these families and this source makes it for a request. -/
structure Proper (families : List Family) (source method : Bytes) (u : MetricUpdate) : Prop where
  registered : u.family ∈ families
  kind : u.operation.kind = u.family.kind
  labels : ∃ result, u.labels = [(ascii "source", source), (ascii "method", method)] ++ result ∧
    ∀ label ∈ result, label.1 ∈ resultLabels

section proper

variable {families : List Family} {source method : Bytes} {u : MetricUpdate}

/-- An update with the labels of the request alone. -/
theorem Proper.plain {family : Family} {operation : Operation} (hfamily : family ∈ families)
    (hkind : operation.kind = family.kind) :
    Proper families source method
      ⟨family, [(ascii "source", source), (ascii "method", method)], operation⟩ :=
  ⟨hfamily, hkind, [], rfl, by simp⟩

/-- An update with the label of a result besides. -/
theorem Proper.result {family : Family} {operation : Operation} {key value : Bytes}
    (hfamily : family ∈ families) (hkind : operation.kind = family.kind)
    (hkey : key ∈ resultLabels) :
    Proper families source method
      ⟨family, [(ascii "source", source), (ascii "method", method)] ++ [(key, value)],
        operation⟩ :=
  ⟨hfamily, hkind, [(key, value)], rfl, by simpa using hkey⟩

theorem Proper.source_mem (h : Proper families source method u) (value : Bytes) :
    (ascii "source", value) ∈ u.labels ↔ value = source := by
  obtain ⟨result, hlabels, hresult⟩ := h.labels
  have hother : (ascii "source", value) ∉ result := fun hmem =>
    absurd (hresult _ hmem) (by decide : ascii "source" ∉ resultLabels)
  have hmethod : ascii "source" ≠ ascii "method" := by decide
  simp [hlabels, hother, hmethod]

theorem Proper.method_mem (h : Proper families source method u) (value : Bytes) :
    (ascii "method", value) ∈ u.labels ↔ value = method := by
  obtain ⟨result, hlabels, hresult⟩ := h.labels
  have hother : (ascii "method", value) ∉ result := fun hmem =>
    absurd (hresult _ hmem) (by decide : ascii "method" ∉ resultLabels)
  have hsource : ascii "method" ≠ ascii "source" := by decide
  simp [hlabels, hother, hsource]

end proper

/-! ### Of a server -/

namespace Server

open Lib.Machine

section updates

variable {server : Http2Server} {st : Stream} {e : Event} {u : MetricUpdate}

theorem proper_updateMetrics {now : Int} {label : Bytes} (hlabel : label ∈ resultLabels)
    (hu : .metric u ∈ st.updateMetrics server now label) :
    server.metrics = true ∧ Proper families server.source st.req.method u := by
  unfold Stream.updateMetrics at hu
  split at hu
  · next hmetrics =>
    refine ⟨hmetrics, ?_⟩
    simp only [List.mem_cons, Effect.metric.injEq, List.not_mem_nil, or_false] at hu
    rcases hu with rfl | rfl | rfl | rfl | rfl | rfl | rfl
    · exact .result (by decide) rfl hlabel
    · exact .plain (by decide) rfl
    · exact .result (by decide) rfl hlabel
    · exact .result (by decide) rfl hlabel
    · exact .plain (by decide) rfl
    · exact .result (by decide) rfl hlabel
    · exact .result (by decide) rfl hlabel
  · simp at hu

theorem proper_reception {now : Int} {congestion : Bool} {a : Answers}
    (hdefault : a.receiveError = server.defaultReceiveError st.req [])
    (hu : .metric u ∈ (st.reception server now congestion a).effects) :
    server.metrics = true ∧ Proper families server.source st.req.method u := by
  unfold Stream.reception at hu
  cases hrejected : rejection server st.req congestion a with
  | none =>
    simp only [hrejected, List.mem_append, List.mem_singleton, reduceCtorEq, or_false] at hu
    split at hu
    · next hmetrics =>
      obtain rfl := Effect.metric.inj (List.mem_singleton.mp hu)
      exact ⟨hmetrics, .plain (by decide) rfl⟩
    · simp at hu
  | some error =>
    simp only [hrejected, List.mem_cons, reduceCtorEq, false_or, List.mem_map,
      Effect.metric.injEq, exists_eq_right, hdefault, Http2Server.defaultReceiveError,
      Http2Server.receiveError] at hu
    split at hu
    · next hmetrics =>
      obtain rfl := List.mem_singleton.mp hu
      exact ⟨hmetrics, .plain (by decide) rfl⟩
    · simp at hu

/-- **What an event of a stream writes is proper.** -/
theorem proper_emits (hdefault : ∀ now busyConsumers queueSize a,
      e = .process now busyConsumers queueSize a →
        a.receiveError = server.defaultReceiveError st.req [])
    (hu : .metric u ∈ st.emits server e) :
    server.metrics = true ∧ Proper families server.source st.req.method u := by
  cases e with
  | process now busyConsumers queueSize a => exact proper_reception (hdefault _ _ _ a rfl) hu
  | mark now =>
    simp only [Stream.emits] at hu
    split at hu
    · have hproper := proper_updateMetrics (by decide) hu
      exact hproper
    · exact proper_updateMetrics (by decide) hu
  | provision answer =>
    simp only [Stream.emits] at hu
    split at hu <;> simp at hu
  | commit =>
    simp only [Stream.emits] at hu
    split at hu <;> simp at hu
  | respond =>
    simp only [Stream.emits, Response.written] at hu
    split_ifs at hu <;> simp at hu
  | notify counter =>
    simp only [Stream.emits, List.mem_singleton] at hu
    split at hu <;> simp at hu
  | _ => simp [Stream.emits] at hu

/-- What the streams of a server write is proper. -/
theorem proper_serving {evs : List ServerEvent} (hrun : (serving server).Run {} evs)
    (hdefault : (serving server).Along (UsesDefault server) {} evs) :
    ∀ st ∈ ((serving server).after {} evs).streams, ∀ u, .metric u ∈ st.effects →
      server.metrics = true ∧ Proper families server.source st.req.method u := by
  refine invariant_along (I := fun sv : Serving => ∀ st ∈ sv.streams, ∀ u,
    .metric u ∈ st.effects → server.metrics = true ∧
      Proper families server.source st.req.method u) ?_ (by simp) (hrun.and hdefault)
  rintro sv a h ⟨hen, huses⟩ st hst u hu
  obtain ⟨j, hj⟩ := List.mem_iff_getElem?.mp hst
  cases a with
  | request req =>
    change (sv.next server (.request req)).streams[j]? = some st at hj
    rw [streams_request] at hj
    split at hj
    · obtain rfl := Option.some.inj hj
      simp [Stream.start] at hu
    · exact h st (List.mem_of_getElem? hj) u hu
  | on i e =>
    obtain ⟨before, hbefore, -, -⟩ := enabled_on.mp hen
    change (sv.next server (.on i e)).streams[j]? = some st at hj
    rw [streams_on hbefore] at hj
    split at hj
    · obtain rfl := Option.some.inj hj
      rw [effects_next, List.mem_append] at hu
      rw [req_next]
      rcases hu with hu | hu
      · exact h before (List.mem_of_getElem? hbefore) u hu
      · refine proper_emits ?_ hu
        rintro now busyConsumers queueSize a rfl
        exact huses before hbefore
    · exact h st (List.mem_of_getElem? hj) u hu

end updates

end Server

/-! ### Of a client -/

namespace Client

open Lib.Machine

section updates

variable {client : Http2Client} {call : Call} {rq : Request} {e : Event} {u : MetricUpdate}

theorem mem_updates {us : List MetricUpdate} :
    .metric u ∈ client.updates us ↔ client.metrics = true ∧ u ∈ us := by
  unfold Http2Client.updates
  split <;> simp_all

/-- To call back writes nothing. -/
theorem metric_mem_invoke {response : Response} :
    .metric u ∈ (rq.invoke response).effects ↔ .metric u ∈ rq.effects := by
  unfold Request.invoke
  split <;> simp [Request.emit]

/-- Proper updates, which are made with metrics only. -/
theorem proper_updates {us : List MetricUpdate}
    (hall : ∀ u ∈ us, Proper families client.source call.method u)
    (hu : .metric u ∈ client.updates us) :
    client.metrics = true ∧ Proper families client.source call.method u := by
  obtain ⟨hmetrics, hu⟩ := mem_updates.mp hu
  exact ⟨hmetrics, hall u hu⟩

theorem proper_asyncSend {connected reconnected : Bool}
    (hu : .metric u ∈ (rq.asyncSend client call connected reconnected).effects) :
    .metric u ∈ rq.effects ∨
      (client.metrics = true ∧ Proper families client.source call.method u) := by
  unfold Request.asyncSend at hu
  split at hu
  · simp only [emit_effects, List.mem_append] at hu
    refine hu.imp_right (proper_updates ?_)
    simp only [List.forall_mem_cons]
    exact ⟨.plain (by decide) rfl, .plain (by decide) rfl, .plain (by decide) rfl, by simp⟩
  · simp only [emit_effects, List.mem_append, List.mem_singleton, reduceCtorEq, or_false] at hu
    refine hu.imp_right (proper_updates ?_)
    exact List.forall_mem_singleton.mpr (.plain (by decide) rfl)

theorem proper_timerHandler (hu : .metric u ∈ (rq.timerHandler client call).effects) :
    .metric u ∈ rq.effects ∨
      (client.metrics = true ∧ Proper families client.source call.method u) := by
  simp only [Request.timerHandler] at hu
  split at hu
  · exact Or.inl hu
  · simp only [metric_mem_invoke, emit_effects, List.mem_append, List.mem_singleton,
      reduceCtorEq, or_false] at hu
    refine hu.imp_right (proper_updates ?_)
    exact List.forall_mem_singleton.mpr (.plain (by decide) rfl)

theorem proper_onResponse {now : Int} {res : Res}
    (hu : .metric u ∈ (rq.onResponse client call now res).effects) :
    .metric u ∈ rq.effects ∨
      (client.metrics = true ∧ Proper families client.source call.method u) := by
  simp only [Request.onResponse] at hu
  split at hu
  · exact Or.inl hu
  · simp only [emit_effects, List.mem_append] at hu
    rcases hu with hu | hu
    · left
      split at hu
      · exact hu
      · exact hu
    · refine Or.inr (proper_updates ?_ hu)
      simp only [List.forall_mem_cons]
      exact ⟨.result (by decide) rfl (by decide), .result (by decide) rfl (by decide),
        .result (by decide) rfl (by decide), by simp⟩

theorem proper_onDataHandler {res : Res} {chunk : Bytes}
    (hu : .metric u ∈ (rq.onDataHandler client call res chunk).effects) :
    .metric u ∈ rq.effects ∨
      (client.metrics = true ∧ Proper families client.source call.method u) := by
  simp only [Request.onDataHandler] at hu
  split at hu
  · exact Or.inl hu
  · simp only [emit_effects, metric_mem_invoke, effects_cancelTimer, List.mem_append] at hu
    refine hu.imp_right (proper_updates ?_)
    simp only [List.forall_mem_cons]
    exact ⟨.result (by decide) rfl (by decide), .result (by decide) rfl (by decide), by simp⟩

/-- **What an event of a request writes is proper.** -/
theorem proper_next (hu : .metric u ∈ (rq.next client call e).effects) :
    .metric u ∈ rq.effects ∨
      (client.metrics = true ∧ Proper families client.source call.method u) := by
  cases e with
  | asyncSend connected reconnected => exact proper_asyncSend hu
  | timerHandler => exact proper_timerHandler hu
  | onResponse now res => exact proper_onResponse hu
  | onData chunk =>
    simp only [Request.next] at hu
    split at hu
    · exact proper_onDataHandler hu
    · exact Or.inl hu
  | submit now isConnected hasSession attempt =>
    left
    simp only [Request.next, Request.submit] at hu
    split_ifs at hu <;>
      simpa [metric_mem_invoke, Http2Client.submitCall] using hu
  | onClose errorCode =>
    left
    simp only [Request.next, Request.onClose] at hu
    split at hu
    · exact hu
    · simpa [metric_mem_invoke] using hu
  | startTimer => exact Or.inl (by simpa [Request.next, Request.startTimer] using hu)
  | timerExpires => exact Or.inl hu
  | timerAborted => exact Or.inl hu

/-- What the requests of a client write is proper. -/
theorem proper_running {closedCallbackSet : Bool} {es : List RunningEvent}
    (hrun : (running client).Run (.start closedCallbackSet) es) :
    ∀ s ∈ ((running client).after (.start closedCallbackSet) es).requests, ∀ u,
      .metric u ∈ s.2.effects →
        client.metrics = true ∧ Proper families client.source s.1.method u := by
  rintro ⟨call, rq⟩ hs
  obtain ⟨hrequests, heq⟩ := requests_run hrun
  rw [heq] at hs
  obtain ⟨i, hi⟩ := List.mem_iff_getElem?.mp hs
  obtain ⟨halone, rfl⟩ := request_alone hrequests hi
  refine invariant (I := fun rq : Request => ∀ u, .metric u ∈ rq.effects →
    client.metrics = true ∧ Proper families client.source call.method u) ?_ (by simp) halone
  intro rq e h _ u hu
  exact (proper_next hu).elim (h u) id

end updates

end Client

/-! ## Endpoints and series -/

/-- A server, or a client and its name. -/
inductive Endpoint where
  | ofServer (server : Server.Http2Server)
  | ofClient (name : Bytes) (client : Client.Http2Client)

def Endpoint.name : Endpoint → Bytes
  | .ofServer server => server.name
  | .ofClient name _ => name

def Endpoint.source : Endpoint → Bytes
  | .ofServer server => server.source
  | .ofClient _ client => client.source

def Endpoint.families : Endpoint → List Family
  | .ofServer _ => Server.families
  | .ofClient .. => Client.families

def Endpoint.enableMetrics (metrics : Bool) (source : Bytes) :
    Endpoint → Endpoint × List Registration
  | .ofServer server => (server.enableMetrics metrics source).map .ofServer id
  | .ofClient name client => (client.enableMetrics name metrics source).map (.ofClient name) id

/-- In a run of its own the endpoint makes the update, for a request of the method. The server's
`receiveError` is the default one. -/
inductive Endpoint.Makes : Endpoint → Bytes → MetricUpdate → Prop
  | server {server : Server.Http2Server} {evs : List Server.ServerEvent} {st : Server.Stream}
    {u : MetricUpdate} (hrun : (Server.serving server).Run {} evs)
    (hdefault : (Server.serving server).Along (Server.UsesDefault server) {} evs)
    (hst : st ∈ ((Server.serving server).after {} evs).streams) (hu : .metric u ∈ st.effects) :
    Makes (.ofServer server) st.req.method u
  | client {name : Bytes} {client : Client.Http2Client} {closedCallbackSet : Bool}
    {es : List Client.RunningEvent} {s : Client.Call × Client.Request} {u : MetricUpdate}
    (hrun : (Client.running client).Run (.start closedCallbackSet) es)
    (hs : s ∈ ((Client.running client).after (.start closedCallbackSet) es).requests)
    (hu : .metric u ∈ s.2.effects) : Makes (.ofClient name client) s.1.method u

/-- The metrics are enabled. -/
def Endpoint.metrics : Endpoint → Bool
  | .ofServer server => server.metrics
  | .ofClient _ client => client.metrics

theorem Endpoint.Makes.proper {x : Endpoint} {method : Bytes} {u : MetricUpdate}
    (h : x.Makes method u) :
    x.metrics = true ∧ Proper x.families x.source method u := by
  cases h with
  | server hrun hdefault hst hu => exact Server.proper_serving hrun hdefault _ hst u hu
  | client hrun hs hu => exact Client.proper_running hrun _ hs u hu

/-- The series that an update of an endpoint goes to: the family's full name and the labels, in
whatever order. -/
def MetricUpdate.series (name : Bytes) (u : MetricUpdate) : Bytes × Multiset (Bytes × Bytes) :=
  (name ++ u.family.suffix, u.labels)

/-- No ending ends in another. -/
theorem suffix_inj {f f' : Family} (h : f.suffix <:+ f'.suffix) : f = f' := by
  revert h
  cases f <;> cases f' <;> decide

/-- **A full name shows the endpoint's name and the family.** -/
theorem name_suffix_inj {name name' : Bytes} {f f' : Family}
    (h : name ++ f.suffix = name' ++ f'.suffix) : name = name' ∧ f = f' := by
  obtain ⟨hname, hsuffix⟩ :=
    append_ending_inj (fun h => by rw [suffix_inj h]) (fun h => by rw [suffix_inj h]) h
  exact ⟨hname, suffix_inj (hsuffix ▸ List.suffix_rfl)⟩

/-- A server that answers a request, and a client that gets a response, named alike. -/
def answering : Endpoint :=
  .ofServer { name := ascii "a", metrics := true, source := ascii "a" }

def asking : Endpoint := .ofClient (ascii "a") { metrics := true, source := ascii "a" }

/-- What each of the two writes as the delay of a GET. -/
def measured : MetricUpdate :=
  { family := .responsesDelaySecondsGauge
    labels := [(ascii "source", ascii "a"), (ascii "method", ascii "GET"),
      (ascii "status_code", ascii "200")]
    operation := .set 2 }

theorem answering_makes : answering.Makes (ascii "GET") measured := by
  let server : Server.Http2Server := { name := ascii "a", metrics := true, source := ascii "a" }
  let req : Server.Request := { method := ascii "GET" }
  let evs : List Server.ServerEvent := [.request req, .on 0 (.endOfRequest 1),
    .on 0 (.process 7 false 0
      { Server.acceptAll with receiveError := server.defaultReceiveError req [] }),
    .on 0 (.provision 0), .on 0 .commit, .on 0 .post, .on 0 .respond, .on 0 (.cancelTimer 0),
    .on 0 (.mark 9)]
  obtain ⟨st, hst, hmethod, hu⟩ : ∃ st ∈ ((Server.serving server).after {} evs).streams,
      st.req.method = ascii "GET" ∧ .metric measured ∈ st.effects := by decide
  have hdefault : (Server.serving server).Along (Server.UsesDefault server) {} evs := by
    refine ⟨trivial, trivial, fun st' hst' => ?_, trivial, trivial, trivial, trivial, trivial,
      trivial, trivial⟩
    obtain rfl : _ = st' := Option.some.inj hst'
    rfl
  exact hmethod ▸ .server (by decide) hdefault hst hu

theorem asking_makes : asking.Makes (ascii "GET") measured := by
  let client : Client.Http2Client := { metrics := true, source := ascii "a" }
  let es : List Client.RunningEvent := [.connection (.onConnect 0),
    .connection (.notify .io none), .asyncSend (.app 0) { method := ascii "GET" } 0,
    .step (.app 0), .step (.app 0), .startTimer, .submit 5 .request,
    .handle 0 (.onResponse 7 { statusCode := 200 })]
  obtain ⟨s, hs, hmethod, hu⟩ : ∃ s ∈ ((Client.running client).after (.start false) es).requests,
      s.1.method = ascii "GET" ∧ .metric measured ∈ s.2.effects := by decide
  exact hmethod ▸ .client (by decide : (Client.running client).Run (.start false) es) hs hu

/-- **What an endpoint writes, it has registered.** Whatever an endpoint writes in its runs after
`enableMetrics` goes to a family that this call has registered under the endpoint's name, as an
operation of that family's kind, labelled with its source and the method of the request. -/
theorem updates_registered (x : Endpoint) (metrics : Bool) (source : Bytes) :
    let enabled := x.enableMetrics metrics source
    ∀ method u, enabled.1.Makes method u →
      u.family.register x.name ∈ enabled.2 ∧ u.operation.kind = u.family.kind ∧
        (ascii "source", if source = [] then x.name else source) ∈ u.labels ∧
        (ascii "method", method) ∈ u.labels := by
  intro enabled method u hmakes
  obtain ⟨hmetrics, hproper⟩ := hmakes.proper
  obtain rfl : metrics = true := by
    cases x <;> cases metrics <;> first | rfl | exact hmetrics
  refine ⟨?_, hproper.kind, (hproper.source_mem _).mpr ?_, (hproper.method_mem _).mpr rfl⟩
  · cases x with
    | ofServer server => exact List.mem_map_of_mem hproper.registered
    | ofClient name client => exact List.mem_map_of_mem hproper.registered
  · cases x <;> rfl

theorem updates_registered_delay :
    Family.register (ascii "a") .responsesDelaySecondsGauge ∈
      ((Endpoint.ofServer { name := ascii "a" }).enableMetrics true []).2 :=
  (updates_registered (.ofServer { name := ascii "a" }) true [] _ measured answering_makes).1

end Http2Comm
