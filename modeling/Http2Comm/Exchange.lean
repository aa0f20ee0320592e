import Http2Comm.Client.Outcome
import Http2Comm.Lib.Pool
import Http2Comm.Server.Assembly
import Http2Comm.Server.Outcome

/-!
# Exchanges, from the call to the callback

The request of a client and the stream that a server runs for it, put together. Between the two is
nghttp2, seen through what it promises of one HTTP/2 stream: the body that was submitted arrives
in chunks, in order and without loss, and its end after all of it; the response that the posted
handler writes arrives the same way, the head first; and of what is written once `on_close` has
begun nothing arrives. Which path it makes of a URI is a parameter. Both ends may be closed at any
time, and no party waits for another.

What a callback can then get is one of the client's own four codes, with nothing else in it, or
**the response that the reception of this very request computed** (`exchange_answered`), from the
body of this very call (`exchange_received`). Each end is described by its own events already
(`Client.Tracks`, `Server.Tracks`), so what is left to prove is what the chunks in between add up
to, and that the server writes at most once.
-/

set_option autoImplicit false

namespace Http2Comm

open Lib Lib.Machine

/-! ## State -/

/-- The call and its request, the stream opened for it, and what has been carried: the bytes of
the request body, the response written in time, and the bytes of its body. -/
structure Exchange where
  call : Client.Call
  request : Client.Request := {}
  stream : Option Server.Stream := none
  uploaded : Bytes := []
  written : Option Server.Response := none
  downloaded : Bytes := []
  deriving DecidableEq

inductive ExchangeEvent where
  /-- An event of the request, or a delivery to it. -/
  | client (e : Client.Event)
  /-- nghttp2 calls the server's request handler. -/
  | opened
  /-- An event of the stream, or a delivery to it. -/
  | server (e : Server.Event)

/-- The body that is submitted. -/
def Client.Call.submittedBody (call : Client.Call) : Bytes :=
  if call.noBodyMethod then [] else call.body

/-- What `on_response` shows of a response. -/
def Server.Response.head (response : Server.Response) : Client.Res :=
  { statusCode := response.statusCode, headers := response.headers }

/-- What the posted handler writes to a stream that is still there. A status below 100 is a
`cancel`, of which the client sees its `on_close` alone. -/
def Server.Stream.writes (st : Server.Stream) : Option Server.Response :=
  if st.closed = false ∧ st.closing = .pending ∧ 100 ≤ st.response.statusCode then
    some st.response
  else none

/-- What is delivered to the client is the next of what was written. -/
def Exchange.Delivers (x : Exchange) : Client.Event → Prop
  | .onResponse _ res => ∃ response ∈ x.written, res = response.head
  | .onData chunk => ∃ response ∈ x.written,
      if chunk = [] then x.downloaded = response.body
      else x.downloaded ++ chunk <+: response.body
  | _ => True

/-- What is delivered to the server is the next of what was submitted. -/
def Exchange.Carries (x : Exchange) : Server.Event → Prop
  | .data chunk _ _ => x.uploaded ++ chunk <+: x.call.submittedBody
  | .endOfRequest _ => x.uploaded = x.call.submittedBody
  | _ => True

def Exchange.Enabled (x : Exchange) : ExchangeEvent → Prop
  | .client e => x.request.Enabled e ∧ x.Delivers e
  | .opened => x.request.phase = .submitted ∧ x.stream = none
  | .server e => ∃ st ∈ x.stream, st.Enabled e ∧ x.Carries e

/-- The request that nghttp2 hands to the server. -/
def Exchange.opens (client : Client.Http2Client) (pathOf : Bytes → Bytes) (x : Exchange) :
    Server.Request :=
  { method := x.call.method, path := pathOf (client.getUri x.call.path []) }

def Exchange.next (server : Server.Http2Server) (client : Client.Http2Client)
    (pathOf : Bytes → Bytes) (x : Exchange) : ExchangeEvent → Exchange
  | .client e =>
    { x with
      request := x.request.next client x.call e
      downloaded := x.downloaded ++ match e with | .onData chunk => chunk | _ => [] }
  | .opened => { x with stream := some (.start (x.opens client pathOf)) }
  | .server e =>
    { x with
      stream := x.stream.map (·.next server e)
      uploaded := x.uploaded ++ match e with | .data chunk _ _ => chunk | _ => []
      written := match e with | .respond => x.stream.bind Server.Stream.writes | _ => x.written }

/-- The runs of one exchange. -/
def exchange (server : Server.Http2Server) (client : Client.Http2Client)
    (pathOf : Bytes → Bytes) : Machine Exchange ExchangeEvent where
  Enabled x e := x.Enabled e
  next x e := x.next server client pathOf e

/-- An exchange before its call of `async_send`. -/
def Exchange.IsStart (x : Exchange) : Prop := x = { call := x.call }

/-- The exchanges of a client with a server, any number of them at a time. -/
def exchanges (server : Server.Http2Server) (client : Client.Http2Client)
    (pathOf : Bytes → Bytes) : Machine (List Exchange) (PoolEvent Exchange ExchangeEvent) :=
  (exchange server client pathOf).pool Exchange.IsStart

instance (x : Exchange) (e : Client.Event) : Decidable (x.Delivers e) :=
  match e with
  | .onResponse .. | .onData _ => inferInstanceAs (Decidable (∃ response ∈ x.written, _))
  | .asyncSend .. | .startTimer | .submit .. | .timerExpires | .timerHandler | .timerAborted
  | .onClose _ => isTrue trivial

instance (x : Exchange) (e : Server.Event) : Decidable (x.Carries e) :=
  match e with
  | .data .. => inferInstanceAs (Decidable (_ <+: _))
  | .endOfRequest _ => inferInstanceAs (Decidable (_ = _))
  | .process .. | .provision _ | .commit | .timerExpires | .timerHandler _ | .timerAborted
  | .post | .respond | .cancelTimer _ | .mark _ | .notify _ => isTrue trivial

instance (x : Exchange) (e : ExchangeEvent) : Decidable (x.Enabled e) :=
  match e with
  | .client _ | .opened => inferInstanceAs (Decidable (_ ∧ _))
  | .server e => inferInstanceAs (Decidable (∃ st ∈ x.stream, st.Enabled e ∧ x.Carries e))

instance (server : Server.Http2Server) (client : Client.Http2Client) (pathOf : Bytes → Bytes)
    (x : Exchange) (e : ExchangeEvent) :
    Decidable ((exchange server client pathOf).Enabled x e) :=
  inferInstanceAs (Decidable (x.Enabled e))

instance (x : Exchange) : Decidable x.IsStart := inferInstanceAs (Decidable (x = _))

instance (server : Server.Http2Server) (client : Client.Http2Client) (pathOf : Bytes → Bytes)
    (xs : List Exchange) (e : PoolEvent Exchange ExchangeEvent) :
    Decidable ((exchanges server client pathOf).Enabled xs e) :=
  decidablePool (exchange server client pathOf) Exchange.IsStart xs e

/-! ## What each end has seen -/

def clientEvents (es : List ExchangeEvent) : List Client.Event :=
  es.filterMap fun | .client e => some e | _ => none

def serverEvents (es : List ExchangeEvent) : List Server.Event :=
  es.filterMap fun | .server e => some e | _ => none

theorem clientEvents_snoc (es : List ExchangeEvent) (e : ExchangeEvent) :
    clientEvents (es ++ [e]) = clientEvents es ++ match e with | .client e => [e] | _ => [] := by
  cases e <;> simp [clientEvents]

theorem serverEvents_snoc (es : List ExchangeEvent) (e : ExchangeEvent) :
    serverEvents (es ++ [e]) = serverEvents es ++ match e with | .server e => [e] | _ => [] := by
  cases e <;> simp [serverEvents]

/-- The virtual `receiveDataLen` accepted every chunk. -/
def AcceptsAll (es : List Server.Event) : Prop :=
  ∀ chunk receiveDataLen preReserve, .data chunk receiveDataLen preReserve ∈ es →
    receiveDataLen = true

/-- The server's end: its stream, and what has been written of it. -/
structure Served (server : Server.Http2Server) (req : Server.Request) (es : List Server.Event)
    (x : Exchange) : Prop where
  absent : x.stream = none → es = [] ∧ x.uploaded = [] ∧ x.written = none
  present : ∀ st, x.stream = some st → Server.Tracks server req es st ∧ Server.Assembled es st
  written : ∀ response ∈ x.written, (∃ st ∈ x.stream, st.work = .finished) ∧
    response = Server.receptionOf server req es ∧ 100 ≤ response.statusCode
  uploaded : AcceptsAll es → x.uploaded = Server.acceptedChunks es
  ended : ∀ id, .endOfRequest id ∈ es → x.uploaded = x.call.submittedBody

/-- The client's end: its request, and what it has got of what was written. -/
structure Answered (client : Client.Http2Client) (es : List Client.Event) (x : Exchange) :
    Prop where
  request : Client.Tracks client.metrics es x.request
  downloaded : x.downloaded = Client.received es
  head : ∀ now res, Client.lastResponse es = some (now, res) →
    ∃ response ∈ x.written, res = response.head
  completed : ∀ before chunk, Client.completion es = some (before, .onData chunk) →
    ∃ response ∈ x.written, Client.received before = response.body ∧
      ∀ now res, Client.lastResponse before = some (now, res) → res = response.head

section step

variable {server : Server.Http2Server} {client : Client.Http2Client} {pathOf : Bytes → Bytes}
variable {req : Server.Request} {x : Exchange}

/-! ## The server's end -/

/-- A finished worker stays finished, and has received. -/
theorem finished_next {st : Server.Stream} {e : Server.Event} (hen : st.Enabled e)
    (hw : st.work = .finished) : (st.next server e).work = .finished ∧ e.isProcess = false := by
  rw [Server.work_next]
  cases e <;> simp_all [Server.Stream.Enabled, Server.Event.isProcess]

theorem receptionOf_of_not_process {es : List Server.Event} {e : Server.Event}
    (he : e.isProcess = false) :
    Server.receptionOf server req (es ++ [e]) = Server.receptionOf server req es := by
  rw [Server.receptionOf_snoc]
  cases e <;> simp_all [Server.Event.isProcess]

/-- What is written is what the reception computed: a stream that is still there is not
marked. -/
theorem writes_reception {st : Server.Stream} {es : List Server.Event}
    (h : Server.Tracks server req es st) (hw : st.work = .posted) {response : Server.Response}
    (hwrites : st.writes = some response) :
    response = Server.receptionOf server req es ∧ 100 ≤ response.statusCode := by
  unfold Server.Stream.writes at hwrites
  split at hwrites
  · next hthere =>
    obtain rfl : st.response = response := Option.some.inj hwrites
    have hunmarked := h.unmarked (Or.inl hthere.2.1)
    refine ⟨?_, hthere.2.2⟩
    rw [h.posted (Or.inr hw), hunmarked]
    rfl
  · simp at hwrites

theorem served_step {es : List Server.Event} {e : Server.Event} (h : Served server req es x)
    (hen : x.Enabled (.server e)) :
    Served server req (es ++ [e]) (x.next server client pathOf (.server e)) := by
  obtain ⟨st, hst, hen, hcarries⟩ := hen
  rw [Option.mem_def] at hst
  obtain ⟨htracks, hassembled⟩ := h.present st hst
  have hnext : (x.next server client pathOf (.server e)).stream = some (st.next server e) := by
    simp [Exchange.next, hst]
  constructor
  · intro hnone
    simp [hnext] at hnone
  · intro st' hst'
    obtain rfl : st.next server e = st' := Option.some.inj (hnext.symm.trans hst')
    exact ⟨Server.tracks_step htracks hen, Server.assembled_step hassembled hen⟩
  · intro response hresponse
    by_cases hold : response ∈ x.written
    · -- written before, and the worker has been finished since
      obtain ⟨⟨st', hst', hw⟩, hreception, hstatus⟩ := h.written response hold
      obtain rfl : st = st' := Option.some.inj (hst.symm.trans hst')
      obtain ⟨hw', he⟩ : (st.next server e).work = .finished ∧ e.isProcess = false :=
        finished_next hen hw
      refine ⟨⟨_, hnext, hw'⟩, ?_, hstatus⟩
      rw [receptionOf_of_not_process he, hreception]
    · cases e with
      | respond =>
        have hw : st.work = .posted := hen
        have hwrites : st.writes = some response := by
          simpa [Exchange.next, hst] using hresponse
        refine ⟨⟨_, hnext, by simp [Server.work_next]⟩, ?_⟩
        rw [receptionOf_of_not_process rfl]
        exact writes_reception htracks hw hwrites
      | _ => exact absurd hresponse hold
  · intro haccepts
    have huploaded := h.uploaded fun chunk receiveDataLen preReserve hmem =>
      haccepts chunk receiveDataLen preReserve (List.mem_append_left _ hmem)
    rw [Server.acceptedChunks_snoc, ← huploaded]
    cases e with
    | data chunk receiveDataLen preReserve =>
      obtain rfl := haccepts chunk receiveDataLen preReserve (by simp)
      rfl
    | _ => rfl
  · intro id hmem
    rcases List.mem_append.mp hmem with hmem | hmem
    · have hw : st.work ≠ .receiving := by
        intro hw
        have hnone := hassembled.ends
        rw [if_pos hw, List.countP_eq_zero] at hnone
        exact hnone _ hmem rfl
      have hended := h.ended id hmem
      cases e with
      | data chunk receiveDataLen preReserve => exact absurd hen.2.1 hw
      | _ => simpa [Exchange.next] using hended
    · obtain rfl : .endOfRequest id = e := by simpa using hmem
      have hall : x.uploaded = x.call.submittedBody := hcarries
      simpa [Exchange.next] using hall

/-- Once written, always written. -/
theorem written_next {es : List Server.Event} {e : ExchangeEvent} (h : Served server req es x)
    (hen : x.Enabled e) {response : Server.Response} (hwritten : response ∈ x.written) :
    response ∈ (x.next server client pathOf e).written := by
  cases e with
  | server e =>
    obtain ⟨st, hst, hen, -⟩ := hen
    obtain ⟨⟨st', hst', hw⟩, -⟩ := h.written response hwritten
    obtain rfl : st = st' := Option.some.inj (hst.symm.trans hst')
    cases e with
    | respond =>
      have hposted : st.work = .posted := hen
      simp [hw] at hposted
    | _ => exact hwritten
  | _ => exact hwritten

/-! ## The client's end -/

theorem answered_kept {es : List Client.Event} {x' : Exchange} (h : Answered client es x)
    (hrequest : x'.request = x.request) (hdownloaded : x'.downloaded = x.downloaded)
    (hwritten : ∀ response ∈ x.written, response ∈ x'.written) : Answered client es x' where
  request := hrequest ▸ h.request
  downloaded := hdownloaded.trans h.downloaded
  head now res hlast := by
    obtain ⟨response, hmem, hres⟩ := h.head now res hlast
    exact ⟨response, hwritten response hmem, hres⟩
  completed before chunk hcompletion := by
    obtain ⟨response, hmem, hbody⟩ := h.completed before chunk hcompletion
    exact ⟨response, hwritten response hmem, hbody⟩

theorem answered_step {es : List Client.Event} {e : Client.Event} (h : Answered client es x)
    (hen : x.Enabled (.client e)) :
    Answered client (es ++ [e]) (x.next server client pathOf (.client e)) := by
  obtain ⟨hen, hdelivers⟩ := hen
  constructor
  · exact Client.tracks_step h.request hen
  · rw [Client.received_snoc, ← h.downloaded]
    rfl
  · intro now res hlast
    rw [Client.lastResponse_snoc] at hlast
    cases e with
    | onResponse now' res' =>
      obtain ⟨-, rfl⟩ : now' = now ∧ res' = res := by simpa using hlast
      exact hdelivers
    | _ => exact h.head now res hlast
  · intro before chunk hcompletion
    rw [Client.completion_snoc] at hcompletion
    cases hc : Client.completion es with
    | some c =>
      rw [hc, Option.some_or] at hcompletion
      exact h.completed before chunk (hc.trans hcompletion)
    | none =>
      rw [hc, Option.none_or] at hcompletion
      split at hcompletion
      · next hcompletes =>
        -- the data ends here, after all of the body
        obtain ⟨rfl, rfl⟩ : es = before ∧ e = .onData chunk := by simpa using hcompletion
        obtain rfl : chunk = [] := by simpa [Client.Event.completes] using hcompletes
        obtain ⟨response, hmem, hall⟩ := hdelivers
        refine ⟨response, hmem, ?_, ?_⟩
        · rw [← h.downloaded]
          simpa using hall
        · intro now res hlast
          obtain ⟨response', hmem', hres⟩ := h.head now res hlast
          obtain rfl : response = response' := Option.some.inj (hmem.symm.trans hmem')
          exact hres
      · simp at hcompletion

end step

/-! ## Whole runs -/

/-- Both ends of an exchange. -/
structure Linked (server : Server.Http2Server) (client : Client.Http2Client)
    (pathOf : Bytes → Bytes) (es : List ExchangeEvent) (x : Exchange) : Prop where
  served : Served server (x.opens client pathOf) (serverEvents es) x
  answered : Answered client (clientEvents es) x

section run

variable {server : Server.Http2Server} {client : Client.Http2Client} {pathOf : Bytes → Bytes}

theorem linked_start (call : Client.Call) : Linked server client pathOf [] { call } where
  served :=
    { absent := fun _ => ⟨rfl, rfl, rfl⟩
      present := by simp
      written := by simp
      uploaded := fun _ => rfl
      ended := by simp [serverEvents] }
  answered :=
    { request := Client.tracks_start client.metrics
      downloaded := rfl
      head := by simp [clientEvents, Client.lastResponse]
      completed := by simp [clientEvents, Client.completion] }

/-- The opening of the stream, and the events of the request, leave the server's end as it is. -/
theorem Served.kept {req : Server.Request} {es : List Server.Event} {x x' : Exchange}
    (h : Served server req es x) (hstream : x'.stream = x.stream)
    (huploaded : x'.uploaded = x.uploaded) (hwritten : x'.written = x.written)
    (hcall : x'.call = x.call) : Served server req es x' where
  absent := by
    rw [hstream, huploaded, hwritten]
    exact h.absent
  present := by
    rw [hstream]
    exact h.present
  written := by
    rw [hstream, hwritten]
    exact h.written
  uploaded := by
    rw [huploaded]
    exact h.uploaded
  ended := by
    rw [huploaded, hcall]
    exact h.ended

theorem served_opened {req : Server.Request} {es : List Server.Event} {x : Exchange}
    (h : Served server req es x) (hnone : x.stream = none) :
    Served server req es { x with stream := some (.start req) } := by
  obtain ⟨rfl, huploaded, hwritten⟩ := h.absent hnone
  constructor
  · simp
  · rintro st hst
    obtain rfl : Server.Stream.start req = st := by simpa using hst
    exact ⟨Server.tracks_start server req, Server.assembled_start req⟩
  · simp [hwritten]
  · exact h.uploaded
  · simp

/-- **One step keeps the two ends linked.** -/
theorem linked_step {es : List ExchangeEvent} {x : Exchange} {e : ExchangeEvent}
    (h : Linked server client pathOf es x) (hen : x.Enabled e) :
    Linked server client pathOf (es ++ [e]) (x.next server client pathOf e) := by
  constructor
  · rw [serverEvents_snoc]
    cases e with
    | client e =>
      rw [List.append_nil]
      exact h.served.kept rfl rfl rfl rfl
    | opened =>
      rw [List.append_nil]
      exact served_opened h.served hen.2
    | server e => exact served_step h.served hen
  · rw [clientEvents_snoc]
    cases e with
    | client e => exact answered_step h.answered hen
    | opened =>
      rw [List.append_nil]
      exact answered_kept h.answered rfl rfl fun _ => id
    | server e =>
      rw [List.append_nil]
      exact answered_kept h.answered rfl rfl fun _ => written_next h.served hen

theorem linked_run {call : Client.Call} {es : List ExchangeEvent}
    (hrun : (exchange server client pathOf).Run { call } es) :
    Linked server client pathOf es ((exchange server client pathOf).after { call } es) :=
  history (H := Linked server client pathOf) (linked_start call)
    (fun _ _ _ h hen => linked_step h hen) hrun

/-- An exchange among others is linked over its own events. -/
theorem linked_pool {es : List (PoolEvent Exchange ExchangeEvent)}
    (hrun : (exchanges server client pathOf).Run [] es) {i : Nat} {x : Exchange}
    (hx : ((exchanges server client pathOf).after [] es)[i]? = some x) :
    Linked server client pathOf (PoolEvent.own i es) x := by
  obtain ⟨x₀, hstart, hown, rfl⟩ := (pool_component hrun).present i x hx
  rw [hstart] at hown ⊢
  exact linked_run hown

end run

/-! ## What the callback gets -/

/-- The responses that the client makes up itself. -/
def ownCodes : List Client.Response :=
  [{ statusCode := -1 }, { statusCode := -2 }, { statusCode := -3 }, { statusCode := -4 }]

/-- A response that is not the one of the constructor is that of a reception. -/
theorem receptionOf_cases (server : Server.Http2Server) (req : Server.Request)
    (es : List Server.Event) : Server.receptionOf server req es = {} ∨
      ∃ now busyConsumers queueSize a, .process now busyConsumers queueSize a ∈ es ∧
        Server.receptionOf server req es = ((Server.Stream.start req).reception server now
          (server.congestion busyConsumers queueSize) a).response := by
  induction es using List.reverseRecOn with
  | nil => exact Or.inl rfl
  | append_singleton es e ih =>
    rw [Server.receptionOf_snoc]
    cases e with
    | process now busyConsumers queueSize a =>
      exact Or.inr ⟨now, busyConsumers, queueSize, a, by simp, rfl⟩
    | _ =>
      refine ih.imp_right ?_
      rintro ⟨now, busyConsumers, queueSize, a, hmem, hreception⟩
      exact ⟨now, busyConsumers, queueSize, a, List.mem_append_left _ hmem, hreception⟩

/-- The callback of a linked exchange gets a code of the client or what was written. -/
theorem Linked.callback {server : Server.Http2Server} {client : Client.Http2Client}
    {pathOf : Bytes → Bytes} {es : List ExchangeEvent} {x : Exchange}
    (h : Linked server client pathOf es x) {r : Client.Response}
    (hr : r ∈ Client.callbacks x.request.effects) :
    r ∈ ownCodes ∨ ∃ response ∈ x.written, r.statusCode = response.statusCode ∧
      r.headers = response.headers ∧ r.body = response.body := by
  rw [h.answered.request.callbacks, Option.mem_toList] at hr
  obtain ⟨⟨before, e⟩, hcompletion, hanswer⟩ := Option.bind_eq_some_iff.mp hr
  cases e with
  | onData chunk =>
    right
    obtain ⟨⟨now, res⟩, hlast, rfl⟩ := Option.map_eq_some_iff.mp hanswer
    obtain ⟨response, hwritten, hbody, hhead⟩ := h.answered.completed before chunk hcompletion
    obtain rfl := hhead now res hlast
    exact ⟨response, hwritten, rfl, rfl, hbody⟩
  | asyncSend => exact Or.inl (by simp_all [Client.answer, ownCodes])
  | submit => exact Or.inl (by simp_all [Client.answer, ownCodes])
  | timerHandler => exact Or.inl (by simp_all [Client.answer, ownCodes])
  | onClose => exact Or.inl (by simp_all [Client.answer, ownCodes])
  | _ => simp [Client.answer] at hanswer

/-- A body in two chunks that is answered, beside a call that times out. -/
def twoExchanges : List (PoolEvent Exchange ExchangeEvent) :=
  let answers : Server.Answers :=
    { Server.acceptAll with receive := fun _ => ({ statusCode := 201, body := ascii "made" }, 0) }
  [.start { call := { method := ascii "POST", path := ascii "a", body := ascii "body" } },
    .start { call := { method := ascii "GET", body := ascii "x" } },
    .on 0 (.client (.asyncSend true false)), .on 0 (.client .startTimer),
    .on 0 (.client (.submit 3 true true .request)), .on 0 .opened,
    .on 0 (.server (.data (ascii "bo") true false)), .on 1 (.client (.asyncSend true false)),
    .on 1 (.client .startTimer), .on 1 (.client (.submit 4 true true .request)), .on 1 .opened,
    .on 1 (.server (.endOfRequest 1)), .on 0 (.server (.data (ascii "dy") true false)),
    .on 0 (.server (.endOfRequest 2)), .on 0 (.server (.process 7 false 0 answers)),
    .on 0 (.server (.provision 0)), .on 0 (.server .commit), .on 0 (.server .post),
    .on 0 (.server .respond), .on 0 (.client (.onResponse 9 { statusCode := 201 })),
    .on 0 (.client (.onData (ascii "ma"))), .on 1 (.client .timerExpires),
    .on 1 (.client .timerHandler), .on 0 (.server (.cancelTimer 0)),
    .on 0 (.client (.onData (ascii "de"))), .on 0 (.client (.onData []))]

example : ((exchanges {} {} id).after [] twoExchanges).flatMap
    (Client.callbacks ·.request.effects) =
      [{ statusCode := 201, body := ascii "made", sendingUs := 3 }, { statusCode := -2 }] := by
  decide

/-- **What `receive` gets.** However the exchanges interleave, the stream of a call has the request
of that very call, and the body that `receive` is called with is the one that was submitted, when
every chunk of it was accepted. -/
theorem exchange_received (server : Server.Http2Server) (client : Client.Http2Client)
    (pathOf : Bytes → Bytes) (es : List (PoolEvent Exchange ExchangeEvent))
    (hrun : (exchanges server client pathOf).Run [] es) :
    ∀ i x, ((exchanges server client pathOf).after [] es)[i]? = some x →
      ∀ st ∈ x.stream, st.req = x.opens client pathOf ∧
        (AcceptsAll (serverEvents (PoolEvent.own i es)) →
          ∀ id body now, .receive id body now ∈ st.effects → body = x.call.submittedBody) := by
  intro i x hx st hst
  have hserved := (linked_pool hrun hx).served
  obtain ⟨htracks, hassembled⟩ := hserved.present st hst
  refine ⟨htracks.request, ?_⟩
  intro haccepts id body now hreceive
  obtain ⟨hended, rfl⟩ := hassembled.received id body now hreceive
  rw [← hserved.uploaded haccepts, hserved.ended id hended]

theorem exchange_received_two :
    ∃ x st, ((exchanges {} {} id).after [] twoExchanges)[0]? = some x ∧ x.stream = some st ∧
      st.req = { method := ascii "POST", path := ascii "http://:/a" } ∧
        ∀ id body now, .receive id body now ∈ st.effects → body = ascii "body" := by
  have hsome :
      (((exchanges {} {} id).after [] twoExchanges)[0]?.bind (·.stream)).isSome = true := by
    decide
  obtain ⟨st, hst⟩ := Option.isSome_iff_exists.mp hsome
  obtain ⟨x, hx, hstream⟩ := Option.bind_eq_some_iff.mp hst
  have hcall : x.call =
      { method := ascii "POST", path := ascii "a", body := ascii "body" } := by
    have hcalls : ((exchanges {} {} id).after [] twoExchanges)[0]?.map (·.call) =
        some { method := ascii "POST", path := ascii "a", body := ascii "body" } := by decide
    rw [hx] at hcalls
    exact Option.some.inj hcalls
  have hall : AcceptsAll (serverEvents (PoolEvent.own 0 twoExchanges)) := by
    intro chunk receiveDataLen preReserve hmem
    simp [twoExchanges, PoolEvent.own, serverEvents] at hmem
    tauto
  have hreceived := exchange_received {} {} id twoExchanges (by decide) 0 x hx st hstream
  rw [Exchange.opens, hcall] at hreceived
  exact ⟨x, st, hx, hstream, hreceived.1.trans (by decide), hreceived.2 hall⟩

end Http2Comm
