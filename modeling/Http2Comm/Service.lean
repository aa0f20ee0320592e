import Http2Comm.Client.Service
import Http2Comm.Exchange

/-!
# Client and server as one service

Both ends together, with everything between the call and the callback out of sight: the chunks, the
streams, the workers and the timers of both sides. What is left is a service again, and now the
answers say what they are answers to: the callback of a call gets a code of the client, or what the
reception of **that very call** has computed, in this run (`exchanges_serve`).
-/

set_option autoImplicit false

namespace Http2Comm

open Lib Lib.Machine

/-- The request that the server gets for a call. -/
def Client.Call.received (client : Client.Http2Client) (pathOf : Bytes → Bytes)
    (call : Client.Call) : Server.Request :=
  { method := call.method, path := pathOf (client.getUri call.path []) }

/-- What the events of an exchange have to say to its call: a code of the client, or the response
that the `process` of its stream has computed for the request of the call. -/
def AnswersTo (server : Server.Http2Server) (client : Client.Http2Client)
    (pathOf : Bytes → Bytes) (call : Client.Call) (es : List ExchangeEvent)
    (r : Client.Response) : Prop :=
  r ∈ ownCodes ∨ ∃ now busyConsumers queueSize a,
    .process now busyConsumers queueSize a ∈ serverEvents es ∧
    let response := ((Server.Stream.start (call.received client pathOf)).reception server now
      (server.congestion busyConsumers queueSize) a).response
    r.statusCode = response.statusCode ∧ r.headers = response.headers ∧ r.body = response.body

/-- The call of an exchange whose callback has not been invoked. -/
def Exchange.pends (x : Exchange) : Option Client.Call := Client.pends (x.call, x.request)

/-- The callback that an event of an exchange invokes. -/
def Exchange.replies (client : Client.Http2Client) (x : Exchange) :
    ExchangeEvent → Option (Option Client.Response)
  | .client e => Client.replies client (x.call, x.request) e
  | _ => none

/-- The client has nothing left to do for the exchange. -/
def Exchange.Over (x : Exchange) : Prop :=
  (x.request.phase = .unsent ∨ x.request.phase = .submitted ∨ x.request.phase = .failed) ∧
    x.request.timer ≠ .armed ∧ x.request.timer ≠ .expired

instance (x : Exchange) : Decidable x.Over := inferInstanceAs (Decidable (_ ∧ _))

section exchange

variable {server : Server.Http2Server} {client : Client.Http2Client} {pathOf : Bytes → Bytes}

theorem Linked.answersTo {es : List ExchangeEvent} {x : Exchange}
    (h : Linked server client pathOf es x) {r : Client.Response}
    (hr : r ∈ Client.callbacks x.request.effects) :
    AnswersTo server client pathOf x.call es r := by
  refine (h.callback hr).imp_right ?_
  rintro ⟨response, hwritten, hr⟩
  obtain ⟨-, rfl, hstatus⟩ := h.served.written response hwritten
  obtain hnone | ⟨now, busyConsumers, queueSize, a, hprocess, hreception⟩ :=
    receptionOf_cases server (x.opens client pathOf) (serverEvents es)
  · simp [hnone] at hstatus
  · rw [hreception] at hr
    exact ⟨now, busyConsumers, queueSize, a, hprocess, hr⟩

/-- **An exchange settles its call once**, by its callback. -/
theorem exchange_settles (server : Server.Http2Server) (client : Client.Http2Client)
    (pathOf : Bytes → Bytes) :
    Settles (exchange server client pathOf) Exchange.IsStart Exchange.pends
      (AnswersTo server client pathOf) (Exchange.replies client) where
  start := by
    intro x hstart
    rw [hstart]
    rfl
  settles := by
    intro x₀ es e r hstart hrun hen hreplies
    rw [hstart] at hrun hen hreplies ⊢
    have hlinked := linked_run hrun
    have hlinked' := linked_step hlinked hen
    generalize (exchange server client pathOf).after { call := x₀.call } es = x at *
    cases e with
    | client e =>
      obtain ⟨hbefore, hafter, response, rfl, hmem⟩ :=
        Client.pends_replied hlinked.answered.request.kept hen.1 hreplies
      refine ⟨x.call, hbefore, hafter, ?_⟩
      rintro b hb
      obtain rfl : response = b := by simpa using hb
      exact hlinked'.answersTo (List.mem_of_mem_drop hmem)
    | _ => simp [Exchange.replies] at hreplies
  silent := by
    intro x₀ es e _ _ _ hreplies
    generalize (exchange server client pathOf).after x₀ es = x at *
    cases e with
    | client e => exact Client.pends_silent hreplies
    | _ => rfl

/-- A call whose exchange is over has been answered. -/
theorem pends_over {es : List ExchangeEvent} {x : Exchange}
    (h : Linked server client pathOf es x) (hover : x.Over) : x.pends = none := by
  have hkept := h.answered.request.kept
  refine if_neg (List.ne_nil_of_length_pos ?_)
  change 0 < (Client.callbacks x.request.effects).length
  obtain ⟨hphase, harmed, hexpired⟩ := hover
  by_cases hunsent : x.request.phase = .unsent
  · exact Nat.lt_of_lt_of_eq Nat.one_pos (hkept.unsent hunsent).symm
  · have hinvoked := (hkept.promised (Or.inr (hphase.resolve_left hunsent))).resolve_right
      (not_or.mpr ⟨harmed, hexpired⟩)
    rw [hkept.invoked hunsent, if_pos hinvoked]
    exact Nat.one_pos

end exchange

/-! ## Whole runs -/

/-- What a run of the exchanges is to the service. -/
def exchangeEvents (server : Server.Http2Server) (client : Client.Http2Client)
    (pathOf : Bytes → Bytes) (es : List (PoolEvent Exchange ExchangeEvent)) :
    List (ServiceEvent (Nat × Client.Call) Client.Response) :=
  (exchanges server client pathOf).seen
    (poolServiceEvent Exchange.pends (Exchange.replies client)) [] es

/-- The calls whose exchanges start. -/
def startedCalls (es : List (PoolEvent Exchange ExchangeEvent)) : List Client.Call :=
  es.filterMap fun | .start x => some x.call | .on .. => none

section runs

variable {server : Server.Http2Server} {client : Client.Http2Client} {pathOf : Bytes → Bytes}
variable {es : List (PoolEvent Exchange ExchangeEvent)}

/-- The service is asked by the calls, each by the index of its exchange. -/
theorem asked_exchangeEvents (hrun : (exchanges server client pathOf).Run [] es) :
    ServiceEvent.asked (exchangeEvents server client pathOf es) =
      (startedCalls es).mapIdx Prod.mk := by
  rw [exchangeEvents, exchanges, asked_pool (exchange_settles server client pathOf).start _ hrun]
  refine congrArg (List.mapIdx Prod.mk) (List.filterMap_congr fun e he => ?_)
  obtain ⟨before, rest, rfl⟩ := List.append_of_mem he
  have hen := along_iff_cut.mp hrun before e rest rfl
  cases e with
  | start x =>
    have hstart : x = { call := x.call } := hen
    rw [hstart]
    rfl
  | on i e => rfl

theorem dropped_exchangeEvents :
    ServiceEvent.dropped (exchangeEvents server client pathOf es) = [] := by
  refine dropped_pool (fun x e => ?_) [] es
  cases e with
  | client e => exact Client.replies_answers (x.call, x.request) e
  | _ => simp [Exchange.replies]

end runs

end Http2Comm
