import Http2Comm.Client.AsyncSend
import Http2Comm.Client.Accounting
import Http2Comm.Client.Send

/-!
# A running client

The pieces so far look at a client from two sides. `sending` has the threads, the mutexes and the
connection, and counts what is left for the io thread; `request` has the task, the timer and the
callback of one request, and asks its surroundings whether the connection is open. A running client
is both at once: the threads carry the requests they send, the io thread has a queue of submit
handlers, and what a handler asks is answered by the connection as it is.

An event of the client is therefore up to two events, one of the threads (`threadEvent`) and one
of a request (`requestEvent`), and the bookkeeping between them: which request a thread sends
(`current`), which are posted (`queue`), and which one the submit handler is at (`submitting`).
The io thread runs one handler at a time. Its submit handler is three events: it arms the request
timer, it tries to submit, and when that fails it goes through `notifyClose` before it calls back.
The handler of a delay timer calls `async_send`, or drops its call without a callback when the timer
has completed with an error; `droppedCalls` is what has gone that way.
-/

set_option autoImplicit false

namespace Http2Comm.Client

open Lib Lib.Machine

/-! ## State -/

/-- The members of a client that its functions share. `current` is the request of the `async_send`
that runs on a thread, and whether that call went into `reconnect`; `submitting` is the request of
the submit handler that runs, with the event that its failure will be once `notifyClose` has
returned. -/
structure Running where
  threads : ClientState
  delayed : List Call := []
  requests : List (Call × Request) := []
  queue : List Nat := []
  submitting : Option (Nat × Option Event) := none
  current : Thread → Option (Nat × Bool) := fun _ => none

inductive RunningEvent where
  /-- A delivery by nghttp2 to the connection, or a statement of a thread inside it. -/
  | connection (e : ConnectionEvent)
  /-- User code on `t` calls `asyncSend`. -/
  | asyncSend (t : Thread) (call : Call) (sendDelayMs : Int)
  /-- The callback on `t` returns. -/
  | callbackReturns (t : Thread)
  /-- A delay expires, and its handler calls `async_send`. -/
  | expire (k : Nat)
  /-- A delay timer completes with an error, and its handler drops the call. -/
  | delayFails (k : Nat)
  /-- The submit handler posted first begins. -/
  | startTimer
  /-- It tries to submit. -/
  | submit (now : Int) (attempt : Attempt)
  /-- A statement of `async_send` or `reconnect`, or the end of a failed submit handler. -/
  | step (t : Thread)
  /-- The lock of `reconnect` times out. -/
  | lockTimesOut (t : Thread)
  /-- A request timer expires. -/
  | timerExpires (i : Nat)
  /-- A handler of a request runs. -/
  | handle (i : Nat) (e : Event)
  deriving DecidableEq, Repr

/-- The handlers that the io thread runs after the submit handler. -/
def Event.isHandler : Event → Bool
  | .timerHandler | .timerAborted | .onResponse .. | .onData _ | .onClose _ => true
  | _ => false

/-- The thread is in `async_send`. -/
def SendPc.sends : SendPc → Bool
  | .idle | .inCallback | .notifyingClose => false
  | _ => true

/-- The io thread runs no handler, nor the first part of a submit handler. -/
def Running.IoFree (r : Running) : Prop := r.threads.IoIdle ∧ r.submitting = none

/-- What `isConnected` answers. -/
def Running.connected (r : Running) : Bool := decide (r.threads.connection.status = .opened)

/-- What `hasSession` answers. -/
def Running.hasSession (r : Running) : Bool := r.threads.connection.session.isSome

def ConnectionEvent.isDelivery : ConnectionEvent → Bool
  | .onConnect _ | .onError _ => true
  | _ => false

def Running.Enabled (r : Running) : RunningEvent → Prop
  | .connection e => r.threads.Enabled (.connection e) ∧
      (e.isDelivery = true → r.submitting = none)
  | .asyncSend t _ _ => r.threads.InUserCode t
  | .callbackReturns t => r.threads.pcs t = .inCallback
  | .expire k | .delayFails k => r.IoFree ∧ k < r.delayed.length
  | .startTimer => r.IoFree ∧ r.queue ≠ []
  | .submit _ _ => r.threads.IoIdle ∧ r.submitting.any (·.2.isNone) = true
  | .step t => r.threads.CanStep t
  | .lockTimesOut t => r.threads.Enabled (.lockTimesOut t)
  | .timerExpires i => ∃ s, r.requests[i]? = some s ∧ s.2.Enabled .timerExpires
  | .handle i e => e.isHandler = true ∧ r.IoFree ∧
      ∃ s, r.requests[i]? = some s ∧ s.2.Enabled e

/-! ## What an event is to the threads and to the requests -/

section next

variable (client : Http2Client) (r : Running)

/-- The handler calls back. -/
def Running.callsBack (i : Nat) (e : Event) : Bool :=
  match r.requests[i]? with
  | some (call, rq) => !(newCallbacks rq (rq.next client call e)).isEmpty
  | none => false

/-- The event of the threads. -/
def Running.threadEvent : RunningEvent → Option ClientEvent
  | .connection e => some (.connection e)
  | .asyncSend t _ sendDelayMs => some (.asyncSend t (decide (0 < sendDelayMs)))
  | .callbackReturns t => some (.callbackReturns t)
  | .expire _ => some .expire
  | .delayFails _ => some .delayFails
  | .startTimer => none
  | .submit _ attempt => some (.submit (accepted r.connected r.hasSession attempt))
  | .step t => some (.step t)
  | .lockTimesOut t => some (.lockTimesOut t)
  | .timerExpires _ => none
  | .handle i e => if r.callsBack client i e then some .callback else none

/-- The event of a request. -/
def Running.requestEvent : RunningEvent → Option (PoolEvent (Call × Request) Event)
  | .asyncSend _ call sendDelayMs => if 0 < sendDelayMs then none else some (.start (call, {}))
  | .expire k => r.delayed[k]?.map fun call => .start (call, {})
  | .startTimer => r.queue.head?.map fun i => .on i .startTimer
  | .submit now attempt =>
    if accepted r.connected r.hasSession attempt then
      r.submitting.map fun (i, _) => .on i (.submit now r.connected r.hasSession attempt)
    else none
  | .step t =>
    match r.threads.pcs t, r.current t, r.submitting with
    | .post _, some (i, reconnected), _ => some (.on i (.asyncSend (!reconnected) reconnected))
    | .retest _, some (i, _), _ =>
      if r.connected then none else some (.on i (.asyncSend false false))
    | .notifyingClose, _, some (i, some e) => some (.on i e)
    | _, _, _ => none
  | .timerExpires i => some (.on i .timerExpires)
  | .handle i e => some (.on i e)
  | _ => none

/-! ## The bookkeeping -/

def Running.delayedAfter : RunningEvent → List Call
  | .asyncSend _ call sendDelayMs =>
    if 0 < sendDelayMs then r.delayed ++ [call] else r.delayed
  | .expire k | .delayFails k => r.delayed.eraseIdx k
  | _ => r.delayed

def Running.queueAfter : RunningEvent → List Nat
  | .startTimer => r.queue.tail
  | .step t =>
    match r.threads.pcs t, r.current t with
    | .post _, some (i, _) => r.queue ++ [i]
    | _, _ => r.queue
  | _ => r.queue

def Running.submittingAfter : RunningEvent → Option (Nat × Option Event)
  | .startTimer => r.queue.head?.map fun i => (i, none)
  | .submit now attempt =>
    if accepted r.connected r.hasSession attempt then none
    else r.submitting.map fun (i, _) =>
      (i, some (.submit now r.connected r.hasSession attempt))
  | .step t => if r.threads.pcs t = .notifyingClose then none else r.submitting
  | _ => r.submitting

/-- A thread begins an `async_send`. -/
def Running.begin (t : Thread) : Thread → Option (Nat × Bool) :=
  Function.update r.current t (some (r.requests.length, false))

def Running.currentAfter : RunningEvent → Thread → Option (Nat × Bool)
  | .asyncSend t _ sendDelayMs => if 0 < sendDelayMs then r.current else r.begin t
  | .expire _ => r.begin .io
  | .step t =>
    match r.threads.pcs t with
    | .test _ =>
      if r.connected then r.current
      else Function.update r.current t ((r.current t).map fun (i, _) => (i, true))
    | .post _ => Function.update r.current t none
    | .retest _ => if r.connected then r.current else Function.update r.current t none
    | _ => r.current
  | _ => r.current

def Running.next (e : RunningEvent) : Running where
  threads := ((r.threadEvent client e).map r.threads.next).getD r.threads
  delayed := r.delayedAfter e
  requests := ((r.requestEvent e).map ((Client.requests client).next r.requests)).getD r.requests
  queue := r.queueAfter e
  submitting := r.submittingAfter e
  current := r.currentAfter e

end next

instance Running.decidableEnabled (r : Running) (e : RunningEvent) : Decidable (r.Enabled e) :=
  have hfree : Decidable r.IoFree := inferInstanceAs (Decidable ((_ ∧ _ ∧ _) ∧ _))
  have hsome (i : Nat) (e : Event) : Decidable (∃ s, r.requests[i]? = some s ∧ s.2.Enabled e) :=
    match h : r.requests[i]? with
    | some s => decidable_of_iff (s.2.Enabled e) (by simp)
    | none => isFalse (by simp)
  match e with
  | .connection _ => inferInstanceAs (Decidable (_ ∧ (_ → _)))
  | .asyncSend .. => inferInstanceAs (Decidable (_ ∨ (_ ∧ _)))
  | .callbackReturns _ => inferInstanceAs (Decidable (_ = _))
  | .expire _ | .delayFails _ | .startTimer => inferInstanceAs (Decidable (_ ∧ _))
  | .submit .. => inferInstanceAs (Decidable ((_ ∧ _ ∧ _) ∧ _))
  | .step t => inferInstanceAs (Decidable (r.threads.CanStep t))
  | .lockTimesOut t => inferInstanceAs (Decidable (r.threads.Enabled (.lockTimesOut t)))
  | .timerExpires i => hsome i .timerExpires
  | .handle _ _ => inferInstanceAs (Decidable (_ ∧ _ ∧ _))

/-- A client as its constructor leaves it. -/
def Running.start (closedCallbackSet : Bool) : Running := { threads := .start closedCallbackSet }

/-- The runs of a client with its requests. -/
def running (client : Http2Client) : Machine Running RunningEvent where
  Enabled r e := r.Enabled e
  next r e := r.next client e

instance decidableRunning (client : Http2Client) (r : Running) (e : RunningEvent) :
    Decidable ((running client).Enabled r e) := inferInstanceAs (Decidable (r.Enabled e))

/-! ## What an event leaves -/

section next

variable {client : Http2Client} {r : Running} {e : RunningEvent}

theorem threads_next_some {e' : ClientEvent} (h : r.threadEvent client e = some e') :
    (r.next client e).threads = r.threads.next e' := by
  rw [Running.next, h]
  rfl

theorem threads_next_none (h : r.threadEvent client e = none) :
    (r.next client e).threads = r.threads := by
  rw [Running.next, h]
  rfl

theorem requests_next_some {e' : PoolEvent (Call × Request) Event}
    (h : r.requestEvent e = some e') :
    (r.next client e).requests = (requests client).next r.requests e' := by
  rw [Running.next, h]
  rfl

theorem requests_next_none (h : r.requestEvent e = none) :
    (r.next client e).requests = r.requests := by
  rw [Running.next, h]
  rfl

/-- An `asyncSend` without a delay makes its call a request. -/
theorem requests_asyncSend {t : Thread} {call : Call} {sendDelayMs : Int}
    (h : ¬0 < sendDelayMs) : (r.next client (.asyncSend t call sendDelayMs)).requests =
      r.requests ++ [(call, ({} : Request))] := by
  have hevent : r.requestEvent (.asyncSend t call sendDelayMs) = some (.start (call, {})) := by
    simp [Running.requestEvent, h]
  exact requests_next_some hevent

/-- So does the end of a delay. -/
theorem requests_expire {k : Nat} (hk : k < r.delayed.length) :
    (r.next client (.expire k)).requests = r.requests ++ [(r.delayed[k], ({} : Request))] := by
  have hevent : r.requestEvent (.expire k) = some (.start (r.delayed[k], {})) := by
    simp [Running.requestEvent, List.getElem?_eq_getElem hk]
  exact requests_next_some hevent

end next

/-! ## The calls that are dropped -/

/-- The call that the event drops. -/
def Running.drops (r : Running) : RunningEvent → Option Call
  | .delayFails k => r.delayed[k]?
  | _ => none

/-- The calls that the handlers of failed delay timers have dropped, in order. -/
def droppedCalls (client : Http2Client) (closedCallbackSet : Bool) (es : List RunningEvent) :
    List Call :=
  (running client).seen Running.drops (.start closedCallbackSet) es

def RunningEvent.isDelayFailure : RunningEvent → Bool
  | .delayFails _ => true
  | _ => false

/-- One call is dropped for each delay timer that fails. -/
theorem length_droppedCalls {client : Http2Client} {closedCallbackSet : Bool}
    {es : List RunningEvent} (hrun : (running client).Run (.start closedCallbackSet) es) :
    (droppedCalls client closedCallbackSet es).length =
      es.countP RunningEvent.isDelayFailure := by
  refine history (H := fun es _ => (droppedCalls client closedCallbackSet es).length =
    es.countP RunningEvent.isDelayFailure) rfl ?_ hrun
  intro es e _ h hen
  rw [droppedCalls, seen_snoc, List.length_append, List.countP_append]
  refine congrArg₂ (· + ·) h ?_
  cases e with
  | delayFails k =>
    obtain ⟨-, hk⟩ := hen
    simp [Running.drops, RunningEvent.isDelayFailure, List.getElem?_eq_getElem hk]
  | _ => simp [Running.drops, RunningEvent.isDelayFailure]

end Http2Comm.Client
