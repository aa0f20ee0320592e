import Http2Comm.Lib.Machine
import Mathlib.Logic.Function.Basic

/-!
# `Http2Connection` — the status and the threads that share it

A connection is shared by its one `io_context` thread, which runs the session callbacks and
whatever else is posted there, and by any number of application threads, which call its public
functions. Nothing orders them: `status_` is an atomic, `session_` is a plain pointer, and
`mutex_` guards only the condition variable. The model is therefore a machine in which every
thread has a program counter and every **statement** on shared state is one step, the statements
of `reconnect`, `close`, `closeImpl`, `notifyClose` and the two waits in the order of the source.

```
reconnect  storeClosed → notifyOne → closedCallback → reset → createSession → assign
           → configureSession → storeNotOpen → waitToBeConnected
close      storeClosed → notifyOne → closedCallback → shutdown
closeImpl  storeClosed → notifyOne → closedCallback → stop → join → shutdown
wait       lock → test → (block → blocked → relock → test | lateTest)* → read → unlock
```

`on_connect` and `on_error` are handlers of the `io_context` thread; their first statement, the
store to `status_`, is the event that delivers them. `wait_for` is the loop the standard defines
it to be, and a blocked thread may wake by `notify_one`, by its timeout or spuriously.

A session that is reset is not gone: its callbacks stay registered and its pending operations
keep it alive, so they may still be delivered. The user's closed callback is counted and does
nothing else to the connection. Dereferencing a null `session_` is undefined and not modelled.
-/

set_option autoImplicit false

namespace Http2Comm.Client

open Lib

/-! ## State -/

inductive Status where
  | notOpen
  | opened
  | closed
  deriving DecidableEq, Repr

inductive Thread where
  | io
  | app (n : Nat)
  deriving DecidableEq, Repr

/-- An nghttp2 session: whether its callbacks are registered, which of them have run, and whether
it has been shut down. -/
structure Session where
  configured : Bool := false
  connected : Bool := false
  failed : Bool := false
  closed : Bool := false
  deriving DecidableEq, Repr

/-- The public functions with an effect, and `notifyClose`, which the client calls on a failed
submit. -/
inductive Op where
  | reconnect
  | close
  | closeImpl
  | notifyClose
  | waitToBeConnected
  | waitToBeDisconnected
  deriving DecidableEq, Repr

/-- What follows a `notifyClose`. -/
inductive After where
  | reconnect
  | close
  | closeImpl
  | return
  deriving DecidableEq, Repr

/-- Which wait a thread is in: `waitToBeConnected` within `reconnect` or by itself, or
`waitToBeDisconnected`. -/
inductive Wait where
  | reconnect
  | connected
  | disconnected
  deriving DecidableEq, Repr

/-- The next statement of a thread. -/
inductive Pc where
  | idle
  | returned (result : Bool)
  | storeClosed (after : After)
  | notifyOne (after : After)
  | closedCallback (after : After)
  | connectNotifyOne
  | reset
  | createSession
  | assign (newSession : Nat)
  | configureSession
  | storeNotOpen
  | shutdown
  | stop
  | join
  | lock (w : Wait)
  | test (w : Wait)
  | block (w : Wait)
  | blocked (w : Wait)
  | relock (w : Wait) (timedOut : Bool)
  | lateTest (w : Wait)
  | read (w : Wait)
  | unlock (w : Wait) (result : Bool)
  deriving DecidableEq, Repr

/-- The members of `Http2Connection`, the sessions created so far, and the threads. -/
structure Connection where
  status : Status := .notOpen
  session : Option Nat := some 0
  sessions : Nat → Session := Function.update (fun _ => {}) 0 { configured := true }
  nextSession : Nat := 1
  mutex : Option Thread := none
  waiters : List Thread := []
  stopped : Bool := false
  closedCallbackSet : Bool := false
  closedCallbacks : Nat := 0
  pcs : Thread → Pc := fun _ => .idle

/-! ## Statements -/

/-- The thread is not inside a function of the connection. -/
def Pc.ready : Pc → Bool
  | .idle | .returned _ => true
  | _ => false

/-- The next statement is a `notify_one`. -/
def Pc.notifies : Pc → Bool
  | .notifyOne _ | .connectNotifyOne => true
  | _ => false

def Pc.isBlocked : Pc → Bool
  | .blocked _ => true
  | _ => false

def Op.entry : Op → Pc
  | .reconnect => .storeClosed .reconnect
  | .close => .storeClosed .close
  | .closeImpl => .storeClosed .closeImpl
  | .notifyClose => .storeClosed .return
  | .waitToBeConnected => .lock .connected
  | .waitToBeDisconnected => .lock .disconnected

def After.entry : After → Pc
  | .reconnect => .reset
  | .close => .shutdown
  | .closeImpl => .stop
  | .return => .idle

/-- The predicate of the wait. -/
def Wait.predicate (w : Wait) (status : Status) : Bool :=
  match w with
  | .reconnect | .connected => decide (status ≠ .notOpen)
  | .disconnected => decide (status ≠ .opened)

/-- What follows `wait_for` when it returns `result`: `waitToBeConnected` ignores it and reads
the status once more. -/
def Wait.leave (w : Wait) (result : Bool) : Pc :=
  match w with
  | .reconnect | .connected => .read w
  | .disconnected => .unlock w result

def Connection.goto (c : Connection) (t : Thread) (pc : Pc) : Connection :=
  { c with pcs := Function.update c.pcs t pc }

def Connection.setSession (c : Connection) (sid : Nat) (session : Session) : Connection :=
  { c with sessions := Function.update c.sessions sid session }

/-- One statement of a thread that is neither blocked nor at a choice of its surroundings. -/
def Connection.step (c : Connection) (t : Thread) : Connection :=
  match c.pcs t with
  | .storeClosed after => { c with status := .closed }.goto t (.notifyOne after)
  | .closedCallback after =>
    let invoked := if c.closedCallbackSet then 1 else 0
    { c with closedCallbacks := c.closedCallbacks + invoked }.goto t after.entry
  | .reset => { c with session := none }.goto t .createSession
  | .assign newSession => { c with session := some newSession }.goto t .configureSession
  | .configureSession =>
    match c.session with
    | some sid =>
      (c.setSession sid { c.sessions sid with configured := true }).goto t .storeNotOpen
    | none => c
  | .storeNotOpen => { c with status := .notOpen }.goto t (.lock .reconnect)
  | .shutdown =>
    match c.session with
    | some sid => (c.setSession sid { c.sessions sid with closed := true }).goto t .idle
    | none => c.goto t .idle
  | .stop => { c with stopped := true }.goto t .join
  | .join => c.goto t .shutdown
  | .lock w => { c with mutex := some t }.goto t (.test w)
  | .test w => c.goto t (if w.predicate c.status then w.leave true else .block w)
  | .block w => { c with mutex := none, waiters := c.waiters ++ [t] }.goto t (.blocked w)
  | .relock w timedOut =>
    { c with mutex := some t }.goto t (if timedOut then .lateTest w else .test w)
  | .lateTest w => c.goto t (w.leave (w.predicate c.status))
  | .read w => c.goto t (.unlock w (decide (c.status = .opened)))
  | .unlock _ result => { c with mutex := none }.goto t (.returned result)
  | _ => c

/-- Whether that statement can run now. -/
def Connection.CanStep (c : Connection) (t : Thread) : Prop :=
  match c.pcs t with
  | .idle | .returned _ | .notifyOne _ | .connectNotifyOne | .createSession | .blocked _ => False
  | .configureSession => c.session.isSome
  | .join => c.stopped = true ∧ (c.pcs .io).ready = true
  | .lock _ | .relock .. => c.mutex = none
  | _ => True

/-- `notify_one`: one waiter goes on to take the mutex again, if there is any. -/
def Connection.notifyOne (c : Connection) (woken : Option Thread) : Connection :=
  match woken with
  | none => c
  | some t =>
    match c.pcs t with
    | .blocked w => { c with waiters := c.waiters.erase t }.goto t (.relock w false)
    | _ => c

/-! ## Events -/

/-- What can happen to a connection. Besides the statements of the threads: calls, deliveries by
nghttp2, and the answers of `createSession`, `notify_one` and of the clock of `wait_for`. -/
inductive ConnectionEvent where
  | call (t : Thread) (op : Op)
  | onConnect (sid : Nat)
  | onError (sid : Nat)
  | step (t : Thread)
  | create (t : Thread) (created : Bool)
  | notify (t : Thread) (woken : Option Thread)
  | wake (t : Thread) (timedOut : Bool)
  deriving DecidableEq, Repr

def Connection.Enabled (c : Connection) : ConnectionEvent → Prop
  | .call t _ => (c.pcs t).ready = true ∧ (t = .io → c.stopped = false)
  | .onConnect sid =>
    (c.pcs .io).ready = true ∧ c.stopped = false ∧ (c.sessions sid).configured = true ∧
      (c.sessions sid).connected = false ∧ (c.sessions sid).failed = false
  | .onError sid =>
    (c.pcs .io).ready = true ∧ c.stopped = false ∧ (c.sessions sid).configured = true
  | .step t => c.CanStep t
  | .create t _ => c.pcs t = .createSession
  | .notify t woken =>
    (c.pcs t).notifies = true ∧
      match woken with
      | none => c.waiters = []
      | some t' => t' ∈ c.waiters
  | .wake t _ => (c.pcs t).isBlocked = true

def Connection.next (c : Connection) : ConnectionEvent → Connection
  | .call t op => c.goto t op.entry
  | .onConnect sid =>
    { c.setSession sid { c.sessions sid with connected := true } with
      status := .opened }.goto .io .connectNotifyOne
  | .onError sid =>
    { c.setSession sid { c.sessions sid with failed := true } with
      status := .closed }.goto .io (.notifyOne .return)
  | .step t => c.step t
  | .create t created =>
    if created then
      { c.setSession c.nextSession {} with nextSession := c.nextSession + 1 }.goto t
        (.assign c.nextSession)
    else c.goto t (.returned false)
  | .notify t woken =>
    match c.pcs t with
    | .notifyOne after => (c.notifyOne woken).goto t (.closedCallback after)
    | _ => (c.notifyOne woken).goto t .idle
  | .wake t timedOut =>
    match c.pcs t with
    | .blocked w => { c with waiters := c.waiters.erase t }.goto t (.relock w timedOut)
    | _ => c

instance Connection.decidableCanStep (c : Connection) (t : Thread) : Decidable (c.CanStep t) := by
  unfold Connection.CanStep
  split <;> infer_instance

instance Connection.decidableEnabled (c : Connection) (e : ConnectionEvent) :
    Decidable (c.Enabled e) :=
  match e with
  | .call .. => inferInstanceAs (Decidable (_ ∧ _))
  | .onConnect _ => inferInstanceAs (Decidable (_ ∧ _ ∧ _ ∧ _ ∧ _))
  | .onError _ => inferInstanceAs (Decidable (_ ∧ _ ∧ _))
  | .step t => inferInstanceAs (Decidable (c.CanStep t))
  | .create .. => inferInstanceAs (Decidable (_ = _))
  | .notify _ none => inferInstanceAs (Decidable (_ ∧ c.waiters = []))
  | .notify _ (some t') => inferInstanceAs (Decidable (_ ∧ t' ∈ c.waiters))
  | .wake .. => inferInstanceAs (Decidable (_ = _))

/-- The connection as the constructor leaves it: a configured session, and the `io_context`
thread running. -/
def Connection.start (closedCallbackSet : Bool) : Connection := { closedCallbackSet }

/-- The runs of a connection. -/
def connection : Machine Connection ConnectionEvent where
  Enabled c e := c.Enabled e
  next c e := c.next e

instance decidableConnection (c : Connection) (e : ConnectionEvent) :
    Decidable (connection.Enabled c e) :=
  inferInstanceAs (Decidable (c.Enabled e))

/-! ## What one event does -/

section goto

variable (c : Connection) (t : Thread) (pc : Pc) (sid : Nat) (session : Session)

@[simp] theorem goto_status : (c.goto t pc).status = c.status := rfl
@[simp] theorem goto_session : (c.goto t pc).session = c.session := rfl
@[simp] theorem goto_sessions : (c.goto t pc).sessions = c.sessions := rfl
@[simp] theorem goto_nextSession : (c.goto t pc).nextSession = c.nextSession := rfl
@[simp] theorem goto_pcs : (c.goto t pc).pcs = Function.update c.pcs t pc := rfl
@[simp] theorem setSession_status : (c.setSession sid session).status = c.status := rfl
@[simp] theorem setSession_session : (c.setSession sid session).session = c.session := rfl
@[simp] theorem setSession_sessions :
    (c.setSession sid session).sessions = Function.update c.sessions sid session := rfl
@[simp] theorem setSession_nextSession :
    (c.setSession sid session).nextSession = c.nextSession := rfl
@[simp] theorem setSession_pcs : (c.setSession sid session).pcs = c.pcs := rfl

end goto

section next

variable (c : Connection) (t : Thread)

theorem status_step : (c.step t).status =
    match c.pcs t with
    | .storeClosed _ => .closed
    | .storeNotOpen => .notOpen
    | _ => c.status := by
  unfold Connection.step
  cases c.pcs t
  all_goals simp only [goto_status]
  all_goals repeat' split
  all_goals rfl

theorem session_step : (c.step t).session =
    match c.pcs t with
    | .reset => none
    | .assign newSession => some newSession
    | _ => c.session := by
  unfold Connection.step
  cases c.pcs t
  all_goals simp only [goto_session]
  all_goals repeat' split
  all_goals simp_all

theorem nextSession_step : (c.step t).nextSession = c.nextSession := by
  unfold Connection.step
  cases c.pcs t
  all_goals simp only [goto_nextSession]
  all_goals repeat' split
  all_goals rfl

theorem sessions_step : (c.step t).sessions =
    match c.pcs t, c.session with
    | .configureSession, some sid =>
      Function.update c.sessions sid { c.sessions sid with configured := true }
    | .shutdown, some sid =>
      Function.update c.sessions sid { c.sessions sid with closed := true }
    | _, _ => c.sessions := by
  unfold Connection.step
  cases c.pcs t
  all_goals simp only [goto_sessions]
  all_goals repeat' split
  all_goals simp_all

/-- Where a statement leaves its thread. -/
theorem pcs_step : (c.step t).pcs t =
    match c.pcs t with
    | .storeClosed after => .notifyOne after
    | .closedCallback after => after.entry
    | .reset => .createSession
    | .assign _ => .configureSession
    | .configureSession => if c.session.isSome then .storeNotOpen else .configureSession
    | .storeNotOpen => .lock .reconnect
    | .shutdown => .idle
    | .stop => .join
    | .join => .shutdown
    | .lock w => .test w
    | .test w => if w.predicate c.status then w.leave true else .block w
    | .block w => .blocked w
    | .relock w timedOut => if timedOut then .lateTest w else .test w
    | .lateTest w => w.leave (w.predicate c.status)
    | .read w => .unlock w (decide (c.status = .opened))
    | .unlock _ result => .returned result
    | pc => pc := by
  unfold Connection.step
  cases hp : c.pcs t with
  | configureSession => cases c.session <;> simp [hp]
  | shutdown => cases c.session <;> simp
  | _ => simp [hp]

/-- A step moves only its own thread. -/
theorem pcs_step_ne {t' : Thread} (h : t' ≠ t) : (c.step t).pcs t' = c.pcs t' := by
  unfold Connection.step
  cases c.pcs t
  all_goals simp only [goto_pcs]
  all_goals repeat' split
  all_goals simp [h]

/-- `notify_one` moves at most one blocked thread, to the taking of the mutex. -/
theorem pcs_notifyOne (woken : Option Thread) (t' : Thread) :
    (c.notifyOne woken).pcs t' = c.pcs t' ∨
      ∃ w, c.pcs t' = .blocked w ∧ (c.notifyOne woken).pcs t' = .relock w false := by
  unfold Connection.notifyOne
  cases woken with
  | none => exact Or.inl rfl
  | some t =>
    simp only
    split
    · next w hw =>
      by_cases ht : t' = t
      · exact Or.inr ⟨w, ht ▸ hw, by simp [ht]⟩
      · exact Or.inl (by simp [ht])
    · exact Or.inl rfl

/-- `notify_one` touches nothing but the waiting. -/
theorem notifyOne_members (woken : Option Thread) :
    (c.notifyOne woken).status = c.status ∧ (c.notifyOne woken).session = c.session ∧
      (c.notifyOne woken).sessions = c.sessions ∧
      (c.notifyOne woken).nextSession = c.nextSession := by
  unfold Connection.notifyOne
  repeat' split
  all_goals exact ⟨rfl, rfl, rfl, rfl⟩

/-- The events that only move program counters. -/
def ConnectionEvent.isQuiet : ConnectionEvent → Bool
  | .call .. | .notify .. | .wake .. => true
  | _ => false

theorem members_next_of_quiet {e : ConnectionEvent} (h : e.isQuiet = true) :
    (c.next e).status = c.status ∧ (c.next e).session = c.session ∧
      (c.next e).sessions = c.sessions ∧ (c.next e).nextSession = c.nextSession := by
  cases e with
  | call t op => exact ⟨rfl, rfl, rfl, rfl⟩
  | notify t woken =>
    simp only [Connection.next]
    split <;> exact notifyOne_members c woken
  | wake t timedOut =>
    simp only [Connection.next]
    split <;> exact ⟨rfl, rfl, rfl, rfl⟩
  | _ => simp [ConnectionEvent.isQuiet] at h

end next

end Http2Comm.Client
