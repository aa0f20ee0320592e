import Http2Comm.Client.Reconnect

/-!
# Which thread reconnects

`Http2Client` does not own a thread. `async_send` runs on whichever thread calls it: an
application thread, or the connection's `io_context` thread, when the delay of an `asyncSend`
expires or a response callback sends again. And `async_send` reconnects when it finds the
connection not open, which ends in `waitToBeConnected`: a wait for an `on_connect` that only the
`io_context` thread can run.

The model puts the client's functions on top of `Connection`: each thread has a second program
counter for `async_send` and `Http2Client::reconnect`, and their statements drive the
connection's. What the io thread is given to do is counted and not described: delay timers,
posted submit handlers, and submitted requests that can still call back.

The io thread waits for itself as soon as a send on it finds the connection lost
(`io_thread_waits`). `FindsOpen` excludes that one test, and under it the io thread neither waits
for a connect event nor for the client's mutex, which a reconnecting thread holds.
-/

set_option autoImplicit false

namespace Http2Comm.Client

open Lib Lib.Machine

/-! ## State -/

/-- The next statement of a thread in the client. `nested` says that `async_send` was called from
a response callback, to which it returns. -/
inductive SendPc where
  | idle
  | inCallback
  | test (nested : Bool)
  | lock (nested : Bool)
  | lockedTest (nested : Bool)
  | reconnecting (nested : Bool)
  | unlock (nested : Bool)
  | retest (nested : Bool)
  | post (nested : Bool)
  | notifyingClose
  deriving DecidableEq, Repr

/-- The members of `Http2Client` that `async_send` uses, the threads, and the work that is left
for the io thread. -/
structure ClientState where
  connection : Connection
  mutex : Option Thread := none
  pcs : Thread → SendPc := fun _ => .idle
  delays : Nat := 0
  posted : Nat := 0
  outstanding : Nat := 0

def ClientState.goto (s : ClientState) (t : Thread) (pc : SendPc) : ClientState :=
  { s with pcs := Function.update s.pcs t pc }

/-- The io thread runs no handler. -/
def ClientState.IoIdle (s : ClientState) : Prop :=
  s.pcs .io = .idle ∧ (s.connection.pcs .io).ready = true ∧ s.connection.stopped = false

/-- User code runs on the thread: an application thread outside the client, or a response
callback. -/
def ClientState.InUserCode (s : ClientState) (t : Thread) : Prop :=
  s.pcs t = .inCallback ∨ (t ≠ .io ∧ s.pcs t = .idle)

/-! ## Events -/

inductive ClientEvent where
  /-- A delivery by nghttp2, or a statement of a thread inside the connection. -/
  | connection (e : ConnectionEvent)
  /-- User code on `t` calls `asyncSend`. -/
  | asyncSend (t : Thread) (delayed : Bool)
  /-- The callback on `t` returns. -/
  | callbackReturns (t : Thread)
  /-- A delay expires, and its handler calls `async_send`. -/
  | expire
  /-- A delay timer completes with an error, and its handler drops the call. -/
  | delayFails
  /-- A posted submit handler runs, and gets a request or does not. -/
  | submit (accepted : Bool)
  /-- A handler of a submitted request calls back. -/
  | callback
  /-- A statement of `async_send` or `reconnect`. -/
  | step (t : Thread)
  /-- The lock of `reconnect` times out. -/
  | lockTimesOut (t : Thread)
  deriving DecidableEq, Repr

/-- One statement of `async_send` or `reconnect`, or the end of a call into the connection. -/
def ClientState.step (s : ClientState) (t : Thread) : ClientState :=
  match s.pcs t with
  | .test nested =>
    s.goto t (if s.connection.status = .opened then .post nested else .lock nested)
  | .lock nested => { s with mutex := some t }.goto t (.lockedTest nested)
  | .lockedTest nested =>
    if s.connection.status = .opened then s.goto t (.unlock nested)
    else
      { s with connection := s.connection.next (.call t .reconnect) }.goto t
        (.reconnecting nested)
  | .reconnecting nested => s.goto t (.unlock nested)
  | .unlock nested => { s with mutex := none }.goto t (.retest nested)
  | .retest nested =>
    -- the callback gets -1
    s.goto t (if s.connection.status = .opened then .post nested else .inCallback)
  | .post nested =>
    { s with posted := s.posted + 1 }.goto t (if nested then .inCallback else .idle)
  | .notifyingClose => s.goto t .inCallback  -- the callback gets -3
  | .idle | .inCallback => s

def ClientState.CanStep (s : ClientState) (t : Thread) : Prop :=
  match s.pcs t with
  | .idle | .inCallback => False
  | .lock _ => s.mutex = none
  | .reconnecting _ | .notifyingClose => (s.connection.pcs t).ready = true
  | _ => True

def ClientState.Enabled (s : ClientState) : ClientEvent → Prop
  | .connection (.call ..) => False
  | .connection (.onConnect sid) => s.IoIdle ∧ s.connection.Enabled (.onConnect sid)
  | .connection (.onError sid) => s.IoIdle ∧ s.connection.Enabled (.onError sid)
  | .connection e => s.connection.Enabled e
  | .asyncSend t _ => s.InUserCode t
  | .callbackReturns t => s.pcs t = .inCallback
  | .expire | .delayFails => s.IoIdle ∧ 0 < s.delays
  | .submit accepted => s.IoIdle ∧ 0 < s.posted ∧
      (accepted = true → s.connection.status = .opened ∧ s.connection.session.isSome)
  | .callback => s.IoIdle ∧ 0 < s.outstanding
  | .step t => s.CanStep t
  | .lockTimesOut t => s.pcs t = .lock true ∨ s.pcs t = .lock false

def ClientState.next (s : ClientState) : ClientEvent → ClientState
  | .connection e => { s with connection := s.connection.next e }
  | .asyncSend t delayed =>
    if delayed then { s with delays := s.delays + 1 }
    else s.goto t (.test (decide (s.pcs t = .inCallback)))
  | .callbackReturns t => s.goto t .idle
  | .expire => { s with delays := s.delays - 1 }.goto .io (.test false)
  | .delayFails => { s with delays := s.delays - 1 }
  | .submit accepted =>
    if accepted then { s with posted := s.posted - 1, outstanding := s.outstanding + 1 }
    else
      { s with
        posted := s.posted - 1
        connection := s.connection.next (.call .io .notifyClose) }.goto .io .notifyingClose
  | .callback => { s with outstanding := s.outstanding - 1 }.goto .io .inCallback
  | .step t => s.step t
  | .lockTimesOut t =>
    match s.pcs t with
    | .lock nested => s.goto t (.retest nested)
    | _ => s

instance ClientState.decidableCanStep (s : ClientState) (t : Thread) : Decidable (s.CanStep t) := by
  unfold ClientState.CanStep
  split <;> infer_instance

instance ClientState.decidableEnabled (s : ClientState) (e : ClientEvent) :
    Decidable (s.Enabled e) :=
  match e with
  | .connection (.call ..) => isFalse id
  | .connection (.onConnect _) | .connection (.onError _) =>
    inferInstanceAs (Decidable ((_ ∧ _ ∧ _) ∧ _))
  | .connection (.step t) => inferInstanceAs (Decidable (s.connection.Enabled (.step t)))
  | .connection (.create t created) =>
    inferInstanceAs (Decidable (s.connection.Enabled (.create t created)))
  | .connection (.notify t woken) =>
    inferInstanceAs (Decidable (s.connection.Enabled (.notify t woken)))
  | .connection (.wake t timedOut) =>
    inferInstanceAs (Decidable (s.connection.Enabled (.wake t timedOut)))
  | .asyncSend .. => inferInstanceAs (Decidable (_ ∨ (_ ∧ _)))
  | .callbackReturns _ => inferInstanceAs (Decidable (_ = _))
  | .expire | .delayFails | .callback => inferInstanceAs (Decidable ((_ ∧ _ ∧ _) ∧ _))
  | .submit _ => inferInstanceAs (Decidable ((_ ∧ _ ∧ _) ∧ _ ∧ (_ → _)))
  | .step t => inferInstanceAs (Decidable (s.CanStep t))
  | .lockTimesOut _ => inferInstanceAs (Decidable (_ ∨ _))

/-- A client as its constructor leaves it, whatever the wait for the first session found. -/
def ClientState.start (closedCallbackSet : Bool) : ClientState :=
  { connection := .start closedCallbackSet }

/-- The runs of a client. -/
def sending : Machine ClientState ClientEvent where
  Enabled s e := s.Enabled e
  next s e := s.next e

instance decidableSending (s : ClientState) (e : ClientEvent) : Decidable (sending.Enabled s e) :=
  inferInstanceAs (Decidable (s.Enabled e))

/-! ## The io thread -/

/-- The thread cannot run its next statement before another thread, or a timeout, lets it. -/
def ClientState.Blocked (s : ClientState) (t : Thread) : Prop :=
  match s.pcs t, s.connection.pcs t with
  | .lock _, _ => s.mutex ≠ none
  | _, .blocked _ => True
  | _, .lock _ | _, .relock .. => s.connection.mutex ≠ none
  | _, _ => False

/-- An `async_send` on the io thread finds the connection open at its first test. -/
def FindsOpen (s : ClientState) : ClientEvent → Prop
  | .step t => t = .io → ∀ nested, s.pcs .io = .test nested → s.connection.status = .opened
  | _ => True

instance decidableFindsOpen (s : ClientState) (e : ClientEvent) : Decidable (FindsOpen s e) :=
  match e with
  | .step _ => inferInstanceAs (Decidable (_ → ∀ _ : Bool, _ → _))
  | .connection _ | .asyncSend .. | .callbackReturns _ | .expire | .delayFails | .submit _
  | .callback | .lockTimesOut _ => isTrue trivial

/-- The thread is in a handler that neither reconnects nor waits. -/
def Pc.inHandler : Pc → Bool
  | .idle | .returned _ | .connectNotifyOne | .storeClosed .return | .notifyOne .return
  | .closedCallback .return => true
  | _ => false

/-- The thread is in an `async_send` that does not reconnect. -/
def SendPc.straight : SendPc → Bool
  | .idle | .inCallback | .test _ | .post _ | .notifyingClose => true
  | _ => false

section step

variable {c : Connection} {s : ClientState} {t : Thread}

/-- A handler stays in its own statements, whatever the other threads do. -/
theorem inHandler_next (e : ConnectionEvent) (hcall : ∀ op, e = .call t op → op = .notifyClose)
    (h : (c.pcs t).inHandler = true) (hen : c.Enabled e) :
    ((c.next e).pcs t).inHandler = true := by
  cases e with
  | call t' op =>
    by_cases ht : t = t'
    · subst ht
      obtain rfl := hcall op rfl
      simp [Connection.next, Op.entry, Pc.inHandler]
    · simpa [Connection.next, ht] using h
  | onConnect sid =>
    by_cases ht : t = .io
    · simp [Connection.next, ht, Pc.inHandler]
    · simpa [Connection.next, ht] using h
  | onError sid =>
    by_cases ht : t = .io
    · simp [Connection.next, ht, Pc.inHandler]
    · simpa [Connection.next, ht] using h
  | step t' =>
    by_cases ht : t = t'
    · subst ht
      have hcan : c.CanStep t := hen
      unfold Connection.CanStep at hcan
      simp only [Connection.next, Connection.step]
      cases hp : c.pcs t with
      | storeClosed after => cases after <;> simp_all [Pc.inHandler]
      | closedCallback after => cases after <;> simp_all [Pc.inHandler, After.entry]
      | _ => simp_all [Pc.inHandler]
    · rw [show (c.next (.step t')).pcs t = c.pcs t from pcs_step_ne c t' ht]
      exact h
  | create t' created =>
    have hpc : c.pcs t' = .createSession := hen
    by_cases ht : t = t'
    · subst ht
      simp [hpc, Pc.inHandler] at h
    · cases created <;> simpa [Connection.next, ht] using h
  | notify t' woken =>
    -- only a blocked thread is woken, and a handler is not blocked
    have hsame : (c.notifyOne woken).pcs t = c.pcs t := by
      refine (pcs_notifyOne c woken t).resolve_right ?_
      rintro ⟨w, hw, -⟩
      simp [hw, Pc.inHandler] at h
    by_cases ht : t = t'
    · subst ht
      have hnotifies := hen.1
      simp only [Connection.next]
      cases hp : c.pcs t with
      | notifyOne after => cases after <;> simp_all [Pc.inHandler]
      | connectNotifyOne => simp [Pc.inHandler]
      | _ => simp [hp, Pc.notifies] at hnotifies
    · simp only [Connection.next]
      split <;> simpa [ht, hsame] using h
  | wake t' timedOut =>
    have hblocked : (c.pcs t').isBlocked = true := hen
    by_cases ht : t = t'
    · subst ht
      cases hp : c.pcs t <;> simp_all [Pc.inHandler, Pc.isBlocked]
    · simp only [Connection.next]
      split <;> simpa [ht] using h

/-- A statement of the client moves only its own thread. -/
theorem pcs_clientStep_ne {t' : Thread} (h : t' ≠ t) : (s.step t).pcs t' = s.pcs t' := by
  unfold ClientState.step
  cases s.pcs t
  all_goals simp only
  all_goals repeat' split
  all_goals simp [ClientState.goto, h]

/-- What an event does to a thread of the client: nothing, a statement, the beginning or the end
of a call or a handler, or the timeout of its lock. -/
inductive ClientMoves (t : Thread) (s : ClientState) (e : ClientEvent) : Prop where
  | stays (hpc : (s.next e).pcs t = s.pcs t)
  | steps (he : e = .step t)
  | enters (hbefore : s.pcs t = .idle ∨ s.pcs t = .inCallback)
    (hafter : ((s.next e).pcs t).straight = true)
  | givesUp (nested : Bool) (hbefore : s.pcs t = .lock nested)
    (hafter : (s.next e).pcs t = .retest nested)

theorem clientMoves_next {e : ClientEvent} (t : Thread) (hen : s.Enabled e) :
    ClientMoves t s e := by
  -- an event that takes `t'` to `pc`
  have hgoto {t' : Thread} {pc : SendPc} (hnext : (s.next e).pcs = Function.update s.pcs t' pc)
      (hbefore : s.pcs t' = .idle ∨ s.pcs t' = .inCallback) (hpc : pc.straight = true) :
      ClientMoves t s e := by
    by_cases ht : t = t'
    · subst ht
      exact .enters hbefore (by simpa [hnext] using hpc)
    · exact .stays (by simp [hnext, ht])
  cases e with
  | connection e => exact .stays rfl
  | asyncSend t' delayed =>
    cases delayed with
    | true => exact .stays rfl
    | false =>
      refine hgoto rfl ?_ rfl
      rcases hen with hcallback | ⟨-, hidle⟩
      · exact Or.inr hcallback
      · exact Or.inl hidle
  | callbackReturns t' => exact hgoto rfl (Or.inr hen) rfl
  | expire => exact hgoto rfl (Or.inl hen.1.1) rfl
  | delayFails => exact .stays rfl
  | submit accepted =>
    cases accepted with
    | true => exact .stays rfl
    | false => exact hgoto rfl (Or.inl hen.1.1) rfl
  | callback => exact hgoto rfl (Or.inl hen.1.1) rfl
  | step t' =>
    by_cases ht : t = t'
    · exact .steps (by rw [ht])
    · exact .stays (pcs_clientStep_ne ht)
  | lockTimesOut t' =>
    obtain ⟨nested, hlock⟩ : ∃ nested, s.pcs t' = .lock nested := by
      rcases hen with hlock | hlock
      · exact ⟨_, hlock⟩
      · exact ⟨_, hlock⟩
    have hnext : (s.next (.lockTimesOut t')).pcs = Function.update s.pcs t' (.retest nested) := by
      simp [ClientState.next, hlock, ClientState.goto]
    by_cases ht : t = t'
    · subst ht
      exact .givesUp nested hlock (by simp [hnext])
    · exact .stays (by simp [hnext, ht])

/-- What an event does to the connection: nothing, an event of the connection, the beginning of
the `notifyClose` of a failed submit, or the call of `reconnect`. -/
inductive ConnectionMoves (s : ClientState) (e : ClientEvent) : Prop where
  | stays (he : ∀ e', e ≠ .connection e') (hconn : (s.next e).connection = s.connection)
  | moves (e' : ConnectionEvent) (he : e = .connection e') (hen : s.connection.Enabled e')
    (hcall : ∀ t op, e' ≠ .call t op)
  | fails (he : e = .submit false) (hidle : s.IoIdle)
  | reconnects (t : Thread) (nested : Bool) (he : e = .step t) (hpc : s.pcs t = .lockedTest nested)
    (hconn : (s.next e).connection = s.connection.next (.call t .reconnect))

theorem connectionMoves_next {e : ClientEvent} (hen : s.Enabled e) : ConnectionMoves s e := by
  cases e with
  | connection e =>
    refine .moves e rfl ?_ ?_
    · cases e with
      | call t op => exact hen.elim
      | onConnect sid => exact hen.2
      | onError sid => exact hen.2
      | _ => exact hen
    · rintro t op rfl
      exact hen
  | asyncSend t delayed => exact .stays (by simp) (by cases delayed <;> rfl)
  | submit accepted =>
    cases accepted with
    | true => exact .stays (by simp) rfl
    | false => exact .fails rfl hen.1
  | step t =>
    cases hp : s.pcs t with
    | lockedTest nested =>
      by_cases hopened : s.connection.status = .opened
      · exact .stays (by simp)
          (by simp [ClientState.next, ClientState.step, ClientState.goto, hp, hopened])
      · exact .reconnects t nested rfl hp
          (by simp [ClientState.next, ClientState.step, ClientState.goto, hp, hopened])
    | _ =>
      exact .stays (by simp)
        (by simp [ClientState.next, ClientState.step, ClientState.goto, hp])
  | lockTimesOut t =>
    refine .stays (by simp) ?_
    simp only [ClientState.next]
    split <;> rfl
  | _ => exact .stays (by simp) rfl

/-- A thread in a handler stays in one, unless it is the one that calls `reconnect`. -/
theorem inHandler_clientNext {e : ClientEvent} (hen : s.Enabled e)
    (hin : (s.connection.pcs t).inHandler = true)
    (hlocked : ∀ nested, e = .step t → s.pcs t ≠ .lockedTest nested) :
    ((s.next e).connection.pcs t).inHandler = true := by
  cases connectionMoves_next hen with
  | stays _ hconn =>
    rw [hconn]
    exact hin
  | moves e' he hen' hcall =>
    subst he
    exact inHandler_next e' (fun op heq => absurd heq (hcall t op)) hin hen'
  | fails he hidle =>
    subst he
    refine inHandler_next (.call .io .notifyClose) ?_ hin ⟨hidle.2.1, fun _ => hidle.2.2⟩
    intro op heq
    exact (ConnectionEvent.call.inj heq).2.symm
  | reconnects t' nested he hpc hconn =>
    have ht : t ≠ t' := by
      rintro rfl
      exact hlocked nested he hpc
    rw [hconn]
    simpa [Connection.next, ht] using hin

/-- The io thread is in a handler, and its `async_send` does not reconnect. -/
def IoStraight (s : ClientState) : Prop :=
  (s.pcs .io).straight = true ∧ (s.connection.pcs .io).inHandler = true

theorem straight_step (h : (s.pcs .io).straight = true) (hopen : FindsOpen s (.step .io)) :
    ((s.step .io).pcs .io).straight = true := by
  unfold ClientState.step
  cases hp : s.pcs .io with
  | test nested =>
    have hopened : s.connection.status = .opened := hopen rfl nested hp
    simp [ClientState.goto, hopened, SendPc.straight]
  | post nested => cases nested <;> simp [ClientState.goto, SendPc.straight]
  | _ => simp_all [ClientState.goto, SendPc.straight]

/-- **Every event that finds the connection open on the io thread keeps it straight.** -/
theorem ioStraight_next (e : ClientEvent) (h : IoStraight s) (hen : s.Enabled e)
    (hopen : FindsOpen s e) : IoStraight (s.next e) := by
  obtain ⟨hpcs, hconn⟩ := h
  constructor
  · cases clientMoves_next .io hen with
    | stays hpc =>
      rw [hpc]
      exact hpcs
    | steps he =>
      subst he
      exact straight_step hpcs hopen
    | enters _ hafter => exact hafter
    | givesUp nested hbefore _ => simp [hbefore, SendPc.straight] at hpcs
  · refine inHandler_clientNext hen hconn ?_
    intro nested _ hlocked
    simp [hlocked, SendPc.straight] at hpcs

/-- A straight io thread neither waits for a connect event nor for anybody else. -/
theorem IoStraight.free (h : IoStraight s) :
    (s.connection.pcs .io).stage ≠ .waiting ∧ ¬s.Blocked .io := by
  obtain ⟨hpcs, hconn⟩ := h
  unfold ClientState.Blocked
  constructor
  · cases hp : s.connection.pcs .io <;> simp_all [Pc.inHandler, Pc.stage]
    all_goals split <;> simp_all
  · cases hp : s.pcs .io <;> simp_all [SendPc.straight]
    all_goals cases hq : s.connection.pcs .io <;> simp_all [Pc.inHandler]

end step

/-! ## Whole runs -/

/-- **The io thread never waits for itself**, in every run in which each `async_send` on the io
thread finds the connection open: a thread that waits for the new session within a reconnect is
not the io thread, and meanwhile the io thread is not blocked, so that it can come to run the
`on_connect`. -/
theorem io_never_waits (closedCallbackSet : Bool) (es : List ClientEvent)
    (hrun : sending.Run (.start closedCallbackSet) es)
    (hopen : sending.Along FindsOpen (.start closedCallbackSet) es) :
    let s := sending.after (.start closedCallbackSet) es
    ∀ t, (s.connection.pcs t).stage = .waiting → t ≠ .io ∧ ¬s.Blocked .io := by
  intro s t hwaiting
  have hstraight : IoStraight s :=
    invariant_along (fun _ e h he => ioStraight_next e h he.1 he.2) ⟨rfl, rfl⟩ (hrun.and hopen)
  refine ⟨?_, hstraight.free.2⟩
  rintro rfl
  exact hstraight.free.1 hwaiting

/-- The connection is lost, an application thread sends, and waits for the new session. -/
def lossAndSend : List ClientEvent :=
  [.connection (.onConnect 0), .connection (.notify .io none), .connection (.onError 0),
    .connection (.notify .io none), .connection (.step .io), .asyncSend (.app 0) false,
    .step (.app 0), .step (.app 0), .step (.app 0), .connection (.step (.app 0)),
    .connection (.notify (.app 0) none), .connection (.step (.app 0)),
    .connection (.step (.app 0)), .connection (.create (.app 0) true),
    .connection (.step (.app 0)), .connection (.step (.app 0)), .connection (.step (.app 0)),
    .connection (.step (.app 0)), .connection (.step (.app 0)), .connection (.step (.app 0))]

/-- A delayed send goes out on the io thread, which finds the connection open, and is answered. -/
def sendOnIo : List ClientEvent :=
  [.connection (.onConnect 0), .connection (.notify .io none), .asyncSend (.app 1) true, .expire,
    .step .io, .step .io, .submit true, .callback, .callbackReturns .io]

/-- After a send on the io thread, the loss of `lossAndSend`. -/
theorem io_never_waits_application :
    ¬(sending.after (.start false) (sendOnIo ++ lossAndSend.drop 2)).Blocked .io :=
  (io_never_waits false (sendOnIo ++ lossAndSend.drop 2) (by decide) (by decide) (.app 0)
    (by decide)).2

/-! ## A send on the io thread that reconnects -/

/-- The statements of a `reconnect` up to the wait, when no thread waits and `createSession`
succeeds. -/
def reconnectStatements (t : Thread) : List ConnectionEvent :=
  [.step t, .notify t none, .step t, .step t, .create t true, .step t, .step t, .step t, .step t,
    .step t, .step t]

theorem reconnect_blocks (c : Connection) (t : Thread) (hmutex : c.mutex = none)
    (hwaiters : c.waiters = []) :
    connection.Run (c.next (.call t .reconnect)) (reconnectStatements t) ∧
      (connection.after (c.next (.call t .reconnect)) (reconnectStatements t)).pcs t
        = .blocked .reconnect := by
  simp [reconnectStatements, Run, connection, Connection.Enabled, Connection.next, Op.entry,
    Connection.CanStep, Connection.step, Connection.goto, Connection.setSession,
    Connection.notifyOne, hmutex, hwaiters, Pc.notifies, After.entry, Wait.predicate]

/-- Statements inside the connection are statements of the client. -/
theorem run_statements (s : ClientState) (es : List ConnectionEvent)
    (hstatements : ∀ e ∈ es, (∀ t op, e ≠ .call t op) ∧ (∀ sid, e ≠ .onConnect sid) ∧
      ∀ sid, e ≠ .onError sid) (hrun : connection.Run s.connection es) :
    sending.Run s (es.map .connection) ∧ sending.after s (es.map .connection)
      = { s with connection := connection.after s.connection es } := by
  induction es generalizing s with
  | nil => exact ⟨trivial, rfl⟩
  | cons e es ih =>
    obtain ⟨hcall, hconnect, herror⟩ := hstatements e (List.mem_cons_self ..)
    have hen : sending.Enabled s (.connection e) := by
      cases e with
      | call t op => exact absurd rfl (hcall t op)
      | onConnect sid => exact absurd rfl (hconnect sid)
      | onError sid => exact absurd rfl (herror sid)
      | _ => exact hrun.1
    obtain ⟨htail, hafter⟩ := ih (s.next (.connection e))
      (fun e' he' => hstatements e' (List.mem_cons_of_mem _ he')) hrun.2
    exact ⟨⟨hen, htail⟩, hafter⟩

/-- Whenever an `async_send` on the io thread finds the connection not open, with no thread in
the client's lock or in a wait, the run can go on to the io thread blocked in the wait for its
own `on_connect`. -/
theorem io_send_blocks (s : ClientState) (nested : Bool) (htest : s.pcs .io = .test nested)
    (hstatus : s.connection.status ≠ .opened) (hmutex : s.mutex = none)
    (hlock : s.connection.mutex = none) (hwaiters : s.connection.waiters = []) :
    ∃ es, sending.Run s es ∧
      ((sending.after s es).connection.pcs .io) = .blocked .reconnect := by
  obtain ⟨hrun, hblocked⟩ := reconnect_blocks s.connection .io hlock hwaiters
  let locked : ClientState := sending.after s [.step .io, .step .io, .step .io]
  have hlocked : locked.connection = s.connection.next (.call .io .reconnect) := by
    simp [locked, sending, ClientState.next, ClientState.step, ClientState.goto, htest, hstatus]
  obtain ⟨hrun', hafter'⟩ := run_statements locked (reconnectStatements .io)
    (by simp [reconnectStatements]) (hlocked ▸ hrun)
  refine ⟨[.step .io, .step .io, .step .io] ++ (reconnectStatements .io).map .connection, ?_, ?_⟩
  · refine run_append.mpr ⟨?_, hrun'⟩
    simp [Run, sending, ClientState.Enabled, ClientState.CanStep, ClientState.next,
      ClientState.step, ClientState.goto, htest, hstatus, hmutex]
  · rw [after_append, show sending.after s [.step .io, .step .io, .step .io] = locked from rfl,
      hafter', hlocked]
    exact hblocked

/-- **A send on the io thread that waits for itself.** The connection is lost while a delay is
running; the delay expires, `async_send` reconnects on the io thread, and that thread is blocked
in `waitToBeConnected`. -/
theorem io_thread_waits :
    ¬∀ (closedCallbackSet : Bool) (es : List ClientEvent),
      sending.Run (.start closedCallbackSet) es →
      ∀ t, ((sending.after (.start closedCallbackSet) es).connection.pcs t).stage = .waiting →
        t ≠ .io := by
  intro h
  have hio := h false ([.connection (.onConnect 0), .connection (.notify .io none),
    .asyncSend (.app 0) true, .connection (.onError 0), .connection (.notify .io none),
    .connection (.step .io), .expire, .step .io, .step .io, .step .io] ++
    (reconnectStatements .io).map .connection) (by decide) .io (by decide)
  exact absurd rfl hio

end Http2Comm.Client
