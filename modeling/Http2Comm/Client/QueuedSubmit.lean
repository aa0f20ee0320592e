import Http2Comm.Client.Exclusive

/-!
# A queued submit handler and a reconnection

The submit handlers that were posted before the connection was lost run on the io thread while an
application thread waits in `reconnect`. Each finds no open connection, gets no request and calls
`notifyClose`, whose first statement stores `CLOSED` over the `NOT_OPEN` that the wait depends on
(`failed_submit_ends_wait`): `waitToBeConnected` takes it for an answer.

`Unspoilt` leaves out that store and nothing else. Under it the status that the reconnecting
thread reads is the one the sessions have reported (`reported`), whatever handlers run and
whatever the other threads send, so the result of `reconnect` is theirs (`reconnect_unaffected`).
The proof is that between the store of `NOT_OPEN` and the last read no other thread is inside
`reconnect`, since `Http2Client::reconnect` holds the client's mutex around it (`Exclusive`).
-/

set_option autoImplicit false

namespace Http2Comm.Client

open Lib Lib.Machine

/-! ## The reconnection of a thread -/

/-- The thread is between its call of `reconnect` and the test that follows it in
`async_send`. -/
def SendPc.inReconnect : SendPc → Bool
  | .reconnecting _ | .unlock _ | .retest _ => true
  | _ => false

def Within (t : Thread) (s : ClientState) (_ : ClientEvent) : Prop :=
  (s.pcs t).inReconnect = true

/-- The step is not the store of `CLOSED` by the `notifyClose` of a failed submit handler. -/
def Unspoilt (s : ClientState) : ClientEvent → Prop
  | .connection (.step t) => s.connection.pcs t ≠ .storeClosed .return
  | _ => True

instance decidableWithin (t : Thread) (s : ClientState) (e : ClientEvent) :
    Decidable (Within t s e) :=
  inferInstanceAs (Decidable (_ = _))

instance decidableUnspoilt (s : ClientState) (e : ClientEvent) : Decidable (Unspoilt s e) := by
  unfold Unspoilt
  split <;> infer_instance

/-- What the callbacks of a session store. -/
def report (status : Status) : ClientEvent → Status
  | .connection (.onConnect _) => .opened
  | .connection (.onError _) => .closed
  | _ => status

/-- What the sessions have reported since the store of `NOT_OPEN`. -/
def reported (es : List ClientEvent) : Status := es.foldl report .notOpen

/-- The thread has been woken by the timeout of its wait. -/
def Pc.expired : Pc → Bool
  | .relock _ true | .lateTest _ => true
  | _ => false

/-- The wait of `t` has timed out, before `s` or since. -/
def TimedOut (t : Thread) (s : ClientState) (es : List ClientEvent) : Prop :=
  (s.connection.pcs t).expired = true ∨ (∃ w, s.connection.pcs t = .read w) ∨
    .connection (.wake t true) ∈ es

/-- Statements and a timeout of the thread alone let it return from `reconnect`. -/
def Returns (t : Thread) (c : Connection) : Prop :=
  ∃ es result, (∀ e ∈ es, e = .step t ∨ e = .wake t true) ∧ connection.Run c es ∧
    (connection.after c es).pcs t = .returned result

/-- The reconnection of `t` that waits in `s` is decided by the sessions and the clock. -/
structure Unaffected (t : Thread) (s : ClientState) (es : List ClientEvent) : Prop where
  /-- The result is what the sessions have reported, and `reconnect` does not give up before they
  have or the wait has timed out. -/
  result : ∀ before rest, es = before ++ .connection (.step t) :: rest →
    (sending.after s before).connection.pcs t = .read .reconnect →
    (sending.after s (before ++ [.connection (.step t)])).connection.pcs t
        = .unlock .reconnect (decide (reported before = .opened)) ∧
      (reported before = .notOpen → TimedOut t s before)
  /-- An `on_connect` during the wait, and no error: the result is true, and the request is not
  answered with -1. -/
  connected : ∀ before sid rest, es = before ++ .connection (.onConnect sid) :: rest →
    ((sending.after s before).connection.pcs t).stage = .waiting →
    (∀ sid', .connection (.onError sid') ∉ es) →
    (((sending.after s es).connection.pcs t).stage = .waiting ∨
        ((sending.after s es).connection.pcs t).stage = .done true) ∧
      (sending.after s es).pcs t ≠ .inCallback
  returns : Returns t (sending.after s es).connection

section reconnection

variable {s : ClientState} {t : Thread} {es : List ClientEvent}

@[simp] theorem reported_snoc (es : List ClientEvent) (e : ClientEvent) :
    reported (es ++ [e]) = report (reported es) e := by
  simp [reported]

/-- The sessions do not take a report back. -/
theorem report_notOpen {status : Status} {e : ClientEvent} (h : report status e = .notOpen) :
    status = .notOpen := by
  cases e with
  | connection e => cases e <;> simp_all [report]
  | _ => exact h

theorem TimedOut.snoc (h : TimedOut t s es) (e : ClientEvent) : TimedOut t s (es ++ [e]) := by
  rcases h with h | h | h
  · exact Or.inl h
  · exact Or.inr (Or.inl h)
  · exact Or.inr (Or.inr (List.mem_append_left _ h))

/-- **The status is what the sessions report**, while no other thread reconnects and no failed
submit handler stores `CLOSED`. -/
theorem status_next {e : ClientEvent} (h : Exclusive s)
    (halone : ∀ t', t' ≠ t → (s.pcs t').isReconnecting = false)
    (hstage : (s.connection.pcs t).stage = .waiting ∨
      ∃ result, (s.connection.pcs t).stage = .done result)
    (hen : s.Enabled e) (hunspoilt : Unspoilt s e) :
    (s.next e).connection.status = report s.connection.status e := by
  cases connectionMoves_next hen with
  | stays he hconn =>
    rw [hconn]
    cases e with
    | connection e => exact absurd rfl (he e)
    | _ => rfl
  | moves e' he hen' hcall =>
    subst he
    cases e' with
    | onConnect sid => rfl
    | onError sid => rfl
    | call t' op => exact absurd rfl (hcall t' op)
    | step t' =>
      have hpc : s.connection.pcs t' ≠ .storeClosed .return := hunspoilt
      rw [show (s.next (.connection (.step t'))).connection = s.connection.step t' from rfl,
        status_step]
      by_cases ht : t' = t
      · subst ht
        cases hp : s.connection.pcs t' with
        | storeClosed after => cases after <;> simp_all [Pc.stage]
        | storeNotOpen => simp [hp, Pc.stage] at hstage
        | _ => rfl
      · have hin := h.outside t' (halone t' ht)
        cases hp : s.connection.pcs t' with
        | storeClosed after => cases after <;> simp_all [Pc.inHandler]
        | storeNotOpen => simp [hp, Pc.inHandler] at hin
        | _ => rfl
    | create t' created => cases created <;> rfl
    | notify t' woken => exact (members_next_of_quiet s.connection rfl).1
    | wake t' timedOut => exact (members_next_of_quiet s.connection rfl).1
  | fails he _ =>
    rw [he]
    rfl
  | reconnects t' nested he _ hconn =>
    rw [hconn, he]
    rfl

/-- What an event does to a thread within its reconnection. -/
inductive Moves (t : Thread) (s : ClientState) (e : ClientEvent) : Prop where
  | stays (hpc : (s.next e).connection.pcs t = s.connection.pcs t)
  | steps (he : e = .connection (.step t))
  | wakes (w : Wait) (timedOut : Bool) (hblocked : s.connection.pcs t = .blocked w)
    (hpc : (s.next e).connection.pcs t = .relock w timedOut)
    (he : timedOut = true → e = .connection (.wake t true))

theorem moves_next {e : ClientEvent} (hwithin : Within t s e)
    (hstage : (s.connection.pcs t).stage = .waiting ∨
      ∃ result, (s.connection.pcs t).stage = .done result)
    (hen : s.Enabled e) : Moves t s e := by
  have hio (hidle : s.IoIdle) : t ≠ .io := by
    rintro rfl
    simp [Within, hidle.1, SendPc.inReconnect] at hwithin
  cases connectionMoves_next hen with
  | stays _ hconn => exact .stays (by rw [hconn])
  | moves e' he hen' hcall =>
    subst he
    cases e' with
    | call t' op => exact absurd rfl (hcall t' op)
    | onConnect sid =>
      exact .stays (by simp [ClientState.next, Connection.next, hio hen.1])
    | onError sid =>
      exact .stays (by simp [ClientState.next, Connection.next, hio hen.1])
    | step t' =>
      by_cases ht : t' = t
      · exact .steps (by rw [ht])
      · exact .stays (pcs_step_ne s.connection t' (Ne.symm ht))
    | create t' created =>
      have ht : t ≠ t' := by
        rintro rfl
        have hpc : s.connection.pcs t = .createSession := hen
        simp [hpc, Pc.stage] at hstage
      refine .stays ?_
      cases created <;> simp [ClientState.next, Connection.next, ht]
    | notify t' woken =>
      have ht : t ≠ t' := by
        rintro rfl
        have hnotifies : (s.connection.pcs t).notifies = true := hen.1
        cases hp : s.connection.pcs t with
        | notifyOne after => cases after <;> simp_all [Pc.stage]
        | _ => simp_all [Pc.notifies, Pc.stage]
      have hnext : (s.next (.connection (.notify t' woken))).connection.pcs t
          = (s.connection.notifyOne woken).pcs t := by
        simp only [ClientState.next, Connection.next]
        split <;> simp [ht]
      rcases pcs_notifyOne s.connection woken t with hsame | ⟨w, hw, hw'⟩
      · exact .stays (hnext.trans hsame)
      · exact .wakes w false hw (hnext.trans hw') (by simp)
    | wake t' timedOut =>
      by_cases ht : t = t'
      · subst ht
        have hblocked : (s.connection.pcs t).isBlocked = true := hen
        cases hp : s.connection.pcs t with
        | blocked w =>
          refine .wakes w timedOut hp (by simp [ClientState.next, Connection.next, hp]) ?_
          rintro rfl
          rfl
        | _ => simp [hp, Pc.isBlocked] at hblocked
      · refine .stays ?_
        simp only [ClientState.next, Connection.next]
        split <;> simp [ht]
  | fails he hidle =>
    subst he
    exact .stays (by simp [ClientState.next, ClientState.goto, Connection.next, hio hidle])
  | reconnects t' nested he hpc hconn =>
    have ht : t ≠ t' := by
      rintro rfl
      simp [Within, hpc, SendPc.inReconnect] at hwithin
    exact .stays (by simp [hconn, Connection.next, ht])

/-- A statement of a waiting thread: the wait goes on, or is done with the status as the result;
only a timeout expires it, and the last read follows a timeout or a status that has changed. -/
theorem step_waiting {c : Connection} (hstaged : (c.pcs t).stage = .waiting ∨
      ∃ result, (c.pcs t).stage = .done result) (hcan : c.CanStep t) :
    (((c.pcs t).stage = .waiting ∧ ((c.step t).pcs t).stage = .waiting) ∨
        ∃ result, ((c.step t).pcs t).stage = .done result ∧
          ((c.pcs t).stage = .done result ∨ result = decide (c.status = .opened))) ∧
      (((c.step t).pcs t).expired = true → (c.pcs t).expired = true) ∧
      ((∃ w, (c.step t).pcs t = .read w) → (c.pcs t).expired = true ∨ c.status ≠ .notOpen) := by
  unfold Connection.CanStep at hcan
  cases hp : c.pcs t with
  | lock w =>
    cases w <;> simp_all [Connection.step, Pc.stage, Pc.expired]
  | test w =>
    by_cases hpred : w.predicate c.status = true
    · cases w <;> simp_all [Connection.step, Pc.stage, Pc.expired, Wait.leave, Wait.predicate]
    · cases w <;> simp_all [Connection.step, Pc.stage, Pc.expired]
  | block w => cases w <;> simp_all [Connection.step, Pc.stage, Pc.expired]
  | relock w timedOut =>
    cases w <;> cases timedOut <;> simp_all [Connection.step, Pc.stage, Pc.expired]
  | lateTest w => cases w <;> simp_all [Connection.step, Pc.stage, Pc.expired, Wait.leave]
  | read w => cases w <;> simp_all [Connection.step, Pc.stage, Pc.expired]
  | unlock w result => cases w <;> simp_all [Connection.step, Pc.stage, Pc.expired]
  | storeClosed after => cases after <;> simp_all [Pc.stage]
  | notifyOne after => cases after <;> simp_all [Pc.stage]
  | closedCallback after => cases after <;> simp_all [Pc.stage]
  | _ => simp_all [Pc.stage]

/-- What holds of the reconnecting thread while nothing spoils the status. -/
structure Waits (t : Thread) (s : ClientState) (es : List ClientEvent) (s' : ClientState) :
    Prop where
  exclusive : Exclusive s'
  staged : (s'.connection.pcs t).stage = .waiting ∨
    ∃ result, (s'.connection.pcs t).stage = .done result
  status : (s'.connection.pcs t).stage = .waiting → s'.connection.status = reported es
  expired : (s'.connection.pcs t).expired = true → TimedOut t s es
  decided : (∃ w, s'.connection.pcs t = .read w) → reported es = .notOpen → TimedOut t s es

theorem waits_start (h : Exclusive s) (hstage : (s.connection.pcs t).stage = .waiting)
    (hstatus : s.connection.status = .notOpen) : Waits t s [] s where
  exclusive := h
  staged := Or.inl hstage
  status _ := hstatus
  expired hexpired := Or.inl hexpired
  decided hread _ := Or.inr (Or.inl hread)

/-- **One event of a reconnection that nothing spoils.** -/
theorem waits_next {s' : ClientState} {e : ClientEvent} (h : Waits t s es s')
    (hen : s'.Enabled e) (hwithin : Within t s' e) (hunspoilt : Unspoilt s' e) :
    Waits t s (es ++ [e]) (s'.next e) := by
  have hexclusive := exclusive_next e h.exclusive hen
  obtain ⟨hprev, hstaged, hstatus, hexpired, hdecided⟩ := h
  have hnext (hstage : (s'.connection.pcs t).stage = .waiting) :
      (s'.next e).connection.status = reported (es ++ [e]) := by
    have halone (t' : Thread) (ht : t' ≠ t) : (s'.pcs t').isReconnecting = false :=
      hprev.alone (hprev.reconnecting hstage) ht
    rw [status_next hprev halone hstaged hen hunspoilt, hstatus hstage, reported_snoc]
  cases moves_next hwithin hstaged hen with
  | stays hpc =>
    refine ⟨hexclusive, ?_, ?_, ?_, ?_⟩
    · rw [hpc]
      exact hstaged
    · rw [hpc]
      exact hnext
    · rw [hpc]
      exact fun hexp => (hexpired hexp).snoc e
    · rw [hpc]
      intro hread hnot
      rw [reported_snoc] at hnot
      exact (hdecided hread (report_notOpen hnot)).snoc e
  | steps he =>
    subst he
    have hpc : (s'.next (.connection (.step t))).connection = s'.connection.step t := rfl
    obtain ⟨hstages, hexp, hread⟩ := step_waiting hstaged hen
    refine ⟨hexclusive, ?_, ?_, ?_, ?_⟩
    · rcases hstages with ⟨-, hwaiting⟩ | ⟨result, hdone, -⟩
      · exact Or.inl hwaiting
      · exact Or.inr ⟨result, hdone⟩
    · intro hstage
      rcases hstages with ⟨hwaiting, -⟩ | ⟨result, hdone, -⟩
      · exact hnext hwaiting
      · rw [hpc, hdone] at hstage
        cases hstage
    · intro hlate
      exact (hexpired (hexp hlate)).snoc _
    · intro hr hnot
      rcases hread hr with hlate | hchanged
      · exact (hexpired hlate).snoc _
      · -- the status had changed, by a report
        rw [reported_snoc] at hnot
        have hstage : (s'.connection.pcs t).stage = .waiting := by
          rcases hstages with ⟨hwaiting, -⟩ | ⟨result, hdone, -⟩
          · exact hwaiting
          · obtain ⟨w, hw⟩ := hr
            rw [← hpc, hw] at hdone
            cases w <;> cases hdone
        exact absurd ((hstatus hstage).trans (report_notOpen hnot)) hchanged
  | wakes w timedOut hblocked hpc he =>
    have hstage : (s'.connection.pcs t).stage = .waiting := by
      rcases hstaged with hwaiting | ⟨result, hdone⟩
      · exact hwaiting
      · rw [hblocked] at hdone
        cases w <;> cases hdone
    have hw : w = .reconnect := by
      rw [hblocked] at hstage
      cases w with
      | reconnect => rfl
      | connected => cases hstage
      | disconnected => cases hstage
    refine ⟨hexclusive, ?_, ?_, ?_, ?_⟩
    · rw [hpc, hw]
      exact Or.inl rfl
    · exact fun _ => hnext hstage
    · rw [hpc]
      intro hexp
      cases timedOut with
      | true =>
        rw [he rfl]
        exact Or.inr (Or.inr (by simp))
      | false => cases hexp
    · rw [hpc]
      rintro ⟨w', hw'⟩
      cases hw'

/-! ## After the new session has connected -/

/-- The status is `OPEN`, and stays it. -/
structure Connected (t : Thread) (s : ClientState) : Prop where
  exclusive : Exclusive s
  alone : ∀ t', t' ≠ t → (s.pcs t').isReconnecting = false
  status : s.connection.status = .opened
  staged : (s.connection.pcs t).stage = .waiting ∨ (s.connection.pcs t).stage = .done true
  unanswered : s.pcs t ≠ .inCallback

/-- A thread begins to reconnect only on a connection that is not open. -/
theorem isReconnecting_next {e : ClientEvent} (hen : s.Enabled e)
    (h : ((s.next e).pcs t).isReconnecting = true) :
    (s.pcs t).isReconnecting = true ∨ s.connection.status ≠ .opened := by
  cases clientMoves_next t hen with
  | stays hpc =>
    rw [hpc] at h
    exact Or.inl h
  | steps he =>
    subst he
    by_contra hnot
    obtain ⟨hoff, hopened⟩ := not_or.mp hnot
    rw [not_not] at hopened
    simp only [ClientState.next, ClientState.step] at h
    cases hp : s.pcs t with
    | post nested => cases nested <;> simp_all [ClientState.goto, SendPc.isReconnecting]
    | _ => simp_all [ClientState.goto, SendPc.isReconnecting]
  | enters _ hafter =>
    cases hp : (s.next e).pcs t <;> simp_all [SendPc.straight, SendPc.isReconnecting]
  | givesUp nested _ hafter => simp [hafter, SendPc.isReconnecting] at h

/-- A reconnection that finds the connection open does not answer the request. -/
theorem unanswered_next {e : ClientEvent} (hwithin : Within t s e) (hen : s.Enabled e)
    (hopened : s.connection.status = .opened) : (s.next e).pcs t ≠ .inCallback := by
  have hreconnect : (s.pcs t).inReconnect = true := hwithin
  cases clientMoves_next t hen with
  | stays hpc =>
    rw [hpc]
    intro hcallback
    rw [hcallback] at hreconnect
    cases hreconnect
  | steps he =>
    subst he
    simp only [ClientState.next, ClientState.step]
    cases hp : s.pcs t <;> simp_all [ClientState.goto, SendPc.inReconnect]
  | enters hbefore _ => rcases hbefore with hp | hp <;> simp [hp, SendPc.inReconnect] at hreconnect
  | givesUp nested _ hafter => simp [hafter]

theorem connected_onConnect {sid : Nat} (h : Exclusive s)
    (hstage : (s.connection.pcs t).stage = .waiting)
    (hen : s.Enabled (.connection (.onConnect sid))) :
    Connected t (s.next (.connection (.onConnect sid))) := by
  have hreconnecting := h.reconnecting hstage
  have hio : t ≠ .io := by
    rintro rfl
    simp [hen.1.1, SendPc.isReconnecting] at hreconnecting
  refine ⟨exclusive_next _ h hen, fun t' ht => h.alone hreconnecting ht, rfl, ?_, ?_⟩
  · left
    simpa [ClientState.next, Connection.next, hio] using hstage
  · intro hp
    rw [show s.pcs t = .inCallback from hp] at hreconnecting
    cases hreconnecting

theorem connected_next {e : ClientEvent} (h : Connected t s) (hen : s.Enabled e)
    (hwithin : Within t s e) (hunspoilt : Unspoilt s e)
    (herror : ∀ sid, e ≠ .connection (.onError sid)) : Connected t (s.next e) := by
  obtain ⟨hexclusive, halone, hstatus, hstaged, -⟩ := h
  have hstaged' : (s.connection.pcs t).stage = .waiting ∨
      ∃ result, (s.connection.pcs t).stage = .done result := hstaged.imp_right fun hd => ⟨true, hd⟩
  refine ⟨exclusive_next e hexclusive hen, ?_, ?_, ?_, unanswered_next hwithin hen hstatus⟩
  · intro t' ht
    by_contra hr
    rcases isReconnecting_next hen (by simpa using hr) with hr' | hopened
    · simp [halone t' ht] at hr'
    · exact hopened hstatus
  · rw [status_next hexclusive halone hstaged' hen hunspoilt, hstatus]
    cases e with
    | connection e =>
      cases e with
      | onError sid => exact absurd rfl (herror sid)
      | _ => rfl
    | _ => rfl
  · cases moves_next hwithin hstaged' hen with
    | stays hpc =>
      rw [hpc]
      exact hstaged
    | steps he =>
      subst he
      change ((s.connection.step t).pcs t).stage = _ ∨ ((s.connection.step t).pcs t).stage = _
      rcases (step_waiting hstaged' hen).1 with ⟨-, hwaiting⟩ | ⟨result, hdone, hresult⟩
      · exact Or.inl hwaiting
      · right
        rw [hdone]
        rcases hresult with hbefore | hread
        · rw [hbefore] at hstaged
          simpa using hstaged
        · simp [hread, hstatus]
    | wakes w timedOut hblocked hpc _ =>
      left
      rw [hblocked] at hstaged
      rw [hpc]
      cases w <;> simp_all [Pc.stage]

/-! ## The thread can return -/

theorem Returns.cons {c : Connection} {e : ConnectionEvent} (h : Returns t (c.next e))
    (he : e = .step t ∨ e = .wake t true) (hen : c.Enabled e) : Returns t c := by
  obtain ⟨es, result, hes, hrun, hresult⟩ := h
  refine ⟨e :: es, result, ?_, ⟨hen, hrun⟩, hresult⟩
  intro e' he'
  rcases List.mem_cons.mp he' with rfl | he'
  · exact he
  · exact hes e' he'

/-- Each program counter of the wait, last statement first. -/
theorem can_return {c : Connection} (hstaged : (c.pcs t).stage = .waiting ∨
      ∃ result, (c.pcs t).stage = .done result)
    (hfree : (c.pcs t).stage = .waiting → (c.pcs t).holds = false → c.mutex = none) :
    Returns t c := by
  have hreturned (c : Connection) (result : Bool) (hp : c.pcs t = .returned result) : Returns t c :=
    ⟨[], result, by simp, trivial, hp⟩
  have hunlock (c : Connection) (w : Wait) (result : Bool) (hp : c.pcs t = .unlock w result) :
      Returns t c := by
    refine Returns.cons (e := .step t) (hreturned _ result ?_) (Or.inl rfl) ?_
    · simp [Connection.next, Connection.step, hp]
    · simp [Connection.Enabled, Connection.CanStep, hp]
  have hread (c : Connection) (w : Wait) (hp : c.pcs t = .read w) : Returns t c := by
    refine Returns.cons (e := .step t) (hunlock _ w (decide (c.status = .opened)) ?_)
      (Or.inl rfl) ?_
    · simp [Connection.next, Connection.step, hp]
    · simp [Connection.Enabled, Connection.CanStep, hp]
  have hlate (c : Connection) (hp : c.pcs t = .lateTest .reconnect) : Returns t c := by
    refine Returns.cons (e := .step t) (hread _ .reconnect ?_) (Or.inl rfl) ?_
    · simp [Connection.next, Connection.step, hp, Wait.leave]
    · simp [Connection.Enabled, Connection.CanStep, hp]
  have hexpired (c : Connection) (hp : c.pcs t = .relock .reconnect true) (hm : c.mutex = none) :
      Returns t c := by
    refine Returns.cons (e := .step t) (hlate _ ?_) (Or.inl rfl) ?_
    · simp [Connection.next, Connection.step, hp]
    · simp [Connection.Enabled, Connection.CanStep, hp, hm]
  have hblocked (c : Connection) (hp : c.pcs t = .blocked .reconnect) (hm : c.mutex = none) :
      Returns t c := by
    refine Returns.cons (e := .wake t true) (hexpired _ ?_ ?_) (Or.inr rfl) ?_
    · simp [Connection.next, hp]
    · simp [Connection.next, hp, Connection.goto, hm]
    · simp [Connection.Enabled, hp, Pc.isBlocked]
  have hblock (c : Connection) (hp : c.pcs t = .block .reconnect) : Returns t c := by
    refine Returns.cons (e := .step t) (hblocked _ ?_ ?_) (Or.inl rfl) ?_
    · simp [Connection.next, Connection.step, hp]
    · simp [Connection.next, Connection.step, hp, Connection.goto]
    · simp [Connection.Enabled, Connection.CanStep, hp]
  have htest (c : Connection) (hp : c.pcs t = .test .reconnect) : Returns t c := by
    by_cases hpred : Wait.reconnect.predicate c.status = true
    · refine Returns.cons (e := .step t) (hread _ .reconnect ?_) (Or.inl rfl) ?_
      · simp [Connection.next, Connection.step, hp, hpred, Wait.leave]
      · simp [Connection.Enabled, Connection.CanStep, hp]
    · refine Returns.cons (e := .step t) (hblock _ ?_) (Or.inl rfl) ?_
      · simp [Connection.next, Connection.step, hp, hpred]
      · simp [Connection.Enabled, Connection.CanStep, hp]
  cases hp : c.pcs t with
  | returned result => exact hreturned c result hp
  | unlock w result => exact hunlock c w result hp
  | read w => exact hread c w hp
  | lateTest w => cases w <;> simp_all [Pc.stage]
  | relock w timedOut =>
    cases w with
    | reconnect =>
      have hm : c.mutex = none := hfree (by rw [hp]; rfl) (by rw [hp]; rfl)
      cases timedOut with
      | true => exact hexpired c hp hm
      | false =>
        refine Returns.cons (e := .step t) (htest _ ?_) (Or.inl rfl) ?_
        · simp [Connection.next, Connection.step, hp]
        · simp [Connection.Enabled, Connection.CanStep, hp, hm]
    | connected => simp [hp, Pc.stage] at hstaged
    | disconnected => simp [hp, Pc.stage] at hstaged
  | blocked w => cases w <;> simp_all [Pc.stage, Pc.holds]
  | block w => cases w <;> simp_all [Pc.stage]
  | test w => cases w <;> simp_all [Pc.stage]
  | lock w =>
    cases w with
    | reconnect =>
      have hm : c.mutex = none := hfree (by rw [hp]; rfl) (by rw [hp]; rfl)
      refine Returns.cons (e := .step t) (htest _ ?_) (Or.inl rfl) ?_
      · simp [Connection.next, Connection.step, hp]
      · simp [Connection.Enabled, Connection.CanStep, hp, hm]
    | connected => simp [hp, Pc.stage] at hstaged
    | disconnected => simp [hp, Pc.stage] at hstaged
  | storeClosed after => cases after <;> simp_all [Pc.stage]
  | notifyOne after => cases after <;> simp_all [Pc.stage]
  | closedCallback after => cases after <;> simp_all [Pc.stage]
  | _ => simp_all [Pc.stage]

end reconnection

/-! ## Whole reconnections -/

/-- **Queued submit handlers do not affect a reconnection** unless one of them fails and its store
of `CLOSED` comes while the thread is in the reconnection. -/
theorem reconnect_unaffected (closedCallbackSet : Bool) (t : Thread)
    (started es : List ClientEvent) (hrun : sending.Run (.start closedCallbackSet) (started ++ es))
    (hwaiting : ((sending.after (.start closedCallbackSet) started).connection.pcs t).stage
      = .waiting)
    (hstatus : (sending.after (.start closedCallbackSet) started).connection.status = .notOpen)
    (hwithin : sending.Along (Within t) (sending.after (.start closedCallbackSet) started) es)
    (hunspoilt : sending.Along Unspoilt (sending.after (.start closedCallbackSet) started) es) :
    Unaffected t (sending.after (.start closedCallbackSet) started) es := by
  obtain ⟨hstarted, hrun⟩ := run_append.mp hrun
  have hexclusive := exclusive_run hstarted
  generalize sending.after (.start closedCallbackSet) started = s at *
  have hwaits (es : List ClientEvent) (hrun : sending.Run s es)
      (hwithin : sending.Along (Within t) s es) (hunspoilt : sending.Along Unspoilt s es) :
      Waits t s es (sending.after s es) :=
    history (waits_start hexclusive hwaiting hstatus)
      (fun _ _ _ h he => waits_next h he.1 he.2.1 he.2.2) (hrun.and (hwithin.and hunspoilt))
  constructor
  · rintro before rest rfl hread
    have hbefore := hwaits before (along_append.mp hrun).1 (along_append.mp hwithin).1
      (along_append.mp hunspoilt).1
    refine ⟨?_, hbefore.decided ⟨.reconnect, hread⟩⟩
    have hreported := hbefore.status (by rw [hread]; rfl)
    rw [after_append, after_cons, after_nil, ← hreported]
    generalize sending.after s before = s' at *
    change (s'.connection.step t).pcs t = _
    simp [Connection.step, hread]
  · rintro before sid rest rfl hstage herror
    obtain ⟨hrun₁, hen, hrun₂⟩ := along_append.mp hrun
    obtain ⟨hwithin₁, hwithin, hwithin₂⟩ := along_append.mp hwithin
    obtain ⟨hunspoilt₁, -, hunspoilt₂⟩ := along_append.mp hunspoilt
    have hbefore := hwaits before hrun₁ hwithin₁ hunspoilt₁
    have hconnected := connected_onConnect hbefore.exclusive hstage hen
    have hquiet : sending.Along (fun _ e => ∀ sid, e ≠ .connection (.onError sid))
        ((sending.after s before).next (.connection (.onConnect sid))) rest := by
      rw [along_iff_cut]
      rintro _ e _ rfl sid' rfl
      exact herror sid' (by simp)
    have hrest := invariant_along (I := Connected t)
      (fun _ _ h he => connected_next h he.1 he.2.1 he.2.2.1 he.2.2.2) hconnected
      (Along.and hrun₂ (hwithin₂.and (hunspoilt₂.and hquiet)))
    rw [after_append, after_cons]
    exact ⟨hrest.staged, hrest.unanswered⟩
  · have hall := hwaits es hrun hwithin hunspoilt
    exact can_return hall.staged fun hstage hholds => hall.exclusive.free hstage hholds

/-- A request is posted, the connection is lost, and another thread waits for a new session. -/
def postedAndLost : List ClientEvent :=
  [.connection (.onConnect 0), .connection (.notify .io none), .asyncSend (.app 1) false,
    .step (.app 1), .step (.app 1), .connection (.onError 0), .connection (.notify .io none),
    .connection (.step .io), .asyncSend (.app 0) false, .step (.app 0), .step (.app 0),
    .step (.app 0)] ++ (reconnectStatements (.app 0)).map .connection

/-- The queued submit handler runs after the new session has connected. -/
theorem reconnect_unaffected_connected :
    Unaffected (.app 0) (sending.after (.start false) postedAndLost)
      [.connection (.onConnect 1), .connection (.notify .io (some (.app 0))), .submit true,
        .connection (.step (.app 0)), .connection (.step (.app 0)), .connection (.step (.app 0)),
        .connection (.step (.app 0)), .step (.app 0), .step (.app 0), .step (.app 0)] :=
  reconnect_unaffected false (.app 0) postedAndLost _ (by decide) (by decide) (by decide)
    (by decide) (by decide)

/-! ## A submit handler that fails in the meantime -/

/-- Whenever a submit handler is queued while a thread is blocked in `reconnect` and the io thread
is idle, the run can go on to a `reconnect` that returns false although no session has reported
and the wait has not timed out: the handler fails. -/
theorem failed_submit_ends_wait (s : ClientState) (t : Thread) (h : Exclusive s) (ht : t ≠ .io)
    (hblocked : s.connection.pcs t = .blocked .reconnect) (hwaiter : t ∈ s.connection.waiters)
    (hidle : s.IoIdle) (hposted : 0 < s.posted) :
    ∃ es, sending.Run s es ∧ (sending.after s es).connection.pcs t = .returned false ∧
      reported es = .notOpen ∧ .connection (.wake t true) ∉ es := by
  have hmutex : s.connection.mutex = none :=
    h.free (by rw [hblocked]; rfl) (by rw [hblocked]; rfl)
  refine ⟨[.submit false, .connection (.step .io), .connection (.notify .io (some t)),
    .connection (.step t), .connection (.step t), .connection (.step t), .connection (.step t)],
    ?_, ?_, rfl, by simp⟩
  · simp [Run, sending, ClientState.Enabled, ClientState.next, ClientState.goto,
      Connection.Enabled, Connection.next, Connection.CanStep, Connection.step, Connection.goto,
      Connection.notifyOne, Op.entry, Pc.notifies, Wait.predicate, Wait.leave, ht, hblocked,
      hwaiter, hidle, hposted, hmutex]
  · simp [sending, ClientState.next, ClientState.goto, Connection.next, Connection.step,
      Connection.goto, Connection.notifyOne, Op.entry, Wait.predicate, Wait.leave, ht, hblocked]

/-- **A queued request makes a reconnection fail.** Its submit handler finds no connection, closes
the one that is being opened, and the waiting thread returns false at once. -/
theorem queued_submit_fails_reconnect :
    ¬∀ (closedCallbackSet : Bool) (t : Thread) (started es : List ClientEvent),
      sending.Run (.start closedCallbackSet) (started ++ es) →
      ((sending.after (.start closedCallbackSet) started).connection.pcs t).stage = .waiting →
      (sending.after (.start closedCallbackSet) started).connection.status = .notOpen →
      sending.Along (Within t) (sending.after (.start closedCallbackSet) started) es →
      Unaffected t (sending.after (.start closedCallbackSet) started) es := by
  intro h
  have hunaffected := h false (.app 0) postedAndLost
    ([.submit false, .connection (.step .io), .connection (.notify .io (some (.app 0))),
      .connection (.step (.app 0)), .connection (.step (.app 0))] ++
      [.connection (.step (.app 0))]) (by decide) (by decide) (by decide) (by decide)
  have hpc : (sending.after (.start false) postedAndLost).connection.pcs (.app 0)
      = .blocked .reconnect := by decide
  rcases (hunaffected.result _ [] rfl (by decide)).2 (by decide) with hlate | ⟨w, hread⟩ | hwake
  · rw [hpc] at hlate
    cases hlate
  · rw [hpc] at hread
    cases hread
  · exact absurd hwake (by decide)

end Http2Comm.Client
