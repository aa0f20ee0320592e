import Http2Comm.Client.Connection

/-!
# The connect event of a reconnection

`reconnect` registers the callbacks of the new session and **then** stores `NOT_OPEN`, "important
to make waitToBeConnected() works". The session is connecting since it was created, so the
`io_context` thread may run its `on_connect` in between; the `OPEN` it stores is overwritten, and
since `on_connect` comes once, the wait that follows can only time out
(`early_connect_is_lost`).

`reconnect_connected_iff` is that this is the only way to lose it. The events of the run are
those of the reconnecting thread and of the new session's `on_connect`, among any others that do
not touch the status or the session (`Undisturbed`); the proof follows the reconnecting thread
through the `Stage`s of the function.
-/

set_option autoImplicit false

namespace Http2Comm.Client

open Lib Lib.Machine

/-! ## Stages -/

/-- How far a thread is in `reconnect`. -/
inductive Stage where
  | closing
  | creating
  | created (newSession : Nat)
  | configuring
  | storing
  | waiting
  | done (result : Bool)
  | elsewhere
  deriving DecidableEq, Repr

def Pc.stage : Pc → Stage
  | .storeClosed .reconnect | .notifyOne .reconnect | .closedCallback .reconnect | .reset =>
    .closing
  | .createSession => .creating
  | .assign newSession => .created newSession
  | .configureSession => .configuring
  | .storeNotOpen => .storing
  | .lock .reconnect | .test .reconnect | .block .reconnect | .blocked .reconnect
  | .relock .reconnect _ | .lateTest .reconnect | .read .reconnect => .waiting
  | .unlock .reconnect result | .returned result => .done result
  | _ => .elsewhere

/-- The next statement writes the status or the session. -/
def Pc.touches : Pc → Bool
  | .storeClosed _ | .reset | .assign _ | .configureSession | .storeNotOpen | .shutdown => true
  | _ => false

/-- Of the events that touch the connection only the statements of `t` happen, and the
`on_connect` of the session it has configured, before it reads the status for the last time. -/
def Undisturbed (t : Thread) (c : Connection) : ConnectionEvent → Prop
  | .call t' op => t' ≠ t ∧ (op = .waitToBeConnected ∨ op = .waitToBeDisconnected)
  | .onConnect sid =>
    c.session = some sid ∧ ((c.pcs t).stage = .storing ∨ (c.pcs t).stage = .waiting)
  | .onError _ => False
  | .step t' => t' = t ∨ (c.pcs t').touches = false
  | .create t' _ => t' = t
  | .notify .. | .wake .. => True

/-- No `on_connect` runs between `configureSession` and the store of `NOT_OPEN`. -/
def NotEarly (t : Thread) (c : Connection) : ConnectionEvent → Prop
  | .onConnect _ => (c.pcs t).stage ≠ .storing
  | _ => True

instance decidableUndisturbed (t : Thread) (c : Connection) (e : ConnectionEvent) :
    Decidable (Undisturbed t c e) :=
  match e with
  | .call .. | .onConnect _ => inferInstanceAs (Decidable (_ ∧ (_ ∨ _)))
  | .step _ => inferInstanceAs (Decidable (_ ∨ _))
  | .create .. => inferInstanceAs (Decidable (_ = _))
  | .onError _ => isFalse id
  | .notify .. | .wake .. => isTrue trivial

instance decidableNotEarly (t : Thread) (c : Connection) (e : ConnectionEvent) :
    Decidable (NotEarly t c e) :=
  match e with
  | .onConnect _ => inferInstanceAs (Decidable (_ ≠ _))
  | .call .. | .onError _ | .step _ | .create .. | .notify .. | .wake .. => isTrue trivial

/-! ## What the stages say -/

/-- What the stage of the reconnecting thread says about the session and the result. -/
def Reconnecting (t : Thread) (c : Connection) : Prop :=
  match (c.pcs t).stage with
  | .closing => True
  | .creating => c.session = none
  | .created sid => c.sessions sid = {}
  | .configuring => ∃ sid, c.session = some sid ∧ c.sessions sid = {}
  | .storing | .waiting => ∃ sid, c.session = some sid
  | .done result => ∀ sid, c.session = some sid → result = decide (c.status = .opened)
  | .elsewhere => False

/-- The connect event is not lost: it has not run before the store of `NOT_OPEN`, and once it has
run after it the status says so. -/
def NotLost (t : Thread) (c : Connection) : Prop :=
  match (c.pcs t).stage with
  | .storing => ∀ sid, c.session = some sid → (c.sessions sid).connected = false
  | .waiting | .done _ =>
    ∀ sid, c.session = some sid → (c.sessions sid).connected = true → c.status = .opened
  | _ => True

section step

variable {c c' : Connection} {t t' : Thread} {e : ConnectionEvent}

/-- Both depend on the stage and the members only. -/
theorem stage_congr (hstage : (c'.pcs t).stage = (c.pcs t).stage)
    (hmembers : c'.status = c.status ∧ c'.session = c.session ∧ c'.sessions = c.sessions) :
    (Reconnecting t c → Reconnecting t c') ∧ (NotLost t c' ↔ NotLost t c) := by
  obtain ⟨hstatus, hsession, hsessions⟩ := hmembers
  unfold Reconnecting NotLost
  rw [hstage, hstatus, hsession, hsessions]
  exact ⟨id, Iff.rfl⟩

/-- A statement that does not touch the connection. -/
theorem members_step (h : (c.pcs t).touches = false) : (c.step t).status = c.status ∧
    (c.step t).session = c.session ∧ (c.step t).sessions = c.sessions := by
  rw [status_step, session_step, sessions_step]
  cases hp : c.pcs t <;> simp_all [Pc.touches]

/-- The events that only move program counters keep the stage of a reconnecting thread. -/
theorem stage_next_of_quiet (hquiet : e.isQuiet = true) (hcall : ∀ op, e ≠ .call t op)
    (hen : c.Enabled e) (hstage : (c.pcs t).stage ≠ .elsewhere) :
    ((c.next e).pcs t).stage = (c.pcs t).stage := by
  cases e with
  | call t' op =>
    have ht : t ≠ t' := by
      rintro rfl
      exact hcall op rfl
    simp [Connection.next, ht]
  | notify t' woken =>
    by_cases ht : t = t'
    · subst ht
      simp only [Connection.next]
      cases hp : c.pcs t with
      | notifyOne after => cases after <;> simp_all [Pc.stage]
      | connectNotifyOne => simp [hp, Pc.stage] at hstage
      | _ => exact absurd hen.1 (by simp [hp, Pc.notifies])
    · have hnext : ∀ pc, ((c.notifyOne woken).goto t' pc).pcs t = (c.notifyOne woken).pcs t := by
        simp [ht]
      have hwoken : ((c.notifyOne woken).pcs t).stage = (c.pcs t).stage := by
        rcases pcs_notifyOne c woken t with hsame | ⟨w, hw, hw'⟩
        · rw [hsame]
        · rw [hw, hw']
          cases w <;> rfl
      simp only [Connection.next]
      split <;> rw [hnext, hwoken]
  | wake t' timedOut =>
    simp only [Connection.next]
    by_cases ht : t = t'
    · subst ht
      split
      · next w hw =>
        rw [hw]
        cases w <;> simp [Pc.stage]
      · rfl
    · split <;> simp [ht]
  | _ => simp [ConnectionEvent.isQuiet] at hquiet

/-- **A statement of the reconnecting thread.** -/
theorem reconnecting_step (h : Reconnecting t c) (hcan : c.CanStep t) :
    Reconnecting t (c.step t) ∧ (NotLost t (c.step t) ↔ NotLost t c) := by
  unfold Connection.CanStep at hcan
  cases hp : c.pcs t with
  | storeClosed after =>
    cases after <;> simp_all [Reconnecting, NotLost, Connection.step, Pc.stage]
  | closedCallback after =>
    cases after <;> simp_all [Reconnecting, NotLost, Connection.step, Pc.stage, After.entry]
  | reset => simp [Reconnecting, NotLost, Connection.step, Pc.stage, hp]
  | assign newSession =>
    have hfresh : c.sessions newSession = {} := by simpa [Reconnecting, hp, Pc.stage] using h
    simp [Reconnecting, NotLost, Connection.step, Pc.stage, hp, hfresh]
  | configureSession =>
    have hconf : ∃ sid, c.session = some sid ∧ c.sessions sid = {} := by
      simpa [Reconnecting, hp, Pc.stage] using h
    obtain ⟨sid, hsid, hfresh⟩ := hconf
    simp [Reconnecting, NotLost, Connection.step, Pc.stage, hp, hsid, hfresh]
  | storeNotOpen =>
    have hsession : ∃ sid, c.session = some sid := by simpa [Reconnecting, hp, Pc.stage] using h
    simp [Reconnecting, NotLost, Connection.step, Pc.stage, hp, hsession]
  | lock w => cases w <;> simp_all [Reconnecting, NotLost, Connection.step, Pc.stage]
  | test w =>
    by_cases hpred : w.predicate c.status = true
    · cases w <;> simp_all [Reconnecting, NotLost, Connection.step, Pc.stage, Wait.leave]
    · cases w <;> simp_all [Reconnecting, NotLost, Connection.step, Pc.stage]
  | block w => cases w <;> simp_all [Reconnecting, NotLost, Connection.step, Pc.stage]
  | relock w timedOut =>
    cases w <;> cases timedOut <;> simp_all [Reconnecting, NotLost, Connection.step, Pc.stage]
  | lateTest w =>
    cases w <;> simp_all [Reconnecting, NotLost, Connection.step, Pc.stage, Wait.leave]
  | read w => cases w <;> simp_all [Reconnecting, NotLost, Connection.step, Pc.stage]
  | unlock w result => cases w <;> simp_all [Reconnecting, NotLost, Connection.step, Pc.stage]
  | _ => simp_all [Reconnecting, Pc.stage]

theorem Reconnecting.not_elsewhere (h : Reconnecting t c) : (c.pcs t).stage ≠ .elsewhere := by
  intro hstage
  simp [Reconnecting, hstage] at h

/-- The `on_connect` of the new session, run by a thread that is not the reconnecting one. -/
theorem reconnecting_onConnect {sid : Nat} (h : Reconnecting t c) (hen : c.Enabled (.onConnect sid))
    (hsid : c.session = some sid)
    (hstage : (c.pcs t).stage = .storing ∨ (c.pcs t).stage = .waiting) :
    Reconnecting t (c.next (.onConnect sid)) ∧
      (NotLost t (c.next (.onConnect sid)) ↔ NotLost t c ∧ (c.pcs t).stage ≠ .storing) := by
  have hio : t ≠ .io := by
    rintro rfl
    have hready := hen.1
    cases hp : c.pcs .io <;> simp_all [Pc.ready, Pc.stage]
  have hfresh : (c.sessions sid).connected = false := hen.2.2.2.1
  have hpc : (c.next (.onConnect sid)).pcs t = c.pcs t := by simp [Connection.next, hio]
  unfold Reconnecting NotLost
  rw [hpc]
  rcases hstage with hstage | hstage <;>
    simp [hstage, Connection.next, hsid, hfresh]

/-- **One event of an undisturbed reconnection**: the stages say what they say, and the connect
event is lost exactly by an early `on_connect`. -/
theorem reconnecting_next (h : Reconnecting t c) (hen : c.Enabled e) (hund : Undisturbed t c e) :
    Reconnecting t (c.next e) ∧ (NotLost t (c.next e) ↔ NotLost t c ∧ NotEarly t c e) := by
  -- events that change neither the stage nor the members change nothing
  have hframe (hstage : ((c.next e).pcs t).stage = (c.pcs t).stage)
      (hmembers : (c.next e).status = c.status ∧ (c.next e).session = c.session ∧
        (c.next e).sessions = c.sessions) (hearly : NotEarly t c e) :
      Reconnecting t (c.next e) ∧ (NotLost t (c.next e) ↔ NotLost t c ∧ NotEarly t c e) := by
    obtain ⟨hrec, hlost⟩ := stage_congr hstage hmembers
    exact ⟨hrec h, hlost.trans (and_iff_left hearly).symm⟩
  have hquiet (hq : e.isQuiet = true) (hcall : ∀ op, e ≠ .call t op) (hearly : NotEarly t c e) :
      Reconnecting t (c.next e) ∧ (NotLost t (c.next e) ↔ NotLost t c ∧ NotEarly t c e) := by
    obtain ⟨hstatus, hsession, hsessions, -⟩ := members_next_of_quiet c hq
    exact hframe (stage_next_of_quiet hq hcall hen h.not_elsewhere)
      ⟨hstatus, hsession, hsessions⟩ hearly
  cases e with
  | call t' op =>
    refine hquiet rfl ?_ trivial
    rintro op' heq
    exact hund.1 (ConnectionEvent.call.inj heq).1
  | notify t' woken => exact hquiet rfl (by simp) trivial
  | wake t' timedOut => exact hquiet rfl (by simp) trivial
  | onConnect sid => exact reconnecting_onConnect h hen hund.1 hund.2
  | onError sid => exact hund.elim
  | step t' =>
    by_cases ht : t' = t
    · subst ht
      obtain ⟨hrec, hlost⟩ := reconnecting_step h hen
      exact ⟨hrec, hlost.trans (and_iff_left trivial).symm⟩
    · have hpc : (c.next (.step t')).pcs t = c.pcs t := pcs_step_ne c t' (Ne.symm ht)
      exact hframe (by rw [hpc]) (members_step (hund.resolve_left ht)) trivial
  | create t' created =>
    obtain rfl : t' = t := hund
    -- without a session there is nothing to lose, and a new session has not connected
    have hpc : c.pcs t' = .createSession := hen
    have hnone : c.session = none := by simpa [Reconnecting, hpc, Pc.stage] using h
    cases created <;>
      simp [Reconnecting, NotLost, Connection.next, Pc.stage, hpc, hnone, NotEarly]

end step

/-! ## Whole reconnections -/

/-- **Reconnection keeps the connect event exactly if it is not early.** A thread calls
`reconnect` on a connection that nothing else touches, and it returns after the `on_connect` of
the new session has run before the last read of the status: it returns true with the status
`OPEN` if and only if `on_connect` did not run between `configureSession` and the store of
`NOT_OPEN`. -/
theorem reconnect_connected_iff (c : Connection) (t : Thread) (es : List ConnectionEvent)
    (result : Bool) (hrun : connection.Run c (.call t .reconnect :: es))
    (hund : connection.Along (Undisturbed t) (c.next (.call t .reconnect)) es)
    (hreturned : (connection.after (c.next (.call t .reconnect)) es).pcs t = .returned result)
    (hconnected : ∃ sid, (connection.after (c.next (.call t .reconnect)) es).session = some sid ∧
      ((connection.after (c.next (.call t .reconnect)) es).sessions sid).connected = true) :
    (result = true ∧ (connection.after (c.next (.call t .reconnect)) es).status = .opened) ↔
      connection.Along (NotEarly t) (c.next (.call t .reconnect)) es := by
  have hstart : Reconnecting t (c.next (.call t .reconnect)) ∧
      NotLost t (c.next (.call t .reconnect)) := by
    simp [Reconnecting, NotLost, Connection.next, Op.entry, Pc.stage]
  have hrec := invariant_along (I := Reconnecting t)
    (fun _ _ h he => (reconnecting_next h he.1 he.2).1) hstart.1 (Along.and hrun.2 hund)
  have hexact := exact_along (I := Reconnecting t) (G := NotLost t) (P := NotEarly t)
    (fun _ _ h he => (reconnecting_next h he.1 he.2).1)
    (fun _ _ h he => (reconnecting_next h he.1 he.2).2) hstart.1 (Along.and hrun.2 hund)
  obtain ⟨sid, hsid, hconn⟩ := hconnected
  have hresult : result = decide ((connection.after (c.next (.call t .reconnect)) es).status
      = .opened) := by
    have hdone := hrec
    simp only [Reconnecting, hreturned, Pc.stage] at hdone
    exact hdone sid hsid
  have hkept : NotLost t (connection.after (c.next (.call t .reconnect)) es) ↔
      (connection.after (c.next (.call t .reconnect)) es).status = .opened := by
    simp [NotLost, hreturned, Pc.stage, hsid, hconn]
  calc (result = true ∧ (connection.after (c.next (.call t .reconnect)) es).status = .opened)
      ↔ (connection.after (c.next (.call t .reconnect)) es).status = .opened := by simp [hresult]
    _ ↔ NotLost t (connection.after (c.next (.call t .reconnect)) es) := hkept.symm
    _ ↔ connection.Along (NotEarly t) (c.next (.call t .reconnect)) es :=
      hexact.trans (and_iff_right hstart.2)

/-- The statements of a reconnection of an application thread up to the registration of the
callbacks. -/
def upToConfigured : List ConnectionEvent :=
  [.step (.app 0), .notify (.app 0) none, .step (.app 0), .step (.app 0), .create (.app 0) true,
    .step (.app 0), .step (.app 0)]

/-- The new session connects while the thread waits, and wakes it. -/
theorem reconnect_connected_waiting :
    let c := (Connection.start false).next (.call (.app 0) .reconnect)
    let es := upToConfigured ++ [.step (.app 0), .step (.app 0), .step (.app 0), .step (.app 0),
      .onConnect 1, .notify .io (some (.app 0)), .step (.app 0), .step (.app 0), .step (.app 0),
      .step (.app 0)]
    (connection.after c es).status = .opened :=
  ((reconnect_connected_iff (.start false) (.app 0) _ true (by decide) (by decide)
    (by decide) ⟨1, by decide, by decide⟩).mpr (by decide)).2

/-- **An early `on_connect` is lost.** It runs between `configureSession` and the store of
`NOT_OPEN`; the wait times out and `reconnect` returns false with the session connected. -/
theorem early_connect_is_lost :
    ¬∀ (c : Connection) (t : Thread) (es : List ConnectionEvent) (result : Bool),
      connection.Run c (.call t .reconnect :: es) →
      connection.Along (Undisturbed t) (c.next (.call t .reconnect)) es →
      (connection.after (c.next (.call t .reconnect)) es).pcs t = .returned result →
      (∃ sid, (connection.after (c.next (.call t .reconnect)) es).session = some sid ∧
        ((connection.after (c.next (.call t .reconnect)) es).sessions sid).connected = true) →
      result = true ∧ (connection.after (c.next (.call t .reconnect)) es).status = .opened := by
  intro h
  have hlost := h (.start false) (.app 0) (upToConfigured ++ [.onConnect 1, .notify .io none,
    .step (.app 0), .step (.app 0), .step (.app 0), .step (.app 0), .wake (.app 0) true,
    .step (.app 0), .step (.app 0), .step (.app 0), .step (.app 0)]) false (by decide)
    (by decide) (by decide) ⟨1, by decide, by decide⟩
  exact absurd hlost.1 (by decide)

end Http2Comm.Client
