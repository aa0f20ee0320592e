import Http2Comm.Client.Exclusive

/-!
# The pointer to the session

`session_` is a plain `unique_ptr`, which `Http2Connection::reconnect` resets and assigns with no
lock, and `configureSession` dereferences it. Two threads inside the connection's `reconnect` can
therefore meet: one has reset the pointer that the other has just assigned, and the other
configures a null pointer (the example at the end). `Http2Client` is what keeps them apart. In
every run of a client a thread configures the very session that it has created, the newest one and
one not configured before, and the pointer never comes to rest on a session without callbacks.
-/

set_option autoImplicit false

namespace Http2Comm.Client

open Lib Lib.Machine

/-- The thread is between the reset of the pointer and the end of `configureSession`. -/
def Pc.swaps : Pc → Bool
  | .reset | .createSession | .assign _ | .configureSession => true
  | _ => false

/-- The thread that the event is of. -/
def ConnectionEvent.thread : ConnectionEvent → Thread
  | .call t _ | .step t | .create t _ | .notify t _ | .wake t _ => t
  | .onConnect _ | .onError _ => .io

section step

variable {c : Connection} {e : ConnectionEvent} {t : Thread}

/-! ## What an event does to a thread -/

/-- An event moves its own thread, and the one that it notifies. -/
theorem pcs_next_ne (c : Connection) (h : t ≠ e.thread) : (c.next e).pcs t = c.pcs t ∨
    ∃ w, e = .notify e.thread (some t) ∧ c.pcs t = .blocked w ∧
      (c.next e).pcs t = .relock w false := by
  cases e with
  | step t' => exact Or.inl (pcs_step_ne c t' h)
  | create t' created =>
    exact Or.inl (by cases created <;> simp [Connection.next, show t ≠ t' from h])
  | notify t' woken =>
    have hnext : (c.next (.notify t' woken)).pcs t = (c.notifyOne woken).pcs t := by
      simp only [Connection.next]
      split <;> simp [show t ≠ t' from h]
    rw [hnext]
    unfold Connection.notifyOne
    cases woken with
    | none => exact Or.inl rfl
    | some t'' =>
      by_cases ht : t = t''
      · subst ht
        cases hp : c.pcs t <;> simp [hp, ConnectionEvent.thread]
      · left
        simp only
        split <;> simp [ht]
  | wake t' timedOut =>
    left
    simp only [Connection.next]
    split <;> simp [show t ≠ t' from h]
  | _ => exact Or.inl (by simp_all [Connection.next, ConnectionEvent.thread])

/-- Where an event leaves a thread of the connection: as it is, at the beginning of a call or of a
handler, one statement further, past the answer of `createSession` or of `notify_one`, or
awake. -/
inductive PcMoves (t : Thread) (c : Connection) (e : ConnectionEvent) : Prop where
  | stays (hpc : (c.next e).pcs t = c.pcs t)
  | calls (op : Op) (he : e = .call t op) (hbefore : (c.pcs t).ready = true)
    (hafter : (c.next e).pcs t = op.entry)
  | delivers (hbefore : (c.pcs t).ready = true)
    (hafter : (c.next e).pcs t = .connectNotifyOne ∨ (c.next e).pcs t = .notifyOne .return)
  | steps (he : e = .step t)
  | creates (created : Bool) (he : e = .create t created)
  | notifies (woken : Option Thread) (he : e = .notify t woken)
    (hafter : (c.next e).pcs t = .idle ∨ ∃ after, (c.next e).pcs t = .closedCallback after)
  | wakes (w : Wait) (timedOut : Bool) (hbefore : c.pcs t = .blocked w)
    (hafter : (c.next e).pcs t = .relock w timedOut)

theorem pcMoves_next (t : Thread) (hen : c.Enabled e) : PcMoves t c e := by
  by_cases ht : t = e.thread
  · subst ht
    cases e with
    | call t op => exact .calls op rfl hen.1 (by simp [Connection.next, ConnectionEvent.thread])
    | onConnect sid => exact .delivers hen.1 (by simp [Connection.next, ConnectionEvent.thread])
    | onError sid => exact .delivers hen.1 (by simp [Connection.next, ConnectionEvent.thread])
    | step t => exact .steps rfl
    | create t created => exact .creates created rfl
    | notify t woken =>
      refine .notifies woken rfl ?_
      simp only [Connection.next]
      split <;> simp [ConnectionEvent.thread]
    | wake t timedOut =>
      have hblocked : (c.pcs t).isBlocked = true := hen
      cases hp : c.pcs t with
      | blocked w =>
        exact .wakes w timedOut hp (by simp [Connection.next, ConnectionEvent.thread, hp])
      | _ => simp [hp, Pc.isBlocked] at hblocked
  · rcases pcs_next_ne c ht with hpc | ⟨w, -, hblocked, hwoken⟩
    · exact .stays hpc
    · exact .wakes w false hblocked hwoken

/-- A thread comes to swap the pointer, and goes on, by its own statements and `createSession`. -/
theorem swaps_next (hen : c.Enabled e) (hstep : e ≠ .step t)
    (hcreate : ∀ created, e ≠ .create t created)
    (hswaps : (c.pcs t).swaps = true ∨ ((c.next e).pcs t).swaps = true) :
    (c.next e).pcs t = c.pcs t := by
  cases pcMoves_next t hen with
  | stays hpc => exact hpc
  | steps he => exact absurd he hstep
  | calls op _ hbefore hafter =>
    rw [hafter] at hswaps
    cases hp : c.pcs t <;> cases op <;> simp_all [Pc.swaps, Pc.ready, Op.entry]
  | delivers hbefore hafter =>
    cases hp : c.pcs t <;> rcases hafter with hafter | hafter <;>
      simp_all [Pc.swaps, Pc.ready]
  | creates created he => exact absurd he (hcreate created)
  | notifies woken he hafter =>
    subst he
    have hnotifies := hen.1
    rcases hafter with hafter | ⟨after, hafter⟩
    · cases hp : c.pcs t <;> simp_all [Pc.swaps, Pc.notifies]
    · cases hp : c.pcs t <;> simp_all [Pc.swaps, Pc.notifies]
  | wakes w timedOut hbefore hafter => simp [hbefore, hafter, Pc.swaps] at hswaps

/-- The statements that lead a thread into and through the swap. -/
theorem swaps_step (hcan : c.CanStep t) (h : ((c.step t).pcs t).swaps = true) :
    (c.step t).pcs t = .reset ∨ (c.step t).pcs t = .createSession ∨
      ((c.step t).pcs t = .configureSession ∧ ∃ n, c.pcs t = .assign n) := by
  unfold Connection.CanStep at hcan
  rw [pcs_step] at h ⊢
  cases hp : c.pcs t with
  | closedCallback after => cases after <;> simp_all [Pc.swaps, After.entry]
  | test w =>
    rw [hp] at h
    simp only at h
    split at h <;> cases w <;> simp [Wait.leave, Pc.swaps] at h
  | lateTest w => cases w <;> simp_all [Pc.swaps, Wait.leave]
  | relock w timedOut => cases timedOut <;> simp_all [Pc.swaps]
  | _ => simp_all [Pc.swaps]

/-- A thread comes to `assign` by its `createSession`. -/
theorem assign_next {n : Nat} (hen : c.Enabled e) (h : (c.next e).pcs t = .assign n) :
    c.pcs t = .assign n ∨ (e = .create t true ∧ n = c.nextSession) := by
  cases pcMoves_next t hen with
  | stays hpc => exact Or.inl (hpc.symm.trans h)
  | steps he =>
    subst he
    have hstep : (c.step t).pcs t = .assign n := h
    have hinto := swaps_step hen (t := t) (by rw [hstep]; rfl)
    simp [hstep] at hinto
  | calls op _ _ hafter => cases op <;> simp [h, Op.entry] at hafter
  | delivers _ hafter => simp [h] at hafter
  | creates created he =>
    subst he
    cases created with
    | true =>
      refine Or.inr ⟨rfl, ?_⟩
      simpa [Connection.next, eq_comm] using h
    | false => simp [Connection.next] at h
  | notifies woken _ hafter => simp [h] at hafter
  | wakes w timedOut _ hafter => simp [hafter] at h

/-- A thread comes to `configureSession` by its `assign`. -/
theorem configure_next (hen : c.Enabled e) (h : (c.next e).pcs t = .configureSession) :
    c.pcs t = .configureSession ∨ (e = .step t ∧ ∃ n, c.pcs t = .assign n) := by
  cases pcMoves_next t hen with
  | stays hpc => exact Or.inl (hpc.symm.trans h)
  | steps he =>
    subst he
    have hstep : (c.step t).pcs t = .configureSession := h
    have hinto := swaps_step hen (t := t) (by rw [hstep]; rfl)
    simp only [hstep, reduceCtorEq, true_and, false_or] at hinto
    exact Or.inr ⟨rfl, hinto⟩
  | calls op _ _ hafter => cases op <;> simp [h, Op.entry] at hafter
  | delivers _ hafter => simp [h] at hafter
  | creates created he =>
    subst he
    cases created <;> simp [Connection.next] at h
  | notifies woken _ hafter => simp [h] at hafter
  | wakes w timedOut _ hafter => simp [hafter] at h

/-! ## The pointer -/

/-- Who swaps the pointer has created the newest session, and nobody has configured it. -/
structure Pointed (c : Connection) : Prop where
  bounded : ∀ sid, c.session = some sid → sid < c.nextSession
  assigning : ∀ t n, c.pcs t = .assign n →
    n + 1 = c.nextSession ∧ (c.sessions n).configured = false
  configuring : ∀ t, c.pcs t = .configureSession → ∃ sid, c.session = some sid ∧
    sid + 1 = c.nextSession ∧ (c.sessions sid).configured = false
  rests : ∀ sid, c.session = some sid →
    (c.sessions sid).configured = true ∨ ∃ t, c.pcs t = .configureSession

/-- One thread swaps the pointer at a time. -/
def Connection.SwapsAlone (c : Connection) : Prop :=
  ∀ t t', (c.pcs t).swaps = true → (c.pcs t').swaps = true → t' = t

theorem pointed_start (closedCallbackSet : Bool) : Pointed (.start closedCallbackSet) where
  bounded := by simp [Connection.start]
  assigning := by simp [Connection.start]
  configuring := by simp [Connection.start]
  rests := by simp [Connection.start]

/-- Only `configureSession` registers callbacks. -/
theorem configured_step (n : Nat) : ((c.step t).sessions n).configured =
    if c.pcs t = .configureSession ∧ c.session = some n then true
    else (c.sessions n).configured := by
  rw [sessions_step]
  cases hp : c.pcs t with
  | configureSession =>
    cases hs : c.session with
    | none => simp
    | some sid => by_cases hn : n = sid <;> simp [hn, eq_comm]
  | shutdown =>
    cases hs : c.session with
    | none => simp
    | some sid => by_cases hn : n = sid <;> simp [hn]
  | _ => simp

theorem pointed_step (h : Pointed c) (halone : c.SwapsAlone) (hcan : c.CanStep t) :
    Pointed (c.step t) where
  bounded sid hsid := by
    rw [session_step] at hsid
    rw [nextSession_step]
    cases hp : c.pcs t with
    | assign n =>
      obtain rfl : n = sid := by simpa [hp] using hsid
      have hnewest := (h.assigning t n hp).1
      omega
    | reset => simp [hp] at hsid
    | _ => exact h.bounded sid (by simpa [hp] using hsid)
  assigning t' n hassign := by
    rcases assign_next (e := .step t) hcan hassign with hbefore | ⟨he, -⟩
    · obtain ⟨hnewest, hconfigured⟩ := h.assigning t' n hbefore
      rw [nextSession_step, configured_step]
      refine ⟨hnewest, ?_⟩
      rw [if_neg, hconfigured]
      rintro ⟨hp, -⟩
      -- the two threads are one, which is not at two statements
      obtain rfl := halone t t' (by rw [hp]; rfl) (by rw [hbefore]; rfl)
      simp [hp] at hbefore
    · cases he
  configuring t' hconfigure := by
    rw [nextSession_step, session_step]
    rcases configure_next (e := .step t) hcan hconfigure with hbefore | ⟨he, n, hassign⟩
    · obtain ⟨sid, hsid, hnewest, hconfigured⟩ := h.configuring t' hbefore
      have hother : (c.pcs t).swaps = false := by
        by_contra hswaps
        obtain rfl := halone t t' (by simpa using hswaps) (by rw [hbefore]; rfl)
        have hstep : (c.step t').pcs t' = .configureSession := hconfigure
        rw [pcs_step, hbefore] at hstep
        simp [hsid] at hstep
      refine ⟨sid, ?_, hnewest, ?_⟩
      · cases hp : c.pcs t <;> simp_all [Pc.swaps]
      · rw [configured_step, if_neg, hconfigured]
        rintro ⟨hp, -⟩
        simp [hp, Pc.swaps] at hother
    · obtain rfl : t = t' := by simpa using he
      obtain ⟨hnewest, hconfigured⟩ := h.assigning t n hassign
      exact ⟨n, by simp [hassign], hnewest, by simp [configured_step, hassign, hconfigured]⟩
  rests sid hsid := by
    rw [configured_step]
    rw [session_step] at hsid
    cases hp : c.pcs t with
    | reset => simp [hp] at hsid
    | assign n =>
      right
      exact ⟨t, by simp [pcs_step, hp]⟩
    | configureSession =>
      left
      simp_all
    | _ =>
      have hsame : c.session = some sid := by simpa [hp] using hsid
      rcases h.rests sid hsame with hconfigured | ⟨t', hconfigure⟩
      · left
        simp [hconfigured]
      · right
        refine ⟨t', ?_⟩
        rw [pcs_step_ne c t (by rintro rfl; simp [hp] at hconfigure)]
        exact hconfigure

/-- What registers no callback, creates no session and moves no thread that swaps the pointer
leaves it as it is. -/
theorem pointed_kept {c' : Connection} (h : Pointed c) (hsession : c'.session = c.session)
    (hnewest : c'.nextSession = c.nextSession)
    (hconfigured : ∀ n, (c'.sessions n).configured = (c.sessions n).configured)
    (hpcs : ∀ t, (c.pcs t).swaps = true ∨ (c'.pcs t).swaps = true → c'.pcs t = c.pcs t) :
    Pointed c' where
  bounded sid hsid := by
    rw [hnewest]
    exact h.bounded sid (hsession ▸ hsid)
  assigning t n hassign := by
    have hsame := hpcs t (Or.inr (by rw [hassign]; rfl))
    rw [hnewest, hconfigured]
    exact h.assigning t n (hsame.symm.trans hassign)
  configuring t hconfigure := by
    have hsame := hpcs t (Or.inr (by rw [hconfigure]; rfl))
    obtain ⟨sid, hsid, hsidnewest, hunconfigured⟩ :=
      h.configuring t (hsame.symm.trans hconfigure)
    rw [hsession, hnewest]
    exact ⟨sid, hsid, hsidnewest, (hconfigured sid).trans hunconfigured⟩
  rests sid hsid := by
    rw [hconfigured]
    refine (h.rests sid (hsession ▸ hsid)).imp_right ?_
    rintro ⟨t, hconfigure⟩
    exact ⟨t, (hpcs t (Or.inl (by rw [hconfigure]; rfl))).trans hconfigure⟩

/-- A call from outside a swap. -/
theorem pointed_call (h : Pointed c) (hpc : (c.pcs t).swaps = false) (op : Op) :
    Pointed (c.next (.call t op)) := by
  refine pointed_kept h rfl rfl (fun _ => rfl) fun t' hswaps => ?_
  by_cases ht : t' = t
  · subst ht
    have hafter : ((c.next (.call t' op)).pcs t').swaps = false := by
      cases op <;> simp [Connection.next, Op.entry, Pc.swaps]
    simp [hpc, hafter] at hswaps
  · simp [Connection.next, ht]

theorem pointed_create {created : Bool} (h : Pointed c) (halone : c.SwapsAlone)
    (hpc : c.pcs t = .createSession) : Pointed (c.next (.create t created)) := by
  have hen : c.Enabled (.create t created) := hpc
  have hother (t' : Thread) (hswaps : (c.pcs t').swaps = true) : t' = t :=
    halone t t' (by rw [hpc]; rfl) hswaps
  constructor
  · intro sid hsid
    have hbefore : sid < c.nextSession := h.bounded sid (by cases created <;> exact hsid)
    cases created with
    | true => exact Nat.lt_succ_of_lt hbefore
    | false => exact hbefore
  · intro t' n hassign
    rcases assign_next hen hassign with hbefore | ⟨he, rfl⟩
    · obtain rfl := hother t' (by rw [hbefore]; rfl)
      simp [hpc] at hbefore
    · obtain ⟨-, rfl⟩ : t = t' ∧ created = true := by simpa using he
      simp [Connection.next]
  · intro t' hconfigure
    rcases configure_next hen hconfigure with hbefore | ⟨he, -⟩
    · obtain rfl := hother t' (by rw [hbefore]; rfl)
      simp [hpc] at hbefore
    · cases he
  · intro sid hsid
    have hsame : c.session = some sid := by cases created <;> exact hsid
    have hne : sid ≠ c.nextSession := Nat.ne_of_lt (h.bounded sid hsame)
    rcases h.rests sid hsame with hconfigured | ⟨t', hconfigure⟩
    · left
      cases created with
      | true => simpa [Connection.next, hne] using hconfigured
      | false => exact hconfigured
    · obtain rfl := hother t' (by rw [hconfigure]; rfl)
      simp [hpc] at hconfigure

/-- **One event keeps the pointer.** -/
theorem pointed_next (h : Pointed c) (halone : c.SwapsAlone) (hen : c.Enabled e) :
    Pointed (c.next e) := by
  cases e with
  | step t => exact pointed_step h halone hen
  | create t created => exact pointed_create h halone hen
  | onConnect sid =>
    refine pointed_kept h rfl rfl (fun n => ?_) fun t => swaps_next hen (by simp) (by simp)
    by_cases hn : n = sid <;> simp [Connection.next, hn]
  | onError sid =>
    refine pointed_kept h rfl rfl (fun n => ?_) fun t => swaps_next hen (by simp) (by simp)
    by_cases hn : n = sid <;> simp [Connection.next, hn]
  | call t op =>
    exact pointed_kept h rfl rfl (fun _ => rfl) fun t => swaps_next hen (by simp) (by simp)
  | notify t woken =>
    obtain ⟨-, hsession, hsessions, hnewest⟩ :=
      members_next_of_quiet (e := .notify t woken) c rfl
    exact pointed_kept h hsession hnewest (fun n => by rw [hsessions])
      fun t => swaps_next hen (by simp) (by simp)
  | wake t timedOut =>
    obtain ⟨-, hsession, hsessions, hnewest⟩ :=
      members_next_of_quiet (e := .wake t timedOut) c rfl
    exact pointed_kept h hsession hnewest (fun n => by rw [hsessions])
      fun t => swaps_next hen (by simp) (by simp)

/-! ## The client -/

/-- The client's mutex keeps the swaps apart. -/
theorem Exclusive.swapsAlone {s : ClientState} (h : Exclusive s) : s.connection.SwapsAlone := by
  intro t t' hswaps hswaps'
  have hreconnecting {t : Thread} (hswaps : (s.connection.pcs t).swaps = true) :
      (s.pcs t).isReconnecting = true := by
    by_contra hoff
    have hin := h.outside t (by simpa using hoff)
    cases hp : s.connection.pcs t <;> simp_all [Pc.swaps, Pc.inHandler]
  by_contra hne
  have hoff := h.alone (hreconnecting hswaps) hne
  rw [hreconnecting hswaps'] at hoff
  cases hoff

theorem pointed_clientNext {s : ClientState} {e : ClientEvent} (h : Pointed s.connection)
    (hexclusive : Exclusive s) (hen : s.Enabled e) : Pointed (s.next e).connection := by
  cases connectionMoves_next hen with
  | stays _ hconn =>
    rw [hconn]
    exact h
  | moves e' he hen' _ =>
    subst he
    exact pointed_next h hexclusive.swapsAlone hen'
  | fails he hidle =>
    subst he
    have hready : s.connection.Enabled (.call .io .notifyClose) :=
      ⟨hidle.2.1, fun _ => hidle.2.2⟩
    exact pointed_next h hexclusive.swapsAlone hready
  | reconnects t nested he hpc hconn =>
    rw [hconn]
    -- the thread is in no reconnect yet, so it has no part in a swap
    have hin := hexclusive.outside t (by rw [hpc]; rfl)
    refine pointed_call h ?_ .reconnect
    cases hp : s.connection.pcs t <;> simp_all [Pc.swaps, Pc.inHandler]

end step

theorem pointed_run {closedCallbackSet : Bool} {es : List ClientEvent}
    (hrun : sending.Run (.start closedCallbackSet) es) :
    Pointed (sending.after (.start closedCallbackSet) es).connection := by
  refine history (H := fun _ s => Pointed s.connection) (pointed_start closedCallbackSet) ?_ hrun
  intro es e hprefix h hen
  exact pointed_clientNext h (exclusive_run hprefix) hen

/-- **The pointer to the session.** In every run of a client, a thread that configures the session
finds the pointer set, to the newest session, which nobody has configured; and a session that the
pointer is set to has its callbacks, or the thread that is about to register them. -/
theorem session_configured_once (closedCallbackSet : Bool) (es : List ClientEvent)
    (hrun : sending.Run (.start closedCallbackSet) es) :
    let c := (sending.after (.start closedCallbackSet) es).connection
    (∀ t, c.pcs t = .configureSession → ∃ sid, c.session = some sid ∧
      sid + 1 = c.nextSession ∧ (c.sessions sid).configured = false) ∧
    ∀ sid, c.session = some sid →
      (c.sessions sid).configured = true ∨ ∃ t, c.pcs t = .configureSession := by
  intro c
  have hpointed : Pointed c := pointed_run hrun
  exact ⟨hpointed.configuring, hpointed.rests⟩

/-- The second session, about to be configured. -/
theorem session_configured_once_second :
    let c := (sending.after (.start false) (lossAndSend.take 15)).connection
    ∃ sid, c.session = some sid ∧ sid + 1 = c.nextSession ∧
      (c.sessions sid).configured = false := by
  intro c
  exact (session_configured_once false (lossAndSend.take 15) (by decide)).1 (.app 0) (by decide)

/-- Without the client's mutex: two threads in the connection's `reconnect`. The second resets the
pointer that the first has assigned, and the first is at `configureSession` with none. -/
example :
    let reconnects (t : Thread) : List ConnectionEvent :=
      [.call t .reconnect, .step t, .notify t none, .step t]
    let es := reconnects (.app 0) ++ [.step (.app 0), .create (.app 0) true, .step (.app 0)] ++
      reconnects (.app 1) ++ [.step (.app 1)]
    let c := connection.after (.start false) es
    connection.Run (.start false) es ∧ c.pcs (.app 0) = .configureSession ∧ c.session = none := by
  decide

end Http2Comm.Client
