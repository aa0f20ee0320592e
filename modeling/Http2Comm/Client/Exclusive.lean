import Http2Comm.Client.AsyncSend

/-!
# One thread reconnects at a time

`Http2Client::reconnect` holds the client's mutex around `Http2Connection::reconnect`, and only
there does the client wait on the connection. So at most one thread is inside `reconnect`, every
other thread is in a handler or outside the connection, and the connection's own mutex is held by
a thread that its program counter says holds it (`Exclusive`).
-/

set_option autoImplicit false

namespace Http2Comm.Client

open Lib Lib.Machine

/-- The thread holds the client's mutex. -/
def SendPc.owns : SendPc → Bool
  | .lockedTest _ | .reconnecting _ | .unlock _ => true
  | _ => false

def SendPc.isReconnecting : SendPc → Bool
  | .reconnecting _ => true
  | _ => false

/-- The thread holds the connection's mutex. -/
def Pc.holds : Pc → Bool
  | .test _ | .block _ | .lateTest _ | .read _ | .unlock .. => true
  | _ => false

/-- Only the owner of the client's mutex reconnects, and only it waits on the connection. -/
structure Exclusive (s : ClientState) : Prop where
  owner : ∀ t, (s.pcs t).owns = true → s.mutex = some t
  outside : ∀ t, (s.pcs t).isReconnecting = false → (s.connection.pcs t).inHandler = true
  held : ∀ t, s.connection.mutex = some t → (s.connection.pcs t).holds = true

section step

variable {c : Connection} {s : ClientState} {t : Thread} {e : ConnectionEvent}

theorem exclusive_start (closedCallbackSet : Bool) : Exclusive (.start closedCallbackSet) where
  owner t h := by simp [ClientState.start, SendPc.owns] at h
  outside _ _ := rfl
  held t h := by simp [ClientState.start, Connection.start] at h

theorem ready_inHandler (h : (c.pcs t).ready = true) : (c.pcs t).inHandler = true := by
  cases hp : c.pcs t <;> simp_all [Pc.ready, Pc.inHandler]

theorem mutex_step : (c.step t).mutex =
    match c.pcs t with
    | .lock _ | .relock .. => some t
    | .block _ | .unlock .. => none
    | _ => c.mutex := by
  unfold Connection.step
  cases c.pcs t with
  | configureSession => cases c.session <;> rfl
  | shutdown => cases c.session <;> rfl
  | _ => rfl

/-- The mutex is held by the thread that its program counter says holds it. -/
theorem held_step {t : Thread} (h : ∀ t, c.mutex = some t → (c.pcs t).holds = true)
    (hcan : c.CanStep t) :
    ∀ t', (c.step t).mutex = some t' → ((c.step t).pcs t').holds = true := by
  intro t' hmutex
  rw [mutex_step] at hmutex
  by_cases ht : t' = t
  · subst ht
    have hholds := h t'
    unfold Connection.CanStep at hcan
    rw [pcs_step]
    cases hp : c.pcs t' with
    | test w =>
      simp only
      split <;> cases w <;> rfl
    | relock w timedOut => cases timedOut <;> rfl
    | lateTest w => cases w <;> rfl
    | _ => simp_all [Pc.holds]
  · rw [pcs_step_ne c t ht]
    refine h t' ?_
    cases hp : c.pcs t <;> simp_all

/-- `notify_one` takes the mutex from nobody. -/
theorem held_notifyOne (h : ∀ t, c.mutex = some t → (c.pcs t).holds = true)
    (woken : Option Thread) :
    ∀ t, (c.notifyOne woken).mutex = some t → ((c.notifyOne woken).pcs t).holds = true := by
  intro t hmutex
  have hsame : (c.notifyOne woken).mutex = c.mutex := by
    unfold Connection.notifyOne
    repeat' split
    all_goals rfl
  have hholds := h t (hsame ▸ hmutex)
  rcases pcs_notifyOne c woken t with hpc | ⟨w, hw, -⟩
  · rw [hpc]
    exact hholds
  · simp [hw, Pc.holds] at hholds

/-- A thread that does not hold the mutex moves, and the mutex stays. -/
theorem held_goto (h : ∀ t, c.mutex = some t → (c.pcs t).holds = true)
    (hpc : (c.pcs t).holds = false) (pc : Pc) :
    ∀ t', c.mutex = some t' → ((c.goto t pc).pcs t').holds = true := by
  intro t' hmutex
  have hholds := h t' hmutex
  have ht : t' ≠ t := by
    rintro rfl
    simp [hpc] at hholds
  simpa [ht] using hholds

theorem held_next (h : ∀ t, c.mutex = some t → (c.pcs t).holds = true) (hen : c.Enabled e) :
    ∀ t, (c.next e).mutex = some t → ((c.next e).pcs t).holds = true := by
  have hready {t : Thread} (hr : (c.pcs t).ready = true) : (c.pcs t).holds = false := by
    cases hp : c.pcs t <;> simp_all [Pc.ready, Pc.holds]
  cases e with
  | call t op => exact held_goto h (hready hen.1) _
  | onConnect sid => exact held_goto h (hready hen.1) _
  | onError sid => exact held_goto h (hready hen.1) _
  | step t => exact held_step h hen
  | create t created =>
    have hpc : (c.pcs t).holds = false := by
      rw [show c.pcs t = .createSession from hen]
      rfl
    cases created with
    | true => exact held_goto h hpc _
    | false => exact held_goto h hpc _
  | notify t woken =>
    have hpc : ((c.notifyOne woken).pcs t).holds = false := by
      rcases pcs_notifyOne c woken t with hsame | ⟨w, -, hw⟩
      · rw [hsame]
        have hnotifies := hen.1
        cases hp : c.pcs t <;> simp_all [Pc.notifies, Pc.holds]
      · rw [hw]
        rfl
    simp only [Connection.next]
    split <;> exact held_goto (held_notifyOne h woken) hpc _
  | wake t timedOut =>
    simp only [Connection.next]
    split
    · next w hw => exact held_goto h (by rw [hw]; rfl) _
    · exact h

/-! ## The client's steps -/

theorem inHandler_not_holds (h : (c.pcs t).inHandler = true) : (c.pcs t).holds = false := by
  cases hp : c.pcs t <;> simp_all [Pc.inHandler, Pc.holds]

/-- A thread of the client moves, and the client's mutex stays. -/
theorem Exclusive.goto {s' : ClientState} {pc : SendPc} (h : Exclusive s)
    (hpcs : s'.pcs = Function.update s.pcs t pc) (hmutex : s'.mutex = s.mutex)
    (howns : pc.owns = true → s.mutex = some t)
    (hout : ∀ t', t' ≠ t → (s.connection.pcs t').inHandler = true →
      (s'.connection.pcs t').inHandler = true)
    (hin : pc.isReconnecting = false → (s'.connection.pcs t).inHandler = true)
    (hheld : ∀ t', s'.connection.mutex = some t' → (s'.connection.pcs t').holds = true) :
    Exclusive s' := by
  refine ⟨?_, ?_, hheld⟩
  · intro t' hown
    rw [hpcs] at hown
    rw [hmutex]
    by_cases ht : t' = t
    · subst ht
      exact howns (by simpa using hown)
    · exact h.owner t' (by simpa [ht] using hown)
  · intro t' hoff
    rw [hpcs] at hoff
    by_cases ht : t' = t
    · subst ht
      exact hin (by simpa using hoff)
    · exact hout t' ht (h.outside t' (by simpa [ht] using hoff))

/-- The same when the connection stays too. -/
theorem Exclusive.move {s' : ClientState} {pc : SendPc} (h : Exclusive s)
    (hpcs : s'.pcs = Function.update s.pcs t pc) (hmutex : s'.mutex = s.mutex)
    (hconn : s'.connection = s.connection) (howns : pc.owns = true → s.mutex = some t)
    (hin : (s.connection.pcs t).inHandler = true) : Exclusive s' := by
  refine h.goto hpcs hmutex howns ?_ ?_ ?_
  · intro t' _ hin'
    rw [hconn]
    exact hin'
  · intro _
    rw [hconn]
    exact hin
  · rw [hconn]
    exact h.held

theorem exclusive_step (h : Exclusive s) (hcan : s.CanStep t) : Exclusive (s.step t) := by
  have hout := h.outside t
  have hown := h.owner t
  unfold ClientState.CanStep at hcan
  unfold ClientState.step
  cases hp : s.pcs t with
  | idle => exact h
  | inCallback => exact h
  | test nested =>
    exact h.move rfl rfl rfl (by split <;> simp [SendPc.owns]) (hout (by rw [hp]; rfl))
  | lock nested =>
    -- nobody owned the mutex
    refine ⟨?_, ?_, h.held⟩
    · intro t' howns
      by_cases ht : t' = t
      · rw [ht]
        rfl
      · have hmutex : s.mutex = some t' := h.owner t' (by simpa [ClientState.goto, ht] using howns)
        simp [hp, hmutex] at hcan
    · intro t' hoff
      by_cases ht : t' = t
      · rw [ht]
        exact hout (by rw [hp]; rfl)
      · exact h.outside t' (by simpa [ClientState.goto, ht] using hoff)
  | lockedTest nested =>
    have hmutex : s.mutex = some t := hown (by rw [hp]; rfl)
    have hin := hout (by rw [hp]; rfl)
    simp only
    split
    · exact h.move rfl rfl rfl (fun _ => hmutex) hin
    · refine h.goto rfl rfl (fun _ => hmutex) ?_ ?_ ?_
      · intro t' ht hin'
        simpa [ClientState.goto, Connection.next, ht] using hin'
      · simp [SendPc.isReconnecting]
      · exact held_goto h.held (inHandler_not_holds hin) _
  | reconnecting nested =>
    rw [hp] at hcan
    exact h.move rfl rfl rfl (fun _ => hown (by rw [hp]; rfl)) (ready_inHandler hcan)
  | unlock nested =>
    have hmutex : s.mutex = some t := hown (by rw [hp]; rfl)
    refine ⟨?_, ?_, h.held⟩
    · intro t' howns
      by_cases ht : t' = t
      · simp [ClientState.goto, ht, SendPc.owns] at howns
      · -- two owners are one
        have hmutex' : s.mutex = some t' := h.owner t' (by simpa [ClientState.goto, ht] using howns)
        exact absurd (Option.some.inj (hmutex'.symm.trans hmutex)) ht
    · intro t' hoff
      by_cases ht : t' = t
      · rw [ht]
        exact hout (by rw [hp]; rfl)
      · exact h.outside t' (by simpa [ClientState.goto, ht] using hoff)
  | retest nested =>
    exact h.move rfl rfl rfl (by split <;> simp [SendPc.owns]) (hout (by rw [hp]; rfl))
  | post nested =>
    exact h.move rfl rfl rfl (by split <;> simp [SendPc.owns]) (hout (by rw [hp]; rfl))
  | notifyingClose => exact h.move rfl rfl rfl (by simp [SendPc.owns]) (hout (by rw [hp]; rfl))

/-- Only statements lock and unlock the client's mutex. -/
theorem mutex_clientNext {e : ClientEvent} (hstep : ∀ t, e ≠ .step t) :
    (s.next e).mutex = s.mutex := by
  cases e with
  | asyncSend t delayed => cases delayed <;> rfl
  | submit accepted => cases accepted <;> rfl
  | step t => exact absurd rfl (hstep t)
  | lockTimesOut t =>
    simp only [ClientState.next]
    split <;> rfl
  | _ => rfl

/-- **Every event keeps the threads exclusive.** -/
theorem exclusive_next (e : ClientEvent) (h : Exclusive s) (hen : s.Enabled e) :
    Exclusive (s.next e) := by
  by_cases hsome : ∃ t, e = .step t
  · obtain ⟨t, rfl⟩ := hsome
    exact exclusive_step h hen
  have hstep : ∀ t, e ≠ .step t := not_exists.mp hsome
  constructor
  · intro t howns
    rw [mutex_clientNext hstep]
    cases clientMoves_next t hen with
    | stays hpc =>
      rw [hpc] at howns
      exact h.owner t howns
    | steps he => exact absurd he (hstep t)
    | enters _ hafter =>
      cases hp : (s.next e).pcs t <;> simp_all [SendPc.straight, SendPc.owns]
    | givesUp nested _ hafter => simp [hafter, SendPc.owns] at howns
  · intro t hoff
    refine inHandler_clientNext hen (h.outside t ?_) fun _ he => absurd he (hstep t)
    cases clientMoves_next t hen with
    | stays hpc =>
      rw [hpc] at hoff
      exact hoff
    | steps he => exact absurd he (hstep t)
    | enters hbefore _ => rcases hbefore with hp | hp <;> simp [hp, SendPc.isReconnecting]
    | givesUp nested hbefore _ => simp [hbefore, SendPc.isReconnecting]
  · cases connectionMoves_next hen with
    | stays _ hconn =>
      rw [hconn]
      exact h.held
    | moves e' he hen' _ =>
      subst he
      exact held_next h.held hen'
    | fails he hidle =>
      subst he
      have hready : s.connection.Enabled (.call .io .notifyClose) :=
        ⟨hidle.2.1, fun _ => hidle.2.2⟩
      exact held_next h.held hready
    | reconnects t nested he => exact absurd he (hstep t)

/-- **In every run the threads are exclusive.** -/
theorem exclusive_run {closedCallbackSet : Bool} {es : List ClientEvent}
    (hrun : sending.Run (.start closedCallbackSet) es) :
    Exclusive (sending.after (.start closedCallbackSet) es) :=
  invariant (fun _ e h hen => exclusive_next e h hen) (exclusive_start closedCallbackSet) hrun

/-- While a thread waits within `reconnect`, no other thread reconnects. -/
theorem Exclusive.alone (h : Exclusive s) (ht : (s.pcs t).isReconnecting = true) {t' : Thread}
    (hne : t' ≠ t) : (s.pcs t').isReconnecting = false := by
  have howns {t : Thread} (hr : (s.pcs t).isReconnecting = true) : s.mutex = some t := by
    refine h.owner t ?_
    cases hp : s.pcs t <;> simp_all [SendPc.owns, SendPc.isReconnecting]
  by_contra hr
  have hmutex := howns (by simpa using hr)
  exact hne (Option.some.inj (hmutex.symm.trans (howns ht)))

theorem inHandler_not_waiting {pc : Pc} (h : pc.inHandler = true) : pc.stage ≠ .waiting := by
  cases pc with
  | storeClosed after => cases after <;> simp_all [Pc.inHandler, Pc.stage]
  | notifyOne after => cases after <;> simp_all [Pc.inHandler, Pc.stage]
  | closedCallback after => cases after <;> simp_all [Pc.inHandler, Pc.stage]
  | _ => simp_all [Pc.inHandler, Pc.stage]

/-- A waiting thread is in its `reconnect`. -/
theorem Exclusive.reconnecting (h : Exclusive s)
    (hstage : (s.connection.pcs t).stage = .waiting) : (s.pcs t).isReconnecting = true := by
  by_contra hoff
  exact inHandler_not_waiting (h.outside t (by simpa using hoff)) hstage

/-- A waiting thread can have the connection's mutex. -/
theorem Exclusive.free (h : Exclusive s) (hstage : (s.connection.pcs t).stage = .waiting)
    (hholds : (s.connection.pcs t).holds = false) : s.connection.mutex = none := by
  by_contra hmutex
  obtain ⟨t', ht'⟩ := Option.ne_none_iff_exists'.mp hmutex
  have hheld := h.held t' ht'
  have hne : t' ≠ t := by
    rintro rfl
    simp [hholds] at hheld
  have hin := h.outside t' (h.alone (h.reconnecting hstage) hne)
  simp [inHandler_not_holds hin] at hheld

end step

end Http2Comm.Client
