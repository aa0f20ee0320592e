import Http2Comm.Client.Connection

/-!
# What `OPEN` says about the session

`isConnected` is "true if connection is opened", and the connection that is opened should be the
one `session_` holds. The callbacks cannot know: they capture the `Http2Connection` and no
session, so the store of `OPEN` by `on_connect` names whichever session happens to be there. Two
kinds of delivery make it a lie (`late_connect_opens`): a callback of a session that has been
replaced, and an `on_connect` that falls between the store of `CLOSED` and the replacement or
shutdown of the session that follows it in the same function.

`InPlace` excludes exactly those. Under it `OPEN` is an assertion about the session
(`Describes`): it is held, connected, not failed, not shut down, **and no thread is about to take
it away**. The last clause is what makes the first inductive.
-/

set_option autoImplicit false

namespace Http2Comm.Client

open Lib Lib.Machine

/-- The thread has stored `CLOSED` and will replace or shut down the session. -/
def Pc.replacing : Pc → Bool
  | .notifyOne after | .closedCallback after => decide (after ≠ .return)
  | .reset | .createSession | .assign _ | .shutdown | .stop | .join => true
  | _ => false

/-- Its own `on_connect` has run, and it has since neither failed nor been shut down. -/
def Session.Live (session : Session) : Prop :=
  session.connected = true ∧ session.failed = false ∧ session.closed = false

/-- A callback that changes the status is of the session held now, and `on_connect` finds that
session not shut down and no thread about to replace it. -/
def InPlace (c : Connection) : ConnectionEvent → Prop
  | .onConnect sid => c.status = .opened ∨
      (c.session = some sid ∧ (c.sessions sid).closed = false ∧ ∀ t, (c.pcs t).replacing = false)
  | .onError sid => c.status = .closed ∨ c.session = some sid
  | _ => True

/-- The status describes the session. -/
structure Describes (c : Connection) : Prop where
  bounded : ∀ sid, c.session = some sid → sid < c.nextSession
  assigned : ∀ t sid, c.pcs t = .assign sid → sid < c.nextSession
  current : c.status = .opened → ∃ sid, c.session = some sid ∧ (c.sessions sid).Live
  settled : c.status = .opened → ∀ t, (c.pcs t).replacing = false

section step

variable {c : Connection} {t : Thread}

theorem describes_start (closedCallbackSet : Bool) : Describes (.start closedCallbackSet) where
  bounded := by simp [Connection.start]
  assigned := by simp [Connection.start]
  current := by simp [Connection.start]
  settled := by simp [Connection.start]

/-- A thread begins to replace the session only by storing `CLOSED`. -/
theorem replacing_step (hpc : (c.pcs t).replacing = false)
    (hopened : (c.step t).status = .opened) : ((c.step t).pcs t).replacing = false := by
  rw [status_step] at hopened
  rw [pcs_step]
  cases hp : c.pcs t with
  | storeClosed after => simp [hp] at hopened
  | closedCallback after =>
    have hreturn : after = .return := by simpa [hp, Pc.replacing] using hpc
    subst hreturn
    rfl
  | configureSession => cases c.session <;> rfl
  | test w =>
    simp only
    split <;> cases w <;> rfl
  | lateTest w => cases w <;> rfl
  | relock w timedOut => cases timedOut <;> rfl
  | _ => simp_all [Pc.replacing]

/-- No step assigns a session that has not been created. -/
theorem assign_step {sid : Nat} (h : (c.step t).pcs t = .assign sid) : c.pcs t = .assign sid := by
  rw [pcs_step] at h
  cases hp : c.pcs t with
  | closedCallback after => cases after <;> simp [hp, After.entry] at h
  | configureSession =>
    rw [hp] at h
    simp only at h
    split at h <;> cases h
  | test w =>
    rw [hp] at h
    simp only at h
    split at h <;> cases w <;> cases h
  | lateTest w => cases w <;> simp [hp, Wait.leave] at h
  | relock w timedOut => cases timedOut <;> simp [hp] at h
  | _ => simp_all

theorem Describes.not_replacing (h : Describes c) (hpc : (c.pcs t).replacing = true) :
    c.status ≠ .opened := by
  intro hopened
  rw [h.settled hopened t] at hpc
  exact absurd hpc (by simp)

theorem describes_stepOf (h : Describes c) : Describes (c.step t) where
  bounded sid hsid := by
    rw [nextSession_step]
    rw [session_step] at hsid
    cases hp : c.pcs t with
    | assign newSession =>
      rw [hp] at hsid
      exact h.assigned t sid (hp.trans (congrArg _ (Option.some.inj hsid)))
    | reset => simp [hp] at hsid
    | _ => exact h.bounded sid (by simpa [hp] using hsid)
  assigned t' sid hassign := by
    rw [nextSession_step]
    by_cases ht : t' = t
    · subst ht
      exact h.assigned t' sid (assign_step hassign)
    · rw [pcs_step_ne c t ht] at hassign
      exact h.assigned t' sid hassign
  current hopened := by
    rw [status_step] at hopened
    rw [session_step, sessions_step]
    cases hp : c.pcs t with
    | storeClosed after => simp [hp] at hopened
    | storeNotOpen => simp [hp] at hopened
    | reset =>
      exact absurd (by simpa [hp] using hopened) (h.not_replacing (t := t) (by rw [hp]; rfl))
    | assign newSession =>
      exact absurd (by simpa [hp] using hopened) (h.not_replacing (t := t) (by rw [hp]; rfl))
    | shutdown =>
      exact absurd (by simpa [hp] using hopened) (h.not_replacing (t := t) (by rw [hp]; rfl))
    | configureSession =>
      obtain ⟨sid, hsid, hlive⟩ := h.current (by simpa [hp] using hopened)
      refine ⟨sid, hsid, ?_⟩
      simpa [hsid, Session.Live] using hlive
    | _ => exact h.current (by simpa [hp] using hopened)
  settled hopened t' := by
    -- no step stores `OPEN`, so it was stored before
    have hbefore : c.status = .opened := by
      rw [status_step] at hopened
      split at hopened
      · simp at hopened
      · simp at hopened
      · exact hopened
    by_cases ht : t' = t
    · subst ht
      exact replacing_step (h.settled hbefore t') hopened
    · rw [pcs_step_ne c t ht]
      exact h.settled hbefore t'

/-- The events that only move program counters begin no replacement and assign nothing. -/
theorem pcs_next_of_quiet {e : ConnectionEvent} (he : e.isQuiet = true) (t : Thread) :
    (∀ sid, (c.next e).pcs t = .assign sid → c.pcs t = .assign sid) ∧
      (((c.next e).pcs t).replacing = true → (c.pcs t).replacing = true) := by
  cases e with
  | call t' op =>
    by_cases ht : t = t'
    · subst ht
      cases op <;> simp [Connection.next, Op.entry, Pc.replacing]
    · simp [Connection.next, ht]
  | notify t' woken =>
    have hwoken := pcs_notifyOne c woken t
    simp only [Connection.next]
    by_cases ht : t = t'
    · subst ht
      cases hp : c.pcs t <;> simp [Pc.replacing]
    · have hnext : ∀ pc, ((c.notifyOne woken).goto t' pc).pcs t = (c.notifyOne woken).pcs t := by
        simp [ht]
      split <;> rw [hnext] <;> rcases hwoken with hsame | ⟨w, hw, hw'⟩ <;>
        simp_all [Pc.replacing]
  | wake t' timedOut =>
    simp only [Connection.next]
    by_cases ht : t = t'
    · subst ht
      split <;> simp [Pc.replacing]
    · split <;> simp [ht]
  | _ => simp [ConnectionEvent.isQuiet] at he

/-- **Every step that delivers in place keeps the description.** -/
theorem describes_next (e : ConnectionEvent) (h : Describes c) (hen : c.Enabled e)
    (hplace : InPlace c e) : Describes (c.next e) := by
  by_cases hquiet : e.isQuiet = true
  · obtain ⟨hstatus, hsession, hsessions, hnext⟩ := members_next_of_quiet c hquiet
    refine ⟨?_, ?_, ?_, ?_⟩
    · rw [hsession, hnext]
      exact h.bounded
    · intro t sid hassign
      rw [hnext]
      exact h.assigned t sid ((pcs_next_of_quiet hquiet t).1 sid hassign)
    · rw [hstatus, hsession, hsessions]
      exact h.current
    · intro hopened t
      rw [hstatus] at hopened
      have hbefore := h.settled hopened t
      by_contra hne
      have hafter := (pcs_next_of_quiet hquiet t).2 (by simpa using hne)
      exact absurd (hafter.symm.trans hbefore) (by simp)
  · cases e with
    | step t => exact describes_stepOf h
    | onConnect sid =>
      refine ⟨h.bounded, ?_, ?_, ?_⟩
      · intro t sid' hassign
        by_cases ht : t = .io
        · simp [Connection.next, ht] at hassign
        · exact h.assigned t sid' (by simpa [Connection.next, ht] using hassign)
      · intro _
        obtain ⟨-, -, -, hfresh, hfailed⟩ := hen
        rcases hplace with hopened | ⟨hsid, hclosed, -⟩
        · -- already `OPEN`: the session held has connected, so the callback is of another one
          obtain ⟨sid', hsid', hlive⟩ := h.current hopened
          have hne : sid' ≠ sid := by
            rintro rfl
            rw [hlive.1] at hfresh
            exact absurd hfresh (by simp)
          exact ⟨sid', hsid', by simpa [Connection.next, hne] using hlive⟩
        · exact ⟨sid, hsid, by simp [Connection.next, Session.Live, hfailed, hclosed]⟩
      · intro _ t
        by_cases ht : t = .io
        · simp [Connection.next, ht, Pc.replacing]
        · rcases hplace with hopened | ⟨-, -, hsettled⟩
          · simpa [Connection.next, ht] using h.settled hopened t
          · simpa [Connection.next, ht] using hsettled t
    | onError sid =>
      refine ⟨h.bounded, ?_, by simp [Connection.next], by simp [Connection.next]⟩
      intro t sid' hassign
      by_cases ht : t = .io
      · simp [Connection.next, ht] at hassign
      · exact h.assigned t sid' (by simpa [Connection.next, ht] using hassign)
    | create t created =>
      -- a session is created by a thread that is replacing one, so the status is not `OPEN`
      have hpc : c.pcs t = .createSession := hen
      have hclosed : c.status ≠ .opened := h.not_replacing (t := t) (by rw [hpc]; rfl)
      cases created with
      | false =>
        refine ⟨h.bounded, ?_, fun hopened => absurd hopened hclosed,
          fun hopened => absurd hopened hclosed⟩
        intro t' sid hassign
        by_cases ht : t' = t
        · simp [Connection.next, ht] at hassign
        · exact h.assigned t' sid (by simpa [Connection.next, ht] using hassign)
      | true =>
        refine ⟨fun sid hsid => Nat.lt_succ_of_lt (h.bounded sid hsid), ?_,
          fun hopened => absurd hopened hclosed, fun hopened => absurd hopened hclosed⟩
        intro t' sid hassign
        by_cases ht : t' = t
        · have hsid : c.nextSession = sid := by simpa [Connection.next, ht] using hassign
          exact hsid ▸ Nat.lt_succ_self _
        · exact Nat.lt_succ_of_lt (h.assigned t' sid (by simpa [Connection.next, ht] using hassign))
    | _ => exact absurd rfl hquiet

end step

/-! ## Whole runs -/

/-- **The status describes the current session**, in every run whose callbacks are delivered in
place: `OPEN` says that a session is held whose own `on_connect` has run and which has since
neither failed nor been shut down, and a callback of a replaced session never changes the
status. -/
theorem status_describes_session (closedCallbackSet : Bool) (as : List ConnectionEvent)
    (hrun : connection.Run (.start closedCallbackSet) as)
    (hplace : connection.Along InPlace (.start closedCallbackSet) as) :
    let c := connection.after (.start closedCallbackSet) as
    (c.status = .opened → ∃ sid, c.session = some sid ∧ (c.sessions sid).Live) ∧
    ∀ before a rest sid, as = before ++ a :: rest → a = .onConnect sid ∨ a = .onError sid →
      let c := connection.after (.start closedCallbackSet) before
      c.session ≠ some sid → (c.next a).status = c.status := by
  intro c
  have hdescribes : Describes c :=
    invariant_along (fun _ e h he => describes_next e h he.1 he.2) (describes_start _)
      (hrun.and hplace)
  refine ⟨hdescribes.current, ?_⟩
  intro before a rest sid has ha c hreplaced
  have hplace' : InPlace c a := along_iff_cut.mp hplace before a rest has
  rcases ha with rfl | rfl
  · exact (hplace'.resolve_right fun h => hreplaced h.1).symm
  · exact (hplace'.resolve_right hreplaced).symm

/-- The first session connects. -/
theorem status_describes_session_connected :
    ∃ sid, (connection.after (.start false) [.onConnect 0, .notify .io none]).session = some sid ∧
      ((connection.after (.start false) [.onConnect 0, .notify .io none]).sessions sid).Live :=
  (status_describes_session false [.onConnect 0, .notify .io none] (by decide)
    ⟨Or.inr ⟨rfl, rfl, fun _ => rfl⟩, trivial, trivial⟩).1 (by decide)

/-- The thread about to take the session away makes the difference: an `on_connect` of the session
held that comes just before leaves the connection `OPEN` without a live session. -/
theorem connect_before_loss_opens (c : Connection) (t : Thread) (sid : Nat)
    (hen : c.Enabled (.onConnect sid)) (hsid : c.session = some sid)
    (ht : c.pcs t = .reset ∨ c.pcs t = .shutdown) :
    let c' := connection.after c [.onConnect sid, .step t]
    connection.Run c [.onConnect sid, .step t] ∧ c'.status = .opened ∧
      ∀ sid', c'.session = some sid' → ¬(c'.sessions sid').Live := by
  intro c'
  have hio : t ≠ .io := by
    rintro rfl
    have hready := hen.1
    rcases ht with ht | ht <;> simp [ht, Pc.ready] at hready
  have hpc : (c.next (.onConnect sid)).pcs t = c.pcs t := by simp [Connection.next, hio]
  have hafter : c' = (c.next (.onConnect sid)).step t := rfl
  refine ⟨⟨hen, ?_, trivial⟩, ?_, ?_⟩
  · change (c.next (.onConnect sid)).CanStep t
    unfold Connection.CanStep
    rw [hpc]
    rcases ht with ht | ht <;> simp [ht]
  · rw [hafter, status_step, hpc]
    rcases ht with ht | ht <;> simp [ht, Connection.next]
  · intro sid' hsid'
    rw [hafter, session_step, hpc] at hsid'
    rw [hafter, sessions_step, hpc]
    rcases ht with ht | ht
    · simp [ht] at hsid'
    · obtain rfl : sid = sid' := by simpa [ht, Connection.next, hsid] using hsid'
      simp [ht, Connection.next, hsid, Session.Live]

/-- **A late `on_connect`.** The first session is replaced before it has connected; its
`on_connect` is delivered after the replacement is configured, and the connection is `OPEN` on a
session that has not connected. -/
theorem late_connect_opens :
    ¬∀ (closedCallbackSet : Bool) (as : List ConnectionEvent),
      connection.Run (.start closedCallbackSet) as →
      (connection.after (.start closedCallbackSet) as).status = .opened →
      ∃ sid, (connection.after (.start closedCallbackSet) as).session = some sid ∧
        ((connection.after (.start closedCallbackSet) as).sessions sid).Live := by
  intro h
  obtain ⟨sid, hsid, hconnected, -⟩ := h false [.call (.app 0) .reconnect, .step (.app 0),
    .notify (.app 0) none, .step (.app 0), .step (.app 0), .create (.app 0) true, .step (.app 0),
    .step (.app 0), .step (.app 0), .onConnect 0] (by decide) (by decide)
  obtain rfl : 1 = sid := Option.some.inj hsid
  exact absurd hconnected (by decide)

end Http2Comm.Client
