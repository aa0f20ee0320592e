import Http2Comm.Client.Connection

/-!
# The wake-up of a waiter

`waitToBeConnected` tests `status_` under `mutex_` and gives the mutex up by blocking. `on_connect`
and `notifyClose` write `status_` and call `notify_one` without the mutex, so both of their steps
fit between the test and the blocking. The `notify_one` then finds nobody, and the waiter sleeps
out its two seconds on a connection that is `OPEN` or `CLOSED` (`notified_before_blocking`).

`never_missed` is that this is the only place: with one waiter, if no `notify_one` of a status
that still stands falls there, the waiter is never blocked once a notifier has finished.
`unheard_missed` is the other half, one step of the waiter later.

To say "since the status was last set to `NOT_OPEN`" the runs carry a `Watch` on the notifiers,
which nothing in the connection reads (`watched_run_iff`).
-/

set_option autoImplicit false

namespace Http2Comm.Client

open Lib Lib.Machine

/-! ## The watch on the notifiers -/

/-- The notifiers since the status was last set to `NOT_OPEN`: who has written it and not called
`notify_one` yet, and whether one of them has done both. -/
structure Watch where
  written : List Thread := []
  finished : Bool := false
  deriving DecidableEq, Repr

def Watch.next (watch : Watch) (c : Connection) : ConnectionEvent → Watch
  | .onConnect _ | .onError _ => { watch with written := .io :: watch.written }
  | .step t =>
    match c.pcs t with
    | .storeClosed _ => { watch with written := t :: watch.written }
    | .storeNotOpen => {}
    | _ => watch
  | .notify t _ =>
    if t ∈ watch.written then { written := watch.written.erase t, finished := true } else watch
  | _ => watch

/-- The runs of a connection with a watch on its notifiers. -/
def watched : Machine (Connection × Watch) ConnectionEvent where
  Enabled s e := s.1.Enabled e
  next s e := (s.1.next e, s.2.next s.1 e)

instance decidableWatched (s : Connection × Watch) (e : ConnectionEvent) :
    Decidable (watched.Enabled s e) :=
  inferInstanceAs (Decidable (s.1.Enabled e))

/-- The watch changes nothing. -/
theorem watched_run_iff {c : Connection} {watch : Watch} {es : List ConnectionEvent} :
    (watched.Run (c, watch) es ↔ connection.Run c es) ∧
      (watched.after (c, watch) es).1 = connection.after c es := by
  induction es generalizing c watch with
  | nil => exact ⟨Iff.rfl, rfl⟩
  | cons e es ih => exact ⟨and_congr_right fun _ => ih.1, ih.2⟩

/-! ## The waiter -/

/-- The wait is a `waitToBeConnected`. -/
def Wait.connects : Wait → Bool
  | .reconnect | .connected => true
  | .disconnected => false

/-- The thread has found the status `NOT_OPEN` and not blocked yet. -/
def Pc.aboutToSleep : Pc → Bool
  | .block w => w.connects
  | _ => false

/-- The thread is blocked and nothing has woken it. -/
def Pc.asleep : Pc → Bool
  | .blocked w => w.connects
  | _ => false

def Pc.isBlock : Pc → Bool
  | .block _ => true
  | _ => false

/-- A notifier has finished, and the waiter is blocked without a signal. -/
def Missed (waiter : Thread) (s : Connection × Watch) : Prop :=
  s.2.finished = true ∧ (s.1.pcs waiter).asleep = true

/-- No other thread waits on the condition variable. -/
def OneWaiter (waiter : Thread) (s : Connection × Watch) : ConnectionEvent → Prop
  | .step t => t = waiter ∨ (s.1.pcs t).isBlock = false
  | _ => True

/-- The `notify_one` of a status that still stands does not come between the waiter's test and its
blocking. -/
def Heard (waiter : Thread) (s : Connection × Watch) : ConnectionEvent → Prop
  | .notify t _ => t ∈ s.2.written → (s.1.pcs waiter).aboutToSleep = false
  | _ => True

instance (waiter : Thread) (s : Connection × Watch) : Decidable (Missed waiter s) :=
  inferInstanceAs (Decidable (_ ∧ _))

instance (waiter : Thread) (s : Connection × Watch) (e : ConnectionEvent) :
    Decidable (OneWaiter waiter s e) :=
  match e with
  | .step _ => inferInstanceAs (Decidable (_ ∨ _))
  | .call .. | .onConnect _ | .onError _ | .create .. | .notify .. | .wake .. => isTrue trivial

instance (waiter : Thread) (s : Connection × Watch) (e : ConnectionEvent) :
    Decidable (Heard waiter s e) :=
  match e with
  | .notify .. => inferInstanceAs (Decidable (_ → _))
  | .call .. | .onConnect _ | .onError _ | .step _ | .create .. | .wake .. => isTrue trivial

/-! ## One event -/

section next

variable {c : Connection} {t : Thread} {e : ConnectionEvent}

/-- The thread is neither about to sleep nor asleep. -/
def Pc.awake : Pc → Bool
  | .block w | .blocked w => !w.connects
  | _ => true

theorem awake_iff {pc : Pc} : pc.awake = true ↔ pc.aboutToSleep = false ∧ pc.asleep = false := by
  cases pc <;> simp [Pc.awake, Pc.aboutToSleep, Pc.asleep]

/-- Only a test that finds `NOT_OPEN` sends a thread to sleep. -/
theorem awake_step (hawake : (c.pcs t).awake = true) (hstatus : c.status ≠ .notOpen) :
    ((c.step t).pcs t).awake = true := by
  rw [pcs_step]
  cases hp : c.pcs t with
  | closedCallback after => cases after <;> rfl
  | configureSession => cases c.session <;> rfl
  | test w =>
    simp only
    split
    · cases w <;> rfl
    · next hpred => cases w <;> simp_all [Wait.predicate, Pc.awake, Wait.connects]
  | block w =>
    rw [hp] at hawake
    exact hawake
  | blocked w =>
    rw [hp] at hawake
    exact hawake
  | relock w timedOut => cases timedOut <;> rfl
  | lateTest w => cases w <;> rfl
  | _ => rfl

theorem awake_goto {pc : Pc} {t' : Thread} (h : (c.pcs t).awake = true) (hpc : pc.awake = true) :
    ((c.goto t' pc).pcs t).awake = true := by
  by_cases ht : t = t'
  · simpa [ht] using hpc
  · simpa [ht] using h

theorem awake_notifyOne {woken : Option Thread} (h : (c.pcs t).awake = true) :
    ((c.notifyOne woken).pcs t).awake = true := by
  rcases pcs_notifyOne c woken t with hsame | ⟨w, -, hw⟩
  · rw [hsame]
    exact h
  · rw [hw]
    rfl

/-- **A thread that is awake stays so while the status is set.** -/
theorem awake_next (hawake : (c.pcs t).awake = true) (hstatus : c.status ≠ .notOpen) :
    ((c.next e).pcs t).awake = true := by
  cases e with
  | call t' op => exact awake_goto hawake (by cases op <;> rfl)
  | onConnect sid => exact awake_goto (c := { c.setSession sid _ with status := _ }) hawake rfl
  | onError sid => exact awake_goto (c := { c.setSession sid _ with status := _ }) hawake rfl
  | step t' =>
    by_cases ht : t = t'
    · subst ht
      exact awake_step hawake hstatus
    · rw [Connection.next, pcs_step_ne c t' ht]
      exact hawake
  | create t' created =>
    cases created with
    | true => exact awake_goto (c := { c.setSession _ _ with nextSession := _ }) hawake rfl
    | false => exact awake_goto hawake rfl
  | notify t' woken =>
    simp only [Connection.next]
    split <;> exact awake_goto (awake_notifyOne hawake) rfl
  | wake t' timedOut =>
    simp only [Connection.next]
    split
    · exact awake_goto (c := { c with waiters := _ }) hawake rfl
    · exact hawake

theorem isBlocked_step :
    ((c.step t).pcs t).isBlocked = ((c.pcs t).isBlock || (c.pcs t).isBlocked) := by
  rw [pcs_step]
  cases c.pcs t with
  | closedCallback after => cases after <;> rfl
  | configureSession => cases c.session <;> rfl
  | test w =>
    simp only
    split <;> cases w <;> rfl
  | relock w timedOut => cases timedOut <;> rfl
  | lateTest w => cases w <;> rfl
  | _ => rfl

theorem waiters_step : (c.step t).waiters =
    c.waiters ++ if (c.pcs t).isBlock then [t] else [] := by
  unfold Connection.step
  cases c.pcs t with
  | configureSession =>
    cases c.session <;> simp [Connection.goto, Connection.setSession, Pc.isBlock]
  | shutdown => cases c.session <;> simp [Connection.goto, Connection.setSession, Pc.isBlock]
  | _ => simp [Connection.goto, Pc.isBlock]

/-- Whoever is blocked is a waiter of the condition variable. -/
def BlockedWait (c : Connection) : Prop := ∀ t, (c.pcs t).isBlocked = true → t ∈ c.waiters

theorem blocked_goto (h : BlockedWait c) {pc : Pc} (hpc : pc.isBlocked = false) :
    BlockedWait (c.goto t pc) := by
  intro t' hblocked
  by_cases ht : t' = t
  · simp [ht, hpc] at hblocked
  · exact h t' (by simpa [ht] using hblocked)

/-- A waiter leaves the condition variable and goes on. -/
theorem blocked_erase (h : BlockedWait c) {pc : Pc} (hpc : pc.isBlocked = false) :
    BlockedWait ({ c with waiters := c.waiters.erase t }.goto t pc) := by
  intro t' hblocked
  by_cases ht : t' = t
  · simp [ht, hpc] at hblocked
  · exact (List.mem_erase_of_ne ht).mpr (h t' (by simpa [ht] using hblocked))

theorem blocked_notifyOne (h : BlockedWait c) (woken : Option Thread) :
    BlockedWait (c.notifyOne woken) := by
  unfold Connection.notifyOne
  split
  · exact h
  · split
    · exact blocked_erase h rfl
    · exact h

theorem blocked_next (h : BlockedWait c) : BlockedWait (c.next e) := by
  cases e with
  | call t op => exact blocked_goto h (by cases op <;> rfl)
  | onConnect sid => exact blocked_goto (c := { c.setSession sid _ with status := _ }) h rfl
  | onError sid => exact blocked_goto (c := { c.setSession sid _ with status := _ }) h rfl
  | step t =>
    intro t' hblocked
    rw [Connection.next, waiters_step]
    by_cases ht : t' = t
    · subst ht
      rw [Connection.next, isBlocked_step, Bool.or_eq_true] at hblocked
      rcases hblocked with hblock | hblocked
      · simp [hblock]
      · exact List.mem_append_left _ (h t' hblocked)
    · rw [Connection.next, pcs_step_ne c t ht] at hblocked
      exact List.mem_append_left _ (h t' hblocked)
  | create t created =>
    cases created with
    | true => exact blocked_goto (c := { c.setSession _ _ with nextSession := _ }) h rfl
    | false => exact blocked_goto h rfl
  | notify t woken =>
    simp only [Connection.next]
    split <;> exact blocked_goto (blocked_notifyOne h woken) rfl
  | wake t timedOut =>
    simp only [Connection.next]
    split
    · exact blocked_erase h rfl
    · exact h

theorem waiters_notifyOne (woken : Option Thread) : (c.notifyOne woken).waiters ⊆ c.waiters := by
  unfold Connection.notifyOne
  split
  · exact List.Subset.refl _
  · split
    · exact List.erase_subset
    · exact List.Subset.refl _

/-- Who waits afterwards has waited before or blocks now. -/
theorem waiters_next : ∀ t ∈ (c.next e).waiters,
    t ∈ c.waiters ∨ (e = .step t ∧ (c.pcs t).isBlock = true) := by
  intro t hmem
  cases e with
  | step t' =>
    rw [Connection.next, waiters_step, List.mem_append] at hmem
    rcases hmem with hmem | hmem
    · exact Or.inl hmem
    · split at hmem
      · next hblock =>
        obtain rfl := List.mem_singleton.mp hmem
        exact Or.inr ⟨rfl, hblock⟩
      · cases hmem
  | create t' created => cases created <;> exact Or.inl hmem
  | notify t' woken =>
    simp only [Connection.next] at hmem
    split at hmem <;> exact Or.inl (waiters_notifyOne woken hmem)
  | wake t' timedOut =>
    simp only [Connection.next] at hmem
    split at hmem
    · exact Or.inl (List.mem_of_mem_erase hmem)
    · exact Or.inl hmem
  | _ => exact Or.inl hmem

/-- The waiter that is blocked alone is the one that `notify_one` wakes. -/
theorem awake_notify {waiter : Thread} {woken : Option Thread} (hblocked : BlockedWait c)
    (halone : ∀ t ∈ c.waiters, t = waiter) (hen : c.Enabled (.notify t woken))
    (hasleep : (c.pcs waiter).asleep = true) :
    ((c.next (.notify t woken)).pcs waiter).awake = true := by
  obtain ⟨w, hw⟩ : ∃ w, c.pcs waiter = .blocked w := by
    cases hp : c.pcs waiter <;> simp_all [Pc.asleep]
  have hmem : waiter ∈ c.waiters := hblocked waiter (by rw [hw]; rfl)
  have hwoken : ((c.notifyOne woken).pcs waiter).awake = true := by
    cases woken with
    | none => simp [show c.waiters = [] from hen.2] at hmem
    | some t' =>
      obtain rfl := halone t' hen.2
      simp [Connection.notifyOne, hw, Pc.awake]
  simp only [Connection.next]
  split <;> exact awake_goto hwoken rfl

end next

/-! ## Whole runs -/

section runs

variable {waiter : Thread} {s : Connection × Watch} {e : ConnectionEvent}

theorem finished_next {watch : Watch} {c : Connection}
    (h : (watch.next c e).finished = true) :
    watch.finished = true ∨ ∃ t woken, e = .notify t woken ∧ t ∈ watch.written := by
  cases e with
  | step t =>
    left
    simp only [Watch.next] at h
    split at h <;> simp_all
  | notify t woken =>
    by_cases ht : t ∈ watch.written
    · exact Or.inr ⟨t, woken, rfl, ht⟩
    · exact Or.inl (by simpa [Watch.next, ht] using h)
  | _ => exact Or.inl h

/-- What the watch and the waiters say about each other. -/
structure Watching (waiter : Thread) (s : Connection × Watch) : Prop where
  blocked : BlockedWait s.1
  alone : ∀ t ∈ s.1.waiters, t = waiter
  unset : s.1.status = .notOpen → s.2 = {}
  awake : s.2.finished = true → (s.1.pcs waiter).awake = true

theorem unset_next {c : Connection} {watch : Watch} (h : c.status = .notOpen → watch = {})
    (hstatus : (c.next e).status = .notOpen) : watch.next c e = {} := by
  cases e with
  | onConnect sid => simp [Connection.next] at hstatus
  | onError sid => simp [Connection.next] at hstatus
  | step t =>
    rw [Connection.next, status_step] at hstatus
    cases hp : c.pcs t <;> simp_all [Watch.next]
  | create t created => cases created <;> exact h hstatus
  | call t op => exact h hstatus
  | notify t woken =>
    rw [(members_next_of_quiet c rfl).1] at hstatus
    simp [Watch.next, h hstatus]
  | wake t timedOut =>
    rw [(members_next_of_quiet c rfl).1] at hstatus
    exact h hstatus

theorem watching_next (h : Watching waiter s) (hen : watched.Enabled s e)
    (hone : OneWaiter waiter s e) (hheard : Heard waiter s e) :
    Watching waiter (watched.next s e) where
  blocked := blocked_next h.blocked
  alone t ht := by
    rcases waiters_next t ht with hmem | ⟨rfl, hblock⟩
    · exact h.alone t hmem
    · exact hone.resolve_right (by simp [hblock])
  unset hstatus := unset_next h.unset hstatus
  awake hfinished := by
    have hset (hwatch : s.2 ≠ {}) : s.1.status ≠ .notOpen := fun hstatus => hwatch (h.unset hstatus)
    rcases finished_next hfinished with hbefore | ⟨t, woken, rfl, ht⟩
    · exact awake_next (h.awake hbefore) (hset (by rintro heq; simp [heq] at hbefore))
    · cases hasleep : (s.1.pcs waiter).asleep with
      | true => exact awake_notify h.blocked h.alone hen hasleep
      | false =>
        have hawake := awake_iff.mpr ⟨hheard ht, hasleep⟩
        exact awake_next hawake (hset (by rintro heq; simp [heq] at ht))

/-- **No wake-up is missed**, if no `notify_one` comes between the test and the blocking. -/
theorem never_missed (closedCallbackSet : Bool) (waiter : Thread) (es : List ConnectionEvent)
    (hrun : watched.Run (.start closedCallbackSet, {}) es)
    (hone : watched.Along (OneWaiter waiter) (.start closedCallbackSet, {}) es)
    (hheard : watched.Along (Heard waiter) (.start closedCallbackSet, {}) es) :
    ¬Missed waiter (watched.after (.start closedCallbackSet, {}) es) := by
  have hstart : Watching waiter (.start closedCallbackSet, {}) :=
    ⟨fun t h => by simp [Connection.start, Pc.isBlocked] at h, by simp [Connection.start],
      fun _ => rfl, by simp⟩
  have hwatching := invariant_along (I := Watching waiter)
    (fun _ _ h he => watching_next h he.1 he.2.1 he.2.2) hstart (hrun.and (hone.and hheard))
  rintro ⟨hfinished, hasleep⟩
  simp [(awake_iff.mp (hwatching.awake hfinished)).2] at hasleep

/-- **A `notify_one` that comes there is missed** as soon as the waiter goes on. -/
theorem unheard_missed (hen : watched.Enabled s e) (hunheard : ¬Heard waiter s e) :
    watched.Run s [e, .step waiter] ∧ Missed waiter (watched.after s [e, .step waiter]) := by
  obtain ⟨c, watch⟩ := s
  cases e with
  | notify t woken =>
    obtain ⟨ht, habout⟩ := Classical.not_imp.mp hunheard
    rw [Bool.not_eq_false] at habout
    obtain ⟨w, hw⟩ : ∃ w, c.pcs waiter = .block w := by
      cases hp : c.pcs waiter <;> simp_all [Pc.aboutToSleep]
    have hne : waiter ≠ t := by
      rintro rfl
      have hnotifies := hen.1
      simp [hw, Pc.notifies] at hnotifies
    -- `notify_one` does not reach the waiter
    have hstill : (c.next (.notify t woken)).pcs waiter = .block w := by
      have hsame : (c.notifyOne woken).pcs waiter = .block w := by
        rcases pcs_notifyOne c woken waiter with hsame | ⟨w', hw', -⟩
        · rw [hsame, hw]
        · rw [hw] at hw'
          cases hw'
      simp only [Connection.next]
      split <;> simpa [hne] using hsame
    refine ⟨⟨hen, ?_, trivial⟩, ?_, ?_⟩
    · change (c.next (.notify t woken)).CanStep waiter
      rw [Connection.CanStep, hstill]
      trivial
    · have hfinished : (watch.next c (.notify t woken)).finished = true := by simp [Watch.next, ht]
      change ((watch.next c _).next (c.next (.notify t woken)) (.step waiter)).finished = true
      simpa [Watch.next, hstill] using hfinished
    · change (((c.next (.notify t woken)).step waiter).pcs waiter).asleep = true
      rw [hw] at habout
      simpa [Connection.step, hstill, Pc.asleep, Pc.aboutToSleep] using habout
  | _ => exact absurd trivial hunheard

end runs

/-- The waiter is blocked when the connection opens, and is woken. -/
theorem never_missed_blocked :
    let es : List ConnectionEvent := [.call (.app 0) .waitToBeConnected, .step (.app 0),
      .step (.app 0), .onConnect 0, .step (.app 0), .notify .io (some (.app 0))]
    ¬Missed (.app 0) (watched.after (.start false, {}) es) :=
  never_missed false (.app 0) _ (by decide) (by decide) (by decide)

/-- **The connection opens between the test and the blocking.** `notify_one` finds nobody, and the
waiter blocks. -/
theorem notified_before_blocking :
    ¬∀ (closedCallbackSet : Bool) (waiter : Thread) (es : List ConnectionEvent),
      watched.Run (.start closedCallbackSet, {}) es →
      watched.Along (OneWaiter waiter) (.start closedCallbackSet, {}) es →
      ¬Missed waiter (watched.after (.start closedCallbackSet, {}) es) := by
  intro h
  have hmissed := h false (.app 0) [.call (.app 0) .waitToBeConnected, .step (.app 0),
    .step (.app 0), .onConnect 0, .notify .io none, .step (.app 0)] (by decide) (by decide)
  exact hmissed (by decide)

end Http2Comm.Client
