import Http2Comm.Client.Connection
import Mathlib.Data.Finset.Card

/-!
# The callback of a closed connection

"Sets callback called when connection is closed", says the header of `onClose`. What calls it is
`notifyClose`, and `notifyClose` stores `CLOSED` and calls back without a look at the status it
overwrites. Five functions end there, and most of them meet a connection that is closed already:
`reconnect` comes after the `on_error` that made it necessary, `closeImpl` after a `close`, each
failed submit after the one before. Every one of them calls the user back
(`lost_connection_reconnected`).

The callbacks are therefore as many as the stores of `CLOSED`, up to the threads that have stored
and not yet called back (`callbacks_add_pending`), and as many as the closures exactly if no store
finds the connection closed (`close_notified_iff`).
-/

set_option autoImplicit false

namespace Http2Comm.Client

open Lib Lib.Machine

/-! ## Stores and closures -/

/-- The event is the store of `CLOSED` of a `notifyClose`. -/
def Connection.storesClosed (c : Connection) : ConnectionEvent → Bool
  | .onError _ => true
  | .step t =>
    match c.pcs t with
    | .storeClosed _ => true
    | _ => false
  | _ => false

/-- The event changes the status from another value to `CLOSED`. -/
def Connection.closes (c : Connection) (e : ConnectionEvent) : Bool :=
  decide (c.status ≠ .closed ∧ (c.next e).status = .closed)

/-- A `notifyClose` finds the connection not closed. -/
def FindsNotClosed (c : Connection) (e : ConnectionEvent) : Prop :=
  c.storesClosed e = true → c.status ≠ .closed

instance (c : Connection) (e : ConnectionEvent) : Decidable (FindsNotClosed c e) :=
  inferInstanceAs (Decidable (_ → _))

/-- The thread has stored `CLOSED` in a `notifyClose` and not called back yet. -/
def Pc.notifyingClose : Pc → Bool
  | .notifyOne _ | .closedCallback _ => true
  | _ => false

/-! ## One event -/

section next

variable {c : Connection} {t t' : Thread} {e : ConnectionEvent}

/-- Nothing but a store of `CLOSED` closes. -/
theorem closes_iff : c.closes e = true ↔ c.storesClosed e = true ∧ c.status ≠ .closed := by
  unfold Connection.closes Connection.storesClosed
  cases e with
  | step t =>
    simp only [Connection.next, status_step]
    cases hp : c.pcs t <;> simp
  | onConnect sid => simp [Connection.next]
  | onError sid => simp [Connection.next]
  | create t created => cases created <;> simp [Connection.next]
  | call t op => simp [(members_next_of_quiet c (e := .call t op) rfl).1]
  | notify t woken => simp [(members_next_of_quiet c (e := .notify t woken) rfl).1]
  | wake t timedOut => simp [(members_next_of_quiet c (e := .wake t timedOut) rfl).1]

theorem callback_notifyOne (woken : Option Thread) :
    (c.notifyOne woken).closedCallbackSet = c.closedCallbackSet ∧
      (c.notifyOne woken).closedCallbacks = c.closedCallbacks := by
  unfold Connection.notifyOne
  repeat' split
  all_goals exact ⟨rfl, rfl⟩

theorem callback_step : (c.step t).closedCallbackSet = c.closedCallbackSet ∧
    (c.step t).closedCallbacks = c.closedCallbacks +
      match c.pcs t with
      | .closedCallback _ => if c.closedCallbackSet then 1 else 0
      | _ => 0 := by
  unfold Connection.step
  cases c.pcs t with
  | configureSession => cases c.session <;> exact ⟨rfl, rfl⟩
  | shutdown => cases c.session <;> exact ⟨rfl, rfl⟩
  | _ => exact ⟨rfl, rfl⟩

theorem notifyingClose_step : ((c.step t).pcs t).notifyingClose =
    match c.pcs t with
    | .storeClosed _ | .notifyOne _ => true
    | _ => false := by
  rw [pcs_step]
  cases c.pcs t with
  | closedCallback after => cases after <;> rfl
  | configureSession => cases c.session <;> rfl
  | test w =>
    simp only
    split <;> cases w <;> rfl
  | relock w timedOut => cases timedOut <;> rfl
  | lateTest w => cases w <;> rfl
  | _ => rfl

/-- A thread that is not in a `notifyClose` moves to where it is not. -/
theorem notifyingClose_goto {pc : Pc} (h : (c.pcs t).notifyingClose = false)
    (hpc : pc.notifyingClose = false) :
    ((c.goto t pc).pcs t').notifyingClose = (c.pcs t').notifyingClose := by
  by_cases ht : t' = t
  · subst ht
    simp [h, hpc]
  · simp [ht]

theorem notifyingClose_notifyOne (woken : Option Thread) :
    ((c.notifyOne woken).pcs t).notifyingClose = (c.pcs t).notifyingClose := by
  rcases pcs_notifyOne c woken t with hsame | ⟨w, hw, hw'⟩
  · rw [hsame]
  · rw [hw, hw']
    rfl

/-- The event has `t` store `CLOSED` and go on to its notification. -/
structure Enters (t : Thread) (c : Connection) (e : ConnectionEvent) : Prop where
  stores : c.storesClosed e = true
  callbacks : (c.next e).closedCallbacks = c.closedCallbacks
  before : (c.pcs t).notifyingClose = false
  notifying : ∀ t', ((c.next e).pcs t').notifyingClose = true ↔
    t' = t ∨ (c.pcs t').notifyingClose = true

/-- The event is the callback of `t`. -/
structure Leaves (t : Thread) (c : Connection) (e : ConnectionEvent) : Prop where
  stores : c.storesClosed e = false
  callbacks : (c.next e).closedCallbacks = c.closedCallbacks + if c.closedCallbackSet then 1 else 0
  before : (c.pcs t).notifyingClose = true
  notifying : ∀ t', ((c.next e).pcs t').notifyingClose = true ↔
    t' ≠ t ∧ (c.pcs t').notifyingClose = true

/-- The event has no part in a notification of a closure but its `notify_one`. -/
structure Stays (c : Connection) (e : ConnectionEvent) : Prop where
  stores : c.storesClosed e = false
  callbacks : (c.next e).closedCallbacks = c.closedCallbacks
  notifying : ∀ t, ((c.next e).pcs t).notifyingClose = (c.pcs t).notifyingClose

theorem ready_notifyingClose (h : (c.pcs t).ready = true) : (c.pcs t).notifyingClose = false := by
  cases hp : c.pcs t <;> simp_all [Pc.ready, Pc.notifyingClose]

theorem notifying_step (hcan : c.CanStep t) : Enters t c (.step t) ∨ Leaves t c (.step t) ∨
    Stays c (.step t) := by
  have hcallbacks := (callback_step (c := c) (t := t)).2
  have hown := notifyingClose_step (c := c) (t := t)
  have hother {t' : Thread} (ht : t' ≠ t) := pcs_step_ne c t ht
  unfold Connection.CanStep at hcan
  cases hp : c.pcs t with
  | storeClosed after =>
    rw [hp] at hcallbacks hown
    refine Or.inl ⟨by simp [Connection.storesClosed, hp], hcallbacks, by rw [hp]; rfl, ?_⟩
    intro t'
    by_cases ht : t' = t
    · simpa [Connection.next, ht] using hown
    · simp [Connection.next, hother ht, ht]
  | closedCallback after =>
    rw [hp] at hcallbacks hown
    refine Or.inr (Or.inl ⟨by simp [Connection.storesClosed, hp], hcallbacks, by rw [hp]; rfl, ?_⟩)
    intro t'
    by_cases ht : t' = t
    · simpa [Connection.next, ht] using hown
    · simp [Connection.next, hother ht, ht]
  | _ =>
    rw [hp] at hcallbacks hown hcan
    refine Or.inr (Or.inr ⟨by simp [Connection.storesClosed, hp], hcallbacks, fun t' => ?_⟩)
    by_cases ht : t' = t
    · subst ht
      simp_all [Connection.next, Pc.notifyingClose]
    · simp [Connection.next, hother ht]

/-- **What an event is to the notifications of closures.** -/
theorem notifying_next (hen : c.Enabled e) :
    (∃ t, Enters t c e) ∨ (∃ t, Leaves t c e) ∨ Stays c e := by
  cases e with
  | call t op =>
    refine Or.inr (Or.inr ⟨rfl, rfl, fun t' => ?_⟩)
    exact notifyingClose_goto (ready_notifyingClose hen.1) (by cases op <;> rfl)
  | onConnect sid =>
    refine Or.inr (Or.inr ⟨rfl, rfl, fun t' => ?_⟩)
    exact notifyingClose_goto (c := { c.setSession sid _ with status := .opened })
      (ready_notifyingClose hen.1) rfl
  | onError sid =>
    refine Or.inl ⟨.io, rfl, rfl, ready_notifyingClose hen.1, fun t' => ?_⟩
    by_cases ht : t' = .io
    · simp [Connection.next, ht, Pc.notifyingClose]
    · simp [Connection.next, ht]
  | step t =>
    rcases notifying_step hen with henters | hleaves | hstays
    · exact Or.inl ⟨t, henters⟩
    · exact Or.inr (Or.inl ⟨t, hleaves⟩)
    · exact Or.inr (Or.inr hstays)
  | create t created =>
    have hbefore : (c.pcs t).notifyingClose = false := by
      rw [show c.pcs t = .createSession from hen]
      rfl
    refine Or.inr (Or.inr ⟨rfl, by cases created <;> rfl, fun t' => ?_⟩)
    cases created with
    | true => exact notifyingClose_goto hbefore rfl
    | false => exact notifyingClose_goto hbefore rfl
  | notify t woken =>
    have hnotifies := hen.1
    refine Or.inr (Or.inr ⟨rfl, ?_, fun t' => ?_⟩)
    · simp only [Connection.next]
      split <;> exact (callback_notifyOne woken).2
    · have hwoken := notifyingClose_notifyOne (c := c) (t := t') woken
      simp only [Connection.next]
      by_cases ht : t' = t
      · subst ht
        cases hp : c.pcs t' <;> simp_all [Pc.notifies, Pc.notifyingClose]
      · split <;> simpa [ht] using hwoken
  | wake t timedOut =>
    refine Or.inr (Or.inr ⟨rfl, ?_, fun t' => ?_⟩)
    · simp only [Connection.next]
      split <;> rfl
    · simp only [Connection.next]
      split
      · next w hw => exact notifyingClose_goto (by rw [hw]; rfl) rfl
      · rfl

theorem closedCallbackSet_next : (c.next e).closedCallbackSet = c.closedCallbackSet := by
  cases e with
  | step t => exact callback_step.1
  | create t created => cases created <;> rfl
  | notify t woken =>
    simp only [Connection.next]
    split <;> exact (callback_notifyOne woken).1
  | wake t timedOut =>
    simp only [Connection.next]
    split <;> rfl
  | _ => rfl

end next

/-! ## Whole runs -/

section runs

variable {es : List ConnectionEvent}

/-- The stores of `CLOSED` of a run. -/
def closedStores (es : List ConnectionEvent) : Nat :=
  connection.total (fun c e => if c.storesClosed e = true then 1 else 0) (.start true) es

/-- The closures of a run. -/
def closures (es : List ConnectionEvent) : Nat :=
  connection.total (fun c e => if c.closes e = true then 1 else 0) (.start true) es

/-- **Every store is called back or pending.** -/
theorem callbacks_add_pending (hrun : connection.Run (.start true) es) :
    ∃ pending : Finset Thread,
      (∀ t, t ∈ pending ↔ ((connection.after (.start true) es).pcs t).notifyingClose = true) ∧
      (connection.after (.start true) es).closedCallbacks + pending.card = closedStores es := by
  have hset : ∀ c e, c.closedCallbackSet = true → connection.Enabled c e →
      (connection.next c e).closedCallbackSet = true :=
    fun c e h _ => closedCallbackSet_next.trans h
  refine history (M := connection) (P := connection.Enabled)
    (H := fun es c => ∃ pending : Finset Thread,
      (∀ t, t ∈ pending ↔ (c.pcs t).notifyingClose = true) ∧
        c.closedCallbacks + pending.card = closedStores es) ?_ ?_ hrun
  · exact ⟨∅, by simp [Connection.start, Pc.notifyingClose], rfl⟩
  · rintro es e hes ⟨pending, hpending, hcard⟩ hen
    have hcallback : (connection.after (.start true) es).closedCallbackSet = true :=
      invariant hset rfl hes
    rw [closedStores, total_snoc]
    rw [closedStores] at hcard
    generalize connection.after (.start true) es = c at *
    change ∃ pending' : Finset Thread,
      (∀ t, t ∈ pending' ↔ ((c.next e).pcs t).notifyingClose = true) ∧
        (c.next e).closedCallbacks + pending'.card = _
    rcases notifying_next hen with ⟨t, h⟩ | ⟨t, h⟩ | h
    · refine ⟨insert t pending, fun t' => ?_, ?_⟩
      · rw [h.notifying, Finset.mem_insert, hpending]
      · have hnew : t ∉ pending := by simp [hpending, h.before]
        rw [Finset.card_insert_of_notMem hnew, h.callbacks, h.stores, ← hcard]
        rfl
    · refine ⟨pending.erase t, fun t' => ?_, ?_⟩
      · rw [h.notifying, Finset.mem_erase, hpending]
      · have hcard' := Finset.card_erase_add_one ((hpending t).mpr h.before)
        simp only [h.callbacks, h.stores, hcallback, if_true, ← hcard]
        simp
        omega
    · refine ⟨pending, fun t => ?_, ?_⟩
      · rw [h.notifying, hpending]
      · rw [h.callbacks, h.stores, hcard]
        rfl

end runs

/-- **One callback per closure, exactly if no `notifyClose` finds the connection closed.** -/
theorem close_notified_iff (es : List ConnectionEvent) (hrun : connection.Run (.start true) es)
    (hdone : ∀ t, ((connection.after (.start true) es).pcs t).notifyingClose = false) :
    (connection.after (.start true) es).closedCallbacks = closures es ↔
      connection.Along FindsNotClosed (.start true) es := by
  obtain ⟨pending, hpending, hcard⟩ := callbacks_add_pending hrun
  have hnone : pending = ∅ := Finset.eq_empty_of_forall_notMem fun t ht => by
    have hnotifying := (hpending t).mp ht
    rw [hdone t] at hnotifying
    cases hnotifying
  have hcallbacks : (connection.after (.start true) es).closedCallbacks = closedStores es := by
    simpa [hnone] using hcard
  have hle : ∀ (c : Connection) (e : ConnectionEvent),
      (if c.closes e = true then 1 else 0) ≤ if c.storesClosed e = true then 1 else 0 := by
    intro c e
    split_ifs with hcloses hstores
    · exact Nat.le_refl _
    · exact absurd (closes_iff.mp hcloses).1 hstores
    · exact Nat.zero_le _
    · exact Nat.le_refl _
  have hterm (c : Connection) (e : ConnectionEvent) :
      ((if c.closes e = true then 1 else 0) = if c.storesClosed e = true then 1 else 0) ↔
        FindsNotClosed c e := by
    rw [FindsNotClosed]
    by_cases hstores : c.storesClosed e = true <;> by_cases hstatus : c.status = .closed <;>
      simp [closes_iff, hstores, hstatus]
  calc (connection.after (.start true) es).closedCallbacks = closures es
      ↔ closures es = closedStores es := by rw [hcallbacks, eq_comm]
    _ ↔ connection.Along (fun c e => (if c.closes e = true then 1 else 0) =
          if c.storesClosed e = true then 1 else 0) (.start true) es := total_eq_iff hle
    _ ↔ connection.Along FindsNotClosed (.start true) es := by simp only [hterm]

/-- An application closes a connection that is open. -/
theorem close_notified_closed :
    let es : List ConnectionEvent := [.onConnect 0, .notify .io none, .call (.app 0) .close,
      .step (.app 0), .notify (.app 0) none, .step (.app 0), .step (.app 0)]
    (connection.after (.start true) es).closedCallbacks = closures es :=
  (close_notified_iff _ (by decide) (fun | .io => rfl | .app 0 => rfl | .app (_ + 1) => rfl)).mpr
    (by decide)

/-- **A lost connection that is reconnected**: `on_error` closes it and calls back, and so does
`reconnect`. -/
theorem lost_connection_reconnected :
    ¬∀ es : List ConnectionEvent, connection.Run (.start true) es →
      (∀ t, ((connection.after (.start true) es).pcs t).notifyingClose = false) →
      (connection.after (.start true) es).closedCallbacks = closures es := by
  intro h
  have hequal := h [.onConnect 0, .notify .io none, .onError 0, .notify .io none, .step .io,
    .call (.app 0) .reconnect, .step (.app 0), .notify (.app 0) none, .step (.app 0)] (by decide)
    (fun | .io => rfl | .app 0 => rfl | .app (_ + 1) => rfl)
  exact absurd hequal (by decide)

end Http2Comm.Client
