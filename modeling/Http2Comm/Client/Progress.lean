import Http2Comm.Client.SessionPointer
import Mathlib.Algebra.BigOperators.Group.Finset.Piecewise
import Mathlib.Algebra.Order.BigOperators.Group.Finset

/-!
# Everybody gets out of the client

The client holds a thread back in four places: at its own mutex, at the connection's, in
`wait_for`, and in `join`, which no run of a client reaches. The first wait has a timeout of its
own and so has the third; the second is for a mutex whose holder has only straight statements left.
Hence nothing is ever stuck: from every reachable state on, once nobody calls and nothing is
delivered, **the threads have a bounded number of statements left in all, in whatever order they
run and whatever `createSession`, `notify_one` and the clocks answer, and they come to an end only
where every thread is out of the client and both mutexes are free** (`client_lets_go`). That holds
after a lost connection too, and when the io thread waits for itself: it waits for its timeout.

The bound is a rank. Every thread counts the statements that it has left at most (`Pc.rank`,
`SendPc.rank`), and a thread about to notify counts besides what its `notify_one` can cost the
thread that it wakes, which tests its predicate once more. Spurious wake-ups alone are not counted:
they can go on forever, as the standard allows.
-/

set_option autoImplicit false

namespace Http2Comm.Client

open Lib Lib.Machine

/-! ## Ranks -/

/-- The statements left after a `notifyClose`. -/
def After.rank : After → Nat
  | .reconnect => 13
  | .close => 1
  | .closeImpl => 3
  | .return => 0

/-- The statements left in the connection at most. -/
def Pc.rank : Pc → Nat
  | .idle | .returned _ => 0
  | .unlock .. | .shutdown => 1
  | .read _ | .join => 2
  | .lateTest _ | .stop => 3
  | .relock _ true | .connectNotifyOne => 4
  | .blocked _ => 5
  | .block _ => 6
  | .test _ => 7
  | .lock _ | .relock _ false => 8
  | .storeNotOpen => 9
  | .configureSession => 10
  | .assign _ => 11
  | .createSession => 12
  | .reset => 13
  | .closedCallback after => after.rank + 1
  | .notifyOne after => after.rank + 5
  | .storeClosed after => after.rank + 6

/-- The statements left in the client at most. -/
def SendPc.rank : SendPc → Nat
  | .idle => 0
  | .inCallback => 1
  | .post _ | .notifyingClose => 2
  | .retest _ => 3
  | .unlock _ => 4
  | .reconnecting _ => 5
  | .lockedTest _ => 25
  | .lock _ => 26
  | .test _ => 27

def ClientState.rank (s : ClientState) (t : Thread) : Nat :=
  (s.pcs t).rank + (s.connection.pcs t).rank

/-! ## What goes on by itself -/

/-- The events that finish what has begun: statements, the answers that they wait for, timeouts,
and the ends of callbacks. A spurious wake-up is none of them. -/
def ClientEvent.finishes : ClientEvent → Bool
  | .connection (.step _) | .connection (.create ..) | .connection (.notify ..)
  | .connection (.wake _ true) | .callbackReturns _ | .step _ | .lockTimesOut _ => true
  | _ => false

/-- The thread that the event is of. -/
def ClientEvent.thread : ClientEvent → Thread
  | .connection e => e.thread
  | .asyncSend t _ | .callbackReturns t | .step t | .lockTimesOut t => t
  | .expire | .delayFails | .submit _ | .callback => .io

/-- The thread that the event notifies. -/
def ClientEvent.woken : ClientEvent → Option Thread
  | .connection (.notify _ woken) => woken
  | _ => none

/-- By how much the event lowers the rank of a thread: its own, and further if it notifies. -/
def ClientEvent.lowers (e : ClientEvent) (t : Thread) : Nat :=
  if t = e.thread then if e.woken.isSome then 4 else 1 else 0

/-- By how much the event raises it: that of the thread that it notifies. -/
def ClientEvent.raises (e : ClientEvent) (t : Thread) : Nat := if e.woken = some t then 3 else 0

section step

variable {c : Connection} {s : ClientState} {t : Thread}

/-- A statement lowers the rank of its thread. -/
theorem rank_step (hcan : c.CanStep t) : ((c.step t).pcs t).rank < (c.pcs t).rank := by
  unfold Connection.CanStep at hcan
  rw [pcs_step]
  cases hp : c.pcs t with
  | closedCallback after => cases after <;> simp [After.entry, Pc.rank, After.rank]
  | test w =>
    simp only
    split <;> cases w <;> simp [Wait.leave, Pc.rank]
  | lateTest w => cases w <;> simp [Wait.leave, Pc.rank]
  | relock w timedOut => cases timedOut <;> simp [Pc.rank]
  | _ => simp_all [Pc.rank]

/-- What an event of the connection does to the ranks. -/
theorem connectionRank_next {e : ConnectionEvent} (hen : c.Enabled e)
    (he : (ClientEvent.connection e).finishes = true) (t' : Thread) :
    ((c.next e).pcs t').rank + (ClientEvent.connection e).lowers t' ≤
      (c.pcs t').rank + (ClientEvent.connection e).raises t' := by
  by_cases ht : t' = e.thread
  · subst ht
    simp only [ClientEvent.lowers, ClientEvent.thread, if_true]
    cases e with
    | step t =>
      have hstep := rank_step hen
      exact hstep
    | create t created =>
      have hp : c.pcs t = .createSession := hen
      cases created <;> simp [Connection.next, ConnectionEvent.thread, hp, Pc.rank,
        ClientEvent.woken, ClientEvent.raises]
    | notify t woken =>
      have hnotifies := hen.1
      have hlower : ((c.next (.notify t woken)).pcs t).rank + 4 ≤ (c.pcs t).rank := by
        simp only [Connection.next]
        cases hp : c.pcs t <;> simp_all [Pc.notifies, Pc.rank]
      cases woken with
      | none => exact Nat.le_trans (by simp [ConnectionEvent.thread, ClientEvent.woken]) hlower
      | some t'' => exact Nat.le_add_right_of_le hlower
    | wake t timedOut =>
      have hblocked : (c.pcs t).isBlocked = true := hen
      cases timedOut with
      | false => simp [ClientEvent.finishes] at he
      | true =>
        cases hp : c.pcs t <;> simp_all [Pc.isBlocked]
        simp [Connection.next, ConnectionEvent.thread, hp, Pc.rank, ClientEvent.woken,
          ClientEvent.raises]
    | _ => simp [ClientEvent.finishes] at he
  · have hlowers : (ClientEvent.connection e).lowers t' = 0 := if_neg ht
    rw [hlowers]
    rcases pcs_next_ne c ht with hpc | ⟨w, hnotify, hblocked, hwoken⟩
    · rw [hpc]
      exact Nat.le_add_right _ _
    · rw [hwoken, hblocked, hnotify]
      simp [Pc.rank, ClientEvent.woken, ClientEvent.raises]

/-- What an event does to the ranks that leaves the connection as it is. -/
theorem rank_moves {e : ClientEvent} {pc : SendPc} (hwoken : e.woken = none)
    (hnext : (s.next e).pcs = Function.update s.pcs e.thread pc)
    (hconn : (s.next e).connection = s.connection) (hlower : pc.rank < (s.pcs e.thread).rank)
    (t' : Thread) : (s.next e).rank t' + e.lowers t' ≤ s.rank t' + e.raises t' := by
  simp only [ClientState.rank, hnext, hconn, ClientEvent.lowers, ClientEvent.raises, hwoken]
  by_cases ht : t' = e.thread
  · subst ht
    simp only [Function.update_self, if_true, Option.isSome_none, Bool.false_eq_true, if_false,
      reduceCtorEq]
    omega
  · simp [ht]

/-- A statement of the client lowers the rank of its thread. -/
theorem rank_sendStep (hcan : s.CanStep t) : ((s.step t).pcs t).rank < (s.pcs t).rank := by
  unfold ClientState.CanStep at hcan
  unfold ClientState.step
  cases hp : s.pcs t with
  | idle => simp [hp] at hcan
  | inCallback => simp [hp] at hcan
  | test nested =>
    simp only
    split <;> simp [ClientState.goto, SendPc.rank]
  | lockedTest nested =>
    simp only
    split <;> simp [ClientState.goto, SendPc.rank]
  | retest nested =>
    simp only
    split <;> simp [ClientState.goto, SendPc.rank]
  | post nested => cases nested <;> simp [ClientState.goto, SendPc.rank]
  | _ => simp [ClientState.goto, SendPc.rank]

theorem rank_clientStep (hcan : s.CanStep t) (t' : Thread) :
    (s.next (.step t)).rank t' + (ClientEvent.step t).lowers t' ≤
      s.rank t' + (ClientEvent.step t).raises t' := by
  cases connectionMoves_next (e := .step t) hcan with
  | stays _ hconn =>
    refine rank_moves (e := .step t) rfl ?_ hconn (rank_sendStep hcan) t'
    funext t''
    by_cases ht : t'' = t
    · subst ht
      simp [ClientState.next, ClientEvent.thread]
    · exact (pcs_clientStep_ne ht).trans (Function.update_of_ne ht _ _).symm
  | moves e' he => cases he
  | fails he => cases he
  | reconnects t'' nested he hpc hconn =>
    -- the statements of the connection's `reconnect` are counted in the rank of the test
    obtain rfl : t = t'' := by simpa using he
    have hpcs : ((s.step t).pcs t).rank ≤ 5 := by
      simp only [ClientState.step, hpc]
      split <;> simp [ClientState.goto, SendPc.rank]
    simp only [ClientState.rank, hconn]
    by_cases ht : t' = t
    · subst ht
      have hbefore : (s.pcs t').rank = 25 := by rw [hpc]; rfl
      have hcall : ((s.connection.next (.call t' .reconnect)).pcs t').rank = 19 := by
        rw [Connection.next, goto_pcs, Function.update_self]
        rfl
      have hlowers : (ClientEvent.step t').lowers t' = 1 := if_pos rfl
      have hnext : (s.next (.step t')).pcs = (s.step t').pcs := rfl
      rw [hbefore, hcall, hlowers, hnext]
      omega
    · have hsame : (s.next (.step t)).pcs t' = s.pcs t' := pcs_clientStep_ne ht
      have hlowers : (ClientEvent.step t).lowers t' = 0 := if_neg ht
      simp [hsame, hlowers, Connection.next, ht]

/-- What an event of the client does to the ranks. -/
theorem rank_next {e : ClientEvent} (hen : s.Enabled e) (he : e.finishes = true) (t' : Thread) :
    (s.next e).rank t' + e.lowers t' ≤ s.rank t' + e.raises t' := by
  cases e with
  | connection e =>
    have hen' : s.connection.Enabled e := by
      cases e <;> first | exact hen | simp [ClientEvent.finishes] at he
    have hconn := connectionRank_next hen' he t'
    simp only [ClientState.rank, ClientState.next]
    omega
  | callbackReturns t =>
    have hp : s.pcs t = .inCallback := hen
    exact rank_moves (e := .callbackReturns t) rfl rfl rfl
      (by simp [ClientEvent.thread, hp, SendPc.rank]) t'
  | lockTimesOut t =>
    obtain ⟨nested, hp⟩ : ∃ nested, s.pcs t = .lock nested := by
      rcases hen with hp | hp
      · exact ⟨_, hp⟩
      · exact ⟨_, hp⟩
    have hnext : s.next (.lockTimesOut t) = s.goto t (.retest nested) := by
      simp [ClientState.next, hp]
    exact rank_moves (e := .lockTimesOut t) rfl (by rw [hnext]; rfl) (by rw [hnext]; rfl)
      (by simp [ClientEvent.thread, hp, SendPc.rank]) t'
  | step t => exact rank_clientStep hen t'
  | _ => simp [ClientEvent.finishes] at he

/-! ## The descent -/

theorem pcRank_eq_zero {pc : Pc} : pc.rank = 0 ↔ pc.ready = true := by
  cases pc with
  | relock w timedOut => cases timedOut <;> simp [Pc.rank, Pc.ready]
  | _ => simp [Pc.rank, Pc.ready]

theorem sendRank_eq_zero {pc : SendPc} : pc.rank = 0 ↔ pc = .idle := by
  cases pc <;> simp [SendPc.rank]

/-- No thread has more than this left. -/
theorem rank_le (s : ClientState) (t : Thread) : s.rank t ≤ 46 := by
  have hsend : (s.pcs t).rank ≤ 27 := by cases s.pcs t <;> simp [SendPc.rank]
  have hpc : (s.connection.pcs t).rank ≤ 19 := by
    cases s.connection.pcs t with
    | relock w timedOut => cases timedOut <;> simp [Pc.rank]
    | storeClosed after => cases after <;> simp [Pc.rank, After.rank]
    | notifyOne after => cases after <;> simp [Pc.rank, After.rank]
    | closedCallback after => cases after <;> simp [Pc.rank, After.rank]
    | _ => simp [Pc.rank]
  exact Nat.add_le_add hsend hpc

/-- An event moves its own thread in the client, and no other. -/
theorem sendPcs_next_ne {e : ClientEvent} (h : t ≠ e.thread) : (s.next e).pcs t = s.pcs t := by
  cases e with
  | asyncSend t' delayed =>
    cases delayed with
    | true => rfl
    | false => exact Function.update_of_ne h _ _
  | submit accepted =>
    cases accepted with
    | true => rfl
    | false => exact Function.update_of_ne h _ _
  | step t' => exact pcs_clientStep_ne h
  | lockTimesOut t' =>
    simp only [ClientState.next]
    split
    · exact Function.update_of_ne h _ _
    · rfl
  | connection e => rfl
  | delayFails => rfl
  | _ => exact Function.update_of_ne h _ _

/-- A thread that is out of the client is brought into it by its own events alone. -/
theorem rank_zero_next {e : ClientEvent} (hen : s.Enabled e) (hne : t ≠ e.thread)
    (h : s.rank t = 0) : (s.next e).rank t = 0 := by
  obtain ⟨hsend, hpc⟩ := Nat.add_eq_zero_iff.mp h
  have hstays (e' : ConnectionEvent) (hne : t ≠ e'.thread) :
      ((s.connection.next e').pcs t).rank = 0 := by
    rcases pcs_next_ne s.connection hne with hsame | ⟨w, -, hblocked, -⟩
    · rw [hsame]
      exact hpc
    · simp [hblocked, Pc.rank] at hpc
  have hconn : ((s.next e).connection.pcs t).rank = 0 := by
    cases connectionMoves_next hen with
    | stays _ hconn =>
      rw [hconn]
      exact hpc
    | moves e' he _ _ =>
      subst he
      exact hstays e' hne
    | fails he _ =>
      subst he
      exact hstays (.call .io .notifyClose) hne
    | reconnects t' nested he _ hconn =>
      subst he
      rw [hconn]
      exact hstays (.call t' .reconnect) hne
  simp [ClientState.rank, sendPcs_next_ne hne, hsend, hconn]

/-- The threads outside of the set are out of the client. -/
def Confined (ts : Finset Thread) (s : ClientState) : Prop := ∀ t, t ∉ ts → s.rank t = 0

variable {ts : Finset Thread}

/-- What an event lowers in all, and what it raises. -/
theorem sum_lowers {e : ClientEvent} (h : e.thread ∈ ts) :
    ts.sum e.lowers = if e.woken.isSome then 4 else 1 := by
  unfold ClientEvent.lowers
  rw [Finset.sum_ite_eq' ts e.thread]
  exact if_pos h

theorem sum_raises (e : ClientEvent) :
    ts.sum e.raises ≤ if e.woken.isSome then 3 else 0 := by
  unfold ClientEvent.raises
  cases e.woken with
  | none => simp
  | some t =>
    simp only [Option.some.injEq, Option.isSome_some, if_true]
    rw [Finset.sum_ite_eq ts t]
    split <;> simp

/-- What finishes is of a thread that is not out. -/
theorem rank_pos {e : ClientEvent} (hen : s.Enabled e) (he : e.finishes = true) :
    0 < s.rank e.thread := by
  have hrank := rank_next hen he e.thread
  rw [ClientEvent.lowers, if_pos rfl, ClientEvent.raises] at hrank
  cases hw : e.woken with
  | none =>
    simp only [hw, Option.isSome_none, Bool.false_eq_true, if_false, reduceCtorEq] at hrank
    omega
  | some t =>
    simp only [hw, Option.isSome_some, if_true] at hrank
    split at hrank <;> omega

/-- **What finishes lowers the sum of the ranks.** -/
theorem confined_next {e : ClientEvent} (h : Confined ts s) (hen : s.Enabled e)
    (he : e.finishes = true) :
    Confined ts (s.next e) ∧ ts.sum (s.next e).rank < ts.sum s.rank := by
  have hrank := rank_next hen he
  have hmem : e.thread ∈ ts := by
    by_contra hout
    exact absurd (h e.thread hout) (Nat.ne_of_gt (rank_pos hen he))
  constructor
  · intro t hout
    refine rank_zero_next hen ?_ (h t hout)
    rintro rfl
    exact hout hmem
  · have hsum : ts.sum (s.next e).rank + ts.sum e.lowers ≤ ts.sum s.rank + ts.sum e.raises := by
      rw [← Finset.sum_add_distrib, ← Finset.sum_add_distrib]
      exact Finset.sum_le_sum fun t _ => hrank t
    have hraises : ts.sum e.raises ≤ if e.woken.isSome then 3 else 0 := sum_raises e
    rw [sum_lowers hmem] at hsum
    split at hsum
    all_goals simp_all
    all_goals omega

/-- The threads of the events so far. -/
def touched (es : List ClientEvent) : Finset Thread := (es.map ClientEvent.thread).toFinset

theorem confined_run {closedCallbackSet : Bool} {es : List ClientEvent}
    (hrun : sending.Run (.start closedCallbackSet) es) :
    Confined (touched es) (sending.after (.start closedCallbackSet) es) := by
  refine history (H := fun es s => Confined (touched es) s) (fun _ _ => rfl) ?_ hrun
  intro es e _ h hen t hout
  simp only [touched, List.map_append, List.map_singleton, List.mem_toFinset, List.mem_append,
    List.mem_singleton, not_or] at hout
  exact rank_zero_next hen hout.2 (h t (by simpa [touched] using hout.1))

/-- At most 46 statements for each event so far. -/
theorem sum_rank_le (s : ClientState) (es : List ClientEvent) :
    (touched es).sum s.rank ≤ 46 * es.length := by
  have hcard : (touched es).card ≤ es.length :=
    (List.toFinset_card_le _).trans (Nat.le_of_eq (List.length_map ..))
  calc (touched es).sum s.rank
      ≤ (touched es).card • 46 := Finset.sum_le_card_nsmul _ _ _ fun t _ => rank_le s t
    _ = 46 * (touched es).card := Nat.mul_comm _ _
    _ ≤ 46 * es.length := Nat.mul_le_mul_left _ hcard

/-! ## Nothing is stuck -/

/-- The thread is on the way to joining the io thread. -/
def Pc.closes : Pc → Bool
  | .storeClosed .closeImpl | .notifyOne .closeImpl | .closedCallback .closeImpl | .stop
  | .join => true
  | _ => false

/-- A client does not call `closeImpl`: its destructor does, when no call is left. -/
theorem closes_next {e : ConnectionEvent} (h : (c.pcs t).closes = false) (hen : c.Enabled e)
    (hcall : e ≠ .call t .closeImpl) : ((c.next e).pcs t).closes = false := by
  cases pcMoves_next t hen with
  | stays hpc =>
    rw [hpc]
    exact h
  | calls op he _ hafter =>
    rw [hafter]
    cases op <;> simp_all [Op.entry, Pc.closes]
  | delivers _ hafter => rcases hafter with hafter | hafter <;> simp [hafter, Pc.closes]
  | steps he =>
    subst he
    have hcan : c.CanStep t := hen
    rw [show (c.next (.step t)).pcs t = (c.step t).pcs t from rfl, pcs_step]
    cases hp : c.pcs t with
    | storeClosed after => cases after <;> simp_all [Pc.closes]
    | closedCallback after => cases after <;> simp_all [Pc.closes, After.entry]
    | configureSession =>
      simp only
      split <;> simp [Pc.closes]
    | test w =>
      simp only
      split <;> cases w <;> simp [Pc.closes, Wait.leave]
    | lateTest w => cases w <;> simp [Pc.closes, Wait.leave]
    | relock w timedOut => cases timedOut <;> simp [Pc.closes]
    | _ => simp_all [Pc.closes]
  | creates created he =>
    subst he
    cases created <;> simp [Connection.next, Pc.closes]
  | notifies woken he hafter =>
    subst he
    have hnotifies := hen.1
    simp only [Connection.next]
    cases hp : c.pcs t with
    | notifyOne after => cases after <;> simp_all [Pc.closes]
    | connectNotifyOne => simp [Pc.closes]
    | _ => simp [hp, Pc.notifies] at hnotifies
  | wakes w timedOut _ hafter => simp [hafter, Pc.closes]

theorem notify_enabled (h : (c.pcs t).notifies = true) : ∃ woken, c.Enabled (.notify t woken) := by
  cases hw : c.waiters with
  | nil => exact ⟨none, h, hw⟩
  | cons t' ts => exact ⟨some t', h, by simp [hw]⟩

/-- What a thread inside the connection needs: the mutex free, or held by one that can go on. -/
theorem connection_goes_on {t : Thread} (hheld : ∀ t, c.mutex = some t → (c.pcs t).holds = true)
    (hpointed : Pointed c) (hopen : (c.pcs t).closes = false) (hpc : (c.pcs t).ready = false) :
    ∃ e, (ClientEvent.connection e).finishes = true ∧ c.Enabled e := by
  have hmutex : c.mutex = none ∨ ∃ t', c.CanStep t' := by
    cases hm : c.mutex with
    | none => exact Or.inl rfl
    | some t' =>
      have hholds := hheld t' hm
      refine Or.inr ⟨t', ?_⟩
      unfold Connection.CanStep
      cases hp : c.pcs t' <;> simp_all [Pc.holds]
  by_cases hcan : ∃ t', c.CanStep t'
  · obtain ⟨t', hcan⟩ := hcan
    exact ⟨.step t', rfl, hcan⟩
  · -- the thread waits for an answer
    have hfree := hmutex.resolve_right hcan
    have hthread : ¬c.CanStep t := fun h => hcan ⟨t, h⟩
    unfold Connection.CanStep at hthread
    cases hp : c.pcs t with
    | createSession => exact ⟨.create t true, rfl, hp⟩
    | blocked w => exact ⟨.wake t true, rfl, by simp [Connection.Enabled, hp, Pc.isBlocked]⟩
    | notifyOne after =>
      obtain ⟨woken, hen⟩ := notify_enabled (c := c) (t := t) (by rw [hp]; rfl)
      exact ⟨.notify t woken, rfl, hen⟩
    | connectNotifyOne =>
      obtain ⟨woken, hen⟩ := notify_enabled (c := c) (t := t) (by rw [hp]; rfl)
      exact ⟨.notify t woken, rfl, hen⟩
    | configureSession =>
      obtain ⟨sid, hsid, -⟩ := hpointed.configuring t hp
      simp [hp, hsid] at hthread
    | join => simp [hp, Pc.closes] at hopen
    | idle => simp [hp, Pc.ready] at hpc
    | returned result => simp [hp, Pc.ready] at hpc
    | _ => simp [hp, hfree] at hthread

theorem finishes_enabled {e : ConnectionEvent} (he : (ClientEvent.connection e).finishes = true)
    (hen : s.connection.Enabled e) : s.Enabled (.connection e) := by
  cases e <;> first | exact hen | simp [ClientEvent.finishes] at he

/-- **A thread that is not out of the client goes on, or another one does.** -/
theorem goes_on (hexclusive : Exclusive s) (hpointed : Pointed s.connection)
    (hopen : ∀ t, (s.connection.pcs t).closes = false) (hrank : s.rank t ≠ 0) :
    ∃ e, e.finishes = true ∧ s.Enabled e := by
  have hinside (hready : (s.connection.pcs t).ready = false) :
      ∃ e, e.finishes = true ∧ s.Enabled e := by
    obtain ⟨e, he, hen⟩ := connection_goes_on hexclusive.held hpointed (hopen t) hready
    exact ⟨.connection e, he, finishes_enabled he hen⟩
  cases hready : (s.connection.pcs t).ready with
  | false => exact hinside hready
  | true =>
    have hpc : (s.connection.pcs t).rank = 0 := pcRank_eq_zero.mpr hready
    cases hp : s.pcs t with
    | idle => simp [ClientState.rank, hp, hpc, SendPc.rank] at hrank
    | inCallback => exact ⟨.callbackReturns t, rfl, hp⟩
    | lock nested =>
      exact ⟨.lockTimesOut t, rfl, by cases nested <;> simp [ClientState.Enabled, hp]⟩
    | _ =>
      refine ⟨.step t, rfl, ?_⟩
      simp [ClientState.Enabled, ClientState.CanStep, hp, hready]

/-! ## The client's mutex -/

/-- The client's mutex is held by the thread that its program counter says holds it. -/
def MutexOwned (s : ClientState) : Prop := ∀ t, s.mutex = some t → (s.pcs t).owns = true

theorem mutexOwned_clientStep (h : MutexOwned s) : MutexOwned (s.step t) := by
  intro t' hmutex
  by_cases ht : t' = t
  · subst ht
    have hbefore := h t'
    unfold ClientState.step at hmutex ⊢
    cases hp : s.pcs t' with
    | test nested => simp_all [ClientState.goto, SendPc.owns]
    | lockedTest nested =>
      simp only
      split <;> simp [ClientState.goto, SendPc.owns]
    | retest nested => simp_all [ClientState.goto, SendPc.owns]
    | post nested => simp_all [ClientState.goto, SendPc.owns]
    | _ => simp_all [ClientState.goto, SendPc.owns]
  · rw [pcs_clientStep_ne ht]
    refine h t' ?_
    unfold ClientState.step at hmutex
    cases hp : s.pcs t with
    | lock nested => simp_all [ClientState.goto]
    | unlock nested => simp_all [ClientState.goto]
    | lockedTest nested =>
      simp only [hp] at hmutex
      split at hmutex <;> simpa [ClientState.goto] using hmutex
    | _ => simpa [hp, ClientState.goto] using hmutex

theorem mutexOwned_next {e : ClientEvent} (h : MutexOwned s) (hen : s.Enabled e) :
    MutexOwned (s.next e) := by
  by_cases hstep : ∃ t, e = .step t
  · obtain ⟨t, rfl⟩ := hstep
    exact mutexOwned_clientStep h
  · intro t hmutex
    rw [mutex_clientNext (not_exists.mp hstep)] at hmutex
    have howns := h t hmutex
    cases clientMoves_next t hen with
    | stays hpc =>
      rw [hpc]
      exact howns
    | steps he => exact absurd ⟨t, he⟩ hstep
    | enters hbefore _ => rcases hbefore with hp | hp <;> simp [hp, SendPc.owns] at howns
    | givesUp nested hbefore _ => simp [hbefore, SendPc.owns] at howns

theorem open_clientNext {e : ClientEvent} (h : ∀ t, (s.connection.pcs t).closes = false)
    (hen : s.Enabled e) :
    ∀ t, ((s.next e).connection.pcs t).closes = false := by
  intro t
  cases connectionMoves_next hen with
  | stays _ hconn =>
    rw [hconn]
    exact h t
  | moves e' he hen' hcall =>
    subst he
    exact closes_next (h t) hen' (hcall t .closeImpl)
  | fails he hidle =>
    subst he
    have hready : s.connection.Enabled (.call .io .notifyClose) :=
      ⟨hidle.2.1, fun _ => hidle.2.2⟩
    exact closes_next (h t) hready (by simp)
  | reconnects t' nested _ _ hconn =>
    rw [hconn]
    by_cases ht : t = t'
    · simp [Connection.next, ht, Op.entry, Pc.closes]
    · simpa [Connection.next, ht] using h t

theorem rank_eq_zero : s.rank t = 0 ↔ s.pcs t = .idle ∧ (s.connection.pcs t).ready = true := by
  rw [ClientState.rank, Nat.add_eq_zero_iff, sendRank_eq_zero, pcRank_eq_zero]

/-- Where nothing goes on, every thread is out and nobody holds a mutex, and nowhere else. -/
theorem stuck_iff_out (hexclusive : Exclusive s) (hmutexOwned : MutexOwned s)
    (hpointed : Pointed s.connection) (hopen : ∀ t, (s.connection.pcs t).closes = false) :
    (∀ e, e.finishes = true → ¬s.Enabled e) ↔
      s.mutex = none ∧ s.connection.mutex = none ∧
        ∀ t, s.pcs t = .idle ∧ (s.connection.pcs t).ready = true := by
  constructor
  swap
  · rintro ⟨-, -, hout⟩ e he hen
    exact absurd (rank_eq_zero.mpr (hout e.thread)) (Nat.ne_of_gt (rank_pos hen he))
  intro hstuck
  have hout : ∀ t, s.pcs t = .idle ∧ (s.connection.pcs t).ready = true := by
    intro t
    refine rank_eq_zero.mp ?_
    by_contra hrank
    obtain ⟨e, he, hen⟩ := goes_on hexclusive hpointed hopen hrank
    exact hstuck e he hen
  refine ⟨?_, ?_, hout⟩
  · by_contra hmutex
    obtain ⟨t, ht⟩ := Option.ne_none_iff_exists'.mp hmutex
    have howns := hmutexOwned t ht
    rw [(hout t).1] at howns
    cases howns
  · by_contra hmutex
    obtain ⟨t, ht⟩ := Option.ne_none_iff_exists'.mp hmutex
    have hholds := hexclusive.held t ht
    have hready := (hout t).2
    cases hp : s.connection.pcs t <;> simp_all [Pc.holds, Pc.ready]

end step

/-! ## Whole runs -/

theorem mutexOwned_run {closedCallbackSet : Bool} {es : List ClientEvent}
    (hrun : sending.Run (.start closedCallbackSet) es) :
    MutexOwned (sending.after (.start closedCallbackSet) es) :=
  invariant (fun _ _ h hen => mutexOwned_next h hen) (by simp [MutexOwned, ClientState.start]) hrun

theorem open_run {closedCallbackSet : Bool} {es : List ClientEvent}
    (hrun : sending.Run (.start closedCallbackSet) es) :
    ∀ t, ((sending.after (.start closedCallbackSet) es).connection.pcs t).closes = false :=
  invariant (I := fun s => ∀ t, (s.connection.pcs t).closes = false)
    (fun _ _ h hen => open_clientNext h hen) (fun _ => rfl) hrun

/-- **Everybody gets out of the client.** From every reachable state on, the events that finish
what has begun are at most 46 for each event so far, in whatever order they come and whatever they
answer; and none of them can come exactly where both mutexes are free and every thread is out. -/
theorem client_lets_go (closedCallbackSet : Bool) (es : List ClientEvent)
    (hrun : sending.Run (.start closedCallbackSet) es) :
    ∀ fs, sending.Run (sending.after (.start closedCallbackSet) es) fs →
      (∀ e ∈ fs, e.finishes = true) →
      fs.length ≤ 46 * es.length ∧
      let s := sending.after (.start closedCallbackSet) (es ++ fs)
      ((∀ e, e.finishes = true → ¬s.Enabled e) ↔
        s.mutex = none ∧ s.connection.mutex = none ∧
          ∀ t, s.pcs t = .idle ∧ (s.connection.pcs t).ready = true) := by
  intro fs hfs hfinishes
  have hall : sending.Run (.start closedCallbackSet) (es ++ fs) := run_append.mpr ⟨hrun, hfs⟩
  constructor
  · have hbound := descent (I := Confined (touched es)) (m := fun s => (touched es).sum s.rank)
      (fun s e h he => confined_next h he.1 he.2) (confined_run hrun)
      (hfs.and (along_of_forall hfinishes))
    exact hbound.trans (sum_rank_le _ es)
  · exact stuck_iff_out (exclusive_run hall) (mutexOwned_run hall) (pointed_run hall)
      (open_run hall)

/-- The wait of `lossAndSend` times out, and the callback of its send returns. -/
def waitTimesOut : List ClientEvent :=
  [.connection (.wake (.app 0) true), .connection (.step (.app 0)), .connection (.step (.app 0)),
    .connection (.step (.app 0)), .connection (.step (.app 0)), .step (.app 0), .step (.app 0),
    .step (.app 0), .callbackReturns (.app 0)]

theorem client_lets_go_timeout :
    let s := sending.after (.start false) (lossAndSend ++ waitTimesOut)
    waitTimesOut.length ≤ 46 * lossAndSend.length ∧
      ∀ e, e.finishes = true → ¬s.Enabled e := by
  intro s
  obtain ⟨hbound, hout⟩ :=
    client_lets_go false lossAndSend (by decide) waitTimesOut (by decide) (by decide)
  refine ⟨hbound, hout.mpr ⟨by decide, by decide, ?_⟩⟩
  exact fun | .io => ⟨rfl, rfl⟩ | .app 0 => ⟨rfl, rfl⟩ | .app (_ + 1) => ⟨rfl, rfl⟩

end Http2Comm.Client
