import Http2Comm.Lib.Machine
import Mathlib.Algebra.GroupWithZero.Nat
import Mathlib.Algebra.Order.Group.Nat

/-!
# Pools of machines

A pool is any number of components of one machine, each started at any time and each taking its
events independently of the others. What a run of the pool looks like from one component is then
a run of the component alone, over the events addressed to it (`pool_component`): a fact about
every run of one component is a fact about every component of every interleaving. Nothing in
this file names a program.
-/

set_option autoImplicit false

namespace Http2Comm.Lib

/-- An event of a pool: a component starts, or one of those there takes an event of its own. -/
inductive PoolEvent (σ α : Type*) where
  | start (s : σ)
  | on (i : Nat) (a : α)

namespace PoolEvent

variable {σ α : Type*}

/-- The events addressed to component `i`. -/
def own (i : Nat) (es : List (PoolEvent σ α)) : List α :=
  es.filterMap fun
    | .start _ => none
    | .on j a => if j = i then some a else none

@[simp] theorem own_nil (i : Nat) : own i ([] : List (PoolEvent σ α)) = [] := rfl

theorem own_snoc (i : Nat) (es : List (PoolEvent σ α)) (e : PoolEvent σ α) :
    own i (es ++ [e]) = own i es ++
      match e with
      | .start _ => []
      | .on j a => if j = i then [a] else [] := by
  cases e with
  | start s => simp [own]
  | on j a => by_cases h : j = i <;> simp [own, h]

theorem own_prefix (i : Nat) {es es' : List (PoolEvent σ α)} (h : es <+: es') :
    own i es <+: own i es' := h.filterMap _

end PoolEvent

namespace Machine

open PoolEvent

variable {σ α : Type*} (M : Machine σ α) (Init : σ → Prop)

/-- The pool of the components of `M` that start in a state of `Init`. -/
def pool : Machine (List σ) (PoolEvent σ α) where
  Enabled ss
    | .start s => Init s
    | .on i a => ∃ s, ss[i]? = some s ∧ M.Enabled s a
  next ss
    | .start s => ss ++ [s]
    | .on i a => ss.modify i (M.next · a)

instance decidablePool [∀ s, Decidable (Init s)] [∀ s a, Decidable (M.Enabled s a)] (ss : List σ)
    (e : PoolEvent σ α) : Decidable ((M.pool Init).Enabled ss e) :=
  match e with
  | .start s => inferInstanceAs (Decidable (Init s))
  | .on i a =>
    match h : ss[i]? with
    | some s => decidable_of_iff (M.Enabled s a) (by simp [pool, h])
    | none => isFalse (by simp [pool, h])

variable {M Init} {es : List (PoolEvent σ α)}

/-- An event of one component changes a sum over the components by what it changes there. -/
theorem sumIdx_on {A : Type*} [AddCommMonoid A] {ss : List σ} {i : Nat} {s : σ}
    (hs : ss[i]? = some s) (a : α) (g : Nat → σ → A) :
    (((M.pool Init).next ss (.on i a)).mapIdx g).sum + g i s =
      (ss.mapIdx g).sum + g i (M.next s a) := by
  change ((ss.modify i (M.next · a)).mapIdx g).sum + _ = _
  induction ss generalizing i g with
  | nil => simp at hs
  | cons s' ss ih =>
    cases i with
    | zero =>
      obtain rfl : s' = s := by simpa using hs
      simp only [List.modify_zero_cons, List.mapIdx_cons, List.sum_cons]
      rw [add_comm (g 0 (M.next s' a)), add_comm (g 0 s'), add_right_comm]
    | succ i =>
      have hrest := ih (i := i) (by simpa using hs) fun j => g (j + 1)
      simp only [List.modify_succ_cons, List.mapIdx_cons, List.sum_cons]
      rw [add_assoc, hrest, add_assoc]

theorem sum_on {A : Type*} [AddCommMonoid A] {ss : List σ} {i : Nat} {s : σ} (hs : ss[i]? = some s)
    (a : α) (g : σ → A) :
    (((M.pool Init).next ss (.on i a)).map g).sum + g s = (ss.map g).sum + g (M.next s a) := by
  have hmap (l : List σ) : l.mapIdx (fun _ => g) = l.map g := by
    apply List.ext_getElem?
    simp
  have hsum : (((M.pool Init).next ss (.on i a)).mapIdx fun _ => g).sum + _ = _ :=
    sumIdx_on hs a fun _ => g
  simpa only [hmap] using hsum

/-- The components and the events addressed to each. -/
structure Components (M : Machine σ α) (Init : σ → Prop) (es : List (PoolEvent σ α))
    (ss : List σ) : Prop where
  present : ∀ i s, ss[i]? = some s →
    ∃ s₀, Init s₀ ∧ M.Run s₀ (own i es) ∧ s = M.after s₀ (own i es)
  absent : ∀ i, ss[i]? = none → own i es = []

theorem components_start (s : σ) {ss : List σ} (hs : Init s) (h : Components M Init es ss) :
    Components M Init (es ++ [.start s]) (ss ++ [s]) where
  present i s' hi := by
    rw [own_snoc, List.append_nil]
    rcases Nat.lt_trichotomy i ss.length with hlt | rfl | hgt
    · rw [List.getElem?_append_left hlt] at hi
      exact h.present i s' hi
    · -- the component that starts has had no event
      obtain rfl : s = s' := by simpa using hi
      rw [h.absent _ (List.getElem?_eq_none (Nat.le_refl _))]
      exact ⟨s, hs, trivial, rfl⟩
    · rw [List.getElem?_eq_none (by simp; omega)] at hi
      exact absurd hi (by simp)
  absent i hi := by
    rw [own_snoc, List.append_nil]
    refine h.absent i (List.getElem?_eq_none ?_)
    have hlen := List.getElem?_eq_none_iff.mp hi
    rw [List.length_append, List.length_singleton] at hlen
    omega

theorem components_on {i : Nat} {a : α} {ss : List σ} (hen : (M.pool Init).Enabled ss (.on i a))
    (h : Components M Init es ss) :
    Components M Init (es ++ [.on i a]) (ss.modify i (M.next · a)) where
  present j s' hj := by
    obtain ⟨s, hs, hsa⟩ := hen
    rw [List.getElem?_modify] at hj
    obtain ⟨s₁, hs₁, heq⟩ := Option.map_eq_some_iff.mp hj
    obtain ⟨s₀, hinit, hrun, hafter⟩ := h.present j s₁ hs₁
    rw [own_snoc]
    by_cases hij : i = j
    · subst hij
      obtain rfl : s = s₁ := Option.some.inj (hs.symm.trans hs₁)
      simp only [if_true] at heq
      refine ⟨s₀, hinit, ?_, ?_⟩
      · simp only [if_true]
        exact along_snoc.mpr ⟨hrun, hafter ▸ hsa⟩
      · simp [← heq, ← hafter]
    · simp only [if_neg hij, List.append_nil] at heq ⊢
      exact ⟨s₀, hinit, hrun, heq ▸ hafter⟩
  absent j hj := by
    obtain ⟨s, hs, -⟩ := hen
    rw [List.getElem?_modify] at hj
    have hnone : ss[j]? = none := Option.map_eq_none_iff.mp hj
    have hij : i ≠ j := by
      rintro rfl
      exact absurd (hs.symm.trans hnone) (by simp)
    rw [own_snoc, h.absent j hnone]
    simp [hij]

/-- **A component of a pool runs as it would alone**, over the events addressed to it. -/
theorem pool_component (hrun : (M.pool Init).Run [] es) :
    Components M Init es ((M.pool Init).after [] es) := by
  refine history (H := Components M Init) ⟨by simp, by simp⟩ ?_ hrun
  intro es e _ h hen
  cases e with
  | start s => exact components_start s hen h
  | on i a => exact components_on hen h

/-- **The potential rule.** When every event of a component is paid for by the potential of the
component and by what the event brings, then so are all the events of a pool. -/
theorem pool_paid {m : σ → Nat} {cost pay : PoolEvent σ α → Nat}
    (hstart : ∀ s, Init s → m s + cost (.start s) ≤ pay (.start s))
    (hstep : ∀ i s a, M.Enabled s a → m (M.next s a) + cost (.on i a) ≤ m s + pay (.on i a))
    (hrun : (M.pool Init).Run [] es) :
    (((M.pool Init).after [] es).map m).sum + (es.map cost).sum ≤ (es.map pay).sum := by
  refine history (H := fun es ss => (ss.map m).sum + (es.map cost).sum ≤ (es.map pay).sum)
    (Nat.le_refl _) ?_ hrun
  intro es e _ h hen
  simp only [List.map_append, List.map_singleton, List.sum_append, List.sum_singleton]
  cases e with
  | start s =>
    have hs := hstart s hen
    simp only [pool, List.map_append, List.map_singleton, List.sum_append, List.sum_singleton]
      at h ⊢
    omega
  | on i a =>
    obtain ⟨s, hs, hsa⟩ := hen
    have hi := hstep i s a hsa
    have hsum : (((M.pool Init).next ((M.pool Init).after [] es) (.on i a)).map m).sum + m s = _ :=
      sum_on hs a m
    omega

end Machine

end Http2Comm.Lib
