import Mathlib.Data.List.Induction

/-!
# Event machines and their runs

A `Machine` is a state type driven by events: `Enabled s a` says that the event `a` can
happen in `s`, `next s a` is the state it leaves. The state a list of events leads to is
therefore a *function* of the list (`after`), and "this list of events can happen, in this
order" is a predicate on it (`Run`). Nothing in this file names a program; the rest of the
development instantiates it.

The rules the other modules use:

* `invariant_along` — a predicate that every step keeps, **given that the step satisfies `P`**,
  holds after every run whose steps all satisfy `P`. With `P := Enabled` this is the ordinary
  inductive invariant; with a stronger `P` it is the rule for "every run in which nothing of
  this kind happens";
* `history` — the same for a predicate that also reads the list of events so far, which is how
  a fact about the *inputs* (the chunks received, the identifiers handed out) is related to the
  state without adding history variables to it;
* `descent` — a measure that every step lowers bounds the length of a run;
* `total_along` — a quantity that every step adds to is, after a run, the `total` of what the steps
  added;
* `simulate` — a machine follows another, event by event, and keeps a relation to its states;
  `lockstep` is the case of two machines driven by the same events, and `image` the case of a
  relation that is a map, which carries runs over both ways;
* `stutter` — a machine follows those steps of another that it sees (`seen`), and the others make
  no difference to it.
-/

set_option autoImplicit false

namespace Http2Comm.Lib

/-- A machine driven by events: which event can happen in which state, and what it leaves. -/
structure Machine (σ α : Type*) where
  Enabled : σ → α → Prop
  next : σ → α → σ

namespace Machine

variable {σ τ α β : Type*} (M : Machine σ α)

/-- The state after a list of events. -/
def after : σ → List α → σ := List.foldl M.next

/-- Every event of the list satisfies `P` in the state it meets. -/
def Along (P : σ → α → Prop) : σ → List α → Prop
  | _, [] => True
  | s, a :: as => P s a ∧ Along P (M.next s a) as

/-- The events of the list can happen, one after the other, from `s`. -/
def Run (s : σ) (as : List α) : Prop := M.Along M.Enabled s as

instance decidableAlong {P : σ → α → Prop} [∀ s a, Decidable (P s a)] :
    ∀ (s : σ) (as : List α), Decidable (M.Along P s as)
  | _, [] => isTrue trivial
  | s, _ :: as => @instDecidableAnd _ _ _ (decidableAlong (M.next s _) as)

instance decidableRun [∀ s a, Decidable (M.Enabled s a)] (s : σ) (as : List α) :
    Decidable (M.Run s as) := decidableAlong M s as

variable {M} {P Q : σ → α → Prop} {s : σ} {as bs : List α} {a : α}

@[simp] theorem after_nil : M.after s [] = s := rfl

@[simp] theorem after_cons : M.after s (a :: as) = M.after (M.next s a) as := rfl

@[simp] theorem after_append : M.after s (as ++ bs) = M.after (M.after s as) bs :=
  List.foldl_append

@[simp] theorem along_nil : M.Along P s [] := trivial

@[simp] theorem along_cons :
    M.Along P s (a :: as) ↔ P s a ∧ M.Along P (M.next s a) as := Iff.rfl

theorem along_append :
    M.Along P s (as ++ bs) ↔ M.Along P s as ∧ M.Along P (M.after s as) bs := by
  induction as generalizing s with
  | nil => simp
  | cons a as ih => simp only [List.cons_append, along_cons, after_cons, ih, and_assoc]

theorem along_snoc :
    M.Along P s (as ++ [a]) ↔ M.Along P s as ∧ P (M.after s as) a := by
  simp [along_append]

theorem Along.and (hP : M.Along P s as) (hQ : M.Along Q s as) :
    M.Along (fun s a => P s a ∧ Q s a) s as := by
  induction as generalizing s with
  | nil => trivial
  | cons a as ih => exact ⟨⟨hP.1, hQ.1⟩, ih hP.2 hQ.2⟩

theorem Along.imp (h : ∀ s a, P s a → Q s a) (hP : M.Along P s as) : M.Along Q s as := by
  induction as generalizing s with
  | nil => trivial
  | cons a as ih => exact ⟨h s a hP.1, ih hP.2⟩

/-- What holds of every event of the list holds of it along every run. -/
theorem along_of_forall {p : α → Prop} (h : ∀ a ∈ as, p a) : M.Along (fun _ a => p a) s as := by
  induction as generalizing s with
  | nil => trivial
  | cons a as ih =>
    exact ⟨h a (List.mem_cons_self ..), ih fun b hb => h b (List.mem_cons_of_mem _ hb)⟩

theorem run_append : M.Run s (as ++ bs) ↔ M.Run s as ∧ M.Run (M.after s as) bs := along_append

/-- **The invariant rule.** What every step that satisfies `P` keeps, a run whose steps all
satisfy `P` keeps. -/
theorem invariant_along {I : σ → Prop} (hstep : ∀ s a, I s → P s a → I (M.next s a))
    (hs : I s) (h : M.Along P s as) : I (M.after s as) := by
  induction as generalizing s with
  | nil => exact hs
  | cons a as ih => exact ih (hstep s a hs h.1) h.2

/-- The invariant rule at `P := Enabled`. -/
theorem invariant {I : σ → Prop} (hstep : ∀ s a, I s → M.Enabled s a → I (M.next s a))
    (hs : I s) (h : M.Run s as) : I (M.after s as) :=
  invariant_along hstep hs h

/-- **The descent rule.** When every step that satisfies `P` keeps `I` and lowers the measure, the
measure bounds the length of a run of such steps. -/
theorem descent {I : σ → Prop} {m : σ → Nat}
    (hstep : ∀ s a, I s → P s a → I (M.next s a) ∧ m (M.next s a) < m s) (hs : I s)
    (h : M.Along P s as) : as.length ≤ m s := by
  induction as generalizing s with
  | nil => exact Nat.zero_le _
  | cons a as ih =>
    obtain ⟨hnext, hlower⟩ := hstep s a hs h.1
    have hrest := ih hnext h.2
    rw [List.length_cons]
    omega

/-- **The exactness rule.** When, of every step that satisfies `Q`, `G` holds after it exactly
if it held before and the step satisfies `P`, then `G` holds after a run of such steps exactly if
every one of them satisfies `P`. -/
theorem exact_along {I G : σ → Prop} (hinv : ∀ s a, I s → Q s a → I (M.next s a))
    (hstep : ∀ s a, I s → Q s a → (G (M.next s a) ↔ G s ∧ P s a))
    (hI : I s) (h : M.Along Q s as) : G (M.after s as) ↔ G s ∧ M.Along P s as := by
  induction as generalizing s with
  | nil => simp
  | cons a as ih =>
    rw [after_cons, ih (hinv s a hI h.1) h.2, hstep s a hI h.1, along_cons, and_assoc]

/-- Where a list is cut is a position of it. -/
theorem cut_eq {before rest : List α} (h : as = before ++ a :: rest) :
    as[before.length]? = some a ∧ as.take before.length = before := by
  simp [h]

/-- "Along a run" spelled out over the ways to cut the list at one of its events. -/
theorem along_iff_cut :
    M.Along P s as ↔ ∀ before a rest, as = before ++ a :: rest → P (M.after s before) a := by
  constructor
  · rintro h before a rest rfl
    exact (along_append.mp h).2.1
  · intro h
    induction as generalizing s with
    | nil => trivial
    | cons a as ih =>
      refine ⟨h [] a as rfl, ih ?_⟩
      rintro before b rest rfl
      exact h (a :: before) b rest rfl

/-- **The history rule.** A relation between the events so far and the state they lead to holds
of every run once it holds of the empty one and every step extends it. The step may use that
the events so far are themselves such a run. -/
theorem history {H : List α → σ → Prop} (hs : H [] s)
    (hstep : ∀ as a, M.Along P s as → H as (M.after s as) → P (M.after s as) a →
      H (as ++ [a]) (M.next (M.after s as) a))
    (h : M.Along P s as) : H as (M.after s as) := by
  induction as using List.reverseRecOn with
  | nil => exact hs
  | append_singleton as a ih =>
    obtain ⟨has, ha⟩ := along_snoc.mp h
    simpa using hstep as a has (ih has) ha

/-! ## Totals -/

variable (M) in
/-- The sum of `g` over the steps. -/
def total (g : σ → α → Nat) : σ → List α → Nat
  | _, [] => 0
  | s, a :: as => g s a + total g (M.next s a) as

variable {g g' : σ → α → Nat}

@[simp] theorem total_nil : M.total g s [] = 0 := rfl

@[simp] theorem total_cons : M.total g s (a :: as) = g s a + M.total g (M.next s a) as := rfl

theorem total_snoc : M.total g s (as ++ [a]) = M.total g s as + g (M.after s as) a := by
  induction as generalizing s with
  | nil => simp
  | cons b as ih => simp [ih, Nat.add_assoc]

/-- A total of ones counts events. -/
theorem total_countP (p : α → Bool) :
    M.total (fun _ a => if p a = true then 1 else 0) s as = as.countP p := by
  induction as generalizing s with
  | nil => rfl
  | cons a as ih => rw [total_cons, ih, List.countP_cons, Nat.add_comm]

/-- **The totals rule.** What every step that satisfies `P` adds `g` to has, after a run whose
steps all satisfy `P`, grown by the total of `g`. -/
theorem total_along {f : σ → Nat} (hstep : ∀ s a, P s a → f (M.next s a) = f s + g s a)
    (h : M.Along P s as) : f (M.after s as) = f s + M.total g s as := by
  induction as generalizing s with
  | nil => rfl
  | cons a as ih => rw [after_cons, ih h.2, hstep s a h.1, total_cons, Nat.add_assoc]

/-- A smaller total is the same only if every term is. -/
theorem total_eq_iff (hle : ∀ s a, g s a ≤ g' s a) :
    M.total g s as = M.total g' s as ↔ M.Along (fun s a => g s a = g' s a) s as := by
  have hsum : ∀ (as : List α) (s : σ), M.total g s as ≤ M.total g' s as := by
    intro as
    induction as with
    | nil => exact fun _ => Nat.le_refl _
    | cons a as ih => exact fun s => Nat.add_le_add (hle s a) (ih _)
  induction as generalizing s with
  | nil => simp
  | cons a as ih =>
    have hfirst := hle s a
    have hrest := hsum as (M.next s a)
    rw [along_cons, total_cons, total_cons]
    constructor
    · intro h
      exact ⟨by omega, ih.mp (by omega)⟩
    · rintro ⟨h, has⟩
      rw [h, ih.mpr has]

/-- **The simulation rule.** A relation between the states of two machines that lets the second
follow every step of the first, event by event under `f`, carries the runs of the first over to
the second. -/
theorem simulate {N : Machine τ β} {f : α → β} {R : σ → τ → Prop} {t : τ}
    (hstep : ∀ s t a, R s t → M.Enabled s a →
      N.Enabled t (f a) ∧ R (M.next s a) (N.next t (f a)))
    (hst : R s t) (h : M.Run s as) :
    N.Run t (as.map f) ∧ R (M.after s as) (N.after t (as.map f)) := by
  induction as generalizing s t with
  | nil => exact ⟨trivial, hst⟩
  | cons a as ih =>
    obtain ⟨hen, hst'⟩ := hstep s t a hst h.1
    obtain ⟨hrun, hafter⟩ := ih hst' h.2
    exact ⟨⟨hen, hrun⟩, hafter⟩

/-- **The lockstep rule**, the simulation rule for machines driven by the same events. -/
theorem lockstep {N : Machine τ α} {R : σ → τ → Prop} {t : τ}
    (hstep : ∀ s t a, R s t → M.Enabled s a → N.Enabled t a ∧ R (M.next s a) (N.next t a))
    (hst : R s t) (h : M.Run s as) : N.Run t as ∧ R (M.after s as) (N.after t as) := by
  have hsim := simulate (N := N) (f := fun a => a) hstep hst h
  simpa only [List.map_id'] using hsim

/-- **The image rule.** Maps of states and events that commute with the step and keep what can
happen carry the runs over, both ways. -/
theorem image {N : Machine τ β} {f : α → β} {g : σ → τ}
    (hen : ∀ s a, N.Enabled (g s) (f a) ↔ M.Enabled s a)
    (hnext : ∀ s a, N.next (g s) (f a) = g (M.next s a)) :
    (N.Run (g s) (as.map f) ↔ M.Run s as) ∧ N.after (g s) (as.map f) = g (M.after s as) := by
  induction as generalizing s with
  | nil => exact ⟨Iff.rfl, rfl⟩
  | cons a as ih =>
    obtain ⟨hrun, hafter⟩ := ih (s := M.next s a)
    rw [← hnext] at hrun hafter
    exact ⟨and_congr (hen s a) hrun, hafter⟩

variable (M) in
/-- What an observer of the steps sees: the events that `f` makes of some of them. -/
def seen (f : σ → α → Option β) : σ → List α → List β
  | _, [] => []
  | s, a :: as => (f s a).toList ++ seen f (M.next s a) as

@[simp] theorem seen_nil {f : σ → α → Option β} : M.seen f s [] = [] := rfl

theorem seen_snoc {f : σ → α → Option β} :
    M.seen f s (as ++ [a]) = M.seen f s as ++ (f (M.after s as) a).toList := by
  induction as generalizing s with
  | nil => simp [seen]
  | cons b as ih => simp [seen, ih]

theorem seen_prefix {f : σ → α → Option β} (h : as <+: bs) : M.seen f s as <+: M.seen f s bs := by
  obtain ⟨rest, rfl⟩ := h
  induction rest using List.reverseRecOn with
  | nil => simp
  | append_singleton rest a ih =>
    rw [← List.append_assoc, seen_snoc]
    exact ih.trans (List.prefix_append _ _)

/-- **The stuttering rule.** A second machine that follows the steps that are seen, and to whose
states those that are not make no difference, has run what has been seen. -/
theorem stutter {N : Machine τ β} {f : σ → α → Option β} {g : σ → τ}
    (hseen : ∀ as a b, M.Run s as → M.Enabled (M.after s as) a → f (M.after s as) a = some b →
      N.Enabled (g (M.after s as)) b ∧
        g (M.next (M.after s as) a) = N.next (g (M.after s as)) b)
    (hunseen : ∀ as a, M.Run s as → M.Enabled (M.after s as) a → f (M.after s as) a = none →
      g (M.next (M.after s as) a) = g (M.after s as))
    (h : M.Run s as) :
    N.Run (g s) (M.seen f s as) ∧ g (M.after s as) = N.after (g s) (M.seen f s as) := by
  refine history (H := fun as s' => N.Run (g s) (M.seen f s as) ∧
    g s' = N.after (g s) (M.seen f s as)) ⟨trivial, rfl⟩ ?_ h
  rintro as a hprefix ⟨hrun, hafter⟩ hen
  rw [seen_snoc]
  cases hf : f (M.after s as) a with
  | none => simpa [hunseen as a hprefix hen hf] using ⟨hrun, hafter⟩
  | some b =>
    obtain ⟨hen', hnext⟩ := hseen as a b hprefix hen hf
    rw [hafter] at hen' hnext
    exact ⟨along_snoc.mpr ⟨hrun, hen'⟩, by simpa using hnext⟩

end Machine

end Http2Comm.Lib
