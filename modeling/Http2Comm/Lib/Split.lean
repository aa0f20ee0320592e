import Mathlib.Data.List.Basic

/-!
# Lists cut at separators

Two ways to cut a list. `segments sep` are the lists between consecutive occurrences of one
element, and `delimit` puts them back, with a separator at both ends; among delimited lists, being
a prefix is being a prefix segment by segment (`delimit_prefix_iff`). `cutAt` cuts at every
occurrence of a list, and is the inverse of joining with it as long as the parts do not contain
the separator's first element. Last, endings of which none ends in another are read off what they
end (`append_ending_inj`). Nothing in this file names a program.
-/

set_option autoImplicit false

namespace Http2Comm.Lib

variable {α : Type*}

/-! ## Delimited lists -/

/-- The segments with a separator before, between and after them. -/
def delimit (sep : α) (segs : List (List α)) : List α := sep :: segs.flatMap (· ++ [sep])

section delimit

variable {sep : α}

/-- A separator ends the first segment, wherever it stands. -/
theorem append_sep_prefix_iff {x y u v : List α} (hx : sep ∉ x) (hy : sep ∉ y) :
    x ++ sep :: u <+: y ++ sep :: v ↔ x = y ∧ u <+: v := by
  induction x generalizing y with
  | nil =>
    cases y with
    | nil => simp
    | cons b y =>
      obtain ⟨hb, -⟩ := List.ne_and_not_mem_of_not_mem_cons hy
      simp [hb]
  | cons a x ih =>
    obtain ⟨ha, hx'⟩ := List.ne_and_not_mem_of_not_mem_cons hx
    cases y with
    | nil => simp [Ne.symm ha]
    | cons b y =>
      obtain ⟨-, hy'⟩ := List.ne_and_not_mem_of_not_mem_cons hy
      simp [ih hx' hy', and_assoc]

theorem flatMap_prefix_iff {xs ys : List (List α)} (hxs : ∀ x ∈ xs, sep ∉ x)
    (hys : ∀ y ∈ ys, sep ∉ y) :
    xs.flatMap (· ++ [sep]) <+: ys.flatMap (· ++ [sep]) ↔ xs <+: ys := by
  induction xs generalizing ys with
  | nil => simp
  | cons x xs ih =>
    obtain ⟨hx, hxs⟩ := List.forall_mem_cons.mp hxs
    cases ys with
    | nil => simp
    | cons y ys =>
      obtain ⟨hy, hys⟩ := List.forall_mem_cons.mp hys
      simp only [List.flatMap_cons, List.append_assoc, List.singleton_append]
      rw [append_sep_prefix_iff hx hy, ih hxs hys, List.cons_prefix_cons]

/-- **A delimited list is a prefix of another exactly if its segments are.** -/
theorem delimit_prefix_iff {xs ys : List (List α)} (hxs : ∀ x ∈ xs, sep ∉ x)
    (hys : ∀ y ∈ ys, sep ∉ y) : delimit sep xs <+: delimit sep ys ↔ xs <+: ys := by
  rw [delimit, delimit, List.cons_prefix_cons, flatMap_prefix_iff hxs hys]
  simp

end delimit

section cuts

variable [DecidableEq α]

/-! ## Segments -/

/-- The lists between consecutive separators. -/
def segments (sep : α) (l : List α) : List (List α) := (l.splitOn sep).tail.dropLast

section segments

variable {sep : α}

theorem splitOn_flatMap {segs : List (List α)} (h : ∀ s ∈ segs, sep ∉ s) :
    (segs.flatMap (· ++ [sep])).splitOn sep = segs ++ [[]] := by
  induction segs with
  | nil => rfl
  | cons s segs ih =>
    obtain ⟨hs, hsegs⟩ := List.forall_mem_cons.mp h
    rw [List.flatMap_cons, List.append_assoc, List.singleton_append,
      List.splitOn_append_cons_self_of_not_mem hs, ih hsegs, List.cons_append]

theorem segments_delimit {segs : List (List α)} (h : ∀ s ∈ segs, sep ∉ s) :
    segments sep (delimit sep segs) = segs := by
  have hsplit := List.splitOn_append_cons_self_of_not_mem (List.not_mem_nil (a := sep))
    (segs.flatMap (· ++ [sep]))
  rw [List.nil_append, splitOn_flatMap h] at hsplit
  simp [segments, delimit, hsplit]

/-- What is empty or ends with a separator is segments, each with a separator after it. -/
theorem exists_segments (l : List α) (h : ∀ a ∈ l.getLast?, a = sep) :
    ∃ segs : List (List α), (∀ s ∈ segs, sep ∉ s) ∧ l = segs.flatMap (· ++ [sep]) := by
  induction l with
  | nil => exact ⟨[], by simp, rfl⟩
  | cons a l ih =>
    cases l with
    | nil =>
      obtain rfl : a = sep := h a (by simp)
      exact ⟨[[]], by simp, by simp⟩
    | cons b l =>
      obtain ⟨segs, hsegs, hl⟩ := ih (by simpa using h)
      by_cases ha : a = sep
      · exact ⟨[] :: segs, by simpa using hsegs, by simp [ha, hl]⟩
      · -- `a` belongs to the first segment
        cases segs with
        | nil => simp at hl
        | cons s segs =>
          refine ⟨(a :: s) :: segs, ?_, by simp [hl]⟩
          simpa [Ne.symm ha] using hsegs

/-- **A list that begins and ends with a separator is its segments, delimited.** -/
theorem delimit_segments {l : List α} (hhead : l.head? = some sep)
    (hlast : l.getLast? = some sep) :
    delimit sep (segments sep l) = l ∧ ∀ s ∈ segments sep l, sep ∉ s := by
  obtain ⟨rest, rfl⟩ := List.head?_eq_some_iff.mp hhead
  have hends : ∀ a ∈ rest.getLast?, a = sep := by
    intro a ha
    rw [List.getLast?_cons, Option.mem_def.mp ha] at hlast
    simpa using hlast
  obtain ⟨segs, hsegs, rfl⟩ := exists_segments rest hends
  have hsegments : segments sep (sep :: segs.flatMap (· ++ [sep])) = segs := segments_delimit hsegs
  rw [hsegments]
  exact ⟨rfl, hsegs⟩

end segments

/-! ## Cutting at a list -/

/-- Cuts at every occurrence of `sep`, from the left, when `skip` more elements belong to the last
one seen. -/
def cutSkip (sep : List α) : Nat → List α → List (List α)
  | _, [] => [[]]
  | skip + 1, _ :: l => cutSkip sep skip l
  | 0, a :: l =>
    if sep.isPrefixOf (a :: l) then [] :: cutSkip sep (sep.length - 1) l
    else (cutSkip sep 0 l).modifyHead (a :: ·)

/-- Cuts at every occurrence of `sep`, from the left. -/
def cutAt (sep l : List α) : List (List α) := cutSkip sep 0 l

section cutAt

variable {first : α} {sep : List α}

theorem cutSkip_append (u l : List α) : cutSkip sep u.length (u ++ l) = cutSkip sep 0 l := by
  induction u with
  | nil => rfl
  | cons a u ih =>
    rw [List.length_cons, List.cons_append, cutSkip]
    exact ih

/-- No cut falls into a part without the separator's first element. -/
theorem cutAt_append {part : List α} (h : first ∉ part) (l : List α) :
    cutAt (first :: sep) (part ++ l) = (cutAt (first :: sep) l).modifyHead (part ++ ·) := by
  induction part with
  | nil => exact (congrFun List.modifyHead_id _).symm
  | cons a part ih =>
    obtain ⟨ha, hpart⟩ := List.ne_and_not_mem_of_not_mem_cons h
    have hno : (first :: sep).isPrefixOf (a :: (part ++ l)) = false := by
      simp [List.isPrefixOf, ha]
    rw [List.cons_append, cutAt, cutSkip, if_neg (by simp [hno])]
    change ((cutAt (first :: sep) (part ++ l)).modifyHead (a :: ·)) = _
    rw [ih hpart, List.modifyHead_modifyHead]
    rfl

theorem cutAt_sep (l : List α) :
    cutAt (first :: sep) (first :: sep ++ l) = [] :: cutAt (first :: sep) l := by
  rw [List.cons_append, cutAt, cutSkip, if_pos (by simp [List.isPrefixOf])]
  rw [List.length_cons, Nat.add_sub_cancel, cutSkip_append]
  rfl

/-- **Cutting undoes joining**, as long as no part contains the separator's first element. -/
theorem cutAt_join (part : List α) (parts : List (List α))
    (h : ∀ p ∈ part :: parts, first ∉ p) :
    cutAt (first :: sep) (parts.foldl (fun l p => l ++ (first :: sep) ++ p) part) =
      part :: parts := by
  -- the loop appends to what it has joined so far, which a cut leaves alone
  have hfold (parts : List (List α)) (part : List α) :
      parts.foldl (fun l p => l ++ (first :: sep) ++ p) part =
        part ++ parts.flatMap ((first :: sep) ++ ·) := by
    induction parts generalizing part with
    | nil => simp
    | cons p parts ih => rw [List.foldl_cons, ih]; simp
  rw [hfold]
  induction parts generalizing part with
  | nil =>
    rw [cutAt_append (h part (by simp))]
    simp [cutAt, cutSkip]
  | cons p parts ih =>
    obtain ⟨hpart, hparts⟩ := List.forall_mem_cons.mp h
    rw [cutAt_append hpart, List.flatMap_cons, List.append_assoc, cutAt_sep, ih p hparts]
    simp

end cutAt

end cuts

/-! ## Endings -/

/-- **Endings are read off**, when neither ends in the other. -/
theorem append_ending_inj {x y u v : List α} (huv : u <:+ v → u = v) (hvu : v <:+ u → v = u)
    (h : x ++ u = y ++ v) : x = y ∧ u = v := by
  have hends : u = v := by
    have hu : u <:+ x ++ u := List.suffix_append x u
    have hv : v <:+ x ++ u := h ▸ List.suffix_append y v
    rcases List.suffix_or_suffix_of_suffix hu hv with h | h
    · exact huv h
    · exact (hvu h).symm
  subst hends
  exact ⟨List.append_cancel_right h, rfl⟩

end Http2Comm.Lib
