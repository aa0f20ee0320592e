import Mathlib.Data.List.Induction
import Mathlib.Data.List.TakeWhile

/-!
# Sorted multimaps

A multimap is a list of entries that is sorted by key, and carries the proof: keys may repeat, and
the entries of one key stand in the order they were added. `emplace` adds behind every entry whose
key is not greater. Two multimaps are equal as soon as they have the same values under every key
(`ext_values`), so what a sequence of insertions builds is known key by key (`ofList_eq_iff`).
Nothing in this file names a program.
-/

set_option autoImplicit false

namespace Http2Comm.Lib

variable {κ ν : Type*}

/-- Entries in the order of their keys. -/
structure Multimap (κ ν : Type*) [LE κ] where
  entries : List (κ × ν)
  sorted : entries.Pairwise fun e e' => e.1 ≤ e'.1

/-- Adds an entry behind every entry whose key is not greater. -/
def emplaceEntry [LT κ] [DecidableLT κ] (entries : List (κ × ν)) (key : κ) (value : ν) :
    List (κ × ν) :=
  entries.takeWhile (fun e => !decide (key < e.1)) ++
    (key, value) :: entries.dropWhile (fun e => !decide (key < e.1))

/-- The values under a key. -/
def valuesAt [DecidableEq κ] (entries : List (κ × ν)) (key : κ) : List ν :=
  (entries.filter fun e => decide (e.1 = key)).map Prod.snd

section order

variable [LT κ] [LE κ] [Std.IsLinearOrder κ] [Std.LawfulOrderLT κ] [DecidableLT κ]
variable {entries entries' : List (κ × ν)} {key : κ} {value : ν}

/-- What is left behind the new entry has greater keys. -/
theorem lt_of_mem_dropWhile (h : entries.Pairwise fun e e' => e.1 ≤ e'.1) {e : κ × ν}
    (he : e ∈ entries.dropWhile fun e => !decide (key < e.1)) : key < e.1 := by
  induction entries with
  | nil => simp at he
  | cons first entries ih =>
    obtain ⟨hfirst, hrest⟩ := List.pairwise_cons.mp h
    by_cases hlt : key < first.1
    · rw [List.dropWhile_cons_of_neg (by simp [hlt])] at he
      rcases List.mem_cons.mp he with rfl | he
      · exact hlt
      · exact Std.lt_of_lt_of_le hlt (hfirst e he)
    · rw [List.dropWhile_cons_of_pos (by simp [hlt])] at he
      exact ih hrest he

theorem le_of_mem_takeWhile {e : κ × ν}
    (he : e ∈ entries.takeWhile fun e => !decide (key < e.1)) : e.1 ≤ key := by
  have hle := List.mem_takeWhile_imp he
  exact Std.not_lt.mp (by simpa using hle)

theorem sorted_emplaceEntry (h : entries.Pairwise fun e e' => e.1 ≤ e'.1) (key : κ) (value : ν) :
    (emplaceEntry entries key value).Pairwise fun e e' => e.1 ≤ e'.1 := by
  have hsplit := h
  rw [← List.takeWhile_append_dropWhile (p := fun e : κ × ν => !decide (key < e.1)) (l := entries),
    List.pairwise_append] at hsplit
  obtain ⟨hbefore, hbehind, hacross⟩ := hsplit
  refine List.pairwise_append.mpr ⟨hbefore, List.pairwise_cons.mpr ⟨?_, hbehind⟩, ?_⟩
  · intro e he
    exact Std.le_of_lt (lt_of_mem_dropWhile h he)
  · intro e he e' he'
    rcases List.mem_cons.mp he' with rfl | he'
    · exact le_of_mem_takeWhile he
    · exact hacross e he e' he'

/-- **An entry is added behind the values of its key**, and changes no other key. -/
theorem valuesAt_emplaceEntry [DecidableEq κ] (h : entries.Pairwise fun e e' => e.1 ≤ e'.1)
    (key key' : κ) (value : ν) :
    valuesAt (emplaceEntry entries key value) key' =
      valuesAt entries key' ++ if key = key' then [value] else [] := by
  have hsplit : entries = _ :=
    (List.takeWhile_append_dropWhile (p := fun e : κ × ν => !decide (key < e.1))).symm
  unfold valuesAt emplaceEntry
  conv_rhs => rw [hsplit]
  rw [List.filter_append, List.filter_append, List.filter_cons]
  by_cases hkey : key = key'
  · subst hkey
    -- no entry behind has the key
    have hbehind : (entries.dropWhile fun e => !decide (key < e.1)).filter
        (fun e => decide (e.1 = key)) = [] := by
      rw [List.filter_eq_nil_iff]
      intro e he
      have hlt := lt_of_mem_dropWhile h he
      have hne : e.1 ≠ key := by
        rintro heq
        exact Std.lt_irrefl (heq ▸ hlt)
      simpa using hne
    simp [hbehind]
  · simp [hkey]

end order

/-! ## Extensionality -/

section values

variable [DecidableEq κ] {entries : List (κ × ν)}

theorem valuesAt_cons (key : κ) (value : ν) (entries : List (κ × ν)) (key' : κ) :
    valuesAt ((key, value) :: entries) key' =
      (if key = key' then [value] else []) ++ valuesAt entries key' := by
  by_cases h : key = key' <;> simp [valuesAt, h]

theorem exists_of_valuesAt {key : κ} (h : valuesAt entries key ≠ []) :
    ∃ e ∈ entries, e.1 = key := by
  obtain ⟨value, hvalue⟩ := List.exists_mem_of_ne_nil _ h
  obtain ⟨e, he, -⟩ := List.mem_map.mp hvalue
  obtain ⟨hmem, hkey⟩ := List.mem_filter.mp he
  exact ⟨e, hmem, by simpa using hkey⟩

end values

section ext

variable [LE κ] [Std.IsLinearOrder κ] [DecidableEq κ] {entries entries' : List (κ × ν)}

/-- The first key of sorted entries is that of any others with the same values. -/
theorem first_key_le {key key' : κ} {value value' : ν}
    (h : ((key, value) :: entries).Pairwise fun e e' => e.1 ≤ e'.1)
    (hvalues : valuesAt ((key, value) :: entries) key' =
      valuesAt ((key', value') :: entries') key') : key ≤ key' := by
  have hsome : valuesAt ((key, value) :: entries) key' ≠ [] := by
    rw [hvalues, valuesAt_cons]
    simp
  obtain ⟨e, he, rfl⟩ := exists_of_valuesAt hsome
  rcases List.mem_cons.mp he with rfl | he
  · exact Std.le_refl (a := key)
  · exact List.rel_of_pairwise_cons h he

/-- **Sorted entries are known from the values under each key.** -/
theorem entries_ext (h : entries.Pairwise fun e e' => e.1 ≤ e'.1)
    (h' : entries'.Pairwise fun e e' => e.1 ≤ e'.1)
    (hvalues : ∀ key, valuesAt entries key = valuesAt entries' key) : entries = entries' := by
  induction entries generalizing entries' with
  | nil =>
    cases entries' with
    | nil => rfl
    | cons e entries' =>
      have hnone := hvalues e.1
      simp [valuesAt] at hnone
  | cons e entries ih =>
    cases entries' with
    | nil =>
      have hnone := hvalues e.1
      simp [valuesAt] at hnone
    | cons e' entries' =>
      obtain ⟨key, value⟩ := e
      obtain ⟨key', value'⟩ := e'
      obtain rfl : key = key' :=
        Std.le_antisymm (first_key_le h (hvalues key')) (first_key_le h' (hvalues key).symm)
      have hfirst := hvalues key
      rw [valuesAt_cons, valuesAt_cons, if_pos rfl, if_pos rfl] at hfirst
      obtain ⟨rfl, -⟩ := List.cons.inj hfirst
      rw [ih h.of_cons h'.of_cons fun key' => ?_]
      have hrest := hvalues key'
      rw [valuesAt_cons, valuesAt_cons] at hrest
      exact List.append_cancel_left hrest

end ext

namespace Multimap

section values

variable [LE κ] [DecidableEq κ]

def empty : Multimap κ ν := ⟨[], .nil⟩

/-- The values under a key, in the order they were added. -/
def values (m : Multimap κ ν) (key : κ) : List ν := valuesAt m.entries key

/-- **Extensionality**: multimaps with the same values under every key are equal. -/
theorem ext_values [Std.IsLinearOrder κ] {m m' : Multimap κ ν}
    (h : ∀ key, m.values key = m'.values key) : m = m' := by
  obtain ⟨entries, hsorted⟩ := m
  obtain ⟨entries', hsorted'⟩ := m'
  obtain rfl : entries = entries' := entries_ext hsorted hsorted' h
  rfl

end values

variable [LT κ] [LE κ] [Std.IsLinearOrder κ] [Std.LawfulOrderLT κ] [DecidableLT κ]

def emplace (m : Multimap κ ν) (key : κ) (value : ν) : Multimap κ ν :=
  ⟨emplaceEntry m.entries key value, sorted_emplaceEntry m.sorted key value⟩

theorem values_emplace [DecidableEq κ] (m : Multimap κ ν) (key key' : κ) (value : ν) :
    (m.emplace key value).values key' = m.values key' ++ if key = key' then [value] else [] :=
  valuesAt_emplaceEntry m.sorted key key' value

/-- What a sequence of insertions builds. -/
def ofList (es : List (κ × ν)) : Multimap κ ν := es.foldl (fun m e => m.emplace e.1 e.2) empty

theorem ofList_snoc (es : List (κ × ν)) (e : κ × ν) :
    ofList (es ++ [e]) = (ofList es).emplace e.1 e.2 := by
  simp [ofList]

/-- The values under a key are those inserted under it, in that order. -/
theorem values_ofList [DecidableEq κ] (es : List (κ × ν)) (key : κ) :
    (ofList es).values key = valuesAt es key := by
  induction es using List.reverseRecOn with
  | nil => rfl
  | append_singleton es e ih =>
    rw [ofList_snoc, values_emplace, ih]
    by_cases h : e.1 = key <;> simp [valuesAt, h]

/-- **Two sequences of insertions build the same** exactly if they insert the same under each key,
in the same order. -/
theorem ofList_eq_iff [DecidableEq κ] {es es' : List (κ × ν)} :
    ofList es = ofList es' ↔ ∀ key, valuesAt es key = valuesAt es' key := by
  constructor
  · intro h key
    rw [← values_ofList, h, values_ofList]
  · intro h
    refine ext_values fun key => ?_
    rw [values_ofList, values_ofList, h]

end Multimap

end Http2Comm.Lib
