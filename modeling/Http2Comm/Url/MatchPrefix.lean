import Http2Comm.Lib.Split
import Http2Comm.URLFunctions

/-!
# What `matchPrefix` matches

`matchPrefix` works on characters: it adds slashes under four conditions and then searches for one
string in the other, anywhere, before it asks whether the first hit is at the beginning. What it
decides is about path **segments**: the prefix's are the first of the path's. The two views meet
in `normalize`, which delimits the segments of a non-empty path with slashes.

An empty string gets no slashes, so it is not the path without segments (that is `"/"`), and it
has its own two laws.
-/

set_option autoImplicit false

namespace Http2Comm.URLFunctions

open Lib

/-! ## Segments of a path -/

def addLeading (path : Bytes) : Bytes :=
  if path.head? = some '/'.toUInt8 then path else '/'.toUInt8 :: path

def addTrailing (path : Bytes) : Bytes :=
  if path.getLast? = some '/'.toUInt8 then path else path ++ ['/'.toUInt8]

/-- The slash-free strings between consecutive slashes, with a slash at each end. -/
def segs (path : Bytes) : List Bytes := segments '/'.toUInt8 (addTrailing (addLeading path))

section normalize

variable {path : Bytes}

theorem addLeading_ne_nil : addLeading path ≠ [] := by
  unfold addLeading
  split
  · next h => exact List.ne_nil_of_mem (List.mem_of_head? h)
  · simp

/-- `normalize` adds both slashes to what is not empty. -/
theorem normalize_eq (h : path ≠ []) : normalize path = addTrailing (addLeading path) := by
  have hlast : (addLeading path).getLast? = path.getLast? := by
    unfold addLeading
    split
    · rfl
    · rw [List.getLast?_cons, List.getLast?_eq_some_getLast h]
      rfl
  rw [addTrailing, hlast]
  simp only [normalize, addLeading, h, ne_eq, not_false_eq_true, true_and]
  split_ifs <;> simp_all

theorem head?_addLeading : (addLeading path).head? = some '/'.toUInt8 := by
  unfold addLeading
  split
  · assumption
  · rfl

theorem head?_addTrailing (h : path.head? = some '/'.toUInt8) :
    (addTrailing path).head? = some '/'.toUInt8 := by
  unfold addTrailing
  split
  · exact h
  · simp [h]

theorem getLast?_addTrailing : (addTrailing path).getLast? = some '/'.toUInt8 := by
  unfold addTrailing
  split
  · assumption
  · simp

/-- **A normalized path is its segments, delimited with slashes.** -/
theorem normalize_eq_delimit (h : path ≠ []) :
    normalize path = delimit '/'.toUInt8 (segs path) ∧ ∀ s ∈ segs path, '/'.toUInt8 ∉ s := by
  obtain ⟨hdelimit, hfree⟩ :=
    delimit_segments (head?_addTrailing head?_addLeading) getLast?_addTrailing
  exact ⟨(normalize_eq h).trans hdelimit.symm, hfree⟩

/-- A slash that is added is one that `normalize` would add. -/
theorem normalize_addLeading (h : path ≠ []) : normalize (addLeading path) = normalize path := by
  rw [normalize_eq h, normalize_eq addLeading_ne_nil]
  congr 1
  rw [addLeading, if_pos head?_addLeading]

theorem normalize_addTrailing (h : path ≠ []) : normalize (addTrailing path) = normalize path := by
  have hne : addTrailing path ≠ [] := by
    unfold addTrailing
    split
    · exact h
    · simp
  have hcomm : addLeading (addTrailing path) = addTrailing (addLeading path) := by
    obtain ⟨c, rest, rfl⟩ := List.exists_cons_of_ne_nil h
    unfold addLeading addTrailing
    split_ifs <;> simp_all [List.getLast?_cons]
  rw [normalize_eq h, normalize_eq hne, hcomm, addTrailing, if_pos getLast?_addTrailing]

/-- Slash-free segments are those of the path that they make. -/
theorem segs_of_segments {segments : List Bytes} (hfree : ∀ s ∈ segments, '/'.toUInt8 ∉ s)
    (h : addTrailing (addLeading path) = delimit '/'.toUInt8 segments) : segs path = segments := by
  rw [segs, h, segments_delimit hfree]

end normalize

/-! ## Matching -/

/-- The search hits at the beginning exactly if what it looks for is there. -/
theorem find_eq_zero_iff (s p : Bytes) : find s p = some 0 ↔ p <+: s := by
  rw [find, List.range_succ_eq_map, List.find?_cons]
  cases hp : p.isPrefixOf (s.drop 0) with
  | true => simpa using hp
  | false =>
    have hno : ¬p <+: s := by
      rw [← List.isPrefixOf_iff_prefix, ← List.drop_zero (l := s), hp]
      simp
    simp [hno, List.find?_map]

theorem matchPrefix_eq_true_iff (urlPath pathPrefix : Bytes) :
    matchPrefix urlPath pathPrefix = true ↔ normalize pathPrefix <+: normalize urlPath := by
  rw [matchPrefix, beq_iff_eq, find_eq_zero_iff]

/-- What matches is the segments. -/
theorem matchPrefix_iff_segs {urlPath pathPrefix : Bytes} (hpath : urlPath ≠ [])
    (hpre : pathPrefix ≠ []) :
    matchPrefix urlPath pathPrefix = true ↔ segs pathPrefix <+: segs urlPath := by
  obtain ⟨hpath, hfree⟩ := normalize_eq_delimit hpath
  obtain ⟨hpre, hfree'⟩ := normalize_eq_delimit hpre
  rw [matchPrefix_eq_true_iff, hpath, hpre, delimit_prefix_iff hfree' hfree]

/-- **Prefixes are matched by whole segments.** -/
theorem matchPrefix_segments :
    (∀ urlPath pathPrefix : Bytes, urlPath ≠ [] → pathPrefix ≠ [] →
      (matchPrefix urlPath pathPrefix = true ↔ segs pathPrefix <+: segs urlPath) ∧
      matchPrefix (addLeading urlPath) pathPrefix = matchPrefix urlPath pathPrefix ∧
      matchPrefix (addTrailing urlPath) pathPrefix = matchPrefix urlPath pathPrefix ∧
      matchPrefix urlPath (addLeading pathPrefix) = matchPrefix urlPath pathPrefix ∧
      matchPrefix urlPath (addTrailing pathPrefix) = matchPrefix urlPath pathPrefix) ∧
    (∀ urlPath : Bytes, matchPrefix urlPath [] = true) ∧
    (∀ pathPrefix : Bytes, pathPrefix ≠ [] → matchPrefix [] pathPrefix = false) := by
  refine ⟨?_, ?_, ?_⟩
  · intro urlPath pathPrefix hpath hpre
    refine ⟨matchPrefix_iff_segs hpath hpre, ?_, ?_, ?_, ?_⟩
    · rw [matchPrefix, matchPrefix, normalize_addLeading hpath]
    · rw [matchPrefix, matchPrefix, normalize_addTrailing hpath]
    · rw [matchPrefix, matchPrefix, normalize_addLeading hpre]
    · rw [matchPrefix, matchPrefix, normalize_addTrailing hpre]
  · intro urlPath
    exact (matchPrefix_eq_true_iff urlPath []).mpr (List.nil_prefix)
  · intro pathPrefix hpre
    rw [← Bool.not_eq_true, matchPrefix_eq_true_iff, (normalize_eq_delimit hpre).1]
    simp [normalize, delimit]

/-- A prefix of two segments, without its slashes. -/
theorem matchPrefix_segments_api :
    (matchPrefix (ascii "/api/v1/users") (ascii "api/v1") = true ↔
      segs (ascii "api/v1") <+: segs (ascii "/api/v1/users")) ∧
    matchPrefix [] (ascii "api/v1") = false :=
  ⟨(matchPrefix_segments.1 _ _ (by decide) (by decide)).1,
    matchPrefix_segments.2.2 _ (by decide)⟩

example : matchPrefix (ascii "/api/v10/x/api/v1/") (ascii "/api/v1") = false := by decide +kernel

end Http2Comm.URLFunctions
