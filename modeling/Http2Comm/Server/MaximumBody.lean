import Http2Comm.Server.Assembly
import Mathlib.Data.List.MinMax
import Mathlib.Order.Nat

/-!
# The pre-reservation size

`Stream`'s constructor reserves `maximum_request_body_size_` bytes, "the maximum request body
size registered at a given moment". What `on_data` registers is the length of the **chunk** it
has just appended, so the member is the longest chunk so far and not the largest body
(`maximumRequestBodySize_run`). The two agree as long as every body that ends is no longer than
some chunk already delivered, to it or to any other stream, which is what a test with one chunk
a body sees (`reserves_largest_iff`).
-/

set_option autoImplicit false

namespace Http2Comm.Server

open Lib Lib.Machine

/-! ## Sizes -/

/-- The lengths of the chunks delivered, over all streams. -/
def chunkSizes (evs : List ServerEvent) : List Nat :=
  evs.filterMap fun | .on _ (.data chunk _ _) => some chunk.length | _ => none

def longestChunk (evs : List ServerEvent) : Nat := (chunkSizes evs).foldr max 0

/-- The size of the body of stream `i` so far. -/
def bodySize (i : Nat) (evs : List ServerEvent) : Nat :=
  (acceptedChunks (ownEvents i evs)).length

/-- The size of the largest of the first `n` bodies, `0` if there is none. -/
def largestBody (n : Nat) (evs : List ServerEvent) : Nat :=
  ((List.range n).map (bodySize · evs)).foldr max 0

/-- `receiveDataLen` and `preReserveRequestBody` return true throughout. -/
def AllReserving (evs : List ServerEvent) : Prop :=
  ∀ i chunk receiveDataLen preReserve, .on i (.data chunk receiveDataLen preReserve) ∈ evs →
    receiveDataLen = true ∧ preReserve = true

theorem longestChunk_le_iff {evs : List ServerEvent} {n : Nat} :
    longestChunk evs ≤ n ↔ ∀ size ∈ chunkSizes evs, size ≤ n :=
  ⟨fun h _ hsize => (List.le_max_of_le hsize (Nat.le_refl _)).trans h,
    List.max_le_of_forall_le _ _⟩

theorem largestBody_le_iff {n m : Nat} {evs : List ServerEvent} :
    largestBody n evs ≤ m ↔ ∀ i < n, bodySize i evs ≤ m := by
  constructor
  · intro h i hi
    have hmem : bodySize i evs ∈ (List.range n).map (bodySize · evs) :=
      List.mem_map_of_mem (List.mem_range.mpr hi)
    exact (List.le_max_of_le hmem (Nat.le_refl _)).trans h
  · intro h
    refine List.max_le_of_forall_le _ _ ?_
    simpa using h

theorem longestChunk_append (evs evs' : List ServerEvent) :
    longestChunk (evs ++ evs') = max (longestChunk evs) (longestChunk evs') := by
  refine eq_of_forall_ge_iff fun n => ?_
  rw [max_le_iff, longestChunk_le_iff, longestChunk_le_iff, longestChunk_le_iff, chunkSizes,
    List.filterMap_append]
  simp only [List.mem_append, or_imp, forall_and]
  rfl

theorem bodySize_snoc (i : Nat) (evs : List ServerEvent) (a : ServerEvent) :
    bodySize i (evs ++ [a]) = bodySize i evs +
      match a with
      | .on j (.data chunk true _) => if j = i then chunk.length else 0
      | _ => 0 := by
  rw [bodySize, ownEvents_snoc]
  cases a with
  | request req => simp [bodySize]
  | on j e =>
    by_cases hj : j = i
    · simp only [hj, if_true, acceptedChunks_snoc, List.length_append]
      cases e with
      | data chunk receiveDataLen preReserve => cases receiveDataLen <;> simp [bodySize]
      | _ => rfl
    · cases e with
      | data chunk receiveDataLen preReserve => cases receiveDataLen <;> simp [hj, bodySize]
      | _ => simp [hj, bodySize]

section server

variable {server : Http2Server} {evs : List ServerEvent}

/-- The chunk is one of its stream's body. -/
theorem le_bodySize {i : Nat} {chunk : Bytes} {preReserve : Bool}
    (h : .on i (.data chunk true preReserve) ∈ evs) : chunk.length ≤ bodySize i evs := by
  have hown : .data chunk true preReserve ∈ ownEvents i evs :=
    List.mem_filterMap.mpr ⟨_, List.mem_map_of_mem h, by simp [ServerEvent.toPool]⟩
  unfold bodySize acceptedChunks
  exact (List.sublist_flatten_of_mem (List.mem_filterMap.mpr ⟨_, hown, rfl⟩)).length_le

/-- **What is registered is the longest chunk.** -/
theorem maximumRequestBodySize_run (hrun : (serving server).Run {} evs)
    (hall : AllReserving evs) :
    ((serving server).after {} evs).maximumRequestBodySize = longestChunk evs := by
  refine history (H := fun evs sv => AllReserving evs →
    sv.maximumRequestBodySize = longestChunk evs) (fun _ => rfl) ?_ hrun hall
  intro evs a _ ih hen hall
  have hmax := ih fun i chunk receiveDataLen preReserve hmem =>
    hall i chunk receiveDataLen preReserve (List.mem_append_left _ hmem)
  rw [longestChunk_append, ← hmax]
  cases a with
  | request req => simp [longestChunk, chunkSizes, serving, Serving.next]
  | on i e =>
    obtain ⟨st, hst, -, -⟩ := enabled_on.mp hen
    simp only [serving, Serving.next] at hst ⊢
    rw [hst]
    cases e with
    | data chunk receiveDataLen preReserve =>
      obtain ⟨rfl, rfl⟩ := hall i chunk receiveDataLen preReserve (by simp)
      simp [longestChunk, chunkSizes, Serving.update]
    | _ => simp [longestChunk, chunkSizes, Serving.update]

/-! ## When the longest chunk is the largest body -/

/-- After the events, the size registered is at least that of a request that has just ended, and
if every request begun has ended it is the size of the largest body. -/
structure ReservesLargest (server : Http2Server) (evs : List ServerEvent) : Prop where
  ended : ∀ before i id, evs = before ++ [.on i (.endOfRequest id)] →
    bodySize i evs ≤ ((serving server).after {} evs).maximumRequestBodySize
  settled : (∀ st ∈ ((serving server).after {} evs).streams, st.work ≠ .receiving) →
    ((serving server).after {} evs).maximumRequestBodySize =
      largestBody ((serving server).after {} evs).streams.length evs

/-- Every body that ends is no longer than some chunk delivered before, on any stream, or empty. -/
def ChunkCoversBody (evs : List ServerEvent) : Prop :=
  ∀ before i id rest, evs = before ++ .on i (.endOfRequest id) :: rest →
    bodySize i before = 0 ∨ ∃ size ∈ chunkSizes before, bodySize i before ≤ size

theorem covers_iff {i : Nat} :
    (bodySize i evs = 0 ∨ ∃ size ∈ chunkSizes evs, bodySize i evs ≤ size) ↔
      bodySize i evs ≤ longestChunk evs := by
  constructor
  · rintro (hzero | ⟨size, hsize, hle⟩)
    · exact hzero ▸ Nat.zero_le _
    · exact List.le_max_of_le hsize hle
  · intro h
    by_contra hnone
    push Not at hnone
    obtain ⟨hpos, hlt⟩ := hnone
    have hshort : longestChunk evs ≤ bodySize i evs - 1 :=
      longestChunk_le_iff.mpr fun size hsize => Nat.le_sub_one_of_lt (hlt size hsize)
    omega

/-- A body that has ended is covered, and stays so: nothing is appended to it. -/
theorem ended_covered (hrun : (serving server).Run {} evs) (hcover : ChunkCoversBody evs)
    {i : Nat} {st : Stream} (hst : ((serving server).after {} evs).streams[i]? = some st)
    (hw : st.work ≠ .receiving) : bodySize i evs ≤ longestChunk evs := by
  refine history (H := fun evs sv => ChunkCoversBody evs → ∀ i st, sv.streams[i]? = some st →
    st.work ≠ .receiving → bodySize i evs ≤ longestChunk evs) (by simp) ?_ hrun hcover i st hst hw
  intro evs a _ ih hen hcover i st hst hw
  have hcovered := ih fun before j id rest hevs =>
    hcover before j id (rest ++ [a]) (by simp [hevs])
  rw [bodySize_snoc, longestChunk_append]
  refine Nat.le_trans ?_ (Nat.le_max_left _ _)
  cases a with
  | request req =>
    rw [show ((serving server).next _ _).streams[i]? = _ from streams_request req i] at hst
    split_ifs at hst
    · exact absurd (Option.some.inj hst ▸ rfl) hw
    · exact hcovered i st hst hw
  | on j e =>
    obtain ⟨st', hst', hen', -⟩ := enabled_on.mp hen
    rw [show ((serving server).next _ _).streams[i]? = _ from streams_on hst' i] at hst
    split_ifs at hst with hij
    · obtain rfl := Option.some.inj hst
      subst hij
      rw [Ne, receiving_next_iff hen'] at hw
      cases e with
      | endOfRequest id => exact covers_iff.mp (hcover evs i id [] rfl)
      | data chunk receiveDataLen preReserve => exact absurd ⟨hen'.2.1, rfl⟩ hw
      | _ => exact hcovered i st' hst' fun hw' => hw ⟨hw', rfl⟩
    · have hother := hcovered i st hst hw
      cases e with
      | data chunk receiveDataLen preReserve =>
        cases receiveDataLen <;> simpa [Ne.symm hij] using hother
      | _ => exact hother

/-- No chunk is longer than every body. -/
theorem longestChunk_le (hrun : (serving server).Run {} evs) (hall : AllReserving evs) :
    longestChunk evs ≤ largestBody ((serving server).after {} evs).streams.length evs := by
  refine longestChunk_le_iff.mpr fun size hsize => ?_
  obtain ⟨a, ha, hchunk⟩ := List.mem_filterMap.mp hsize
  obtain ⟨i, chunk, receiveDataLen, preReserve, rfl, rfl⟩ :
      ∃ i chunk receiveDataLen preReserve,
        a = .on i (.data chunk receiveDataLen preReserve) ∧ chunk.length = size := by
    split at hchunk
    · exact ⟨_, _, _, _, rfl, Option.some.inj hchunk⟩
    · cases hchunk
  obtain ⟨rfl, rfl⟩ := hall i chunk receiveDataLen preReserve ha
  refine (le_bodySize ha).trans (largestBody_le_iff.mp (Nat.le_refl _) i ?_)
  -- the stream of a chunk exists
  by_contra hlen
  have habsent := ownEvents_absent hrun (List.getElem?_eq_none (Nat.not_lt.mp hlen))
  have hown : .data chunk true true ∈ ownEvents i evs :=
    List.mem_filterMap.mpr ⟨_, List.mem_map_of_mem ha, by simp [ServerEvent.toPool]⟩
  simp [habsent] at hown

/-- **The size registered is that of the largest body exactly if every body that ends is covered
by one chunk.** -/
theorem reserves_largest_iff (server : Http2Server) (evs : List ServerEvent)
    (hrun : (serving server).Run {} evs) (hall : AllReserving evs) :
    (∀ before rest, evs = before ++ rest → ReservesLargest server before) ↔
      ChunkCoversBody evs := by
  have hmax (before rest : List ServerEvent) (hevs : evs = before ++ rest) :
      (serving server).Run {} before ∧ AllReserving before ∧
        ((serving server).after {} before).maximumRequestBodySize = longestChunk before := by
    subst hevs
    have hbefore := (run_append.mp hrun).1
    have hall' : AllReserving before := fun i chunk receiveDataLen preReserve hmem =>
      hall i chunk receiveDataLen preReserve (List.mem_append_left _ hmem)
    exact ⟨hbefore, hall', maximumRequestBodySize_run hbefore hall'⟩
  constructor
  · intro h before i id rest hevs
    have hend := (h (before ++ [.on i (.endOfRequest id)]) rest (by simp [hevs])).ended _ _ _ rfl
    rw [(hmax _ rest (by simp [hevs])).2.2, bodySize_snoc, longestChunk_append] at hend
    exact covers_iff.mpr (by simpa [longestChunk, chunkSizes] using hend)
  · intro hcover before rest hevs
    obtain ⟨hbefore, hall', hlongest⟩ := hmax before rest hevs
    have hcover' : ChunkCoversBody before := fun b i id r hb =>
      hcover b i id (r ++ rest) (by simp [hevs, hb])
    constructor
    · rintro b i id rfl
      obtain ⟨st, hst, -, -⟩ := enabled_on.mp (along_snoc.mp hbefore).2
      have hst' : ((serving server).after {} (b ++ [.on i (.endOfRequest id)])).streams[i]?
          = some (st.next server (.endOfRequest id)) := by
        rw [after_append, after_cons, after_nil]
        exact (streams_on hst i).trans (if_pos rfl)
      rw [hlongest]
      exact ended_covered hbefore hcover' hst' (by simp [work_next])
    · intro hended
      rw [hlongest]
      refine Nat.le_antisymm (longestChunk_le hbefore hall') (largestBody_le_iff.mpr ?_)
      intro i hi
      have hst := List.getElem?_eq_getElem hi
      exact ended_covered hbefore hcover' hst (hended _ (List.getElem_mem hi))

end server

/-- Two bodies of one chunk each. -/
theorem reserves_largest_single :
    let evs : List ServerEvent := [.request {}, .request {}, .on 0 (.data (ascii "ab") true true),
      .on 1 (.data (ascii "xyz") true true), .on 0 (.endOfRequest 1), .on 1 (.endOfRequest 2)]
    ReservesLargest {} evs := by
  refine (reserves_largest_iff {} _ (by decide) ?_).mpr ?_ _ [] rfl
  · simp [AllReserving]
  · intro before i id rest hevs
    obtain ⟨hget, htake⟩ := cut_eq hevs
    rw [← htake]
    match before.length, hget with
    | 4, hget =>
      obtain rfl : 0 = i := (ServerEvent.on.inj (Option.some.inj hget)).1
      decide
    | 5, hget =>
      obtain rfl : 1 = i := (ServerEvent.on.inj (Option.some.inj hget)).1
      decide

/-- **A body of two chunks**: it ends with 3 bytes, and 2 are registered. -/
theorem chunked_body_not_registered :
    ¬∀ (server : Http2Server) (evs : List ServerEvent), (serving server).Run {} evs →
      AllReserving evs → ∀ before rest, evs = before ++ rest → ReservesLargest server before := by
  intro h
  have hlargest := h {} [.request {}, .on 0 (.data (ascii "ab") true true),
    .on 0 (.data (ascii "c") true true), .on 0 (.endOfRequest 1)] (by decide)
    (by simp [AllReserving]) _ [] (List.append_nil _).symm
  exact absurd (hlargest.ended [.request {}, .on 0 (.data (ascii "ab") true true),
    .on 0 (.data (ascii "c") true true)] 0 1 rfl) (by decide)

end Http2Comm.Server
