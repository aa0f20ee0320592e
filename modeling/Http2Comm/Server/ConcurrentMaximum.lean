import Http2Comm.Lib.ExchangeLoop
import Http2Comm.Server.Handler
import Mathlib.Order.Bounds.Basic

/-!
# The maximum under concurrent updates

nghttp2 may run several threads, and every one of them updates `maximum_request_body_size_` at each
chunk it delivers:

```
std::size_t current = maximum_request_body_size_.load();
while (len > current && !maximum_request_body_size_.compare_exchange_weak(current, len));
```

`Serving.update` takes the two lines as one event. Here they are the steps they are, of any number
of threads, and the library's linearization says that nothing is lost by the view of `Serving`:
an update has the effect of `max`, at one moment (`apply_maximumUpdate`).
-/

set_option autoImplicit false

namespace Http2Comm.Server

open Lib Lib.Machine

/-- `len > current`, and the exchange for `len`. -/
def maximumUpdate : Update Nat Nat where
  wants len current := decide (current < len)
  result len := len

/-- The value that the threads `ι` share, and their updates of it. -/
def maximumRequestBodySize (ι : Type*) [DecidableEq ι] :
    Machine (Register ι Nat Nat) (LoopEvent ι Nat) :=
  maximumUpdate.loop

/-- The lengths offered so far. -/
def offered {ι : Type*} (es : List (LoopEvent ι Nat)) : List Nat := (calls es).map Prod.snd

section maximum

variable {ι : Type*} [DecidableEq ι] {es : List (LoopEvent ι Nat)} {r : Register ι Nat Nat}

/-- The update is the one of `Serving.update`, in one step. -/
theorem apply_maximumUpdate (value len : Nat) : maximumUpdate.apply value len = max value len := by
  simp only [Update.apply, maximumUpdate, decide_eq_true_eq]
  split <;> omega

theorem isGreatest_foldl_max (initial : Nat) (lens : List Nat) :
    IsGreatest {n | n = initial ∨ n ∈ lens} (lens.foldl maximumUpdate.apply initial) := by
  induction lens generalizing initial with
  | nil => simp [IsGreatest, upperBounds]
  | cons len lens ih =>
    obtain ⟨hmem, hupper⟩ := ih (max initial len)
    rw [List.foldl_cons, apply_maximumUpdate]
    constructor
    · rcases hmem with heq | hmem
      · change _ = initial ∨ _ ∈ len :: lens
        rw [heq, List.mem_cons]
        omega
      · exact Or.inr (List.mem_cons_of_mem _ hmem)
    · have hle : max initial len ≤ _ := hupper (Or.inl rfl)
      rintro n (rfl | hn)
      · omega
      · rcases List.mem_cons.mp hn with rfl | hn
        · omega
        · exact hupper (Or.inr hn)

/-- No step of a thread makes the value smaller. -/
theorem value_le_next (e : LoopEvent ι Nat) :
    r.value ≤ ((maximumRequestBodySize ι).next r e).value := by
  cases e with
  | call t len => exact Nat.le_refl _
  | load t =>
    simp only [maximumRequestBodySize, Update.loop]
    split <;> exact Nat.le_refl _
  | turn t spurious =>
    simp only [maximumRequestBodySize, Update.loop, maximumUpdate, decide_eq_true_eq]
    split
    · split_ifs with hwants hexchange
      · simp only [Register.goto]
        omega
      · exact Nat.le_refl _
      · exact Nat.le_refl _
    · exact Nat.le_refl _

theorem value_le_after (es : List (LoopEvent ι Nat)) (r : Register ι Nat Nat) :
    r.value ≤ ((maximumRequestBodySize ι).after r es).value := by
  induction es generalizing r with
  | nil => exact Nat.le_refl _
  | cons e es ih => exact Nat.le_trans (value_le_next e) (ih _)

end maximum

/-- **The concurrent maximum is exact.** -/
theorem maximum_exact {ι : Type*} [DecidableEq ι] (initial : Nat) (es : List (LoopEvent ι Nat))
    (hrun : (maximumRequestBodySize ι).Run (.start initial) es) :
    let value (es : List (LoopEvent ι Nat)) :=
      ((maximumRequestBodySize ι).after (.start initial) es).value
    (∀ before rest, es = before ++ rest → value before ≤ value es) ∧
      (value es = initial ∨ value es ∈ offered es) ∧
      ((∀ t, ((maximumRequestBodySize ι).after (.start initial) es).pcs t = .idle) →
        IsGreatest {n | n = initial ∨ n ∈ offered es} (value es)) := by
  intro value
  obtain ⟨done, hdone⟩ := linearization_run hrun
  have hgreatest := isGreatest_foldl_max initial (done.map Prod.snd)
  rw [← hdone.value] at hgreatest
  have hcalled : ∀ n ∈ done.map Prod.snd, n ∈ offered es := by
    intro n hn
    obtain ⟨c, hc, rfl⟩ := List.mem_map.mp hn
    exact List.mem_map_of_mem (hdone.called hc)
  refine ⟨?_, hgreatest.1.imp_right (hcalled _), fun hidle => ?_⟩
  · rintro before rest rfl
    simp only [value, after_append]
    exact value_le_after rest _
  · have hsame :
        {n | n = initial ∨ n ∈ offered es} = {n | n = initial ∨ n ∈ done.map Prod.snd} := by
      ext n
      refine or_congr_right ⟨fun hn => ?_, hcalled n⟩
      obtain ⟨c, hc, rfl⟩ := List.mem_map.mp hn
      exact List.mem_map_of_mem (hdone.complete hidle hc)
    rw [hsame]
    exact hgreatest

/-- Two threads, of which the one with the greater length loses the first exchange and then fails
once more for no reason. -/
theorem maximum_exact_race :
    let es : List (LoopEvent Bool Nat) := [.call true 5, .call false 3, .load true, .load false,
      .turn false false, .turn true false, .turn true true, .turn true false]
    IsGreatest {n | n = 0 ∨ n ∈ offered es}
      ((maximumRequestBodySize Bool).after (.start 0) es).value := by
  intro es
  have hrun : (maximumRequestBodySize Bool).Run (.start 0) es :=
    ⟨rfl, rfl, ⟨_, rfl⟩, ⟨_, rfl⟩, ⟨_, _, rfl⟩, ⟨_, _, rfl⟩, ⟨_, _, rfl⟩, ⟨_, _, rfl⟩, trivial⟩
  exact (maximum_exact 0 es hrun).2.2 (by decide)

end Http2Comm.Server
