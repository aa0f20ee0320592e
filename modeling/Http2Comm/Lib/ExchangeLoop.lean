import Http2Comm.Lib.Machine
import Mathlib.Logic.Function.Basic

/-!
# Updates by a loop of `compare_exchange_weak`

Any number of threads update one atomic value, each by the loop

```
current = value.load();
while (wants(b, current) && !value.compare_exchange_weak(current, result(b)));
```

with an argument `b` of its own. The exchange stores when the value is still `current` and it does
not fail spuriously, and otherwise leaves in `current` what it has found. Between two steps of a
thread the others may do anything.

Every run is **linearizable** (`linearization_run`): the value is what the updates make of the
initial one when each of them happens at once, in some order that keeps the order of the calls of
every thread. An update happens when it stores, or when it reads a value that it does not want to
replace. A call may have happened and not yet returned. Nothing in this file names a program.
-/

set_option autoImplicit false

namespace Http2Comm.Lib

variable {ι α β : Type*}

/-! ## The loop -/

/-- Which values an update with an argument replaces, and by what. -/
structure Update (α β : Type*) where
  wants : β → α → Bool
  result : β → α

/-- The update in one step. -/
def Update.apply (u : Update α β) (value : α) (b : β) : α :=
  if u.wants b value then u.result b else value

/-- The next step of a thread: a call, the load, or a turn of the loop. -/
inductive LoopPc (α β : Type*) where
  | idle
  | load (b : β)
  | turn (b : β) (current : α)
  deriving DecidableEq, Repr

/-- The argument of the call of a thread, as long as its update has not happened. -/
def Update.pending (u : Update α β) : LoopPc α β → Option β
  | .idle => none
  | .load b => some b
  | .turn b current => if u.wants b current then some b else none

/-- The value and the threads. -/
structure Register (ι α β : Type*) where
  value : α
  pcs : ι → LoopPc α β

def Register.start (initial : α) : Register ι α β := { value := initial, pcs := fun _ => .idle }

inductive LoopEvent (ι β : Type*) where
  | call (t : ι) (b : β)
  | load (t : ι)
  | turn (t : ι) (spurious : Bool)
  deriving DecidableEq, Repr

def Register.goto [DecidableEq ι] (r : Register ι α β) (t : ι) (pc : LoopPc α β) : Register ι α β :=
  { r with pcs := Function.update r.pcs t pc }

/-- The runs of the threads that update by `u`. -/
def Update.loop [DecidableEq ι] [DecidableEq α] (u : Update α β) :
    Machine (Register ι α β) (LoopEvent ι β) where
  Enabled r
    | .call t _ => r.pcs t = .idle
    | .load t => ∃ b, r.pcs t = .load b
    | .turn t _ => ∃ b current, r.pcs t = .turn b current
  next r
    | .call t b => r.goto t (.load b)
    | .load t =>
      match r.pcs t with
      | .load b => r.goto t (.turn b r.value)
      | _ => r
    | .turn t spurious =>
      match r.pcs t with
      | .turn b current =>
        if u.wants b current then
          -- the exchange, which reads the value into `current` when it fails
          if r.value = current ∧ spurious = false then
            { r with value := u.result b }.goto t .idle
          else r.goto t (.turn b r.value)
        else r.goto t .idle
      | _ => r

/-! ## Linearization -/

/-- The calls, in order. -/
def calls (es : List (LoopEvent ι β)) : List (ι × β) :=
  es.filterMap fun | .call t b => some (t, b) | _ => none

theorem calls_snoc (es : List (LoopEvent ι β)) (e : LoopEvent ι β) : calls (es ++ [e]) = calls es ++
    match e with
    | .call t b => [(t, b)]
    | _ => [] := by
  cases e <;> simp [calls]

variable [DecidableEq ι]

/-- The arguments of one thread, in order. -/
def ofThread (t : ι) (cs : List (ι × β)) : List β :=
  cs.filterMap fun c => if c.1 = t then some c.2 else none

theorem mem_ofThread {t : ι} {b : β} {cs : List (ι × β)} : b ∈ ofThread t cs ↔ (t, b) ∈ cs := by
  induction cs with
  | nil => simp [ofThread]
  | cons c cs ih =>
    obtain ⟨t', b'⟩ := c
    rw [ofThread] at ih ⊢
    by_cases ht : t' = t
    · simp [ht, ih]
    · simp [ht, Ne.symm ht, ih]

/-- The updates that have happened, in an order that makes the value and keeps the calls of each
thread in theirs. -/
structure Linearization (u : Update α β) (initial : α) (es : List (LoopEvent ι β))
    (r : Register ι α β) (done : List (ι × β)) : Prop where
  value : r.value = (done.map Prod.snd).foldl u.apply initial
  order : ∀ t, ofThread t (calls es) = ofThread t done ++ (u.pending (r.pcs t)).toList

section linearization

variable {u : Update α β} {initial : α} {es : List (LoopEvent ι β)} {r : Register ι α β}
  {done : List (ι × β)} {t : ι} {b : β}

@[simp] theorem ofThread_append (cs ds : List (ι × β)) :
    ofThread t (cs ++ ds) = ofThread t cs ++ ofThread t ds := List.filterMap_append

theorem ofThread_single (t' : ι) :
    ofThread t' [(t, b)] = if t' = t then [b] else [] := by
  by_cases h : t' = t
  · simp [ofThread, h]
  · simp [ofThread, h, Ne.symm h]

/-- A thread goes on, and its update has not happened. -/
theorem Linearization.stays (h : Linearization u initial es r done) (pc : LoopPc α β)
    (hpc : u.pending pc = u.pending (r.pcs t)) :
    Linearization u initial es (r.goto t pc) done where
  value := h.value
  order t' := by
    rw [h.order]
    by_cases ht : t' = t
    · simp [Register.goto, ht, hpc]
    · simp [Register.goto, ht]

/-- The update of a thread happens. -/
theorem Linearization.happens (h : Linearization u initial es r done) (pc : LoopPc α β)
    (hpending : u.pending (r.pcs t) = some b) (hpc : u.pending pc = none) :
    Linearization u initial es ({ r with value := u.apply r.value b }.goto t pc)
      (done ++ [(t, b)]) where
  value := by simp [Register.goto, h.value]
  order t' := by
    rw [h.order, ofThread_append, ofThread_single]
    by_cases ht : t' = t
    · simp [Register.goto, ht, hpending, hpc]
    · simp [Register.goto, ht]

/-- A thread whose update has not happened reads the value. -/
theorem Linearization.reads (h : Linearization u initial es r done)
    (hpending : u.pending (r.pcs t) = some b) :
    ∃ done', Linearization u initial es (r.goto t (.turn b r.value)) done' := by
  cases hwants : u.wants b r.value with
  | true => exact ⟨done, h.stays _ (by rw [hpending]; simp [Update.pending, hwants])⟩
  | false =>
    -- it does not want to replace the value, and so has happened
    have hsame : u.apply r.value b = r.value := by simp [Update.apply, hwants]
    have hhappens := h.happens (.turn b r.value) hpending (by simp [Update.pending, hwants])
    rw [hsame] at hhappens
    exact ⟨_, hhappens⟩

/-- What has happened has been called, -/
theorem Linearization.called (h : Linearization u initial es r done) {c : ι × β} (hc : c ∈ done) :
    c ∈ calls es := by
  rw [← mem_ofThread (t := c.1) (b := c.2), h.order]
  exact List.mem_append_left _ (mem_ofThread.mpr hc)

/-- and what has been called has happened when no call is under way. -/
theorem Linearization.complete (h : Linearization u initial es r done)
    (hidle : ∀ t, r.pcs t = .idle) {c : ι × β} (hc : c ∈ calls es) : c ∈ done := by
  have hmem : c.2 ∈ ofThread c.1 (calls es) := mem_ofThread.mpr hc
  rw [h.order, hidle] at hmem
  exact mem_ofThread.mp (by simpa [Update.pending] using hmem)

variable [DecidableEq α]

theorem linearization_next (e : LoopEvent ι β) (h : Linearization u initial es r done)
    (hen : u.loop.Enabled r e) :
    ∃ done', Linearization u initial (es ++ [e]) (u.loop.next r e) done' := by
  cases e with
  | call t b =>
    have hidle : r.pcs t = .idle := hen
    refine ⟨done, h.value, fun t' => ?_⟩
    rw [calls_snoc, ofThread_append, h.order, ofThread_single]
    by_cases ht : t' = t
    · simp [Update.loop, Register.goto, ht, hidle, Update.pending]
    · simp [Update.loop, Register.goto, ht]
  | load t =>
    obtain ⟨b, hpc⟩ := hen
    simp only [Update.loop, hpc]
    obtain ⟨done', h'⟩ := h.reads (t := t) (b := b) (by simp [hpc, Update.pending])
    exact ⟨done', h'.value, fun t' => by rw [calls_snoc, List.append_nil, h'.order]⟩
  | turn t spurious =>
    obtain ⟨b, current, hpc⟩ := hen
    suffices hsuff : ∃ done', Linearization u initial es (u.loop.next r (.turn t spurious)) done' by
      obtain ⟨done', h'⟩ := hsuff
      exact ⟨done', h'.value, fun t' => by rw [calls_snoc, List.append_nil, h'.order]⟩
    simp only [Update.loop, hpc]
    cases hwants : u.wants b current with
    | false => exact ⟨done, h.stays .idle (by simp [hpc, Update.pending, hwants])⟩
    | true =>
      have hpending : u.pending (r.pcs t) = some b := by simp [hpc, Update.pending, hwants]
      rw [if_pos rfl]
      split
      · next hexchange =>
        have hresult : u.result b = u.apply r.value b := by
          simp [Update.apply, hexchange.1, hwants]
        rw [hresult]
        exact ⟨_, h.happens .idle hpending rfl⟩
      · exact h.reads hpending

/-- **Every run is linearizable.** -/
theorem linearization_run (hrun : u.loop.Run (.start initial) es) :
    ∃ done, Linearization u initial es (u.loop.after (.start initial) es) done := by
  refine Machine.history (H := fun es r => ∃ done, Linearization u initial es r done) ?_ ?_ hrun
  · exact ⟨[], rfl, fun t => rfl⟩
  · rintro es e - ⟨done, h⟩ hen
    exact linearization_next e h hen

end linearization

end Http2Comm.Lib
