import Http2Comm.Lib.Pool
import Mathlib.Data.Multiset.OrderedMonoid

/-!
# Services

What a component is for, when it is there to be asked: it is asked, and what it has been asked it
answers or drops, **once**, in any order and at any time. `service` is the most general component
that does so, and its state is what is pending. A run of it settles nothing that was not asked, and
what was asked and is not pending has been settled (`service_balance`).

A pool whose components ask for one thing each, when they start, and settle it with one of their
events, is a service in every interleaving (`pool_serves`). What it is asked there carries the index
of the component that asks, and an answer to it is one that this component has come to **by its own
events** (`AnsweredBy`), whatever the others do. Nothing in this file names a program.
-/

set_option autoImplicit false

namespace Http2Comm.Lib

/-- An event of a service that is asked for `α` and answers with `β`. -/
inductive ServiceEvent (α β : Type*) where
  | ask (a : α)
  | answer (a : α) (b : β)
  | drop (a : α)
  deriving DecidableEq, Repr

namespace ServiceEvent

variable {α α' β : Type*}

/-- The same event, of what `f` makes of what is asked. -/
def map (f : α → α') : ServiceEvent α β → ServiceEvent α' β
  | .ask a => .ask (f a)
  | .answer a b => .answer (f a) b
  | .drop a => .drop (f a)

/-- What was asked for. -/
def asked (es : List (ServiceEvent α β)) : List α :=
  es.filterMap fun | .ask a => some a | _ => none

/-- The answers, each with what it answers. -/
def answers (es : List (ServiceEvent α β)) : List (α × β) :=
  es.filterMap fun | .answer a b => some (a, b) | _ => none

def dropped (es : List (ServiceEvent α β)) : List α :=
  es.filterMap fun | .drop a => some a | _ => none

variable (es fs : List (ServiceEvent α β))

theorem asked_append : asked (es ++ fs) = asked es ++ asked fs := List.filterMap_append

theorem answers_append : answers (es ++ fs) = answers es ++ answers fs := List.filterMap_append

theorem dropped_append : dropped (es ++ fs) = dropped es ++ dropped fs := List.filterMap_append

theorem asked_map (f : α → α') : asked (es.map (map f)) = (asked es).map f := by
  simp only [asked, List.filterMap_map, List.map_filterMap]
  exact List.filterMap_congr fun e _ => by cases e <;> rfl

theorem dropped_map (f : α → α') : dropped (es.map (map f)) = (dropped es).map f := by
  simp only [dropped, List.filterMap_map, List.map_filterMap]
  exact List.filterMap_congr fun e _ => by cases e <;> rfl

end ServiceEvent

open ServiceEvent Machine

section service

variable {α β : Type*} [DecidableEq α] (Admits : α → β → Prop)

/-- The service that answers what it has been asked for with what `Admits` allows, or drops it. -/
def service : Machine (Multiset α) (ServiceEvent α β) where
  Enabled pending
    | .ask _ => True
    | .answer a b => a ∈ pending ∧ Admits a b
    | .drop a => a ∈ pending
  next pending
    | .ask a => a ::ₘ pending
    | .answer a _ | .drop a => pending.erase a

variable {Admits} {es : List (ServiceEvent α β)}

/-- **The frame rule.** What else is pending makes no difference, and stays. -/
theorem service_frame (rest : Multiset α) {pending : Multiset α} {e : ServiceEvent α β}
    (hen : (service Admits).Enabled pending e) :
    (service Admits).Enabled (rest + pending) e ∧
      (service Admits).next (rest + pending) e = rest + (service Admits).next pending e := by
  cases e with
  | ask a => exact ⟨trivial, (Multiset.add_cons a rest pending).symm⟩
  | answer a b =>
    exact ⟨⟨Multiset.mem_add.mpr (Or.inr hen.1), hen.2⟩,
      Multiset.erase_add_right_pos rest hen.1⟩
  | drop a => exact ⟨Multiset.mem_add.mpr (Or.inr hen), Multiset.erase_add_right_pos rest hen⟩

/-- **The renaming rule.** What is asked may be seen by less than it is. -/
theorem service_map {α' : Type*} [DecidableEq α'] {Admits' : α' → β → Prop} {f : α → α'}
    {pending : Multiset α} (h : ∀ a ∈ pending, ∀ b, Admits a b → Admits' (f a) b)
    {e : ServiceEvent α β} (hen : (service Admits).Enabled pending e) :
    (service Admits').Enabled (pending.map f) (e.map f) ∧
      (service Admits').next (pending.map f) (e.map f) =
        ((service Admits).next pending e).map f := by
  cases e with
  | ask a => exact ⟨trivial, (Multiset.map_cons f a pending).symm⟩
  | answer a b =>
    exact ⟨⟨Multiset.mem_map_of_mem f hen.1, h a hen.1 b hen.2⟩,
      (Multiset.map_erase_of_mem f pending hen.1).symm⟩
  | drop a =>
    exact ⟨Multiset.mem_map_of_mem f hen, (Multiset.map_erase_of_mem f pending hen).symm⟩

/-- What allows more has the same runs, and more. -/
theorem service_mono {Admits' : α → β → Prop} (h : ∀ a b, Admits a b → Admits' a b)
    {pending : Multiset α} (hrun : (service Admits).Run pending es) :
    (service Admits').Run pending es ∧
      (service Admits).after pending es = (service Admits').after pending es := by
  refine lockstep (R := fun p q : Multiset α => p = q) ?_ rfl hrun
  rintro p _ e rfl hen
  cases e with
  | ask a => exact ⟨trivial, rfl⟩
  | answer a b => exact ⟨⟨hen.1, h a b hen.2⟩, rfl⟩
  | drop a => exact ⟨hen, rfl⟩

/-- **The stuttering rule**, for a service that allows more as the run goes on. -/
theorem service_stutter {σ ε : Type*} {M : Machine σ ε} {s : σ} {Admits : List ε → α → β → Prop}
    {f : σ → ε → Option (ServiceEvent α β)} {g : σ → Multiset α} {es : List ε}
    (hmono : ∀ es es' a b, es <+: es' → Admits es a b → Admits es' a b) (hstart : g s = 0)
    (hseen : ∀ es e b, M.Run s es → M.Enabled (M.after s es) e → f (M.after s es) e = some b →
      (service (Admits (es ++ [e]))).Enabled (g (M.after s es)) b ∧
        g (M.next (M.after s es) e) = (service (Admits (es ++ [e]))).next (g (M.after s es)) b)
    (hunseen : ∀ es e, M.Run s es → M.Enabled (M.after s es) e → f (M.after s es) e = none →
      g (M.next (M.after s es) e) = g (M.after s es))
    (hrun : M.Run s es) :
    (service (Admits es)).Run 0 (M.seen f s es) ∧
      g (M.after s es) = (service (Admits es)).after 0 (M.seen f s es) := by
  refine history (H := fun es s' => (service (Admits es)).Run 0 (M.seen f s es) ∧
    g s' = (service (Admits es)).after 0 (M.seen f s es)) ⟨trivial, hstart⟩ ?_ hrun
  rintro es e hprefix ⟨hsofar, hafter⟩ hen
  -- what has been answered so far stays so
  obtain ⟨hsofar', hafter'⟩ := service_mono
    (fun a b hb => hmono es (es ++ [e]) a b (List.prefix_append es [e]) hb) hsofar
  rw [hafter'] at hafter
  rw [seen_snoc]
  cases hf : f (M.after s es) e with
  | none => simpa [hunseen es e hprefix hen hf] using ⟨hsofar', hafter⟩
  | some b =>
    obtain ⟨hen', hnext⟩ := hseen es e b hprefix hen hf
    rw [hafter] at hen' hnext
    exact ⟨along_snoc.mpr ⟨hsofar', hen'⟩, by simpa using hnext⟩

/-- **What was asked for has been answered, or dropped, or is pending**, each time it was. -/
theorem service_balance (hrun : (service Admits).Run 0 es) :
    (asked es : Multiset α) = ((answers es).map Prod.fst : List α) + (dropped es : Multiset α) +
      (service Admits).after 0 es := by
  refine history (H := fun es pending => (asked es : Multiset α) =
    ((answers es).map Prod.fst : List α) + (dropped es : Multiset α) + pending) rfl ?_ hrun
  intro es e _ h hen
  generalize (service Admits).after 0 es = pending at *
  rw [asked_append, answers_append, dropped_append, List.map_append, ← Multiset.coe_add,
    ← Multiset.coe_add, ← Multiset.coe_add, h]
  generalize ((answers es).map Prod.fst : Multiset α) = answered
  generalize (dropped es : Multiset α) = lost
  cases e with
  | ask a =>
    change answered + lost + pending + {a} = answered + 0 + (lost + 0) + (a ::ₘ pending)
    rw [add_zero, add_zero, add_assoc, Multiset.add_comm pending, Multiset.singleton_add]
  | answer a b =>
    have hcons : {a} + pending.erase a = pending := Multiset.cons_erase hen.1
    change answered + lost + pending + 0 = answered + {a} + (lost + 0) + pending.erase a
    rw [add_zero, add_zero, add_right_comm answered ({a} : Multiset α),
      add_assoc _ ({a} : Multiset α), hcons]
  | drop a =>
    have hcons : {a} + pending.erase a = pending := Multiset.cons_erase hen
    change answered + lost + pending + 0 = answered + 0 + (lost + {a}) + pending.erase a
    rw [add_zero, add_zero, ← add_assoc, add_assoc _ ({a} : Multiset α), hcons]

end service

/-! ## What a pool has pending -/

section pool

variable {σ ε α β : Type*} {M : Machine σ ε} {Init : σ → Prop}

/-- What the components have pending, when each has at most one thing, with their indices. -/
def pendingOf (pend : σ → Option α) (ss : List σ) : Multiset (Nat × α) :=
  (ss.mapIdx fun i s => (((pend s).map (Prod.mk i)).toList : Multiset (Nat × α))).sum

variable {pend : σ → Option α} {ss : List σ} {i : Nat} {s : σ} {e : ε}

@[simp] theorem pendingOf_nil : pendingOf pend ([] : List σ) = 0 := rfl

theorem pendingOf_snoc (ss : List σ) (s : σ) :
    pendingOf pend (ss ++ [s]) =
      pendingOf pend ss + ((pend s).map (Prod.mk ss.length)).toList := by
  simp [pendingOf]

variable (M Init pend) in
theorem pendingOf_on (hs : ss[i]? = some s) (e : ε) :
    pendingOf pend ((M.pool Init).next ss (.on i e)) + ((pend s).map (Prod.mk i)).toList =
      pendingOf pend ss + ((pend (M.next s e)).map (Prod.mk i)).toList :=
  sumIdx_on hs e fun i s => (((pend s).map (Prod.mk i)).toList : Multiset (Nat × α))

/-- An event that leaves what its component has pending leaves it all. -/
theorem pendingOf_same (hs : ss[i]? = some s) (h : pend (M.next s e) = pend s) :
    pendingOf pend ((M.pool Init).next ss (.on i e)) = pendingOf pend ss := by
  have hon := pendingOf_on M Init pend hs e
  rw [h] at hon
  exact add_right_cancel hon

variable (M Init) in
/-- An event that settles what its component has pending settles that and nothing else. -/
theorem pendingOf_settled [DecidableEq α] {a : α} (hs : ss[i]? = some s) (hpend : pend s = some a)
    (hsettled : pend (M.next s e) = none) :
    (i, a) ∈ pendingOf pend ss ∧
      pendingOf pend ((M.pool Init).next ss (.on i e)) = (pendingOf pend ss).erase (i, a) := by
  have hon := pendingOf_on M Init pend hs e
  rw [hpend, hsettled] at hon
  exact Multiset.add_singleton_eq_iff.mp (by simpa using hon)

theorem mem_pendingOf {a : α} :
    (i, a) ∈ pendingOf pend ss ↔ ∃ s, ss[i]? = some s ∧ pend s = some a := by
  induction ss using List.reverseRecOn with
  | nil => simp
  | append_singleton ss s ih =>
    rw [pendingOf_snoc, Multiset.mem_add, ih, Multiset.mem_coe, Option.mem_toList]
    rcases Nat.lt_trichotomy i ss.length with hlt | rfl | hgt
    · simp [List.getElem?_append_left hlt, Nat.ne_of_gt hlt]
    · simp
    · have hbefore : ss[i]? = none := List.getElem?_eq_none (Nat.le_of_lt hgt)
      have hafter : (ss ++ [s])[i]? = none := List.getElem?_eq_none (by simpa [Nat.succ_le_iff] using hgt)
      simp [hbefore, hafter, Nat.ne_of_lt hgt]

theorem pendingOf_eq_zero : pendingOf pend ss = 0 ↔ ∀ s ∈ ss, pend s = none := by
  induction ss using List.reverseRecOn with
  | nil => simp
  | append_singleton ss s ih =>
    rw [pendingOf_snoc, add_eq_zero, ih, List.forall_mem_append, List.forall_mem_singleton,
      Multiset.coe_eq_zero, Option.toList_eq_nil_iff, Option.map_eq_none_iff]

variable {Answers : α → List ε → β → Prop}

variable (M Init pend Answers) in
/-- A component that has something pending when it starts, and settles it with the events that
`reply`: with an answer to it by the events up to there, or without. -/
structure Settles (reply : σ → ε → Option (Option β)) : Prop where
  start : ∀ s, Init s → (pend s).isSome = true
  settles : ∀ {s es e r}, Init s → M.Run s es → M.Enabled (M.after s es) e →
    reply (M.after s es) e = some r → ∃ a, pend (M.after s es) = some a ∧
      pend (M.next (M.after s es) e) = none ∧ ∀ b ∈ r, Answers a (es ++ [e]) b
  silent : ∀ {s es e}, Init s → M.Run s es → M.Enabled (M.after s es) e →
    reply (M.after s es) e = none → pend (M.next (M.after s es) e) = pend (M.after s es)

/-- The component that has asked has come to the answer by its own events. -/
def AnsweredBy (Answers : α → List ε → β → Prop) (es : List (PoolEvent σ ε)) (asks : Nat × α)
    (b : β) : Prop :=
  ∃ own, own <+: PoolEvent.own asks.1 es ∧ Answers asks.2 own b

theorem AnsweredBy.mono {es es' : List (PoolEvent σ ε)} {asks : Nat × α} {b : β}
    (h : AnsweredBy Answers es asks b) (hes : es <+: es') : AnsweredBy Answers es' asks b := by
  obtain ⟨own, hown, hanswers⟩ := h
  exact ⟨own, hown.trans (PoolEvent.own_prefix _ hes), hanswers⟩

/-- What an event of component `i` is to the service. -/
def serviceEvent (pend : σ → Option α) (reply : σ → ε → Option (Option β)) (i : Nat) (s : σ)
    (e : ε) : Option (ServiceEvent (Nat × α) β) :=
  match pend s, reply s e with
  | some a, some (some b) => some (.answer (i, a) b)
  | some a, some none => some (.drop (i, a))
  | _, _ => none

/-- What an event of the pool is. -/
def poolServiceEvent (pend : σ → Option α) (reply : σ → ε → Option (Option β)) (ss : List σ) :
    PoolEvent σ ε → Option (ServiceEvent (Nat × α) β)
  | .start s => (pend s).map fun a => .ask (ss.length, a)
  | .on i e => ss[i]?.bind fun s => serviceEvent pend reply i s e

/-- The events of components do not ask. -/
theorem asked_on (reply : σ → ε → Option (Option β)) (ss : List σ) (i : Nat) (e : ε) :
    asked (poolServiceEvent pend reply ss (.on i e)).toList = [] := by
  simp only [poolServiceEvent]
  cases ss[i]? with
  | none => rfl
  | some s =>
    simp only [Option.bind_some, serviceEvent]
    split <;> rfl

/-- Where the components always answer, nothing is dropped. -/
theorem dropped_on {reply : σ → ε → Option (Option β)} (h : ∀ s e, reply s e ≠ some none)
    (ss : List σ) (i : Nat) (e : ε) :
    dropped (poolServiceEvent pend reply ss (.on i e)).toList = [] := by
  simp only [poolServiceEvent]
  cases ss[i]? with
  | none => rfl
  | some s =>
    simp only [Option.bind_some, serviceEvent]
    split
    · rfl
    · next hr => exact absurd hr (h s e)
    · rfl

/-- What the components start with, in order. -/
def startedOf (pend : σ → Option α) (es : List (PoolEvent σ ε)) : List α :=
  es.filterMap fun | .start s => pend s | .on .. => none

/-- The service is asked for what the components start with, each by its index. -/
theorem asked_pool (hstart : ∀ s, Init s → (pend s).isSome = true)
    (reply : σ → ε → Option (Option β)) {es : List (PoolEvent σ ε)}
    (hrun : (M.pool Init).Run [] es) :
    asked ((M.pool Init).seen (poolServiceEvent pend reply) [] es) =
      (startedOf pend es).mapIdx Prod.mk := by
  refine (history (H := fun es ss =>
    asked ((M.pool Init).seen (poolServiceEvent pend reply) [] es) =
      (startedOf pend es).mapIdx Prod.mk ∧ ss.length = (startedOf pend es).length)
    ⟨rfl, rfl⟩ ?_ hrun).1
  rintro es e - ⟨hasked, hlength⟩ hen
  rw [seen_snoc, asked_append, startedOf, List.filterMap_append, ← startedOf, hasked]
  generalize (M.pool Init).after [] es = ss at *
  cases e with
  | start s =>
    obtain ⟨a, ha⟩ := Option.isSome_iff_exists.mp (hstart s hen)
    simp [poolServiceEvent, asked, pool, ha, hlength]
  | on i e =>
    rw [asked_on]
    simpa [pool] using hlength

theorem dropped_pool {reply : σ → ε → Option (Option β)} (h : ∀ s e, reply s e ≠ some none)
    (ss : List σ) (es : List (PoolEvent σ ε)) :
    dropped ((M.pool Init).seen (poolServiceEvent pend reply) ss es) = [] := by
  induction es using List.reverseRecOn with
  | nil => rfl
  | append_singleton es e ih =>
    rw [seen_snoc, dropped_append, ih, List.nil_append]
    cases e with
    | start s => cases hs : pend s <;> simp [poolServiceEvent, dropped, hs]
    | on i e => exact dropped_on h _ i e

/-- An event of a component settles what the component has pending, if it is seen. -/
theorem settles_on [DecidableEq α] {reply : σ → ε → Option (Option β)}
    (h : Settles M Init pend Answers reply) {es : List (PoolEvent σ ε)}
    (hrun : (M.pool Init).Run [] es) {i : Nat} {e : ε}
    (hen : (M.pool Init).Enabled ((M.pool Init).after [] es) (.on i e)) :
    let ss := (M.pool Init).after [] es
    let ss' := (M.pool Init).next ss (.on i e)
    let answered := AnsweredBy Answers (es ++ [.on i e])
    (∀ b, poolServiceEvent pend reply ss (.on i e) = some b →
        (service answered).Enabled (pendingOf pend ss) b ∧
          pendingOf pend ss' = (service answered).next (pendingOf pend ss) b) ∧
      (poolServiceEvent pend reply ss (.on i e) = none →
        pendingOf pend ss' = pendingOf pend ss) := by
  obtain ⟨s, hs, hsa⟩ := hen
  obtain ⟨s₀, hinit, halone, hafter⟩ := (pool_component hrun).present i s hs
  have hevent : poolServiceEvent pend reply ((M.pool Init).after [] es) (.on i e) =
      serviceEvent pend reply i s e := by
    simp [poolServiceEvent, hs]
  intro ss ss' answered
  rw [hevent]
  subst hafter
  cases hr : reply (M.after s₀ (PoolEvent.own i es)) e with
  | none =>
    have hnone : serviceEvent pend reply i (M.after s₀ (PoolEvent.own i es)) e = none := by
      rw [serviceEvent, hr]
      split <;> simp_all
    rw [hnone]
    exact ⟨by simp, fun _ => pendingOf_same hs (h.silent hinit halone hsa hr)⟩
  | some r =>
    obtain ⟨a, ha, hnone, hanswers⟩ := h.settles hinit halone hsa hr
    obtain ⟨hmem, herase⟩ := pendingOf_settled M Init hs ha hnone
    rw [serviceEvent, ha, hr]
    refine ⟨fun b hb => ?_, fun hno => ?_⟩
    · cases r with
      | none =>
        obtain rfl := Option.some.inj hb
        exact ⟨hmem, herase⟩
      | some c =>
        obtain rfl := Option.some.inj hb
        refine ⟨⟨hmem, _, ?_, hanswers c rfl⟩, herase⟩
        simp [PoolEvent.own_snoc]
    · cases r <;> simp at hno

/-- **The service rule.** A pool of components that settle what they start with is a service,
however the events of the components interleave: what a component asks is settled once, and answered
by the events of that very component. -/
theorem pool_serves [DecidableEq α] {reply : σ → ε → Option (Option β)}
    (h : Settles M Init pend Answers reply) {es : List (PoolEvent σ ε)}
    (hrun : (M.pool Init).Run [] es) :
    let seen := (M.pool Init).seen (poolServiceEvent pend reply) [] es
    (service (AnsweredBy Answers es)).Run 0 seen ∧
      pendingOf pend ((M.pool Init).after [] es) =
        (service (AnsweredBy Answers es)).after 0 seen := by
  refine service_stutter (fun es es' a b hes hb => AnsweredBy.mono hb hes) rfl ?_ ?_ hrun
  · intro es e b hprefix hen hb
    cases e with
    | start s =>
      obtain ⟨a, ha, rfl⟩ := Option.map_eq_some_iff.mp hb
      refine ⟨trivial, (pendingOf_snoc _ s).trans ?_⟩
      rw [ha, Option.map_some, Option.toList_some, Multiset.coe_singleton, Multiset.add_comm,
        Multiset.singleton_add]
      rfl
    | on i e => exact (settles_on h hprefix hen).1 b hb
  · intro es e hprefix hen hnone
    cases e with
    | start s =>
      have hsome := h.start s hen
      have hpend : pend s = none := Option.map_eq_none_iff.mp hnone
      simp [hpend] at hsome
    | on i e => exact (settles_on h hprefix hen).2 hnone

end pool

end Http2Comm.Lib
