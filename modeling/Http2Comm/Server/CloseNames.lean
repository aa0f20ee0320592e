import Http2Comm.Server.Handler

/-!
# The reception a close event names

`on_close` reports the end of a stream by reception identifier: `streamClose` under code zero,
`streamError` otherwise. The first is given the stream's own copy, `stream->getReceptionId()`;
the second is given `reception_id_`, which inside the lambda is the **server's** counter — the
identifier of whichever request ended last. With one stream in flight the two agree
(`close_names_other_reception` needs two).

`ClosesLast` is the exact condition: every close under error is of the stream whose request was
the last to end, or no request has ended at all. The argument has three parts: what a stream's
own members say about the identifiers it has passed on (`Identified`), how the identifiers handed
out relate to the counter (`Numbered`), and the exactness rule over the interleaving. The second
part is about the identifiers before the counter wraps around: from then on they are not distinct.
-/

set_option autoImplicit false

namespace Http2Comm.Server

open Lib Lib.Machine

/-! ## Identifiers in effects and events -/

/-- The identifiers passed to `receive`. -/
def receivedIds (es : List Effect) : List Nat :=
  es.filterMap fun | .receive id _ _ => some id | _ => none

/-- The identifiers passed to `streamError` and `streamClose`. -/
def closeIds (es : List Effect) : List Nat :=
  es.filterMap fun | .streamError _ _ id => some id | .streamClose id => some id | _ => none

@[simp] theorem receivedIds_append (es fs : List Effect) :
    receivedIds (es ++ fs) = receivedIds es ++ receivedIds fs := List.filterMap_append

@[simp] theorem closeIds_append (es fs : List Effect) :
    closeIds (es ++ fs) = closeIds es ++ closeIds fs := List.filterMap_append

/-- The stream whose request the event ends, and the identifier it gets. -/
def ServerEvent.ended : ServerEvent → Option (Nat × Nat)
  | .on i (.endOfRequest receptionId) => some (i, receptionId)
  | _ => none

/-- The streams that ended their request, in that order, with the identifiers they got. -/
def handedOut (evs : List ServerEvent) : List (Nat × Nat) := evs.filterMap ServerEvent.ended

theorem handedOut_snoc (evs : List ServerEvent) (a : ServerEvent) :
    handedOut (evs ++ [a]) = handedOut evs ++ a.ended.toList := by
  rw [handedOut, List.filterMap_append]
  cases h : a.ended <;> simp [handedOut, h]

theorem length_handedOut_le {evs evs' : List ServerEvent} (h : evs <+: evs') :
    (handedOut evs).length ≤ (handedOut evs').length := (h.filterMap _).length_le

/-- The identifier assigned to stream `i` at its end of request, `0` before it. -/
def assignedId (i : Nat) (evs : List ServerEvent) : Nat :=
  (((handedOut evs).filter (·.1 = i)).getLast?.map (·.2)).getD 0

/-- The stream whose request was the last to end. -/
def lastEnded (evs : List ServerEvent) : Option Nat :=
  (handedOut evs).getLast?.map (·.1)

theorem assignedId_snoc_ended {a : ServerEvent} {k id : Nat} (h : a.ended = some (k, id))
    (i : Nat) (evs : List ServerEvent) :
    assignedId i (evs ++ [a]) = if i = k then id else assignedId i evs := by
  simp only [assignedId, handedOut_snoc, h, Option.toList_some, List.filter_append]
  by_cases hk : k = i
  · simp [hk]
  · simp [hk, Ne.symm hk]

theorem lastEnded_snoc_ended {a : ServerEvent} {k id : Nat} (h : a.ended = some (k, id))
    (evs : List ServerEvent) : lastEnded (evs ++ [a]) = some k := by
  simp [lastEnded, handedOut_snoc, h]

theorem ended_snoc_none {a : ServerEvent} (h : a.ended = none) (evs : List ServerEvent) :
    lastEnded (evs ++ [a]) = lastEnded evs ∧
      ∀ i, assignedId i (evs ++ [a]) = assignedId i evs := by
  simp [lastEnded, assignedId, handedOut_snoc, h]

/-! ## One stream -/

section stream

variable {server : Http2Server} {st : Stream} {e : Event}

theorem ids_of_metric {es : List Effect} (h : ∀ e ∈ es, ∃ update, e = .metric update) :
    receivedIds es = [] ∧ closeIds es = [] := by
  constructor
  · apply List.filterMap_eq_nil_iff.mpr
    intro e he
    obtain ⟨update, rfl⟩ := h e he
    rfl
  · apply List.filterMap_eq_nil_iff.mpr
    intro e he
    obtain ⟨update, rfl⟩ := h e he
    rfl

theorem closeIds_emits (server : Http2Server) (st : Stream) (e : Event) :
    closeIds (st.emits server e) =
      match e with
      | .notify counter => [if st.errorCode ≠ 0 then counter else st.receptionId]
      | _ => [] := by
  cases e with
  | process now busyConsumers queueSize a =>
    simp only [Stream.emits, Stream.reception]
    split
    · simp [closeIds]
    · simp only
      split <;> simp [closeIds]
  | provision answer =>
    simp only [Stream.emits]
    split <;> rfl
  | commit =>
    simp only [Stream.emits]
    split <;> rfl
  | respond =>
    simp only [Stream.emits, Response.written]
    split_ifs <;> rfl
  | mark now =>
    simp only [Stream.emits]
    split <;> exact (ids_of_metric (updateMetrics_metric _ _ _ _)).2
  | notify counter =>
    simp only [Stream.emits]
    split <;> rfl
  | _ => rfl

/-- Only `process` calls `receive`, and with the stream's own copy. -/
theorem receivedIds_emits (server : Http2Server) (st : Stream) (e : Event) :
    receivedIds (st.emits server e) = [] ∨
      (∃ now busyConsumers queueSize a, e = .process now busyConsumers queueSize a) ∧
        receivedIds (st.emits server e) = [st.receptionId] := by
  cases e with
  | process now busyConsumers queueSize a =>
    simp only [Stream.emits, Stream.reception]
    split
    · exact Or.inl (by simp [receivedIds])
    · refine Or.inr ⟨⟨_, _, _, _, rfl⟩, ?_⟩
      simp only
      split <;> simp [receivedIds]
  | provision answer =>
    refine Or.inl ?_
    simp only [Stream.emits]
    split <;> rfl
  | commit =>
    refine Or.inl ?_
    simp only [Stream.emits]
    split <;> rfl
  | respond =>
    refine Or.inl ?_
    simp only [Stream.emits, Response.written]
    split_ifs <;> rfl
  | mark now =>
    refine Or.inl ?_
    simp only [Stream.emits]
    split <;> exact (ids_of_metric (updateMetrics_metric _ _ _ _)).1
  | notify counter =>
    refine Or.inl ?_
    simp only [Stream.emits]
    split <;> rfl
  | _ => exact Or.inl rfl

/-- What a stream's members say about the identifiers it has passed on. -/
structure Identified (st : Stream) : Prop where
  unassigned : st.work = .receiving → st.receptionId = 0
  unreceived : st.work = .receiving → receivedIds st.effects = []
  received : ∀ id ∈ receivedIds st.effects, id = st.receptionId
  unclosed : st.closing ≠ .finished → closeIds st.effects = []

theorem identified_start (req : Request) : Identified (.start req) where
  unassigned _ := rfl
  unreceived _ := rfl
  received := by simp [Stream.start, receivedIds]
  unclosed _ := rfl

/-- A request still being received was so before, and the event was not the work of a worker. -/
theorem receiving_next (hw : (st.next server e).work = .receiving) :
    st.work = .receiving ∧ (∀ id, e ≠ .endOfRequest id) ∧
      ∀ now busy size a, e ≠ .process now busy size a := by
  rw [work_next] at hw
  cases e with
  | commit =>
    simp only at hw
    split_ifs at hw
  | cancelTimer errorCode =>
    simp only at hw
    split_ifs at hw
    exact ⟨hw, by simp, by simp⟩
  | data chunk receiveDataLen preReserve => exact ⟨hw, by simp, by simp⟩
  | mark now => exact ⟨hw, by simp, by simp⟩
  | notify counter => exact ⟨hw, by simp, by simp⟩
  | _ => simp at hw

theorem identified_step (server : Http2Server) (st : Stream) (e : Event) (h : Identified st)
    (hen : st.Enabled e) : Identified (st.next server e) where
  unassigned hw := by
    obtain ⟨hw, hend, -⟩ := receiving_next hw
    rw [receptionId_next]
    split
    · exact absurd rfl (hend _)
    · exact h.unassigned hw
  unreceived hw := by
    obtain ⟨hw, -, hprocess⟩ := receiving_next hw
    rw [effects_next, receivedIds_append, h.unreceived hw]
    rcases receivedIds_emits server st e with hnone | ⟨⟨now, busy, size, a, rfl⟩, -⟩
    · exact hnone
    · exact absurd rfl (hprocess now busy size a)
  received id hid := by
    rw [effects_next, receivedIds_append, List.mem_append] at hid
    rw [receptionId_next]
    split
    · -- nothing has been received of a request that is just ending
      rw [h.unreceived hen.1] at hid
      simp [Stream.emits, receivedIds] at hid
    · rcases hid with hid | hid
      · exact h.received id hid
      · rcases receivedIds_emits server st e with hnone | ⟨-, hone⟩
        · simp [hnone] at hid
        · simpa [hone] using hid
  unclosed hc := by
    rw [closing_next] at hc
    rw [effects_next, closeIds_append, closeIds_emits]
    cases e with
    | notify counter => exact absurd rfl hc
    | cancelTimer errorCode => simp [h.unclosed (by rw [show st.closing = _ from hen]; simp)]
    | mark now => simp [h.unclosed (by rw [show st.closing = _ from hen]; simp)]
    | _ => simpa using h.unclosed hc

/-- Every close call of the stream names the stream's own copy. -/
def ClosesOwn (st : Stream) : Prop := ∀ id ∈ closeIds st.effects, id = st.receptionId

/-- **What `on_close` passes on is the stream's own identifier exactly if the code is zero or the
counter it reads happens to be that identifier.** -/
theorem closesOwn_step (h : Identified st) (hen : st.Enabled e) :
    ClosesOwn (st.next server e) ↔ ClosesOwn st ∧
      ∀ counter, e = .notify counter → st.errorCode ≠ 0 → counter = st.receptionId := by
  unfold ClosesOwn
  rw [effects_next, closeIds_append, closeIds_emits, receptionId_next]
  cases e with
  | endOfRequest receptionId =>
    have hnone : closeIds st.effects = [] := h.unclosed (by rw [hen.2]; simp)
    simp [hnone]
  | notify counter =>
    -- the only close call is the one being made
    have hnone : closeIds st.effects = [] := by
      apply h.unclosed
      rw [show st.closing = .marked from hen]
      simp
    by_cases hcode : st.errorCode = 0 <;> simp [hnone, hcode]
  | _ => simp

end stream

/-! ## The identifiers handed out -/

/-- How the identifiers handed out relate to each other and to the counter `n`. -/
structure Numbered (evs : List ServerEvent) (n : Nat) : Prop where
  le : ∀ i, assignedId i evs ≤ n
  distinct : ∀ i j, i ≠ j → assignedId i evs ≠ 0 → assignedId i evs ≠ assignedId j evs
  last : ∀ i, assignedId i evs = n ↔ lastEnded evs = none ∨ lastEnded evs = some i

theorem Numbered.ended {evs : List ServerEvent} {n k : Nat} {a : ServerEvent}
    (h : Numbered evs n) (ha : a.ended = some (k, n + 1)) : Numbered (evs ++ [a]) (n + 1) where
  le i := by
    rw [assignedId_snoc_ended ha]
    split
    · exact Nat.le_refl _
    · exact Nat.le_succ_of_le (h.le i)
  distinct i j hij hi := by
    rw [assignedId_snoc_ended ha] at hi ⊢
    rw [assignedId_snoc_ended ha]
    have hlei := h.le i
    have hlej := h.le j
    split_ifs at hi ⊢ with h1 h2 h2
    · exact absurd (h1.trans h2.symm) hij
    · omega
    · omega
    · exact h.distinct i j hij hi
  last i := by
    rw [assignedId_snoc_ended ha, lastEnded_snoc_ended ha]
    have hlei := h.le i
    by_cases hk : i = k
    · simp [hk]
    · simp [hk, Ne.symm hk]
      omega

/-- The events so far and the members agree. Until the counter wraps around it numbers the ended
requests. -/
structure Assigned (evs : List ServerEvent) (sv : Serving) : Prop where
  counted : sv.receptionId = (handedOut evs).length % 2 ^ 64
  numbered : (handedOut evs).length < 2 ^ 64 → Numbered evs sv.receptionId
  own : ∀ i st, sv.streams[i]? = some st → st.receptionId = assignedId i evs
  absent : ∀ i, sv.streams[i]? = none → assignedId i evs = 0

section server

variable {server : Http2Server} {sv : Serving} {evs : List ServerEvent}

theorem assigned_start : Assigned [] {} where
  counted := rfl
  numbered _ := ⟨by simp [assignedId, handedOut], by simp [assignedId, handedOut],
    by simp [assignedId, lastEnded, handedOut]⟩
  own := by simp
  absent := by simp [assignedId, handedOut]

theorem Numbered.other {n : Nat} {a : ServerEvent} (h : Numbered evs n) (ha : a.ended = none) :
    Numbered (evs ++ [a]) n := by
  obtain ⟨hlast, hassigned⟩ := ended_snoc_none ha evs
  exact ⟨by simpa [hassigned] using h.le, by simpa [hassigned] using h.distinct,
    by simpa [hassigned, hlast] using h.last⟩

/-- An event that ends no request leaves what is assigned as it was. -/
theorem Assigned.other {i : Nat} {e : Event} {st : Stream} (h : Assigned evs sv)
    (hst : sv.streams[i]? = some st) (he : ∀ id, e ≠ .endOfRequest id) :
    Assigned (evs ++ [.on i e]) (sv.next server (.on i e)) := by
  have ha : (ServerEvent.on i e).ended = none := by
    cases e with
    | endOfRequest id => exact absurd rfl (he id)
    | _ => rfl
  have hassigned := (ended_snoc_none ha evs).2
  have hcounter : (sv.next server (.on i e)).receptionId = sv.receptionId := by
    rw [receptionId_on hst]
    split
    · exact absurd rfl (he _)
    · rfl
  have hcopy : (st.next server e).receptionId = st.receptionId := by
    rw [receptionId_next]
    split
    · exact absurd rfl (he _)
    · rfl
  have hhanded : handedOut (evs ++ [.on i e]) = handedOut evs := by simp [handedOut_snoc, ha]
  refine ⟨?_, fun hfew => ?_, ?_, ?_⟩
  · rw [hcounter, hhanded, h.counted]
  · rw [hcounter]
    exact (h.numbered (hhanded ▸ hfew)).other ha
  · intro j st' hj
    rw [streams_on hst] at hj
    rw [hassigned]
    split_ifs at hj with hji
    · obtain rfl := Option.some.inj hj
      rw [hcopy, hji]
      exact h.own i st hst
    · exact h.own j st' hj
  · intro j hj
    rw [streams_on hst] at hj
    rw [hassigned]
    split_ifs at hj
    exact h.absent j hj

theorem assigned_step (h : Assigned evs sv) (a : ServerEvent) (hen : sv.Enabled a) :
    Assigned (evs ++ [a]) (sv.next server a) := by
  cases a with
  | request req =>
    have hassigned := (ended_snoc_none (a := .request req) rfl evs).2
    have hhanded : handedOut (evs ++ [.request req]) = handedOut evs := by
      simp [handedOut_snoc, ServerEvent.ended]
    refine ⟨hhanded ▸ h.counted, fun hfew => (h.numbered (hhanded ▸ hfew)).other rfl, ?_, ?_⟩
    · intro j st hj
      rw [streams_request] at hj
      rw [hassigned]
      split_ifs at hj with hlen
      · obtain rfl := Option.some.inj hj
        exact (h.absent j (List.getElem?_eq_none (Nat.le_of_eq hlen.symm))).symm
      · exact h.own j st hj
    · intro j hj
      rw [streams_request] at hj
      rw [hassigned]
      split_ifs at hj
      exact h.absent j hj
  | on i e =>
    obtain ⟨st, hst, hen', hreads⟩ := enabled_on.mp hen
    -- only an end of request hands out an identifier, the next one
    by_cases he : ∃ id, e = .endOfRequest id
    · obtain ⟨id, rfl⟩ := he
      obtain rfl : id = nextReceptionId sv.receptionId := hreads
      have ha : (ServerEvent.on i (.endOfRequest (nextReceptionId sv.receptionId))).ended
          = some (i, nextReceptionId sv.receptionId) := rfl
      have hcount : (handedOut (evs ++ [.on i (.endOfRequest (nextReceptionId sv.receptionId))])
          ).length = (handedOut evs).length + 1 := by
        simp [handedOut_snoc, ha]
      refine ⟨?_, fun hfew => ?_, ?_, ?_⟩
      · rw [receptionId_on hst, hcount, nextReceptionId, h.counted, Nat.mod_add_mod]
      · -- the counter does not wrap around at this request
        have hnext : nextReceptionId sv.receptionId = sv.receptionId + 1 := by
          rw [nextReceptionId, h.counted]
          omega
        rw [receptionId_on hst]
        rw [hnext] at ha ⊢
        exact (h.numbered (by omega)).ended ha
      · intro j st' hj
        rw [streams_on hst] at hj
        rw [assignedId_snoc_ended ha]
        split_ifs at hj ⊢ with hji
        · exact Option.some.inj hj ▸ receptionId_next ..
        · exact h.own j st' hj
      · intro j hj
        rw [streams_on hst] at hj
        rw [assignedId_snoc_ended ha]
        split_ifs at hj ⊢
        exact h.absent j hj
    · exact h.other hst fun id hid => he ⟨id, hid⟩

theorem assigned_run (hrun : (serving server).Run {} evs) :
    Assigned evs ((serving server).after {} evs) :=
  history (H := Assigned) assigned_start
    (fun _ a _ hassigned hen => assigned_step hassigned a hen) hrun

/-! ## Which closes name the right reception -/

/-- The close reads a counter that is the stream's own identifier, or does not read it. -/
def ReadsOwn (sv : Serving) : ServerEvent → Prop
  | .on i (.notify counter) =>
    ∀ st ∈ sv.streams[i]?, st.errorCode ≠ 0 → counter = st.receptionId
  | _ => True

instance (sv : Serving) (a : ServerEvent) : Decidable (ReadsOwn sv a) :=
  match a with
  | .on i (.notify _) => inferInstanceAs (Decidable (∀ st ∈ sv.streams[i]?, _ → _))
  | .request _ | .on _ (.data ..) | .on _ (.endOfRequest _) | .on _ (.process ..)
  | .on _ (.provision _) | .on _ .commit | .on _ .timerExpires | .on _ (.timerHandler _)
  | .on _ .timerAborted | .on _ .post | .on _ .respond | .on _ (.cancelTimer _)
  | .on _ (.mark _) => isTrue trivial

theorem closesOwn_next (a : ServerEvent) (hid : ∀ st ∈ sv.streams, Identified st)
    (hen : sv.Enabled a) :
    (∀ st ∈ (sv.next server a).streams, ClosesOwn st) ↔
      (∀ st ∈ sv.streams, ClosesOwn st) ∧ ReadsOwn sv a := by
  cases a with
  | request req =>
    have hstart : ClosesOwn (.start req) := by simp [ClosesOwn, Stream.start, closeIds]
    simp only [Serving.next, List.mem_append, List.mem_singleton, ReadsOwn, and_true]
    exact ⟨fun h st hst => h st (Or.inl hst), fun h st hst => hst.elim (h st) (· ▸ hstart)⟩
  | on i e =>
    obtain ⟨st, hst, hen', -⟩ := enabled_on.mp hen
    have hstep : ClosesOwn (st.next server e) ↔ _ :=
      closesOwn_step (hid st (List.mem_of_getElem? hst)) hen'
    have hreads : ReadsOwn sv (.on i e) ↔
        ∀ counter, e = .notify counter → st.errorCode ≠ 0 → counter = st.receptionId := by
      cases e <;> simp [ReadsOwn, hst]
    rw [hreads]
    simp only [List.mem_iff_getElem?, forall_exists_index] at *
    constructor
    · intro h
      have hi := hstep.mp (h _ i (by rw [streams_on hst, if_pos rfl]))
      refine ⟨fun st' j hj => ?_, hi.2⟩
      by_cases hji : j = i
      · rw [hji, hst] at hj
        exact Option.some.inj hj ▸ hi.1
      · exact h st' j (by rw [streams_on hst, if_neg hji, hj])
    · rintro ⟨h, hown⟩ st' j hj
      rw [streams_on hst] at hj
      split_ifs at hj
      · exact Option.some.inj hj ▸ hstep.mpr ⟨h st i hst, hown⟩
      · exact h st' j hj

/-- The property: for every stream, `receive` and the close call name the identifier the stream
was assigned, and the close call never the identifier of another stream. -/
def CloseNamesOwn (evs : List ServerEvent) (sv : Serving) : Prop :=
  ∀ i st, sv.streams[i]? = some st →
    (∀ id ∈ receivedIds st.effects, id = assignedId i evs) ∧
    ∀ id ∈ closeIds st.effects,
      id = assignedId i evs ∧ ∀ j, j ≠ i → id ≠ 0 → id ≠ assignedId j evs

/-- Every close under error is of the stream whose request was the last to end, or no request
had ended. -/
def ClosesLast (server : Http2Server) (evs : List ServerEvent) : Prop :=
  ∀ before i counter rest, evs = before ++ .on i (.notify counter) :: rest →
    ∀ st, ((serving server).after {} before).streams[i]? = some st → st.errorCode ≠ 0 →
      lastEnded before = none ∨ lastEnded before = some i

theorem closesLast_iff (hrun : (serving server).Run {} evs)
    (hfew : (handedOut evs).length < 2 ^ 64) :
    ClosesLast server evs ↔ (serving server).Along ReadsOwn {} evs := by
  have hcut {before : List ServerEvent} {i counter : Nat} {rest : List ServerEvent}
      (h : evs = before ++ .on i (.notify counter) :: rest) {st : Stream}
      (hst : ((serving server).after {} before).streams[i]? = some st) :
      (counter = st.receptionId ↔ lastEnded before = none ∨ lastEnded before = some i) := by
    have hless : (handedOut before).length ≤ (handedOut evs).length :=
      length_handedOut_le ⟨_, h.symm⟩
    rw [h] at hrun
    obtain ⟨hbefore, hen, -⟩ := run_append.mp hrun
    -- the counter that the close reads is the one the events before it have left
    obtain ⟨-, -, -, rfl⟩ := enabled_on.mp hen
    have hassigned := assigned_run hbefore
    rw [hassigned.own i st hst, eq_comm]
    exact (hassigned.numbered (by omega)).last i
  rw [along_iff_cut]
  constructor
  · intro h before a rest hevs
    cases a with
    | request req => trivial
    | on i e =>
      cases e with
      | notify counter =>
        exact fun st hst hcode => (hcut hevs hst).mpr (h before i counter rest hevs st hst hcode)
      | _ => trivial
  · intro h before i counter rest hevs st hst hcode
    exact (hcut hevs hst).mp (h before _ rest hevs st hst hcode)

theorem closeNamesOwn_iff (hrun : (serving server).Run {} evs)
    (hfew : (handedOut evs).length < 2 ^ 64) : CloseNamesOwn evs ((serving server).after {} evs) ↔
      ∀ st ∈ ((serving server).after {} evs).streams, ClosesOwn st := by
  have hassigned := assigned_run hrun
  have hid := streams_invariant identified_start (identified_step server) hrun
  constructor
  · intro h st hst id hclose
    obtain ⟨i, hi⟩ := List.mem_iff_getElem?.mp hst
    rw [hassigned.own i st hi]
    exact ((h i st hi).2 id hclose).1
  · intro h i st hi
    have hmem := List.mem_of_getElem? hi
    have hown := hassigned.own i st hi
    refine ⟨fun id hrec => hown ▸ (hid st hmem).received id hrec, fun id hclose => ?_⟩
    obtain rfl : id = assignedId i evs := hown ▸ h st hmem id hclose
    exact ⟨rfl, fun j hj hne => (hassigned.numbered hfew).distinct i j (Ne.symm hj) hne⟩

/-- **Close events name the right reception exactly when every close under error is of the
stream whose request was the last to end.** The counter has not wrapped around. -/
theorem close_names_own_reception (server : Http2Server) (evs : List ServerEvent)
    (hrun : (serving server).Run {} evs) (hfew : (handedOut evs).length < 2 ^ 64) :
    CloseNamesOwn evs ((serving server).after {} evs) ↔ ClosesLast server evs := by
  rw [closeNamesOwn_iff hrun hfew, closesLast_iff hrun hfew]
  have hexact : (∀ st ∈ ((serving server).after {} evs).streams, ClosesOwn st) ↔
      (∀ st ∈ ({} : Serving).streams, ClosesOwn st) ∧ (serving server).Along ReadsOwn {} evs :=
    exact_along (I := fun sv : Serving => ∀ st ∈ sv.streams, Identified st)
      (G := fun sv : Serving => ∀ st ∈ sv.streams, ClosesOwn st)
      (fun _ _ hid hen => streams_step identified_start (identified_step server) hid hen)
      (fun _ a hid hen => closesOwn_next a hid hen) (by simp) hrun
  simpa using hexact

end server

/-- Two requests: the first to end is closed without error, and then the other, the last to end,
under `CANCEL`. -/
theorem close_names_own_reception_last :
    let evs : List ServerEvent := [.request {}, .request {}, .on 0 (.endOfRequest 1),
      .on 1 (.endOfRequest 2), .on 0 (.cancelTimer 0), .on 0 (.mark 5), .on 0 (.notify 2),
      .on 1 (.cancelTimer 8), .on 1 (.mark 6), .on 1 (.notify 2)]
    CloseNamesOwn evs ((serving {}).after {} evs) :=
  (close_names_own_reception {} _ (by decide) (by decide)).mpr
    ((closesLast_iff (by decide) (by decide)).mpr (by decide))

/-- **A close that names another reception.** Two requests end, as receptions 1 and 2; the first
is then reset, and `streamError` gets 2. -/
theorem close_names_other_reception :
    ¬∀ (server : Http2Server) (evs : List ServerEvent), (serving server).Run {} evs →
      CloseNamesOwn evs ((serving server).after {} evs) := by
  intro h
  have hown := h {} [.request {}, .request {}, .on 0 (.endOfRequest 1), .on 1 (.endOfRequest 2),
    .on 0 (.cancelTimer 8), .on 0 (.mark 5), .on 0 (.notify 2)] (by decide)
  have hnamed := (hown 0 _ rfl).2 2 (by decide)
  exact absurd hnamed.1 (by decide)

end Http2Comm.Server
