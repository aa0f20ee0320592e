import Http2Comm.Server.CloseNames

/-!
# The assembly of requests

The chunks of a request are appended to a buffer of its own stream, whatever the other streams
receive in between; the end of the request hands out the next value of the server's counter and
dispatches the stream; a worker runs `process` on it at any later time. So a stream that ended
its request is either still queued or has been received, once, with the concatenation of its own
accepted chunks and under the identifier of its end of request.

`Assembled` says this of one stream and the events so far, and a stream of a server runs as it
would alone (`stream_alone`). Only the identifiers are the server's: `handedOut_run` counts them,
modulo the width of the counter.
The dispatcher is seen through `Enabled`: a dispatched stream is processed once.
-/

set_option autoImplicit false

namespace Http2Comm.Server

open Lib Lib.Machine

/-! ## Receptions -/

/-- The calls that end a reception: `reception` makes exactly one of them. -/
def Effect.isReception : Effect → Bool
  | .receive .. | .receiveError .. => true
  | _ => false

def Event.isEnd : Event → Bool
  | .endOfRequest _ => true
  | _ => false

def Event.isProcess : Event → Bool
  | .process .. => true
  | _ => false

/-- The chunks that were accepted, concatenated. -/
def acceptedChunks (es : List Event) : Bytes :=
  (es.filterMap fun | .data chunk true _ => some chunk | _ => none).flatten

theorem acceptedChunks_snoc (es : List Event) (e : Event) : acceptedChunks (es ++ [e]) =
    acceptedChunks es ++
      match e with
      | .data chunk true _ => chunk
      | _ => [] := by
  cases e with
  | data chunk receiveDataLen preReserve => cases receiveDataLen <;> simp [acceptedChunks]
  | _ => simp [acceptedChunks]

section stream

variable {server : Http2Server} {st : Stream} {e : Event} {es : List Event}

theorem metric_not_reception {fs : List Effect} (h : ∀ e ∈ fs, ∃ update, e = .metric update) :
    fs.countP Effect.isReception = 0 := by
  apply List.countP_eq_zero.mpr
  intro e he
  obtain ⟨update, rfl⟩ := h e he
  simp [Effect.isReception]

/-- `process` is what receives, and it receives once. -/
theorem receptions_emits (server : Http2Server) (st : Stream) (e : Event) :
    (st.emits server e).countP Effect.isReception =
      match e with
      | .process .. => 1
      | _ => 0 := by
  cases e with
  | process now busyConsumers queueSize a =>
    simp only [Stream.emits, Stream.reception]
    split
    · simp only [List.countP_cons, Effect.isReception]
      rw [metric_not_reception (by simp)]
      rfl
    · simp only
      split <;> rfl
  | provision answer =>
    simp only [Stream.emits]
    split <;> rfl
  | commit =>
    simp only [Stream.emits]
    split <;> rfl
  | respond =>
    simp only [Stream.emits, Response.written]
    split_ifs <;> rfl
  | mark now =>
    simp only [Stream.emits]
    split <;> exact metric_not_reception (updateMetrics_metric _ _ _ _)
  | notify counter =>
    simp only [Stream.emits]
    split <;> rfl
  | _ => rfl

/-- `receive` gets the stream's identifier and its buffer. -/
theorem receive_emits {id : Nat} {body : Bytes} {now : Int}
    (h : .receive id body now ∈ st.emits server e) :
    id = st.receptionId ∧ body = st.requestBody := by
  cases e with
  | process now' busyConsumers queueSize a =>
    simp only [Stream.emits, Stream.reception] at h
    split at h
    · simp at h
    · simp only at h
      split at h <;> simp_all
  | provision answer =>
    simp only [Stream.emits] at h
    split at h <;> simp at h
  | commit =>
    simp only [Stream.emits] at h
    split at h <;> simp at h
  | respond =>
    simp only [Stream.emits, Response.written] at h
    split_ifs at h <;> simp at h
  | mark now' =>
    simp only [Stream.emits] at h
    split at h <;> obtain ⟨update, hupdate⟩ := updateMetrics_metric _ _ _ _ _ h <;> cases hupdate
  | notify counter =>
    simp only [Stream.emits] at h
    split at h <;> simp at h
  | _ => simp [Stream.emits] at h

/-! ## One stream -/

/-- What the events so far have assembled in the stream. -/
structure Assembled (es : List Event) (st : Stream) : Prop where
  body : st.requestBody = acceptedChunks es
  ends : es.countP Event.isEnd = if st.work = .receiving then 0 else 1
  receptions : st.effects.countP Effect.isReception =
    if st.work = .receiving ∨ st.work = .queued then 0 else 1
  identified : st.work ≠ .receiving → .endOfRequest st.receptionId ∈ es
  received : ∀ id body now, .receive id body now ∈ st.effects →
    .endOfRequest id ∈ es ∧ body = acceptedChunks es

theorem assembled_start (req : Request) : Assembled [] (.start req) where
  body := rfl
  ends := rfl
  receptions := rfl
  identified h := absurd rfl h
  received := by simp [Stream.start]

/-- A stream that has not been processed has called nothing. -/
theorem Assembled.unreceived (h : Assembled es st)
    (hw : st.work = .receiving ∨ st.work = .queued) {id : Nat} {body : Bytes} {now : Int} :
    .receive id body now ∉ st.effects := by
  have hnone := h.receptions
  rw [if_pos hw, List.countP_eq_zero] at hnone
  exact fun hmem => hnone _ hmem rfl

/-- Only the end of the request ends the receiving. -/
theorem receiving_next_iff (hen : st.Enabled e) :
    (st.next server e).work = .receiving ↔ st.work = .receiving ∧ e.isEnd = false := by
  rw [work_next]
  cases e with
  | endOfRequest receptionId => simp [Event.isEnd]
  | commit =>
    have hw : st.work = .committing := hen
    simp only [hw]
    split_ifs <;> simp
  | cancelTimer errorCode =>
    simp only [Event.isEnd, and_true]
    split_ifs with hw
    · simp [hw.2]
    · rfl
  | data chunk receiveDataLen preReserve => simp [Event.isEnd]
  | mark now => simp [Event.isEnd]
  | notify counter => simp [Event.isEnd]
  | _ => simp_all [Stream.Enabled]

/-- Only `process` ends the waiting for a reception. -/
theorem unreceived_next_iff (hen : st.Enabled e) :
    ((st.next server e).work = .receiving ∨ (st.next server e).work = .queued) ↔
      (st.work = .receiving ∨ st.work = .queued) ∧ e.isProcess = false := by
  rw [work_next]
  cases e with
  | endOfRequest receptionId => simp [hen.1, Event.isProcess]
  | commit =>
    have hw : st.work = .committing := hen
    simp only [hw]
    split_ifs <;> simp
  | cancelTimer errorCode =>
    simp only [Event.isProcess, and_true]
    split_ifs with hw
    · simp [hw.2]
    · rfl
  | data chunk receiveDataLen preReserve => simp [Event.isProcess]
  | mark now => simp [Event.isProcess]
  | notify counter => simp [Event.isProcess]
  | _ => simp_all [Stream.Enabled, Event.isProcess]

/-- **Every event keeps the stream assembled.** -/
theorem assembled_step (h : Assembled es st) (hen : st.Enabled e) :
    Assembled (es ++ [e]) (st.next server e) where
  body := by
    rw [requestBody_next, h.body]
    cases e with
    | data chunk receiveDataLen preReserve =>
      cases receiveDataLen <;> simp [acceptedChunks_snoc]
    | _ => simp [acceptedChunks_snoc]
  ends := by
    have hw : (st.next server e).work = .receiving ↔ _ := receiving_next_iff hen
    rw [List.countP_append, List.countP_singleton, h.ends]
    cases e with
    | endOfRequest receptionId => simp_all [Event.isEnd, Stream.Enabled]
    | _ => simp_all [Event.isEnd]
  receptions := by
    have hw : ((st.next server e).work = .receiving ∨ _) ↔ _ := unreceived_next_iff hen
    rw [effects_next, List.countP_append, receptions_emits, h.receptions]
    cases e with
    | process now busyConsumers queueSize a => simp_all [Stream.Enabled, Event.isProcess]
    | _ => simp_all [Event.isProcess]
  identified hw := by
    rw [Ne, receiving_next_iff hen] at hw
    rw [receptionId_next]
    split
    · exact List.mem_append_right _ (List.mem_singleton_self _)
    · next hend =>
      refine List.mem_append_left _ (h.identified fun hw' => hw ⟨hw', ?_⟩)
      cases e <;> first | rfl | exact absurd rfl (hend _)
  received id body now hmem := by
    rw [effects_next, List.mem_append] at hmem
    rcases hmem with hmem | hmem
    · -- nothing has been received of a request that still gets chunks
      obtain ⟨hend, hbody⟩ := h.received id body now hmem
      refine ⟨List.mem_append_left _ hend, ?_⟩
      rw [acceptedChunks_snoc, hbody]
      split
      · exact absurd hmem (h.unreceived (Or.inl hen.2.1))
      · exact (List.append_nil _).symm
    · obtain ⟨rfl, rfl⟩ := receive_emits hmem
      cases e with
      | process now' busyConsumers queueSize a =>
        have hw : st.work = .queued := hen
        refine ⟨List.mem_append_left _ (h.identified (by simp [hw])), ?_⟩
        rw [acceptedChunks_snoc, h.body, List.append_nil]
      | _ =>
        have hnone := receptions_emits server st _ ▸ List.countP_pos_iff.mpr ⟨_, hmem, rfl⟩
        simp at hnone

theorem assembled_run {req : Request} (hrun : (stream server).Run (.start req) es) :
    Assembled es ((stream server).after (.start req) es) :=
  history (H := Assembled) (assembled_start req) (fun _ _ _ h hen => assembled_step h hen) hrun

end stream

/-! ## The identifiers handed out -/

theorem mem_handedOut {evs : List ServerEvent} {i id : Nat} :
    (i, id) ∈ handedOut evs ↔ .endOfRequest id ∈ ownEvents i evs := by
  simp only [handedOut, ownEvents, PoolEvent.own, List.mem_filterMap, List.mem_map]
  constructor
  · rintro ⟨a, ha, hended⟩
    cases a with
    | request req => simp [ServerEvent.ended] at hended
    | on j e =>
      cases e with
      | endOfRequest id' =>
        simp only [ServerEvent.ended, Option.some.injEq, Prod.mk.injEq] at hended
        exact ⟨_, ⟨_, ha, rfl⟩, by simp [ServerEvent.toPool, hended]⟩
      | _ => simp [ServerEvent.ended] at hended
  · rintro ⟨_, ⟨a, ha, rfl⟩, hown⟩
    cases a with
    | request req => simp [ServerEvent.toPool] at hown
    | on j e =>
      simp only [ServerEvent.toPool, Option.ite_none_right_eq_some, Option.some.injEq] at hown
      obtain ⟨rfl, rfl⟩ := hown
      exact ⟨_, ha, rfl⟩

/-- How often a stream is handed an identifier is how often it ends. -/
theorem count_handedOut (i : Nat) (evs : List ServerEvent) :
    ((handedOut evs).map (·.1)).count i = (ownEvents i evs).countP Event.isEnd := by
  induction evs using List.reverseRecOn with
  | nil => rfl
  | append_singleton evs a ih =>
    rw [ownEvents_snoc, List.countP_append, ← ih, handedOut_snoc, List.map_append,
      List.count_append]
    congr 1
    cases a with
    | request req => rfl
    | on j e =>
      by_cases hj : j = i
      · cases e <;> simp [ServerEvent.ended, Event.isEnd, hj]
      · cases e <;> simp [ServerEvent.ended, hj]

section server

variable {server : Http2Server} {evs : List ServerEvent}

/-- The counter counts the requests ended, and hands out what it has counted. -/
theorem handedOut_run (hrun : (serving server).Run {} evs) :
    ((serving server).after {} evs).receptionId = (handedOut evs).length % 2 ^ 64 ∧
      (handedOut evs).map (·.2) =
        (List.range' 1 (handedOut evs).length).map (· % 2 ^ 64) := by
  refine history (H := fun evs sv => sv.receptionId = (handedOut evs).length % 2 ^ 64 ∧
    (handedOut evs).map (·.2) = (List.range' 1 (handedOut evs).length).map (· % 2 ^ 64))
    ⟨rfl, rfl⟩ ?_ hrun
  rintro evs a - ⟨hcounter, hids⟩ hen
  rw [handedOut_snoc]
  cases a with
  | request req => simpa [ServerEvent.ended, serving, Serving.next] using ⟨hcounter, hids⟩
  | on i e =>
    obtain ⟨st, hst, -, hreads⟩ := enabled_on.mp hen
    have hnext : (((serving server).next ((serving server).after {} evs) (.on i e))).receptionId
        = _ := receptionId_on hst
    rw [hnext]
    cases e with
    | endOfRequest receptionId =>
      obtain rfl : receptionId = _ := hreads
      simp only [ServerEvent.ended, Option.toList_some, List.map_append, List.map_singleton,
        List.length_append, List.length_singleton, nextReceptionId, hcounter, hids,
        Nat.mod_add_mod, true_and]
      rw [List.range'_1_concat, List.map_append, List.map_singleton, Nat.add_comm 1]
    | _ => simpa [ServerEvent.ended] using ⟨hcounter, hids⟩

/-- As long as the counter does not wrap around, the identifiers handed out are `1..N`. -/
theorem handedOut_few (hrun : (serving server).Run {} evs)
    (hfew : (handedOut evs).length < 2 ^ 64) :
    (handedOut evs).map (·.2) = List.range' 1 (handedOut evs).length := by
  rw [(handedOut_run hrun).2]
  refine (List.map_congr_left fun id hid => ?_).trans (List.map_id _)
  obtain ⟨-, hle⟩ := List.mem_range'_1.mp hid
  exact Nat.mod_eq_of_lt (by omega)

/-- **Requests are assembled per stream.** The identifiers handed out for `N` ended requests are
`1..N` on the counter's 64 bits, so `1..N` itself and distinct until the counter wraps around, and
each goes to another stream; a stream that ended its request is still queued or has been
received exactly once; and `receive` gets the identifier of that end and the accepted chunks of
that stream, in order. -/
theorem requests_assembled (server : Http2Server) (evs : List ServerEvent)
    (hrun : (serving server).Run {} evs) :
    (handedOut evs).map (·.2) =
      (List.range' 1 (handedOut evs).length).map (· % 2 ^ 64) ∧
    ((handedOut evs).length < 2 ^ 64 →
      (handedOut evs).map (·.2) = List.range' 1 (handedOut evs).length ∧
        ((handedOut evs).map (·.2)).Nodup) ∧
    ((handedOut evs).map (·.1)).Nodup ∧
    ∀ i st, ((serving server).after {} evs).streams[i]? = some st →
      (st.effects.countP Effect.isReception =
        if i ∈ (handedOut evs).map (·.1) ∧ st.work ≠ .queued then 1 else 0) ∧
      ∀ id body now, .receive id body now ∈ st.effects →
        (i, id) ∈ handedOut evs ∧ body = acceptedChunks (ownEvents i evs) := by
  refine ⟨(handedOut_run hrun).2, fun hfew => ?_, ?_, ?_⟩
  · rw [handedOut_few hrun hfew]
    exact ⟨rfl, List.nodup_range'⟩
  · rw [List.nodup_iff_count]
    intro i
    rw [count_handedOut]
    cases hst : ((serving server).after {} evs).streams[i]? with
    | none => simp [ownEvents_absent hrun hst]
    | some st =>
      obtain ⟨req, halone, rfl⟩ := stream_alone hrun hst
      rw [(assembled_run halone).ends]
      split <;> simp
  · intro i st hst
    obtain ⟨req, halone, rfl⟩ := stream_alone hrun hst
    have hassembled := assembled_run halone
    constructor
    · have hended : i ∈ (handedOut evs).map (·.1) ↔
          ((stream server).after (.start req) (ownEvents i evs)).work ≠ .receiving := by
        rw [← List.count_pos_iff, count_handedOut, hassembled.ends]
        split <;> simp_all
      rw [hassembled.receptions]
      simp only [hended, ← not_or, ite_not]
    · intro id body now hmem
      rw [mem_handedOut]
      exact hassembled.received id body now hmem

end server

/-- Two requests whose chunks interleave, with one chunk refused; the second to end is processed
first. -/
theorem requests_assembled_interleaved :
    let evs : List ServerEvent := [.request {}, .request {}, .on 0 (.data (ascii "ab") true true),
      .on 1 (.data (ascii "x") true true), .on 0 (.data (ascii "c") true true),
      .on 1 (.data (ascii "y") false true), .on 0 (.endOfRequest 1), .on 1 (.endOfRequest 2),
      .on 1 (.process 5 false 0 acceptAll)]
    (handedOut evs).map (·.2) = [1, 2] ∧ acceptedChunks (ownEvents 1 evs) = ascii "x" :=
  have h := requests_assembled { queueDispatcher := true } _ (by decide)
  ⟨(h.2.1 (by decide)).1, ((h.2.2.2 1 _ rfl).2 2 (ascii "x") 5 (by decide)).2.symm⟩

end Http2Comm.Server
