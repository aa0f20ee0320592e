import Http2Comm.Lib.Pool
import Http2Comm.Server.Stream

/-!
# `Http2Server::handler` — the streams of a running server

`handler` creates one `Stream` per request and registers the callbacks that feed it. What the
streams share is small: the counter `reception_id_`, incremented and read at each end of request
and read by `on_close`, and `maximum_request_body_size_`. A running server is therefore the
streams and these two members, and its runs interleave the events of the streams in any way; an
event reads the shared members at the moment it happens.

Each shared member is an atomic of the source and each of its updates one event. The counter is a
`std::uint64_t`: after `2 ^ 64` ends of request it is back at `0`, and the identifiers repeat.
-/

set_option autoImplicit false

namespace Http2Comm.Server

open Lib Lib.Machine

/-- A server that is serving: the shared members and the streams, in the order of creation. -/
structure Serving where
  receptionId : Nat := 0
  maximumRequestBodySize : Nat := 0
  streams : List Stream := []
  deriving DecidableEq, Repr

/-- `reception_id_.fetch_add(1) + 1`, which is also what the counter is then. -/
def nextReceptionId (receptionId : Nat) : Nat := (receptionId + 1) % 2 ^ 64

inductive ServerEvent where
  /-- nghttp2 calls the request handler. -/
  | request (req : Request)
  /-- An event of one stream. -/
  | on (i : Nat) (e : Event)

/-- What the event reads of the shared members is what is there. -/
def Serving.Reads (sv : Serving) : Event → Prop
  | .endOfRequest receptionId => receptionId = nextReceptionId sv.receptionId
  | .notify counter => counter = sv.receptionId
  | _ => True

/-- What the event writes to the shared members. -/
def Serving.update (sv : Serving) : Event → Serving
  | .endOfRequest _ => { sv with receptionId := nextReceptionId sv.receptionId }
  | .data chunk true true =>
    { sv with maximumRequestBodySize := max sv.maximumRequestBodySize chunk.length }
  | _ => sv

def Serving.Enabled (sv : Serving) : ServerEvent → Prop
  | .request _ => True
  | .on i e =>
    match sv.streams[i]? with
    | some st => st.Enabled e ∧ sv.Reads e
    | none => False

def Serving.next (server : Http2Server) (sv : Serving) : ServerEvent → Serving
  | .request req => { sv with streams := sv.streams ++ [.start req] }
  | .on i e =>
    match sv.streams[i]? with
    | some st => { sv.update e with streams := sv.streams.set i (st.next server e) }
    | none => sv

instance (sv : Serving) (e : Event) : Decidable (sv.Reads e) :=
  match e with
  | .endOfRequest _ | .notify _ => inferInstanceAs (Decidable (_ = _))
  | .data .. | .process .. | .provision _ | .commit | .timerExpires | .timerHandler _
  | .timerAborted | .post | .respond | .cancelTimer _ | .mark _ => isTrue trivial

instance (sv : Serving) (a : ServerEvent) : Decidable (sv.Enabled a) :=
  match a with
  | .request _ => isTrue trivial
  | .on i e =>
    match h : sv.streams[i]? with
    | some st => decidable_of_iff (st.Enabled e ∧ sv.Reads e) (by simp [Serving.Enabled, h])
    | none => isFalse (by simp [Serving.Enabled, h])

/-- The runs of a server. -/
def serving (server : Http2Server) : Machine Serving ServerEvent where
  Enabled sv a := sv.Enabled a
  next sv a := sv.next server a

instance (server : Http2Server) (sv : Serving) (a : ServerEvent) :
    Decidable ((serving server).Enabled sv a) := inferInstanceAs (Decidable (sv.Enabled a))

/-! ## One step, seen from one stream -/

section next

variable {server : Http2Server} {sv : Serving} {st : Stream} {i : Nat} {e : Event}

theorem enabled_on : sv.Enabled (.on i e) ↔
    ∃ st, sv.streams[i]? = some st ∧ st.Enabled e ∧ sv.Reads e := by
  cases h : sv.streams[i]? <;> simp [Serving.Enabled, h]

theorem streams_request (req : Request) (j : Nat) :
    (sv.next server (.request req)).streams[j]? =
      if j = sv.streams.length then some (.start req) else sv.streams[j]? := by
  simp only [Serving.next]
  rcases Nat.lt_trichotomy j sv.streams.length with hlt | heq | hgt
  · rw [List.getElem?_append_left hlt, if_neg (Nat.ne_of_lt hlt)]
  · simp [heq]
  · rw [List.getElem?_eq_none (by simp; omega), if_neg (Nat.ne_of_gt hgt),
      List.getElem?_eq_none (Nat.le_of_lt hgt)]

/-- Only the stream of the event moves. -/
theorem streams_on (h : sv.streams[i]? = some st) (j : Nat) :
    (sv.next server (.on i e)).streams[j]? =
      if j = i then some (st.next server e) else sv.streams[j]? := by
  -- the index is in range, so `set` hits it
  have hi : i < sv.streams.length := (List.getElem?_eq_some_iff.mp h).1
  simp only [Serving.next, h]
  split_ifs with hj
  · rw [hj, List.getElem?_set_self hi]
  · rw [List.getElem?_set_ne (Ne.symm hj)]

theorem receptionId_on (h : sv.streams[i]? = some st) :
    (sv.next server (.on i e)).receptionId =
      match e with
      | .endOfRequest _ => nextReceptionId sv.receptionId
      | _ => sv.receptionId := by
  simp only [Serving.next, h]
  cases e with
  | data chunk receiveDataLen preReserve => cases receiveDataLen <;> cases preReserve <;> rfl
  | _ => rfl

/-- What holds of a new stream and is kept by every event of a stream is kept, for all streams of
a server, by every event of the server. -/
theorem streams_step {I : Stream → Prop} (hstart : ∀ req, I (.start req))
    (hstep : ∀ st e, I st → st.Enabled e → I (st.next server e)) {a : ServerEvent}
    (hsv : ∀ st ∈ sv.streams, I st) (hen : sv.Enabled a) :
    ∀ st ∈ (sv.next server a).streams, I st := by
  intro st' hst'
  cases a with
  | request req =>
    rcases List.mem_append.mp hst' with h | h
    · exact hsv st' h
    · exact List.mem_singleton.mp h ▸ hstart req
  | on i e =>
    obtain ⟨st, hst, hen', -⟩ := enabled_on.mp hen
    simp only [Serving.next, hst] at hst'
    rcases List.mem_or_eq_of_mem_set hst' with h | rfl
    · exact hsv st' h
    · exact hstep st e (hsv st (List.mem_of_getElem? hst)) hen'

theorem streams_invariant {I : Stream → Prop} (hstart : ∀ req, I (.start req))
    (hstep : ∀ st e, I st → st.Enabled e → I (st.next server e)) {as : List ServerEvent}
    (hrun : (serving server).Run {} as) :
    ∀ st ∈ ((serving server).after {} as).streams, I st :=
  invariant (I := fun sv : Serving => ∀ st ∈ sv.streams, I st)
    (fun _ _ hsv hen => streams_step hstart hstep hsv hen) (by simp) hrun

end next

/-! ## The streams as a pool -/

/-- The event, as one of the pool of the streams. -/
def ServerEvent.toPool : ServerEvent → PoolEvent Stream Event
  | .request req => .start (.start req)
  | .on i e => .on i e

/-- The events of stream `i`, in order. -/
def ownEvents (i : Nat) (evs : List ServerEvent) : List Event :=
  PoolEvent.own i (evs.map ServerEvent.toPool)

theorem ownEvents_snoc (i : Nat) (evs : List ServerEvent) (a : ServerEvent) :
    ownEvents i (evs ++ [a]) = ownEvents i evs ++
      match a with
      | .request _ => []
      | .on j e => if j = i then [e] else [] := by
  rw [ownEvents, List.map_append, List.map_singleton, PoolEvent.own_snoc]
  cases a <;> rfl

section pool

variable {server : Http2Server} {evs : List ServerEvent}

/-- A server's streams are such a pool: what they share is only read and written at their side. -/
theorem streams_pool (hrun : (serving server).Run {} evs) :
    ((stream server).pool (∃ req, · = Stream.start req)).Run [] (evs.map ServerEvent.toPool) ∧
      ((serving server).after {} evs).streams =
        ((stream server).pool (∃ req, · = Stream.start req)).after []
          (evs.map ServerEvent.toPool) := by
  refine simulate (R := fun sv sts => sv.streams = sts) ?_ rfl hrun
  rintro sv _ a rfl hen
  cases a with
  | request req => exact ⟨⟨req, rfl⟩, rfl⟩
  | on i e =>
    obtain ⟨st, hst, hen', -⟩ := enabled_on.mp hen
    refine ⟨⟨st, hst, hen'⟩, ?_⟩
    apply List.ext_getElem?
    intro j
    have hon : (sv.next server (.on i e)).streams[j]? = _ := streams_on hst j
    refine hon.trans ?_
    change _ = (sv.streams.modify i (Stream.next server · e))[j]?
    rw [List.getElem?_modify]
    by_cases hji : j = i
    · simp [hji, hst]
    · simp [hji, Ne.symm hji]

/-- **A stream of a server runs as it would alone.** -/
theorem stream_alone (hrun : (serving server).Run {} evs) {i : Nat} {st : Stream}
    (hst : ((serving server).after {} evs).streams[i]? = some st) :
    ∃ req, (stream server).Run (.start req) (ownEvents i evs) ∧
      st = (stream server).after (.start req) (ownEvents i evs) := by
  obtain ⟨hpool, hstreams⟩ := streams_pool hrun
  obtain ⟨_, ⟨req, rfl⟩, halone⟩ := (pool_component hpool).present i st (hstreams ▸ hst)
  exact ⟨req, halone⟩

theorem ownEvents_absent (hrun : (serving server).Run {} evs) {i : Nat}
    (hst : ((serving server).after {} evs).streams[i]? = none) : ownEvents i evs = [] := by
  obtain ⟨hpool, hstreams⟩ := streams_pool hrun
  exact (pool_component hpool).absent i (hstreams ▸ hst)

end pool

end Http2Comm.Server
