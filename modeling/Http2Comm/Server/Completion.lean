import Http2Comm.Server.Assembly
import Http2Comm.Server.Outcome

/-!
# Every stream is answered, or closed

What a server does by itself ends. Each end of a request, each `on_close` and each further delay
that `responseDelayMs` asks for has at most eight statements of the workers, the timers, the posted
handlers and `on_close` as its consequences, whatever the other streams do and in whatever order
they all run. Where none is left, a stream still receives its request or is finished; one whose
request has ended and whose `on_close` has not come has been **answered with the response of its
reception**, and one whose `on_close` has come has been reported to the server once
(`every_stream_answered`).

So what can keep a request from its answer is its own `on_close`, and a `responseDelayMs` that never
stops asking for more.
-/

set_option autoImplicit false

namespace Http2Comm.Server

open Lib Lib.Machine

/-! ## What is left to do -/

/-- The statements that the answering party has left at most, when no further delay is asked
for. -/
def Work.rank (needTimer : Bool) : Work → Nat
  | .receiving | .finished => 0
  | .posted | .aborted => 1
  | .posting => 2
  | .committing => if needTimer then 6 else 3
  | .expired => 4
  | .armed => 5
  | .provisioning => 7
  | .queued => 8

/-- Those that `on_close` has left. -/
def Closing.rank : Closing → Nat
  | .pending | .finished => 0
  | .marked => 1
  | .timerCancelled => 2

def Stream.rank (st : Stream) : Nat := st.work.rank st.needTimer + st.closing.rank

/-- The events that finish what has begun. What comes from outside is chunks, ends of requests,
`on_close` and further delays. -/
def Event.finishes : Event → Bool
  | .data .. | .endOfRequest _ | .cancelTimer _ => false
  | .timerHandler answer => decide (answer ≤ 0)
  | _ => true

def ServerEvent.finishes : ServerEvent → Bool
  | .request _ => false
  | .on _ e => e.finishes

/-- Nothing is left to do: every stream receives its request or is finished, and no `on_close` is
on its way. -/
def Serving.AtRest (sv : Serving) : Prop :=
  ∀ st ∈ sv.streams, (st.work = .receiving ∨ st.work = .finished) ∧
    (st.closing = .pending ∨ st.closing = .finished)

section step

variable {st : Stream} {e : Event} {sv : Serving}

/-- **An event that finishes lowers the rank, and one from outside raises it by 8 at most.** -/
theorem rank_next (server : Http2Server) (hen : st.Enabled e) :
    (st.next server e).rank + (if e.finishes then 1 else 0) ≤
      st.rank + if e.finishes then 0 else 8 := by
  unfold Stream.rank
  rw [work_next, closing_next, needTimer_next]
  cases e with
  | data chunk receiveDataLen preReserve => simp [Event.finishes]
  | endOfRequest receptionId =>
    have hw : st.work = .receiving := hen.1
    simp only [hw, Event.finishes, Work.rank, Bool.false_eq_true, if_false]
    omega
  | process now busyConsumers queueSize a =>
    have hw : st.work = .queued := hen
    simp only [hw, Event.finishes, Work.rank, if_true]
    omega
  | provision answer =>
    have hw : st.work = .provisioning := hen
    simp only [hw, Event.finishes, Work.rank]
    split_ifs <;> omega
  | commit =>
    have hw : st.work = .committing := hen
    simp only [hw, Event.finishes, if_true]
    cases st.needTimer with
    | true =>
      simp only [Work.rank, if_true]
      omega
    | false =>
      simp only [Bool.false_eq_true, if_false]
      cases st.error with
      | true =>
        simp only [Work.rank, if_true, Bool.false_eq_true, if_false]
        omega
      | false =>
        simp only [Work.rank, Bool.false_eq_true, if_false]
        omega
  | timerExpires =>
    have hw : st.work = .armed := hen
    simp only [hw, Event.finishes, Work.rank, if_true]
    omega
  | timerHandler answer =>
    have hw : st.work = .expired := hen
    by_cases hanswer : 0 < answer
    · have hmore : ¬answer ≤ 0 := by omega
      simp only [hw, Event.finishes, Work.rank, hanswer, hmore, decide_true, decide_false, if_true,
        Bool.false_eq_true, if_false]
      omega
    · have hless : answer ≤ 0 := by omega
      simp only [hw, Event.finishes, Work.rank, hanswer, hless, decide_true, decide_false, if_true,
        Bool.false_eq_true, if_false]
      omega
  | timerAborted =>
    have hw : st.work = .aborted := hen
    simp only [hw, Event.finishes, Work.rank, if_true]
    omega
  | post =>
    have hw : st.work = .posting := hen
    simp only [hw, Event.finishes, Work.rank, if_true]
    omega
  | respond =>
    have hw : st.work = .posted := hen
    simp only [hw, Event.finishes, Work.rank, if_true]
    omega
  | cancelTimer errorCode =>
    have hc : st.closing = .pending := hen
    by_cases harmed : st.timer.isSome ∧ st.work = .armed
    · simp [hc, harmed, Event.finishes, Work.rank, Closing.rank]
    · simp only [hc, if_neg harmed, Event.finishes, Closing.rank]
      simp
  | mark now =>
    have hc : st.closing = .timerCancelled := hen
    simp [hc, Event.finishes, Closing.rank]
  | notify counter =>
    have hc : st.closing = .marked := hen
    simp [hc, Event.finishes, Closing.rank]

/-- Something finishes as long as somebody is on the way. -/
theorem exists_finishes (hrank : st.rank ≠ 0) (n : Nat) :
    ∃ e, e.finishes = true ∧ st.Enabled e ∧ ∀ counter, e = .notify counter → counter = n := by
  cases hc : st.closing with
  | timerCancelled => exact ⟨.mark 0, rfl, hc, by simp⟩
  | marked => exact ⟨.notify n, rfl, hc, by simp⟩
  | _ =>
    cases hw : st.work with
    | queued => exact ⟨.process 0 false 0 acceptAll, rfl, hw, by simp⟩
    | provisioning => exact ⟨.provision 0, rfl, hw, by simp⟩
    | committing => exact ⟨.commit, rfl, hw, by simp⟩
    | armed => exact ⟨.timerExpires, rfl, hw, by simp⟩
    | expired => exact ⟨.timerHandler 0, rfl, hw, by simp⟩
    | aborted => exact ⟨.timerAborted, rfl, hw, by simp⟩
    | posting => exact ⟨.post, rfl, hw, by simp⟩
    | posted => exact ⟨.respond, rfl, hw, by simp⟩
    | _ => simp [Stream.rank, hw, hc, Work.rank, Closing.rank] at hrank

theorem rank_eq_zero : st.rank = 0 ↔ (st.work = .receiving ∨ st.work = .finished) ∧
    (st.closing = .pending ∨ st.closing = .finished) := by
  unfold Stream.rank
  cases st.work <;> cases st.closing <;> cases st.needTimer <;>
    simp [Work.rank, Closing.rank]

/-- **A server does nothing by itself exactly where nothing is left to do.** -/
theorem stuck_iff_atRest :
    (∀ a, ServerEvent.finishes a = true → ¬sv.Enabled a) ↔ sv.AtRest := by
  constructor
  · intro hstuck st hst
    refine rank_eq_zero.mp ?_
    by_contra hrank
    obtain ⟨i, hi⟩ := List.mem_iff_getElem?.mp hst
    obtain ⟨e, he, hen, hreads⟩ := exists_finishes hrank sv.receptionId
    refine hstuck (.on i e) he (enabled_on.mpr ⟨st, hi, hen, ?_⟩)
    cases e with
    | endOfRequest id => simp [Event.finishes] at he
    | notify counter => exact hreads counter rfl
    | _ => trivial
  · rintro hrest (req | ⟨i, e⟩) he hen
    · simp [ServerEvent.finishes] at he
    · obtain ⟨st, hst, hen, -⟩ := enabled_on.mp hen
      have hzero := rank_eq_zero.mpr (hrest st (List.mem_of_getElem? hst))
      have hlower := rank_next {} hen
      have he' : e.finishes = true := he
      simp only [he', if_true] at hlower
      omega

end step

/-! ## What a finished stream has done -/

section step

variable {server : Http2Server} {req : Request} {st : Stream} {e : Event} {es : List Event}

/-- What a stream has done once it is finished, and while nobody has closed it. -/
structure Replied (st : Stream) : Prop where
  /-- Before the posted handler has run nothing is written. -/
  unwritten : st.work ≠ .finished → st.responseCalls = []
  written : st.work = .finished → st.closing = .pending →
    st.responseCalls = st.response.written
  aborted : st.work = .aborted → st.closing ≠ .pending
  closed : st.closing = .finished → (closeIds st.effects).length = 1

theorem replied_start (req : Request) : Replied (.start req) where
  unwritten _ := rfl
  written h := by simp [Stream.start] at h
  aborted h := by simp [Stream.start] at h
  closed h := by simp [Stream.start] at h

/-- As long as `on_close` has not come, the stream is neither closed nor in error. -/
theorem Tracks.unflagged (h : Tracks server req es st) (hclosing : st.closing = .pending) :
    st.closed = false ∧ st.error = false := by
  have hnone := h.unmarked (Or.inl hclosing)
  have hclosed := h.closed
  have herror := h.error
  simp_all

theorem pending_next (h : (st.next server e).closing = .pending) :
    st.closing = .pending ∧ ∀ now, e ≠ .mark now := by
  rw [closing_next] at h
  cases e <;> simp_all

theorem finished_next (hen : st.Enabled e) (h : st.work = .finished) :
    (st.next server e).work = .finished := by
  rw [work_next]
  cases e <;> simp_all [Stream.Enabled]

/-- The last statement of the answering party: the posted handler, a `commit` that finds the stream
in error, or the handler of an aborted timer. -/
theorem finishing (hw : (st.next server e).work = .finished) (hbefore : st.work ≠ .finished) :
    e = .respond ∨ e = .timerAborted ∨ (e = .commit ∧ st.error = true) := by
  rw [work_next] at hw
  cases e with
  | commit =>
    simp only at hw
    split_ifs at hw with _ herror
    exact Or.inr (Or.inr ⟨rfl, herror⟩)
  | cancelTimer errorCode =>
    simp only at hw
    split_ifs at hw
    exact absurd hw hbefore
  | _ => simp_all

theorem replied_step (h : Replied st) (htracks : Tracks server req es st)
    (hid : Identified st) (hen : st.Enabled e) : Replied (st.next server e) where
  unwritten hw := by
    rw [responseCalls_next, h.unwritten (mt (finished_next hen) hw)]
    cases e with
    | respond => simp [work_next] at hw
    | _ => rfl
  written hw hc := by
    obtain ⟨hpending, hmark⟩ := pending_next hc
    obtain ⟨hclosed, herror⟩ := htracks.unflagged hpending
    rw [responseCalls_next, response_next]
    by_cases hfinished : st.work = .finished
    · have hwritten := h.written hfinished hpending
      cases e <;> simp_all [Stream.Enabled]
    · rcases finishing hw hfinished with rfl | rfl | ⟨rfl, hfailed⟩
      · simp [hclosed, h.unwritten hfinished]
      · exact absurd hpending (h.aborted hen)
      · simp [herror] at hfailed
  aborted hw := by
    rw [work_next] at hw
    rw [closing_next]
    have haborted := h.aborted
    cases e with
    | commit => split_ifs at hw
    | _ => simp_all
  closed hc := by
    rw [closing_next] at hc
    rw [effects_next, closeIds_append, closeIds_emits]
    have hclosed := h.closed
    cases e with
    | notify counter =>
      have hmarked : st.closing = .marked := hen
      simp [hid.unclosed (by simp [hmarked])]
    | _ => simp_all

end step

/-! ## Whole runs -/

section runs

variable {server : Http2Server} {evs : List ServerEvent}

theorem replied_run {req : Request} {es : List Event}
    (hrun : (stream server).Run (.start req) es) :
    Replied ((stream server).after (.start req) es) := by
  refine history (H := fun _ st => Replied st) (replied_start req) ?_ hrun
  intro es e hprefix h hen
  exact replied_step h (tracks_run hprefix)
    (invariant (fun st e h hen => identified_step server st e h hen) (identified_start req) hprefix)
    hen

/-- What an event of the pool of streams costs: one statement. -/
def cost : PoolEvent Stream Event → Nat
  | .start _ => 0
  | .on _ e => if e.finishes then 1 else 0

/-- What it brings from outside. -/
def pay : PoolEvent Stream Event → Nat
  | .start _ => 0
  | .on _ e => if e.finishes then 0 else 8

theorem cost_pay (evs : List ServerEvent) :
    ((evs.map ServerEvent.toPool).map cost).sum = evs.countP ServerEvent.finishes ∧
      ((evs.map ServerEvent.toPool).map pay).sum ≤ 8 * evs.countP (fun a => !a.finishes) := by
  induction evs with
  | nil => exact ⟨rfl, Nat.le_refl _⟩
  | cons a evs ih =>
    obtain ⟨hcost, hpay⟩ := ih
    simp only [List.map_cons, List.sum_cons, List.countP_cons, hcost]
    cases a with
    | request req =>
      have he : (ServerEvent.request req).finishes = false := rfl
      simp only [he, ServerEvent.toPool, cost, pay, Bool.not_false, if_true, Bool.false_eq_true,
        if_false]
      omega
    | on i e =>
      have he : (ServerEvent.on i e).finishes = e.finishes := rfl
      simp only [he, ServerEvent.toPool, cost, pay]
      by_cases hfinishes : e.finishes = true
      · simp only [hfinishes, if_true, Bool.not_true, Bool.false_eq_true, if_false]
        omega
      · simp only [hfinishes, Bool.not_false, if_true, Bool.false_eq_true, if_false]
        omega

/-- What has finished has come from outside. -/
theorem finished_le (hrun : (serving server).Run {} evs) :
    evs.countP ServerEvent.finishes ≤ 8 * evs.countP (fun a => !a.finishes) := by
  obtain ⟨hpool, -⟩ := streams_pool hrun
  obtain ⟨hcost, hpay⟩ := cost_pay evs
  have hstart : ∀ st, (∃ req, st = Stream.start req) →
      st.rank + cost (.start st) ≤ pay (.start st) := by
    rintro _ ⟨req, rfl⟩
    exact Nat.le_refl _
  have hpaid := pool_paid hstart (fun i st e hen => rank_next server hen) hpool
  omega

/-- **Every stream is answered, or closed.** In every run of a server, at most 8 events finish what
has begun for each that has come from outside, and none can come any more exactly where the server
is at rest. There, a stream whose request has ended and whose `on_close` has not come has had the
response of its reception written, and one whose `on_close` has come has been reported once. -/
theorem every_stream_answered (server : Http2Server) (evs : List ServerEvent)
    (hrun : (serving server).Run {} evs) :
    let sv := (serving server).after {} evs
    evs.countP ServerEvent.finishes ≤ 8 * evs.countP (fun a => !a.finishes) ∧
      ((∀ a, ServerEvent.finishes a = true → ¬sv.Enabled a) ↔ sv.AtRest) ∧
      (sv.AtRest → ∀ i st, sv.streams[i]? = some st →
        (st.closing = .pending → (ownEvents i evs).any Event.isEnd = true →
          st.responseCalls = (receptionOf server st.req (ownEvents i evs)).written) ∧
        (st.closing ≠ .pending → (closeIds st.effects).length = 1)) := by
  intro sv
  refine ⟨finished_le hrun, stuck_iff_atRest, fun hrest i st hst => ?_⟩
  obtain ⟨hwork, hclosing⟩ := hrest st (List.mem_of_getElem? hst)
  obtain ⟨req, halone, rfl⟩ := stream_alone hrun hst
  have hreplied := replied_run halone
  have htracks := tracks_run halone
  refine ⟨fun hpending hended => ?_, fun hclosed => hreplied.closed (hclosing.resolve_left hclosed)⟩
  have hended' := (assembled_run halone).ends
  have hfinished := hwork.resolve_left fun hreceiving => by
    rw [if_pos hreceiving, List.countP_eq_zero] at hended'
    obtain ⟨e, he, hend⟩ := List.any_eq_true.mp hended
    exact hended' e he hend
  rw [hreplied.written hfinished hpending, htracks.response (htracks.unflagged hpending).2,
    htracks.request]

end runs

/-- Two requests: one is answered after a delay, the other is reset while it is queued. -/
def answeredAndReset : List ServerEvent :=
  [.request {}, .request {}, .on 0 (.endOfRequest 1), .on 1 (.endOfRequest 2),
    .on 0 (.process 7 false 0 acceptAll), .on 1 (.cancelTimer 8), .on 0 (.provision 5),
    .on 1 (.mark 9), .on 0 .commit, .on 1 (.notify 2), .on 0 .timerExpires,
    .on 1 (.process 8 false 0 acceptAll), .on 0 (.timerHandler 0), .on 1 (.provision 0),
    .on 0 .commit, .on 1 .commit, .on 0 .post, .on 0 .respond]

theorem every_stream_answered_two :
    let server : Http2Server := { timersIoContext := true }
    let sv := (serving server).after {} answeredAndReset
    (∀ a, ServerEvent.finishes a = true → ¬sv.Enabled a) ∧
      ∀ st, sv.streams[0]? = some st → st.responseCalls = [.writeHead 200 [], .endResponse []] := by
  intro server sv
  obtain ⟨-, hstuck, hanswered⟩ := every_stream_answered server answeredAndReset (by decide)
  have hrest : sv.AtRest := List.forall_iff_forall_mem.mp (by decide)
  refine ⟨hstuck.mpr hrest, fun st hst => ?_⟩
  have hclosing : sv.streams[0]?.map (·.closing) = some .pending := by decide
  have hreq : sv.streams[0]?.map (·.req) = some ({} : Request) := by decide
  rw [hst] at hclosing hreq
  rw [(hanswered hrest 0 st hst).1 (Option.some.inj hclosing) (by decide),
    show st.req = {} from Option.some.inj hreq]
  decide

end Http2Comm.Server
