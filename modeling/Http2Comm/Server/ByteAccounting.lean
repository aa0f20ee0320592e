import Http2Comm.Server.Admission
import Http2Comm.Server.Outcome
import Mathlib.Algebra.BigOperators.Fin
import Mathlib.Algebra.Order.BigOperators.Group.Finset

/-!
# What the closed streams account for

A stream is accounted for when `on_close` marks it, once and whatever it has done by then:
`updateMetrics` counts a response and observes the sizes of the request body and of the response
body. The received sizes are what arrived (`closes_accounted`). The sent sizes are not what was
sent: they are the body that the reception left, which nobody sends if the stream is marked
before its posted handler runs, or if the status code makes the handler cancel. So the sizes
observed are never less than the bytes handed to nghttp2, and equal exactly if every stream with a
response body has handed it over (`sent_bytes_accounted_iff`).

The families are private members of `Http2Server`: an overridden `receiveError` reaches one of them
at most, through the default it may call. `Discreet` says so of the answers.
-/

set_option autoImplicit false

namespace Http2Comm.Server

open Lib Lib.Machine

/-! ## What is observed and what is handed over -/

/-- The observation in a histogram of sizes. -/
def Effect.observedSize (family : Family) : Effect → Nat
  | .metric ⟨family', _, .observe size⟩ => if family' = family then size.toNat else 0
  | _ => 0

/-- The sizes observed in the histogram, over all labels. -/
def observedSizes (family : Family) (es : List Effect) : Nat :=
  (es.map (Effect.observedSize family)).sum

/-- The response bodies handed to nghttp2. -/
def sentBodies (es : List Effect) : List Bytes :=
  es.filterMap fun | .endResponse body => some body | _ => none

/-- The bytes handed to nghttp2. -/
def sentBytes (es : List Effect) : Nat := ((sentBodies es).map List.length).sum

/-- The response body when the stream is marked. -/
def bodyAtMark (server : Http2Server) (req : Request) (es : List Event) : Bytes :=
  (receptionOf server req (es.takeWhile (!·.isMark))).body

/-- A response body is handed over if there is any. -/
def SentInFull (server : Http2Server) (req : Request) (es : List Event) : Prop :=
  bodyAtMark server req es = [] ∨ sentBodies (outcome server req es) ≠ []

instance (server : Http2Server) (req : Request) (es : List Event) :
    Decidable (SentInFull server req es) := inferInstanceAs (Decidable (_ ∨ _))

/-- `receiveError` updates no family but its own. -/
def Answers.Discreet (a : Answers) : Prop :=
  ∀ error methods response, ∀ u ∈ (a.receiveError error methods response).metrics,
    u.family = .observedRequestsErroredCounter

/-- The answers of every reception are. -/
def Discreet (es : List Event) : Prop :=
  ∀ now busyConsumers queueSize a, .process now busyConsumers queueSize a ∈ es → a.Discreet

@[simp] theorem observedSizes_append (family : Family) (es fs : List Effect) :
    observedSizes family (es ++ fs) = observedSizes family es + observedSizes family fs := by
  simp [observedSizes]

@[simp] theorem sentBodies_append (es fs : List Effect) :
    sentBodies (es ++ fs) = sentBodies es ++ sentBodies fs := List.filterMap_append

theorem observedSizes_eq_zero {family : Family} {es : List Effect}
    (h : ∀ e ∈ es, e.observedSize family = 0) : observedSizes family es = 0 := by
  rw [observedSizes, List.sum_eq_zero]
  intro n hn
  obtain ⟨e, he, rfl⟩ := List.mem_map.mp hn
  exact h e he

/-- Bodies are handed over by calls on the response. -/
theorem sentBodies_responseCalls (st : Stream) :
    sentBodies st.responseCalls = sentBodies st.effects := by
  unfold Stream.responseCalls sentBodies
  rw [List.filterMap_filter]
  congr 1
  funext e
  cases e <;> rfl

/-! ## What an event adds -/

section step

variable {server : Http2Server} {st : Stream} {e : Event} {es : List Event} {req : Request}

/-- The default `receiveError` is discreet. -/
theorem discreet_default {a : Answers}
    (h : a.receiveError = server.defaultReceiveError req []) : a.Discreet := by
  intro error methods response u hu
  simp only [h, Http2Server.defaultReceiveError, Http2Server.receiveError] at hu
  split at hu
  · simp_all
  · simp at hu

/-- What an event that is not the mark adds. -/
theorem emits_of_not_mark (hdiscreet : Discreet [e]) (he : e.isMark = false) :
    ∀ x ∈ st.emits server e, x.increments .observedResponsesCounter = false ∧
      x.observedSize .receivedMessagesSizeBytesHistogram = 0 ∧
      x.observedSize .sentMessagesSizeBytesHistogram = 0 := by
  cases e with
  | mark now => simp [Event.isMark] at he
  | process now busyConsumers queueSize a =>
    simp only [Stream.emits, Stream.reception]
    split
    · next error allowedMethods hrejected =>
      rintro x (_ | ⟨_, hx⟩)
      · simp [Effect.increments, Effect.observedSize]
      · obtain ⟨u, hu, rfl⟩ := List.mem_map.mp hx
        have hfamily := hdiscreet now busyConsumers queueSize a (by simp) _ _ _ u hu
        obtain ⟨family, labels, operation⟩ := u
        obtain rfl : family = .observedRequestsErroredCounter := hfamily
        cases operation <;> simp [Effect.increments, Effect.observedSize]
    · simp only
      split <;> simp [Effect.increments, Effect.observedSize]
  | provision answer =>
    simp only [Stream.emits]
    split <;> simp [Effect.increments, Effect.observedSize]
  | commit =>
    simp only [Stream.emits]
    split <;> simp [Effect.increments, Effect.observedSize]
  | respond =>
    simp only [Stream.emits, Response.written]
    split_ifs <;> simp [Effect.increments, Effect.observedSize]
  | notify counter =>
    simp only [Stream.emits]
    split <;> simp [Effect.increments, Effect.observedSize]
  | _ => simp [Stream.emits, Effect.increments, Effect.observedSize]

/-- What the mark adds: one response, and the sizes of the two bodies. -/
theorem emits_mark (hmetrics : server.metrics = true) (now : Int) :
    (st.emits server (.mark now)).countP (·.increments .observedResponsesCounter) = 1 ∧
      observedSizes .receivedMessagesSizeBytesHistogram (st.emits server (.mark now)) =
        st.requestBody.length ∧
      observedSizes .sentMessagesSizeBytesHistogram (st.emits server (.mark now)) =
        st.response.body.length := by
  simp only [Stream.emits, Stream.updateMetrics, hmetrics, if_true]
  split <;> simp [Effect.increments, observedSizes, Effect.observedSize]

/-- The body at the mark is the one that the response has then. -/
theorem bodyAtMark_mark (h : Tracks server req es st) {now : Int} (hen : st.Enabled (.mark now)) :
    bodyAtMark server req (es ++ [.mark now]) = st.response.body := by
  have hnone := h.unmarked (Or.inr hen)
  have hresponse : st.response = receptionOf server req es :=
    h.response (by simpa [hnone] using h.error)
  rw [bodyAtMark, takeWhile_snoc_of_not_any (closeCode_eq_none.mp hnone) rfl, hresponse]

theorem bodyAtMark_of_marked (hmarked : es.any Event.isMark = true) (e : Event) :
    bodyAtMark server req (es ++ [e]) = bodyAtMark server req es := by
  rw [bodyAtMark, takeWhile_snoc_of_any hmarked, bodyAtMark]

/-- What is counted and observed of a stream, from its events. -/
structure Observed (server : Http2Server) (req : Request) (es : List Event) (st : Stream) :
    Prop where
  responses : st.effects.countP (·.increments .observedResponsesCounter) =
    if es.any Event.isMark then 1 else 0
  received : observedSizes .receivedMessagesSizeBytesHistogram st.effects =
    if es.any Event.isMark then (acceptedChunks es).length else 0
  sent : observedSizes .sentMessagesSizeBytesHistogram st.effects =
    if es.any Event.isMark then (bodyAtMark server req es).length else 0

/-- No chunk comes after the mark. -/
theorem acceptedChunks_of_marked (h : Tracks server req es st) (hen : st.Enabled e)
    (hmarked : es.any Event.isMark = true) : acceptedChunks (es ++ [e]) = acceptedChunks es := by
  rw [acceptedChunks_snoc]
  cases e with
  | data chunk receiveDataLen preReserve =>
    have hany := closeCode_eq_none.mp (h.unmarked (Or.inl hen.2.2))
    simp [hmarked] at hany
  | _ => simp

/-- An event that is not the mark changes nothing of it. -/
theorem Observed.quiet (h : Observed server req es st) (htracks : Tracks server req es st)
    (hen : st.Enabled e) (hdiscreet : Discreet [e]) (he : e.isMark = false) :
    Observed server req (es ++ [e]) (st.next server e) := by
  have hadds : ∀ x ∈ st.emits server e, x.increments .observedResponsesCounter = false ∧
      x.observedSize .receivedMessagesSizeBytesHistogram = 0 ∧
      x.observedSize .sentMessagesSizeBytesHistogram = 0 := emits_of_not_mark hdiscreet he
  constructor
  all_goals rw [effects_next]
  · have hnone : (st.emits server e).countP (·.increments .observedResponsesCounter) = 0 :=
      List.countP_eq_zero.mpr fun x hx => by simp [(hadds x hx).1]
    rw [List.countP_append, h.responses, hnone]
    simp [he]
  · rw [observedSizes_append, h.received, observedSizes_eq_zero fun x hx => (hadds x hx).2.1]
    cases hmarked : es.any Event.isMark with
    | true => simp [hmarked, acceptedChunks_of_marked htracks hen hmarked]
    | false => simp [hmarked, he]
  · rw [observedSizes_append, h.sent, observedSizes_eq_zero fun x hx => (hadds x hx).2.2]
    cases hmarked : es.any Event.isMark with
    | true => simp [hmarked, bodyAtMark_of_marked hmarked]
    | false => simp [hmarked, he]

/-- The mark accounts for the bodies as they are. -/
theorem Observed.mark (h : Observed server req es st) (htracks : Tracks server req es st)
    (hmetrics : server.metrics = true) (hbody : st.requestBody = acceptedChunks es) {now : Int}
    (hen : st.Enabled (.mark now)) :
    Observed server req (es ++ [.mark now]) (st.next server (.mark now)) := by
  have hunmarked := closeCode_eq_none.mp (htracks.unmarked (Or.inr hen))
  obtain ⟨hresponses, hreceived, hsent⟩ : _ ∧ _ ∧
      observedSizes .sentMessagesSizeBytesHistogram (st.emits server (.mark now)) =
        st.response.body.length := emits_mark hmetrics now
  constructor
  all_goals rw [effects_next]
  · rw [List.countP_append, h.responses, hresponses]
    simp [hunmarked, Event.isMark]
  · rw [observedSizes_append, h.received, hreceived, hbody]
    simp [hunmarked, Event.isMark, acceptedChunks_snoc]
  · rw [observedSizes_append, h.sent, hsent, bodyAtMark_mark htracks hen]
    simp [hunmarked, Event.isMark]

theorem observed_run (hmetrics : server.metrics = true)
    (hrun : (stream server).Run (.start req) es) (hdiscreet : Discreet es) :
    Observed server req es ((stream server).after (.start req) es) := by
  refine history (H := fun es st => Discreet es → Observed server req es st)
    (fun _ => ⟨rfl, rfl, rfl⟩) ?_ hrun hdiscreet
  intro es e hprefix ih hen hdiscreet
  have hobserved := ih fun now busyConsumers queueSize a ha =>
    hdiscreet now busyConsumers queueSize a (List.mem_append_left _ ha)
  have htracks := tracks_run hprefix
  cases he : e.isMark with
  | false =>
    exact hobserved.quiet htracks hen (fun now busyConsumers queueSize a ha =>
      hdiscreet now busyConsumers queueSize a (List.mem_append_right _ ha)) he
  | true =>
    cases e with
    | mark now => exact hobserved.mark htracks hmetrics (assembled_run hprefix).body hen
    | _ => simp [Event.isMark] at he

/-! ## What is handed over -/

/-- At most one body is handed over, and it is the one observed. -/
structure HandedOver (server : Http2Server) (req : Request) (es : List Event) (st : Stream) :
    Prop where
  unmarked : es.any Event.isMark = false →
    sentBodies st.effects = [] ∨ sentBodies st.effects = [st.response.body]
  marked : es.any Event.isMark = true →
    sentBodies st.effects = [] ∨ sentBodies st.effects = [bodyAtMark server req es]
  posted : es.any Event.isMark = true → st.error = true →
    st.work = .posting ∨ st.work = .posted → st.response.body = bodyAtMark server req es

theorem sentBodies_of_unfinished (h : Tracks server req es st) (hw : st.work ≠ .finished) :
    sentBodies st.effects = [] := by
  have hno : es.any Event.isRespond = false := by
    simpa using mt h.responded hw
  rw [← sentBodies_responseCalls, h.calls]
  simp [outcome, hno, sentBodies]

theorem sentBodies_written (response : Response) :
    sentBodies response.written = [] ∨ sentBodies response.written = [response.body] := by
  unfold Response.written
  split
  · exact Or.inl rfl
  · exact Or.inr rfl

/-- Only the posted handler hands over. -/
theorem sentBodies_next (server : Http2Server) (st : Stream) (e : Event) :
    sentBodies (st.next server e).effects = sentBodies st.effects ++
      match e with
      | .respond => if st.closed then [] else sentBodies st.response.written
      | _ => [] := by
  rw [← sentBodies_responseCalls, responseCalls_next, sentBodies_append,
    sentBodies_responseCalls]
  cases e with
  | respond =>
    simp only
    split <;> rfl
  | _ => rfl

/-- A marked stream is closed or in error. -/
theorem Tracks.error_of_open (h : Tracks server req es st) (hmarked : es.any Event.isMark = true)
    (hopen : st.closed = false) : st.error = true := by
  have hcode : closeCode es = some (closeArgument es) := if_pos hmarked
  cases hargument : closeArgument es with
  | zero =>
    have hclosed := h.closed.mpr (by rw [hcode, hargument])
    simp [hopen] at hclosed
  | succ code => exact h.error.mpr ⟨code, by rw [hcode, hargument]⟩

theorem handedOver_step (h : HandedOver server req es st) (htracks : Tracks server req es st)
    (hen : st.Enabled e) : HandedOver server req (es ++ [e]) (st.next server e) where
  unmarked hany := by
    rw [List.any_append, Bool.or_eq_false_iff] at hany
    have hunmarked := h.unmarked hany.1
    rw [sentBodies_next, response_next]
    cases e with
    | respond =>
      have hw : st.work = .posted := hen
      rw [sentBodies_of_unfinished htracks (by simp [hw])]
      simp only [List.nil_append]
      split
      · exact Or.inl rfl
      · exact sentBodies_written st.response
    | process now busyConsumers queueSize a =>
      have hw : st.work = .queued := hen
      have hnone : sentBodies st.effects = [] := sentBodies_of_unfinished htracks (by simp [hw])
      exact Or.inl (by simp [hnone])
    | mark now => simp [Event.isMark] at hany
    | _ => simpa using hunmarked
  marked hany := by
    rw [sentBodies_next]
    cases hmarked : es.any Event.isMark with
    | false =>
      cases e with
      | mark now =>
        rw [bodyAtMark_mark htracks hen]
        simpa using h.unmarked hmarked
      | _ => simp [hmarked, Event.isMark] at hany
    | true =>
      rw [bodyAtMark_of_marked hmarked]
      have hsent := h.marked hmarked
      cases e with
      | respond =>
        have hw : st.work = .posted := hen
        rw [sentBodies_of_unfinished htracks (by simp [hw])]
        simp only [List.nil_append]
        cases hopen : st.closed with
        | true => exact Or.inl rfl
        | false =>
          rw [← h.posted hmarked (htracks.error_of_open hmarked hopen) (Or.inr hw)]
          simpa using sentBodies_written st.response
      | _ => simpa using hsent
  posted hany herror hw := by
    rw [error_next] at herror
    rw [work_next] at hw
    rw [response_next]
    cases hmarked : es.any Event.isMark with
    | false =>
      cases e with
      | mark now =>
        rw [bodyAtMark_mark htracks hen]
        by_cases hcode : st.errorCode = 0 <;> simp [hcode]
      | _ => simp [hmarked, Event.isMark] at hany
    | true =>
      rw [bodyAtMark_of_marked hmarked]
      have hposted := h.posted hmarked
      cases e with
      | commit =>
        simp only [herror] at hw
        split_ifs at hw <;> simp at hw
      | post => exact hposted herror (Or.inl hen)
      | mark now =>
        have hany := closeCode_eq_none.mp (htracks.unmarked (Or.inr hen))
        simp [hmarked] at hany
      | cancelTimer errorCode =>
        simp only at hw
        split_ifs at hw
        · simp at hw
        · exact hposted herror hw
      | data chunk receiveDataLen preReserve => exact hposted herror hw
      | notify counter => exact hposted herror hw
      | _ => simp at hw

theorem handedOver_run (hrun : (stream server).Run (.start req) es) :
    HandedOver server req es ((stream server).after (.start req) es) :=
  history (H := HandedOver server req)
    ⟨fun _ => Or.inl rfl, fun h => by simp at h, fun h => by simp at h⟩
    (fun _ _ hprefix h hen => handedOver_step h (tracks_run hprefix) hen) hrun

/-- **A marked stream hands over no more than it accounts for**, and as much exactly if it hands
over its body. -/
theorem sentBytes_run (hmetrics : server.metrics = true)
    (hrun : (stream server).Run (.start req) es) (hdiscreet : Discreet es)
    (hmarked : es.any Event.isMark = true) :
    let st := (stream server).after (.start req) es
    sentBytes st.effects ≤ observedSizes .sentMessagesSizeBytesHistogram st.effects ∧
      (sentBytes st.effects = observedSizes .sentMessagesSizeBytesHistogram st.effects ↔
        SentInFull server req es) := by
  intro st
  have hcalls : sentBodies st.effects = sentBodies (outcome server req es) := by
    rw [← sentBodies_responseCalls, (tracks_run hrun).calls]
  have hobserved : observedSizes .sentMessagesSizeBytesHistogram st.effects = _ :=
    (observed_run hmetrics hrun hdiscreet).sent
  rw [hobserved, if_pos hmarked, SentInFull, ← hcalls, sentBytes]
  rcases (handedOver_run hrun).marked hmarked with hnone | hbody
  · have hnone : sentBodies st.effects = [] := hnone
    refine ⟨by simp [hnone], ?_⟩
    rw [hnone, eq_comm]
    simp
  · have hbody : sentBodies st.effects = [bodyAtMark server req es] := hbody
    simp [hbody]

end step

/-! ## All streams -/

/-- The sum over the streams. -/
def Serving.sum (sv : Serving) (g : Stream → Nat) : Nat :=
  ∑ i : Fin sv.streams.length, g sv.streams[i]

section serving

variable {server : Http2Server} {evs : List ServerEvent}

theorem mem_ownEvents {i : Nat} {e : Event} (h : e ∈ ownEvents i evs) : .on i e ∈ evs := by
  simp only [ownEvents, PoolEvent.own, List.mem_filterMap, List.mem_map] at h
  obtain ⟨_, ⟨a, ha, rfl⟩, hown⟩ := h
  cases a with
  | request req => simp [ServerEvent.toPool] at hown
  | on j e' =>
    simp only [ServerEvent.toPool, Option.ite_none_right_eq_some, Option.some.injEq] at hown
    obtain ⟨rfl, rfl⟩ := hown
    exact ha

/-- The answers of every reception of the server are discreet. -/
def DiscreetServer (evs : List ServerEvent) : Prop := ∀ i, Discreet (ownEvents i evs)

/-- **What the closed streams account for.** In every run of a server with metrics, the responses
counted are the streams marked, and the received sizes observed are the chunks these accepted. -/
theorem closes_accounted (hmetrics : server.metrics = true) (hrun : (serving server).Run {} evs)
    (hdiscreet : DiscreetServer evs) :
    let sv := (serving server).after {} evs
    let marked (i : Nat) : Bool := (ownEvents i evs).any Event.isMark
    sv.sum (·.effects.countP (·.increments .observedResponsesCounter)) =
        ∑ i : Fin sv.streams.length, (if marked i then 1 else 0) ∧
      sv.sum (observedSizes .receivedMessagesSizeBytesHistogram ·.effects) =
        ∑ i : Fin sv.streams.length,
          if marked i then (acceptedChunks (ownEvents i evs)).length else 0 := by
  intro sv marked
  have halone (i : Fin sv.streams.length) :
      ∃ req, Observed server req (ownEvents i evs) sv.streams[i] := by
    obtain ⟨req, hown, hst⟩ := stream_alone hrun (List.getElem?_eq_getElem i.isLt)
    refine ⟨req, ?_⟩
    have hobserved := observed_run hmetrics hown (hdiscreet i)
    rw [← hst] at hobserved
    exact hobserved
  constructor
  · refine Finset.sum_congr rfl fun i _ => ?_
    obtain ⟨req, hobserved⟩ := halone i
    exact hobserved.responses
  · refine Finset.sum_congr rfl fun i _ => ?_
    obtain ⟨req, hobserved⟩ := halone i
    exact hobserved.received

/-- **The bytes sent are accounted for exactly if every response body is handed over.** Of a
server whose streams are all marked, the sizes observed are never less. -/
theorem sent_bytes_accounted_iff (hmetrics : server.metrics = true)
    (hrun : (serving server).Run {} evs) (hdiscreet : DiscreetServer evs) :
    let sv := (serving server).after {} evs
    (∀ i < sv.streams.length, (ownEvents i evs).any Event.isMark = true) →
    sv.sum (sentBytes ·.effects) ≤
        sv.sum (observedSizes .sentMessagesSizeBytesHistogram ·.effects) ∧
      (sv.sum (sentBytes ·.effects) =
          sv.sum (observedSizes .sentMessagesSizeBytesHistogram ·.effects) ↔
        ∀ (i : Nat) (st : Stream), sv.streams[i]? = some st →
          SentInFull server st.req (ownEvents i evs)) := by
  intro sv hmarked
  have halone (i : Nat) (st : Stream) (hst : sv.streams[i]? = some st) :
      sentBytes st.effects ≤ observedSizes .sentMessagesSizeBytesHistogram st.effects ∧
        (sentBytes st.effects = observedSizes .sentMessagesSizeBytesHistogram st.effects ↔
          SentInFull server st.req (ownEvents i evs)) := by
    obtain ⟨req, hown, rfl⟩ := stream_alone hrun hst
    have hi := hmarked i (List.getElem?_eq_some_iff.mp hst).1
    rw [(tracks_run hown).request]
    exact sentBytes_run hmetrics hown (hdiscreet i) hi
  have hle (i : Fin sv.streams.length) := (halone i _ (List.getElem?_eq_getElem i.isLt)).1
  refine ⟨Finset.sum_le_sum fun i _ => hle i, ?_⟩
  refine (Finset.sum_eq_sum_iff_of_le fun i _ => hle i).trans ?_
  constructor
  · intro heq i st hst
    obtain ⟨hi, rfl⟩ := List.getElem?_eq_some_iff.mp hst
    exact (halone i _ hst).2.mp (heq ⟨i, hi⟩ (Finset.mem_univ _))
  · intro h i _
    have hst := List.getElem?_eq_getElem i.isLt
    exact (halone i _ hst).2.mpr (h i _ hst)

end serving

/-- A response with a body. -/
def okAnswers : Answers :=
  { acceptAll with receive := fun _ => ({ statusCode := 200, body := ascii "ok" }, 0) }

theorem discreet_okAnswers : okAnswers.Discreet := by
  intro error methods response u hu
  simp [okAnswers, acceptAll] at hu

/-- A stream that answers before it is closed, and another that is closed while it is received. -/
def closedTwice : List ServerEvent :=
  [.request {}, .request {}, .on 0 (.data (ascii "ab") true false),
    .on 1 (.data (ascii "cde") true false), .on 0 (.endOfRequest 1), .on 1 (.cancelTimer 8),
    .on 0 (.process 7 false 0 okAnswers), .on 0 (.provision 0), .on 0 .commit, .on 1 (.mark 8),
    .on 0 .post, .on 0 .respond, .on 0 (.cancelTimer 0), .on 0 (.mark 9)]

theorem discreet_closedTwice : DiscreetServer closedTwice := by
  intro i now busyConsumers queueSize a ha
  have hprocess := mem_ownEvents ha
  simp only [closedTwice, List.mem_cons, reduceCtorEq, ServerEvent.on.injEq, Event.process.injEq,
    false_or, or_false, List.not_mem_nil, and_false] at hprocess
  obtain ⟨-, -, -, -, rfl⟩ := hprocess
  exact discreet_okAnswers

theorem closes_accounted_twice :
    let sv := (serving { metrics := true }).after {} closedTwice
    sv.sum (·.effects.countP (·.increments .observedResponsesCounter)) = 2 ∧
      sv.sum (observedSizes .receivedMessagesSizeBytesHistogram ·.effects) = 5 := by
  intro sv
  obtain ⟨hresponses, hreceived⟩ := closes_accounted rfl
    (show (serving { metrics := true }).Run {} closedTwice by decide) discreet_closedTwice
  exact ⟨hresponses.trans (by decide), hreceived.trans (by decide)⟩

theorem sent_bytes_accounted_twice :
    let sv := (serving { metrics := true }).after {} closedTwice
    sv.sum (sentBytes ·.effects) =
      sv.sum (observedSizes .sentMessagesSizeBytesHistogram ·.effects) := by
  intro sv
  refine (sent_bytes_accounted_iff rfl
    (show (serving { metrics := true }).Run {} closedTwice by decide) discreet_closedTwice
    ?_).2.mpr ?_
  · decide
  · intro i st hst
    match i with
    | 0 =>
      obtain rfl := Option.some.inj hst
      decide
    | 1 =>
      obtain rfl := Option.some.inj hst
      decide
    | i + 2 => cases hst

end Http2Comm.Server
