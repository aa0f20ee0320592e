import Http2Comm.Client.TimeoutReport
import Http2Comm.Lib.Pool
import Mathlib.Algebra.GroupWithZero.Nat
import Mathlib.Algebra.Order.BigOperators.Group.List
import Mathlib.Algebra.Order.Group.Nat

/-!
# What the metrics count as received

A response is counted three times over: the received-responses counter at its headers, the
histogram of message sizes at its end of data, and the callback with the status code of the
server. Only the third knows the outcome. A request whose headers arrive and which then times
out or is closed is in the counter and not among the answers (`headers_then_timeout`); one whose
data ends after its timeout is in the histogram, because `on_data` does not read `timed_out`.

Each request contributes at least as much to the counter and to the histogram as to the answers,
so the totals of any number of requests agree exactly if every request agrees for itself
(`responses_accounted_iff`).
-/

set_option autoImplicit false

namespace Http2Comm.Client

open Lib Lib.Machine

/-! ## The requests of a client -/

/-- A request with the arguments it was sent with. -/
def sentRequest (client : Http2Client) : Machine (Call × Request) Event where
  Enabled s e := s.2.Enabled e
  next s e := (s.1, s.2.next client s.1 e)

/-- Any number of requests of a client, each with its own events. -/
def requests (client : Http2Client) :
    Machine (List (Call × Request)) (PoolEvent (Call × Request) Event) :=
  (sentRequest client).pool (·.2 = {})

instance decidableRequests (client : Http2Client) (ss : List (Call × Request))
    (e : PoolEvent (Call × Request) Event) : Decidable ((requests client).Enabled ss e) :=
  have : ∀ s a, Decidable ((sentRequest client).Enabled s a) := fun s a =>
    inferInstanceAs (Decidable (s.2.Enabled a))
  decidablePool (sentRequest client) (·.2 = {}) ss e

/-- **A request of a client runs as it would alone.** -/
theorem request_alone {client : Http2Client} {es : List (PoolEvent (Call × Request) Event)}
    (hrun : (requests client).Run [] es) {i : Nat} {call : Call} {rq : Request}
    (hi : ((requests client).after [] es)[i]? = some (call, rq)) :
    (request client call).Run {} (PoolEvent.own i es) ∧
      rq = (request client call).after {} (PoolEvent.own i es) := by
  obtain ⟨⟨call', rq'⟩, rfl, halone, hafter⟩ := (pool_component hrun).present i _ hi
  obtain ⟨hrun', hrq⟩ := lockstep (M := sentRequest client) (N := request client call')
    (R := fun s rq => s = (call', rq))
    (fun _ rq e hs hen => by subst hs; exact ⟨hen, rfl⟩) rfl halone
  rw [hrq] at hafter
  obtain ⟨rfl, rfl⟩ := Prod.mk.inj hafter
  exact ⟨hrun', rfl⟩

/-! ## What is counted -/

/-- The increments of the received-responses counter, over all labels. -/
def receivedIncrements (es : List Effect) : Nat :=
  (recorded es).count .observedResponsesReceivedCounter

/-- The observations in the histogram of received message sizes, over all labels. -/
def sizeObservations (es : List Effect) : Nat :=
  (recorded es).count .receivedMessagesSizeBytesHistogram

/-- The callbacks with a status code of the server. -/
def serverCallbacks (es : List Effect) : Nat := (callbacks es).countP (0 ≤ ·.statusCode)

/-- The totals agree. -/
def Accounted (ss : List (Call × Request)) : Prop :=
  (ss.map (receivedIncrements ·.2.effects)).sum = (ss.map (serverCallbacks ·.2.effects)).sum ∧
    (ss.map (sizeObservations ·.2.effects)).sum = (ss.map (serverCallbacks ·.2.effects)).sum

/-! ## What the events say -/

def Event.isResponse : Event → Bool
  | .onResponse .. => true
  | _ => false

/-- The `on_response`s before the request has timed out. -/
def responsesInTime (es : List Event) : Nat :=
  (es.takeWhile (· ≠ .timerHandler)).countP Event.isResponse

/-- The ends of data. -/
def dataEnds (es : List Event) : Nat := es.count (.onData [])

/-- The request is completed by its end of data. -/
def AnsweredByData (es : List Event) : Prop :=
  ∃ before chunk, completion es = some (before, .onData chunk)

instance (es : List Event) : Decidable (AnsweredByData es) :=
  match h : completion es with
  | some (before, .onData chunk) => isTrue ⟨before, chunk, h⟩
  | none => isFalse (by simp [AnsweredByData, h])
  | some (_, .asyncSend ..) | some (_, .startTimer) | some (_, .submit ..)
  | some (_, .timerExpires) | some (_, .timerHandler) | some (_, .timerAborted)
  | some (_, .onResponse ..) | some (_, .onClose _) => isFalse (by simp [AnsweredByData, h])

/-- A request answered by its data had its headers once and the end of its data once; any other
had neither headers in time nor an end of data. -/
def OnceAnswered (es : List Event) : Prop :=
  responsesInTime es = (if AnsweredByData es then 1 else 0) ∧
    dataEnds es = if AnsweredByData es then 1 else 0

instance (es : List Event) : Decidable (OnceAnswered es) := inferInstanceAs (Decidable (_ ∧ _))

theorem responsesInTime_snoc (es : List Event) (e : Event) :
    responsesInTime (es ++ [e]) = responsesInTime es +
      if .timerHandler ∉ es ∧ e.isResponse then 1 else 0 := by
  induction es with
  | nil => cases e <;> simp [responsesInTime, Event.isResponse]
  | cons e' es ih =>
    rw [responsesInTime] at ih ⊢
    by_cases h : e' = .timerHandler
    · simp [responsesInTime, h]
    · simp only [responsesInTime, List.cons_append, List.takeWhile_cons, List.countP_cons, h, ne_eq,
        not_false_eq_true, decide_true, if_true, List.mem_cons] at ih ⊢
      simp only [ih, Ne.symm h, false_or]
      omega

/-- The completing event, and that nothing before it completes. -/
theorem completion_cut {es before : List Event} {e : Event} (h : completion es = some (before, e)) :
    e.completes = true ∧ completion before = none ∧ ∃ rest, es = before ++ e :: rest := by
  induction es generalizing before with
  | nil => simp [completion] at h
  | cons e' es ih =>
    rw [completion] at h
    split at h
    · next hc =>
      obtain ⟨rfl, rfl⟩ := Prod.mk.inj (Option.some.inj h)
      exact ⟨hc, rfl, es, rfl⟩
    · next hc =>
      obtain ⟨⟨before', e''⟩, hes, heq⟩ := Option.map_eq_some_iff.mp h
      obtain ⟨rfl, rfl⟩ := Prod.mk.inj heq
      obtain ⟨hcompletes, hnone, rest, rfl⟩ := ih hes
      exact ⟨hcompletes, by simp [completion, hc, hnone], rest, rfl⟩

/-- What completes is not among the events before the completion. -/
theorem not_completes_of_pending {es : List Event} (h : completion es = none) {e : Event}
    (he : e ∈ es) : e.completes = false := by
  induction es with
  | nil => simp at he
  | cons e' es ih =>
    rw [completion] at h
    split at h
    · simp at h
    · next hc =>
      rcases List.mem_cons.mp he with rfl | he
      · simpa using hc
      · exact ih (Option.map_eq_none_iff.mp h) he

/-! ## One request -/

section request

variable {client : Http2Client} {call : Call} {es : List Event}

/-- What is counted of a request, from its events. -/
structure Counted (es : List Event) (rq : Request) : Prop where
  timedOut : rq.task.timedOut = true ↔ .timerHandler ∈ es
  received : receivedIncrements rq.effects = responsesInTime es
  observed : sizeObservations rq.effects = dataEnds es

theorem counted_run (hmetrics : client.metrics = true)
    (hrun : (request client call).Run {} es) :
    Counted es ((request client call).after {} es) := by
  refine history (H := Counted) ⟨by simp, rfl, rfl⟩ ?_ hrun
  rintro es e - ⟨htimedOut, hreceived, hobserved⟩ hen
  generalize (request client call).after {} es = rq at *
  change Counted _ (rq.next client call e)
  constructor
  · rw [timedOut_next]
    cases e <;> simp [htimedOut]
  · rw [receivedIncrements] at hreceived ⊢
    rw [recorded_next, List.count_append, hreceived, responsesInTime_snoc]
    simp only [← htimedOut, hmetrics, if_true]
    cases e with
    | asyncSend connected reconnected =>
      cases connected <;> cases reconnected <;> simp [Event.isResponse]
    | timerHandler => cases rq.task.timedOut <;> simp [Event.isResponse]
    | onResponse now res => cases rq.task.timedOut <;> simp [Event.isResponse]
    | onData chunk => by_cases hchunk : chunk = [] <;> simp [hen.2, hchunk, Event.isResponse]
    | _ => simp [Event.isResponse]
  · rw [sizeObservations] at hobserved ⊢
    rw [recorded_next, List.count_append, hobserved, dataEnds, dataEnds, List.count_append]
    simp only [hmetrics, if_true]
    cases e with
    | asyncSend connected reconnected => cases connected <;> cases reconnected <;> simp
    | timerHandler => cases rq.task.timedOut <;> simp
    | onResponse now res => cases rq.task.timedOut <;> simp
    | onData chunk => by_cases hchunk : chunk = [] <;> simp [hen.2, hchunk]
    | _ => simp

/-- An end of data that completes the request comes after headers that came in time. -/
theorem answered_cut (hrun : (request client call).Run {} es) {before : List Event}
    {chunk : Bytes} (h : completion es = some (before, .onData chunk)) :
    chunk = [] ∧ (∃ rest, es = before ++ .onData [] :: rest) ∧ .timerHandler ∉ before ∧
      ∃ now res, lastResponse before = some (now, res) := by
  obtain ⟨hcompletes, hnone, rest, rfl⟩ := completion_cut h
  obtain rfl : chunk = [] := by simpa [Event.completes] using hcompletes
  obtain ⟨hbefore, hen, -⟩ := run_append.mp hrun
  have htracks := tracks_run hbefore
  have hregistered := htracks.response (htracks.pending hnone).2.2
  obtain ⟨res, hres⟩ := Option.isSome_iff_exists.mp hen.2
  obtain ⟨⟨now, res'⟩, hlast, -⟩ := Option.map_eq_some_iff.mp (hregistered.symm.trans hres)
  refine ⟨rfl, ⟨rest, rfl⟩, fun htimer => ?_, now, res', hlast⟩
  exact absurd (not_completes_of_pending hnone htimer) (by simp [Event.completes])

theorem serverCallbacks_run (hrun : (request client call).Run {} es) :
    serverCallbacks ((request client call).after {} es).effects =
      if AnsweredByData es then 1 else 0 := by
  rw [serverCallbacks, callbacks_eq_outcome hrun, outcome]
  cases hc : completion es with
  | none => simp [AnsweredByData, hc]
  | some c =>
    obtain ⟨before, e⟩ := c
    cases e with
    | onData chunk =>
      obtain ⟨-, -, -, now, res, hlast⟩ := answered_cut hrun hc
      have hanswered : AnsweredByData es := ⟨before, chunk, hc⟩
      simp [answer, hlast, hanswered]
    | _ => simp [answer, AnsweredByData, hc]

/-- A request is counted at least as often as it is answered by its data. -/
theorem answered_le (hrun : (request client call).Run {} es) :
    (if AnsweredByData es then 1 else 0) ≤ responsesInTime es ∧
      (if AnsweredByData es then 1 else 0) ≤ dataEnds es := by
  split_ifs with hanswered
  · obtain ⟨before, chunk, hc⟩ := hanswered
    obtain ⟨-, ⟨rest, rfl⟩, htimer, now, res, hlast⟩ := answered_cut hrun hc
    constructor
    · have hin : .onResponse now res ∈ before := by
        obtain ⟨e, he, hresponse⟩ := List.mem_filterMap.mp (List.mem_of_getLast? hlast)
        cases e <;> simp_all
      have htake : ∀ e ∈ before, decide (e ≠ .timerHandler) = true := fun e he =>
        decide_eq_true fun heq => htimer (heq ▸ he)
      rw [responsesInTime, List.takeWhile_append_of_pos htake, List.countP_append]
      have hpos : 0 < before.countP Event.isResponse := List.countP_pos_iff.mpr ⟨_, hin, rfl⟩
      omega
    · exact List.count_pos_iff.mpr (by simp)
  · exact ⟨Nat.zero_le _, Nat.zero_le _⟩

end request

/-! ## All requests -/

/-- Totals of terms that bound each other agree exactly if the terms do. -/
theorem sum_map_eq_iff {α : Type*} {f g : α → Nat} {l : List α} (h : ∀ a ∈ l, g a ≤ f a) :
    (l.map f).sum = (l.map g).sum ↔ ∀ a ∈ l, f a = g a := by
  induction l with
  | nil => simp
  | cons a l ih =>
    obtain ⟨ha, hl⟩ := List.forall_mem_cons.mp h
    have hle : (l.map g).sum ≤ (l.map f).sum := List.sum_le_sum hl
    rw [List.forall_mem_cons, ← ih hl, List.map_cons, List.map_cons, List.sum_cons, List.sum_cons]
    omega

/-- Every request has had its callback, and no handler of it is pending. -/
def Settled (ss : List (Call × Request)) : Prop :=
  ∀ s ∈ ss, (callbacks s.2.effects).length = 1 ∧
    (s.2.phase = .unsent ∨ s.2.phase = .submitted ∨ s.2.phase = .failed) ∧
    (s.2.timer = .unset ∨ s.2.timer = .done)

instance (ss : List (Call × Request)) : Decidable (Settled ss) :=
  inferInstanceAs (Decidable (∀ s ∈ ss, _))

/-- **Responses are accounted for exactly if every request is answered once or not at all.** -/
theorem responses_accounted_iff (client : Http2Client) (hmetrics : client.metrics = true)
    (es : List (PoolEvent (Call × Request) Event)) (hrun : (requests client).Run [] es) :
    Accounted ((requests client).after [] es) ↔
      ∀ i < ((requests client).after [] es).length, OnceAnswered (PoolEvent.own i es) := by
  have halone (i : Nat) (call : Call) (rq : Request)
      (hi : ((requests client).after [] es)[i]? = some (call, rq)) :
      (receivedIncrements rq.effects = responsesInTime (PoolEvent.own i es) ∧
        sizeObservations rq.effects = dataEnds (PoolEvent.own i es) ∧
        serverCallbacks rq.effects = if AnsweredByData (PoolEvent.own i es) then 1 else 0) ∧
      serverCallbacks rq.effects ≤ receivedIncrements rq.effects ∧
        serverCallbacks rq.effects ≤ sizeObservations rq.effects := by
    obtain ⟨hrun', rfl⟩ := request_alone hrun hi
    have hcounted := counted_run hmetrics hrun'
    rw [hcounted.received, hcounted.observed, serverCallbacks_run hrun']
    exact ⟨⟨rfl, rfl, rfl⟩, answered_le hrun'⟩
  rw [Accounted, sum_map_eq_iff, sum_map_eq_iff, ← forall₂_and]
  · constructor
    · intro h i hi
      have hget := List.getElem?_eq_getElem hi
      obtain ⟨⟨hreceived, hobserved, hanswered⟩, -⟩ := halone i _ _ hget
      obtain ⟨hr, ho⟩ := h _ (List.getElem_mem hi)
      exact ⟨hreceived ▸ hr.trans hanswered, hobserved ▸ ho.trans hanswered⟩
    · rintro h ⟨call, rq⟩ hmem
      obtain ⟨i, hget⟩ := List.mem_iff_getElem?.mp hmem
      obtain ⟨⟨hreceived, hobserved, hanswered⟩, -⟩ := halone i call rq hget
      obtain ⟨hr, ho⟩ := h i (List.getElem?_eq_some_iff.mp hget).1
      exact ⟨hreceived.trans (hr.trans hanswered.symm), hobserved.trans (ho.trans hanswered.symm)⟩
  · rintro ⟨call, rq⟩ hmem
    obtain ⟨i, hget⟩ := List.mem_iff_getElem?.mp hmem
    exact (halone i call rq hget).2.2
  · rintro ⟨call, rq⟩ hmem
    obtain ⟨i, hget⟩ := List.mem_iff_getElem?.mp hmem
    exact (halone i call rq hget).2.1

/-- Two requests at once: one is answered, the other times out before any headers. -/
theorem responses_accounted_answered :
    Accounted ((requests { metrics := true }).after [] [.start ({}, {}), .start ({}, {}),
      .on 0 (.asyncSend true false), .on 1 (.asyncSend true false), .on 0 .startTimer,
      .on 0 (.submit 3 true true .request), .on 1 .startTimer,
      .on 1 (.submit 4 true true .request), .on 0 (.onResponse 5 { statusCode := 200 }),
      .on 1 .timerExpires, .on 0 (.onData []), .on 1 .timerHandler, .on 0 .timerAborted]) :=
  (responses_accounted_iff { metrics := true } rfl _ (by decide)).mpr (by decide)

/-- **A timeout between headers and end of data** is counted as received. -/
theorem headers_then_timeout :
    ¬∀ (client : Http2Client) (_ : client.metrics = true)
      (es : List (PoolEvent (Call × Request) Event)), (requests client).Run [] es →
      Settled ((requests client).after [] es) → Accounted ((requests client).after [] es) := by
  intro h
  have haccounted := h { metrics := true } rfl [.start ({}, {}), .on 0 (.asyncSend true false),
    .on 0 .startTimer, .on 0 (.submit 3 true true .request),
    .on 0 (.onResponse 5 { statusCode := 200 }), .on 0 .timerExpires, .on 0 .timerHandler]
    (by decide) (by decide)
  exact absurd haccounted.1 (by decide)

end Http2Comm.Client
