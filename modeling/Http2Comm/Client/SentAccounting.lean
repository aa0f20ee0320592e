import Http2Comm.Client.Accounting

/-!
# What the metrics count as sent

`async_send` counts a request as sent on the caller's thread, when it has found the connection open
and before it posts the submit handler. Whether the request is submitted is decided later, by that
handler on the io thread, and if it is not the caller gets `-3`. The other failure, `-1`, is
counted as unsent where it happens; this one is in neither place, and the sent counter keeps it
(`posted_not_submitted`).

So each request is in exactly one counter, and in the right one exactly if its submit handler does
not fail (`sent_accounted_iff`).
-/

set_option autoImplicit false

namespace Http2Comm.Client

open Lib Lib.Machine

/-! ## What is counted -/

/-- The increments of the sents counter, over all labels. -/
def sentIncrements (es : List Effect) : Nat := (recorded es).count .observedRequestsSentsCounter

/-- The increments of the unsents counter, over all labels. -/
def unsentIncrements (es : List Effect) : Nat := (recorded es).count .observedRequestsUnsentsCounter

/-- `submit` was called for the request and returned a request object. -/
def Submitted (s : Call × Request) : Prop := s.2.phase = .submitted

instance (s : Call × Request) : Decidable (Submitted s) := inferInstanceAs (Decidable (_ = _))

/-- The request was answered with `-1` or `-3`. -/
def Refused (s : Call × Request) : Prop :=
  ∃ r ∈ callbacks s.2.effects, r.statusCode = -1 ∨ r.statusCode = -3

/-- The counters agree with what became of the requests. -/
structure SentAccounted (ss : List (Call × Request)) : Prop where
  sents : (ss.map (sentIncrements ·.2.effects)).sum = ss.countP (Submitted ·)
  unsents : (ss.map (unsentIncrements ·.2.effects)).sum = ss.countP (¬Submitted ·)
  others : ∀ s ∈ ss, ¬Submitted s ↔ Refused s
  together : (ss.map (sentIncrements ·.2.effects)).sum +
    (ss.map (unsentIncrements ·.2.effects)).sum = ss.length

/-- Every `async_send` and its submit handler have run. -/
def Decided (ss : List (Call × Request)) : Prop :=
  ∀ s ∈ ss, s.2.phase = .unsent ∨ s.2.phase = .submitted ∨ s.2.phase = .failed

instance (ss : List (Call × Request)) : Decidable (Decided ss) :=
  inferInstanceAs (Decidable (∀ s ∈ ss, _))

/-- The submit handler runs and gets no request. -/
def Event.failsSubmit : Event → Bool
  | .submit _ isConnected hasSession attempt => !accepted isConnected hasSession attempt
  | _ => false

/-! ## One request -/

section request

variable {client : Http2Client} {call : Call} {es : List Event} {rq : Request} {e : Event}

/-- The two counters are `async_send`'s. -/
theorem count_recorded_next (hmetrics : client.metrics = true) {family : Family}
    (hfamily : family = .observedRequestsSentsCounter ∨
      family = .observedRequestsUnsentsCounter) :
    (recorded (rq.next client call e).effects).count family = (recorded rq.effects).count family +
      match e with
      | .asyncSend connected reconnected =>
        if connected || reconnected then if family = .observedRequestsSentsCounter then 1 else 0
        else if family = .observedRequestsUnsentsCounter then 1 else 0
      | _ => 0 := by
  rw [recorded_next, List.count_append, if_pos hmetrics]
  congr 1
  cases e with
  | asyncSend connected reconnected =>
    rcases hfamily with rfl | rfl <;> cases connected <;> cases reconnected <;> rfl
  | timerHandler => rcases hfamily with rfl | rfl <;> cases rq.task.timedOut <;> rfl
  | onResponse now res => rcases hfamily with rfl | rfl <;> cases rq.task.timedOut <;> rfl
  | onData chunk =>
    rcases hfamily with rfl | rfl <;> by_cases h : rq.onData.isSome ∧ chunk = [] <;> simp [h]
  | _ => rfl

theorem sentIncrements_next (hmetrics : client.metrics = true) :
    sentIncrements (rq.next client call e).effects = sentIncrements rq.effects +
      match e with
      | .asyncSend connected reconnected => if connected || reconnected then 1 else 0
      | _ => 0 := by
  rw [sentIncrements, count_recorded_next hmetrics (Or.inl rfl)]
  cases e <;> rfl

theorem unsentIncrements_next (hmetrics : client.metrics = true) :
    unsentIncrements (rq.next client call e).effects = unsentIncrements rq.effects +
      match e with
      | .asyncSend connected reconnected => if connected || reconnected then 0 else 1
      | _ => 0 := by
  rw [unsentIncrements, count_recorded_next hmetrics (Or.inr rfl)]
  cases e <;> rfl

/-- A request is refused by `async_send`, or by a submit handler that finds the callback unused. -/
theorem refused_next : Refused (call, rq.next client call e) ↔ Refused (call, rq) ∨
    match e with
    | .asyncSend connected reconnected => (connected || reconnected) = false
    | .submit _ isConnected hasSession attempt =>
      accepted isConnected hasSession attempt = false ∧ rq.task.cbInvoked = false
    | _ => False := by
  simp only [Refused, callbacks_next, List.mem_append, or_and_right, exists_or]
  refine or_congr_right ?_
  cases e with
  | asyncSend connected reconnected => cases connected <;> cases reconnected <;> simp
  | submit now isConnected hasSession attempt =>
    cases accepted isConnected hasSession attempt <;> cases rq.task.cbInvoked <;> simp
  | timerHandler => cases rq.task.timedOut <;> cases rq.task.cbInvoked <;> simp
  | onData chunk =>
    cases rq.onData with
    | none => simp
    | some res =>
      -- a status code of the server is not negative
      simp only
      split_ifs <;> simp
  | onClose errorCode => cases rq.task.timedOut <;> cases rq.task.cbInvoked <;> simp
  | _ => simp

/-- What the phase says about the counters, the answer and the events. -/
structure Posted (es : List Event) (call : Call) (rq : Request) : Prop where
  kept : Kept rq
  sents : sentIncrements rq.effects =
    if rq.phase = .created ∨ rq.phase = .unsent then 0 else 1
  unsents : unsentIncrements rq.effects = if rq.phase = .unsent then 1 else 0
  refused : Refused (call, rq) ↔ rq.phase = .unsent ∨ rq.phase = .failed
  failed : rq.phase = .failed ↔ es.any Event.failsSubmit = true

theorem posted_step (hmetrics : client.metrics = true) (h : Posted es call rq)
    (hen : rq.Enabled e) : Posted (es ++ [e]) call (rq.next client call e) := by
  have hkept : Kept (rq.next client call e) := kept_step h.kept hen
  have hsents : sentIncrements (rq.next client call e).effects = _ := sentIncrements_next hmetrics
  have hunsents : unsentIncrements (rq.next client call e).effects = _ :=
    unsentIncrements_next hmetrics
  have hrefused : Refused (call, rq.next client call e) ↔ _ := refused_next
  have hfailed : (es ++ [e]).any Event.failsSubmit = true ↔
      rq.phase = .failed ∨ e.failsSubmit = true := by simp [h.failed]
  have hphase := phase_next client call rq e
  rw [h.sents] at hsents
  rw [h.unsents] at hunsents
  rw [h.refused] at hrefused
  cases e with
  | asyncSend connected reconnected =>
    have hcreated : rq.phase = .created := hen
    cases connected <;> cases reconnected <;>
      exact ⟨hkept, by simp_all, by simp_all, by simp_all, by simp_all [Event.failsSubmit]⟩
  | startTimer =>
    have hposted : rq.phase = .posted := hen
    exact ⟨hkept, by simp_all, by simp_all, by simp_all, by simp_all [Event.failsSubmit]⟩
  | submit now isConnected hasSession attempt =>
    have hsubmitting : rq.phase = .submitting := hen
    have hquiet := h.kept.quiet (Or.inr (Or.inr hsubmitting))
    cases haccepted : accepted isConnected hasSession attempt <;>
      exact ⟨hkept, by simp_all, by simp_all, by simp_all, by simp_all [Event.failsSubmit]⟩
  | _ => exact ⟨hkept, by simp_all, by simp_all, by simp_all, by simp_all [Event.failsSubmit]⟩

theorem posted_run (hmetrics : client.metrics = true) (hrun : (request client call).Run {} es) :
    Posted es call ((request client call).after {} es) := by
  refine history (H := fun es => Posted es call) ?_
    (fun _ _ _ h hen => posted_step hmetrics h hen) hrun
  exact ⟨kept_start, rfl, rfl, by simp [Refused], by simp⟩

end request

/-! ## All requests -/

theorem countP_eq_sum {α : Type*} (p : α → Bool) (l : List α) :
    l.countP p = (l.map fun a => if p a = true then 1 else 0).sum := by
  induction l with
  | nil => rfl
  | cons a l ih => rw [List.countP_cons, ih, List.map_cons, List.sum_cons, Nat.add_comm]

section counters

variable {client : Http2Client} {es : List (PoolEvent (Call × Request) Event)}

theorem posted_request (hmetrics : client.metrics = true) (hrun : (requests client).Run [] es)
    {i : Nat} {s : Call × Request} (hi : ((requests client).after [] es)[i]? = some s) :
    Posted (PoolEvent.own i es) s.1 s.2 := by
  obtain ⟨hrun', hs⟩ := request_alone hrun hi
  rw [hs]
  exact posted_run hmetrics hrun'

/-- **Every request is in one of the two counters**, whatever becomes of it. -/
theorem counted_once (hmetrics : client.metrics = true) (hrun : (requests client).Run [] es)
    (hdecided : Decided ((requests client).after [] es)) :
    (((requests client).after [] es).map (sentIncrements ·.2.effects)).sum +
      (((requests client).after [] es).map (unsentIncrements ·.2.effects)).sum =
        ((requests client).after [] es).length := by
  have hone : ∀ s ∈ (requests client).after [] es,
      sentIncrements s.2.effects + unsentIncrements s.2.effects = 1 := by
    intro s hs
    obtain ⟨i, hi⟩ := List.mem_iff_getElem?.mp hs
    have hposted := posted_request hmetrics hrun hi
    rw [hposted.sents, hposted.unsents]
    rcases hdecided s hs with hphase | hphase | hphase <;> simp [hphase]
  rw [← List.sum_map_add, List.map_congr_left hone, List.map_const', List.sum_replicate]
  simp

end counters

/-- **The counters agree exactly if no submit handler fails.** -/
theorem sent_accounted_iff (client : Http2Client) (hmetrics : client.metrics = true)
    (es : List (PoolEvent (Call × Request) Event)) (hrun : (requests client).Run [] es)
    (hdecided : Decided ((requests client).after [] es)) :
    SentAccounted ((requests client).after [] es) ↔
      ∀ i < ((requests client).after [] es).length,
        (PoolEvent.own i es).any Event.failsSubmit = false := by
  have honce := counted_once hmetrics hrun hdecided
  have hposted {i : Nat} {s : Call × Request} := posted_request (i := i) (s := s) hmetrics hrun
  generalize (requests client).after [] es = ss at *
  have hsents : ∀ s ∈ ss, (if decide (Submitted s) = true then 1 else 0) ≤
      sentIncrements s.2.effects := by
    intro s hs
    obtain ⟨i, hi⟩ := List.mem_iff_getElem?.mp hs
    rw [(hposted hi).sents]
    rcases hdecided s hs with hphase | hphase | hphase <;> simp [Submitted, hphase]
  have hfailed {s : Call × Request} (hs : s ∈ ss) : sentIncrements s.2.effects =
      (if decide (Submitted s) = true then 1 else 0) ↔ s.2.phase ≠ .failed := by
    obtain ⟨i, hi⟩ := List.mem_iff_getElem?.mp hs
    rw [(hposted hi).sents]
    rcases hdecided s hs with hphase | hphase | hphase <;> simp [Submitted, hphase]
  have hexact : (ss.map (sentIncrements ·.2.effects)).sum = ss.countP (Submitted ·) ↔
      ∀ s ∈ ss, s.2.phase ≠ .failed := by
    rw [countP_eq_sum, sum_map_eq_iff hsents]
    exact forall₂_congr fun s hs => hfailed hs
  have hevents : (∀ s ∈ ss, s.2.phase ≠ .failed) ↔
      ∀ i < ss.length, (PoolEvent.own i es).any Event.failsSubmit = false := by
    rw [List.forall_mem_iff_getElem]
    refine forall₂_congr fun i hi => ?_
    rw [Ne, (hposted (List.getElem?_eq_getElem hi)).failed, Bool.not_eq_true]
  rw [← hevents, ← hexact]
  refine ⟨fun h => h.sents, fun h => ⟨h, ?_, ?_, honce⟩⟩
  · have hlength := ss.length_eq_countP_add_countP (Submitted ·)
    simp only [decide_eq_true_eq] at hlength
    omega
  · intro s hs
    obtain ⟨i, hi⟩ := List.mem_iff_getElem?.mp hs
    rw [(hposted hi).refused]
    rcases hdecided s hs with hphase | hphase | hphase <;> simp [Submitted, hphase]

/-- Three requests at once: one is submitted, one finds the connection lost, one reconnects. -/
theorem sent_accounted_reconnected :
    SentAccounted ((requests { metrics := true }).after [] [.start ({}, {}), .start ({}, {}),
      .on 0 (.asyncSend true false), .on 1 (.asyncSend false false), .start ({}, {}),
      .on 0 .startTimer, .on 2 (.asyncSend false true), .on 0 (.submit 3 true true .request),
      .on 2 .startTimer, .on 2 (.submit 4 true true .request)]) :=
  (sent_accounted_iff { metrics := true } rfl _ (by decide) (by decide)).mpr (by decide)

/-- **A connection lost between `async_send` and its submit handler**: the request is answered
with `-3` and stays counted as sent. -/
theorem posted_not_submitted :
    ¬∀ (client : Http2Client) (_ : client.metrics = true)
      (es : List (PoolEvent (Call × Request) Event)), (requests client).Run [] es →
      Decided ((requests client).after [] es) → SentAccounted ((requests client).after [] es) := by
  intro h
  have haccounted := h { metrics := true } rfl [.start ({}, {}), .on 0 (.asyncSend true false),
    .on 0 .startTimer, .on 0 (.submit 3 false false .null)] (by decide) (by decide)
  exact absurd haccounted.sents (by decide)

end Http2Comm.Client
