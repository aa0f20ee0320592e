import Http2Comm.Server.Assembly

/-!
# The response delay a stream reports

`updateMetrics` observes the time from `reception_timestamp_us_` to the clock at the close. The
timestamp is written at the start of `reception`, on the worker, and nothing says whether it has
been: a stream that is closed before its request has ended, or while it waits in the queue,
observes the time since the **epoch** (`unprocessed_delay_observed`).

So the delay is within the life of the stream exactly if its reception has started when it
closes, or the clock itself starts around the epoch (`delay_bounded_iff`).
-/

set_option autoImplicit false

namespace Http2Comm.Server

open Lib Lib.Machine

/-! ## Clocks -/

/-- The clock that the event reads. -/
def Event.clock : Event → Option Int
  | .process now .. => some now
  | .mark now => some now
  | _ => none

/-- The clocks read since the stream was created at `created` do not decrease. -/
def ClockNonDecreasing (created : Int) (es : List Event) : Prop :=
  (created :: es.filterMap Event.clock).Pairwise (· ≤ ·)

instance (created : Int) (es : List Event) : Decidable (ClockNonDecreasing created es) :=
  inferInstanceAs (Decidable (List.Pairwise _ _))

/-- The durations observed, in the gauge and in the histogram. -/
def observedDelays (es : List Effect) : List Int :=
  es.filterMap fun
    | .metric ⟨.responsesDelaySecondsGauge, _, .set durationUs⟩ => some durationUs
    | .metric ⟨.responsesDelaySecondsHistogram, _, .observe durationUs⟩ => some durationUs
    | _ => none

section runs

variable {server : Http2Server} {st : Stream} {es : List Event}

theorem observedDelays_updateMetrics (hmetrics : server.metrics = true) (now : Int)
    (label : Bytes) :
    observedDelays (st.updateMetrics server now label) =
      [now - st.receptionTimestampUs, now - st.receptionTimestampUs] := by
  simp [Stream.updateMetrics, hmetrics, observedDelays]

/-- A close observes the time since the reception timestamp, twice. -/
theorem observedDelays_mark (hmetrics : server.metrics = true) (now : Int) :
    observedDelays (st.emits server (.mark now)) =
      [now - st.receptionTimestampUs, now - st.receptionTimestampUs] := by
  simp only [Stream.emits]
  split <;> exact observedDelays_updateMetrics hmetrics now _

/-- The timestamp is a clock that was read, or was never written. -/
theorem receptionTimestampUs_run {req : Request} (hrun : (stream server).Run (.start req) es) :
    if es.any Event.isProcess then
      ((stream server).after (.start req) es).receptionTimestampUs ∈ es.filterMap Event.clock
    else ((stream server).after (.start req) es).receptionTimestampUs = 0 := by
  refine history (H := fun es st => if es.any Event.isProcess then
    st.receptionTimestampUs ∈ es.filterMap Event.clock else st.receptionTimestampUs = 0)
    (by simp [Stream.start]) ?_ hrun
  intro es e _ ih _
  change if _ then ((Stream.next server _ e).receptionTimestampUs ∈ _) else
    (Stream.next server _ e).receptionTimestampUs = 0
  rw [receptionTimestampUs_next, List.any_append, List.filterMap_append]
  cases e with
  | process now busyConsumers queueSize a => simp [Event.isProcess, Event.clock]
  | _ =>
    split_ifs at ih with hany
    · simp [hany, ih]
    · simp [hany, ih, Event.isProcess]

/-- The duration that the close observes is within the life of the stream. -/
def DelayBounded (server : Http2Server) (req : Request) (created : Int) (es : List Event) : Prop :=
  ∀ before now rest, es = before ++ .mark now :: rest →
    ∀ fs, ((stream server).after (.start req) (before ++ [.mark now])).effects =
      ((stream server).after (.start req) before).effects ++ fs →
    ∀ durationUs ∈ observedDelays fs, 0 ≤ durationUs ∧ durationUs ≤ now - created

/-- The reception of the stream has started when it closes, or the stream was created no later
than the epoch and closes no earlier. -/
def ReceivedWhenClosed (created : Int) (es : List Event) : Prop :=
  ∀ before now rest, es = before ++ .mark now :: rest →
    before.any Event.isProcess = true ∨ (created ≤ 0 ∧ 0 ≤ now)

/-- At a close the clock is no earlier than the creation and than every clock read before. -/
theorem ClockNonDecreasing.mark {created now : Int} {before rest : List Event}
    (h : ClockNonDecreasing created (before ++ .mark now :: rest)) :
    ∀ t ∈ before.filterMap Event.clock, created ≤ t ∧ t ≤ now := by
  have hread : (Event.mark now :: rest).filterMap Event.clock
      = now :: rest.filterMap Event.clock := rfl
  rw [ClockNonDecreasing, List.filterMap_append, hread, List.pairwise_cons,
    List.pairwise_append] at h
  obtain ⟨hcreated, -, -, hbefore⟩ := h
  intro t ht
  exact ⟨hcreated t (List.mem_append_left _ ht), hbefore t ht now (List.mem_cons_self ..)⟩

/-- **The observed delay is bounded by the life of the stream exactly if its reception has
started when it closes**, or the clock is at the epoch. -/
theorem delay_bounded_iff (server : Http2Server) (hmetrics : server.metrics = true)
    (req : Request) (created : Int) (es : List Event)
    (hrun : (stream server).Run (.start req) es) (hclock : ClockNonDecreasing created es) :
    DelayBounded server req created es ↔ ReceivedWhenClosed created es := by
  refine forall_congr' fun before => forall_congr' fun now => forall_congr' fun rest =>
    forall_congr' fun hes => ?_
  subst hes
  have hemitted : ((stream server).after (.start req) (before ++ [.mark now])).effects =
      ((stream server).after (.start req) before).effects ++
        ((stream server).after (.start req) before).emits server (.mark now) := by
    rw [after_append]
    exact effects_next server _ (.mark now)
  have htimestamp := receptionTimestampUs_run (run_append.mp hrun).1
  -- only the effects of the close itself are in question
  have hobserved : (∀ fs, ((stream server).after (.start req) (before ++ [.mark now])).effects =
        ((stream server).after (.start req) before).effects ++ fs →
      ∀ durationUs ∈ observedDelays fs, 0 ≤ durationUs ∧ durationUs ≤ now - created) ↔
      created ≤ ((stream server).after (.start req) before).receptionTimestampUs ∧
        ((stream server).after (.start req) before).receptionTimestampUs ≤ now := by
    rw [hemitted]
    simp only [List.append_cancel_left_eq, forall_eq', observedDelays_mark hmetrics,
      List.mem_cons, List.not_mem_nil, or_false, or_self, forall_eq]
    omega
  rw [hobserved]
  split_ifs at htimestamp with hany
  · simp [hany, hclock.mark _ htimestamp]
  · simp [hany, htimestamp]

end runs

/-- A stream that is answered and closed: 7 microseconds, of a life of 9. -/
theorem delay_bounded_answered :
    DelayBounded { metrics := true } {} 1000
      ([.endOfRequest 1, .process 1002 false 0 acceptAll, .provision 0, .commit, .post, .respond,
        .cancelTimer 0] ++ [.mark 1009]) := by
  refine (delay_bounded_iff { metrics := true } rfl {} 1000 _ (by decide) (by decide)).mpr ?_
  intro before now rest hes
  obtain ⟨hget, htake⟩ := cut_eq hes
  rw [← htake]
  match before.length, hget with
  | 7, _ => exact Or.inl rfl

/-- **A stream that is reset before it is processed**: it has lived for 5 microseconds, and
observes 1005. -/
theorem unprocessed_delay_observed :
    ¬∀ (server : Http2Server) (_ : server.metrics = true) (req : Request) (created : Int)
      (es : List Event), (stream server).Run (.start req) es → ClockNonDecreasing created es →
      DelayBounded server req created es := by
  intro h
  have hbounded := h { metrics := true } rfl {} 1000 [.cancelTimer 8, .mark 1005] (by decide)
    (by decide) [.cancelTimer 8] 1005 [] rfl _ rfl 1005 (by decide)
  exact absurd hbounded.2 (by decide)

end Http2Comm.Server
