import Http2Comm.Server.StreamClose

/-!
# The delays of a closed stream

`on_close` cancels the timer first of all, and the expiry handler gives up when it finds itself
cancelled: "timer was cancelled, we musn't commit". But a cancel reaches only the wait that is
pending at that moment. It misses an expiry that is already queued with success
(`expired_delay_polls`) and a handler that is past its poll, and it misses every wait that is
started later: by a `commit` that comes after it, whether the delay was provisioned before or after.

`CancelsInTime` says of one step that the cancel does not miss; under it no expiry handler of a
closed stream does anything. `missed_cancel_acts` is that from a step which misses the run can go on
to a handler that does.
-/

set_option autoImplicit false

namespace Http2Comm.Server

open Lib Lib.Machine

/-! ## What an expiry handler does -/

/-- `commit` has two callers, the worker after it has provisioned a delay and the expiry handler
after its poll: the next call is the handler's. -/
def handlerCommits (es : List Event) : Bool :=
  es.foldl (fun byHandler e =>
    match e with
    | .provision _ => false
    | .timerHandler _ => true
    | _ => byHandler) false

theorem handlerCommits_snoc (es : List Event) (e : Event) : handlerCommits (es ++ [e]) =
    match e with
    | .provision _ => false
    | .timerHandler _ => true
    | _ => handlerCommits es := by
  simp only [handlerCommits, List.foldl_append, List.foldl_cons, List.foldl_nil]

/-- The event is a statement of an expiry handler, after the events `es`: its poll, with which it
re-arms the timer, or the `commit` it goes on to. -/
def ByExpiryHandler (es : List Event) : Event → Prop
  | .timerHandler _ => True
  | .commit => handlerCommits es = true
  | _ => False

/-- An expiry handler polls, re-arms the timer or goes on to commit in `rest`, which follows the
events `es`. -/
def HandlerActs (es rest : List Event) : Prop :=
  ∃ middle e last, rest = middle ++ e :: last ∧ ByExpiryHandler (es ++ middle) e

/-! ## The cancel that does not miss -/

/-- The provision sets the timer to a delay. -/
def ProvisionsDelay (server : Http2Server) (st : Stream) (answer : Int) : Prop :=
  server.timersIoContext = true ∧ (st.responseDelayMs ≠ 0 ∨ 0 < answer)

/-- `cancelTimer` does not come after the expiry of a wait, nor between a provision or a poll and
the `commit` that follows it once the timer exists, and no delay is provisioned after it. -/
def CancelsInTime (server : Http2Server) (st : Stream) : Event → Prop
  | .cancelTimer _ => st.work ≠ .expired ∧ (st.work = .committing → st.timer = none)
  | .provision answer => st.closing ≠ .pending → ¬ProvisionsDelay server st answer
  | _ => True

instance (server : Http2Server) (st : Stream) (answer : Int) :
    Decidable (ProvisionsDelay server st answer) := inferInstanceAs (Decidable (_ ∧ (_ ∨ _)))

instance (server : Http2Server) (st : Stream) (e : Event) :
    Decidable (CancelsInTime server st e) :=
  match e with
  | .cancelTimer _ => inferInstanceAs (Decidable (_ ∧ (_ → _)))
  | .provision _ => inferInstanceAs (Decidable (_ → _))
  | .data .. | .endOfRequest _ | .process .. | .commit | .timerExpires | .timerHandler _
  | .timerAborted | .post | .respond | .mark _ | .notify _ => isTrue trivial

/-- The timer exists when it is needed and not before a delay is provisioned. Whose `commit` comes
next shows in it: the handler has a timer, and the worker one that is needed. -/
structure Timed (es : List Event) (st : Stream) : Prop where
  created : st.needTimer = true ∨ st.work = .armed ∨ st.work = .expired → st.timer.isSome = true
  uncreated : st.work = .receiving ∨ st.work = .queued ∨ st.work = .provisioning →
    st.timer.isSome = false
  worker : st.work = .committing → handlerCommits es = false → st.timer.isSome = st.needTimer
  handler : st.work = .committing → handlerCommits es = true → st.timer.isSome = true

/-- No wait is pending or expired, and no `commit` starts one or is a handler's. -/
structure Silent (st : Stream) : Prop where
  notArmed : st.work ≠ .armed
  notExpired : st.work ≠ .expired
  untimed : st.work = .committing → st.timer.isSome = false

/-! ## One step -/

section step

variable {server : Http2Server} {st : Stream} {es : List Event} {e : Event}

theorem timed_start (req : Request) : Timed [] (.start req) where
  created h := by simp [Stream.start] at h
  uncreated _ := rfl
  worker h := by simp [Stream.start] at h
  handler h := by simp [Stream.start] at h

/-- A timer that does not exist is not needed. -/
theorem Timed.unneeded (h : Timed es st) (hnone : st.timer.isSome = false) :
    st.needTimer = false := by
  by_contra hneed
  have hsome := h.created (Or.inl (by simpa using hneed))
  rw [hnone] at hsome
  cases hsome

theorem timed_step (h : Timed es st) (hen : st.Enabled e) :
    Timed (es ++ [e]) (st.next server e) where
  created := by
    have hcreated := h.created
    rw [needTimer_next, work_next, timer_isSome_next]
    cases e with
    | provision answer => split_ifs <;> simp_all
    | commit => split_ifs <;> simp_all
    | timerExpires => exact fun _ => hcreated (Or.inr (Or.inl hen))
    | timerHandler answer => simp_all [Stream.Enabled]
    | cancelTimer errorCode => split_ifs <;> simp_all
    | _ => simp_all
  uncreated := by
    have huncreated := h.uncreated
    rw [timer_isSome_next, work_next]
    cases e with
    | commit => split_ifs <;> simp
    | cancelTimer errorCode => split_ifs <;> simp_all
    | endOfRequest receptionId => simp_all [Stream.Enabled]
    | process now busyConsumers queueSize a => simp_all [Stream.Enabled]
    | _ => simp_all
  worker := by
    have hworker := h.worker
    rw [timer_isSome_next, needTimer_next, work_next, handlerCommits_snoc]
    cases e with
    | provision answer =>
      -- before the provision there is no timer
      have hnone := h.uncreated (Or.inr (Or.inr hen))
      intro _ _
      simp only [hnone, h.unneeded hnone, Bool.or_false]
      split_ifs with hdelay <;> simp [hdelay]
    | commit => split_ifs <;> simp
    | cancelTimer errorCode => split_ifs <;> simp_all
    | _ => simp_all
  handler := by
    have hhandler := h.handler
    rw [timer_isSome_next, work_next, handlerCommits_snoc]
    cases e with
    | timerHandler answer => simp [h.created (Or.inr (Or.inr hen))]
    | commit => split_ifs <;> simp
    | cancelTimer errorCode => split_ifs <;> simp_all
    | _ => simp_all

/-- A cancel in time leaves the timer silent: it aborts a wait that is pending. -/
theorem silent_cancelTimer {errorCode : Nat} (h : Timed es st)
    (hin : CancelsInTime server st (.cancelTimer errorCode)) :
    Silent (st.next server (.cancelTimer errorCode)) := by
  obtain ⟨hexpired, hcommitting⟩ := hin
  by_cases harmed : st.work = .armed
  · have hw : (st.next server (.cancelTimer errorCode)).work = .aborted := by
      simp [work_next, harmed, h.created (Or.inr (Or.inl harmed))]
    constructor <;> simp [hw]
  · have hw : (st.next server (.cancelTimer errorCode)).work = st.work := by
      simp [work_next, harmed]
    constructor
    · rwa [hw]
    · rwa [hw]
    · rw [hw, timer_isSome_next]
      exact fun hc => by simp [hcommitting hc]

/-- A silent timer stays silent, unless a delay is provisioned. -/
theorem silent_step (htimed : Timed es st) (h : Silent st) (hen : st.Enabled e)
    (hprovision : ∀ answer, e = .provision answer → ¬ProvisionsDelay server st answer) :
    Silent (st.next server e) := by
  obtain ⟨harmed, hexpired, huntimed⟩ := h
  constructor <;> rw [work_next]
  · cases e with
    | commit => simp [htimed.unneeded (huntimed hen)]; split <;> simp
    | cancelTimer errorCode => split_ifs <;> simp [harmed]
    | _ => simp [harmed]
  · cases e with
    | commit => simp [htimed.unneeded (huntimed hen)]; split <;> simp
    | cancelTimer errorCode => split_ifs <;> simp [hexpired]
    | timerExpires => exact absurd hen harmed
    | _ => simp [hexpired]
  · rw [timer_isSome_next]
    cases e with
    | provision answer =>
      have hnone := htimed.uncreated (Or.inr (Or.inr hen))
      have hdelay := hprovision answer rfl
      simp only [ProvisionsDelay] at hdelay
      simp [hnone, hdelay]
    | timerHandler answer => exact absurd hen hexpired
    | commit => exact fun _ => huntimed hen
    | cancelTimer errorCode => split_ifs <;> simp_all
    | _ => simp_all

/-- **Once `on_close` has begun, every step that cancels in time keeps the timer silent.** -/
theorem closing_silent_step (htimed : Timed es st) (h : st.closing ≠ .pending → Silent st)
    (hen : st.Enabled e) (hin : CancelsInTime server st e)
    (hclosing : (st.next server e).closing ≠ .pending) : Silent (st.next server e) := by
  rw [closing_next] at hclosing
  cases e with
  | cancelTimer errorCode => exact silent_cancelTimer htimed hin
  | mark now =>
    have hmarking : st.closing = .timerCancelled := hen
    exact silent_step htimed (h (by simp [hmarking])) hen (by simp)
  | notify counter =>
    have hmarked : st.closing = .marked := hen
    exact silent_step htimed (h (by simp [hmarked])) hen (by simp)
  | provision answer =>
    refine silent_step htimed (h hclosing) hen ?_
    rintro answer' heq
    obtain rfl := Event.provision.inj heq
    exact hin hclosing
  | _ => exact silent_step htimed (h hclosing) hen (by simp)

/-- The statements of an expiry handler are those of a timer that is not silent. -/
theorem Silent.not_byExpiryHandler (h : Silent st) (htimed : Timed es st) (hen : st.Enabled e) :
    ¬ByExpiryHandler es e := by
  intro hby
  cases e with
  | timerHandler answer => exact h.notExpired hen
  | commit =>
    have hsome := htimed.handler hen hby
    rw [h.untimed hen] at hsome
    cases hsome
  | _ => exact hby

end step

/-! ## Whole runs -/

theorem timed_run {server : Http2Server} {req : Request} {es : List Event}
    (hrun : (stream server).Run (.start req) es) :
    Timed es ((stream server).after (.start req) es) :=
  history (H := Timed) (timed_start req) (fun _ _ _ h hen => timed_step h hen) hrun

/-- **The delays of a closed stream stay cancelled**, in every run in which the cancel comes in
time: once `on_close` has finished, no expiry handler of the stream polls, re-arms the timer or goes
on to commit. -/
theorem no_poll_after_close (server : Http2Server) (req : Request) (before rest : List Event)
    (hrun : (stream server).Run (.start req) (before ++ rest))
    (hin : (stream server).Along (CancelsInTime server) (.start req) (before ++ rest))
    (hfin : ((stream server).after (.start req) before).closing = .finished) :
    ¬HandlerActs before rest := by
  rintro ⟨middle, e, last, rfl, hby⟩
  rw [← List.append_assoc] at hrun hin
  obtain ⟨hrun', hen, -⟩ := along_append.mp hrun
  obtain ⟨hin', -⟩ := along_append.mp hin
  have hsilent : _ → Silent ((stream server).after (.start req) (before ++ middle)) :=
    (history (H := fun es st => Timed es st ∧ (st.closing ≠ .pending → Silent st))
      ⟨timed_start req, fun h => absurd rfl h⟩
      (fun _ _ _ h he => ⟨timed_step h.1 he.1, closing_silent_step h.1 h.2 he.1 he.2⟩)
      (hrun'.and hin')).2
  have hfin' : ((stream server).after (.start req) (before ++ middle)).closing = .finished := by
    rw [after_append]
    exact invariant (fun st e h he => closing_finished_step server st e he h) hfin
      (run_append.mp hrun').2
  exact (hsilent (by rw [hfin']; simp)).not_byExpiryHandler (timed_run hrun') hen hby

/-- A stream closed while its delay is pending. -/
theorem no_poll_after_close_armed :
    ¬HandlerActs [.endOfRequest 1, .process 0 false 0 { acceptAll with receive := fun r => (r, 5) },
      .provision 0, .commit, .cancelTimer 0, .mark 5, .notify 1] [.timerAborted] :=
  no_poll_after_close { timersIoContext := true } {} _ _ (by decide) (by decide) (by decide)

/-- **An expiry that is queued when the stream closes**: its handler polls the closed stream. -/
theorem expired_delay_polls :
    ¬∀ (server : Http2Server) (req : Request) (before rest : List Event),
      (stream server).Run (.start req) (before ++ rest) →
      ((stream server).after (.start req) before).closing = .finished →
      ¬HandlerActs before rest := by
  intro h
  have hnone := h { timersIoContext := true } {}
    [.endOfRequest 1, .process 0 false 0 { acceptAll with receive := fun r => (r, 5) },
      .provision 0, .commit, .timerExpires, .cancelTimer 0, .mark 5, .notify 1]
    [.timerHandler 3] (by decide) (by decide)
  exact hnone ⟨[], .timerHandler 3, [], rfl, trivial⟩

/-! ## From a step that misses -/

/-- What is left of `on_close`. -/
def Closing.remaining : Closing → List Event
  | .pending => [.cancelTimer 0, .mark 0, .notify 0]
  | .timerCancelled => [.mark 0, .notify 0]
  | .marked => [.notify 0]
  | .finished => []

/-- `on_close` runs to its end and leaves the answering party where it is. -/
theorem run_remaining (server : Http2Server) (st : Stream) (h : st.closing ≠ .pending) :
    (stream server).Run st st.closing.remaining ∧
      ((stream server).after st st.closing.remaining).closing = .finished ∧
      ((stream server).after st st.closing.remaining).work = st.work ∧
      ((stream server).after st st.closing.remaining).needTimer = st.needTimer := by
  cases hc : st.closing with
  | pending => exact absurd hc h
  | timerCancelled =>
    simp [Closing.remaining, Run, stream, Stream.Enabled, hc, closing_next, work_next,
      needTimer_next]
  | marked =>
    simp [Closing.remaining, Run, stream, Stream.Enabled, hc, closing_next, work_next,
      needTimer_next]
  | finished => simp [Closing.remaining, Run, hc]

theorem handlerCommits_remaining (es : List Event) (closing : Closing) :
    handlerCommits (es ++ closing.remaining) = handlerCommits es := by
  rw [handlerCommits, List.foldl_append]
  cases closing <;> rfl

/-- The handler has something left to do: it is queued, or a wait for it is about to be started, or
it is past its poll. -/
def HandlerPending (es : List Event) (st : Stream) : Prop :=
  st.work = .expired ∨
    st.work = .committing ∧ (st.needTimer = true ∨ handlerCommits es = true)

/-- From there the run goes on to the end of `on_close` and then to the handler. -/
theorem pending_handler_acts (server : Http2Server) (st : Stream) (es : List Event)
    (hclosing : st.closing ≠ .pending) (hpending : HandlerPending es st) :
    ∃ rest, (stream server).Run st (st.closing.remaining ++ rest) ∧
      ((stream server).after st st.closing.remaining).closing = .finished ∧
      HandlerActs (es ++ st.closing.remaining) rest := by
  obtain ⟨hrun, hfin, hw, hneed⟩ := run_remaining server st hclosing
  rcases hpending with hexpired | ⟨hcommitting, hneeded | hhandler⟩
  · refine ⟨[.timerHandler 0], run_append.mpr ⟨hrun, ?_⟩, hfin, [], _, [], rfl, trivial⟩
    exact ⟨hw.trans hexpired, trivial⟩
  · refine ⟨[.commit, .timerExpires, .timerHandler 0], run_append.mpr ⟨hrun, ?_⟩, hfin,
      [.commit, .timerExpires], _, [], rfl, trivial⟩
    have hw' := hw.trans hcommitting
    have hneed' := hneed.trans hneeded
    generalize (stream server).after st st.closing.remaining = st' at hw' hneed'
    simp [Run, stream, Stream.Enabled, work_next, hw', hneed']
  · refine ⟨[.commit], run_append.mpr ⟨hrun, hw.trans hcommitting, trivial⟩, hfin, [], _, [], rfl,
      ?_⟩
    rw [ByExpiryHandler, List.append_nil, handlerCommits_remaining]
    exact hhandler

/-- A step that misses leaves a handler with something to do. -/
theorem missed_pending {server : Http2Server} {st : Stream} {es : List Event} {e : Event}
    (h : Timed es st) (hen : st.Enabled e) (hmiss : ¬CancelsInTime server st e) :
    (st.next server e).closing ≠ .pending ∧ HandlerPending (es ++ [e]) (st.next server e) := by
  rw [HandlerPending, closing_next, work_next, needTimer_next, handlerCommits_snoc]
  cases e with
  | cancelTimer errorCode =>
    simp only [CancelsInTime, not_and_or, not_not, Classical.not_imp] at hmiss
    refine ⟨by simp, ?_⟩
    rcases hmiss with hw | ⟨hw, htimer⟩
    · exact Or.inl (by simp [hw])
    · refine Or.inr ⟨by simp [hw], ?_⟩
      -- a timer that the worker does not need is a handler's
      by_contra! hneither
      have hneed := h.worker hw (by simpa using hneither.2)
      rw [Option.isSome_iff_ne_none.mpr htimer] at hneed
      exact hneither.1 hneed.symm
  | provision answer =>
    simp only [CancelsInTime, Classical.not_imp, not_not] at hmiss
    exact ⟨hmiss.1, Or.inr ⟨rfl, Or.inl (if_pos hmiss.2)⟩⟩
  | _ => exact absurd trivial hmiss

/-- Whenever a step misses, the run can go on to the end of `on_close` and then to an expiry handler
that polls the closed stream or goes on to commit. -/
theorem missed_cancel_acts (server : Http2Server) (req : Request) (es : List Event) (e : Event)
    (hrun : (stream server).Run (.start req) (es ++ [e]))
    (hmiss : ¬CancelsInTime server ((stream server).after (.start req) es) e) :
    ∃ before rest, (stream server).Run (.start req) (es ++ [e] ++ before ++ rest) ∧
      ((stream server).after (.start req) (es ++ [e] ++ before)).closing = .finished ∧
      HandlerActs (es ++ [e] ++ before) rest := by
  obtain ⟨hes, hen⟩ := along_snoc.mp hrun
  obtain ⟨hclosing, hpending⟩ := missed_pending (timed_run hes) hen hmiss
  obtain ⟨rest, hrest, hfin, hacts⟩ := pending_handler_acts server _ _ hclosing hpending
  have hstep : (stream server).after (.start req) (es ++ [e]) =
      ((stream server).after (.start req) es).next server e := after_append
  refine ⟨_, rest, ?_, ?_, hacts⟩
  · rw [List.append_assoc (es ++ [e]), run_append, hstep]
    exact ⟨hrun, hrest⟩
  · rw [after_append, hstep]
    exact hfin

end Http2Comm.Server
