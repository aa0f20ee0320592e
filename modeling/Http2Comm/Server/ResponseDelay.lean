import Http2Comm.Server.Stream

/-!
# Delayed responses

A response is delayed by a mutual recursion with no loop in sight: `commit` starts a wait when
`need_timer_` is set, the expiry handler polls `responseDelayMs`, sets `need_timer_` from the
answer and calls `commit` again. `reception` enters it in one of two ways, with the delay that
`receive` asked for or with the answer of a first poll.

What the recursion computes is read off two lists, the polls and the waits of a stream. For a
delay `D` of `receive` and answers `d 0, d 1, …` whose first non-positive one is `d k`, a server
with a timers `io_context` has, when it posts the response handler,

```
polls = d 0, …, d k        waits = D (if not 0), d 0, …, d (k - 1)
```

and a server without one has no waits. `OnSchedule` is the invariant that carries this through
the recursion, one clause for each position of the answering party; `remaining` counts the
statements still to run, so that a run cannot go round forever.
-/

set_option autoImplicit false

namespace Http2Comm.Server

open Lib Lib.Machine

/-! ## The script -/

/-- The waits that `m` positive answers lead to. -/
def scheduled (D : Nat) (d : Nat → Int) (m : Nat) : List Int :=
  (if D ≠ 0 then [(D : Int)] else []) ++ (List.range m).map d

theorem scheduled_succ (D : Nat) (d : Nat → Int) (m : Nat) :
    scheduled D d m ++ [d m] = scheduled D d (m + 1) := by
  simp [scheduled, List.range_succ]

/-- How many polls precede the post. -/
def pollsBeforePost (server : Http2Server) (D k : Nat) : Nat :=
  if server.timersIoContext then k + 1 else if D ≠ 0 then 0 else 1

/-- The waits that precede the post. -/
def waitsBeforePost (server : Http2Server) (D : Nat) (d : Nat → Int) (k : Nat) : List Int :=
  if server.timersIoContext then scheduled D d k else []

/-- The surroundings follow a script: reception computes the response `R` and the delay `D`, the
poll number `i` answers `d i`, and the stream is not closed before its response is written. -/
def Scripted (server : Http2Server) (R : Response) (D : Nat) (d : Nat → Int) (st : Stream) :
    Event → Prop
  | .process now busyConsumers queueSize a =>
    let r := st.reception server now (server.congestion busyConsumers queueSize) a
    r.response = R ∧ r.responseDelayMs = D
  | .provision answer => st.responseDelayMs = 0 → answer = d (polls st.effects).length
  | .timerHandler answer => answer = d (polls st.effects).length
  | .cancelTimer _ => st.work = .finished
  | _ => True

instance (server : Http2Server) (R : Response) (D : Nat) (d : Nat → Int) (st : Stream)
    (e : Event) : Decidable (Scripted server R D d st e) :=
  match e with
  | .process .. => inferInstanceAs (Decidable (_ ∧ _))
  | .provision _ => inferInstanceAs (Decidable (_ → _))
  | .timerHandler _ => inferInstanceAs (Decidable (_ = d _))
  | .cancelTimer _ => inferInstanceAs (Decidable (st.work = _))
  | .data .. | .endOfRequest _ | .commit | .timerExpires | .timerAborted | .post | .respond
  | .mark _ | .notify _ => isTrue trivial

/-- The events of the party that answers. -/
def Event.isAnswering : Event → Bool
  | .process .. | .provision _ | .commit | .timerExpires | .timerHandler _ | .timerAborted
  | .post | .respond => true
  | _ => false

/-! ## The invariant -/

/-- Nothing is posted yet: `n` polls and the waits `ws` so far. -/
structure Unposted (R : Response) (d : Nat → Int) (n : Nat) (ws : List Int) (st : Stream) :
    Prop where
  polled : polls st.effects = (List.range n).map d
  waited : waits st.effects = ws
  noPost : .post ∉ st.effects
  noCall : st.responseCalls = []
  response : st.response = R

/-- The one post, what precedes it and what follows it. -/
structure Answered (server : Http2Server) (D : Nat) (d : Nat → Int) (k : Nat)
    (calls before rest : List Effect) : Prop where
  polled : polls before = (List.range (pollsBeforePost server D k)).map d
  waited : waits before = waitsBeforePost server D d k
  once : .post ∉ before ∧ .post ∉ rest
  noCall : before.filter Effect.isResponseCall = []
  noPoll : polls rest = []
  noWait : waits rest = []
  called : rest.filter Effect.isResponseCall = calls

/-- `on_close` has not started. -/
def Stream.IsOpen (st : Stream) : Prop :=
  st.closing = .pending ∧ st.closed = false ∧ st.error = false

/-- Where the answering party is says how far the script has been played. -/
def OnSchedule (server : Http2Server) (R : Response) (D : Nat) (d : Nat → Int) (k : Nat)
    (st : Stream) : Prop :=
  match st.work with
  | .receiving | .queued => st.IsOpen ∧ st.needTimer = false ∧ st.effects = []
  | .provisioning =>
    st.IsOpen ∧ st.needTimer = false ∧ st.responseDelayMs = D ∧ Unposted R d 0 [] st
  | .committing =>
    st.IsOpen ∧
      ((st.needTimer = true ∧ server.timersIoContext = true ∧ ∃ n ws, n ≤ k ∧
          Unposted R d n ws st ∧ ws ++ [st.timer.getD 0] = scheduled D d n) ∨
        (st.needTimer = false ∧
          Unposted R d (pollsBeforePost server D k) (waitsBeforePost server D d k) st))
  | .armed | .expired =>
    st.IsOpen ∧ server.timersIoContext = true ∧
      ∃ n, n ≤ k ∧ Unposted R d n (scheduled D d n) st
  | .posting =>
    st.IsOpen ∧ Unposted R d (pollsBeforePost server D k) (waitsBeforePost server D d k) st
  | .posted =>
    st.IsOpen ∧ st.response = R ∧
      ∃ before rest, st.effects = before ++ .post :: rest ∧
        Answered server D d k [] before rest
  | .finished =>
    ∃ before rest, st.effects = before ++ .post :: rest ∧
      Answered server D d k R.written before rest
  | .aborted => False

section schedule

variable {server : Http2Server} {R : Response} {D : Nat} {d : Nat → Int} {k : Nat}
variable {st st' : Stream}

/-- A poll answers the next element of the script. -/
theorem Unposted.poll {n : Nat} {ws : List Int} (h : Unposted R d n ws st) {id : Nat}
    {answer : Int} (hanswer : answer = d (polls st.effects).length)
    (heff : st'.effects = st.effects ++ [.responseDelayMs id answer])
    (hresp : st'.response = st.response) : Unposted R d (n + 1) ws st' where
  polled := by
    rw [heff, polls_append, hanswer, h.polled]
    simp [polls, List.range_succ]
  waited := by
    rw [heff, waits_append, h.waited]
    simp [waits]
  noPost := by simp [heff, h.noPost]
  noCall := by
    rw [responseCalls_append heff, h.noCall]
    rfl
  response := hresp.trans h.response

/-- A wait is started. -/
theorem Unposted.wait {n : Nat} {ws : List Int} (h : Unposted R d n ws st) {ms : Int}
    (heff : st'.effects = st.effects ++ [.asyncWait ms])
    (hresp : st'.response = st.response) : Unposted R d n (ws ++ [ms]) st' where
  polled := by
    rw [heff, polls_append, h.polled]
    simp [polls]
  waited := by
    rw [heff, waits_append, h.waited]
    rfl
  noPost := by simp [heff, h.noPost]
  noCall := by
    rw [responseCalls_append heff, h.noCall]
    rfl
  response := hresp.trans h.response

/-- Statements without effects. -/
theorem Unposted.same {n : Nat} {ws : List Int} (h : Unposted R d n ws st)
    (heff : st'.effects = st.effects) (hresp : st'.response = st.response) :
    Unposted R d n ws st' where
  polled := by rw [heff, h.polled]
  waited := by rw [heff, h.waited]
  noPost := by rw [heff]; exact h.noPost
  noCall := by rw [Stream.responseCalls, heff]; exact h.noCall
  response := hresp.trans h.response

theorem Unposted.length_polls {n : Nat} {ws : List Int} (h : Unposted R d n ws st) :
    (polls st.effects).length = n := by
  rw [h.polled]
  simp

theorem Unposted.answered
    (h : Unposted R d (pollsBeforePost server D k) (waitsBeforePost server D d k) st) :
    Answered server D d k [] st.effects [] where
  polled := h.polled
  waited := h.waited
  once := ⟨h.noPost, by simp⟩
  noCall := h.noCall
  noPoll := rfl
  noWait := rfl
  called := rfl

theorem Answered.append {calls cs before rest es : List Effect}
    (h : Answered server D d k calls before rest) (hpost : .post ∉ es) (hpolls : polls es = [])
    (hwaits : waits es = []) (hcalls : es.filter Effect.isResponseCall = cs) :
    Answered server D d k (calls ++ cs) before (rest ++ es) where
  polled := h.polled
  waited := h.waited
  once := ⟨h.once.1, by simp [h.once.2, hpost]⟩
  noCall := h.noCall
  noPoll := by rw [polls_append, h.noPoll, hpolls]; rfl
  noWait := by rw [waits_append, h.noWait, hwaits]; rfl
  called := by rw [List.filter_append, h.called, hcalls]

/-- Neutral effects leave the account of an answered stream as it is. -/
theorem Answered.neutral {calls before rest es : List Effect}
    (h : Answered server D d k calls before rest) (hes : ∀ e ∈ es, e.isNeutral = true) :
    Answered server D d k calls before (rest ++ es) := by
  obtain ⟨hpolls, hwaits, hpost, hcalls⟩ := observations_of_neutral hes
  simpa using h.append hpost hpolls hwaits hcalls

/-! ## One step, for each position of the answering party -/

theorem onSchedule_process (h : OnSchedule server R D d k st) (hw : st.work = .queued)
    (now : Int) (busyConsumers : Bool) (queueSize : Int) (a : Answers)
    (hs : Scripted server R D d st (.process now busyConsumers queueSize a)) :
    OnSchedule server R D d k (st.next server (.process now busyConsumers queueSize a)) := by
  simp only [OnSchedule, hw] at h
  obtain ⟨hopen, htimer, heffects⟩ := h
  obtain ⟨hpolls, hwaits, hpost, hcalls⟩ := observations_of_neutral
    (reception_neutral server st now (server.congestion busyConsumers queueSize) a)
  refine ⟨hopen, htimer, hs.2, ?_⟩
  exact
    { polled := by simpa [Stream.next, heffects] using hpolls
      waited := by simpa [Stream.next, heffects] using hwaits
      noPost := by simpa [Stream.next, heffects] using hpost
      noCall := by simpa [Stream.next, Stream.responseCalls, heffects] using hcalls
      response := hs.1 }

theorem onSchedule_provision (hpos : ∀ i < k, 0 < d i) (hk : d k ≤ 0)
    (h : OnSchedule server R D d k st) (hw : st.work = .provisioning) (answer : Int)
    (hs : Scripted server R D d st (.provision answer)) :
    OnSchedule server R D d k (st.next server (.provision answer)) := by
  simp only [OnSchedule, hw] at h
  obtain ⟨hopen, htimer, hdelay, hun⟩ := h
  simp only [Stream.next, Stream.provisionDelay, OnSchedule]
  by_cases hD : D = 0
  · -- no delay of `receive`: the first poll decides
    have hanswer : answer = d 0 := by simpa [hun.length_polls] using hs (hdelay.trans hD)
    subst hanswer
    simp only [hdelay, hD, ne_eq, not_true_eq_false, if_false]
    split_ifs with hc
    · refine ⟨hopen, Or.inl ⟨rfl, hc.2, 1, [], ?_, ?_, ?_⟩⟩
      · rcases Nat.eq_zero_or_pos k with rfl | hk'
        · omega
        · exact hk'
      · exact hun.poll (by simp [hun.length_polls]) rfl rfl
      · simp [scheduled, List.range_one]
    · refine ⟨hopen, Or.inr ⟨htimer, ?_⟩⟩
      have hpolled : Unposted R d 1 [] { st.emit [.responseDelayMs st.receptionId (d 0)] with
          work := .committing } := hun.poll (by simp [hun.length_polls]) rfl rfl
      by_cases ht : server.timersIoContext = true
      · -- the first answer is the first non-positive one
        have hk0 : k = 0 := by
          by_contra hne
          exact hc ⟨hpos 0 (by omega), ht⟩
        subst hk0
        simpa [pollsBeforePost, waitsBeforePost, ht, scheduled] using hpolled
      · simpa [pollsBeforePost, waitsBeforePost, ht] using hpolled
  · simp only [hdelay, hD, ne_eq, not_false_eq_true, if_true]
    split_ifs with ht
    · refine ⟨hopen, Or.inl ⟨rfl, ht, 0, [], Nat.zero_le k, hun.same rfl rfl, ?_⟩⟩
      simp [scheduled, hD]
    · refine ⟨hopen, Or.inr ⟨htimer, ?_⟩⟩
      have hsame : Unposted R d 0 [] { st with work := .committing } := hun.same rfl rfl
      simpa [pollsBeforePost, waitsBeforePost, ht, hD] using hsame

theorem onSchedule_commit (h : OnSchedule server R D d k st) (hw : st.work = .committing) :
    OnSchedule server R D d k (st.next server .commit) := by
  simp only [OnSchedule, hw] at h
  obtain ⟨hopen, ⟨htimer, ht, n, ws, hn, hun, hws⟩ | ⟨htimer, hun⟩⟩ := h
  · simp only [Stream.next, Stream.commit, htimer, if_true, OnSchedule]
    refine ⟨hopen, ht, n, hn, ?_⟩
    rw [← hws]
    exact hun.wait rfl rfl
  · simp only [Stream.next, Stream.commit, htimer, hopen.2.2, OnSchedule, Bool.false_eq_true,
      if_false]
    exact ⟨⟨hopen.1, hopen.2.1, rfl⟩, hun.same rfl rfl⟩

theorem onSchedule_timerHandler (hpos : ∀ i < k, 0 < d i) (hk : d k ≤ 0)
    (h : OnSchedule server R D d k st) (hw : st.work = .expired) (answer : Int)
    (hs : Scripted server R D d st (.timerHandler answer)) :
    OnSchedule server R D d k (st.next server (.timerHandler answer)) := by
  simp only [OnSchedule, hw] at h
  obtain ⟨hopen, ht, n, hn, hun⟩ := h
  have hanswer : answer = d n := by simpa [Scripted, hun.length_polls] using hs
  subst hanswer
  simp only [Stream.next, Stream.timerHandler, OnSchedule]
  split_ifs with hc
  · -- a positive answer: one more wait
    have hlt : n < k := by
      refine Nat.lt_of_le_of_ne hn ?_
      rintro rfl
      omega
    exact ⟨hopen, Or.inl ⟨rfl, ht, n + 1, _, hlt,
      hun.poll (by rw [hun.length_polls]) rfl rfl, scheduled_succ D d n⟩⟩
  · -- the first non-positive answer
    have hnk : n = k := by
      by_contra hne
      exact hc (hpos n (by omega))
    subst hnk
    refine ⟨hopen, Or.inr ⟨rfl, ?_⟩⟩
    simp only [pollsBeforePost, waitsBeforePost, ht, if_true]
    exact hun.poll (by rw [hun.length_polls]) rfl rfl

theorem onSchedule_respond (h : OnSchedule server R D d k st) (hw : st.work = .posted) :
    OnSchedule server R D d k (st.next server .respond) := by
  simp only [OnSchedule, hw] at h
  obtain ⟨hopen, hresp, before, rest, heff, hans⟩ := h
  simp only [Stream.next, Stream.respond, hopen.2.1, OnSchedule, Bool.false_eq_true, if_false]
  refine ⟨before, rest ++ R.written, by simp [heff, hresp], ?_⟩
  have hwritten : .post ∉ R.written ∧ polls R.written = [] ∧ waits R.written = [] ∧
      R.written.filter Effect.isResponseCall = R.written := by
    unfold Response.written
    split <;> simp [polls, waits, Effect.isResponseCall]
  simpa using hans.append hwritten.1 hwritten.2.1 hwritten.2.2.1 hwritten.2.2.2

/-- Once `on_close` has started, the stream is answered. -/
theorem OnSchedule.finished (h : OnSchedule server R D d k st) (hc : st.closing ≠ .pending) :
    st.work = .finished := by
  cases hw : st.work <;> simp only [OnSchedule, hw] at h
  case finished => rfl
  all_goals exact absurd h.1.1 hc

/-- **One step keeps the schedule.** -/
theorem onSchedule_step (hpos : ∀ i < k, 0 < d i) (hk : d k ≤ 0) (st : Stream) (e : Event)
    (h : OnSchedule server R D d k st) (he : st.Enabled e ∧ Scripted server R D d st e) :
    OnSchedule server R D d k (st.next server e) := by
  obtain ⟨hen, hs⟩ := he
  cases e with
  | data chunk receiveDataLen preReserve =>
    simp only [OnSchedule, hen.2.1] at h
    simp only [Stream.next]
    split <;> simpa only [OnSchedule, hen.2.1, Stream.IsOpen] using h
  | endOfRequest receptionId =>
    simp only [OnSchedule, hen.1] at h
    exact h
  | process now busyConsumers queueSize a => exact onSchedule_process h hen _ _ _ _ hs
  | provision answer => exact onSchedule_provision hpos hk h hen answer hs
  | commit => exact onSchedule_commit h hen
  | timerExpires =>
    simp only [OnSchedule, show st.work = .armed from hen] at h
    exact ⟨h.1, h.2.1, h.2.2.imp fun n hn => ⟨hn.1, hn.2.same rfl rfl⟩⟩
  | timerHandler answer => exact onSchedule_timerHandler hpos hk h hen answer hs
  | timerAborted => simp [OnSchedule, show st.work = .aborted from hen] at h
  | post =>
    simp only [OnSchedule, show st.work = .posting from hen] at h
    exact ⟨h.1, h.2.response, st.effects, [], rfl, h.2.answered⟩
  | respond => exact onSchedule_respond h hen
  | cancelTimer errorCode =>
    have hw : st.work = .finished := hs
    simp only [OnSchedule, hw] at h
    simpa [OnSchedule, Stream.next, Stream.cancelTimer, hw] using h
  | mark now =>
    have hw := h.finished (by rw [show st.closing = .timerCancelled from hen]; simp)
    simp only [OnSchedule, hw] at h
    obtain ⟨before, rest, heff, hans⟩ := h
    have hwork : (st.next server (.mark now)).work = .finished := (work_next ..).trans hw
    simp only [OnSchedule, hwork, effects_next, heff, List.append_assoc, List.cons_append]
    refine ⟨before, _, rfl, hans.neutral ?_⟩
    simp only [Stream.emits]
    split <;> exact updateMetrics_neutral _ _ _ _
  | notify counter =>
    have hw := h.finished (by rw [show st.closing = .marked from hen]; simp)
    simp only [OnSchedule, hw] at h
    obtain ⟨before, rest, heff, hans⟩ := h
    have hwork : (st.next server (.notify counter)).work = .finished := (work_next ..).trans hw
    simp only [OnSchedule, hwork, effects_next, heff, List.append_assoc, List.cons_append]
    refine ⟨before, _, rfl, hans.neutral ?_⟩
    simp only [Stream.emits]
    split <;> simp [Effect.isNeutral]

/-! ## How long the answering party runs -/

/-- The statements of the answering party still to run: three for each poll to come (`commit`,
the expiry, its handler) and the ones around them. -/
def remaining (k : Nat) (st : Stream) : Nat :=
  let toPoll := k - (polls st.effects).length
  match st.work with
  | .receiving | .queued => 3 * k + 8
  | .provisioning => 3 * k + 7
  | .committing => if st.needTimer then 3 * toPoll + 6 else 3
  | .armed => 3 * toPoll + 5
  | .expired => 3 * toPoll + 4
  | .posting => 2
  | .posted => 1
  | .aborted | .finished => 0

theorem remaining_provision (hpos : ∀ i < k, 0 < d i) (hk : d k ≤ 0)
    (h : OnSchedule server R D d k st) (hw : st.work = .provisioning) (answer : Int)
    (hs : Scripted server R D d st (.provision answer)) :
    remaining k (st.next server (.provision answer)) < remaining k st := by
  have hafter := onSchedule_provision hpos hk h hw answer hs
  have hwork : (st.next server (.provision answer)).work = .committing := work_next ..
  simp only [OnSchedule, hwork] at hafter
  simp only [remaining, hw, hwork]
  split <;> omega

theorem remaining_timerHandler (hpos : ∀ i < k, 0 < d i) (hk : d k ≤ 0)
    (h : OnSchedule server R D d k st) (hw : st.work = .expired) (answer : Int)
    (hs : Scripted server R D d st (.timerHandler answer)) :
    remaining k (st.next server (.timerHandler answer)) < remaining k st := by
  have hwork : (st.next server (.timerHandler answer)).work = .committing := work_next ..
  have hpolls : (polls (st.next server (.timerHandler answer)).effects).length
      = (polls st.effects).length + 1 := by
    rw [effects_next, polls_append]
    simp [Stream.emits, polls]
  simp only [OnSchedule, hw] at h
  obtain ⟨-, -, n, hn, hun⟩ := h
  -- one poll more, so one poll fewer to come: the answer to poll `n` is positive only if `n < k`
  have hanswer : answer = d n := by simpa [Scripted, hun.length_polls] using hs
  simp only [remaining, hw, hwork, hpolls, hun.length_polls]
  split_ifs with hneed
  · -- the answer was positive, so it is not the last one
    have hanswerPos : 0 < answer := by
      by_contra hle
      simp [Stream.next, Stream.timerHandler, hle] at hneed
    have hlt : n < k := by
      refine Nat.lt_of_le_of_ne hn ?_
      rintro rfl
      omega
    omega
  · omega

/-- **Every statement of the answering party brings it nearer to its end**, and no other event
takes it back. -/
theorem remaining_step (hpos : ∀ i < k, 0 < d i) (hk : d k ≤ 0) (e : Event)
    (h : OnSchedule server R D d k st) (he : st.Enabled e ∧ Scripted server R D d st e) :
    remaining k (st.next server e) + (if e.isAnswering then 1 else 0) ≤ remaining k st := by
  obtain ⟨hen, hs⟩ := he
  cases e with
  | data chunk receiveDataLen preReserve =>
    simp only [Stream.next]
    split <;> simp [remaining, Event.isAnswering, hen.2.1]
  | endOfRequest receptionId => simp [remaining, Event.isAnswering, Stream.next, hen.1]
  | process now busyConsumers queueSize a =>
    simp [remaining, Event.isAnswering, Stream.next, show st.work = .queued from hen]
  | provision answer => exact remaining_provision hpos hk h hen answer hs
  | commit =>
    have hw : st.work = .committing := hen
    have hwork : (st.next server .commit).work =
        if st.needTimer then .armed else if st.error then .finished else .posting := work_next ..
    have hpolls : polls (st.next server .commit).effects = polls st.effects := by
      rw [effects_next, polls_append]
      simp only [Stream.emits]
      split <;> simp [polls]
    simp only [OnSchedule, hw] at h
    obtain ⟨hopen, ⟨htimer, -⟩ | ⟨htimer, -⟩⟩ := h
    · simp only [remaining, hwork, hw, htimer, hpolls, Event.isAnswering, if_true]
      omega
    · simp only [remaining, hwork, hw, htimer, hopen.2.2, Event.isAnswering, if_true,
        Bool.false_eq_true, if_false]
      omega
  | timerExpires =>
    simp [remaining, Event.isAnswering, Stream.next, show st.work = .armed from hen]
  | timerHandler answer => exact remaining_timerHandler hpos hk h hen answer hs
  | timerAborted => simp [OnSchedule, show st.work = .aborted from hen] at h
  | post => simp [remaining, Event.isAnswering, Stream.next, show st.work = .posting from hen]
  | respond =>
    have hwork : (st.next server .respond).work = .finished := work_next ..
    simp [remaining, Event.isAnswering, hwork, show st.work = .posted from hen]
  | cancelTimer errorCode =>
    simp [remaining, Event.isAnswering, Stream.next, Stream.cancelTimer,
      show st.work = .finished from hs]
  | mark now =>
    have hw := h.finished (by rw [show st.closing = .timerCancelled from hen]; simp)
    have hwork : (st.next server (.mark now)).work = .finished := (work_next ..).trans hw
    simp [remaining, Event.isAnswering, hwork]
  | notify counter =>
    have hw := h.finished (by rw [show st.closing = .marked from hen]; simp)
    have hwork : (st.next server (.notify counter)).work = .finished := (work_next ..).trans hw
    simp [remaining, Event.isAnswering, hwork]

end schedule

/-! ## Whole runs -/

section runs

variable {server : Http2Server} {req : Request} {R : Response} {D : Nat} {d : Nat → Int} {k : Nat}
variable {es : List Event}

theorem onSchedule_start : OnSchedule server R D d k (.start req) :=
  ⟨⟨rfl, rfl, rfl⟩, rfl, rfl⟩

theorem onSchedule_run (hpos : ∀ i < k, 0 < d i) (hk : d k ≤ 0)
    (hrun : (stream server).Run (.start req) es)
    (hscript : (stream server).Along (Scripted server R D d) (.start req) es) :
    OnSchedule server R D d k ((stream server).after (.start req) es) :=
  invariant_along (fun st e => onSchedule_step hpos hk st e) onSchedule_start
    (hrun.and hscript)

/-- The answering party runs at most `3 * k + 8` statements. -/
theorem answering_bounded (hpos : ∀ i < k, 0 < d i) (hk : d k ≤ 0)
    (hrun : (stream server).Run (.start req) es)
    (hscript : (stream server).Along (Scripted server R D d) (.start req) es) :
    es.countP Event.isAnswering ≤ 3 * k + 8 := by
  have hcount : OnSchedule server R D d k ((stream server).after (.start req) es) ∧
      remaining k ((stream server).after (.start req) es) + es.countP Event.isAnswering
        ≤ 3 * k + 8 := by
    refine history (H := fun es st => OnSchedule server R D d k st ∧
      remaining k st + es.countP Event.isAnswering ≤ 3 * k + 8)
      ⟨onSchedule_start, by simp [remaining, Stream.start]⟩ ?_ (hrun.and hscript)
    rintro es e - ⟨hsched, hle⟩ he
    refine ⟨onSchedule_step hpos hk _ _ hsched he, ?_⟩
    have hstep := remaining_step hpos hk e hsched he
    rw [List.countP_append, List.countP_singleton]
    change remaining k (Stream.next server _ e) + _ ≤ _
    omega
  exact (Nat.le_add_left ..).trans hcount.2

/-- When no statement of the answering party can run, it has finished or the request is still
being received. -/
theorem work_of_stuck {st : Stream}
    (hstuck : ∀ e : Event, e.isAnswering = true → ¬st.Enabled e) :
    st.work = .receiving ∨ st.work = .finished := by
  cases hw : st.work with
  | receiving => exact Or.inl rfl
  | finished => exact Or.inr rfl
  | queued => exact absurd hw (hstuck (.process 0 false 0 acceptAll) rfl)
  | provisioning => exact absurd hw (hstuck (.provision 0) rfl)
  | committing => exact absurd hw (hstuck .commit rfl)
  | armed => exact absurd hw (hstuck .timerExpires rfl)
  | expired => exact absurd hw (hstuck (.timerHandler 0) rfl)
  | aborted => exact absurd hw (hstuck .timerAborted rfl)
  | posting => exact absurd hw (hstuck .post rfl)
  | posted => exact absurd hw (hstuck .respond rfl)

/-- Before the post the response is not called; after it, it has been called with nothing or with
what reception computed. -/
theorem OnSchedule.posted_or_silent {st : Stream} (h : OnSchedule server R D d k st) :
    (.post ∉ st.effects ∧ st.responseCalls = []) ∨
      ∃ before rest calls, st.effects = before ++ .post :: rest ∧
        Answered server D d k calls before rest ∧ (calls = [] ∨ calls = R.written) := by
  cases hw : st.work <;> simp only [OnSchedule, hw] at h
  case receiving | queued => exact Or.inl ⟨by simp [h.2.2], by simp [Stream.responseCalls, h.2.2]⟩
  case provisioning => exact Or.inl ⟨h.2.2.2.noPost, h.2.2.2.noCall⟩
  case committing =>
    obtain ⟨-, ⟨-, -, n, ws, -, hun, -⟩ | ⟨-, hun⟩⟩ := h
    · exact Or.inl ⟨hun.noPost, hun.noCall⟩
    · exact Or.inl ⟨hun.noPost, hun.noCall⟩
  case armed | expired =>
    obtain ⟨-, -, n, -, hun⟩ := h
    exact Or.inl ⟨hun.noPost, hun.noCall⟩
  case posting => exact Or.inl ⟨h.2.noPost, h.2.noCall⟩
  case posted =>
    obtain ⟨-, -, before, rest, heff, hans⟩ := h
    exact Or.inr ⟨before, rest, [], heff, hans, Or.inl rfl⟩
  case finished =>
    obtain ⟨before, rest, heff, hans⟩ := h
    exact Or.inr ⟨before, rest, R.written, heff, hans, Or.inr rfl⟩

/-- **Exactly one response, after exactly the asked delay.** In every state of a scripted run
the response handler has been posted at most once, and if so after exactly the polls and waits
of the script; the response is called by nothing else, and with exactly what reception computed.
The answering party runs at most `3 * k + 8` statements, and where none is left the handler has
been posted and has run. -/
theorem response_posted_once (hpos : ∀ i < k, 0 < d i) (hk : d k ≤ 0)
    (hrun : (stream server).Run (.start req) es)
    (hscript : (stream server).Along (Scripted server R D d) (.start req) es) :
    let st := (stream server).after (.start req) es
    ((.post ∉ st.effects ∧ st.responseCalls = []) ∨
      ∃ before rest calls, st.effects = before ++ .post :: rest ∧
        Answered server D d k calls before rest ∧ (calls = [] ∨ calls = R.written)) ∧
    es.countP Event.isAnswering ≤ 3 * k + 8 ∧
    (st.work ≠ .receiving → (∀ e : Event, e.isAnswering = true → ¬st.Enabled e) →
      ∃ before rest, st.effects = before ++ .post :: rest ∧
        Answered server D d k R.written before rest) := by
  intro st
  have hsched : OnSchedule server R D d k st := onSchedule_run hpos hk hrun hscript
  refine ⟨hsched.posted_or_silent, answering_bounded hpos hk hrun hscript, ?_⟩
  intro hended hstuck
  have hw := (work_of_stuck hstuck).resolve_left hended
  simpa only [OnSchedule, hw] using hsched

end runs

/-- A response `204` that `receive` delays by 5 ms and the first poll by 3 ms more. -/
def delayedEvents : List Event :=
  [.endOfRequest 1,
    .process 0 false 0 { acceptAll with receive := fun _ => ({ statusCode := 204 }, 5) },
    .provision 0, .commit, .timerExpires, .timerHandler 3, .commit, .timerExpires,
    .timerHandler 0, .commit, .post, .respond]

theorem response_posted_once_delayed :
    ∃ before rest,
      ((stream { timersIoContext := true }).after (.start {}) delayedEvents).effects
        = before ++ .post :: rest ∧
      Answered { timersIoContext := true } 5 (fun n => if n = 0 then 3 else 0) 1
        [.writeHead 204 [], .endResponse []] before rest := by
  refine (response_posted_once (R := { statusCode := 204 }) (by decide) (by decide)
    (by decide) (by decide)).2.2 (by decide) ?_
  intro e hanswering hen
  have hw : ((stream { timersIoContext := true }).after (.start {}) delayedEvents).work
      = .finished := by decide
  cases e <;> simp_all [Stream.Enabled, Event.isAnswering]

end Http2Comm.Server
