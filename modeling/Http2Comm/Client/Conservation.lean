import Http2Comm.Client.Placed
import Mathlib.Data.List.Perm.Basic

/-!
# No request is lost

A running client is a run of the threads alone and a run of the requests alone
(`running_projects`), so what is proved of either machine holds of the client, and the counters that
the threads' machine keeps of its work are the numbers of the calls and requests that are there.

Together with the places that says where every call is: the calls made so far are those whose delay
is running, those whose request has begun and those that a failed delay timer has dropped, each once
(`calls_kept`); a request is in the hands of one thread, or in the queue once, or in the submit
handler, or it has had its callback or has a timer that will bring it (`request_held`). A client
that has nothing left to do has therefore answered every call that was not dropped, and once
(`quiet_answered`).
-/

set_option autoImplicit false

namespace Http2Comm.Client

open Lib Lib.Machine
open scoped List

/-! ## The requests of a running client -/

/-- What the requests see of a run. -/
def requestEvents (client : Http2Client) (closedCallbackSet : Bool) (es : List RunningEvent) :
    List (PoolEvent (Call × Request) Event) :=
  (running client).seen Running.requestEvent (.start closedCallbackSet) es

/-- What the threads see of a run. -/
def threadEvents (client : Http2Client) (closedCallbackSet : Bool) (es : List RunningEvent) :
    List ClientEvent :=
  (running client).seen (Running.threadEvent client) (.start closedCallbackSet) es

section requests

variable {client : Http2Client} {r : Running} {closedCallbackSet : Bool} {es : List RunningEvent}

theorem exists_of_phase {i : Nat} {p : Phase} (h : r.phase i = some p) :
    ∃ s, r.requests[i]? = some s ∧ s.2.phase = p :=
  Option.map_eq_some_iff.mp h

/-- What an event of the client is to a request can happen to it. -/
theorem enabled_requestEvent {e : RunningEvent} {e' : PoolEvent (Call × Request) Event}
    (h : Placed r) (hen : r.Enabled e) (hevent : r.requestEvent e = some e') :
    (requests client).Enabled r.requests e' := by
  cases e with
  | asyncSend t call sendDelayMs =>
    simp only [Running.requestEvent] at hevent
    split at hevent
    · simp at hevent
    · obtain rfl := Option.some.inj hevent
      rfl
  | expire k =>
    obtain ⟨call, -, rfl⟩ := Option.map_eq_some_iff.mp hevent
    rfl
  | startTimer =>
    obtain ⟨i, hi, rfl⟩ := Option.map_eq_some_iff.mp hevent
    have hposted : r.phase i = some .posted := by
      by_contra hno
      have hcount := h.posted i
      rw [if_neg hno, List.count_eq_zero] at hcount
      exact hcount (List.mem_of_head? hi)
    exact exists_of_phase hposted
  | submit now attempt =>
    simp only [Running.requestEvent] at hevent
    split at hevent
    · obtain ⟨⟨i, o⟩, hi, rfl⟩ := Option.map_eq_some_iff.mp hevent
      exact exists_of_phase ((h.submitting i).mpr ⟨o, hi⟩)
    · simp at hevent
  | step t =>
    simp only [Running.requestEvent] at hevent
    split at hevent
    · next hi =>
      obtain rfl := Option.some.inj hevent
      exact exists_of_phase ((h.created _).mpr ⟨t, sends_of_current hi⟩)
    · next hi =>
      split at hevent
      · simp at hevent
      · obtain rfl := Option.some.inj hevent
        exact exists_of_phase ((h.created _).mpr ⟨t, sends_of_current hi⟩)
    · next hi =>
      obtain rfl := Option.some.inj hevent
      obtain ⟨now, isConnected, hasSession, attempt, rfl, -⟩ := h.failing _ _ hi
      exact exists_of_phase ((h.submitting _).mpr ⟨_, hi⟩)
    · simp at hevent
  | timerExpires i =>
    obtain rfl := Option.some.inj hevent
    exact hen
  | handle i e =>
    obtain rfl := Option.some.inj hevent
    exact hen.2.2
  | _ => simp [Running.requestEvent] at hevent

/-- The requests of a client run as the requests alone. -/
theorem requests_run (hrun : (running client).Run (.start closedCallbackSet) es) :
    (requests client).Run [] (requestEvents client closedCallbackSet es) ∧
      ((running client).after (.start closedCallbackSet) es).requests =
        (requests client).after [] (requestEvents client closedCallbackSet es) :=
  stutter (g := Running.requests)
    (fun _ _ _ hprefix hen hevent =>
      ⟨enabled_requestEvent (placed_run hprefix) hen hevent, requests_next_some hevent⟩)
    (fun _ _ _ _ hevent => requests_next_none hevent) hrun

/-- A request whose submit handler has failed has had its callback. -/
theorem failed_invoked {call : Call} {es : List Event} (hrun : (request client call).Run {} es) :
    let rq := (request client call).after {} es
    rq.phase = .failed → rq.task.cbInvoked = true := by
  intro rq
  refine invariant (I := fun rq : Request => rq.phase = .failed → rq.task.cbInvoked = true) ?_
    (by simp) hrun
  intro rq e h hen hphase
  change (rq.next client call e).phase = _ at hphase
  change (rq.next client call e).task.cbInvoked = _
  rw [phase_next] at hphase
  rw [task_next]
  cases e with
  | asyncSend connected reconnected =>
    simp only at hphase
    split at hphase <;> simp at hphase
  | submit now isConnected hasSession attempt =>
    simp only at hphase ⊢
    split at hphase
    · simp at hphase
    · next hacc => simp [hacc]
  | startTimer => simp at hphase
  | onData chunk =>
    simp only
    split <;> simp [h hphase]
  | _ => simp [h hphase]

/-- What holds of every request of a running client. -/
structure Wellkept (rq : Request) : Prop where
  kept : Kept rq
  failed : rq.phase = .failed → rq.task.cbInvoked = true

theorem wellkept_run (hrun : (running client).Run (.start closedCallbackSet) es) :
    ∀ s ∈ ((running client).after (.start closedCallbackSet) es).requests, Wellkept s.2 := by
  rintro ⟨call, rq⟩ hs
  obtain ⟨hrequests, heq⟩ := requests_run hrun
  rw [heq] at hs
  obtain ⟨i, hi⟩ := List.mem_iff_getElem?.mp hs
  obtain ⟨halone, rfl⟩ := request_alone hrequests hi
  exact ⟨kept_run halone, failed_invoked halone⟩

end requests

/-! ## The counters -/

/-- A submitted request that has not called back. -/
def awaiting (s : Call × Request) : Bool :=
  decide (s.2.phase = .submitted) && !s.2.task.cbInvoked

/-- The submit handler runs and has not tried to submit. -/
def Running.atSubmit (r : Running) : Bool := r.submitting.any (·.2.isNone)

/-- The counters of the threads' machine are the numbers of what is there. -/
structure Tallied (r : Running) : Prop where
  delays : r.threads.delays = r.delayed.length
  posted : r.threads.posted = r.queue.length + if r.atSubmit then 1 else 0
  outstanding : r.threads.outstanding = r.requests.countP awaiting

section counters

variable {client : Http2Client} {r : Running} {t : Thread}

theorem newCallbacks_eq {rq rq' : Request} {responses : List Response}
    (h : callbacks rq'.effects = callbacks rq.effects ++ responses) :
    newCallbacks rq rq' = responses := by
  rw [newCallbacks, h, List.drop_left]

/-- A handler calls back exactly if its request awaited that. -/
theorem callsBack_handler (client : Http2Client) (call : Call) {rq : Request} {e : Event}
    (h : Wellkept rq) (he : e.isHandler = true) (hen : rq.Enabled e) :
    let rq' := rq.next client call e
    (newCallbacks rq rq' ≠ [] → awaiting (call, rq) = true ∧ awaiting (call, rq') = false) ∧
      (newCallbacks rq rq' = [] → awaiting (call, rq') = awaiting (call, rq)) := by
  intro rq'
  have hnew := newCallbacks_eq (callbacks_next client call rq e)
  have hphase : (rq.next client call e).phase = rq.phase := phase_isHandler he call rq
  simp only [awaiting, rq', hphase, task_next, hnew]
  cases e with
  | timerHandler =>
    obtain ⟨htimer, hsubmitting⟩ := hen
    have hearly := mt h.kept.early (by simp [htimer])
    have hfailed := h.failed
    have htimedOut := h.kept.timedOut
    cases hphase : rq.phase <;> cases hcb : rq.task.cbInvoked <;>
      cases hto : rq.task.timedOut <;> simp_all
  | onData chunk =>
    obtain ⟨hphase, hregistered⟩ := hen
    obtain ⟨res, hres⟩ := Option.isSome_iff_exists.mp hregistered
    by_cases hchunk : chunk = [] <;> cases hcb : rq.task.cbInvoked <;> simp_all
  | onClose errorCode =>
    have hphase : rq.phase = .submitted := hen
    have htimedOut := h.kept.timedOut
    cases hcb : rq.task.cbInvoked <;> cases hto : rq.task.timedOut <;> simp_all
  | timerAborted => simp
  | onResponse now res => simp
  | _ => simp [Event.isHandler] at he

/-- One request changes, and the number of those that satisfy `p` with it. -/
theorem countP_on {rs : List (Call × Request)} {i : Nat} {s : Call × Request}
    (hi : rs[i]? = some s) (e : Event) (p : Call × Request → Bool) :
    ((requests client).next rs (.on i e)).countP p + (if p s then 1 else 0) =
      rs.countP p + if p (s.1, s.2.next client s.1 e) then 1 else 0 := by
  change (rs.modify i fun s => (s.1, s.2.next client s.1 e)).countP p + _ = _
  induction rs generalizing i with
  | nil => simp at hi
  | cons s' rs ih =>
    cases i with
    | zero =>
      obtain rfl : s' = s := by simpa using hi
      simp only [List.modify_zero_cons, List.countP_cons]
      omega
    | succ i =>
      have hrest := ih (i := i) (by simpa using hi)
      simp only [List.modify_succ_cons, List.countP_cons]
      omega

/-- A request that did not await a callback, and does not, changes no number. -/
theorem countP_awaiting_on {rs : List (Call × Request)} {i : Nat} {s : Call × Request} {e : Event}
    (hi : rs[i]? = some s) (hbefore : s.2.phase ≠ .submitted)
    (hafter : (s.2.next client s.1 e).phase ≠ .submitted) :
    ((requests client).next rs (.on i e)).countP awaiting = rs.countP awaiting := by
  have hsum : ((requests client).next rs (.on i e)).countP awaiting + _ = _ :=
    countP_on hi e awaiting
  simpa [awaiting, hbefore, hafter] using hsum

theorem tallied_start (closedCallbackSet : Bool) : Tallied (.start closedCallbackSet) :=
  ⟨rfl, rfl, rfl⟩

/-- A statement of the client posts, or leaves the counters as they are. -/
theorem counters_step (s : ClientState) (t : Thread) :
    (s.step t).delays = s.delays ∧ (s.step t).outstanding = s.outstanding ∧
      (s.step t).posted = s.posted + match s.pcs t with | .post _ => 1 | _ => 0 := by
  unfold ClientState.step
  cases s.pcs t
  all_goals simp only
  all_goals repeat' split
  all_goals simp [ClientState.goto]

theorem tallied_step (h : Tallied r) (hplaced : Placed r) (hcan : r.threads.CanStep t) :
    Tallied (r.next client (.step t)) := by
  obtain ⟨hdelays, houtstanding, hposted⟩ := counters_step r.threads t
  have hen : r.Enabled (.step t) := hcan
  constructor
  · exact hdelays.trans h.delays
  · change (r.threads.step t).posted = (r.queueAfter (.step t)).length +
      if (r.submittingAfter (.step t)).any (·.2.isNone) then 1 else 0
    rw [hposted, h.posted, Running.atSubmit]
    simp only [Running.queueAfter, Running.submittingAfter]
    obtain ⟨pc, hp⟩ : ∃ pc, r.threads.pcs t = pc := ⟨_, rfl⟩
    simp only [hp]
    cases pc with
    | post nested =>
      obtain ⟨i, v, hi, -⟩ := hplaced.current (t := t) (by rw [hp]; rfl)
      simp only [hi, List.length_append, List.length_singleton, reduceCtorEq, if_false]
      omega
    | notifyingClose =>
      obtain ⟨-, i, e, hi⟩ := (hplaced.closing t).mp hp
      simp [hi]
    | _ => simp
  · change (r.threads.step t).outstanding = (r.next client (.step t)).requests.countP awaiting
    rw [houtstanding, h.outstanding]
    cases hevent : r.requestEvent (.step t) with
    | none => rw [requests_next_none hevent]
    | some e' =>
      rw [requests_next_some hevent]
      simp only [Running.requestEvent] at hevent
      split at hevent
      · next hi =>
        obtain rfl := Option.some.inj hevent
        obtain ⟨s, hs, hphase⟩ :=
          exists_of_phase ((hplaced.created _).mpr ⟨t, sends_of_current hi⟩)
        exact (countP_awaiting_on hs (by simp [hphase]) (by simp [phase_next])).symm
      · next hi =>
        split at hevent
        · simp at hevent
        · obtain rfl := Option.some.inj hevent
          obtain ⟨s, hs, hphase⟩ :=
            exists_of_phase ((hplaced.created _).mpr ⟨t, sends_of_current hi⟩)
          exact (countP_awaiting_on hs (by simp [hphase]) (by simp [phase_next])).symm
      · next hi =>
        obtain rfl := Option.some.inj hevent
        obtain ⟨now, isConnected, hasSession, attempt, rfl, hrejected⟩ := hplaced.failing _ _ hi
        obtain ⟨s, hs, hphase⟩ := exists_of_phase ((hplaced.submitting _).mpr ⟨_, hi⟩)
        exact (countP_awaiting_on hs (by simp [hphase]) (by simp [phase_next, hrejected])).symm
      · simp at hevent

theorem tallied_asyncSend (h : Tallied r) (call : Call) (sendDelayMs : Int) :
    Tallied (r.next client (.asyncSend t call sendDelayMs)) := by
  obtain ⟨hdelays, hposted, houtstanding⟩ := h
  have hthreads : (r.next client (.asyncSend t call sendDelayMs)).threads =
      r.threads.next (.asyncSend t (decide (0 < sendDelayMs))) := rfl
  have hcounters : let s := r.threads.next (.asyncSend t (decide (0 < sendDelayMs)))
      s.delays = r.threads.delays + (if 0 < sendDelayMs then 1 else 0) ∧
        s.posted = r.threads.posted ∧ s.outstanding = r.threads.outstanding := by
    by_cases hdelay : 0 < sendDelayMs <;> simp [ClientState.next, ClientState.goto, hdelay]
  refine ⟨?_, ?_, ?_⟩
  · rw [hthreads, hcounters.1, hdelays]
    by_cases hdelay : 0 < sendDelayMs <;>
      simp [Running.next, Running.delayedAfter, hdelay]
  · rw [hthreads, hcounters.2.1]
    exact hposted
  · rw [hthreads, hcounters.2.2, houtstanding]
    by_cases hdelay : 0 < sendDelayMs
    · rw [requests_next_none (by simp [Running.requestEvent, hdelay])]
    · simp [requests_asyncSend hdelay, awaiting]

/-- The handler of a delay timer takes its call, to send it or to drop it. -/
theorem delays_eraseIdx (h : Tallied r) {k : Nat} (hk : k < r.delayed.length) :
    r.threads.delays - 1 = (r.delayed.eraseIdx k).length := by
  rw [h.delays, List.length_eraseIdx_of_lt hk]

theorem tallied_expire (h : Tallied r) {k : Nat} (hk : k < r.delayed.length) :
    Tallied (r.next client (.expire k)) := by
  refine ⟨delays_eraseIdx h hk, h.posted, ?_⟩
  rw [requests_expire hk, List.countP_append]
  exact h.outstanding

/-- A request that a submit handler is about to take has not been submitted. -/
theorem tallied_startTimer (h : Tallied r) (hplaced : Placed r) (hfree : r.submitting = none)
    (hqueue : r.queue ≠ []) : Tallied (r.next client .startTimer) := by
  obtain ⟨i, rest, hcons⟩ := List.exists_cons_of_ne_nil hqueue
  have hevent : r.requestEvent .startTimer = some (.on i .startTimer) := by
    simp [Running.requestEvent, hcons]
  have hphase : r.phase i = some .posted := by
    by_contra hno
    have hcount := hplaced.posted i
    simp [hcons, hno] at hcount
  obtain ⟨s, hs, hposted⟩ := exists_of_phase hphase
  refine ⟨h.delays, ?_, ?_⟩
  · have hsubmitting : (r.next client .startTimer).submitting = some (i, none) := by
      simp [Running.next, Running.submittingAfter, hcons]
    have hqueue' : (r.next client .startTimer).queue = rest := by
      simp [Running.next, Running.queueAfter, hcons]
    have hbefore := h.posted
    change r.threads.posted = _
    rw [hqueue', Running.atSubmit, hsubmitting]
    simpa [Running.atSubmit, hfree, hcons] using hbefore
  · rw [requests_next_some hevent,
      countP_awaiting_on hs (by simp [hposted]) (by simp [phase_next])]
    exact h.outstanding

/-- A request that is submitted awaits its callback. -/
theorem tallied_accepted (h : Tallied r) (hplaced : Placed r)
    (hkept : ∀ s ∈ r.requests, Wellkept s.2) {now : Int} {attempt : Attempt} {i : Nat}
    (hi : r.submitting = some (i, none))
    (hacc : accepted r.connected r.hasSession attempt = true) :
    Tallied (r.next client (.submit now attempt)) := by
  have hthreads : (r.next client (.submit now attempt)).threads = r.threads.next (.submit true) :=
    threads_next_some (by rw [Running.threadEvent, hacc])
  have hevent : r.requestEvent (.submit now attempt) =
      some (.on i (.submit now r.connected r.hasSession attempt)) := by
    simp [Running.requestEvent, hacc, hi]
  have hsubmitting : (r.next client (.submit now attempt)).submitting = none := by
    simp [Running.next, Running.submittingAfter, hacc]
  obtain ⟨s, hs, hphase⟩ := exists_of_phase ((hplaced.submitting i).mpr ⟨none, hi⟩)
  have hquiet := (hkept s (List.mem_of_getElem? hs)).kept.quiet (Or.inr (Or.inr hphase))
  have hsum : ((requests client).next r.requests
      (.on i (.submit now r.connected r.hasSession attempt))).countP awaiting + _ = _ :=
    countP_on hs _ awaiting
  refine ⟨?_, ?_, ?_⟩
  · rw [hthreads]
    exact h.delays
  · have hone := h.posted
    rw [Running.atSubmit, hi] at hone
    rw [hthreads, Running.atSubmit, hsubmitting]
    change r.threads.posted - 1 = r.queue.length + 0
    simp only [Option.any_some, Option.isNone_none, if_true] at hone
    omega
  · rw [hthreads, requests_next_some hevent]
    change r.threads.outstanding + 1 = _
    simp [awaiting, hphase, phase_next, task_next, hacc, hquiet] at hsum
    rw [hsum, h.outstanding]

theorem tallied_rejected (h : Tallied r) {now : Int} {attempt : Attempt} {i : Nat}
    (hi : r.submitting = some (i, none))
    (hacc : accepted r.connected r.hasSession attempt = false) :
    Tallied (r.next client (.submit now attempt)) := by
  have hthreads : (r.next client (.submit now attempt)).threads =
      r.threads.next (.submit false) :=
    threads_next_some (by rw [Running.threadEvent, hacc])
  have hsubmitting : (r.next client (.submit now attempt)).submitting =
      some (i, some (.submit now r.connected r.hasSession attempt)) := by
    simp [Running.next, Running.submittingAfter, hacc, hi]
  refine ⟨?_, ?_, ?_⟩
  · rw [hthreads]
    exact h.delays
  · have hone := h.posted
    rw [Running.atSubmit, hi] at hone
    rw [hthreads, Running.atSubmit, hsubmitting]
    change r.threads.posted - 1 = r.queue.length + 0
    simp only [Option.any_some, Option.isNone_none, if_true] at hone
    omega
  · rw [hthreads, requests_next_none (by simp [Running.requestEvent, hacc])]
    exact h.outstanding

theorem tallied_timerExpires (h : Tallied r) {i : Nat} {s : Call × Request}
    (hs : r.requests[i]? = some s) : Tallied (r.next client (.timerExpires i)) := by
  have hsum : ((requests client).next r.requests (.on i .timerExpires)).countP awaiting + _ = _ :=
    countP_on hs .timerExpires awaiting
  have hsame : awaiting (s.1, s.2.next client s.1 .timerExpires) = awaiting s := rfl
  rw [hsame] at hsum
  exact ⟨h.delays, h.posted, h.outstanding.trans (Nat.add_right_cancel hsum).symm⟩

/-- A handler that calls back takes its request from those that await it. -/
theorem tallied_handle (h : Tallied r) (hkept : ∀ s ∈ r.requests, Wellkept s.2) {i : Nat}
    {e : Event} {s : Call × Request} (hs : r.requests[i]? = some s)
    (hhandler : e.isHandler = true) (hen : s.2.Enabled e) :
    Tallied (r.next client (.handle i e)) := by
  have hrequests : (r.next client (.handle i e)).requests =
      (requests client).next r.requests (.on i e) := rfl
  have hsum : ((requests client).next r.requests (.on i e)).countP awaiting + _ = _ :=
    countP_on hs e awaiting
  have hcalls : r.callsBack client i e = !(newCallbacks s.2 (s.2.next client s.1 e)).isEmpty := by
    simp [Running.callsBack, hs]
  obtain ⟨hback, hsilent⟩ :=
    callsBack_handler client s.1 (hkept s (List.mem_of_getElem? hs)) hhandler hen
  by_cases hnew : newCallbacks s.2 (s.2.next client s.1 e) = []
  · have hstay : (r.next client (.handle i e)).threads = r.threads :=
      threads_next_none (by simp [Running.threadEvent, hcalls, hnew])
    refine ⟨?_, ?_, ?_⟩
    · rw [hstay]
      exact h.delays
    · rw [hstay]
      exact h.posted
    · rw [hsilent hnew] at hsum
      rw [hstay, hrequests, h.outstanding]
      exact (Nat.add_right_cancel hsum).symm
  · obtain ⟨hbefore, hafter⟩ := hback hnew
    have hnext : (r.next client (.handle i e)).threads = r.threads.next .callback :=
      threads_next_some (by simp [Running.threadEvent, hcalls, hnew])
    refine ⟨?_, ?_, ?_⟩
    · rw [hnext]
      exact h.delays
    · rw [hnext]
      exact h.posted
    · have houtstanding := h.outstanding
      rw [hnext, hrequests]
      change r.threads.outstanding - 1 = _
      rw [hbefore, hafter] at hsum
      simp only [if_true, Bool.false_eq_true, if_false, Nat.add_zero] at hsum
      omega

/-- **Every event keeps the tally.** -/
theorem tallied_next (e : RunningEvent) (h : Tallied r) (hplaced : Placed r)
    (hkept : ∀ s ∈ r.requests, Wellkept s.2) (hen : r.Enabled e) :
    Tallied (r.next client e) := by
  cases e with
  | connection e => exact ⟨h.delays, h.posted, h.outstanding⟩
  | asyncSend t call sendDelayMs => exact tallied_asyncSend h call sendDelayMs
  | callbackReturns t => exact ⟨h.delays, h.posted, h.outstanding⟩
  | expire k => exact tallied_expire h hen.2
  | delayFails k => exact ⟨delays_eraseIdx h hen.2, h.posted, h.outstanding⟩
  | startTimer => exact tallied_startTimer h hplaced hen.1.2 hen.2
  | submit now attempt =>
    obtain ⟨i, hi⟩ := submitting_of_atSubmit hen.2
    cases hacc : accepted r.connected r.hasSession attempt with
    | true => exact tallied_accepted h hplaced hkept hi hacc
    | false => exact tallied_rejected h hi hacc
  | step t => exact tallied_step h hplaced hen
  | lockTimesOut t =>
    have hthreads : (r.next client (.lockTimesOut t)).threads = r.threads.next (.lockTimesOut t) :=
      rfl
    constructor
    all_goals rw [hthreads]
    all_goals simp only [ClientState.next]
    · split <;> exact h.delays
    · split <;> exact h.posted
    · split <;> exact h.outstanding
  | timerExpires i =>
    obtain ⟨s, hs, -⟩ := hen
    exact tallied_timerExpires h hs
  | handle i e =>
    obtain ⟨hhandler, -, s, hs, hen⟩ := hen
    exact tallied_handle h hkept hs hhandler hen

theorem tallied_run {closedCallbackSet : Bool} {es : List RunningEvent}
    (hrun : (running client).Run (.start closedCallbackSet) es) :
    Tallied ((running client).after (.start closedCallbackSet) es) :=
  history (H := fun _ r => Tallied r) (tallied_start closedCallbackSet)
    (fun _ e hprefix h hen =>
      tallied_next e h (placed_run hprefix) (wellkept_run hprefix) hen) hrun

/-- What an event of the client is to the threads can happen to them. -/
theorem enabled_threadEvent {e : RunningEvent} {e' : ClientEvent} (h : Tallied r)
    (hkept : ∀ s ∈ r.requests, Wellkept s.2) (hen : r.Enabled e)
    (hevent : r.threadEvent client e = some e') : r.threads.Enabled e' := by
  cases e with
  | connection e =>
    obtain rfl := Option.some.inj hevent
    exact hen.1
  | expire k =>
    obtain rfl := Option.some.inj hevent
    exact ⟨hen.1.1, by rw [h.delays]; exact Nat.zero_lt_of_lt hen.2⟩
  | delayFails k =>
    obtain rfl := Option.some.inj hevent
    exact ⟨hen.1.1, by rw [h.delays]; exact Nat.zero_lt_of_lt hen.2⟩
  | submit now attempt =>
    obtain rfl := Option.some.inj hevent
    refine ⟨hen.1, ?_, ?_⟩
    · rw [h.posted, Running.atSubmit, hen.2]
      exact Nat.succ_pos _
    · intro hacc
      simp only [accepted, Running.connected, Running.hasSession, Bool.and_eq_true,
        decide_eq_true_eq] at hacc
      exact hacc.1
  | startTimer => simp [Running.threadEvent] at hevent
  | timerExpires i => simp [Running.threadEvent] at hevent
  | handle i e =>
    obtain ⟨hhandler, hfree, s, hs, hen⟩ := hen
    simp only [Running.threadEvent] at hevent
    split at hevent
    · next hcalls =>
      obtain rfl := Option.some.inj hevent
      have hnew : newCallbacks s.2 (s.2.next client s.1 e) ≠ [] := by
        simpa [Running.callsBack, hs] using hcalls
      have hmem := List.mem_of_getElem? hs
      have hawaiting := ((callsBack_handler client s.1 (hkept s hmem) hhandler hen).1 hnew).1
      refine ⟨hfree.1, ?_⟩
      rw [h.outstanding]
      exact List.countP_pos_iff.mpr ⟨s, hmem, hawaiting⟩
    · simp at hevent
  | _ =>
    obtain rfl := Option.some.inj hevent
    exact hen

/-- The threads of a client run as the threads alone. -/
theorem threads_run {closedCallbackSet : Bool} {es : List RunningEvent}
    (hrun : (running client).Run (.start closedCallbackSet) es) :
    sending.Run (.start closedCallbackSet) (threadEvents client closedCallbackSet es) ∧
      ((running client).after (.start closedCallbackSet) es).threads =
        sending.after (.start closedCallbackSet) (threadEvents client closedCallbackSet es) :=
  stutter (N := sending) (f := Running.threadEvent client) (g := Running.threads)
    (fun _ _ _ hprefix hen hevent =>
      ⟨enabled_threadEvent (tallied_run hprefix) (wellkept_run hprefix) hen hevent,
        threads_next_some hevent⟩)
    (fun _ _ _ _ hevent => threads_next_none hevent) hrun

end counters

/-- **A running client is its threads and its requests.** In every run, what the threads see of
it is a run of the threads alone and what the requests see a run of the requests alone, and the
counters of the one are the numbers of what is there in the other. -/
theorem running_projects (client : Http2Client) (closedCallbackSet : Bool)
    (es : List RunningEvent) (hrun : (running client).Run (.start closedCallbackSet) es) :
    let r := (running client).after (.start closedCallbackSet) es
    (sending.Run (.start closedCallbackSet) (threadEvents client closedCallbackSet es) ∧
        r.threads =
          sending.after (.start closedCallbackSet) (threadEvents client closedCallbackSet es)) ∧
      ((requests client).Run [] (requestEvents client closedCallbackSet es) ∧
        r.requests =
          (requests client).after [] (requestEvents client closedCallbackSet es)) ∧
      r.threads.delays = r.delayed.length ∧
      r.threads.posted = r.queue.length + (if r.atSubmit then 1 else 0) ∧
      r.threads.outstanding = r.requests.countP awaiting :=
  have htallied := tallied_run hrun
  ⟨threads_run hrun, requests_run hrun, htallied.delays, htallied.posted, htallied.outstanding⟩

/-! ## No request is lost -/

/-- The call that the event makes. -/
def RunningEvent.calls : RunningEvent → List Call
  | .asyncSend _ call _ => [call]
  | _ => []

/-- The calls of `asyncSend`, in order. -/
def sentCalls (es : List RunningEvent) : List Call :=
  es.filterMap fun | .asyncSend _ call _ => some call | _ => none

/-- Who has a request: one thread, the queue once, the submit handler, or, after these, a timer
until the callback. -/
def Held (r : Running) (i : Nat) (rq : Request) : Prop :=
  match rq.phase with
  | .created => callbacks rq.effects = [] ∧ ∃! t, r.sending t = some i
  | .posted => callbacks rq.effects = [] ∧ r.queue.count i = 1
  | .submitting => callbacks rq.effects = [] ∧ ∃ o, r.submitting = some (i, o)
  | .unsent => (callbacks rq.effects).length = 1
  | .submitted | .failed => (callbacks rq.effects).length = 1 ∨
      (callbacks rq.effects = [] ∧ (rq.timer = .armed ∨ rq.timer = .expired))

/-- No thread is in `async_send`, no handler is left to run and no timer to expire. -/
structure Running.Quiet (r : Running) : Prop where
  delayed : r.delayed = []
  outside : ∀ t, (r.threads.pcs t).sends = false
  queue : r.queue = []
  submitting : r.submitting = none
  timers : ∀ s ∈ r.requests, s.2.timer ≠ .armed ∧ s.2.timer ≠ .expired

section results

variable {client : Http2Client} {r : Running} {closedCallbackSet : Bool} {es : List RunningEvent}

theorem sentCalls_snoc (es : List RunningEvent) (e : RunningEvent) :
    sentCalls (es ++ [e]) = sentCalls es ++ e.calls := by
  cases e <;> simp [sentCalls, RunningEvent.calls]

/-- An event of a request keeps the calls. -/
theorem calls_on (rs : List (Call × Request)) (i : Nat) (e : Event) :
    ((requests client).next rs (.on i e)).map Prod.fst = rs.map Prod.fst := by
  apply List.ext_getElem?
  intro j
  change ((rs.modify i fun s => (s.1, s.2.next client s.1 e)).map Prod.fst)[j]? = _
  rw [List.getElem?_map, List.getElem?_map, List.getElem?_modify]
  cases rs[j]? with
  | none => rfl
  | some s => by_cases hij : i = j <;> simp [hij]

/-- An event of a request leaves the delayed calls. -/
theorem delayedAfter_on {e : RunningEvent} {i : Nat} {e' : Event}
    (hevent : r.requestEvent e = some (.on i e')) : r.delayedAfter e = r.delayed := by
  cases e with
  | asyncSend t call sendDelayMs =>
    simp only [Running.requestEvent] at hevent
    split at hevent <;> simp at hevent
  | expire k =>
    obtain ⟨call, -, hstart⟩ := Option.map_eq_some_iff.mp hevent
    simp at hstart
  | delayFails k => simp [Running.requestEvent] at hevent
  | _ => rfl

/-- A request starts with its call, or where its delay expires. -/
theorem requestEvent_start {e : RunningEvent} {s : Call × Request}
    (hevent : r.requestEvent e = some (.start s)) :
    (∃ t call sendDelayMs, e = .asyncSend t call sendDelayMs) ∨ ∃ k, e = .expire k := by
  cases e with
  | asyncSend t call sendDelayMs => exact Or.inl ⟨t, call, sendDelayMs, rfl⟩
  | expire k => exact Or.inr ⟨k, rfl⟩
  | startTimer =>
    obtain ⟨i, -, hon⟩ := Option.map_eq_some_iff.mp hevent
    simp at hon
  | submit now attempt =>
    simp only [Running.requestEvent] at hevent
    split at hevent
    · obtain ⟨⟨i, o⟩, -, hon⟩ := Option.map_eq_some_iff.mp hevent
      simp at hon
    · simp at hevent
  | step t =>
    simp only [Running.requestEvent] at hevent
    split at hevent
    · simp at hevent
    · split at hevent <;> simp at hevent
    · simp at hevent
    · simp at hevent
  | _ => simp [Running.requestEvent] at hevent

/-- Other events than a call and the end of a delay start no request. -/
theorem calls_next_on {e : RunningEvent}
    (hstart : ∀ s, r.requestEvent e ≠ some (.start s)) :
    (r.next client e).requests.map Prod.fst = r.requests.map Prod.fst := by
  cases hevent : r.requestEvent e with
  | none => rw [requests_next_none hevent]
  | some e' =>
    cases e' with
    | start s => exact absurd hevent (hstart s)
    | on i e' => rw [requests_next_some hevent, calls_on]

/-- A call that is made is delayed or becomes a request. -/
theorem calls_asyncSend (t : Thread) (call : Call) (sendDelayMs : Int) :
    r.delayedAfter (.asyncSend t call sendDelayMs) ++
        (r.next client (.asyncSend t call sendDelayMs)).requests.map Prod.fst ~
      r.delayed ++ r.requests.map Prod.fst ++ [call] := by
  by_cases hdelay : 0 < sendDelayMs
  · have hrequests : (r.next client (.asyncSend t call sendDelayMs)).requests = r.requests :=
      requests_next_none (by simp [Running.requestEvent, hdelay])
    simp only [hrequests, Running.delayedAfter, hdelay, if_true, List.append_assoc]
    exact List.perm_append_comm.append_left _
  · simp [requests_asyncSend hdelay, Running.delayedAfter, hdelay]

/-- A call whose delay ends becomes a request. -/
theorem calls_expire {k : Nat} (hk : k < r.delayed.length) :
    r.delayed.eraseIdx k ++ (r.next client (.expire k)).requests.map Prod.fst ~
      r.delayed ++ r.requests.map Prod.fst := by
  rw [requests_expire hk, List.map_append]
  calc r.delayed.eraseIdx k ++ (r.requests.map Prod.fst ++ [r.delayed[k]])
    _ ~ (r.requests.map Prod.fst ++ [r.delayed[k]]) ++ r.delayed.eraseIdx k :=
      List.perm_append_comm
    _ = r.requests.map Prod.fst ++ (r.delayed[k] :: r.delayed.eraseIdx k) := by simp
    _ ~ r.requests.map Prod.fst ++ r.delayed := (List.getElem_cons_eraseIdx_perm hk).append_left _
    _ ~ r.delayed ++ r.requests.map Prod.fst := List.perm_append_comm

/-- A call whose delay timer fails is dropped. -/
theorem calls_delayFails (rest : List Call) {k : Nat} (hk : k < r.delayed.length) :
    r.delayed.eraseIdx k ++ rest ++ [r.delayed[k]] ~ r.delayed ++ rest := by
  have hperm : r.delayed[k] :: r.delayed.eraseIdx k ~ r.delayed :=
    List.getElem_cons_eraseIdx_perm hk
  calc r.delayed.eraseIdx k ++ rest ++ [r.delayed[k]]
    _ ~ [r.delayed[k]] ++ (r.delayed.eraseIdx k ++ rest) := List.perm_append_comm
    _ = (r.delayed[k] :: r.delayed.eraseIdx k) ++ rest := by simp
    _ ~ r.delayed ++ rest := hperm.append_right _

variable (client) in
/-- **An event keeps the calls, makes one or drops one.** -/
theorem calls_next {e : RunningEvent} (hen : r.Enabled e) :
    r.delayedAfter e ++ (r.next client e).requests.map Prod.fst ++ (r.drops e).toList ~
      r.delayed ++ r.requests.map Prod.fst ++ e.calls := by
  cases e with
  | asyncSend t call sendDelayMs =>
    simp only [Running.drops, Option.toList_none, List.append_nil]
    exact calls_asyncSend t call sendDelayMs
  | expire k =>
    simp only [Running.drops, Option.toList_none, RunningEvent.calls, List.append_nil]
    exact calls_expire hen.2
  | delayFails k =>
    obtain ⟨-, hk⟩ := hen
    simp only [Running.drops, List.getElem?_eq_getElem hk, Option.toList_some, RunningEvent.calls,
      List.append_nil]
    exact calls_delayFails _ hk
  | _ =>
    rw [calls_next_on]
    · exact List.Perm.refl _
    · intro s hs
      rcases requestEvent_start hs with ⟨t, call, sendDelayMs, heq⟩ | ⟨k, heq⟩ <;> cases heq

/-- The calls made are those whose delay is running, those that have become requests and those that
have been dropped. -/
theorem calls_kept (hrun : (running client).Run (.start closedCallbackSet) es) :
    let r := (running client).after (.start closedCallbackSet) es
    r.delayed ++ r.requests.map Prod.fst ++ droppedCalls client closedCallbackSet es ~
      sentCalls es := by
  refine history (H := fun es r => r.delayed ++ r.requests.map Prod.fst ++
    droppedCalls client closedCallbackSet es ~ sentCalls es) (List.Perm.refl _) ?_ hrun
  intro es e _ h hen
  have hnext := calls_next client hen
  rw [sentCalls_snoc, droppedCalls, seen_snoc, ← droppedCalls]
  generalize (running client).after (.start closedCallbackSet) es = r at *
  generalize droppedCalls client closedCallbackSet es = dropped at *
  change r.delayedAfter e ++ (r.next client e).requests.map Prod.fst ++
    (dropped ++ (r.drops e).toList) ~ _
  generalize r.delayedAfter e ++ (r.next client e).requests.map Prod.fst = kept at *
  generalize r.delayed ++ r.requests.map Prod.fst = before at *
  calc kept ++ (dropped ++ (r.drops e).toList)
    _ ~ kept ++ ((r.drops e).toList ++ dropped) := List.perm_append_comm.append_left _
    _ = kept ++ (r.drops e).toList ++ dropped := (List.append_assoc ..).symm
    _ ~ before ++ e.calls ++ dropped := hnext.append_right _
    _ = before ++ (e.calls ++ dropped) := List.append_assoc ..
    _ ~ before ++ (dropped ++ e.calls) := List.perm_append_comm.append_left _
    _ = before ++ dropped ++ e.calls := (List.append_assoc ..).symm
    _ ~ sentCalls es ++ e.calls := h.append_right _

/-- Every request is held once. -/
theorem request_held (hrun : (running client).Run (.start closedCallbackSet) es) {i : Nat}
    {s : Call × Request} :
    let r := (running client).after (.start closedCallbackSet) es
    r.requests[i]? = some s → Held r i s.2 := by
  intro r hs
  have hplaced : Placed r := placed_run hrun
  obtain ⟨hkept, -⟩ : Wellkept s.2 := wellkept_run hrun s (List.mem_of_getElem? hs)
  have hphase : r.phase i = some s.2.phase := by simp [Running.phase, hs]
  have hquiet (hp : s.2.phase = .created ∨ s.2.phase = .posted ∨ s.2.phase = .submitting) :
      callbacks s.2.effects = [] := by
    have hlength := hkept.invoked (by rcases hp with hp | hp | hp <;> simp [hp])
    rw [hkept.quiet hp] at hlength
    simpa using hlength
  have hlater (hp : s.2.phase = .submitted ∨ s.2.phase = .failed) :
      (callbacks s.2.effects).length = 1 ∨
        (callbacks s.2.effects = [] ∧ (s.2.timer = .armed ∨ s.2.timer = .expired)) := by
    have hlength := hkept.invoked (by rcases hp with hp | hp <;> simp [hp])
    cases hcb : s.2.task.cbInvoked with
    | true => exact Or.inl (by simpa [hcb] using hlength)
    | false =>
      refine Or.inr ⟨by simpa [hcb] using hlength, ?_⟩
      exact (hkept.promised (Or.inr hp)).resolve_left (by simp [hcb])
  unfold Held
  cases hp : s.2.phase with
  | created =>
    obtain ⟨t, ht⟩ := (hplaced.created i).mp (hp ▸ hphase)
    exact ⟨hquiet (Or.inl hp), t, ht, fun t' ht' => hplaced.alone t' t i ht' ht⟩
  | posted =>
    refine ⟨hquiet (Or.inr (Or.inl hp)), ?_⟩
    rw [hplaced.posted, if_pos (hp ▸ hphase)]
  | submitting =>
    exact ⟨hquiet (Or.inr (Or.inr hp)), (hplaced.submitting i).mp (hp ▸ hphase)⟩
  | submitted => exact hlater (Or.inl hp)
  | failed => exact hlater (Or.inr hp)
  | unsent => exact hkept.unsent hp

/-- A quiet client has answered every call, once. -/
theorem quiet_answered (hrun : (running client).Run (.start closedCallbackSet) es) :
    let r := (running client).after (.start closedCallbackSet) es
    r.Quiet → ∀ s ∈ r.requests, (callbacks s.2.effects).length = 1 := by
  intro r hquiet s hs
  obtain ⟨i, hi⟩ := List.mem_iff_getElem?.mp hs
  have hplaced : Placed r := placed_run hrun
  have hheld : Held r i s.2 := request_held hrun hi
  unfold Held at hheld
  cases hp : s.2.phase with
  | created =>
    simp only [hp] at hheld
    obtain ⟨-, t, ht, -⟩ := hheld
    have hsends := hplaced.sends t
    simp [hquiet.outside t, ht] at hsends
  | posted => simp [hp, hquiet.queue] at hheld
  | submitting => simp [hp, hquiet.submitting] at hheld
  | unsent => simpa [hp] using hheld
  | submitted | failed =>
    simp only [hp] at hheld
    rcases hheld with hone | ⟨-, harmed | hexpired⟩
    · exact hone
    · exact absurd harmed (hquiet.timers s hs).1
    · exact absurd hexpired (hquiet.timers s hs).2

end results

/-- **No request is lost but to a failed delay timer, and none is answered twice.** In every state
of every run of a client, the calls made are those whose delay is running, those that have become
requests and those dropped, one for each delay timer that has failed; each request is held once; and
when the client is quiet every call that was not dropped has had its callback, once. -/
theorem no_request_lost (client : Http2Client) (closedCallbackSet : Bool)
    (es : List RunningEvent) (hrun : (running client).Run (.start closedCallbackSet) es) :
    let r := (running client).after (.start closedCallbackSet) es
    let dropped := droppedCalls client closedCallbackSet es
    (r.delayed ++ r.requests.map Prod.fst ++ dropped).Perm (sentCalls es) ∧
      dropped.length = es.countP RunningEvent.isDelayFailure ∧
      (∀ i s, r.requests[i]? = some s → Held r i s.2) ∧
      (r.Quiet → (r.requests.map Prod.fst ++ dropped).Perm (sentCalls es) ∧
        ∀ s ∈ r.requests, (callbacks s.2.effects).length = 1) := by
  intro r dropped
  have hcalls : (r.delayed ++ r.requests.map Prod.fst ++ dropped).Perm (sentCalls es) :=
    calls_kept hrun
  refine ⟨hcalls, length_droppedCalls hrun, fun i s hs => request_held hrun hs, fun hquiet => ?_⟩
  refine ⟨?_, quiet_answered hrun hquiet⟩
  simpa [hquiet.delayed] using hcalls

/-- A request answered by its data, and a delayed one whose submit is refused. -/
def twoCalls : List RunningEvent :=
  [.connection (.onConnect 0), .connection (.notify .io none), .asyncSend (.app 0) {} 0,
    .asyncSend (.app 1) { body := ascii "x" } 5, .step (.app 0), .step (.app 0), .startTimer,
    .submit 5 .request, .handle 0 (.onResponse 7 { statusCode := 200 }),
    .handle 0 (.onData (ascii "ab")), .handle 0 (.onData []), .callbackReturns .io,
    .handle 0 .timerAborted, .expire 0, .step .io, .step .io, .startTimer, .submit 9 .null,
    .connection (.step .io), .connection (.notify .io none), .connection (.step .io), .step .io,
    .callbackReturns .io, .handle 1 .timerAborted]

theorem running_projects_two :
    let r := (running {}).after (.start false) twoCalls
    sending.Run (.start false) (threadEvents {} false twoCalls) ∧
      r.threads.posted = 0 ∧ r.threads.outstanding = 0 := by
  intro r
  obtain ⟨⟨hthreads, -⟩, -, -, hposted, houtstanding⟩ :=
    running_projects {} false twoCalls (by decide)
  exact ⟨hthreads, hposted.trans (by decide), houtstanding.trans (by decide)⟩

/-- The two calls, and a third whose delay timer fails. -/
def threeCalls : List RunningEvent :=
  twoCalls ++ [.asyncSend (.app 0) { body := ascii "y" } 5, .delayFails 0]

theorem no_request_lost_three :
    let r := (running {}).after (.start false) threeCalls
    (r.requests.map Prod.fst ++ [({ body := ascii "y" } : Call)]).Perm (sentCalls threeCalls) ∧
      ∀ s ∈ r.requests, (callbacks s.2.effects).length = 1 := by
  intro r
  have hlost := no_request_lost {} false threeCalls (by decide)
  refine hlost.2.2.2 ⟨by decide, ?_, by decide, by decide, ?_⟩
  · exact fun | .io => rfl | .app 0 => rfl | .app 1 => rfl | .app (_ + 2) => rfl
  · exact List.forall_iff_forall_mem.mp (by decide)

end Http2Comm.Client
