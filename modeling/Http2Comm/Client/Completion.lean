import Http2Comm.Client.Conservation
import Http2Comm.Client.Progress

/-!
# Every call is answered

What a client does by itself ends. Whatever comes from outside, a call of `asyncSend`, a delivery by
nghttp2, a spurious wake-up, has at most 41 events of the client as its consequences: statements,
expiries, handlers and returns of callbacks. Hence when nothing comes any more the client comes to
rest, in whatever order its events come and whatever `createSession`, `submit` and the timers
answer, and **where it rests every call has had its callback, once**, but those whose delay timer
has failed, which get none (`every_call_answered`). No response is needed for that, and no server: a
request that nghttp2 forgets is answered by its timer, and a thread that waits for a session by the
timeout of the wait.

The bound is a potential. To the ranks of the threads it adds what is in store for them: for a call
whose delay is running, a request on its way to nghttp2, a request timer, and a submit handler
between the arming of its timer and its attempt.
-/

set_option autoImplicit false

namespace Http2Comm.Client

open Lib Lib.Machine

/-! ## What an event of the threads costs -/

/-- The rank that an event brings to its thread from outside. -/
def ClientEvent.cost : ClientEvent → Nat
  | .connection (.onConnect _) => 4
  | .connection (.onError _) => 5
  | .connection (.wake _ false) => 3
  | .asyncSend _ false | .expire => 27
  | .submit false => 8
  | .callback => 1
  | _ => 0

def ClientEvent.costs (e : ClientEvent) (t : Thread) : Nat := if t = e.thread then e.cost else 0

section threads

variable {c : Connection} {s : ClientState} {t : Thread} {ts : Finset Thread}

/-- An event that takes its thread to `pc`, and leaves the connection as it is. -/
theorem rank_enters {e : ClientEvent} {pc : SendPc}
    (hnext : (s.next e).pcs = Function.update s.pcs e.thread pc)
    (hconn : (s.next e).connection = s.connection) (hcost : pc.rank ≤ e.cost) (t : Thread) :
    (s.next e).rank t ≤ s.rank t + e.costs t := by
  simp only [ClientState.rank, hnext, hconn, ClientEvent.costs]
  by_cases ht : t = e.thread
  · subst ht
    simp only [Function.update_self, if_true]
    omega
  · simp [ht]

/-- What an event from outside does to the ranks. -/
theorem rank_outside {e : ClientEvent} (hen : s.Enabled e) (he : e.finishes = false) (t : Thread) :
    (s.next e).rank t ≤ s.rank t + e.costs t := by
  cases e with
  | connection e =>
    by_cases ht : t = e.thread
    · subst ht
      have hcosts : (ClientEvent.connection e).costs e.thread = (ClientEvent.connection e).cost :=
        if_pos rfl
      rw [hcosts]
      simp only [ClientState.rank, ClientState.next]
      cases e with
      | call t op => exact hen.elim
      | onConnect sid =>
        simp [Connection.next, ConnectionEvent.thread, ClientEvent.cost, Pc.rank]
      | onError sid =>
        simp [Connection.next, ConnectionEvent.thread, ClientEvent.cost, Pc.rank, After.rank]
      | wake t timedOut =>
        cases timedOut with
        | true => simp [ClientEvent.finishes] at he
        | false =>
          have hblocked : (s.connection.pcs t).isBlocked = true := hen
          cases hp : s.connection.pcs t <;> simp_all [Pc.isBlocked]
          simp [Connection.next, ConnectionEvent.thread, hp, Pc.rank, ClientEvent.cost]
      | _ => simp [ClientEvent.finishes] at he
    · refine Nat.le_add_right_of_le ?_
      rcases pcs_next_ne s.connection ht with hpc | ⟨w, hnotify, -⟩
      · exact Nat.le_of_eq (by simp only [ClientState.rank, ClientState.next, hpc])
      · rw [hnotify] at he
        simp [ClientEvent.finishes] at he
  | asyncSend t' delayed =>
    cases delayed with
    | true => exact Nat.le_add_right _ _
    | false => exact rank_enters (e := .asyncSend t' false) rfl rfl (Nat.le_refl _) t
  | expire => exact rank_enters (e := .expire) rfl rfl (Nat.le_refl _) t
  | delayFails => exact Nat.le_add_right _ _
  | callback => exact rank_enters (e := .callback) rfl rfl (Nat.le_refl _) t
  | submit accepted =>
    cases accepted with
    | true => exact Nat.le_add_right _ _
    | false =>
      simp only [ClientState.rank, ClientState.next, ClientState.goto, ClientEvent.costs]
      by_cases ht : t = .io
      · subst ht
        simp [Connection.next, Op.entry, Pc.rank, SendPc.rank, After.rank, ClientEvent.cost,
          ClientEvent.thread]
      · simp [Connection.next, ht]
  | _ => simp [ClientEvent.finishes] at he

/-- An event of one of the threads adds to the sum of the ranks what it costs. -/
theorem confined_outside {e : ClientEvent} (h : Confined ts s) (hmem : e.thread ∈ ts)
    (hen : s.Enabled e) (he : e.finishes = false) :
    Confined ts (s.next e) ∧ ts.sum (s.next e).rank ≤ ts.sum s.rank + e.cost := by
  constructor
  · intro t hout
    refine rank_zero_next hen ?_ (h t hout)
    rintro rfl
    exact hout hmem
  · have hcosts : ts.sum e.costs = e.cost := by
      unfold ClientEvent.costs
      rw [Finset.sum_ite_eq' ts e.thread]
      exact if_pos hmem
    calc ts.sum (s.next e).rank
      _ ≤ ts.sum fun t => s.rank t + e.costs t :=
        Finset.sum_le_sum fun t _ => rank_outside hen he t
      _ = ts.sum s.rank + e.cost := by rw [Finset.sum_add_distrib, hcosts]

/-- An event of one of the threads, whether it finishes or comes from outside. -/
theorem confined_event {e : ClientEvent} (h : Confined ts s) (hmem : e.thread ∈ ts)
    (hen : s.Enabled e) :
    Confined ts (s.next e) ∧
      ts.sum (s.next e).rank + (if e.finishes then 1 else 0) ≤ ts.sum s.rank + e.cost := by
  cases he : e.finishes with
  | true =>
    obtain ⟨hconfined, hlower⟩ := confined_next h hen he
    exact ⟨hconfined, Nat.le_add_right_of_le hlower⟩
  | false => exact confined_outside h hmem hen he

end threads

/-! ## What is in store -/

/-- What a request is worth by its phase: the arming of its timer and the submit handler. -/
def Phase.weight : Phase → Nat
  | .created | .posted => 13
  | _ => 0

def Timer.weight : Timer → Nat
  | .armed => 3
  | .expired => 2
  | .aborted => 1
  | _ => 0

def Request.weight (rq : Request) : Nat := rq.phase.weight + rq.timer.weight

/-- By how much an event of a request lowers its weight. -/
def Event.lowers : Event → Nat
  | .startTimer => 10
  | .timerHandler => 2
  | .timerExpires | .timerAborted => 1
  | _ => 0

/-- What is in store for the threads, at most. -/
def Running.store (r : Running) : Nat :=
  41 * r.delayed.length + (r.requests.map (·.2.weight)).sum + if r.atSubmit then 9 else 0

/-- What an event puts in store. -/
def RunningEvent.stores : RunningEvent → Nat
  | .asyncSend _ _ sendDelayMs => if 0 < sendDelayMs then 41 else 13
  | _ => 0

/-- What it takes out. -/
def RunningEvent.draws : RunningEvent → Nat
  | .delayFails _ => 41
  | .expire _ => 28
  | .submit .. => 9
  | .handle _ .timerHandler => 2
  | .startTimer | .timerExpires _ | .handle _ .timerAborted => 1
  | _ => 0

section store

variable (client : Http2Client) {r : Running}

theorem weight_cancelTimer (rq : Request) : rq.cancelTimer.timer.weight ≤ rq.timer.weight := by
  unfold Request.cancelTimer
  split
  · next htimer => simp [htimer, Timer.weight]
  · exact Nat.le_refl _

/-- An event of a request lowers its weight, or leaves it. -/
theorem weight_next (call : Call) {rq : Request} {e : Event}
    (hen : rq.Enabled e) : (rq.next client call e).weight + e.lowers ≤ rq.weight := by
  have hcancel := weight_cancelTimer rq
  unfold Request.weight
  rw [phase_next, timer_next]
  cases e with
  | asyncSend connected reconnected =>
    have hphase : rq.phase = .created := hen
    simp only [hphase, Event.lowers]
    split <;> simp [Phase.weight]
  | startTimer =>
    have hphase : rq.phase = .posted := hen
    simp [hphase, Event.lowers, Phase.weight, Timer.weight]
  | submit now isConnected hasSession attempt =>
    have hphase : rq.phase = .submitting := hen
    simp only [hphase, Event.lowers]
    split <;> simp [Phase.weight, hcancel]
  | timerExpires =>
    have htimer : rq.timer = .armed := hen
    simp [htimer, Event.lowers, Timer.weight]
  | timerHandler => simp [hen.1, Event.lowers, Timer.weight]
  | timerAborted => simp [hen.1, Event.lowers, Timer.weight]
  | onResponse now res => exact Nat.le_refl _
  | onData chunk =>
    simp only [Event.lowers]
    split <;> simp [hcancel]
  | onClose errorCode =>
    simp only [Event.lowers]
    split <;> simp [hcancel]

/-- An event of the client lowers the weights by what its event of a request lowers them. -/
theorem weights_on {e : RunningEvent} {i : Nat} {e' : Event} (hplaced : Placed r)
    (hen : r.Enabled e) (hevent : r.requestEvent e = some (.on i e')) :
    ((r.next client e).requests.map (·.2.weight)).sum + e'.lowers ≤
      (r.requests.map (·.2.weight)).sum := by
  have hrequest : (requests client).Enabled r.requests (.on i e') :=
    enabled_requestEvent hplaced hen hevent
  obtain ⟨s, hs, hen'⟩ := hrequest
  have hlower : (s.2.next client s.1 e').weight + e'.lowers ≤ s.2.weight :=
    weight_next client s.1 hen'
  have hsum : (((requests client).next r.requests (.on i e')).map (·.2.weight)).sum + s.2.weight =
      (r.requests.map (·.2.weight)).sum + (s.2.next client s.1 e').weight :=
    sum_on (M := sentRequest client) hs e' (·.2.weight)
  rw [requests_next_some hevent]
  omega

theorem weights_start {e : RunningEvent} {call : Call}
    (hevent : r.requestEvent e = some (.start (call, {}))) :
    ((r.next client e).requests.map (·.2.weight)).sum =
      (r.requests.map (·.2.weight)).sum + 13 := by
  have hnext : (r.next client e).requests = r.requests ++ [(call, ({} : Request))] :=
    requests_next_some hevent
  simp [hnext, Request.weight, Phase.weight, Timer.weight]

theorem weights_none {e : RunningEvent} (hevent : r.requestEvent e = none) :
    ((r.next client e).requests.map (·.2.weight)).sum = (r.requests.map (·.2.weight)).sum := by
  rw [requests_next_none hevent]

/-- The events of requests that a statement of a thread is. -/
theorem weights_step {t : Thread} (hplaced : Placed r) (hen : r.Enabled (.step t)) :
    ((r.next client (.step t)).requests.map (·.2.weight)).sum ≤
      (r.requests.map (·.2.weight)).sum := by
  cases hevent : r.requestEvent (.step t) with
  | none => exact Nat.le_of_eq (weights_none client hevent)
  | some e' =>
    cases e' with
    | start s =>
      simp only [Running.requestEvent] at hevent
      split at hevent
      · simp at hevent
      · split at hevent <;> simp at hevent
      · simp at hevent
      · simp at hevent
    | on i e' => exact (Nat.le_add_right _ _).trans (weights_on client hplaced hen hevent)

/-- An event after which the same calls are delayed, and the submit handler is where it was. -/
theorem store_same {e : RunningEvent} (hdelayed : (r.next client e).delayed = r.delayed)
    (hsubmit : (r.next client e).atSubmit = r.atSubmit)
    (hweights : ((r.next client e).requests.map (·.2.weight)).sum + e.draws ≤
      (r.requests.map (·.2.weight)).sum + e.stores) :
    (r.next client e).store + e.draws ≤ r.store + e.stores := by
  unfold Running.store
  rw [hdelayed, hsubmit]
  omega

/-- A call that is made is put in, with its delay or as a request. -/
theorem store_asyncSend (t : Thread) (call : Call) (sendDelayMs : Int) :
    (r.next client (.asyncSend t call sendDelayMs)).store +
        (RunningEvent.asyncSend t call sendDelayMs).draws ≤
      r.store + (RunningEvent.asyncSend t call sendDelayMs).stores := by
  have hsubmit : (r.next client (.asyncSend t call sendDelayMs)).atSubmit = r.atSubmit := rfl
  simp only [Running.store, hsubmit, RunningEvent.draws, RunningEvent.stores]
  by_cases hdelay : 0 < sendDelayMs
  · have hevent : r.requestEvent (.asyncSend t call sendDelayMs) = none := by
      simp [Running.requestEvent, hdelay]
    have hweights := weights_none client hevent
    have hdelayed : (r.next client (.asyncSend t call sendDelayMs)).delayed.length =
        r.delayed.length + 1 := by
      simp [Running.next, Running.delayedAfter, hdelay]
    rw [if_pos hdelay]
    omega
  · have hevent : r.requestEvent (.asyncSend t call sendDelayMs) = some (.start (call, {})) := by
      simp [Running.requestEvent, hdelay]
    have hweights := weights_start client hevent
    have hdelayed : (r.next client (.asyncSend t call sendDelayMs)).delayed.length =
        r.delayed.length := by
      simp [Running.next, Running.delayedAfter, hdelay]
    rw [if_neg hdelay]
    omega

/-- The rest of the submit handler adds no work to the requests. -/
theorem weights_submit {now : Int} {attempt : Attempt} (hplaced : Placed r)
    (hen : r.Enabled (.submit now attempt)) :
    ((r.next client (.submit now attempt)).requests.map (·.2.weight)).sum ≤
      (r.requests.map (·.2.weight)).sum := by
  obtain ⟨i, hi⟩ := submitting_of_atSubmit hen.2
  cases hacc : accepted r.connected r.hasSession attempt with
  | true =>
    have hevent : r.requestEvent (.submit now attempt) =
        some (.on i (.submit now r.connected r.hasSession attempt)) := by
      simp [Running.requestEvent, hacc, hi]
    exact weights_on client hplaced hen hevent
  | false =>
    have hevent : r.requestEvent (.submit now attempt) = none := by
      simp [Running.requestEvent, hacc]
    exact Nat.le_of_eq (weights_none client hevent)

/-- The rest of the submit handler is taken out. -/
theorem store_submit {now : Int} {attempt : Attempt} (hplaced : Placed r)
    (hen : r.Enabled (.submit now attempt)) :
    (r.next client (.submit now attempt)).store + (RunningEvent.submit now attempt).draws ≤
      r.store + (RunningEvent.submit now attempt).stores := by
  have hweights := weights_submit client hplaced hen
  have hsubmit : r.atSubmit = true := hen.2
  have hafter : (r.next client (.submit now attempt)).atSubmit = false := by
    simp only [Running.atSubmit, Running.next, Running.submittingAfter]
    split
    · rfl
    · cases r.submitting <;> simp
  have hdelayed : (r.next client (.submit now attempt)).delayed = r.delayed := rfl
  simp only [Running.store, hdelayed, hsubmit, hafter, RunningEvent.draws, RunningEvent.stores,
    if_true, Bool.false_eq_true, if_false]
  omega

/-- A statement of a thread puts nothing in. -/
theorem store_step {t : Thread} (hplaced : Placed r) (hen : r.Enabled (.step t)) :
    (r.next client (.step t)).store + (RunningEvent.step t).draws ≤
      r.store + (RunningEvent.step t).stores := by
  have hweights := weights_step client hplaced hen
  have hdelayed : (r.next client (.step t)).delayed = r.delayed := rfl
  have hsubmit : (r.next client (.step t)).atSubmit = true → r.atSubmit = true := by
    simp only [Running.atSubmit, Running.next, Running.submittingAfter]
    split <;> simp
  simp only [Running.store, hdelayed, RunningEvent.draws, RunningEvent.stores]
  by_cases hafter : (r.next client (.step t)).atSubmit = true
  · rw [if_pos hafter, if_pos (hsubmit hafter)]
    omega
  · rw [if_neg hafter]
    omega

/-- **An event takes out of the store, or puts in, what it says.** -/
theorem store_next {e : RunningEvent} (hplaced : Placed r) (hen : r.Enabled e) :
    (r.next client e).store + e.draws ≤ r.store + e.stores := by
  cases e with
  | asyncSend t call sendDelayMs => exact store_asyncSend client t call sendDelayMs
  | submit now attempt => exact store_submit client hplaced hen
  | step t => exact store_step client hplaced hen
  | expire k =>
    obtain ⟨-, hk⟩ := hen
    have hsubmit : (r.next client (.expire k)).atSubmit = r.atSubmit := rfl
    have hevent : r.requestEvent (.expire k) = some (.start (r.delayed[k], {})) := by
      simp [Running.requestEvent, List.getElem?_eq_getElem hk]
    have hweights := weights_start client hevent
    have hdelayed : (r.next client (.expire k)).delayed.length = r.delayed.length - 1 :=
      List.length_eraseIdx_of_lt hk
    simp only [Running.store, hsubmit, RunningEvent.draws, RunningEvent.stores]
    omega
  | delayFails k =>
    obtain ⟨-, hk⟩ := hen
    have hsubmit : (r.next client (.delayFails k)).atSubmit = r.atSubmit := rfl
    have hweights := weights_none client (r := r) (e := .delayFails k) rfl
    have hdelayed : (r.next client (.delayFails k)).delayed.length = r.delayed.length - 1 :=
      List.length_eraseIdx_of_lt hk
    simp only [Running.store, hsubmit, RunningEvent.draws, RunningEvent.stores]
    omega
  | startTimer =>
    obtain ⟨i, rest, hcons⟩ := List.exists_cons_of_ne_nil hen.2
    have hevent : r.requestEvent .startTimer = some (.on i .startTimer) := by
      simp [Running.requestEvent, hcons]
    have hweights := weights_on client hplaced hen hevent
    have hdelayed : (r.next client .startTimer).delayed = r.delayed := rfl
    have hsubmit : r.atSubmit = false := by simp [Running.atSubmit, hen.1.2]
    simp only [Running.store, hdelayed, hsubmit, RunningEvent.draws, RunningEvent.stores,
      Event.lowers] at hweights ⊢
    split <;> omega
  | timerExpires i => exact store_same client rfl rfl (weights_on client hplaced hen rfl)
  | handle i e =>
    refine store_same client rfl rfl
      ((Nat.add_le_add_left ?_ _).trans (weights_on client hplaced hen rfl))
    cases e <;> simp [RunningEvent.draws, Event.lowers]
  | connection e => exact store_same client rfl rfl (Nat.le_of_eq (weights_none client rfl))
  | callbackReturns t => exact store_same client rfl rfl (Nat.le_of_eq (weights_none client rfl))
  | lockTimesOut t => exact store_same client rfl rfl (Nat.le_of_eq (weights_none client rfl))

end store

/-! ## What is left to do -/

/-- The events that finish what has begun. What comes from outside is calls of `asyncSend`,
deliveries by nghttp2 and spurious wake-ups. -/
def RunningEvent.finishes : RunningEvent → Bool
  | .connection e => (ClientEvent.connection e).finishes
  | .callbackReturns _ | .expire _ | .delayFails _ | .startTimer | .submit .. | .step _
  | .lockTimesOut _ | .timerExpires _ | .handle _ .timerHandler | .handle _ .timerAborted => true
  | _ => false

/-- The thread that the event is of. -/
def RunningEvent.thread : RunningEvent → Thread
  | .connection e => e.thread
  | .asyncSend t .. | .callbackReturns t | .step t | .lockTimesOut t => t
  | _ => .io

/-- What the client has left to do at most, by itself. -/
def Running.rank (r : Running) (ts : Finset Thread) : Nat := ts.sum r.threads.rank + r.store

/-- What the invariants say of a running client. -/
structure InOrder (r : Running) : Prop where
  placed : Placed r
  tallied : Tallied r
  kept : ∀ s ∈ r.requests, Wellkept s.2

section rank

variable {client : Http2Client} {r : Running} {ts : Finset Thread}

theorem inOrder_run {closedCallbackSet : Bool} {es : List RunningEvent}
    (hrun : (running client).Run (.start closedCallbackSet) es) :
    InOrder ((running client).after (.start closedCallbackSet) es) :=
  ⟨placed_run hrun, tallied_run hrun, wellkept_run hrun⟩

/-- The event of the threads is of the same thread. -/
theorem thread_threadEvent {e : RunningEvent} {e' : ClientEvent}
    (hevent : r.threadEvent client e = some e') : e'.thread = e.thread := by
  cases e with
  | handle i e =>
    simp only [Running.threadEvent] at hevent
    split at hevent
    · obtain rfl := Option.some.inj hevent
      rfl
    · simp at hevent
  | startTimer => simp [Running.threadEvent] at hevent
  | timerExpires i => simp [Running.threadEvent] at hevent
  | _ =>
    obtain rfl := Option.some.inj hevent
    rfl

/-- A timer that was cancelled does not call back. -/
theorem callsBack_timerAborted (i : Nat) : r.callsBack client i .timerAborted = false := by
  unfold Running.callsBack
  cases r.requests[i]? with
  | none => rfl
  | some s => simp [newCallbacks_eq (callbacks_next client s.1 s.2 .timerAborted)]

/-- What an event of the threads costs is in store, or comes from outside. -/
theorem cost_le {e : RunningEvent} {e' : ClientEvent}
    (hevent : r.threadEvent client e = some e') :
    e'.cost + e.stores + (if e.finishes then 1 else 0) ≤
      (if e'.finishes then 1 else 0) + e.draws + if e.finishes then 0 else 41 := by
  simp only [RunningEvent.stores, RunningEvent.finishes, RunningEvent.draws, ClientEvent.cost,
    ClientEvent.finishes]
  cases e with
  | connection e =>
    obtain rfl := Option.some.inj hevent
    cases e with
    | wake t timedOut => cases timedOut <;> simp
    | _ => simp
  | asyncSend t call sendDelayMs =>
    obtain rfl := Option.some.inj hevent
    by_cases hdelay : 0 < sendDelayMs <;> simp [hdelay]
  | submit now attempt =>
    obtain rfl := Option.some.inj hevent
    cases accepted r.connected r.hasSession attempt <;> simp
  | handle i e =>
    simp only [Running.threadEvent] at hevent
    split at hevent
    · next hcalls =>
      obtain rfl := Option.some.inj hevent
      cases e with
      | timerAborted => simp [callsBack_timerAborted] at hcalls
      | _ => simp
    · simp at hevent
  | startTimer => simp [Running.threadEvent] at hevent
  | timerExpires i => simp [Running.threadEvent] at hevent
  | _ =>
    obtain rfl := Option.some.inj hevent
    simp

/-- An event that is none of the threads draws from the store, or comes from outside. -/
theorem draws_none {e : RunningEvent} (hevent : r.threadEvent client e = none) :
    e.stores + (if e.finishes then 1 else 0) ≤ e.draws + if e.finishes then 0 else 41 := by
  cases e with
  | handle i e => cases e <;> simp [RunningEvent.stores, RunningEvent.finishes, RunningEvent.draws]
  | startTimer => simp [RunningEvent.stores, RunningEvent.finishes, RunningEvent.draws]
  | timerExpires i => simp [RunningEvent.stores, RunningEvent.finishes, RunningEvent.draws]
  | _ => simp [Running.threadEvent] at hevent

/-- **An event that finishes lowers what is left to do, and one from outside adds 41 at most.** -/
theorem rank_running (client : Http2Client) {e : RunningEvent} (hinorder : InOrder r)
    (h : Confined ts r.threads) (hmem : e.thread ∈ ts) (hen : r.Enabled e) :
    Confined ts (r.next client e).threads ∧
      (r.next client e).rank ts + (if e.finishes then 1 else 0) ≤
        r.rank ts + if e.finishes then 0 else 41 := by
  have hstore := store_next client hinorder.placed hen
  unfold Running.rank
  cases hevent : r.threadEvent client e with
  | none =>
    have hdraws := draws_none hevent
    rw [threads_next_none hevent]
    exact ⟨h, by omega⟩
  | some e' =>
    have hen' := enabled_threadEvent hinorder.tallied hinorder.kept hen hevent
    obtain ⟨hconfined, hsum⟩ := confined_event h (thread_threadEvent hevent ▸ hmem) hen'
    have hcost := cost_le hevent
    rw [threads_next_some hevent]
    exact ⟨hconfined, by omega⟩

/-! ## Rest -/

/-- Where a thread can go on by itself, the client can. -/
theorem finishes_threads {e : ClientEvent} (he : e.finishes = true) (hen : r.threads.Enabled e) :
    ∃ e', RunningEvent.finishes e' = true ∧ r.Enabled e' := by
  cases e with
  | connection e =>
    refine ⟨.connection e, he, hen, ?_⟩
    cases e <;> simp [ConnectionEvent.isDelivery, ClientEvent.finishes] at he ⊢
  | callbackReturns t => exact ⟨.callbackReturns t, rfl, hen⟩
  | step t => exact ⟨.step t, rfl, hen⟩
  | lockTimesOut t => exact ⟨.lockTimesOut t, rfl, hen⟩
  | _ => simp [ClientEvent.finishes] at he

/-- Nothing is left to do, everybody is out of the client, and both mutexes are free. -/
structure Running.AtRest (r : Running) : Prop where
  quiet : r.Quiet
  aborted : ∀ s ∈ r.requests, s.2.timer ≠ .aborted
  out : ∀ t, r.threads.pcs t = .idle ∧ (r.threads.connection.pcs t).ready = true
  mutex : r.threads.mutex = none ∧ r.threads.connection.mutex = none

/-- **A client does nothing by itself exactly where nothing is left to do.** -/
theorem stuck_iff_atRest (hinorder : InOrder r) (hexclusive : Exclusive r.threads)
    (hmutexOwned : MutexOwned r.threads) (hpointed : Pointed r.threads.connection)
    (hopen : ∀ t, (r.threads.connection.pcs t).closes = false)
    (hstopped : r.threads.connection.stopped = false) :
    (∀ e, RunningEvent.finishes e = true → ¬r.Enabled e) ↔ r.AtRest := by
  constructor
  swap
  · intro hrest e he hen
    have hthreads : ∀ e, ClientEvent.finishes e = true → ¬r.threads.Enabled e :=
      (stuck_iff_out hexclusive hmutexOwned hpointed hopen).mpr
        ⟨hrest.mutex.1, hrest.mutex.2, hrest.out⟩
    cases e with
    | connection e => exact hthreads (.connection e) he hen.1
    | callbackReturns t => exact hthreads (.callbackReturns t) rfl hen
    | step t => exact hthreads (.step t) rfl hen
    | lockTimesOut t => exact hthreads (.lockTimesOut t) rfl hen
    | asyncSend t call sendDelayMs => simp [RunningEvent.finishes] at he
    | expire k => simpa [hrest.quiet.delayed] using hen.2
    | delayFails k => simpa [hrest.quiet.delayed] using hen.2
    | startTimer => exact hen.2 hrest.quiet.queue
    | submit now attempt => simpa [hrest.quiet.submitting] using hen.2
    | timerExpires i =>
      obtain ⟨s, hs, htimer⟩ := hen
      exact (hrest.quiet.timers s (List.mem_of_getElem? hs)).1 htimer
    | handle i e =>
      obtain ⟨-, -, s, hs, hen⟩ := hen
      have hmem := List.mem_of_getElem? hs
      cases e with
      | timerHandler => exact (hrest.quiet.timers s hmem).2 hen.1
      | timerAborted => exact hrest.aborted s hmem hen.1
      | _ => simp [RunningEvent.finishes] at he
  intro hstuck
  have hthreads : ∀ e, ClientEvent.finishes e = true → ¬r.threads.Enabled e := by
    intro e he hen
    obtain ⟨e', he', hen'⟩ := finishes_threads he hen
    exact hstuck e' he' hen'
  obtain ⟨hmutex, hconnection, hout⟩ :=
    (stuck_iff_out hexclusive hmutexOwned hpointed hopen).mp hthreads
  have hidle : r.threads.IoIdle := ⟨(hout .io).1, (hout .io).2, hstopped⟩
  have hsubmitting : r.submitting = none := by
    rcases hs : r.submitting with _ | ⟨i, _ | e⟩
    · rfl
    · exact absurd ⟨hidle, by simp [hs]⟩ (hstuck (.submit 0 .null) rfl)
    · have hclosing := (hinorder.placed.closing .io).mpr ⟨rfl, i, e, hs⟩
      simp [(hout .io).1] at hclosing
  have hfree : r.IoFree := ⟨hidle, hsubmitting⟩
  have hphase {i : Nat} {s : Call × Request} (hi : r.requests[i]? = some s) :
      s.2.phase ≠ .submitting := by
    intro hphase
    obtain ⟨o, ho⟩ := (hinorder.placed.submitting i).mp (by simp [Running.phase, hi, hphase])
    simp [hsubmitting] at ho
  refine ⟨⟨?_, ?_, ?_, hsubmitting, ?_⟩, ?_, hout, hmutex, hconnection⟩
  · by_contra hdelayed
    exact hstuck (.expire 0) rfl ⟨hfree, List.length_pos_iff.mpr hdelayed⟩
  · intro t
    rw [(hout t).1]
    rfl
  · by_contra hqueue
    exact hstuck .startTimer rfl ⟨hfree, hqueue⟩
  · intro s hs
    obtain ⟨i, hi⟩ := List.mem_iff_getElem?.mp hs
    constructor
    · intro htimer
      exact hstuck (.timerExpires i) rfl ⟨s, hi, htimer⟩
    · intro htimer
      exact hstuck (.handle i .timerHandler) rfl ⟨rfl, hfree, s, hi, htimer, hphase hi⟩
  · intro s hs htimer
    obtain ⟨i, hi⟩ := List.mem_iff_getElem?.mp hs
    exact hstuck (.handle i .timerAborted) rfl ⟨rfl, hfree, s, hi, htimer, hphase hi⟩

end rank

/-! ## Whole runs -/

section runs

variable {c : Connection} {client : Http2Client} {closedCallbackSet : Bool}

/-- Only `closeImpl` stops the `io_context`. -/
theorem stopped_next {e : ConnectionEvent} (hopen : ∀ t, (c.pcs t).closes = false) :
    (c.next e).stopped = c.stopped := by
  cases e with
  | step t =>
    have hclosed := hopen t
    simp only [Connection.next, Connection.step]
    cases hp : c.pcs t with
    | stop => simp [hp, Pc.closes] at hclosed
    | shutdown =>
      simp only
      split <;> rfl
    | configureSession =>
      simp only
      split <;> rfl
    | _ => rfl
  | create t created => cases created <;> rfl
  | notify t woken =>
    have hnotify : (c.notifyOne woken).stopped = c.stopped := by
      unfold Connection.notifyOne
      cases woken with
      | none => rfl
      | some t' =>
        simp only
        split <;> rfl
    simp only [Connection.next]
    split <;> exact hnotify
  | wake t timedOut =>
    simp only [Connection.next]
    split <;> rfl
  | _ => rfl

theorem stopped_run {es : List ClientEvent} (hrun : sending.Run (.start closedCallbackSet) es) :
    (sending.after (.start closedCallbackSet) es).connection.stopped = false := by
  refine history (H := fun _ s => s.connection.stopped = false) rfl ?_ hrun
  intro es e hprefix h hen
  have hopen := open_run hprefix
  change (ClientState.next _ e).connection.stopped = false
  cases connectionMoves_next hen with
  | stays _ hconn =>
    rw [hconn]
    exact h
  | moves e' he _ _ =>
    subst he
    exact (stopped_next hopen).trans h
  | fails he _ =>
    subst he
    exact h
  | reconnects t nested _ _ hconn =>
    rw [hconn]
    exact h

theorem rank_start (ts : Finset Thread) : (Running.start closedCallbackSet).rank ts = 0 := by
  have hthreads : ts.sum (ClientState.start closedCallbackSet).rank = 0 :=
    Finset.sum_eq_zero fun _ _ => rfl
  exact hthreads

/-- What has finished, and what is left to do, has come from outside. -/
theorem finished_le {es : List RunningEvent}
    (hrun : (running client).Run (.start closedCallbackSet) es) :
    es.countP RunningEvent.finishes ≤ 41 * es.countP (fun e => !e.finishes) := by
  let ts : Finset Thread := (es.map RunningEvent.thread).toFinset
  have hthreads : ∀ e ∈ es, e.thread ∈ ts := fun e he =>
    List.mem_toFinset.mpr (List.mem_map_of_mem he)
  have hpaid := history (M := running client)
    (H := fun es r => Confined ts r.threads ∧
      r.rank ts + es.countP RunningEvent.finishes ≤ 41 * es.countP (fun e => !e.finishes))
    ⟨fun _ _ => rfl, by simp [rank_start]⟩ ?_
    (hrun.and (along_of_forall hthreads))
  · exact (Nat.le_add_left _ _).trans hpaid.2
  · rintro es e hprefix ⟨hconfined, hpaid⟩ ⟨hen, hmem⟩
    have hinorder := inOrder_run (Along.imp (fun _ _ h => h.1) hprefix)
    obtain ⟨hconfined', hrank⟩ := rank_running client hinorder hconfined hmem hen
    refine ⟨hconfined', ?_⟩
    change (Running.next client _ e).rank ts + _ ≤ _
    rw [List.countP_append, List.countP_append, List.countP_singleton, List.countP_singleton]
    cases he : e.finishes with
    | true =>
      simp only [he, if_true, Bool.not_true, Bool.false_eq_true, if_false] at hrank ⊢
      omega
    | false =>
      simp only [he, if_true, Bool.not_false, Bool.false_eq_true, if_false] at hrank ⊢
      omega

theorem stuck_iff_atRest_run {es : List RunningEvent}
    (hrun : (running client).Run (.start closedCallbackSet) es) :
    let r := (running client).after (.start closedCallbackSet) es
    (∀ e, RunningEvent.finishes e = true → ¬r.Enabled e) ↔ r.AtRest := by
  intro r
  obtain ⟨hthreads, hafter⟩ := threads_run hrun
  have hafter' : r.threads = _ := hafter
  refine stuck_iff_atRest (inOrder_run hrun) ?_ ?_ ?_ ?_ ?_
  all_goals rw [hafter']
  · exact exclusive_run hthreads
  · exact mutexOwned_run hthreads
  · exact pointed_run hthreads
  · exact open_run hthreads
  · exact stopped_run hthreads

end runs

/-- **Every call is answered, unless its delay timer fails.** In every run of a client, at most 41
events finish what has begun for each that has come from outside; none can come any more exactly
where the client is at rest; and there every call has become a request whose callback has been
invoked, once, or has been dropped, one for each delay timer that has failed. -/
theorem every_call_answered (client : Http2Client) (closedCallbackSet : Bool)
    (es : List RunningEvent) (hrun : (running client).Run (.start closedCallbackSet) es) :
    let r := (running client).after (.start closedCallbackSet) es
    es.countP RunningEvent.finishes ≤ 41 * es.countP (fun e => !e.finishes) ∧
      ((∀ e, RunningEvent.finishes e = true → ¬r.Enabled e) ↔ r.AtRest) ∧
      (r.AtRest →
        (r.requests.map Prod.fst ++ droppedCalls client closedCallbackSet es).Perm (sentCalls es) ∧
        (∀ s ∈ r.requests, (callbacks s.2.effects).length = 1) ∧
        (droppedCalls client closedCallbackSet es).length =
          es.countP RunningEvent.isDelayFailure) := by
  intro r
  refine ⟨finished_le hrun, stuck_iff_atRest_run hrun, fun hrest => ?_⟩
  have hcalls : (r.delayed ++ r.requests.map Prod.fst ++
      droppedCalls client closedCallbackSet es).Perm (sentCalls es) := calls_kept hrun
  rw [hrest.quiet.delayed] at hcalls
  exact ⟨hcalls, quiet_answered hrun hrest.quiet, length_droppedCalls hrun⟩

/-- A request that nghttp2 takes and forgets. -/
def forgotten : List RunningEvent :=
  [.connection (.onConnect 0), .connection (.notify .io none), .asyncSend (.app 0) {} 0,
    .step (.app 0), .step (.app 0), .startTimer, .submit 5 .request, .timerExpires 0,
    .handle 0 .timerHandler, .callbackReturns .io]

theorem every_call_answered_forgotten :
    let r := (running {}).after (.start false) forgotten
    (∀ e, RunningEvent.finishes e = true → ¬r.Enabled e) ∧
      ∀ s ∈ r.requests, (callbacks s.2.effects).length = 1 := by
  intro r
  obtain ⟨-, hstuck, hanswered⟩ := every_call_answered {} false forgotten (by decide)
  have hrest : r.AtRest := by
    refine ⟨⟨by decide, ?_, by decide, by decide, ?_⟩, ?_, ?_, by decide, by decide⟩
    · exact fun | .io => rfl | .app 0 => rfl | .app (_ + 1) => rfl
    · exact List.forall_iff_forall_mem.mp (by decide)
    · exact List.forall_iff_forall_mem.mp (by decide)
    · exact fun | .io => ⟨rfl, rfl⟩ | .app 0 => ⟨rfl, rfl⟩ | .app (_ + 1) => ⟨rfl, rfl⟩
  exact ⟨hstuck.mpr hrest, (hanswered hrest).2.1⟩

end Http2Comm.Client
