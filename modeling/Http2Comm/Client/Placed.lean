import Http2Comm.Client.Running

/-!
# Where a request is

A call of `asyncSend` passes through many hands before its callback is invoked: a delay timer, the
thread that runs `async_send` and may wait there for a reconnection, the queue of the io thread,
its submit handler, and then the timer and the handlers of nghttp2. The hands are those of
different threads, and nothing but the discipline of the code says that a request is in one of them
and not in two. `Placed` is that discipline, as an invariant of a running client: the phase of a
request says where it is, and it is there once.

What an event does to the places is one of five things: a thread takes up a new request, lays one
down, or the submit handler takes one from the queue, fails or leaves (`begin`, `lay`, `take`,
`fail`, `leave`). Every other event moves a thread and leaves the requests where they are (`stay`).
-/

set_option autoImplicit false

namespace Http2Comm.Client

open Lib Lib.Machine

/-! ## Where a request is -/

/-- The phase of request `i`. -/
def Running.phase (r : Running) (i : Nat) : Option Phase := r.requests[i]?.map (·.2.phase)

/-- The request that a thread sends. -/
def Running.sending (r : Running) (t : Thread) : Option Nat := (r.current t).map (·.1)

/-- The phase of a request says where it is, and it is there once. -/
structure Placed (r : Running) : Prop where
  sends : ∀ t, (r.threads.pcs t).sends = (r.sending t).isSome
  alone : ∀ t t' i, r.sending t = some i → r.sending t' = some i → t = t'
  created : ∀ i, r.phase i = some .created ↔ ∃ t, r.sending t = some i
  posted : ∀ i, r.queue.count i = if r.phase i = some .posted then 1 else 0
  submitting : ∀ i, r.phase i = some .submitting ↔ ∃ o, r.submitting = some (i, o)
  /-- A thread in `notifyClose` is the io thread in a submit handler that has failed. -/
  closing : ∀ t, r.threads.pcs t = .notifyingClose ↔
    t = .io ∧ ∃ i e, r.submitting = some (i, some e)
  failing : ∀ i e, r.submitting = some (i, some e) →
    ∃ now isConnected hasSession attempt, e = .submit now isConnected hasSession attempt ∧
      accepted isConnected hasSession attempt = false

section step

variable {client : Http2Client} {r r' : Running} {t : Thread} {i : Nat}

theorem placed_start (closedCallbackSet : Bool) : Placed (.start closedCallbackSet) where
  sends _ := rfl
  alone _ _ _ h := by simp [Running.sending, Running.start] at h
  created i := by simp [Running.phase, Running.sending, Running.start]
  posted i := by simp [Running.phase, Running.start]
  submitting i := by simp [Running.phase, Running.start]
  closing t := by simp [Running.start, ClientState.start]
  failing i e h := by simp [Running.start] at h

/-- The places stay when the threads move without taking up or laying down a request. -/
theorem Placed.same (h : Placed r)
    (hsends : ∀ t, (r'.threads.pcs t).sends = (r.threads.pcs t).sends)
    (hclosing : ∀ t, r'.threads.pcs t = .notifyingClose ↔ r.threads.pcs t = .notifyingClose)
    (hsending : ∀ t, r'.sending t = r.sending t) (hqueue : r'.queue = r.queue)
    (hsubmitting : r'.submitting = r.submitting) (hphase : ∀ i, r'.phase i = r.phase i) :
    Placed r' where
  sends t := by rw [hsends, hsending, h.sends]
  alone t t' i ht ht' := h.alone t t' i (hsending t ▸ ht) (hsending t' ▸ ht')
  created i := by simp only [hphase, hsending, h.created]
  posted i := by rw [hqueue, hphase, h.posted]
  submitting i := by rw [hsubmitting, hphase, h.submitting]
  closing t := by rw [hsubmitting, hclosing, h.closing]
  failing i e he := h.failing i e (hsubmitting ▸ he)

/-! ## The phases after an event -/

theorem phase_start (s : Call × Request) (hrequests : r'.requests = r.requests ++ [s]) (i : Nat) :
    r'.phase i = if i = r.requests.length then some s.2.phase else r.phase i := by
  unfold Running.phase
  rw [hrequests]
  rcases Nat.lt_trichotomy i r.requests.length with hlt | heq | hgt
  · rw [List.getElem?_append_left hlt, if_neg (Nat.ne_of_lt hlt)]
  · simp [heq]
  · rw [List.getElem?_eq_none (by simp; omega), if_neg (Nat.ne_of_gt hgt),
      List.getElem?_eq_none (Nat.le_of_lt hgt)]

/-- An event that takes its request to the phase `p`, wherever it comes from. -/
theorem phase_on {j : Nat} {e : Event} {p : Phase}
    (hrequests : r'.requests = (requests client).next r.requests (.on j e))
    (hphase : ∀ call rq, (Request.next client call rq e).phase = p)
    (hj : (r.phase j).isSome) (i : Nat) :
    r'.phase i = if i = j then some p else r.phase i := by
  unfold Running.phase at hj ⊢
  rw [hrequests]
  change (r.requests.modify j fun s => (s.1, s.2.next client s.1 e))[i]?.map _ = _
  rw [List.getElem?_modify]
  by_cases hij : i = j
  · subst hij
    obtain ⟨s, hs⟩ : ∃ s, r.requests[i]? = some s := by
      rw [Option.isSome_map, Option.isSome_iff_exists] at hj
      exact hj
    simp [hs, hphase]
  · simp [hij, Ne.symm hij]

/-- An event that leaves its request in its phase. -/
theorem phase_on_same {j : Nat} {e : Event}
    (hrequests : r'.requests = (requests client).next r.requests (.on j e))
    (hphase : ∀ call rq, (Request.next client call rq e).phase = rq.phase) (i : Nat) :
    r'.phase i = r.phase i := by
  unfold Running.phase
  rw [hrequests]
  change (r.requests.modify j fun s => (s.1, s.2.next client s.1 e))[i]?.map _ = _
  rw [List.getElem?_modify]
  cases r.requests[i]? with
  | none => rfl
  | some s => by_cases hij : j = i <;> simp [hij, hphase]

theorem phase_isHandler {e : Event} (he : e.isHandler = true) (call : Call) (rq : Request) :
    (rq.next client call e).phase = rq.phase := by
  rw [phase_next]
  cases e <;> simp_all [Event.isHandler]

/-! ## Taking up, passing on, laying down -/

/-- A thread outside `async_send` takes up a new request. -/
theorem Placed.begin (h : Placed r) {call : Call} {nested : Bool}
    (hout : (r.threads.pcs t).sends = false) (hclosing : r.threads.pcs t ≠ .notifyingClose)
    (hpcs : r'.threads.pcs = Function.update r.threads.pcs t (.test nested))
    (hcurrent : r'.current = r.begin t)
    (hrequests : r'.requests = r.requests ++ [(call, ({} : Request))])
    (hqueue : r'.queue = r.queue) (hsubmitting : r'.submitting = r.submitting) : Placed r' := by
  have hphase := phase_start (call, {}) hrequests
  have hfresh : r.phase r.requests.length = none := by simp [Running.phase]
  have hsending (t' : Thread) :
      r'.sending t' = if t' = t then some r.requests.length else r.sending t' := by
    rw [Running.sending, hcurrent, Running.begin]
    by_cases ht : t' = t <;> simp [ht, Running.sending]
  -- nobody sends the new request yet
  have hnobody (t' : Thread) : r.sending t' ≠ some r.requests.length := fun hsends => by
    have hcreated := (h.created _).mpr ⟨t', hsends⟩
    simp [hfresh] at hcreated
  constructor
  · intro t'
    rw [hpcs, hsending]
    by_cases ht : t' = t
    · simp [ht, SendPc.sends]
    · simpa [ht] using h.sends t'
  · intro t₁ t₂ i h₁ h₂
    rw [hsending] at h₁ h₂
    by_cases ht₁ : t₁ = t <;> by_cases ht₂ : t₂ = t
    · rw [ht₁, ht₂]
    · rw [if_pos ht₁] at h₁
      rw [if_neg ht₂, ← h₁] at h₂
      exact absurd h₂ (hnobody t₂)
    · rw [if_pos ht₂] at h₂
      rw [if_neg ht₁, ← h₂] at h₁
      exact absurd h₁ (hnobody t₁)
    · rw [if_neg ht₁] at h₁
      rw [if_neg ht₂] at h₂
      exact h.alone t₁ t₂ i h₁ h₂
  · intro i
    rw [hphase]
    by_cases hi : i = r.requests.length
    · simp only [hi, if_true, true_iff]
      exact ⟨t, by simp [hsending]⟩
    · rw [if_neg hi, h.created]
      constructor
      · rintro ⟨t', ht'⟩
        have hne : t' ≠ t := by
          rintro rfl
          have hsends := h.sends t'
          simp [hout, ht'] at hsends
        exact ⟨t', by rw [hsending, if_neg hne, ht']⟩
      · rintro ⟨t', ht'⟩
        rw [hsending] at ht'
        split at ht'
        · exact absurd (Option.some.inj ht').symm hi
        · exact ⟨t', ht'⟩
  · intro i
    rw [hqueue, hphase, h.posted]
    by_cases hi : i = r.requests.length <;> simp [hi, hfresh]
  · intro i
    rw [hsubmitting, hphase, ← h.submitting]
    by_cases hi : i = r.requests.length <;> simp [hi, hfresh]
  · intro t'
    rw [hsubmitting, hpcs, ← h.closing]
    by_cases ht : t' = t
    · simp [ht, hclosing]
    · simp [ht]
  · intro i e he
    exact h.failing i e (hsubmitting ▸ he)

/-- A thread lays down its request, at the end of the queue or with a callback. -/
theorem Placed.lay (h : Placed r) {pc : SendPc} {p : Phase} (hi : r.sending t = some i)
    (hpc : pc.sends = false ∧ pc ≠ .notifyingClose) (hp : p = .posted ∨ p = .unsent)
    (hpcs : r'.threads.pcs = Function.update r.threads.pcs t pc)
    (hcurrent : r'.current = Function.update r.current t none)
    (hphase : ∀ j, r'.phase j = if j = i then some p else r.phase j)
    (hqueue : r'.queue = r.queue ++ if p = .posted then [i] else [])
    (hsubmitting : r'.submitting = r.submitting) : Placed r' := by
  have hcreated := (h.created i).mpr ⟨t, hi⟩
  have hsends : (r.threads.pcs t).sends = true := by rw [h.sends, hi]; rfl
  have hsending (t' : Thread) : r'.sending t' = if t' = t then none else r.sending t' := by
    rw [Running.sending, hcurrent]
    by_cases ht : t' = t <;> simp [ht, Running.sending]
  constructor
  · intro t'
    rw [hpcs, hsending]
    by_cases ht : t' = t
    · simp [ht, hpc.1]
    · simpa [ht] using h.sends t'
  · intro t₁ t₂ j h₁ h₂
    rw [hsending] at h₁ h₂
    split at h₁
    · simp at h₁
    · split at h₂
      · simp at h₂
      · exact h.alone t₁ t₂ j h₁ h₂
  · intro j
    rw [hphase]
    by_cases hj : j = i
    · subst hj
      constructor
      · rcases hp with rfl | rfl <;> simp
      · rintro ⟨t', ht'⟩
        rw [hsending] at ht'
        split at ht'
        · simp at ht'
        · next hne => exact absurd (h.alone t' t j ht' hi) hne
    · rw [if_neg hj, h.created]
      constructor
      · rintro ⟨t', ht'⟩
        refine ⟨t', ?_⟩
        rw [hsending, if_neg, ht']
        rintro rfl
        exact hj (Option.some.inj (ht'.symm.trans hi))
      · rintro ⟨t', ht'⟩
        rw [hsending] at ht'
        split at ht'
        · simp at ht'
        · exact ⟨t', ht'⟩
  · intro j
    rw [hqueue, List.count_append, h.posted, hphase]
    by_cases hj : j = i
    · subst hj
      rcases hp with rfl | rfl <;> simp [hcreated]
    · rcases hp with rfl | rfl <;> simp [hj, Ne.symm hj]
  · intro j
    rw [hsubmitting, ← h.submitting, hphase]
    by_cases hj : j = i
    · subst hj
      rcases hp with rfl | rfl <;> simp [hcreated]
    · simp [hj]
  · intro t'
    rw [hsubmitting, hpcs, ← h.closing]
    by_cases ht : t' = t
    · subst ht
      simp only [Function.update_self, hpc.2, false_iff]
      intro hclosing
      simp [hclosing, SendPc.sends] at hsends
    · simp [ht]
  · intro j e he
    exact h.failing j e (hsubmitting ▸ he)

/-- The io thread takes the first request of the queue. -/
theorem Placed.take (h : Placed r) {rest : List Nat} (hqueue : r.queue = i :: rest)
    (hfree : r.submitting = none) (hthreads : r'.threads = r.threads)
    (hcurrent : r'.current = r.current)
    (hphase : ∀ j, r'.phase j = if j = i then some .submitting else r.phase j)
    (hqueue' : r'.queue = rest) (hsubmitting : r'.submitting = some (i, none)) : Placed r' := by
  have hcount (j : Nat) : (if i = j then 1 else 0) + rest.count j =
      if r.phase j = some .posted then 1 else 0 := by
    rw [← h.posted, hqueue, List.count_cons, Nat.add_comm]
    simp
  have hposted : r.phase i = some .posted := by
    by_contra hno
    have hi := hcount i
    simp [hno] at hi
  have hsending (t : Thread) : r'.sending t = r.sending t := by
    rw [Running.sending, hcurrent, Running.sending]
  constructor
  · intro t
    rw [hthreads, hsending, h.sends]
  · intro t₁ t₂ j h₁ h₂
    exact h.alone t₁ t₂ j (hsending t₁ ▸ h₁) (hsending t₂ ▸ h₂)
  · intro j
    simp only [hphase, hsending, ← h.created]
    by_cases hj : j = i <;> simp [hj, hposted]
  · intro j
    rw [hqueue', hphase]
    have hj := hcount j
    by_cases hij : j = i
    · subst hij
      simp only [if_true, hposted] at hj
      simp only [if_true]
      simpa using hj
    · simpa [hij, Ne.symm hij] using hj
  · intro j
    rw [hphase, hsubmitting]
    by_cases hij : j = i
    · simp [hij]
    · simp [hij, h.submitting, hfree, Ne.symm hij]
  · intro t
    rw [hthreads, h.closing, hsubmitting, hfree]
    simp
  · intro j e he
    simp [hsubmitting] at he

/-- The submit handler fails, and goes into `notifyClose`. -/
theorem Placed.fail (h : Placed r) {e : Event} (hi : r.submitting = some (i, none))
    (hidle : r.threads.pcs .io = .idle)
    (hpcs : r'.threads.pcs = Function.update r.threads.pcs .io .notifyingClose)
    (hcurrent : r'.current = r.current) (hphase : ∀ j, r'.phase j = r.phase j)
    (hqueue : r'.queue = r.queue) (hsubmitting : r'.submitting = some (i, some e))
    (he : ∃ now isConnected hasSession attempt, e = .submit now isConnected hasSession attempt ∧
      accepted isConnected hasSession attempt = false) : Placed r' := by
  have hsending (t : Thread) : r'.sending t = r.sending t := by
    rw [Running.sending, hcurrent, Running.sending]
  constructor
  · intro t
    rw [hsending, ← h.sends, hpcs]
    by_cases ht : t = .io
    · simp [ht, hidle, SendPc.sends]
    · simp [ht]
  · intro t₁ t₂ j h₁ h₂
    exact h.alone t₁ t₂ j (hsending t₁ ▸ h₁) (hsending t₂ ▸ h₂)
  · intro j
    simp only [hphase, hsending, h.created]
  · intro j
    rw [hqueue, hphase, h.posted]
  · intro j
    rw [hphase, h.submitting, hi, hsubmitting]
    simp
  · intro t
    rw [hpcs, hsubmitting]
    by_cases ht : t = .io
    · simp [ht]
    · simp [ht, h.closing]
  · intro j e' he'
    rw [hsubmitting] at he'
    obtain ⟨-, hevent⟩ := Prod.mk.inj (Option.some.inj he')
    obtain rfl := Option.some.inj hevent
    exact he

/-- The submit handler ends, with or without a request of nghttp2. -/
theorem Placed.leave (h : Placed r) {o : Option Event} {p : Phase}
    (hi : r.submitting = some (i, o)) (hp : p = .submitted ∨ p = .failed)
    (hsends : ∀ t, (r'.threads.pcs t).sends = (r.threads.pcs t).sends)
    (hclosing : ∀ t, r'.threads.pcs t ≠ .notifyingClose) (hcurrent : r'.current = r.current)
    (hphase : ∀ j, r'.phase j = if j = i then some p else r.phase j)
    (hqueue : r'.queue = r.queue) (hsubmitting : r'.submitting = none) : Placed r' := by
  have hphase_i : r.phase i = some .submitting := (h.submitting i).mpr ⟨o, hi⟩
  have hsending (t : Thread) : r'.sending t = r.sending t := by
    rw [Running.sending, hcurrent, Running.sending]
  constructor
  · intro t
    rw [hsends, hsending, h.sends]
  · intro t₁ t₂ j h₁ h₂
    exact h.alone t₁ t₂ j (hsending t₁ ▸ h₁) (hsending t₂ ▸ h₂)
  · intro j
    simp only [hphase, hsending, ← h.created]
    by_cases hj : j = i
    · rcases hp with rfl | rfl <;> simp [hj, hphase_i]
    · simp [hj]
  · intro j
    rw [hqueue, h.posted, hphase]
    by_cases hj : j = i
    · rcases hp with rfl | rfl <;> simp [hj, hphase_i]
    · simp [hj]
  · intro j
    rw [hsubmitting, hphase]
    by_cases hj : j = i
    · rcases hp with rfl | rfl <;> simp [hj]
    · simp [hj, h.submitting, hi, Ne.symm hj]
  · intro t
    simp [hclosing t, hsubmitting]
  · intro j e he
    simp [hsubmitting] at he

/-! ## One event -/

theorem sends_of_current {v : Bool} (hcurrent : r.current t = some (i, v)) :
    r.sending t = some i := by
  rw [Running.sending, hcurrent]
  rfl

/-- The request that a thread in `async_send` sends. -/
theorem Placed.current (h : Placed r) (hsends : (r.threads.pcs t).sends = true) :
    ∃ i v, r.current t = some (i, v) ∧ r.phase i = some .created := by
  have hsome := h.sends t
  rw [hsends, Running.sending, Option.isSome_map, eq_comm, Option.isSome_iff_exists] at hsome
  obtain ⟨⟨i, v⟩, hcurrent⟩ := hsome
  exact ⟨i, v, hcurrent, (h.created i).mpr ⟨t, sends_of_current hcurrent⟩⟩

/-- The submit handler that is to try is at its request. -/
theorem submitting_of_atSubmit (h : r.submitting.any (·.2.isNone) = true) :
    ∃ i, r.submitting = some (i, none) := by
  rcases hs : r.submitting with _ | ⟨i, _ | e⟩
  · simp [hs] at h
  · exact ⟨i, rfl⟩
  · simp [hs] at h

theorem threads_next_step (client : Http2Client) (r : Running) (t : Thread) :
    (r.next client (.step t)).threads = r.threads.step t := rfl

/-- A statement after which the thread sends the same request, or none still. -/
theorem Placed.stay (h : Placed r) {pc : SendPc}
    (hsends : pc.sends = (r.threads.pcs t).sends) (hclosing : pc ≠ .notifyingClose)
    (hclosing' : r.threads.pcs t ≠ .notifyingClose)
    (hpcs : r'.threads.pcs = Function.update r.threads.pcs t pc)
    (hsending : ∀ t', r'.sending t' = r.sending t') (hqueue : r'.queue = r.queue)
    (hsubmitting : r'.submitting = r.submitting) (hphase : ∀ j, r'.phase j = r.phase j) :
    Placed r' := by
  refine h.same ?_ ?_ hsending hqueue hsubmitting hphase
  · intro t'
    by_cases ht : t' = t
    · simp [hpcs, ht, hsends]
    · simp [hpcs, ht]
  · intro t'
    by_cases ht : t' = t
    · simp [hpcs, ht, hclosing, hclosing']
    · simp [hpcs, ht]

/-! ### A statement of `async_send` or `reconnect`

One lemma for each statement that does more than move its thread. -/

theorem phase_next_none {e : RunningEvent} (h : r.requestEvent e = none) (j : Nat) :
    (r.next client e).phase j = r.phase j := by
  rw [Running.phase, requests_next_none h, Running.phase]

/-- The first test: on a lost connection the thread goes on into `reconnect` with its request. -/
theorem placed_test (h : Placed r) {nested : Bool} (hp : r.threads.pcs t = .test nested) :
    Placed (r.next client (.step t)) := by
  have hpcs := congrArg ClientState.pcs (threads_next_step client r t)
  simp only [ClientState.step, hp] at hpcs
  have hnone : r.requestEvent (.step t) = none := by simp [Running.requestEvent, hp]
  refine h.stay (t := t) ?_ ?_ (by simp [hp]) hpcs ?_ ?_ ?_ (phase_next_none hnone)
  · rw [hp]
    split <;> rfl
  · split <;> simp
  · intro t'
    simp only [Running.sending, Running.next, Running.currentAfter, hp]
    split
    · rfl
    · by_cases ht : t' = t
      · simp [ht, Function.comp_def]
      · simp [ht]
  · simp [Running.next, Running.queueAfter, hp]
  · simp [Running.next, Running.submittingAfter, hp]

/-- A statement that moves its thread, and leaves what it sends where it is. -/
theorem placed_moves (h : Placed r) (pc : SendPc)
    (hpcs : (r.threads.step t).pcs = Function.update r.threads.pcs t pc)
    (hsends : pc.sends = (r.threads.pcs t).sends) (hclosing : pc ≠ .notifyingClose)
    (hclosing' : r.threads.pcs t ≠ .notifyingClose)
    (hcurrent : r.currentAfter (.step t) = r.current)
    (hqueue : r.queueAfter (.step t) = r.queue)
    (hsubmitting : r.submittingAfter (.step t) = r.submitting)
    (hnone : r.requestEvent (.step t) = none) : Placed (r.next client (.step t)) := by
  refine h.stay hsends hclosing hclosing' hpcs (fun t' => ?_) hqueue hsubmitting
    (phase_next_none hnone)
  rw [Running.sending, Running.next, hcurrent, Running.sending]

/-- The test after the lock is given back: the thread goes on to post, or answers with `-1`. -/
theorem placed_retest (h : Placed r) {nested : Bool} (hp : r.threads.pcs t = .retest nested) :
    Placed (r.next client (.step t)) := by
  obtain ⟨i, v, hi, hcreated⟩ := h.current (by rw [hp]; rfl)
  by_cases hopened : r.threads.connection.status = .opened
  · have hconnected : r.connected = true := by simp [Running.connected, hopened]
    refine placed_moves h (.post nested) ?_ (by rw [hp]; rfl) (by simp) (by simp [hp]) ?_ ?_
      ?_ ?_
    · simp [ClientState.step, ClientState.goto, hp, hopened]
    · simp [Running.currentAfter, hp, hconnected]
    · simp [Running.queueAfter, hp]
    · simp [Running.submittingAfter, hp]
    · simp [Running.requestEvent, hp, hi, hconnected]
  · have hconnected : r.connected = false := by simp [Running.connected, hopened]
    have hevent : r.requestEvent (.step t) = some (.on i (.asyncSend false false)) := by
      simp [Running.requestEvent, hp, hi, hconnected]
    have hpcs := congrArg ClientState.pcs (threads_next_step client r t)
    simp only [ClientState.step, hp, hopened, if_false] at hpcs
    refine h.lay (sends_of_current hi) ⟨rfl, by simp⟩ (Or.inr rfl) hpcs ?_
      (phase_on (requests_next_some hevent) ?_ ?_) ?_ ?_
    · simp [Running.next, Running.currentAfter, hp, hconnected]
    · simp [phase_next]
    · simp [hcreated]
    · simp [Running.next, Running.queueAfter, hp]
    · simp [Running.next, Running.submittingAfter, hp]

/-- The thread posts its request to the queue. -/
theorem placed_post (h : Placed r) {nested : Bool} (hp : r.threads.pcs t = .post nested) :
    Placed (r.next client (.step t)) := by
  obtain ⟨i, v, hi, hcreated⟩ := h.current (by rw [hp]; rfl)
  have hevent : r.requestEvent (.step t) = some (.on i (.asyncSend (!v) v)) := by
    simp [Running.requestEvent, hp, hi]
  have hpcs := congrArg ClientState.pcs (threads_next_step client r t)
  simp only [ClientState.step, hp] at hpcs
  refine h.lay (sends_of_current hi) ?_ (Or.inl rfl) hpcs ?_
    (phase_on (requests_next_some hevent) ?_ ?_) ?_ ?_
  · cases nested <;> simp [SendPc.sends]
  · simp [Running.next, Running.currentAfter, hp]
  · simp [phase_next]
  · simp [hcreated]
  · simp [Running.next, Running.queueAfter, hp, hi]
  · simp [Running.next, Running.submittingAfter, hp]

/-- The submit handler that has failed comes back from `notifyClose`, and answers with `-3`. -/
theorem placed_notifyingClose (h : Placed r) (hp : r.threads.pcs t = .notifyingClose) :
    Placed (r.next client (.step t)) := by
  obtain ⟨rfl, i, e, hi⟩ := (h.closing t).mp hp
  obtain ⟨now, isConnected, hasSession, attempt, rfl, hrejected⟩ := h.failing i e hi
  have hevent : r.requestEvent (.step .io) =
      some (.on i (.submit now isConnected hasSession attempt)) := by
    simp [Running.requestEvent, hp, hi]
  have hpcs := congrArg ClientState.pcs (threads_next_step client r .io)
  simp only [ClientState.step, hp] at hpcs
  have hphase_i : r.phase i = some .submitting := (h.submitting i).mpr ⟨_, hi⟩
  refine h.leave hi (Or.inr rfl) ?_ ?_ ?_ (phase_on (requests_next_some hevent) ?_ ?_) ?_ ?_
  · intro t'
    by_cases ht : t' = .io
    · simp [hpcs, ClientState.goto, ht, hp, SendPc.sends]
    · simp [hpcs, ClientState.goto, ht]
  · intro t'
    by_cases ht : t' = .io
    · simp [hpcs, ClientState.goto, ht]
    · simp [hpcs, ClientState.goto, ht, h.closing]
  · simp [Running.next, Running.currentAfter, hp]
  · simp [phase_next, hrejected]
  · simp [hphase_i]
  · simp [Running.next, Running.queueAfter, hp]
  · simp [Running.next, Running.submittingAfter, hp]

theorem placed_step (h : Placed r) (hcan : r.threads.CanStep t) :
    Placed (r.next client (.step t)) := by
  -- the mutex is taken or given back, or `reconnect` is called or has returned
  have hmoves (pc : SendPc) (hpcs : (r.threads.step t).pcs = Function.update r.threads.pcs t pc)
      (hpc : pc.sends = true) (hsends : (r.threads.pcs t).sends = true)
      (hcurrent : r.currentAfter (.step t) = r.current)
      (hqueue : r.queueAfter (.step t) = r.queue)
      (hnone : r.requestEvent (.step t) = none) : Placed (r.next client (.step t)) := by
    have hin {pc : SendPc} (hpc : pc.sends = true) : pc ≠ .notifyingClose := by
      rintro rfl
      cases hpc
    refine placed_moves h pc hpcs (hpc.trans hsends.symm) (hin hpc) (hin hsends) hcurrent hqueue ?_
      hnone
    exact if_neg (hin hsends)
  simp only [ClientState.CanStep] at hcan
  cases hp : r.threads.pcs t with
  | idle => simp [hp] at hcan
  | inCallback => simp [hp] at hcan
  | test nested => exact placed_test h hp
  | retest nested => exact placed_retest h hp
  | post nested => exact placed_post h hp
  | notifyingClose => exact placed_notifyingClose h hp
  | lockedTest nested =>
    by_cases hopened : r.threads.connection.status = .opened
    · refine hmoves (.unlock nested) ?_ rfl (by rw [hp]; rfl) ?_ ?_ ?_
      · simp [ClientState.step, ClientState.goto, hp, hopened]
      all_goals simp [Running.currentAfter, Running.queueAfter, Running.requestEvent, hp]
    · refine hmoves (.reconnecting nested) ?_ rfl (by rw [hp]; rfl) ?_ ?_ ?_
      · simp [ClientState.step, ClientState.goto, hp, hopened]
      all_goals simp [Running.currentAfter, Running.queueAfter, Running.requestEvent, hp]
  | lock nested =>
    refine hmoves (.lockedTest nested) ?_ rfl (by rw [hp]; rfl) ?_ ?_ ?_
    · simp [ClientState.step, ClientState.goto, hp]
    all_goals simp [Running.currentAfter, Running.queueAfter, Running.requestEvent, hp]
  | reconnecting nested =>
    refine hmoves (.unlock nested) ?_ rfl (by rw [hp]; rfl) ?_ ?_ ?_
    · simp [ClientState.step, ClientState.goto, hp]
    all_goals simp [Running.currentAfter, Running.queueAfter, Running.requestEvent, hp]
  | unlock nested =>
    refine hmoves (.retest nested) ?_ rfl (by rw [hp]; rfl) ?_ ?_ ?_
    · simp [ClientState.step, ClientState.goto, hp]
    all_goals simp [Running.currentAfter, Running.queueAfter, Running.requestEvent, hp]

/-! ### The other events -/

theorem inUserCode_outside (h : r.threads.InUserCode t) :
    (r.threads.pcs t).sends = false ∧ r.threads.pcs t ≠ .notifyingClose := by
  rcases h with hp | ⟨-, hp⟩ <;> simp [hp, SendPc.sends]

/-- A request that its handlers move is where it was. -/
theorem phase_handle {j : Nat} {e : RunningEvent} {e' : Event}
    (hevent : r.requestEvent e = some (.on j e'))
    (he : e'.isHandler = true ∨ e' = .timerExpires) (i : Nat) :
    (r.next client e).phase i = r.phase i := by
  refine phase_on_same (requests_next_some hevent) ?_ i
  intro call rq
  rcases he with he | rfl
  · exact phase_isHandler he call rq
  · simp [phase_next]

theorem placed_asyncSend (h : Placed r) {call : Call} {sendDelayMs : Int}
    (hen : r.threads.InUserCode t) : Placed (r.next client (.asyncSend t call sendDelayMs)) := by
  obtain ⟨hout, hclosing⟩ := inUserCode_outside hen
  by_cases hdelay : 0 < sendDelayMs
  · have hpcs : (r.next client (.asyncSend t call sendDelayMs)).threads.pcs = r.threads.pcs := by
      simp [Running.next, Running.threadEvent, ClientState.next, hdelay]
    refine h.same (fun _ => by rw [hpcs]) (fun _ => by rw [hpcs]) (fun _ => ?_) rfl rfl
      (phase_next_none (by simp [Running.requestEvent, hdelay]))
    simp [Running.sending, Running.next, Running.currentAfter, hdelay]
  · have hpcs : (r.next client (.asyncSend t call sendDelayMs)).threads.pcs =
        Function.update r.threads.pcs t (.test (decide (r.threads.pcs t = .inCallback))) := by
      simp [Running.next, Running.threadEvent, ClientState.next, ClientState.goto, hdelay]
    refine h.begin hout hclosing hpcs ?_ (requests_asyncSend hdelay) rfl rfl
    simp [Running.next, Running.currentAfter, hdelay]

theorem placed_expire (h : Placed r) {k : Nat} (hidle : r.threads.pcs .io = .idle)
    (hk : k < r.delayed.length) : Placed (r.next client (.expire k)) := by
  have hpcs : (r.next client (.expire k)).threads.pcs =
      Function.update r.threads.pcs .io (.test false) := rfl
  exact h.begin (by rw [hidle]; rfl) (by simp [hidle]) hpcs rfl (requests_expire hk) rfl rfl

theorem placed_startTimer (h : Placed r) (hfree : r.submitting = none) (hqueue : r.queue ≠ []) :
    Placed (r.next client .startTimer) := by
  obtain ⟨i, rest, hcons⟩ := List.exists_cons_of_ne_nil hqueue
  have hposted : r.phase i = some .posted := by
    by_contra hno
    have hcount := h.posted i
    simp [hcons, hno] at hcount
  have hevent : r.requestEvent .startTimer = some (.on i .startTimer) := by
    simp [Running.requestEvent, hcons]
  refine h.take hcons hfree rfl rfl (phase_on (requests_next_some hevent) ?_ ?_) ?_ ?_
  · simp [phase_next]
  · simp [hposted]
  · simp [Running.next, Running.queueAfter, hcons]
  · simp [Running.next, Running.submittingAfter, hcons]

/-- The submit handler gets its request and is done, or it goes into `notifyClose`. -/
theorem placed_submit (h : Placed r) {now : Int} {attempt : Attempt}
    (hidle : r.threads.pcs .io = .idle) (hi : r.submitting = some (i, none)) :
    Placed (r.next client (.submit now attempt)) := by
  cases hacc : accepted r.connected r.hasSession attempt with
  | true =>
    have hevent : r.requestEvent (.submit now attempt) =
        some (.on i (.submit now r.connected r.hasSession attempt)) := by
      simp [Running.requestEvent, hacc, hi]
    have hpcs : (r.next client (.submit now attempt)).threads.pcs = r.threads.pcs := by
      simp [Running.next, Running.threadEvent, ClientState.next, hacc]
    refine h.leave hi (Or.inl rfl) (fun _ => by rw [hpcs]) (fun t => ?_) rfl
      (phase_on (requests_next_some hevent) ?_ ?_) rfl ?_
    · rw [hpcs, Ne, h.closing, hi]
      simp
    · simp [phase_next, hacc]
    · simp [(h.submitting i).mpr ⟨none, hi⟩]
    · simp [Running.next, Running.submittingAfter, hacc]
  | false =>
    have hpcs : (r.next client (.submit now attempt)).threads.pcs =
        Function.update r.threads.pcs .io .notifyingClose := by
      simp [Running.next, Running.threadEvent, ClientState.next, ClientState.goto, hacc]
    refine h.fail hi hidle hpcs rfl (phase_next_none ?_) rfl ?_ ⟨now, _, _, _, rfl, hacc⟩
    · simp [Running.requestEvent, hacc]
    · simp [Running.next, Running.submittingAfter, hacc, hi]

theorem placed_lockTimesOut (h : Placed r) {nested : Bool}
    (hp : r.threads.pcs t = .lock nested) : Placed (r.next client (.lockTimesOut t)) := by
  have hpcs : (r.next client (.lockTimesOut t)).threads.pcs =
      Function.update r.threads.pcs t (.retest nested) := by
    simp [Running.next, Running.threadEvent, ClientState.next, ClientState.goto, hp]
  exact h.stay (by rw [hp]; rfl) (by simp) (by simp [hp]) hpcs (fun _ => rfl) rfl rfl fun _ => rfl

/-- A handler may call back, and leaves its request where it is. -/
theorem placed_handle (h : Placed r) {e : Event} (hidle : r.threads.pcs .io = .idle)
    (hhandler : e.isHandler = true) : Placed (r.next client (.handle i e)) := by
  have hphase (j : Nat) : (r.next client (.handle i e)).phase j = r.phase j :=
    phase_handle rfl (Or.inl hhandler) j
  cases hcalls : r.callsBack client i e with
  | true =>
    have hpcs : (r.next client (.handle i e)).threads.pcs =
        Function.update r.threads.pcs .io .inCallback := by
      simp [Running.next, Running.threadEvent, ClientState.next, ClientState.goto, hcalls]
    exact h.stay (by rw [hidle]; rfl) (by simp) (by simp [hidle]) hpcs (fun _ => rfl) rfl rfl
      hphase
  | false =>
    have hpcs : (r.next client (.handle i e)).threads.pcs = r.threads.pcs := by
      simp [Running.next, Running.threadEvent, hcalls]
    exact h.same (fun _ => by rw [hpcs]) (fun _ => by rw [hpcs]) (fun _ => rfl) rfl rfl hphase

/-- **Every event keeps the requests in their places.** -/
theorem placed_next (e : RunningEvent) (h : Placed r) (hen : r.Enabled e) :
    Placed (r.next client e) := by
  cases e with
  | connection e =>
    exact h.same (fun _ => rfl) (fun _ => Iff.rfl) (fun _ => rfl) rfl rfl fun _ => rfl
  | asyncSend t call sendDelayMs => exact placed_asyncSend h hen
  | callbackReturns t =>
    have hp : r.threads.pcs t = .inCallback := hen
    have hpcs : (r.next client (.callbackReturns t)).threads.pcs =
        Function.update r.threads.pcs t .idle := rfl
    exact h.stay (by rw [hp]; rfl) (by simp) (by simp [hp]) hpcs (fun _ => rfl) rfl rfl
      fun _ => rfl
  | expire k => exact placed_expire h hen.1.1.1 hen.2
  | delayFails k =>
    exact h.same (fun _ => rfl) (fun _ => Iff.rfl) (fun _ => rfl) rfl rfl fun _ => rfl
  | startTimer => exact placed_startTimer h hen.1.2 hen.2
  | submit now attempt =>
    obtain ⟨i, hi⟩ := submitting_of_atSubmit hen.2
    exact placed_submit h hen.1.1 hi
  | step t => exact placed_step h hen
  | lockTimesOut t =>
    rcases hen with hp | hp
    · exact placed_lockTimesOut h hp
    · exact placed_lockTimesOut h hp
  | timerExpires i =>
    exact h.same (fun _ => rfl) (fun _ => Iff.rfl) (fun _ => rfl) rfl rfl
      (phase_handle rfl (Or.inr rfl))
  | handle i e => exact placed_handle h hen.2.1.1.1 hen.1

theorem placed_run {closedCallbackSet : Bool} {es : List RunningEvent}
    (hrun : (running client).Run (.start closedCallbackSet) es) :
    Placed ((running client).after (.start closedCallbackSet) es) :=
  invariant (fun _ e h hen => placed_next e h hen) (placed_start closedCallbackSet) hrun

end step

end Http2Comm.Client
