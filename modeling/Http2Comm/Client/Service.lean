import Http2Comm.Client.Completion
import Http2Comm.Lib.Service

/-!
# The client as a service

What a client is for, with its threads, mutexes, timers and queues out of sight: it is asked by
calls of `asyncSend`, and each call it answers once, by its callback, with the outcome of a request
of **that very call**, or it drops it where the delay timer of the call fails. `running_serves` says
that every run of a client, seen from there, is a run of that service: a callback is invoked only
for a call made before and not answered or dropped yet, whatever the threads, the timers and nghttp2
do. At rest everything that was asked has been answered, or dropped.

A call is asked for when `asyncSend` is called, which for a delayed one is before its request is
there: what is pending is the calls whose delay runs, beside the requests without a callback.
-/

set_option autoImplicit false

namespace Http2Comm.Client

open Lib Lib.Machine

/-- The call of a request that has not had its callback. -/
def pends (s : Call × Request) : Option Call :=
  if callbacks s.2.effects = [] then some s.1 else none

/-- The callback that an event of a request invokes. -/
def replies (client : Http2Client) (s : Call × Request) (e : Event) : Option (Option Response) :=
  (newCallbacks s.2 (s.2.next client s.1 e)).head?.map some

/-- What the events of a request have to say to its call: their outcome, which is a code of the
client with nothing else, or has a status of the server. -/
def AnswersTo (client : Http2Client) (_ : Call) (es : List Event) (response : Response) : Prop :=
  outcome client.metrics es = some response ∧
    ((response.statusCode ∈ [-1, -2, -3, -4] ∧
        response = { statusCode := response.statusCode }) ∨ 0 ≤ response.statusCode)

section request

variable {client : Http2Client} {call : Call} {rq : Request} {e : Event}

theorem Kept.callbacks_le (h : Kept rq) : (callbacks rq.effects).length ≤ 1 := by
  by_cases hunsent : rq.phase = .unsent
  · exact Nat.le_of_eq (h.unsent hunsent)
  · rw [h.invoked hunsent]
    split <;> decide

theorem answersTo_outcome {es : List Event} {response : Response}
    (h : outcome client.metrics es = some response) : AnswersTo client call es response := by
  refine ⟨h, ?_⟩
  obtain ⟨⟨before, e⟩, -, hanswer⟩ := Option.bind_eq_some_iff.mp h
  cases e with
  | onData chunk =>
    obtain ⟨⟨now, res⟩, -, rfl⟩ := Option.map_eq_some_iff.mp hanswer
    exact Or.inr (Int.natCast_nonneg _)
  | asyncSend =>
    obtain rfl := Option.some.inj hanswer
    exact Or.inl (by simp)
  | submit =>
    obtain rfl := Option.some.inj hanswer
    exact Or.inl (by simp)
  | timerHandler =>
    obtain rfl := Option.some.inj hanswer
    exact Or.inl (by simp)
  | onClose =>
    obtain rfl := Option.some.inj hanswer
    exact Or.inl (by simp)
  | _ => simp [answer] at hanswer

/-- What calls back finds the call pending, and settles it. -/
theorem pends_replied (hkept : Kept rq) (hen : rq.Enabled e) {r : Option Response}
    (hreplies : replies client (call, rq) e = some r) :
    pends (call, rq) = some call ∧ pends (call, rq.next client call e) = none ∧
      ∃ response, r = some response ∧ response ∈ newCallbacks rq (rq.next client call e) := by
  obtain ⟨response, hnew, rfl⟩ := Option.map_eq_some_iff.mp hreplies
  have hmem : response ∈ newCallbacks rq (rq.next client call e) := List.mem_of_head? hnew
  have hle : (callbacks (rq.next client call e).effects).length ≤ 1 :=
    (kept_step hkept hen).callbacks_le
  -- the callbacks so far and this one are one together
  have hcallbacks : callbacks rq.effects = [] := by
    by_contra hsome
    have hbefore := List.length_pos_iff.mpr hsome
    have hafter := List.length_pos_of_mem hmem
    rw [newCallbacks, List.length_drop] at hafter
    omega
  have hlater : callbacks (rq.next client call e).effects ≠ [] :=
    List.ne_nil_of_mem (List.mem_of_mem_drop hmem)
  exact ⟨if_pos hcallbacks, if_neg hlater, response, rfl, hmem⟩

/-- What does not call back settles nothing. -/
theorem pends_silent (hreplies : replies client (call, rq) e = none) :
    pends (call, rq.next client call e) = pends (call, rq) := by
  have hnew : newCallbacks rq (rq.next client call e) = [] :=
    List.head?_eq_none_iff.mp (Option.map_eq_none_iff.mp hreplies)
  have hcallbacks := callbacks_next client call rq e
  rw [newCallbacks_eq hcallbacks] at hnew
  simp only [pends, hcallbacks, hnew, List.append_nil]

/-- **A request settles its call once**, by its callback. -/
theorem request_settles (client : Http2Client) :
    Settles (sentRequest client) (·.2 = {}) pends (AnswersTo client) (replies client) where
  start := by
    rintro ⟨call, _⟩ rfl
    rfl
  settles := by
    intro s₀ es e r hinit hrun hen hreplies
    have htracks : Tracks client.metrics es ((sentRequest client).after s₀ es).2 :=
      history (H := fun es s => Tracks client.metrics es s.2) (hinit ▸ tracks_start client.metrics)
        (fun _ _ _ h hen => tracks_step h hen) hrun
    obtain ⟨hbefore, hafter, response, rfl, hmem⟩ := pends_replied htracks.kept hen hreplies
    refine ⟨_, hbefore, hafter, ?_⟩
    rintro b hb
    obtain rfl : response = b := by simpa using hb
    have hcallback := List.mem_of_mem_drop hmem
    rw [(tracks_step htracks hen).callbacks, Option.mem_toList] at hcallback
    exact answersTo_outcome hcallback
  silent _ _ _ hreplies := pends_silent hreplies

end request

/-! ## Whole runs -/

/-- What an event of the client is to the service. -/
def Running.serviceEvent (client : Http2Client) (r : Running) :
    RunningEvent → Option (ServiceEvent Call Response)
  | .asyncSend _ call _ => some (.ask call)
  | .delayFails k => r.delayed[k]?.map .drop
  | e =>
    match r.requestEvent e with
    | some (.on i e') =>
      (poolServiceEvent pends (replies client) r.requests (.on i e')).map (·.map Prod.snd)
    | _ => none

/-- The calls that have still to be answered. -/
def Running.pending (r : Running) : Multiset Call :=
  r.delayed + (pendingOf pends r.requests).map Prod.snd

/-- What a run is to the service. -/
def serviceEvents (client : Http2Client) (closedCallbackSet : Bool) (es : List RunningEvent) :
    List (ServiceEvent Call Response) :=
  (running client).seen (Running.serviceEvent client) (.start closedCallbackSet) es

/-- What answers a call in a run: what the events of a request of that call have to say to it. -/
def Answered (client : Http2Client) (closedCallbackSet : Bool) (es : List RunningEvent)
    (call : Call) (response : Response) : Prop :=
  ∃ i, (startedOf pends (requestEvents client closedCallbackSet es))[i]? = some call ∧
    AnsweredBy (AnswersTo client) (requestEvents client closedCallbackSet es) (i, call) response

section runs

variable {client : Http2Client} {r : Running} {closedCallbackSet : Bool} {es : List RunningEvent}

/-- What has answered a call answers it for good. -/
theorem Answered.mono {es' : List RunningEvent} {call : Call} {response : Response}
    (h : Answered client closedCallbackSet es call response) (hes : es <+: es') :
    Answered client closedCallbackSet es' call response := by
  obtain ⟨i, hi, hanswered⟩ := h
  have hevents : requestEvents client closedCallbackSet es <+:
      requestEvents client closedCallbackSet es' := seen_prefix hes
  have hstarted : startedOf pends (requestEvents client closedCallbackSet es) <+:
      startedOf pends (requestEvents client closedCallbackSet es') := hevents.filterMap _
  obtain ⟨hlt, hcall⟩ := List.getElem?_eq_some_iff.mp hi
  refine ⟨i, ?_, hanswered.mono hevents⟩
  rw [List.prefix_iff_getElem?.mp hstarted i hlt, hcall]

/-- The requests are those started, in order, each with the call it has started with. -/
theorem calls_started {res : List (PoolEvent (Call × Request) Event)}
    (hrun : (requests client).Run [] res) :
    ((requests client).after [] res).map Prod.fst = startedOf pends res := by
  refine history (H := fun res ss => ss.map Prod.fst = startedOf pends res) rfl ?_ hrun
  intro res e _ h hen
  rw [startedOf, List.filterMap_append, ← startedOf, ← h]
  generalize (requests client).after [] res = ss at *
  cases e with
  | start s =>
    obtain ⟨call, rq⟩ := s
    obtain rfl : rq = {} := hen
    exact List.map_append
  | on i e => exact (calls_on ss i e).trans (List.append_nil _).symm

theorem pending_snoc (rs : List (Call × Request)) (call : Call) :
    (pendingOf pends (rs ++ [(call, ({} : Request))])).map Prod.snd =
      (pendingOf pends rs).map Prod.snd + {call} := by
  have hone : pends (call, ({} : Request)) = some call := rfl
  rw [pendingOf_snoc, hone, Option.map_some, Option.toList_some, Multiset.coe_singleton,
    Multiset.map_add, Multiset.map_singleton]

/-- A call that is made is pending from then on. -/
theorem pending_asyncSend (t : Thread) (call : Call) (sendDelayMs : Int) :
    (r.next client (.asyncSend t call sendDelayMs)).pending = call ::ₘ r.pending := by
  unfold Running.pending
  by_cases hdelay : 0 < sendDelayMs
  · have hdelayed : (r.next client (.asyncSend t call sendDelayMs)).delayed =
        r.delayed ++ [call] := by
      simp [Running.next, Running.delayedAfter, hdelay]
    rw [requests_next_none (by simp [Running.requestEvent, hdelay]), hdelayed,
      ← Multiset.coe_add, Multiset.coe_singleton, add_right_comm, Multiset.add_comm _ {call},
      Multiset.singleton_add]
  · have hdelayed : (r.next client (.asyncSend t call sendDelayMs)).delayed = r.delayed := by
      simp [Running.next, Running.delayedAfter, hdelay]
    rw [requests_asyncSend hdelay, hdelayed, pending_snoc, ← add_assoc,
      Multiset.add_comm _ {call}, Multiset.singleton_add]

/-- A call whose delay expires stays pending. -/
theorem pending_expire {k : Nat} (hk : k < r.delayed.length) :
    (r.next client (.expire k)).pending = r.pending := by
  have hdelayed : (r.next client (.expire k)).delayed = r.delayed.eraseIdx k := rfl
  have hperm : (r.delayed[k] :: r.delayed.eraseIdx k).Perm r.delayed :=
    List.getElem_cons_eraseIdx_perm hk
  unfold Running.pending
  rw [requests_expire hk, hdelayed, pending_snoc, ← Multiset.coe_eq_coe.mpr hperm,
    ← Multiset.cons_coe, ← Multiset.singleton_add, Multiset.add_comm _ {r.delayed[k]},
    ← add_assoc, Multiset.add_comm _ {r.delayed[k]}]

variable (client) in
/-- A call whose delay timer fails is pending, and not any more then. -/
theorem pending_delayFails {k : Nat} (hk : k < r.delayed.length) :
    r.delayed[k] ∈ r.pending ∧
      (r.next client (.delayFails k)).pending = r.pending.erase r.delayed[k] := by
  have hmem : r.delayed[k] ∈ (r.delayed : Multiset Call) :=
    Multiset.mem_coe.mpr (List.getElem_mem hk)
  have hdelayed : (r.next client (.delayFails k)).delayed = r.delayed.eraseIdx k := rfl
  have hperm : (r.delayed[k] :: r.delayed.eraseIdx k).Perm r.delayed :=
    List.getElem_cons_eraseIdx_perm hk
  have herase : (r.delayed : Multiset Call).erase r.delayed[k] = r.delayed.eraseIdx k := by
    rw [← Multiset.coe_eq_coe.mpr hperm, ← Multiset.cons_coe, Multiset.erase_cons_head]
  unfold Running.pending
  rw [requests_next_none rfl, hdelayed, Multiset.erase_add_left_pos _ hmem, herase]
  exact ⟨Multiset.mem_add.mpr (Or.inl hmem), rfl⟩

/-- An event of a request settles its call, if it is seen, and leaves the others pending. -/
theorem pending_on (hrun : (running client).Run (.start closedCallbackSet) es) {e : RunningEvent}
    {i : Nat} {e' : Event} :
    let r := (running client).after (.start closedCallbackSet) es
    let answered := Answered client closedCallbackSet (es ++ [e])
    r.Enabled e → r.requestEvent e = some (.on i e') →
    (∀ b, poolServiceEvent pends (replies client) r.requests (.on i e') = some b →
        (service answered).Enabled r.pending (b.map Prod.snd) ∧
          (r.next client e).pending = (service answered).next r.pending (b.map Prod.snd)) ∧
      (poolServiceEvent pends (replies client) r.requests (.on i e') = none →
        (r.next client e).pending = r.pending) := by
  intro r answered hen hevent
  obtain ⟨hrequests, hafter⟩ := requests_run hrun
  have hen' : (requests client).Enabled r.requests (.on i e') :=
    enabled_requestEvent (placed_run hrun) hen hevent
  have hevents : requestEvents client closedCallbackSet (es ++ [e]) =
      requestEvents client closedCallbackSet es ++ [.on i e'] := by
    rw [requestEvents, seen_snoc, hevent]
    rfl
  have hstarted : r.requests.map Prod.fst =
      startedOf pends (requestEvents client closedCallbackSet (es ++ [e])) := by
    rw [hevents, startedOf, List.filterMap_append, ← startedOf, ← calls_started hrequests, ← hafter]
    exact (List.append_nil _).symm
  -- a pending call is that of its request, and what it gets the outcome of its events
  have hadmits (asks : Nat × Call) (hpending : asks ∈ pendingOf pends r.requests)
      (response : Response) (hanswered : AnsweredBy (AnswersTo client)
        (requestEvents client closedCallbackSet es ++ [.on i e']) asks response) :
      answered asks.2 response := by
    obtain ⟨s, hs, hpends⟩ := mem_pendingOf.mp hpending
    obtain ⟨-, hcall⟩ := Option.ite_none_right_eq_some.mp hpends
    refine ⟨asks.1, ?_, hevents ▸ hanswered⟩
    rw [← hstarted, List.getElem?_map, hs, Option.map_some]
    exact hcall
  obtain ⟨hseen, hunseen⟩ := settles_on (request_settles client) hrequests (hafter ▸ hen')
  have hdelayed : (r.next client e).delayed = r.delayed := delayedAfter_on hevent
  unfold Running.pending
  rw [requests_next_some hevent, hdelayed]
  constructor
  · intro b hb
    obtain ⟨henabled, hnext⟩ := hseen b (hafter ▸ hb)
    -- which request it is makes no difference to the client
    obtain ⟨henabled', hnext'⟩ := service_map hadmits (hafter ▸ henabled)
    obtain ⟨henabled'', hnext''⟩ := service_frame (r.delayed : Multiset Call) henabled'
    refine ⟨henabled'', Eq.trans ?_ hnext''.symm⟩
    exact congrArg ((r.delayed : Multiset Call) + ·)
      ((congrArg (Multiset.map Prod.snd) (hafter ▸ hnext)).trans hnext'.symm)
  · intro hnone
    exact congrArg (fun pending => (r.delayed : Multiset Call) + pending.map Prod.snd)
      (hafter ▸ hunseen (hafter ▸ hnone))

/-- **Every event of a client is one of the service, or none.** -/
theorem pending_event (hrun : (running client).Run (.start closedCallbackSet) es)
    (e : RunningEvent) :
    let r := (running client).after (.start closedCallbackSet) es
    let answered := Answered client closedCallbackSet (es ++ [e])
    r.Enabled e →
    (∀ b, r.serviceEvent client e = some b → (service answered).Enabled r.pending b ∧
        (r.next client e).pending = (service answered).next r.pending b) ∧
      (r.serviceEvent client e = none → (r.next client e).pending = r.pending) := by
  intro r answered hen
  by_cases hasync : ∃ t call sendDelayMs, e = .asyncSend t call sendDelayMs
  · obtain ⟨t, call, sendDelayMs, rfl⟩ := hasync
    refine ⟨fun b hb => ?_, fun hnone => ?_⟩
    · obtain rfl := Option.some.inj hb
      exact ⟨trivial, pending_asyncSend t call sendDelayMs⟩
    · simp [Running.serviceEvent] at hnone
  by_cases hfails : ∃ k, e = .delayFails k
  · obtain ⟨k, rfl⟩ := hfails
    obtain ⟨hmem, herase⟩ := pending_delayFails client hen.2
    rw [Running.serviceEvent, List.getElem?_eq_getElem hen.2]
    refine ⟨fun b hb => ?_, by simp⟩
    obtain rfl := Option.some.inj hb
    exact ⟨hmem, herase⟩
  have hservice : r.serviceEvent client e =
      match r.requestEvent e with
      | some (.on i e') =>
        (poolServiceEvent pends (replies client) r.requests (.on i e')).map (·.map Prod.snd)
      | _ => none := by
    cases e with
    | asyncSend t call sendDelayMs => exact absurd ⟨t, call, sendDelayMs, rfl⟩ hasync
    | delayFails k => exact absurd ⟨k, rfl⟩ hfails
    | _ => rfl
  rw [hservice]
  cases hevent : r.requestEvent e with
  | none =>
    refine ⟨by simp, fun _ => ?_⟩
    cases e with
    | asyncSend t call sendDelayMs => exact absurd ⟨t, call, sendDelayMs, rfl⟩ hasync
    | delayFails k => exact absurd ⟨k, rfl⟩ hfails
    | expire k => exact pending_expire hen.2
    | _ => simp [Running.pending, Running.next, Running.delayedAfter, hevent]
  | some e' =>
    cases e' with
    | on i e' =>
      obtain ⟨hseen, hunseen⟩ := pending_on hrun hen hevent
      refine ⟨fun b hb => ?_, fun hnone => hunseen (Option.map_eq_none_iff.mp hnone)⟩
      obtain ⟨b', hb', rfl⟩ := Option.map_eq_some_iff.mp hb
      exact hseen b' hb'
    | start s =>
      obtain ⟨k, rfl⟩ := (requestEvent_start hevent).resolve_left hasync
      exact ⟨by simp, fun _ => pending_expire hen.2⟩

/-- **Every run of a client is one of the service.** -/
theorem serviceEvents_run (hrun : (running client).Run (.start closedCallbackSet) es) :
    let seen := serviceEvents client closedCallbackSet es
    let answered := Answered client closedCallbackSet es
    (service answered).Run 0 seen ∧
      ((running client).after (.start closedCallbackSet) es).pending =
        (service answered).after 0 seen :=
  service_stutter (fun _ _ _ _ hes h => Answered.mono h hes) rfl
    (fun _ e b hprefix hen hseen => (pending_event hprefix e hen).1 b hseen)
    (fun _ e hprefix hen hseen => (pending_event hprefix e hen).2 hseen) hrun

/-- The service is asked by the calls of `asyncSend`. -/
theorem asked_serviceEvents (client : Http2Client) (closedCallbackSet : Bool)
    (es : List RunningEvent) :
    ServiceEvent.asked (serviceEvents client closedCallbackSet es) = sentCalls es := by
  induction es using List.reverseRecOn with
  | nil => rfl
  | append_singleton es e ih =>
    rw [serviceEvents, seen_snoc, ServiceEvent.asked_append, sentCalls_snoc, ← ih]
    refine congrArg _ ?_
    generalize (running client).after (.start closedCallbackSet) es = r
    cases e with
    | asyncSend t call sendDelayMs => rfl
    | delayFails k =>
      simp only [Running.serviceEvent]
      cases r.delayed[k]? <;> rfl
    | _ =>
      simp only [Running.serviceEvent]
      split
      · rw [Option.toList_map, ServiceEvent.asked_map, asked_on]
        rfl
      · rfl

theorem replies_answers (s : Call × Request) (e : Event) : replies client s e ≠ some none := by
  intro hnone
  obtain ⟨response, -, hsome⟩ := Option.map_eq_some_iff.mp hnone
  simp at hsome

/-- The calls that the service drops are those whose delay timer fails. -/
theorem dropped_serviceEvents (client : Http2Client) (closedCallbackSet : Bool)
    (es : List RunningEvent) :
    ServiceEvent.dropped (serviceEvents client closedCallbackSet es) =
      droppedCalls client closedCallbackSet es := by
  induction es using List.reverseRecOn with
  | nil => rfl
  | append_singleton es e ih =>
    rw [serviceEvents, seen_snoc, ServiceEvent.dropped_append, droppedCalls, seen_snoc,
      ← droppedCalls, ← ih]
    refine congrArg _ ?_
    generalize (running client).after (.start closedCallbackSet) es = r
    cases e with
    | asyncSend t call sendDelayMs => rfl
    | delayFails k =>
      simp only [Running.serviceEvent, Running.drops]
      cases r.delayed[k]? <;> rfl
    | _ =>
      simp only [Running.serviceEvent, Running.drops]
      split
      · rw [Option.toList_map, ServiceEvent.dropped_map, dropped_on replies_answers]
        rfl
      · rfl

end runs

end Http2Comm.Client
