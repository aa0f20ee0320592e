import Http2Comm.Lib.Pool
import Http2Comm.Server.Outcome

/-!
# Who keeps a stream alive

A `Stream` is owned by the callbacks that `handler` registers with nghttp2 and, from `dispatch` to
the end of `process`, by the worker. The handlers that `commit` leaves behind own nothing: the
expiry handler captures `this`, and so does the posted handler (`auto self = this`, next to a
`shared_from_this` that is commented out). nghttp2 destroys the callbacks once `on_close` has
returned, at a moment of its own, and the last owner to go destroys the stream. A handler that is
still queued then runs on a stream that is no longer there.

The destructor of the stream takes one of the handlers with it: destroying the timer aborts a wait
that is pending, and an aborted wait does not touch the stream. What is left are a wait that has
expired already, what it goes on to, and a posted handler. `ReleasesClear` is that none of them is
on its way when the last owner goes, and `freed_in_use_iff` that a stream is never used after it
has been destroyed **exactly if all its releases are clear**. An answer that races with the end of
its stream is all it takes to break that (the example at the end).

The request and the response of nghttp2, which the stream refers to, are not followed here.
-/

set_option autoImplicit false

namespace Http2Comm.Server

open Lib Lib.Machine

/-! ## State -/

/-- The worker, and its pointer to the stream: it has none, it is in `process`, or it has returned
from it. Without a queue dispatcher the callback of nghttp2 is the worker. -/
inductive Worker where
  | absent
  | working
  | returning
  deriving DecidableEq, Repr

/-- A stream with its owners. `usedAfterFree` says that a handler has used it without any. -/
structure Lifetime where
  stream : Stream
  callbacks : Bool := true
  worker : Worker := .absent
  usedAfterFree : Bool := false
  deriving DecidableEq, Repr

/-- Nobody owns the stream any more. -/
def Lifetime.destroyed (s : Lifetime) : Bool := !s.callbacks && decide (s.worker = .absent)

inductive LifetimeEvent where
  | stream (e : Event)
  /-- nghttp2 destroys the request and the response, with their callbacks. -/
  | release
  /-- The worker drops its pointer. -/
  | return

/-- The statement dereferences the stream. The handler of an aborted wait does not. -/
def Event.usesStream : Event → Bool
  | .timerExpires | .timerAborted => false
  | _ => true

/-- No statement on its way uses the stream. -/
def Stream.Harmless (st : Stream) : Prop := ∀ e, st.Enabled e → e.usesStream = false

def Lifetime.Enabled (s : Lifetime) : LifetimeEvent → Prop
  | .stream e => s.stream.Enabled e
  | .release => s.callbacks = true ∧ s.stream.closing = .finished
  | .return => s.worker = .returning

/-- Where the worker is after a statement of the stream: `process` ends with `commit`, and that with
its `async_wait` or its `post`. -/
def Worker.next (w : Worker) (e : Event) (work : Work) : Worker :=
  match w, e with
  | _, .endOfRequest _ => .working
  | .working, .commit => if work = .posting then .working else .returning
  | .working, .post => .returning
  | w, _ => w

/-- The last owner destroys the stream, and with it the timer. -/
def Lifetime.dropped (s : Lifetime) : Lifetime :=
  if s.destroyed = true ∧ s.stream.work = .armed then
    { s with stream := { s.stream with work := .aborted } }
  else s

def Lifetime.next (server : Http2Server) (s : Lifetime) : LifetimeEvent → Lifetime
  | .stream e =>
    let stream := s.stream.next server e
    { s with
      stream
      worker := s.worker.next e stream.work
      usedAfterFree := s.usedAfterFree || (s.destroyed && e.usesStream) }
  | .release => { s with callbacks := false }.dropped
  | .return => { s with worker := .absent }.dropped

instance (s : Lifetime) (e : LifetimeEvent) : Decidable (s.Enabled e) :=
  match e with
  | .stream e => inferInstanceAs (Decidable (s.stream.Enabled e))
  | .release => inferInstanceAs (Decidable (_ ∧ _))
  | .return => inferInstanceAs (Decidable (_ = _))

/-- The runs of a stream with its owners. -/
def lifetime (server : Http2Server) : Machine Lifetime LifetimeEvent where
  Enabled s e := s.Enabled e
  next s e := s.next server e

instance (server : Http2Server) (s : Lifetime) (e : LifetimeEvent) :
    Decidable ((lifetime server).Enabled s e) := inferInstanceAs (Decidable (s.Enabled e))

/-- A stream as `handler` creates it. -/
def Lifetime.start (req : Request) : Lifetime := { stream := .start req }

/-! ## Clear releases -/

/-- Nobody answers, and nobody is going to who is not told by the destructor. -/
def Work.settled : Work → Bool
  | .receiving | .armed | .aborted | .finished => true
  | _ => false

/-- A release that destroys the stream finds no expired wait, no `commit` of one, and no posted
handler. -/
def ReleasesClear (s : Lifetime) : LifetimeEvent → Prop
  | .stream _ => True
  | .release => s.worker = .absent → s.stream.work.settled = true
  | .return => s.callbacks = false → s.stream.work.settled = true

instance (s : Lifetime) (e : LifetimeEvent) : Decidable (ReleasesClear s e) :=
  match e with
  | .stream _ => isTrue trivial
  | .release | .return => inferInstanceAs (Decidable (_ → _))

/-- The stream is used by nobody after its end, so far and by what is on its way. -/
def Lifetime.Safe (s : Lifetime) : Prop :=
  s.usedAfterFree = false ∧ (s.destroyed = true → s.stream.Harmless)

/-- The worker owns a stream that it has not answered, nghttp2 destroys the callbacks after
`on_close`, and a destroyed stream has no timer. -/
structure Owned (s : Lifetime) : Prop where
  dispatched : s.stream.work = .queued ∨ s.stream.work = .provisioning → s.worker = .working
  closed : s.callbacks = false → s.stream.closing = .finished
  disarmed : s.destroyed = true → s.usedAfterFree = false → s.stream.work ≠ .armed

section step

variable {server : Http2Server} {s : Lifetime} {st : Stream} {e : Event}

/-- Once `on_close` has finished, what is on its way is the answering party alone. -/
theorem harmless_iff (hclosing : st.closing = .finished) :
    st.Harmless ↔ st.work.settled = true := by
  unfold Stream.Harmless
  constructor
  · intro hharmless
    cases hw : st.work with
    | queued =>
      exact absurd (hharmless (.process 0 false 0 acceptAll) hw) (by simp [Event.usesStream])
    | provisioning => exact absurd (hharmless (.provision 0) hw) (by simp [Event.usesStream])
    | committing => exact absurd (hharmless .commit hw) (by simp [Event.usesStream])
    | expired => exact absurd (hharmless (.timerHandler 0) hw) (by simp [Event.usesStream])
    | posting => exact absurd (hharmless .post hw) (by simp [Event.usesStream])
    | posted => exact absurd (hharmless .respond hw) (by simp [Event.usesStream])
    | _ => rfl
  · intro hsettled e hen
    cases e <;> simp_all [Stream.Enabled, Event.usesStream, Work.settled]

theorem owned_start (req : Request) : Owned (.start req) where
  dispatched h := by simp [Lifetime.start, Stream.start] at h
  closed h := by simp [Lifetime.start] at h
  disarmed h := by simp [Lifetime.start, Lifetime.destroyed] at h

/-! ## The last owner -/

@[simp] theorem dropped_callbacks : s.dropped.callbacks = s.callbacks := by
  unfold Lifetime.dropped
  split <;> rfl

@[simp] theorem dropped_worker : s.dropped.worker = s.worker := by
  unfold Lifetime.dropped
  split <;> rfl

@[simp] theorem dropped_usedAfterFree : s.dropped.usedAfterFree = s.usedAfterFree := by
  unfold Lifetime.dropped
  split <;> rfl

@[simp] theorem dropped_closing : s.dropped.stream.closing = s.stream.closing := by
  unfold Lifetime.dropped
  split <;> rfl

@[simp] theorem dropped_destroyed : s.dropped.destroyed = s.destroyed := by
  simp [Lifetime.destroyed]

theorem dropped_work : s.dropped.stream.work =
    if s.destroyed = true ∧ s.stream.work = .armed then .aborted else s.stream.work := by
  unfold Lifetime.dropped
  split <;> rfl

theorem dropped_settled : s.dropped.stream.work.settled = s.stream.work.settled := by
  rw [dropped_work]
  split
  · next h => simp [h.2, Work.settled]
  · rfl

/-! ## One event -/

theorem worker_absent {w : Worker} {work : Work} (he : ∀ id, e ≠ .endOfRequest id) :
    w.next e work = .absent ↔ w = .absent := by
  cases e <;> cases w <;> simp_all [Worker.next]
  all_goals split <;> simp

/-- A statement of a stream does not destroy it. -/
theorem destroyed_stream (h : Owned s) (hen : s.stream.Enabled e) :
    (s.next server (.stream e)).destroyed = s.destroyed := by
  cases hcallbacks : s.callbacks with
  | true => simp [Lifetime.destroyed, Lifetime.next, hcallbacks]
  | false =>
    -- no request ends after `on_close`
    have hclosing := h.closed hcallbacks
    have he : ∀ id, e ≠ .endOfRequest id := by
      rintro id rfl
      have hpending := hen.2
      simp [hclosing] at hpending
    simp [Lifetime.destroyed, Lifetime.next, hcallbacks, worker_absent he]

theorem owned_stream (h : Owned s) (hen : s.stream.Enabled e) :
    Owned (s.next server (.stream e)) where
  dispatched hw := by
    have hdispatched := h.dispatched
    simp only [Lifetime.next] at hw ⊢
    rw [work_next] at hw ⊢
    cases e with
    | endOfRequest id => simp [Worker.next]
    | process now busyConsumers queueSize a =>
      have hqueued : s.stream.work = .queued := hen
      simp [hdispatched (Or.inl hqueued), Worker.next]
    | commit =>
      simp only at hw
      split_ifs at hw <;> simp at hw
    | cancelTimer errorCode =>
      simp only at hw
      split_ifs at hw
      · simp at hw
      · simp [hdispatched hw, Worker.next]
    | data chunk receiveDataLen preReserve => simp [hdispatched hw, Worker.next]
    | mark now => simp [hdispatched hw, Worker.next]
    | notify counter => simp [hdispatched hw, Worker.next]
    | _ => simp at hw
  closed hcallbacks := by
    have hclosing : s.stream.closing = .finished := h.closed hcallbacks
    change (s.stream.next server e).closing = .finished
    rw [closing_next]
    cases e <;> simp_all [Stream.Enabled]
  disarmed hdestroyed hunused := by
    -- only a statement that uses the stream starts a wait
    rw [destroyed_stream h hen] at hdestroyed
    simp only [Lifetime.next, hdestroyed, Bool.true_and, Bool.or_eq_false_iff] at hunused ⊢
    rw [work_next]
    cases e <;> simp_all [Event.usesStream]

theorem owned_release (h : Owned s) (hen : s.Enabled .release) :
    Owned (s.next server .release) where
  dispatched hw := by
    have hdispatched := h.dispatched
    simp only [Lifetime.next, dropped_work, dropped_worker] at hw ⊢
    split_ifs at hw
    · simp at hw
    · exact hdispatched hw
  closed _ := by simpa [Lifetime.next] using hen.2
  disarmed hdestroyed _ := by
    simp only [Lifetime.next, dropped_destroyed, dropped_work] at hdestroyed ⊢
    split_ifs with harmed
    · simp
    · exact fun hw => harmed ⟨hdestroyed, hw⟩

theorem owned_return (h : Owned s) (hen : s.Enabled .return) :
    Owned (s.next server .return) where
  dispatched hw := by
    have hreturning : s.worker = .returning := hen
    have hdispatched := h.dispatched
    simp only [Lifetime.next, dropped_work] at hw
    split_ifs at hw
    · simp at hw
    · simp [hreturning] at hdispatched
      rcases hw with hw | hw
      · exact absurd hw hdispatched.1
      · exact absurd hw hdispatched.2
  closed hcallbacks := by
    have hcallbacks' : s.callbacks = false := by simpa [Lifetime.next] using hcallbacks
    simpa [Lifetime.next] using h.closed hcallbacks'
  disarmed hdestroyed _ := by
    simp only [Lifetime.next, dropped_destroyed, dropped_work] at hdestroyed ⊢
    split_ifs with harmed
    · simp
    · exact fun hw => harmed ⟨hdestroyed, hw⟩

theorem owned_next {e : LifetimeEvent} (h : Owned s) (hen : s.Enabled e) :
    Owned (s.next server e) := by
  cases e with
  | stream e => exact owned_stream h hen
  | release => exact owned_release h hen
  | «return» => exact owned_return h hen

/-! ## Safety, exactly -/

theorem callbacks_of_destroyed (h : s.destroyed = true) : s.callbacks = false := by
  simp only [Lifetime.destroyed, Bool.and_eq_true, Bool.not_eq_true'] at h
  exact h.1

/-- What has not been used after its end is safe when its answering party is settled. -/
theorem safe_iff (h : Owned s) : s.Safe ↔
    s.usedAfterFree = false ∧ (s.destroyed = true → s.stream.work.settled = true) := by
  refine and_congr_right fun _ => forall_congr' fun hdestroyed => ?_
  exact harmless_iff (h.closed (callbacks_of_destroyed hdestroyed))

theorem safe_stream (h : Owned s) (hen : s.stream.Enabled e) :
    (s.next server (.stream e)).Safe ↔ s.Safe := by
  have hnext : Owned (s.next server (.stream e)) := owned_stream h hen
  rw [safe_iff h, safe_iff hnext, destroyed_stream h hen]
  simp only [Lifetime.next, Bool.or_eq_false_iff, Bool.and_eq_false_imp]
  cases hdestroyed : s.destroyed with
  | false => simp
  | true =>
    -- the stream is gone: the event uses it, or it is the handler of an aborted wait
    have haborted (hunused : s.usedAfterFree = false) (huse : e.usesStream = false) :
        e = .timerAborted := by
      have hdisarmed := h.disarmed hdestroyed hunused
      cases e with
      | timerExpires => exact absurd hen hdisarmed
      | timerAborted => rfl
      | _ => simp [Event.usesStream] at huse
    have hclosing := h.closed (callbacks_of_destroyed hdestroyed)
    constructor
    · rintro ⟨⟨hunused, huse⟩, -⟩
      obtain rfl := haborted hunused (huse rfl)
      have hw : s.stream.work = .aborted := hen
      exact ⟨hunused, fun _ => by rw [hw]; rfl⟩
    · rintro ⟨hunused, hsettled⟩
      have huse := (harmless_iff hclosing).mpr (hsettled rfl) e hen
      obtain rfl := haborted hunused huse
      exact ⟨⟨hunused, fun _ => huse⟩, fun _ => rfl⟩

/-- **A release keeps the stream safe exactly if it is clear.** -/
theorem safe_next {e : LifetimeEvent} (h : Owned s) (hen : s.Enabled e) :
    (s.next server e).Safe ↔ s.Safe ∧ ReleasesClear s e := by
  have hnext : Owned (s.next server e) := owned_next h hen
  cases e with
  | stream e => simpa [ReleasesClear] using safe_stream h hen
  | release =>
    rw [safe_iff h, safe_iff hnext]
    simp [Lifetime.next, ReleasesClear, dropped_settled, Lifetime.destroyed, hen.1]
  | «return» =>
    have hreturning : s.worker = .returning := hen
    rw [safe_iff h, safe_iff hnext]
    simp [Lifetime.next, ReleasesClear, dropped_settled, Lifetime.destroyed, hreturning]

end step

/-! ## Whole runs -/

section runs

variable {server : Http2Server}

theorem safe_run {req : Request} {es : List LifetimeEvent}
    (hrun : (lifetime server).Run (.start req) es) :
    ((lifetime server).after (.start req) es).Safe ↔
      (lifetime server).Along ReleasesClear (.start req) es := by
  have hexact := exact_along (M := lifetime server) (G := Lifetime.Safe)
    (fun _ _ h hen => owned_next h hen) (fun _ _ h hen => safe_next h hen) (owned_start req) hrun
  have hstart : (Lifetime.start req).Safe :=
    ⟨rfl, fun hdestroyed => by simp [Lifetime.start, Lifetime.destroyed] at hdestroyed⟩
  exact hexact.trans (and_iff_right hstart)

theorem req_lifetime (s : Lifetime) (e : LifetimeEvent) :
    (s.next server e).stream.req = s.stream.req := by
  have hdropped (s : Lifetime) : s.dropped.stream.req = s.stream.req := by
    unfold Lifetime.dropped
    split <;> rfl
  cases e with
  | stream e => exact req_next server s.stream e
  | release => exact hdropped _
  | «return» => exact hdropped _

theorem req_run {req : Request} {es : List LifetimeEvent}
    (hrun : (lifetime server).Run (.start req) es) :
    ((lifetime server).after (.start req) es).stream.req = req :=
  invariant (I := fun s : Lifetime => s.stream.req = req)
    (fun s e h _ => (req_lifetime s e).trans h) rfl hrun

/-- Any number of streams of a server, with their owners. -/
def lifetimes (server : Http2Server) : Machine (List Lifetime) (PoolEvent Lifetime LifetimeEvent) :=
  (lifetime server).pool fun s => s = .start s.stream.req

instance (server : Http2Server) (ss : List Lifetime) (e : PoolEvent Lifetime LifetimeEvent) :
    Decidable ((lifetimes server).Enabled ss e) :=
  decidablePool (lifetime server) (fun s => s = .start s.stream.req) ss e

end runs

/-- **A stream is never used after its end exactly if its releases are clear.** In every run of any
number of streams with their owners, a stream has not been used after it was destroyed, and no
statement on its way will, if and only if whenever its last owner let go no handler with a bare
pointer to it was on its way. -/
theorem freed_in_use_iff (server : Http2Server) (es : List (PoolEvent Lifetime LifetimeEvent))
    (hrun : (lifetimes server).Run [] es) :
    ∀ i s, ((lifetimes server).after [] es)[i]? = some s →
      ((s.usedAfterFree = false ∧
          (s.destroyed = true → ∀ e, s.stream.Enabled e → e.usesStream = false)) ↔
        (lifetime server).Along ReleasesClear (.start s.stream.req) (PoolEvent.own i es)) := by
  intro i s hs
  obtain ⟨s₀, hinit, halone, rfl⟩ := (pool_component hrun).present i s hs
  rw [hinit] at halone ⊢
  rw [req_run halone]
  exact safe_run halone

/-- Two requests are answered. The first stream is closed after that, with a worker still about to
return; the second is reset, and gone, before its posted handler runs. -/
def answersAndReset : List (PoolEvent Lifetime LifetimeEvent) :=
  [.start (.start {}), .start (.start {}), .on 0 (.stream (.endOfRequest 1)),
    .on 1 (.stream (.endOfRequest 2)), .on 0 (.stream (.process 7 false 0 acceptAll)),
    .on 1 (.stream (.process 8 false 0 acceptAll)), .on 0 (.stream (.provision 0)),
    .on 0 (.stream .commit), .on 0 (.stream .post), .on 0 (.stream .respond),
    .on 1 (.stream (.provision 0)), .on 1 (.stream .commit), .on 1 (.stream .post),
    .on 1 .return, .on 0 (.stream (.cancelTimer 0)), .on 0 (.stream (.mark 9)),
    .on 1 (.stream (.cancelTimer 8)), .on 0 (.stream (.notify 2)), .on 1 (.stream (.mark 9)),
    .on 0 .release, .on 0 .return, .on 1 (.stream (.notify 2)), .on 1 .release,
    .on 1 (.stream .respond)]

theorem freed_in_use_iff_answered :
    ((lifetimes {}).after [] answersAndReset)[0]?.map (·.usedAfterFree) = some false := by
  have hreq : ((lifetimes {}).after [] answersAndReset)[0]?.map (·.stream.req) =
      some ({} : Request) := by decide
  obtain ⟨s, hs, hreq⟩ := Option.map_eq_some_iff.mp hreq
  have hclear : (lifetime {}).Along ReleasesClear (.start s.stream.req)
      (PoolEvent.own 0 answersAndReset) := by
    rw [hreq]
    decide
  have hsafe := (freed_in_use_iff {} answersAndReset (by decide) 0 s hs).mpr hclear
  rw [hs, Option.map_some, hsafe.1]

/-- The second stream is used after its end. -/
example : ((lifetimes {}).after [] answersAndReset)[1]?.map (·.usedAfterFree) = some true := by
  decide

end Http2Comm.Server
