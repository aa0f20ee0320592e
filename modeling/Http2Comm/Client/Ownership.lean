import Http2Comm.Client.Connection

/-!
# Who destroys the client

An `Http2Client` lives as long as the last `shared_ptr` to it: those of the application, the
`self` of each `async_send` in progress, and the copy of `self` that each posted submit handler
captures and that dies with the handler, on the io thread. The thread that drops the last one runs
the destructors of the client and of its connection, and so `closeImpl`, which joins `thread_`.

Joining is only possible for another thread (`join_on_io_stuck`), so the last owner must not be a
handler. `never_joins_itself` is the discipline that guarantees it: the application keeps a
reference until nothing else does, and drops it on a thread of its own. The discipline is
sufficient. A release that does not keep to it may still end well, when the application's thread
happens to drop the last reference after all; but it leaves that to chance, since a send on the io
thread that is still to come makes it a join of the io thread by itself
(`early_release_joins_itself`).
-/

set_option autoImplicit false

namespace Http2Comm.Client

open Lib Lib.Machine

/-! ## References -/

/-- An `async_send` in progress, which holds a `self`, and whether it has posted its submit
handler. -/
structure SendCall where
  thread : Thread
  posted : Bool := false
  deriving DecidableEq, Repr

/-- Who holds a reference to the client, and which thread has joined the io thread. The calls are
listed the latest first. -/
structure Owners where
  application : Nat := 1
  calls : List SendCall := []
  queued : Nat := 0
  running : Bool := false
  joinedBy : Option Thread := none
  deriving DecidableEq, Repr

/-- The `use_count` of the client. -/
def Owners.useCount (o : Owners) : Nat :=
  o.application + o.calls.length + o.queued + if o.running then 1 else 0

/-- After a release on `t`: the last one destroys the client, and `closeImpl` joins. -/
def Owners.released (o : Owners) (t : Thread) : Owners :=
  if o.useCount = 0 then { o with joinedBy := some t } else o

/-- The innermost call on the thread posts its handler. -/
def postInnermost (t : Thread) : List SendCall → List SendCall
  | [] => []
  | call :: calls =>
    if call.thread = t then { call with posted := true } :: calls
    else call :: postInnermost t calls

/-! ## Events -/

inductive OwnersEvent where
  /-- The application copies a reference. -/
  | copy
  /-- The application releases a reference on a thread. -/
  | release (t : Thread)
  /-- `async_send` is called: a delay timer and a response callback call it without a reference
  of their own. -/
  | asyncSend (t : Thread)
  /-- The call posts its submit handler. -/
  | post (t : Thread)
  /-- The call returns and releases its `self`. -/
  | return (t : Thread)
  /-- The io thread takes a submit handler from its queue and runs it. -/
  | run
  /-- The handler has run and is destroyed. -/
  | destroy
  deriving DecidableEq, Repr

/-- The io thread is not inside an `async_send`. -/
def Owners.IoOutside (o : Owners) : Prop := ∀ call ∈ o.calls, call.thread ≠ .io

instance (o : Owners) : Decidable o.IoOutside :=
  inferInstanceAs (Decidable (∀ call ∈ o.calls, _))

def Owners.Enabled (o : Owners) : OwnersEvent → Prop
  | .copy => 0 < o.application
  | .release _ => 0 < o.application
  | .asyncSend _ => 0 < o.useCount
  | .post t => (o.calls.find? (·.thread = t)).map SendCall.posted = some false
  | .return t => ∃ call ∈ o.calls, call.thread = t
  | .run => 0 < o.queued ∧ o.running = false ∧ o.IoOutside
  | .destroy => o.running = true ∧ o.IoOutside

def Owners.next (o : Owners) : OwnersEvent → Owners
  | .copy => { o with application := o.application + 1 }
  | .release t => { o with application := o.application - 1 }.released t
  | .asyncSend t => { o with calls := { thread := t } :: o.calls }
  | .post t => { o with calls := postInnermost t o.calls, queued := o.queued + 1 }
  | .return t => { o with calls := o.calls.eraseP (·.thread = t) }.released t
  | .run => { o with queued := o.queued - 1, running := true }
  | .destroy => { o with running := false }.released .io

instance Owners.decidableEnabled (o : Owners) (e : OwnersEvent) : Decidable (o.Enabled e) := by
  unfold Owners.Enabled
  split <;> infer_instance

/-- The references to a client, from its creation by the application. -/
def ownership : Machine Owners OwnersEvent where
  Enabled o e := o.Enabled e
  next o e := o.next e

instance decidableOwnership (o : Owners) (e : OwnersEvent) : Decidable (ownership.Enabled o e) :=
  inferInstanceAs (Decidable (o.Enabled e))

/-- The last reference of the application is the last of all, and is released on a thread of its
own. -/
def ReleasesLast (o : Owners) : OwnersEvent → Prop
  | .release t => o.application = 1 → t ≠ .io ∧ o.useCount = 1
  | _ => True

instance decidableReleasesLast (o : Owners) (e : OwnersEvent) : Decidable (ReleasesLast o e) := by
  unfold ReleasesLast
  split <;> infer_instance

/-! ## The discipline -/

section step

variable {o : Owners} {e : OwnersEvent} {t : Thread}

theorem released_of_pos (h : 0 < o.useCount) : o.released t = o := if_neg (Nat.ne_of_gt h)

theorem application_le_useCount (o : Owners) : o.application ≤ o.useCount := by
  unfold Owners.useCount
  omega

/-- The client is alive and the application holds a reference, or it is gone and some other thread
than the io thread has joined. -/
def Owned (o : Owners) : Prop :=
  (0 < o.application ∧ o.joinedBy = none) ∨
    (o.useCount = 0 ∧ ∃ t, t ≠ .io ∧ o.joinedBy = some t)

/-- Nothing happens to a client that is gone. -/
theorem useCount_pos_of_enabled (hen : o.Enabled e) : 0 < o.useCount := by
  have hcalls (h : o.calls ≠ []) : 0 < o.useCount := by
    have hlength := List.length_pos_iff.mpr h
    unfold Owners.useCount
    omega
  cases e with
  | copy => exact Nat.lt_of_lt_of_le hen (application_le_useCount o)
  | release t => exact Nat.lt_of_lt_of_le hen (application_le_useCount o)
  | asyncSend t => exact hen
  | post t =>
    refine hcalls ?_
    rintro hnil
    simp [Owners.Enabled, hnil] at hen
  | «return» t =>
    obtain ⟨call, hcall, -⟩ := hen
    exact hcalls (List.ne_nil_of_mem hcall)
  | run =>
    have hqueued := hen.1
    unfold Owners.useCount
    omega
  | destroy => simp [Owners.useCount, hen.1]

/-- **Every event that releases in order keeps the client.** -/
theorem owned_next (h : Owned o) (hen : o.Enabled e) (hlast : ReleasesLast o e) :
    Owned (o.next e) := by
  have hpos := useCount_pos_of_enabled hen
  obtain ⟨happ, hjoined⟩ : 0 < o.application ∧ o.joinedBy = none := by
    rcases h with halive | ⟨hzero, -⟩
    · exact halive
    · omega
  -- while the application holds one, no other release is the last
  have halive (o' : Owners) (t : Thread) (h₁ : 0 < o'.application) (h₂ : o'.joinedBy = none) :
      Owned (o'.released t) := by
    rw [released_of_pos (Nat.lt_of_lt_of_le h₁ (application_le_useCount o'))]
    exact Or.inl ⟨h₁, h₂⟩
  cases e with
  | copy => exact Or.inl ⟨Nat.succ_pos _, hjoined⟩
  | release t =>
    by_cases hone : o.application = 1
    · obtain ⟨hio, hcount⟩ := hlast hone
      have hzero : { o with application := o.application - 1 }.useCount = 0 := by
        simp only [Owners.useCount] at hcount ⊢
        omega
      right
      simp only [Owners.next, Owners.released, hzero, if_true]
      exact ⟨hzero, t, hio, rfl⟩
    · exact halive _ t (by simp only; omega) hjoined
  | asyncSend t => exact Or.inl ⟨happ, hjoined⟩
  | post t => exact Or.inl ⟨happ, hjoined⟩
  | «return» t => exact halive _ t happ hjoined
  | run => exact Or.inl ⟨happ, hjoined⟩
  | destroy => exact halive _ .io happ hjoined

end step

/-- **The connection never joins its own thread** when the application releases last, on a thread
of its own. -/
theorem never_joins_itself (es : List OwnersEvent) (hrun : ownership.Run {} es)
    (hlast : ownership.Along ReleasesLast {} es) :
    (ownership.after {} es).joinedBy ≠ some .io := by
  have howned : Owned (ownership.after {} es) :=
    invariant_along (fun _ _ h he => owned_next h he.1 he.2) (Or.inl ⟨Nat.one_pos, rfl⟩)
      (hrun.and hlast)
  intro hio
  rcases howned with ⟨-, hnone⟩ | ⟨-, t, ht, hsome⟩
  · rw [hio] at hnone
    cases hnone
  · rw [hio] at hsome
    exact ht (Option.some.inj hsome).symm

/-- The application waits until the handler of its request is gone. -/
theorem never_joins_itself_waiting :
    (ownership.after {} [.asyncSend (.app 0), .post (.app 0), .return (.app 0), .run, .destroy,
      .release (.app 0)]).joinedBy ≠ some .io :=
  never_joins_itself _ (by decide) (by decide)

/-! ## An early release -/

/-- The calls return, the latest first, while a handler is queued. -/
theorem calls_return (o : Owners) (hqueued : 0 < o.queued) :
    ownership.Run o (o.calls.map fun call => .return call.thread) ∧
      ownership.after o (o.calls.map fun call => .return call.thread)
        = { o with calls := [] } := by
  obtain ⟨application, calls, queued, running, joinedBy⟩ := o
  induction calls with
  | nil => exact ⟨trivial, rfl⟩
  | cons call calls ih =>
    have hnext : ownership.next ⟨application, call :: calls, queued, running, joinedBy⟩
        (.return call.thread) = ⟨application, calls, queued, running, joinedBy⟩ := by
      have hpos : 0 < Owners.useCount ⟨application, calls, queued, running, joinedBy⟩ := by
        simp only [Owners.useCount] at hqueued ⊢
        omega
      simp only [ownership, Owners.next, List.eraseP_cons, decide_true]
      exact released_of_pos hpos
    obtain ⟨hrun, hafter⟩ := ih hqueued
    rw [List.map_cons]
    constructor
    · refine ⟨⟨call, List.mem_cons_self .., rfl⟩, ?_⟩
      rw [hnext]
      exact hrun
    · rw [after_cons, hnext]
      exact hafter

/-- When only handlers are left, the last of them is the last owner. -/
theorem handlers_join (o : Owners) (happ : o.application = 0) (hcalls : o.calls = [])
    (hqueued : 0 < o.queued) :
    ∃ es, ownership.Run o es ∧ (ownership.after o es).joinedBy = some .io := by
  -- a handler runs, with `k` more behind it
  have hrunning (k : Nat) (joinedBy : Option Thread) :
      ∃ es, ownership.Run ⟨0, [], k, true, joinedBy⟩ es ∧
        (ownership.after ⟨0, [], k, true, joinedBy⟩ es).joinedBy = some .io := by
    induction k with
    | zero => exact ⟨[.destroy], by simp [Run, ownership, Owners.Enabled, Owners.IoOutside], rfl⟩
    | succ k ih =>
      obtain ⟨es, hrun, hjoined⟩ := ih
      refine ⟨.destroy :: .run :: es, ⟨?_, ?_, ?_⟩, hjoined⟩
      · simp [ownership, Owners.Enabled, Owners.IoOutside]
      · simp [ownership, Owners.Enabled, Owners.next, Owners.released, Owners.useCount,
          Owners.IoOutside]
      · exact hrun
  obtain ⟨application, calls, queued, running, joinedBy⟩ := o
  subst happ hcalls
  cases running with
  | true => exact hrunning queued joinedBy
  | false =>
    obtain ⟨k, rfl⟩ := Nat.exists_eq_succ_of_ne_zero (Nat.ne_of_gt hqueued)
    obtain ⟨es, hrun, hjoined⟩ := hrunning k joinedBy
    exact ⟨.run :: es, ⟨by simp [ownership, Owners.Enabled, Owners.IoOutside], hrun⟩, hjoined⟩

/-- Where the application lets go of its last reference in another way, a send on the io thread
that comes after it can end in a join of the io thread by itself. -/
theorem early_release_joins_itself (o : Owners) (t : Thread) (hone : o.application = 1)
    (hearly : ¬ReleasesLast o (.release t)) :
    ∃ es, ownership.Run o (.release t :: es) ∧
      (ownership.after o (.release t :: es)).joinedBy = some .io := by
  have hen : ownership.Enabled o (.release t) := by
    change 0 < o.application
    omega
  let o' : Owners := { o with application := o.application - 1 }
  have hcount : o'.useCount + 1 = o.useCount := by
    simp only [o', Owners.useCount]
    omega
  by_cases hlast : o'.useCount = 0
  · have hio : t = .io := by
      by_contra hio
      exact hearly fun _ => ⟨hio, by omega⟩
    refine ⟨[], ⟨hen, trivial⟩, ?_⟩
    have hnext : ownership.next o (.release t) = { o' with joinedBy := some t } := if_pos hlast
    rw [after_cons, after_nil, hnext, hio]
  · have hnext : ownership.next o (.release t) = o' := if_neg hlast
    -- a delayed send on the io thread posts one more handler, and everything else returns
    let queued : Owners := { o' with queued := o'.queued + 1 }
    have hposted : ownership.Run o' [.asyncSend .io, .post .io, .return .io] ∧
        ownership.after o' [.asyncSend .io, .post .io, .return .io] = queued := by
      constructor
      · simp [Run, ownership, Owners.Enabled, Owners.next, postInnermost, Nat.pos_of_ne_zero hlast]
      · simp [ownership, Owners.next, postInnermost, Owners.released, Owners.useCount, queued]
    obtain ⟨hreturns, hreturned⟩ := calls_return queued (Nat.succ_pos _)
    obtain ⟨es, hrun, hjoined⟩ := handlers_join { queued with calls := [] }
      (by simp [queued, o', hone]) rfl (Nat.succ_pos _)
    refine ⟨[.asyncSend .io, .post .io, .return .io] ++
      ((queued.calls.map fun call => .return call.thread) ++ es), ⟨hen, ?_⟩, ?_⟩
    · rw [hnext]
      refine run_append.mpr ⟨hposted.1, ?_⟩
      rw [hposted.2]
      refine run_append.mpr ⟨hreturns, ?_⟩
      rw [hreturned]
      exact hrun
    · rw [after_cons, hnext, after_append, hposted.2, after_append, hreturned]
      exact hjoined

/-- A thread that joins itself goes no further. -/
theorem join_on_io_stuck (c : Connection) (es : List ConnectionEvent)
    (hrun : connection.Run c es) (hjoin : c.pcs .io = .join) :
    (connection.after c es).pcs .io = .join := by
  refine invariant (I := fun c => c.pcs .io = .join) ?_ hjoin hrun
  intro c e hjoin hen
  have hready : (c.pcs .io).ready = false := by
    rw [hjoin]
    rfl
  cases e with
  | call t op =>
    have ht : .io ≠ t := by
      rintro rfl
      simp [hready, connection, Connection.Enabled] at hen
    simpa [connection, Connection.next, ht] using hjoin
  | onConnect sid => simp [hready, connection, Connection.Enabled] at hen
  | onError sid => simp [hready, connection, Connection.Enabled] at hen
  | step t =>
    have ht : .io ≠ t := by
      rintro rfl
      simp [hjoin, Pc.ready, connection, Connection.Enabled, Connection.CanStep] at hen
    exact (pcs_step_ne c t ht).trans hjoin
  | create t created =>
    have ht : .io ≠ t := by
      rintro rfl
      simp [hjoin, connection, Connection.Enabled] at hen
    cases created <;> simpa [connection, Connection.next, ht] using hjoin
  | notify t woken =>
    have ht : .io ≠ t := by
      rintro rfl
      simp [hjoin, connection, Connection.Enabled, Pc.notifies] at hen
    have hsame : (c.notifyOne woken).pcs .io = c.pcs .io := by
      refine (pcs_notifyOne c woken .io).resolve_right ?_
      rintro ⟨w, hw, -⟩
      rw [hjoin] at hw
      cases hw
    simp only [connection, Connection.next]
    split <;> simpa [ht, hsame] using hjoin
  | wake t timedOut =>
    have ht : .io ≠ t := by
      rintro rfl
      simp [hjoin, connection, Connection.Enabled, Pc.isBlocked] at hen
    simp only [connection, Connection.next]
    split <;> simpa [ht] using hjoin

/-- **The io thread joins itself.** The application lets go of the client while its request is
still queued; the handler is the last owner. -/
theorem handler_joins_itself :
    ¬∀ es : List OwnersEvent, ownership.Run {} es →
      (ownership.after {} es).joinedBy ≠ some .io := by
  intro h
  exact h [.asyncSend (.app 0), .post (.app 0), .return (.app 0), .release (.app 0), .run,
    .destroy] (by decide) (by decide)

end Http2Comm.Client
