import Http2Comm.Server.Assembly
import Http2Comm.Url.MatchPrefix
import Mathlib.Algebra.GroupWithZero.Nat
import Mathlib.Algebra.Order.BigOperators.Group.List

/-!
# The admission of requests

`reception` nests five tests, and the last of them matches the path against one that `getApiPath`
makes of two optional strings. What they amount to is a list of tests of which the first that
fails names the error (`rejection_eq`), the last one being that the path's segments begin with
those of the api (`matchPrefix_getApiPath`).

Every processing makes one call, and one increment of a counter beside it, so the counters of a
server agree with its calls and add up to its processings.
-/

set_option autoImplicit false

namespace Http2Comm.Server

open Lib Lib.Machine

/-! ## The tests -/

/-- A server as its constructor and its setters make it. -/
def Http2Server.configured (name source apiName apiVersion : Bytes) (workerThreads : Nat)
    (timersIoContext metrics : Bool) (queueDispatcherMaxSize : Int) : Http2Server :=
  { Http2Server.construct name workerThreads timersIoContext queueDispatcherMaxSize with
    source, apiName, apiVersion, metrics }

/-- The segments of the api that the server is configured for. -/
def apiSegs (apiName apiVersion : Bytes) : List Bytes :=
  if apiVersion = [] then [apiName] else [apiName, apiVersion]

/-- The tests of a reception in their order, each with the arguments of `receiveError` when it
fails. -/
def tests (congested api : Bool) (a : Answers) : List (Bool × ErrorPair × List Bytes) :=
  [(!congested, serviceUnavailable, []), (a.methodIsAllowed, methodNotAllowed, a.allowedMethods),
    (a.methodIsImplemented, methodNotImplemented, []), (a.headersAreOk, unsupportedMediaType, []),
    (api, wrongApiNameOrVersion, [])]

/-- The first test that fails. -/
def firstFailing (ts : List (Bool × ErrorPair × List Bytes)) : Option (ErrorPair × List Bytes) :=
  (ts.find? (!·.1)).map Prod.snd

def Effect.isReceive : Effect → Bool
  | .receive .. => true
  | _ => false

def Effect.isReceiveError : Effect → Bool
  | .receiveError .. => true
  | _ => false

/-- An increment of the counter, whatever its labels. -/
def Effect.increments (family : Family) : Effect → Bool
  | .metric update => decide (update.family = family ∧ update.operation = .increment)
  | _ => false

section tests

variable {server : Http2Server} {req : Request} {a : Answers}

theorem rejection_eq (congestion : Bool) :
    rejection server req congestion a = firstFailing (tests congestion
      (decide (server.getApiPath = [] ∨
        URLFunctions.matchPrefix req.path server.getApiPath = true)) a) := by
  unfold rejection firstFailing tests
  cases congestion <;> cases a.methodIsAllowed <;> cases a.methodIsImplemented <;>
    cases a.headersAreOk <;> by_cases hpath : server.getApiPath = [] <;>
      cases hmatch : URLFunctions.matchPrefix req.path server.getApiPath <;> simp [hpath, hmatch]

/-- The constructor leaves the congestion control as the argument asks for it. -/
theorem congestion_construct (name : Bytes) (workerThreads : Nat) (timersIoContext : Bool)
    (limit : Int) (busyConsumers : Bool) (queueSize : Int) :
    (Http2Server.construct name workerThreads timersIoContext limit).congestion busyConsumers
        queueSize =
      decide (1 < workerThreads ∧ 0 ≤ limit ∧ busyConsumers = true ∧ limit < queueSize) := by
  simp only [Http2Server.construct, Http2Server.congestion]
  split_ifs with h
  · simp [Bool.and_assoc]
  · have hneg : ¬0 ≤ limit := by omega
    simp [hneg]

/-- **The path of the api matches by its segments.** -/
theorem matchPrefix_getApiPath (hname : '/'.toUInt8 ∉ server.apiName)
    (hversion : '/'.toUInt8 ∉ server.apiVersion) {path : Bytes} (hpath : path ≠ []) :
    server.getApiPath = [] ∨ URLFunctions.matchPrefix path server.getApiPath = true ↔
      server.apiName = [] ∨
        apiSegs server.apiName server.apiVersion <+: URLFunctions.segs path := by
  by_cases hempty : server.apiName = []
  · simp [Http2Server.getApiPath, hempty]
  -- what ends with a slash-free string gets a slash, and so is delimited
  have htrailing (front back : Bytes) (hback : back ≠ []) (hfree : '/'.toUInt8 ∉ back) :
      URLFunctions.addTrailing (front ++ back) = front ++ back ++ ['/'.toUInt8] := by
    refine if_neg fun hlast => ?_
    rw [List.getLast?_append_of_ne_nil _ hback] at hlast
    exact hfree (List.mem_of_getLast? hlast)
  have hsegs :
      URLFunctions.segs server.getApiPath = apiSegs server.apiName server.apiVersion := by
    unfold apiSegs
    by_cases hv : server.apiVersion = []
    · rw [if_pos hv]
      refine URLFunctions.segs_of_segments (by simp [hname]) ?_
      simp only [Http2Server.getApiPath, hempty, hv, if_false, ne_eq, not_true_eq_false]
      have hslash := htrailing ['/'.toUInt8] server.apiName hempty hname
      simpa [URLFunctions.addLeading, delimit] using hslash
    · rw [if_neg hv]
      refine URLFunctions.segs_of_segments (by simp [hname, hversion]) ?_
      simp only [Http2Server.getApiPath, hempty, hv, if_true, if_false, ne_eq, not_false_eq_true]
      have hslash := htrailing ('/'.toUInt8 :: server.apiName ++ ['/'.toUInt8]) server.apiVersion
        hv hversion
      simpa [URLFunctions.addLeading, delimit] using hslash
  have hne : server.getApiPath ≠ [] := by
    simp only [Http2Server.getApiPath, hempty, if_false]
    split <;> simp
  rw [URLFunctions.matchPrefix_iff_segs hpath hne, hsegs]
  simp [hne, hempty]

end tests

/-! ## The counters -/

/-- The effects of all streams that satisfy `p`. -/
def Serving.count (p : Effect → Bool) (sv : Serving) : Nat :=
  (sv.streams.map (·.effects.countP p)).sum

def ServerEvent.isProcess : ServerEvent → Bool
  | .on _ e => e.isProcess
  | .request _ => false

/-- What the event appends to the effects of its stream. -/
def Serving.emits (server : Http2Server) (sv : Serving) : ServerEvent → List Effect
  | .request _ => []
  | .on i e => (sv.streams[i]?.map (·.emits server e)).getD []

/-- The virtual `receiveError` is the default one. -/
def UsesDefault (server : Http2Server) (sv : Serving) : ServerEvent → Prop
  | .on i (.process _ _ _ a) =>
    ∀ st ∈ sv.streams[i]?, a.receiveError = server.defaultReceiveError st.req []
  | _ => True

section counters

variable {server : Http2Server} {sv : Serving} {st : Stream} {evs : List ServerEvent}

/-- Replacing one term changes the sum by the difference. -/
theorem sum_map_set {α : Type*} {l : List α} {i : Nat} {a : α} (h : l[i]? = some a) (b : α)
    (f : α → Nat) : ((l.set i b).map f).sum + f a = (l.map f).sum + f b := by
  induction l generalizing i with
  | nil => simp at h
  | cons c l ih =>
    cases i with
    | zero =>
      obtain rfl : c = a := by simpa using h
      simp only [List.set_cons_zero, List.map_cons, List.sum_cons]
      omega
    | succ i =>
      have hrest := ih (i := i) (by simpa using h)
      simp only [List.set_cons_succ, List.map_cons, List.sum_cons]
      omega

theorem count_next (p : Effect → Bool) {a : ServerEvent} (hen : sv.Enabled a) :
    (sv.next server a).count p = sv.count p + (sv.emits server a).countP p := by
  cases a with
  | request req => simp [Serving.next, Serving.count, Serving.emits, Stream.start]
  | on i e =>
    obtain ⟨st, hst, -, -⟩ := enabled_on.mp hen
    have hsum := sum_map_set hst (st.next server e) (·.effects.countP p)
    rw [effects_next, List.countP_append] at hsum
    simp only [Serving.next, Serving.count, Serving.emits, hst, Option.map_some, Option.getD_some]
      at hsum ⊢
    omega

/-- An event that processes nothing neither calls nor counts. -/
theorem emits_of_not_process {e : Event} (he : e.isProcess = false) :
    ∀ x ∈ st.emits server e, x.isReceive = false ∧ x.isReceiveError = false ∧
      x.increments .observedRequestsAcceptedCounter = false ∧
      x.increments .observedRequestsErroredCounter = false := by
  have hmetrics (st : Stream) (now : Int) (label : Bytes) : ∀ x ∈ st.updateMetrics server now label,
      x.isReceive = false ∧ x.isReceiveError = false ∧
      x.increments .observedRequestsAcceptedCounter = false ∧
      x.increments .observedRequestsErroredCounter = false := by
    unfold Stream.updateMetrics
    split <;> simp [Effect.isReceive, Effect.isReceiveError, Effect.increments]
  cases e with
  | process now busyConsumers queueSize a => simp [Event.isProcess] at he
  | mark now =>
    simp only [Stream.emits]
    split <;> exact hmetrics _ _ _
  | respond =>
    simp only [Stream.emits, Response.written]
    split_ifs <;> simp [Effect.isReceive, Effect.isReceiveError, Effect.increments]
  | notify counter =>
    simp only [Stream.emits]
    split <;> simp [Effect.isReceive, Effect.isReceiveError, Effect.increments]
  | provision answer =>
    simp only [Stream.emits]
    split <;> simp [Effect.isReceive, Effect.isReceiveError, Effect.increments]
  | commit =>
    simp only [Stream.emits]
    split <;> simp [Effect.isReceive, Effect.isReceiveError, Effect.increments]
  | _ => simp [Stream.emits, Effect.isReceive, Effect.isReceiveError, Effect.increments]

/-- **A processing increments the counter of the call it makes.** -/
theorem counters_process (hmetrics : server.metrics = true) (now queueSize : Int)
    (busyConsumers : Bool) {a : Answers}
    (hdefault : a.receiveError = server.defaultReceiveError st.req []) :
    let es := st.emits server (.process now busyConsumers queueSize a)
    es.countP (·.increments .observedRequestsAcceptedCounter) = es.countP Effect.isReceive ∧
      es.countP (·.increments .observedRequestsErroredCounter) = es.countP Effect.isReceiveError ∧
      es.countP Effect.isReceive + es.countP Effect.isReceiveError = 1 := by
  simp only [Stream.emits, Stream.reception]
  cases rejection server st.req (server.congestion busyConsumers queueSize) a with
  | none =>
    simp only [hmetrics, if_true]
    exact ⟨rfl, rfl, rfl⟩
  | some error =>
    simp only [hdefault, Http2Server.defaultReceiveError, Http2Server.receiveError, hmetrics,
      if_true]
    exact ⟨rfl, rfl, rfl⟩

theorem counters_emits (hmetrics : server.metrics = true) {a : ServerEvent} (hen : sv.Enabled a)
    (hdefault : UsesDefault server sv a) :
    let es := sv.emits server a
    es.countP (·.increments .observedRequestsAcceptedCounter) = es.countP Effect.isReceive ∧
      es.countP (·.increments .observedRequestsErroredCounter) = es.countP Effect.isReceiveError ∧
      es.countP Effect.isReceive + es.countP Effect.isReceiveError =
        if a.isProcess then 1 else 0 := by
  cases a with
  | request req => simp [Serving.emits, ServerEvent.isProcess]
  | on i e =>
    obtain ⟨st, hst, -, -⟩ := enabled_on.mp hen
    simp only [Serving.emits, hst, Option.map_some, Option.getD_some, ServerEvent.isProcess]
    by_cases he : e.isProcess = true
    · cases e with
      | process now busyConsumers queueSize a =>
        exact counters_process hmetrics now queueSize busyConsumers (hdefault st hst)
      | _ => simp [Event.isProcess] at he
    · rw [Bool.not_eq_true] at he
      have hfree : ∀ x ∈ st.emits server e, _ := emits_of_not_process he
      have hzero (p : Effect → Bool) (hp : ∀ x ∈ st.emits server e, p x = false) :
          (st.emits server e).countP p = 0 := by
        rw [List.countP_eq_zero]
        intro x hx
        simp [hp x hx]
      rw [hzero _ fun x hx => (hfree x hx).1, hzero _ fun x hx => (hfree x hx).2.1,
        hzero _ fun x hx => (hfree x hx).2.2.1, hzero _ fun x hx => (hfree x hx).2.2.2]
      simp [he]

/-- **Over a run the counters agree with the calls and add up to the processings.** -/
theorem counters_run (hmetrics : server.metrics = true) (hrun : (serving server).Run {} evs)
    (hdefault : (serving server).Along (UsesDefault server) {} evs) :
    let sv := (serving server).after {} evs
    sv.count (·.increments .observedRequestsAcceptedCounter) = sv.count Effect.isReceive ∧
      sv.count (·.increments .observedRequestsErroredCounter) = sv.count Effect.isReceiveError ∧
      sv.count Effect.isReceive + sv.count Effect.isReceiveError =
        evs.countP ServerEvent.isProcess := by
  have hboth := hrun.and hdefault
  let Agree (sv : Serving) : Prop :=
    sv.count (·.increments .observedRequestsAcceptedCounter) = sv.count Effect.isReceive ∧
      sv.count (·.increments .observedRequestsErroredCounter) = sv.count Effect.isReceiveError
  have hagree : Agree ((serving server).after {} evs) := by
    refine invariant_along (I := Agree) ?_ ⟨rfl, rfl⟩ hboth
    rintro sv a ⟨haccepted, herrored⟩ ⟨hen, huses⟩
    obtain ⟨haccepted', herrored', -⟩ := counters_emits hmetrics hen huses
    constructor
    · change (sv.next server a).count _ = (sv.next server a).count _
      rw [count_next _ hen, count_next _ hen, haccepted, haccepted']
    · change (sv.next server a).count _ = (sv.next server a).count _
      rw [count_next _ hen, count_next _ hen, herrored, herrored']
  let processed (sv : Serving) : Nat := sv.count Effect.isReceive + sv.count Effect.isReceiveError
  have htotal : processed ((serving server).after {} evs) = processed {} + (serving server).total
      (fun _ a => if a.isProcess = true then 1 else 0) {} evs := by
    refine total_along ?_ hboth
    rintro sv a ⟨hen, huses⟩
    have hone := (counters_emits hmetrics hen huses).2.2
    change (sv.next server a).count _ + (sv.next server a).count _ = sv.count _ + sv.count _ + _
    rw [count_next _ hen, count_next _ hen]
    omega
  rw [total_countP] at htotal
  exact ⟨hagree.1, hagree.2, htotal.trans (Nat.zero_add _)⟩

end counters

/-! ## The result -/

/-- The one call that a processing makes. -/
def admission (st : Stream) (now : Int) : Option (ErrorPair × List Bytes) → Effect
  | none => .receive st.receptionId st.requestBody now
  | some (error, allowedMethods) => .receiveError error allowedMethods

theorem receptions_process (server : Http2Server) (st : Stream) (now queueSize : Int)
    (busyConsumers : Bool) (a : Answers) :
    (st.emits server (.process now busyConsumers queueSize a)).filter Effect.isReception =
      [admission st now
        (rejection server st.req (server.congestion busyConsumers queueSize) a)] := by
  have hmetric (us : List MetricUpdate) :
      (us.map Effect.metric).filter Effect.isReception = [] := by
    simp [List.filter_eq_nil_iff, Effect.isReception]
  simp only [Stream.emits, Stream.reception]
  cases rejection server st.req (server.congestion busyConsumers queueSize) a with
  | none =>
    simp only
    split <;> rfl
  | some error =>
    simp only [List.filter_cons, hmetric]
    rfl

/-- **The admission of requests.** -/
theorem requests_admitted (name source apiName apiVersion : Bytes) (workerThreads : Nat)
    (timersIoContext metrics : Bool) (limit : Int) (hname : '/'.toUInt8 ∉ apiName)
    (hversion : '/'.toUInt8 ∉ apiVersion) :
    let server := Http2Server.configured name source apiName apiVersion workerThreads
      timersIoContext metrics limit
    (∀ (st : Stream) (now queueSize : Int) (busyConsumers : Bool) (a : Answers),
      st.req.path ≠ [] →
      let congested := 1 < workerThreads ∧ 0 ≤ limit ∧ busyConsumers = true ∧ limit < queueSize
      let api := apiName = [] ∨ apiSegs apiName apiVersion <+: URLFunctions.segs st.req.path
      let failing := firstFailing (tests (decide congested) (decide api) a)
      ∃ fresh,
        (st.next server (.process now busyConsumers queueSize a)).effects = st.effects ++ fresh ∧
        fresh.filter Effect.isReception = [admission st now failing] ∧
        (failing = none ↔ ¬congested ∧ a.methodIsAllowed = true ∧ a.methodIsImplemented = true ∧
          a.headersAreOk = true ∧ api)) ∧
    (metrics = true → ∀ evs : List ServerEvent, (serving server).Run {} evs →
      (serving server).Along (UsesDefault server) {} evs →
      let sv := (serving server).after {} evs
      sv.count (·.increments .observedRequestsAcceptedCounter) = sv.count Effect.isReceive ∧
        sv.count (·.increments .observedRequestsErroredCounter) =
          sv.count Effect.isReceiveError ∧
        sv.count (·.increments .observedRequestsAcceptedCounter) +
          sv.count (·.increments .observedRequestsErroredCounter) =
            evs.countP ServerEvent.isProcess) := by
  intro server
  constructor
  · intro st now queueSize busyConsumers a hpath congested api failing
    refine ⟨_, effects_next .., ?_, ?_⟩
    · have hapi : server.getApiPath = [] ∨ _ ↔ _ := matchPrefix_getApiPath hname hversion hpath
      have hcongestion : server.congestion busyConsumers queueSize = decide congested :=
        congestion_construct name workerThreads timersIoContext limit busyConsumers queueSize
      rw [receptions_process, rejection_eq, hcongestion, decide_eq_decide.mpr hapi]
      rfl
    · simp only [failing, firstFailing, tests]
      by_cases hcongested : congested <;> by_cases hapi : api <;> cases a.methodIsAllowed <;>
        cases a.methodIsImplemented <;> cases a.headersAreOk <;> simp [hcongested, hapi]
  · intro hmetrics evs hrun hdefault sv
    have hmetrics' : server.metrics = true := hmetrics
    obtain ⟨haccepted, herrored, hsum⟩ := counters_run hmetrics' hrun hdefault
    refine ⟨haccepted, herrored, ?_⟩
    rw [haccepted, herrored]
    exact hsum

/-- A request for the api, and a run that rejects one for another version. -/
theorem requests_admitted_api :
    let server := Http2Server.configured [] [] (ascii "api") (ascii "v1") 4 false true 2
    let st : Stream := .start { path := ascii "/api/v1/users" }
    let req : Request := { path := ascii "/api/v10" }
    let evs : List ServerEvent := [.request req, .on 0 (.endOfRequest 1),
      .on 0 (.process 7 true 2
        { acceptAll with receiveError := server.defaultReceiveError req [] })]
    let sv := (serving server).after {} evs
    (∃ fresh, (st.next server (.process 5 true 2 acceptAll)).effects = st.effects ++ fresh ∧
      fresh.filter Effect.isReception = [.receive 0 [] 5]) ∧
    sv.count (·.increments .observedRequestsAcceptedCounter) +
      sv.count (·.increments .observedRequestsErroredCounter) = 1 := by
  intro server st req evs sv
  obtain ⟨hone, hrun⟩ := requests_admitted [] [] (ascii "api") (ascii "v1") 4 false true 2
    (by decide) (by decide)
  constructor
  · obtain ⟨fresh, heffects, hcall, -⟩ := hone st 5 2 true acceptAll (by decide)
    exact ⟨fresh, heffects, hcall.trans (by decide +kernel)⟩
  · have hdefault : (serving server).Along (UsesDefault server) {} evs := by
      refine ⟨trivial, trivial, fun st' hst' => ?_, trivial⟩
      obtain rfl : _ = st' := Option.some.inj hst'
      rfl
    exact (hrun rfl evs (by decide) hdefault).2.2

end Http2Comm.Server
