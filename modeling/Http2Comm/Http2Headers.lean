import Http2Comm.Lib.Multimap
import Http2Comm.Server.ErrorHeaders

/-!
# `Http2Headers` — what a builder builds

A header map is built by calls of `Http2Headers`, in any order and any number of them, each under a
header name that it may be given. What they build is a sorted multimap (`Lib.Multimap`): under each
name it has the values that are not empty, in the order of the calls, so two builders hold the same
headers exactly if they were called with the same values under each name (`getHeaders_eq_iff`).

`headersAsString` writes the map for the traces, names in order. It does not escape, and still two
maps have different texts when no name has a colon or a bracket and no value has a bracket, so the
text shows what the builder was called with (`asString_eq_iff`).
-/

set_option autoImplicit false

namespace Http2Comm

open Lib

/-! ## Calls of a builder -/

/-- A call of a setter of `Http2Headers`, with the name that it is given or that it has by
default. -/
inductive HeaderCall where
  | addVersion (value : Bytes) (header : Bytes := ascii "x-version")
  | addLocation (value : Bytes) (header : Bytes := ascii "location")
  | addAllowedMethods (value : List Bytes) (header : Bytes := ascii "Allow")
  | addContentLength (value : Nat) (header : Bytes := ascii "content-length")
  | addContentType (value : Bytes) (header : Bytes := ascii "content-type")
  | emplace (hKey hVal : Bytes) (sensitiveInformation : Bool := false)
  deriving DecidableEq, Repr

def HeaderCall.apply (headers : HeaderMap) : HeaderCall → HeaderMap
  | .addVersion value header => Http2Headers.emplace headers header value
  | .addLocation value header => Http2Headers.emplace headers header value
  | .addAllowedMethods [] _ => headers
  | .addAllowedMethods (first :: methods) header =>
    Http2Headers.emplace headers header
      (methods.foldl (fun serialized method => serialized ++ ascii ", " ++ method) first)
  | .addContentLength value header => Http2Headers.emplace headers header (toDecimal value)
  | .addContentType value header => Http2Headers.emplace headers header value
  | .emplace hKey hVal sensitiveInformation =>
    Http2Headers.emplace headers hKey hVal sensitiveInformation

/-- `getHeaders` after the calls. -/
def getHeaders (calls : List HeaderCall) : HeaderMap := calls.foldl HeaderCall.apply []

/-- `headersAsString`. -/
def headersAsString (headers : HeaderMap) : Bytes :=
  headers.flatMap fun e => ascii "[" ++ e.1 ++ ascii ": " ++ e.2.value ++ ascii "]"

/-! ## What is built -/

/-- The entry that a call gives to `emplace`. -/
def HeaderCall.given : HeaderCall → Bytes × HeaderValue
  | .addVersion value header | .addLocation value header | .addContentType value header =>
    (header, ⟨value, false⟩)
  | .addAllowedMethods value header => (header, ⟨Http2Headers.joined value, false⟩)
  | .addContentLength value header => (header, ⟨toDecimal value, false⟩)
  | .emplace hKey hVal sensitiveInformation => (hKey, ⟨hVal, sensitiveInformation⟩)

/-- The entries that are not empty, in the order of the calls. -/
def HeaderCall.entries (calls : List HeaderCall) : List (Bytes × HeaderValue) :=
  (calls.map given).filter fun e => decide (e.2.value ≠ [])

section built

variable {calls calls' : List HeaderCall}

theorem apply_eq (headers : HeaderMap) (call : HeaderCall) : call.apply headers =
    if call.given.2.value ≠ [] then headers.emplace call.given.1 call.given.2 else headers := by
  cases call with
  | addAllowedMethods value header =>
    cases value with
    | nil => rfl
    | cons first methods => rfl
  | _ => rfl

/-- The calls insert their entries into a sorted multimap. -/
theorem getHeaders_ofList (calls : List HeaderCall) :
    getHeaders calls = (Multimap.ofList (HeaderCall.entries calls)).entries := by
  induction calls using List.reverseRecOn with
  | nil => rfl
  | append_singleton calls call ih =>
    have hsnoc : getHeaders (calls ++ [call]) = call.apply (getHeaders calls) := by
      simp [getHeaders]
    rw [hsnoc, apply_eq, ih]
    unfold HeaderCall.entries
    rw [List.map_append, List.map_singleton, List.filter_append]
    by_cases hvalue : call.given.2.value ≠ []
    · rw [if_pos hvalue, List.filter_singleton, decide_eq_true hvalue, cond_true,
        Multimap.ofList_snoc]
      rfl
    · rw [if_neg hvalue, List.filter_singleton, decide_eq_false hvalue, cond_false, List.append_nil]

end built

/-- The values that the calls give a header, in order, without the empty ones. -/
def HeaderCall.values (calls : List HeaderCall) (header : Bytes) : List HeaderValue :=
  valuesAt (entries calls) header

/-- **What a builder builds.** Whatever the calls, the header map is sorted by name and has under
each name the values given that are not empty, in the order of the calls; and two builders hold the
same headers exactly if they were given the same values under each name, in the same order. -/
theorem getHeaders_eq_iff (calls calls' : List HeaderCall) :
    (getHeaders calls).Pairwise (fun e e' => e.1 ≤ e'.1) ∧
      (∀ header, valuesAt (getHeaders calls) header = HeaderCall.values calls header) ∧
      (getHeaders calls = getHeaders calls' ↔
        ∀ header, HeaderCall.values calls header = HeaderCall.values calls' header) := by
  rw [getHeaders_ofList, getHeaders_ofList]
  refine ⟨Multimap.sorted _, Multimap.values_ofList _, ?_⟩
  unfold HeaderCall.values
  rw [← Multimap.ofList_eq_iff]
  constructor
  · intro h
    refine Multimap.ext_values fun header => ?_
    unfold Multimap.values
    rw [h]
  · intro h
    rw [h]

/-- The headers of the default `receiveError` are five calls. -/
theorem getHeaders_receiveError (server : Server.Http2Server) (req : Server.Request)
    (error : ErrorPair) (location : Bytes) (allowedMethods : List Bytes) :
    let response := (server.receiveError req error location allowedMethods).response
    response.headers = getHeaders [.addVersion server.apiVersion, .addLocation location,
      .addAllowedMethods allowedMethods, .addContentLength response.body.length,
      .addContentType (Server.errorContentType response.statusCode)] := by
  cases allowedMethods with
  | nil => rfl
  | cons first methods => rfl

/-! ## The text of a header map -/

section text

/-- The name has no colon, and neither name nor value has a closing bracket. -/
def Readable (headers : HeaderMap) : Prop :=
  ∀ e ∈ headers, ':'.toUInt8 ∉ e.1 ∧ ']'.toUInt8 ∉ e.1 ∧ ']'.toUInt8 ∉ e.2.value

/-- What stands between the brackets. -/
def inBrackets (e : Bytes × HeaderValue) : Bytes := ascii "[" ++ e.1 ++ ascii ": " ++ e.2.value

theorem headersAsString_eq (headers : HeaderMap) :
    headersAsString headers = (headers.map inBrackets).flatMap (· ++ [']'.toUInt8]) := by
  rw [List.flatMap_map]
  rfl

theorem inBrackets_inj {e e' : Bytes × HeaderValue} (h : ':'.toUInt8 ∉ e.1)
    (h' : ':'.toUInt8 ∉ e'.1) (heq : inBrackets e = inBrackets e') :
    (e.1, e.2.value) = (e'.1, e'.2.value) := by
  have hcut (e : Bytes × HeaderValue) :
      inBrackets e = '['.toUInt8 :: (e.1 ++ ':'.toUInt8 :: (' '.toUInt8 :: e.2.value)) := by
    simp [inBrackets, ascii]
  rw [hcut, hcut] at heq
  obtain ⟨-, heq⟩ := List.cons.inj heq
  -- the name ends at the first colon
  have hprefix : e.1 ++ ':'.toUInt8 :: (' '.toUInt8 :: e.2.value) <+:
      e'.1 ++ ':'.toUInt8 :: (' '.toUInt8 :: e'.2.value) := heq ▸ List.prefix_rfl
  obtain ⟨hname, -⟩ := (append_sep_prefix_iff h h').mp hprefix
  rw [hname] at heq
  obtain ⟨-, hvalue⟩ := List.cons.inj (List.cons.inj (List.append_cancel_left heq)).2
  rw [hname, hvalue]

theorem inBrackets_readable {headers : HeaderMap} (h : Readable headers) :
    ∀ text ∈ headers.map inBrackets, ']'.toUInt8 ∉ text := by
  intro text htext
  obtain ⟨e, he, rfl⟩ := List.mem_map.mp htext
  obtain ⟨-, hname, hvalue⟩ := h e he
  have hopen : ']'.toUInt8 ∉ ascii "[" := by decide
  have hcolon : ']'.toUInt8 ∉ ascii ": " := by decide
  simp only [inBrackets, List.mem_append, not_or]
  exact ⟨⟨⟨hopen, hname⟩, hcolon⟩, hvalue⟩

/-- **Different headers have different texts**, but for what is sensitive, as long as names and
values are readable. -/
theorem headersAsString_inj {headers headers' : HeaderMap} (h : Readable headers)
    (h' : Readable headers') : headersAsString headers = headersAsString headers' ↔
      headers.map (fun e => (e.1, e.2.value)) = headers'.map (fun e => (e.1, e.2.value)) := by
  constructor
  · intro heq
    rw [headersAsString_eq, headersAsString_eq] at heq
    have hreadable := inBrackets_readable h
    have hreadable' := inBrackets_readable h'
    have hprefix := (flatMap_prefix_iff hreadable hreadable').mp (heq ▸ List.prefix_rfl)
    have hprefix' := (flatMap_prefix_iff hreadable' hreadable).mp (heq ▸ List.prefix_rfl)
    have hbrackets : headers.map inBrackets = headers'.map inBrackets :=
      hprefix.eq_of_length (Nat.le_antisymm hprefix.length_le hprefix'.length_le)
    clear heq hreadable hreadable' hprefix hprefix'
    induction headers generalizing headers' with
    | nil =>
      obtain rfl := List.map_eq_nil_iff.mp hbrackets.symm
      rfl
    | cons e headers ih =>
      cases headers' with
      | nil => simp at hbrackets
      | cons e' headers' =>
        obtain ⟨hfirst, hrest⟩ := List.forall_mem_cons.mp h
        obtain ⟨hfirst', hrest'⟩ := List.forall_mem_cons.mp h'
        obtain ⟨he, htail⟩ := List.cons.inj hbrackets
        rw [List.map_cons, List.map_cons, inBrackets_inj hfirst.1 hfirst'.1 he,
          ih hrest hrest' htail]
  · intro heq
    have htext (headers : HeaderMap) : headersAsString headers =
        (headers.map fun e => (e.1, e.2.value)).flatMap fun e =>
          ascii "[" ++ e.1 ++ ascii ": " ++ e.2 ++ ascii "]" := by
      rw [List.flatMap_map]
      rfl
    rw [htext, htext, heq]

theorem valuesAt_map (headers : HeaderMap) (header : Bytes) :
    valuesAt (headers.map fun e => (e.1, e.2.value)) header =
      (valuesAt headers header).map HeaderValue.value := by
  simp only [valuesAt, List.filter_map, List.map_map]
  rfl

/-- **What the text of a builder shows.** Two builders with readable headers have the same text
exactly if they were given the same values under each name, in the same order. -/
theorem asString_eq_iff (calls calls' : List HeaderCall) (h : Readable (getHeaders calls))
    (h' : Readable (getHeaders calls')) :
    headersAsString (getHeaders calls) = headersAsString (getHeaders calls') ↔
      ∀ header, (HeaderCall.values calls header).map HeaderValue.value =
        (HeaderCall.values calls' header).map HeaderValue.value := by
  have hvalues (calls : List HeaderCall) (header : Bytes) :
      (HeaderCall.values calls header).map HeaderValue.value =
        valuesAt ((getHeaders calls).map fun e => (e.1, e.2.value)) header := by
    rw [valuesAt_map, getHeaders_ofList]
    exact congrArg _ (Multimap.values_ofList _ _).symm
  have hsorted (calls : List HeaderCall) :
      ((getHeaders calls).map fun e => (e.1, e.2.value)).Pairwise fun e e' => e.1 ≤ e'.1 := by
    rw [List.pairwise_map, getHeaders_ofList]
    exact Multimap.sorted _
  rw [headersAsString_inj h h']
  constructor
  · intro heq header
    rw [hvalues, hvalues, heq]
  · intro hall
    refine entries_ext (hsorted calls) (hsorted calls') fun header => ?_
    rw [← hvalues, ← hvalues, hall]

end text

/-- Two builders called in another order, one of them with a value that is empty. -/
def oneOrder : List HeaderCall :=
  [.addContentType (ascii "text/plain"), .addVersion (ascii "1"), .emplace (ascii "a") (ascii "x"),
    .emplace (ascii "a") (ascii "y") true]

def otherOrder : List HeaderCall :=
  [.emplace (ascii "a") (ascii "x"), .addVersion (ascii "1"), .addLocation [],
    .emplace (ascii "a") (ascii "y") true, .addContentType (ascii "text/plain")]

example : getHeaders oneOrder = getHeaders otherOrder := by decide

example : headersAsString (getHeaders otherOrder) =
    ascii "[a: x][a: y][content-type: text/plain][x-version: 1]" := by decide

/-- Nothing is said of a name with a colon. -/
example : headersAsString [(ascii "a", ⟨ascii "b: c", false⟩)] =
    headersAsString [(ascii "a: b", ⟨ascii "c", false⟩)] := by decide

theorem asString_eq_iff_orders :
    (HeaderCall.values oneOrder (ascii "a")).map HeaderValue.value =
      (HeaderCall.values otherOrder (ascii "a")).map HeaderValue.value :=
  (asString_eq_iff oneOrder otherOrder (by unfold Readable; decide)
    (by unfold Readable; decide)).mp (by decide) (ascii "a")

end Http2Comm
