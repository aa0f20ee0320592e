import Http2Comm.Lib.Split
import Http2Comm.Server.Http2Server

/-!
# The headers of an error response

The default `receiveError` builds a new header map with five calls and assigns it over the old one.
Two of the calls add nothing for an empty value, and one joins a list first. What is in the map
afterwards is a fact about a multimap: `emplace` adds one entry and keeps every other
(`emplace_perm`), wherever the order of the keys puts it, so the map is known up to permutation.
Content length and allowed methods are stated through their readers, the decimal value and the
cut at `", "`.
-/

set_option autoImplicit false

namespace Http2Comm

open Lib

/-- `emplace` adds an entry, in some place. -/
theorem HeaderMap.emplace_perm (headers : HeaderMap) (key : Bytes) (value : HeaderValue) :
    (headers.emplace key value).Perm (headers ++ [(key, value)]) := by
  unfold HeaderMap.emplace
  refine List.perm_middle.trans ?_
  rw [List.takeWhile_append_dropWhile]
  exact (List.perm_append_singleton _ _).symm

namespace Http2Headers

/-- What `emplace` adds: nothing for an empty value. -/
def entry (key value : Bytes) : HeaderMap := if value ≠ [] then [(key, ⟨value, false⟩)] else []

theorem entry_of_ne_nil {key value : Bytes} (h : value ≠ []) :
    entry key value = [(key, ⟨value, false⟩)] := if_pos h

theorem emplace_perm {headers headers' : HeaderMap} (h : headers.Perm headers')
    (key value : Bytes) : (emplace headers key value).Perm (headers' ++ entry key value) := by
  unfold emplace entry
  split
  · exact (HeaderMap.emplace_perm headers key _).trans (h.append_right _)
  · simpa using h

/-- The value of the `Allow` header. -/
def joined : List Bytes → Bytes
  | [] => []
  | first :: methods =>
    methods.foldl (fun serialized method => serialized ++ ascii ", " ++ method) first

theorem addAllowedMethods_eq (headers : HeaderMap) (methods : List Bytes) :
    addAllowedMethods headers methods = emplace headers (ascii "Allow") (joined methods) := by
  cases methods with
  | nil => rfl
  | cons first methods => rfl

theorem joined_ne_nil {methods : List Bytes} (h : ∀ m ∈ methods, m ≠ []) :
    joined methods ≠ [] ↔ methods ≠ [] := by
  -- what is joined keeps the first method in front
  have hfront (methods : List Bytes) (first : Bytes) (hfirst : first ≠ []) :
      methods.foldl (fun serialized method => serialized ++ ascii ", " ++ method) first ≠ [] := by
    induction methods generalizing first with
    | nil => exact hfirst
    | cons method methods ih => exact ih _ (by simp [hfirst])
  cases methods with
  | nil => simp [joined]
  | cons first methods =>
    exact iff_of_true (hfront methods first (h first (by simp))) (by simp)

end Http2Headers

namespace Server

open Http2Headers

theorem toDecimal_ne_nil (n : Nat) : toDecimal n ≠ [] := by
  simp [toDecimal, Nat.toDigits_ne_nil]

theorem errorContentType_ne_nil (statusCode : Nat) : errorContentType statusCode ≠ [] := by
  unfold errorContentType
  split <;> decide

/-- The entries of the header map, as one list. -/
theorem headers_receiveError (server : Http2Server) (req : Request) (error : ErrorPair)
    (location : Bytes) (allowedMethods : List Bytes) :
    (server.receiveError req error location allowedMethods).response.headers.Perm
      (entry (ascii "x-version") server.apiVersion ++ entry (ascii "location") location ++
        entry (ascii "Allow") (joined allowedMethods) ++
        entry (ascii "content-length") (toDecimal (errorBody error.2).length) ++
        entry (ascii "content-type") (errorContentType (toUnsigned error.1))) := by
  have hversion := emplace_perm (.refl []) (ascii "x-version") server.apiVersion
  have hlocation := emplace_perm hversion (ascii "location") location
  have hallow := emplace_perm hlocation (ascii "Allow") (joined allowedMethods)
  rw [← addAllowedMethods_eq, List.nil_append] at hallow
  exact emplace_perm (emplace_perm hallow _ _) _ _

theorem toUnsigned_of_nonneg {code : Int} (hcode : 0 ≤ code) (hint : code < 2147483648) :
    (toUnsigned code : Int) = code := by
  unfold toUnsigned
  omega

/-- **The headers of an error response**, whatever the response held before. -/
theorem error_headers (server : Http2Server) (req : Request) (prior : Response)
    (error : ErrorPair) (location : Bytes) (allowedMethods : List Bytes)
    (hcode : 0 ≤ error.1) (hint : error.1 < 2147483648)
    (hmethods : ∀ m ∈ allowedMethods, m ≠ [] ∧ ','.toUInt8 ∉ m ∧ ' '.toUInt8 ∉ m) :
    let response :=
      (server.defaultReceiveError req location error allowedMethods prior).response
    ∃ contentLength allow : Bytes,
      response.headers.Perm
        ([(ascii "content-length", ⟨contentLength, false⟩),
          (ascii "content-type", ⟨if 200 ≤ error.1 ∧ error.1 ≤ 299 then ascii "application/json"
            else ascii "application/problem+json", false⟩)] ++
        (if server.apiVersion ≠ [] then [(ascii "x-version", ⟨server.apiVersion, false⟩)]
          else []) ++
        (if location ≠ [] then [(ascii "location", ⟨location, false⟩)] else []) ++
        (if allowedMethods ≠ [] then [(ascii "Allow", ⟨allow, false⟩)] else [])) ∧
      (∀ c ∈ contentLength, isDigit c = true) ∧
      decimalValue contentLength = response.body.length ∧
      (allowedMethods ≠ [] → cutAt (ascii ", ") allow = allowedMethods) := by
  intro response
  obtain ⟨hdigits, hvalue⟩ := decimalValue_toDecimal response.body.length
  refine ⟨toDecimal response.body.length, joined allowedMethods, ?_, hdigits, hvalue, ?_⟩
  · have hheaders := headers_receiveError server req error location allowedMethods
    have htype : errorContentType (toUnsigned error.1) =
        if 200 ≤ error.1 ∧ error.1 ≤ 299 then ascii "application/json"
        else ascii "application/problem+json" := by
      have hunsigned := toUnsigned_of_nonneg hcode hint
      have hrange : 200 ≤ toUnsigned error.1 ∧ toUnsigned error.1 < 300 ↔
          200 ≤ error.1 ∧ error.1 ≤ 299 := by omega
      rw [errorContentType]
      exact if_congr hrange rfl rfl
    have hallow : entry (ascii "Allow") (joined allowedMethods) =
        if allowedMethods ≠ [] then [(ascii "Allow", ⟨joined allowedMethods, false⟩)] else [] := by
      rw [entry]
      exact if_congr (joined_ne_nil fun m hm => (hmethods m hm).1) rfl rfl
    rw [entry_of_ne_nil (toDecimal_ne_nil _), entry_of_ne_nil (errorContentType_ne_nil _),
      htype, hallow] at hheaders
    refine hheaders.trans ?_
    rw [List.append_assoc]
    refine List.perm_append_comm.trans ?_
    rw [← List.append_assoc, ← List.append_assoc]
    rfl
  · intro hne
    obtain ⟨first, methods, rfl⟩ := List.exists_cons_of_ne_nil hne
    exact cutAt_join first methods fun m hm => (hmethods m hm).2.1

/-- A rejected method, over a response that already has a header. -/
theorem error_headers_methodNotAllowed :
    ∃ contentLength allow : Bytes,
      (({} : Http2Server).defaultReceiveError {} [] methodNotAllowed [ascii "GET", ascii "POST"]
        { headers := [(ascii "x-version", ⟨ascii "1", false⟩)] }).response.headers.Perm
        [(ascii "content-length", ⟨contentLength, false⟩),
          (ascii "content-type", ⟨ascii "application/problem+json", false⟩),
          (ascii "Allow", ⟨allow, false⟩)] ∧
      decimalValue contentLength = 30 ∧ cutAt (ascii ", ") allow = [ascii "GET", ascii "POST"] := by
  obtain ⟨contentLength, allow, hheaders, -, hlength, hallow⟩ :=
    error_headers {} {} { headers := [(ascii "x-version", ⟨ascii "1", false⟩)] } methodNotAllowed []
      [ascii "GET", ascii "POST"] (by decide) (by decide) (by decide)
  exact ⟨contentLength, allow, hheaders, hlength, hallow (by decide)⟩

end Server

end Http2Comm
