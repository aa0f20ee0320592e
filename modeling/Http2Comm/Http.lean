import Http2Comm.Lib.Bytes

/-!
# `Http.hpp` and `Http2Headers` — error pairs and header maps

`header_map` is a multimap ordered by key, entries of one key in the order they were added;
`HeaderMap.emplace` inserts accordingly. The error pairs are the constants the server answers a
rejected request with.
-/

set_option autoImplicit false

namespace Http2Comm

open Lib

/-! ## Error pairs -/

/-- The `ResponseCode` values that the error pairs of the server carry. -/
def badRequest : Int := 400
def methodNotAllowedCode : Int := 405
def unsupportedMediaTypeCode : Int := 415
def notImplemented : Int := 501
def serviceUnavailableCode : Int := 503

/-- A code and its description. -/
abbrev ErrorPair := Int × Bytes

def wrongApiNameOrVersion : ErrorPair := (badRequest, ascii "INVALID_API")
def unsupportedMediaType : ErrorPair := (unsupportedMediaTypeCode, ascii "UNSUPPORTED_MEDIA_TYPE")
def methodNotAllowed : ErrorPair := (methodNotAllowedCode, ascii "METHOD_NOT_ALLOWED")
def methodNotImplemented : ErrorPair := (notImplemented, ascii "METHOD_NOT_IMPLEMENTED")
def serviceUnavailable : ErrorPair := (serviceUnavailableCode, ascii "SERVICE_UNAVAILABLE")

/-! ## Header maps -/

structure HeaderValue where
  value : Bytes
  sensitive : Bool
  deriving DecidableEq, Repr

abbrev HeaderMap := List (Bytes × HeaderValue)

/-- `std::multimap::emplace`: after every entry whose key is not greater. -/
def HeaderMap.emplace (headers : HeaderMap) (key : Bytes) (value : HeaderValue) : HeaderMap :=
  headers.takeWhile (fun e => !decide (key < e.1)) ++
    (key, value) :: headers.dropWhile (fun e => !decide (key < e.1))

namespace Http2Headers

/-- `Http2Headers::emplace`: an empty value is not added. -/
def emplace (headers : HeaderMap) (key value : Bytes) (sensitiveInformation : Bool := false) :
    HeaderMap :=
  if value ≠ [] then headers.emplace key ⟨value, sensitiveInformation⟩ else headers

def addVersion (headers : HeaderMap) (value : Bytes) : HeaderMap :=
  emplace headers (ascii "x-version") value

def addLocation (headers : HeaderMap) (value : Bytes) : HeaderMap :=
  emplace headers (ascii "location") value

/-- The methods joined by `", "`; nothing is added for an empty list. -/
def addAllowedMethods (headers : HeaderMap) : List Bytes → HeaderMap
  | [] => headers
  | first :: methods =>
    emplace headers (ascii "Allow")
      (methods.foldl (fun serialized method => serialized ++ ascii ", " ++ method) first)

def addContentLength (headers : HeaderMap) (value : Nat) : HeaderMap :=
  emplace headers (ascii "content-length") (toDecimal value)

def addContentType (headers : HeaderMap) (value : Bytes) : HeaderMap :=
  emplace headers (ascii "content-type") value

end Http2Headers

end Http2Comm
