import Http2Comm.Http
import Http2Comm.Metrics

/-!
# `Http2Server` — configuration and the default `receiveError`

What the constructor and the setters leave behind, and the two functions of the class that
compute something from it alone: `getApiPath` and `receiveError`. The streams and the events of
a running server are in the modules that import this one.
-/

set_option autoImplicit false

namespace Http2Comm.Server

open Lib

/-- The configuration of an `Http2Server`. The three optional collaborators (metrics, timers
`io_context`, queue dispatcher) are present or absent. -/
structure Http2Server where
  name : Bytes := []
  source : Bytes := []
  apiName : Bytes := []
  apiVersion : Bytes := []
  metrics : Bool := false
  timersIoContext : Bool := false
  queueDispatcher : Bool := false
  queueDispatcherMaxSize : Int := -1
  deriving DecidableEq, Repr

/-- The constructor. A limit below `-1` is stored as `-1`, and one worker thread needs no queue
dispatcher. -/
def Http2Server.construct (name : Bytes) (workerThreads : Nat) (timersIoContext : Bool)
    (queueDispatcherMaxSize : Int) : Http2Server :=
  { name, timersIoContext
    queueDispatcher := decide (1 < workerThreads)
    queueDispatcherMaxSize := if -1 ≤ queueDispatcherMaxSize then queueDispatcherMaxSize else -1 }

/-- What the server reads of an nghttp2 request. -/
structure Request where
  method : Bytes := []
  path : Bytes := []
  deriving DecidableEq, Repr

/-- The response members of a `Stream`, which reception fills in. -/
structure Response where
  statusCode : Nat := 0
  headers : HeaderMap := []
  body : Bytes := []
  deriving DecidableEq, Repr

/-- `/<name>/<version>`, without the version when it is empty and empty without a name. -/
def Http2Server.getApiPath (server : Http2Server) : Bytes :=
  if server.apiName = [] then []
  else
    let withName := '/'.toUInt8 :: server.apiName
    if server.apiVersion ≠ [] then withName ++ '/'.toUInt8 :: server.apiVersion else withName

/-! ## `receiveError` -/

/-- `"0123456789abcdef"`. -/
def lowerXdigits : Bytes := ascii "0123456789abcdef"

/-- One turn of the loop that escapes the error cause. -/
def escapeByte (c : UInt8) : Bytes :=
  if c = '"'.toUInt8 then ascii "\\\""
  else if c = '\\'.toUInt8 then ascii "\\\\"
  else if c = '\n'.toUInt8 then ascii "\\n"
  else if c = '\r'.toUInt8 then ascii "\\r"
  else if c = '\t'.toUInt8 then ascii "\\t"
  else if c = 0x08 then ascii "\\b"
  else if c = 0x0C then ascii "\\f"
  else if c < 0x20 then
    ascii "\\u00" ++ [lowerXdigits.getD ((c >>> 4) &&& 0x0F).toNat 0,
      lowerXdigits.getD (c &&& 0x0F).toNat 0]
  else [c]

def escapeCause (cause : Bytes) : Bytes := cause.flatMap escapeByte

/-- The response body of the default `receiveError`. -/
def errorBody (cause : Bytes) : Bytes :=
  -- `\x7b` and `\x7d` are the braces
  if cause ≠ [] then ascii "\x7b\"cause\":\"" ++ escapeCause cause ++ ascii "\"\x7d"
  else ascii "\x7b\x7d"

/-- `statusCode = error.first`, from `int` to `unsigned int`. -/
def toUnsigned (code : Int) : Nat := (code % 4294967296).toNat

/-- The content type of an error response. -/
def errorContentType (statusCode : Nat) : Bytes :=
  if 200 ≤ statusCode ∧ statusCode < 300 then ascii "application/json"
  else ascii "application/problem+json"

/-- What a call of `receiveError` does: it overwrites the response, and may count. -/
structure ReceivedError where
  response : Response
  metrics : List MetricUpdate := []

/-- The default `Http2Server::receiveError`. The request body is not read, and the prior content
of the response is not either. -/
def Http2Server.receiveError (server : Http2Server) (req : Request) (error : ErrorPair)
    (location : Bytes) (allowedMethods : List Bytes) : ReceivedError :=
  let statusCode := toUnsigned error.1
  let body := errorBody error.2
  let headers := Http2Headers.addVersion [] server.apiVersion
  let headers := Http2Headers.addLocation headers location
  let headers := Http2Headers.addAllowedMethods headers allowedMethods
  let headers := Http2Headers.addContentLength headers body.length
  let headers := Http2Headers.addContentType headers (errorContentType statusCode)
  { response := { statusCode, headers, body }
    metrics :=
      if server.metrics then
        [{ family := .observedRequestsErroredCounter
           labels := [(ascii "source", server.source), (ascii "method", req.method)]
           operation := .increment }]
      else [] }

/-- The default `receiveError` as a call: status code, headers and body are references, whatever
they hold before is assigned over, and the location is empty unless the caller gives one. -/
def Http2Server.defaultReceiveError (server : Http2Server) (req : Request)
    (location : Bytes := []) (error : ErrorPair) (allowedMethods : List Bytes)
    (_ : Response) : ReceivedError :=
  server.receiveError req error location allowedMethods

end Http2Comm.Server
