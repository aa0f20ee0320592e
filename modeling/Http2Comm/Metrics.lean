import Http2Comm.Lib.Bytes

/-!
# Metric updates

Client and server write to the same kinds of metrics: a family, the labels of the instance, and
one of three operations. A run of either is observed through the list of `MetricUpdate`s it
makes, so "the counter summed over its labels" is a count over that list.

Durations are kept in microseconds, as the source computes them; the division by `1000000.0`
that turns them into seconds for the gauge and the histogram is not modelled.
-/

set_option autoImplicit false

namespace Http2Comm

open Lib

/-- The metric families of `enableMetrics`, of the server and of the client. -/
inductive Family where
  | observedRequestsAcceptedCounter
  | observedRequestsErroredCounter
  | observedResponsesCounter
  | observedRequestsSentsCounter
  | observedRequestsUnsentsCounter
  | observedResponsesReceivedCounter
  | observedResponsesTimedoutCounter
  | responsesDelaySecondsGauge
  | receivedMessagesSizeBytesGauge
  | sentMessagesSizeBytesGauge
  | responsesDelaySecondsHistogram
  | receivedMessagesSizeBytesHistogram
  | sentMessagesSizeBytesHistogram
  deriving DecidableEq, Repr

inductive Operation where
  | increment
  | set (value : Int)
  | observe (value : Int)
  deriving DecidableEq, Repr

/-- `family->Add(labels)` followed by one operation on the instance it returns. -/
structure MetricUpdate where
  family : Family
  labels : List (Bytes × Bytes)
  operation : Operation
  deriving DecidableEq, Repr

end Http2Comm
