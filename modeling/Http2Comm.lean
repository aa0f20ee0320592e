import Http2Comm.Lib.Machine
import Http2Comm.Lib.Pool
import Http2Comm.Lib.Service
import Http2Comm.Lib.ExchangeLoop
import Http2Comm.Lib.Bytes
import Http2Comm.Lib.Split
import Http2Comm.Lib.Multimap
import Http2Comm.Lib.Json
import Http2Comm.Lib.Uri
import Http2Comm.Metrics
import Http2Comm.Http
import Http2Comm.URLFunctions
import Http2Comm.Url.Tokens
import Http2Comm.Url.Canonical
import Http2Comm.Url.XdigitDomain
import Http2Comm.Url.MatchPrefix
import Http2Comm.Server.Http2Server
import Http2Comm.Server.ErrorCause
import Http2Comm.Server.ErrorHeaders
import Http2Comm.Server.Stream
import Http2Comm.Server.StreamClose
import Http2Comm.Server.ResponseDelay
import Http2Comm.Server.CancelledDelay
import Http2Comm.Server.ObservedDelay
import Http2Comm.Server.Handler
import Http2Comm.Server.CloseNames
import Http2Comm.Server.Assembly
import Http2Comm.Server.MaximumBody
import Http2Comm.Server.ConcurrentMaximum
import Http2Comm.Server.Admission
import Http2Comm.Server.Outcome
import Http2Comm.Server.Completion
import Http2Comm.Server.Service
import Http2Comm.Server.Lifetime
import Http2Comm.Server.ByteAccounting
import Http2Comm.Server.MetricsObserve
import Http2Comm.Client.Request
import Http2Comm.Client.GetUri
import Http2Comm.Client.Callback
import Http2Comm.Client.Outcome
import Http2Comm.Client.TimeoutReport
import Http2Comm.Client.Accounting
import Http2Comm.Client.SentAccounting
import Http2Comm.Client.Send
import Http2Comm.Client.SendResult
import Http2Comm.Client.Connection
import Http2Comm.Client.SessionStatus
import Http2Comm.Client.Reconnect
import Http2Comm.Client.CloseNotifications
import Http2Comm.Client.WakeUp
import Http2Comm.Client.AsyncSend
import Http2Comm.Client.Exclusive
import Http2Comm.Client.SessionPointer
import Http2Comm.Client.Progress
import Http2Comm.Client.QueuedSubmit
import Http2Comm.Client.Ownership
import Http2Comm.Client.Running
import Http2Comm.Client.Placed
import Http2Comm.Client.Conservation
import Http2Comm.Client.Completion
import Http2Comm.Client.Service
import Http2Comm.Exchange
import Http2Comm.Service
import Http2Comm.Http2Headers
import Http2Comm.EnableMetrics
