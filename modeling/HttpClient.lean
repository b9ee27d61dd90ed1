import HttpClient.Text.Bytes
import HttpClient.Text.Lines
import HttpClient.Text.LineBreaks
import HttpClient.Text.Encodings
import HttpClient.Semantics.Machine
import HttpClient.Semantics.Log
import HttpClient.Semantics.Bell
import HttpClient.Semantics.Call
import HttpClient.Semantics.EvictionPass
import HttpClient.Semantics.LruCache
import HttpClient.Semantics.SlotRing
import HttpClient.Semantics.OneShot
import HttpClient.Semantics.WaitQueue
import HttpClient.Semantics.KeyedList
import HttpClient.Request
import HttpClient.Url
import HttpClient.Proxy
import HttpClient.H1.Exchange
import HttpClient.H1.Message
import HttpClient.H1.HeadParse
import HttpClient.H1.ReadLoops
import HttpClient.H1.BodyChunks
import HttpClient.H1.MessageBoundary
import HttpClient.H1.HeadBreaks
import HttpClient.H1.Pool
import HttpClient.H1.PoolAccounts
import HttpClient.H1.PoolProgress
import HttpClient.H1.PoolTrust
import HttpClient.H1.OriginPool
import HttpClient.H1.ConnectLimit
import HttpClient.H1.ShardOrigins
import HttpClient.H1.PoolsInUse
import HttpClient.H1.PoolReservations
import HttpClient.H1.ProbeSlots
import HttpClient.H1.CancelledConnections
import HttpClient.H2.Session
import HttpClient.H2.Recovery
import HttpClient.H2.Wiring
import HttpClient.H2.ConnectedReader
import HttpClient.H2.RetiredTransports
import HttpClient.H2.StreamWaits
import HttpClient.H2.SessionPresence
import HttpClient.H2.SessionMoves
import HttpClient.H2.SlotAccounts
import HttpClient.H2.Handlers
import HttpClient.H2.SlotWakeups
import HttpClient.H2.OutputQueue
import HttpClient.H2.Responses
import HttpClient.H2.BodyChunks
import HttpClient.H2.Deadlines
import HttpClient.H2.Expiry
import HttpClient.H2.Uploads
import HttpClient.H2.TransportKey
import HttpClient.H2.SessionGroups
import HttpClient.H2.GroupEvictions
import HttpClient.Policy.CookieJar
import HttpClient.Policy.Defaults
import HttpClient.Policy.RequestLoop
import HttpClient.Routing.OriginGate
import HttpClient.Routing.DetectionWait
import HttpClient.Routing.Route
import HttpClient.Routing.Resolution
import HttpClient.Routing.Attempts
import HttpClient.Routing.KeptResponse
import HttpClient.Routing.SentOnce
import HttpClient.Routing.LastAttempt
import HttpClient.Routing.RouteCache
import HttpClient.Routing.ThreadRoutes
import HttpClient.Routing.OriginCache
import HttpClient.Routing.Verdicts
import HttpClient.Routing.VerdictClaims
import HttpClient.Routing.VerdictEvidence
import HttpClient.Routing.Downgrade
import HttpClient.Policy.CookieCarry
import HttpClient.Policy.CookieIsolation
import HttpClient.Policy.HeaderInjection
import HttpClient.Policy.ReplayGuard
import HttpClient.Policy.Submit
import HttpClient.Policy.AnsweredOnce
import HttpClient.Policy.StreamedChunks
import HttpClient.Policy.BoundedLoop
import HttpClient.OriginCaches
import HttpClient.Asyncx.Gather
import HttpClient.Asyncx.Combinators
import HttpClient.Asyncx.WaitFor
import HttpClient.Asyncx.RunInPool
import HttpClient.Asyncx.FanOut
import HttpClient.Asyncx.VectorGather
import HttpClient.Asyncx.Completions
import HttpClient.Asyncx.Semaphore
import HttpClient.Asyncx.Queue
import HttpClient.Asyncx.Event
import HttpClient.Asyncx.ForEachLimited
import HttpClient.Asyncx.CrossAwait
import HttpClient.Text.Delimiters
import HttpClient.UrlComposition
import HttpClient.Policy.RelativeRedirects
import HttpClient.Policy.RedirectedBody
import HttpClient.Policy.HopProxies
import HttpClient.Policy.HopCredentials
import HttpClient.Text.FormDecode
import HttpClient.Policy.QueryParams
import HttpClient.H2.HeaderBlock
import HttpClient.H1.BufferedExchange
import HttpClient.Authority
import HttpClient.H1.RequestGrammar
import HttpClient.H1.WrittenRequest
import HttpClient.H1.Segments
import HttpClient.H1.HeadView
import HttpClient.H1.SplitResponses
import HttpClient.Builder.FormBody
import HttpClient.ProxyCredentials
import HttpClient.H2.HeaderStorage
import HttpClient.Policy.QueryScoping
import HttpClient.Policy.TimeoutPrecedence
import HttpClient.Socks5
import HttpClient.Text.FormData
import HttpClient.Builder.Multipart
import HttpClient.Policy.ProxyConfinement
import HttpClient.H1.Persistence
import HttpClient.Policy.CookieDomains
import HttpClient.Policy.CookieBounds
import HttpClient.Semantics.EvenSplit
import HttpClient.H1.Preconnect
import HttpClient.Semantics.Enumerates
import HttpClient.H2.StreamSlots
import HttpClient.H2.UploadSlots
import HttpClient.H1.ContentLength
import HttpClient.Policy.MaxAge
import HttpClient.Curl.Answers
import HttpClient.Curl.WakeUps
import HttpClient.H2.ActiveSessions
import HttpClient.H1.ShardScaling
import HttpClient.H1.TlsActor
import HttpClient.ConnectTunnel
import HttpClient.Asyncx.TaskGroup
import HttpClient.Curl.Watch
import HttpClient.H1.Timings
import HttpClient.Policy.Decompression
import HttpClient.Builder.RequestBuilder
import HttpClient.ClientLifetime
import HttpClient.H1.RequestStream
import HttpClient.H2.StateWaiters
