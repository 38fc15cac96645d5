import Emme.Backend.BreakerThreads
import Emme.Backend.Callers
import Emme.Backend.CircuitBreaker
import Emme.Backend.Connected
import Emme.Backend.FailFast
import Emme.Backend.Figures
import Emme.Backend.HealthChecker
import Emme.Backend.HealthMarks
import Emme.Backend.Pool
import Emme.Backend.Recovery
import Emme.Config.Load
import Emme.Config.Route
import Emme.Http.Grammar
import Emme.Http.InPlace
import Emme.Http.Parser
import Emme.Http2.BodyReaders
import Emme.Http2.Client
import Emme.Http2.Connect
import Emme.Http2.ResponseStatus
import Emme.IpLimiter.Compaction
import Emme.IpLimiter.Entries
import Emme.IpLimiter.Eviction
import Emme.IpLimiter.Exactness
import Emme.IpLimiter.Hash
import Emme.IpLimiter.Invariant
import Emme.IpLimiter.Limiter
import Emme.IpLimiter.Locks
import Emme.IpLimiter.Operations
import Emme.IpLimiter.Sweep
import Emme.Lib.Buckets
import Emme.Lib.CString
import Emme.Lib.CriticalSection
import Emme.Lib.Cursor
import Emme.Lib.Descriptors
import Emme.Lib.Execution
import Emme.Lib.Exposition
import Emme.Lib.FileTree
import Emme.Lib.FirstSlots
import Emme.Lib.Heap
import Emme.Lib.Hex
import Emme.Lib.Json
import Emme.Lib.KeyTable
import Emme.Lib.Ledger
import Emme.Lib.Lines
import Emme.Lib.Memory
import Emme.Lib.Mixing
import Emme.Lib.Recurrence
import Emme.Lib.Resources
import Emme.Lib.RingBuffer
import Emme.Lib.Slots
import Emme.Lib.Stores
import Emme.Lib.Streaks
import Emme.Lib.Threads
import Emme.Lifecycle.Accounts
import Emme.Lifecycle.AddressLimit
import Emme.Lifecycle.Admission
import Emme.Lifecycle.Drain
import Emme.Lifecycle.Gauge
import Emme.Lifecycle.Machine
import Emme.Lifecycle.Projection
import Emme.Lifecycle.Service
import Emme.Lifecycle.Signals
import Emme.Lifecycle.Teardown
import Emme.Log.Delivery
import Emme.Log.Format
import Emme.Log.Pipeline
import Emme.Log.Ring
import Emme.Log.Rollover
import Emme.Log.Shutdown
import Emme.Metrics.Endpoint
import Emme.Metrics.Format
import Emme.Metrics.Histogram
import Emme.Metrics.Observers
import Emme.Metrics.Scrape
import Emme.Router.Dispatch
import Emme.Router.HeaderBuffer
import Emme.Router.HeaderSets
import Emme.Router.Http2
import Emme.Router.Relay
import Emme.Router.Responses
import Emme.Router.StaticLookup
import Emme.Router.StaticServed
import Emme.Server.ClientTask
import Emme.Server.ContentLength
import Emme.Server.Descriptors
import Emme.Server.Elapsed
import Emme.Server.FrameHeaders
import Emme.Server.HeadScan
import Emme.Server.Http1
import Emme.Server.Http2Limits
import Emme.Server.Http2Loop
import Emme.Server.Machine
import Emme.Server.ProxyAnswers
import Emme.Server.Startup
import Emme.Server.StaticDelivery
import Emme.Server.StreamData
import Emme.Server.Streams
import Emme.Settings.BackendAddress
import Emme.Settings.Defaults
import Emme.Settings.Environment
import Emme.Settings.Load
import Emme.Settings.RouteNumbers
import Emme.Settings.Sizes
import Emme.Settings.Valid
import Emme.ThreadPool.Delivery
import Emme.ThreadPool.Join
import Emme.ThreadPool.TaskQueue
import Emme.ThreadPool.Wakeups
import Emme.ThreadPool.Workers
import Emme.Uuid.Random
import Emme.Uuid.Text
