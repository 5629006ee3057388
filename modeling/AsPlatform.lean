import AsPlatform.Library.OrderedDict
import AsPlatform.Library.Recency
import AsPlatform.Library.Ranking
import AsPlatform.Library.Merge
import AsPlatform.Library.Transition
import AsPlatform.Library.Loops
import AsPlatform.Library.Threads
import AsPlatform.Library.Grouping
import AsPlatform.Library.Asking
import AsPlatform.Library.EventSystem
import AsPlatform.Library.Outline
import AsPlatform.Library.Keeping
import AsPlatform.Library.Embedding
import AsPlatform.Library.Backtracking
import AsPlatform.Library.Searching
import AsPlatform.Library.Playing
import AsPlatform.Library.Ownership
import AsPlatform.PythonRe
import AsPlatform.Hop
import AsPlatform.RouteHeader
import AsPlatform.RouteTarget
import AsPlatform.Observability.CallIdHeader
import AsPlatform.TransactionTimers
import AsPlatform.CapacityHarness.Driver
import AsPlatform.CallController.PassThrough
import AsPlatform.Errors
import AsPlatform.Observability.Logging
import AsPlatform.Observability.StructuredLines
import AsPlatform.Observability.Metrics
import AsPlatform.Observability.Tracing
import AsPlatform.Observability.Retention
import AsPlatform.Library.Locking
import AsPlatform.Observability.TraceLock
import AsPlatform.Observability.MetricsLock
import AsPlatform.Observability.MessagesLock
import AsPlatform.Observability.FirstUse
import AsPlatform.Observability.LogPrefix
import AsPlatform.ConsoleFeed
import AsPlatform.StateStore.AccessOrder
import AsPlatform.StateStore.StoreLock
import AsPlatform.StateStore.Families
import AsPlatform.StateStore.Eviction
import AsPlatform.StateStore.Interchange
import AsPlatform.StateStore.Drain
import AsPlatform.CallController.GhostCalls
import AsPlatform.CallController.CallMap
import AsPlatform.CallController.Isolation
import AsPlatform.CallController.Supervision
import AsPlatform.CallController.OneLeg
import AsPlatform.CallController.FailoverWalk
import AsPlatform.CallController.Transparency
import AsPlatform.CallController.Vocabulary
import AsPlatform.CallController.Identity
import AsPlatform.CallController.Projection
import AsPlatform.CallController.Admission
import AsPlatform.CallController.Tampering
import AsPlatform.CallController.Setup
import AsPlatform.CallController.PeerStates
import AsPlatform.CallController.FailoverTrace
import AsPlatform.CallController.Books
import AsPlatform.CallController.Disposal
import AsPlatform.Stack.Transport
import AsPlatform.Stack.BaseAsStack
import AsPlatform.Stack.Lifecycle
import AsPlatform.Stack.Graceful
import AsPlatform.Stack.Shutdown
import AsPlatform.Stack.TlsTransport
