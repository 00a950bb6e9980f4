import RsIpc.SharedMessage.Abandon
import RsIpc.SharedMessage.Numbering
import RsIpc.SharedMessage.Calls
import RsIpc.SharedMessage.Sequencing
import RsIpc.SharedMessage.Publishing
import RsIpc.SharedMessage.Snapshot
import RsIpc.SharedMessage.EndOfStream
import RsIpc.SharedMessage.Waking
import RsIpc.SharedMessage.Waiting
import RsIpc.SharedMessage.Departure
import RsIpc.SharedMessage.LostWakeup
import RsIpc.SharedMessage.SleepingReader
import RsIpc.SharedMessage.Membership
import RsIpc.SharedMessage.Consumption
import RsIpc.SharedMessage.Backpressure
import RsIpc.SharedMessage.Broadcast
import RsIpc.SharedMessage.Within
import RsIpc.Layout.Core
import RsIpc.SharedMessage.Mapping
import RsIpc.Python.WriteGuard
import RsIpc.Python.ReadGuard
import RsIpc.Python.RoundTrip
import RsIpc.SharedMessage.Counters
import RsIpc.SharedMessage.Nonblocking
import RsIpc.Protocol.AtomicObject
import RsIpc.SharedMessage.UpdateLoop
import RsIpc.Sync.FutexLock
import RsIpc.Python.ReadSync
import RsIpc.Python.WriteSync
import RsIpc.Python.ReadAsync
import RsIpc.Python.WriteAsync
import RsIpc.SharedMessage.Stream
import RsIpc.SharedMessage.Channel
import RsIpc.SharedMessage.Linearization
import RsIpc.Python.Streaming
import RsIpc.Python.Pipeline
import RsIpc.Python.Delivery
import RsIpc.SharedMessage.Locked
import RsIpc.SharedMessage.Rest
import RsIpc.Python.Rest
import RsIpc.SharedMessage.Wakeful
import RsIpc.Python.Progress
import RsIpc.Python.ReaderThreads
import RsIpc.Python.QueuedDelivery
import RsIpc.Python.Lifetime
import RsIpc.SharedMessage.Settling
import RsIpc.SharedMessage.Shutdown
import RsIpc.Python.Settling
