import MuduoChat.Gateway.Retention
import MuduoChat.Gateway.Lease
import MuduoChat.Gateway.GroupRetry
import MuduoChat.Cluster.Acknowledged
import MuduoChat.Cluster.Agreement
import MuduoChat.Gateway.Stranded
import MuduoChat.Outbox.Dropped
import MuduoChat.Presence.Stale
import MuduoChat.Presence.Link
import MuduoChat.Executor.Serial
import MuduoChat.Executor.DeadLanes
import MuduoChat.Session.Releases
import MuduoChat.Net.Pressure
import MuduoChat.Net.Stall
import MuduoChat.Cluster.Cleanup
import MuduoChat.Outbox.Bookkeeping
import MuduoChat.Gateway.Handover
import MuduoChat.Outbox.Wakeup
import MuduoChat.Gateway.ActiveLeases
import MuduoChat.Presence.Resp
import MuduoChat.Kafka.RecordBatch
import MuduoChat.Net.ByteQueue
import MuduoChat.Gateway.ClockRange
import MuduoChat.Store.ConnectionPool
import MuduoChat.Net.TimerQueue
import MuduoChat.Net.EventLoop
import MuduoChat.Codec.Replies
import MuduoChat.Store.StoredTexts
import MuduoChat.Telemetry.Prometheus
import MuduoChat.Store.OutboxTable
import MuduoChat.Gateway.InOrder
import MuduoChat.Net.EndToEnd
import MuduoChat.Net.Poller
