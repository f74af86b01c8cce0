import Scripture.ChunkScan
import Scripture.Driver.Ceiling
import Scripture.Driver.ChunkNames
import Scripture.Delivery
import Scripture.Driver.Retries
import Scripture.Driver.Flush
import Scripture.Authority.Lifecycle
import Scripture.Ingress.Responses
import Scripture.Workload.Register
import Scripture.Workload.Vertical
import Scripture.Retirement
import Scripture.VirtualRecovery
import Scripture.Spool.Scan
import Scripture.Spool.Drain
import Scripture.Spool.CellEvidence
import Scripture.Telemetry.Sender
import Scripture.Telemetry.Calendar
import Scripture.Blob.Coalesce
import Scripture.Consume
import Scripture.Producer.Stream
import Scripture.Routing.Coverage
