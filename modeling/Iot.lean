import Iot.Contracts.Envelope
import Iot.Contracts.Command
import Iot.Execution.Run
import Iot.Data.Table
import Iot.Platform.Domain
import Iot.Platform.Capacity
import Iot.Store.Commands
import Iot.Store.Lifecycle
import Iot.Store.RowInvariant
import Iot.Store.AuditLog
import Iot.Store.RequestKeys
import Iot.Dispatch.System
import Iot.Dispatch.Redelivery
import Iot.Dispatch.Fencing
import Iot.Dispatch.Downlink
import Iot.Dispatch.Publishable
import Iot.Core.GetCommand
import Iot.Telemetry.FieldContract
import Iot.Worker.AckChecks
import Iot.Worker.DeadLetterSize
import Iot.Worker.FirstResult
import Iot.Worker.Offsets
import Iot.Replay.Draining
import Iot.Listing.Requests
import Iot.Data.Paging
import Iot.Http.Parameters
import Iot.Mqtt.Auth
import Iot.Worker.SinkRows
import Iot.Store.Liveness
import Iot.Kafka.Discovery
import Iot.Kafka.Reconciliation
import Iot.Contracts.Identity
import Iot.Worker.Groups
import Iot.Platform.Statements
import Iot.Store.SecretMigration
import Iot.Tracing.TraceBudget
import Iot.Listing.Cursors
import Iot.Listing.MemoryPages
import Iot.Mqtt.Speakers
import Iot.Http.Isolation
