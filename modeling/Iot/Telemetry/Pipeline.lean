import Iot.Execution.Run
import Iot.Replay.DeadLetters
import Iot.Store.Telemetry

/-!
# The telemetry pipeline

Telemetry reaches PostgreSQL on four ways that share one database, one Kafka topic and one
dead-letter topic (`World`):

* the MQTT bridge (`internal/platform/mqtt_bridge.go`) handles each delivery in a callback and a
  goroutine (`Handler`): it is admitted, waits for a slot, is parsed, recorded in the inbox,
  published and acknowledged, or written to the dead-letter topic;
* the telemetry consumer (`consumeTelemetry` in `worker.go`) takes the records of the topic one
  after another (`Consumer`): it decodes, stores, writes to TDengine, marks and commits;
* the API (`IngestTelemetry` and `RecordTelemetry` in `internal/core/service.go`) records and
  publishes telemetry;
* `dlq-replay` writes dead letters back to the topic.

A step is one call to the outside. Its outcome is an argument of the step: a write to Kafka may be
acknowledged or fail, and a failed one may have been applied all the same; so may a transaction
whose commit was not confirmed. Either process may stop after any step and start again.

`acks` counts the calls of `msg.Ack()` for a delivery, `failed` tells whether `fail()` was called
for it, and `sunk` whether a sink (inbox, Kafka or dead-letter topic) has reported success.
-/

namespace Iot.Telemetry

open Text Json Contracts Platform Store Data Execution Replay

/-- How the services are set up. `inbox` and `deadLetters` tell whether the bridge has an inbox
and a dead-letter writer, `tdengine` whether the worker has a TDengine writer. -/
structure Config where
  inbox : Bool
  deadLetters : Bool
  tdengine : Bool
  telemetryTopic : Bytes
  deriving DecidableEq, Repr

/-- What outlives the processes: the database, the partitions of the telemetry topic with the
offset the consumer group has committed in each, and the values in the dead-letter topic. -/
structure World where
  db : TelemetryDb
  topic : Nat → List Message
  committed : Nat → Nat
  dlq : List Bytes

/-- Append a record to a partition of the telemetry topic. -/
def World.append (cfg : Config) (world : World) (partition : Nat) (key value : Bytes)
    (time : Time) : World :=
  let offset := (world.topic partition).length
  { world with
    topic := Function.update world.topic partition
      (world.topic partition ++ [⟨cfg.telemetryTopic, partition, offset, key, value, time⟩]) }

/-- Append a value to the dead-letter topic. -/
def World.bury (world : World) (value : Bytes) : World :=
  { world with dlq := world.dlq ++ [value] }

/-- How one attempt of `writeKafkaMessageWithRetry` ends. An acknowledged write has been applied,
one that failed may have been. -/
inductive Write where
  | acknowledged
  | failed (err : GoError) (retriable appended : Bool)
  deriving DecidableEq, Repr

/-- The attempt has been applied. -/
def Write.applied : Write → Bool
  | .acknowledged => true
  | .failed _ _ appended => appended

/-- The number of attempts `writeKafkaMessageWithRetry` makes. -/
def writeAttempts : Nat := 8

/-- What `writeKafkaMessageWithRetry` does after its attempt number `attempt`, from 0 on: return
no error, return an error or try again. -/
def afterWrite {α : Type} (attempt : Nat) (write : Write) (ok : α) (error : GoError → α)
    (retry : α) : α :=
  match write with
  | .acknowledged => ok
  | .failed err retriable _ => if retriable && attempt + 1 < writeAttempts then retry else error err

/-- How a call of the store ends: it is executed and its outcome reported, or an error of the
connection is reported and the transaction may have been applied or not. -/
inductive Call where
  | executed
  | lost (err : GoError) (applied : Bool)
  deriving DecidableEq, Repr

/-- What a call of the store reports. An error of the connection is no `ErrDuplicateTelemetry`. -/
def Call.reported (call : Call) (result : Except GoError Restored) : Except GoError Restored :=
  match call with
  | .executed => result
  | .lost err _ => .error { err with wraps := err.wraps.filter (· ≠ .duplicateTelemetry) }

/-- The database after a call of the store. -/
def Call.after (call : Call) (before : TelemetryDb) (result : Except GoError Restored) :
    TelemetryDb :=
  match call, result with
  | .lost _ false, _ => before
  | _, .error _ => before
  | _, .ok restored => restored.db before

variable (go : GoRuntime) (pg : Postgres) (cfg : Config)

/-! ## The MQTT bridge -/

/-- Where the handling of a delivery stands. -/
inductive Handler where
  /-- The callback is about to look whether the bridge is stopping. -/
  | arrived
  /-- The callback returned because the bridge is stopping. -/
  | refused
  /-- Counted as pending, waiting for a publish slot. -/
  | admitted
  /-- `processMessage` is about to start. -/
  | started
  /-- The inbox is about to be written. -/
  | recording (env : Envelope) (rec : TelemetryRecord)
  /-- The inbox holds the message. -/
  | recorded (rec : TelemetryRecord)
  /-- `PublishTelemetry` is at an attempt. -/
  | publishing (rec : TelemetryRecord) (durable : Bool) (attempt : Nat)
  /-- Kafka holds the message. -/
  | published (durable : Bool)
  /-- `deadLetter` is about to encode the message. -/
  | deadLettering (stage : Stage) (cause : GoError) (durable : Bool)
  /-- `publishDeadLetter` is at an attempt. -/
  | burying (value : Bytes) (durable : Bool) (attempt : Nat)
  /-- The dead-letter topic holds the message. -/
  | buried (durable : Bool)
  /-- The dead-letter topic did not take the message. -/
  | unburied (durable : Bool)
  /-- The handling has ended. -/
  | finished
  /-- The process ended before the handling did. -/
  | lost
  deriving DecidableEq, Repr

/-- A delivery of a message to the bridge. -/
structure Delivery where
  topic : Bytes
  payload : Bytes
  handler : Handler
  acks : Nat
  failed : Bool
  sunk : Bool
  deriving DecidableEq, Repr

/-- A delivery that has just arrived. -/
def Delivery.new (topic payload : Bytes) : Delivery := ⟨topic, payload, .arrived, 0, false, false⟩

/-- The handling goes on. -/
def Delivery.goto (delivery : Delivery) (handler : Handler) : Delivery :=
  { delivery with handler := handler }

/-- `msg.Ack()`, and the handling goes on. -/
def Delivery.ack (delivery : Delivery) (handler : Handler) : Delivery :=
  { delivery with handler := handler, acks := delivery.acks + 1 }

/-- A sink reports success, and the handling goes on. -/
def Delivery.sink (delivery : Delivery) (handler : Handler) : Delivery :=
  { delivery with handler := handler, sunk := true }

/-- `errPublishBacklogFull`. -/
def errPublishBacklogFull : GoError := .new "mqtt bridge publish backlog full"

/-- `processMessage` up to its first call to the outside. -/
def processMessage (topic payload : Bytes) (now receivedAt : Time) : Handler :=
  match parseEnvelope go payload now with
  | .error err => .deadLettering .mqttDecode err false
  | .ok env =>
      match parseDeviceTopic topic with
      | none => .deadLettering .mqttIdentity errIdentityMismatch false
      | some parsed =>
          if parsed.tenant ≠ env.tenantID ∨ parsed.device ≠ env.deviceID then
            .deadLettering .mqttIdentity errIdentityMismatch false
          else if cfg.inbox then .recording env (.ofEnvelope env receivedAt)
          else .publishing (.ofEnvelope env receivedAt) false 0

/-- A step of a handler with the outcome of the call it makes. -/
inductive HandlerMove where
  | enter
  | slot (acquired : Bool)
  | process (now receivedAt : Time)
  | record (now : Time) (call : Call)
  | acknowledge
  | publish (partition : Nat) (time : Time) (write : Write)
  | encode (now : Time)
  | bury (write : Write)
  | fail
  deriving DecidableEq, Repr

/-- A step in the handling of a delivery. A move that does not fit the handler changes nothing. -/
def Delivery.step (stopping : Bool) (world : World) (delivery : Delivery) (move : HandlerMove) :
    World × Delivery :=
  match delivery.handler, move with
  | .arrived, .enter => (world, delivery.goto (if stopping then .refused else .admitted))
  | .admitted, .slot acquired =>
      (world, delivery.goto
        (if acquired then .started else .deadLettering .mqttKafka errPublishBacklogFull false))
  | .started, .process now receivedAt =>
      (world, delivery.goto (processMessage go cfg delivery.topic delivery.payload now receivedAt))
  | .recording env rec, .record now call =>
      let result := recordTelemetry go pg env now world.db
      ({ world with db := call.after world.db result },
        match call.reported result with
        | .ok restored => delivery.sink (.recorded restored.record)
        | .error _ => delivery.goto (.publishing rec false 0))
  | .recorded rec, .acknowledge => (world, delivery.ack (.publishing rec true 0))
  | .publishing rec durable attempt, .publish partition time write =>
      match rec.marshal go with
      | .error err => (world, delivery.goto (.deadLettering .mqttKafka err durable))
      | .ok value =>
          (if write.applied then world.append cfg partition rec.deviceID value time else world,
            afterWrite attempt write (delivery.sink (.published durable))
              (fun err => delivery.goto (.deadLettering .mqttKafka err durable))
              (delivery.goto (.publishing rec durable (attempt + 1))))
  | .published durable, .acknowledge =>
      (world, if durable then delivery.goto .finished else delivery.ack .finished)
  | .deadLettering stage cause durable, .encode now =>
      (world, delivery.goto
        (if cfg.deadLetters then
          .burying (deadLetterOf (.ofMQTT delivery.topic delivery.payload) stage cause now).marshal
            durable 0
        else .unburied durable))
  | .burying value durable attempt, .bury write =>
      (if write.applied then world.bury value else world,
        afterWrite attempt write (delivery.sink (.buried durable))
          (fun _ => delivery.goto (.unburied durable))
          (delivery.goto (.burying value durable (attempt + 1))))
  | .buried durable, .acknowledge =>
      (world, if durable then delivery.goto .finished else delivery.ack .finished)
  | .unburied durable, .fail =>
      (world, { delivery with handler := .finished, failed := delivery.failed || !durable })
  | _, _ => (world, delivery)

/-- The handling of a delivery when the process ends. -/
def Delivery.crash (delivery : Delivery) : Delivery :=
  match delivery.handler with
  | .refused | .finished | .lost => delivery
  | _ => delivery.goto .lost

/-! ## The telemetry consumer -/

/-- Where `consumeTelemetry` stands. -/
inductive Consumer where
  /-- About to fetch. -/
  | idle
  /-- A message was fetched. -/
  | fetched (msg : Message)
  /-- The record is about to be stored. -/
  | restoring (msg : Message) (rec : TelemetryRecord)
  /-- The record is about to be written to TDengine. -/
  | sinking (msg : Message) (rec : TelemetryRecord)
  /-- The row is about to be marked as written to TDengine. -/
  | marking (msg : Message) (rec : TelemetryRecord)
  /-- `publishDeadLetter` is about to encode the message. -/
  | deadLettering (msg : Message) (stage : Stage) (cause : GoError)
  /-- `publishDeadLetter` is at an attempt. -/
  | burying (msg : Message) (value : Bytes) (attempt : Nat)
  /-- The offset is about to be committed. -/
  | committing (msg : Message)
  /-- The consumer returned an error, or the process ended. -/
  | stopped
  deriving DecidableEq, Repr

/-- The worker's consumer and the offset it fetches next in each partition. -/
structure Worker where
  consumer : Consumer
  position : Nat → Nat

/-- A step of the consumer with the outcome of the call it makes. -/
inductive ConsumerMove where
  | fetch (partition : Nat)
  | decode
  | restore (call : Call)
  | sink (error : Option GoError)
  | mark (applied : Bool)
  | encode (now : Time)
  | bury (write : Write)
  | commit (ok applied : Bool)
  | crash
  | restart
  deriving DecidableEq, Repr

/-- What follows once a record is stored: a row TDengine already has needs no write. -/
def afterRestore (msg : Message) (restored : Restored) : Consumer :=
  let write : Consumer :=
    if cfg.tdengine then .sinking msg restored.record else .committing msg
  match restored with
  | .inserted _ _ => write
  | .duplicate stored => if stored.tdengineWritten then .committing msg else write

/-- A record without a receive time gets the time of its message. -/
def receivedRecord (msg : Message) (rec : TelemetryRecord) : TelemetryRecord :=
  if rec.receivedAt = zeroTime then { rec with receivedAt := msg.time } else rec

/-- The offset `CommitMessages` commits in the partition of a message. -/
def World.commit (world : World) (msg : Message) : World :=
  { world with
    committed := Function.update world.committed msg.partition.toNat (msg.offset.toNat + 1) }

/-- A step of the consumer, which has no tenant allowlist. A process that starts again fetches from
the committed offsets on. -/
def Worker.step (world : World) (worker : Worker) (move : ConsumerMove) : World × Worker :=
  let goto (consumer : Consumer) : Worker := { worker with consumer := consumer }
  match worker.consumer, move with
  | .idle, .fetch partition =>
      match (world.topic partition)[worker.position partition]? with
      | none => (world, worker)
      | some msg =>
          (world, { consumer := .fetched msg
                    position := Function.update worker.position partition
                      (worker.position partition + 1) })
  | .fetched msg, .decode =>
      match TelemetryRecord.unmarshal go msg.value with
      | .error err => (world, goto (.deadLettering msg .telemetryDecode err))
      | .ok rec => (world, goto (.restoring msg (receivedRecord msg rec)))
  | .restoring msg rec, .restore call =>
      let result := restoreTelemetry go pg rec world.db
      ({ world with db := call.after world.db result },
        match call.reported result with
        | .ok restored => goto (afterRestore cfg msg restored)
        | .error err => goto (.deadLettering msg .telemetryPostgres err))
  | .sinking msg rec, .sink none => (world, goto (.marking msg rec))
  | .sinking msg _, .sink (some err) => (world, goto (.deadLettering msg .telemetryTDengine err))
  | .marking msg rec, .mark applied =>
      (if applied then
          { world with db := markTelemetryTDengineWritten (telemetryKey rec) world.db }
        else world,
        goto (.committing msg))
  | .deadLettering msg stage cause, .encode now =>
      (world, goto (.burying msg (deadLetterOf msg stage cause now).marshal 0))
  | .burying msg value attempt, .bury write =>
      (if write.applied then world.bury value else world,
        afterWrite attempt write (goto (.committing msg)) (fun _ => goto .stopped)
          (goto (.burying msg value (attempt + 1))))
  | .committing msg, .commit ok applied =>
      (if ok || applied then world.commit msg else world, goto (if ok then .idle else .stopped))
  | _, .crash => (world, goto .stopped)
  | .stopped, .restart => (world, ⟨.idle, world.committed⟩)
  | _, _ => (world, worker)

/-! ## The pipeline -/

/-- A publish of `IngestTelemetry`: the record and the attempt it is at, or none when it ended. -/
abbrev Request := Option (TelemetryRecord × Nat)

/-- The whole pipeline. -/
structure Pipeline where
  world : World
  stopping : Bool
  deliveries : List Delivery
  worker : Worker
  requests : List Request

/-- An empty database and empty topics. -/
def World.initial : World := ⟨.empty, fun _ => [], fun _ => 0, []⟩

/-- The pipeline before its first step. -/
def Pipeline.initial : Pipeline := ⟨.initial, false, [], ⟨.idle, fun _ => 0⟩, []⟩

/-- A step of the pipeline. -/
inductive Action where
  /-- The broker delivers a message to the bridge, for the first time or again. -/
  | deliver (topic payload : Bytes)
  | handle (index : Nat) (move : HandlerMove)
  | stopBridge
  /-- The bridge's process ends and starts again. -/
  | restartBridge
  | consume (move : ConsumerMove)
  /-- `IngestTelemetry` up to its publish. -/
  | ingestTelemetry (env : Envelope) (now receivedAt : Time) (call : Call)
  | publishRequest (index partition : Nat) (time : Time) (write : Write)
  | recordTelemetry (env : Envelope) (now receivedAt : Time) (call : Call)
  /-- The compensation scan of the worker marks a row. -/
  | compensate (key : TelemetryKey)
  /-- `dlq-replay` takes a record of the dead-letter topic. -/
  | replay (index partition : Nat) (time : Time) (appended : Bool)
  | registerDevice (tenantID deviceID : Bytes)

/-- `IngestTelemetry` up to its publish, and `RecordTelemetry`: validate, then record. -/
def recordRequest (world : World) (env : Envelope) (now receivedAt : Time) (call : Call) :
    World × Except GoError Restored :=
  match validateEnvelopeAt env now with
  | .error err => (world, .error err)
  | .ok () =>
      let result := Store.recordTelemetry go pg env receivedAt world.db
      ({ world with db := call.after world.db result }, call.reported result)

/-- A step of a publish of `IngestTelemetry`. -/
def publishRequest (world : World) (rec : TelemetryRecord) (attempt partition : Nat) (time : Time)
    (write : Write) : World × Request :=
  match rec.marshal go with
  | .error _ => (world, none)
  | .ok value =>
      (if write.applied then world.append cfg partition rec.deviceID value time else world,
        afterWrite attempt write none (fun _ => none) (some (rec, attempt + 1)))

/-- `dlq-replay` with one record of the dead-letter topic: what it writes to another topic than
the telemetry topic does not matter here. -/
def replayOne (world : World) (raw : Bytes) (partition : Nat) (time : Time) (appended : Bool) :
    World :=
  match replayWrite go cfg.telemetryTopic raw with
  | none => world
  | some (topic, key, value) =>
      if topic = cfg.telemetryTopic ∧ appended then world.append cfg partition key value time
      else world

/-- The pipeline after a step. -/
def Pipeline.step (sys : Pipeline) (action : Action) : Pipeline :=
  match action with
  | .deliver topic payload =>
      { sys with deliveries := sys.deliveries ++ [.new topic payload] }
  | .handle index move =>
      match sys.deliveries[index]? with
      | none => sys
      | some delivery =>
          let (world, after) := delivery.step go pg cfg sys.stopping sys.world move
          { sys with world := world, deliveries := sys.deliveries.set index after }
  | .stopBridge => { sys with stopping := true }
  | .restartBridge => { sys with stopping := false, deliveries := sys.deliveries.map .crash }
  | .consume move =>
      let (world, worker) := sys.worker.step go pg cfg sys.world move
      { sys with world := world, worker := worker }
  | .ingestTelemetry env now receivedAt call =>
      match recordRequest go pg sys.world env now receivedAt call with
      | (world, .error _) => { sys with world := world }
      | (world, .ok restored) =>
          { sys with world := world, requests := sys.requests ++ [some (restored.record, 0)] }
  | .publishRequest index partition time write =>
      match sys.requests[index]? with
      | some (some (rec, attempt)) =>
          let (world, after) := publishRequest go cfg sys.world rec attempt partition time write
          { sys with world := world, requests := sys.requests.set index after }
      | _ => sys
  | .recordTelemetry env now receivedAt call =>
      { sys with world := (recordRequest go pg sys.world env now receivedAt call).1 }
  | .compensate key =>
      { sys with
        world := { sys.world with db := markTelemetryTDengineWritten key sys.world.db } }
  | .replay index partition time appended =>
      match sys.world.dlq[index]? with
      | none => sys
      | some raw => { sys with world := replayOne go cfg sys.world raw partition time appended }
  | .registerDevice tenantID deviceID =>
      { sys with
        world := { sys.world with
          db := { sys.world.db with devices := (tenantID, deviceID) :: sys.world.db.devices } } }

end Iot.Telemetry
