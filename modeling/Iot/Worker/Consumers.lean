import Iot.Dispatch.Downlink
import Iot.Execution.Offsets
import Iot.Telemetry.Steps

/-!
# The two consumers of the worker

`consumeTelemetry` and `consumeCommands` (`internal/platform/worker.go`) read a topic each, in a
consumer group of their own. A worker with a tenant allowlist skips the messages of other tenants.

The telemetry consumer is the one of the telemetry pipeline with the allowlist added
(`consumeTelemetry`). The command consumer is modelled here with every exit of its loop. A step is
one call to the outside with its outcome as an argument: a call that reports an error may have
been applied all the same. A fetch that fails with a retriable error changes nothing, and one that
fails otherwise ends the consumer (`crash`).

Besides what the programs see, the states record which messages were written to TDengine
(`Intake.written`) and what happened to each command message (`CommandWorker.history`).
-/

namespace Iot.Worker

open Text Json Contracts Platform Store Data Execution Telemetry
open Dispatch (commandForDelivery commandRetryBackoff)

/-- How a worker is set up: the pipeline's settings, the tenants it is for, the command topic,
whether it has an MQTT client and how long a device may take to acknowledge. -/
structure WorkerConfig extends Telemetry.Config where
  tenantIDs : List Bytes
  commandTopic : Bytes
  mqtt : Bool
  ackTimeout : Time
  deriving DecidableEq, Repr

/-- `tenantAllowlist`. -/
def tenantAllowlist (tenantIDs : List Bytes) : List Bytes := tenantIDs.filter (· ≠ [])

/-- `tenantAllowed`. -/
def tenantAllowed (cfg : WorkerConfig) (tenantID : Bytes) : Bool :=
  (tenantAllowlist cfg.tenantIDs).isEmpty || (tenantAllowlist cfg.tenantIDs).contains tenantID

variable (go : GoRuntime) (pg : Postgres) (cfg : WorkerConfig)

/-! ## Telemetry -/

/-- A step of `consumeTelemetry`. A record of a tenant the worker is not for is committed without
being stored. -/
def consumeTelemetry (world : World) (worker : Telemetry.Worker) (move : ConsumerMove) :
    World × Telemetry.Worker :=
  match worker.consumer, move with
  | .fetched msg, .decode =>
      match TelemetryRecord.unmarshal go msg.value with
      | .error _ => worker.step go pg cfg.toConfig world move
      | .ok rec =>
          if tenantAllowed cfg rec.tenantID then worker.step go pg cfg.toConfig world move
          else (world, { worker with consumer := .committing msg })
  | _, _ => worker.step go pg cfg.toConfig world move

/-- The telemetry consumer and what it works on, with the messages it has written to TDengine. -/
structure Intake where
  world : World
  worker : Telemetry.Worker
  written : List Message

/-- Empty tables and topics. -/
def Intake.initial : Intake := ⟨.initial, ⟨.idle, fun _ => 0⟩, []⟩

/-- A step of the consumer or of others: a producer, another writer of the telemetry table, the
compensation scan, a dead letter of another stage, the registration of a device. -/
inductive IntakeAction where
  | consume (move : ConsumerMove)
  | produce (partition : Nat) (key value : Bytes) (time : Time)
  | store (rec : TelemetryRecord) (call : Call)
  | mark (key : TelemetryKey)
  | bury (value : Bytes)
  | registerDevice (tenantID deviceID : Bytes)

/-- The messages written to TDengine after a step of the consumer. -/
def writtenAfter (written : List Message) (consumer : Consumer) (move : ConsumerMove) :
    List Message :=
  match consumer, move with
  | .sinking msg _, .sink none => written ++ [msg]
  | _, _ => written

/-- The state after a step. -/
def Intake.step (s : Intake) (action : IntakeAction) : Intake :=
  match action with
  | .consume move =>
      let (world, worker) := consumeTelemetry go pg cfg s.world s.worker move
      ⟨world, worker, writtenAfter s.written s.worker.consumer move⟩
  | .produce partition key value time =>
      { s with world := s.world.append cfg.toConfig partition key value time }
  | .store rec call =>
      let db := call.after s.world.db (restoreTelemetry go pg rec s.world.db)
      { s with world := { s.world with db := db } }
  | .mark key =>
      { s with world := { s.world with db := markTelemetryTDengineWritten key s.world.db } }
  | .bury value => { s with world := s.world.bury value }
  | .registerDevice tenantID deviceID =>
      let db := { s.world.db with devices := (tenantID, deviceID) :: s.world.db.devices }
      { s with world := { s.world with db := db } }

/-! ## Commands -/

/-- The members of a `CommandDownlink` in JSON. -/
def downlinkToks (cmd : Command) : Except GoError (List Tok) := do
  let payload ← rawValue go 1 cmd.payload
  let createdAt ← timeValue cmd.createdAt
  let updatedAt ← timeValue cmd.updatedAt
  pure (object
    [("id", strTok cmd.id), ("tenantId", strTok cmd.tenantID), ("deviceId", strTok cmd.deviceID),
      ("status", strTok cmd.status.text), ("payload", payload), ("createdAt", createdAt),
      ("updatedAt", updatedAt)])

/-- `json.Marshal` of the `CommandDownlink` of a command. -/
def downlinkPayload (cmd : Command) : Except GoError Bytes := (downlinkToks go cmd).map text

/-- `BuildCommandTopic`. -/
def buildCommandTopic (tenantID deviceID : Bytes) : Except GoError Bytes :=
  buildDeviceTopic tenantID deviceID topicSuffixCommand

/-- Where `consumeCommands` stands. -/
inductive CommandStage where
  /-- About to fetch. -/
  | idle
  /-- A message was fetched. -/
  | fetched (msg : Message)
  /-- The stored command is about to be looked up. -/
  | lookingUp (msg : Message) (event : Command)
  /-- The command is about to be published to MQTT. -/
  | publishing (msg : Message) (cmd : Command) (topic payload : Bytes)
  /-- The publish failed, and the command is about to be requeued. -/
  | requeueing (msg : Message) (cmd : Command) (cause : GoError)
  /-- The publish succeeded, and the command is about to be marked as sent. -/
  | marking (msg : Message) (cmd : Command)
  /-- `publishDeadLetter` is about to encode the message. -/
  | deadLettering (msg : Message) (stage : Stage) (cause : GoError)
  /-- `publishDeadLetter` is at an attempt. -/
  | burying (msg : Message) (value : Bytes) (attempt : Nat)
  /-- The offset is about to be committed. -/
  | committing (msg : Message)
  /-- The consumer returned an error, or the process ended. -/
  | stopped
  deriving DecidableEq, Repr

/-- A step of the consumer with the outcome of the call it makes. `clock` is the time the worker
reads, `now` the time of the database. -/
inductive CommandMove where
  | fetch (partition : Nat)
  | decode
  | lookUp (error : Option GoError)
  | publish (error : Option GoError)
  | requeue (now : Time) (applied : Bool)
  | mark (now clock : Time) (ok applied : Bool)
  | encode (now : Time)
  | bury (write : Write)
  | commit (ok applied : Bool)
  | crash
  | restart

/-- What happened to a command message: the row the lookup found, a publish that MQTT confirmed,
a mark that PostgreSQL confirmed. -/
inductive Incident where
  | lookedUp (msg : Message) (row : Option CommandRow)
  | published (msg : Message) (topic payload : Bytes)
  | markedSent (msg : Message)

/-- The command consumer and what it works on. -/
structure CommandWorker where
  db : Db
  reader : Reader Message
  stage : CommandStage
  dlq : List Bytes
  history : List Incident

/-- Empty tables and topics. -/
def CommandWorker.initial : CommandWorker := ⟨.empty, .initial, .idle, [], []⟩

/-- The checks of a message before the lookup. -/
def checkCommandMessage (msg : Message) : CommandStage :=
  match Command.unmarshal go msg.value with
  | .error err => .deadLettering msg .commandDecode err
  | .ok event =>
      if event.dispatchAttempts < 0 then
        .deadLettering msg .commandDecode (.new "negative command dispatchAttempts")
      else if tenantAllowed cfg event.tenantID then .lookingUp msg event
      else .committing msg

/-- What follows the lookup. Without an MQTT client the message is committed. -/
def afterLookUp (msg : Message) (found : Except GoError (Option Command)) : CommandStage :=
  match found with
  | .error _ => .stopped
  | .ok none => .committing msg
  | .ok (some cmd) =>
      if cfg.mqtt then
        match buildCommandTopic cmd.tenantID cmd.deviceID with
        | .error err => .deadLettering msg .commandTopic err
        | .ok topic =>
            match downlinkPayload go cmd with
            | .error err => .deadLettering msg .commandEncode err
            | .ok payload => .publishing msg cmd topic payload
      else .committing msg

/-- A step of `consumeCommands`. A move that does not fit the stage changes nothing. -/
def CommandWorker.consume (s : CommandWorker) (move : CommandMove) : CommandWorker :=
  match s.stage, move with
  | .idle, .fetch partition =>
      match (s.reader.log partition)[s.reader.position partition]? with
      | none => s
      | some msg => { s with reader := s.reader.fetch partition, stage := .fetched msg }
  | .fetched msg, .decode => { s with stage := checkCommandMessage go cfg msg }
  | .lookingUp msg event, .lookUp none =>
      { s with
        stage := afterLookUp go cfg msg (commandForDelivery s.db event)
        history := s.history ++ [.lookedUp msg (s.db.commands.find? event.id)] }
  | .lookingUp _ _, .lookUp (some _) => { s with stage := .stopped }
  | .publishing msg cmd topic payload, .publish none =>
      { s with
        stage := .marking msg cmd
        history := s.history ++ [.published msg topic payload] }
  | .publishing msg cmd _ _, .publish (some err) => { s with stage := .requeueing msg cmd err }
  | .requeueing msg cmd cause, .requeue now applied =>
      { s with
        db := if applied then
            requeueCommand now cmd.id (commandRetryBackoff cmd.dispatchAttempts) s.db
          else s.db
        stage := .deadLettering msg .commandMQTT cause }
  | .marking msg cmd, .mark now clock ok applied =>
      { s with
        db := if ok || applied then markCommandSent now cmd.id (clock + cfg.ackTimeout) s.db
          else s.db
        stage := if ok then .committing msg else .stopped
        history := if ok then s.history ++ [.markedSent msg] else s.history }
  | .deadLettering msg stage cause, .encode now =>
      { s with stage := .burying msg (deadLetterOf msg stage cause now).marshal 0 }
  | .burying msg value attempt, .bury write =>
      { s with
        dlq := if write.applied then s.dlq ++ [value] else s.dlq
        stage := afterWrite attempt write (.committing msg) (fun _ => .stopped)
          (.burying msg value (attempt + 1)) }
  | .committing msg, .commit ok applied =>
      { s with
        reader := if ok || applied then s.reader.commit msg.address else s.reader
        stage := if ok then .idle else .stopped }
  | _, .crash => { s with stage := .stopped }
  | .stopped, .restart => { s with reader := s.reader.restart, stage := .idle }
  | _, _ => s

/-- A step of the consumer or of others: a producer, an operation of the command store, a dead
letter of another stage. -/
inductive CommandAction where
  | consume (move : CommandMove)
  | produce (partition : Nat) (key value : Bytes) (time : Time)
  | store (op : Op)
  | bury (value : Bytes)

/-- The state after a step. -/
def CommandWorker.step (s : CommandWorker) (action : CommandAction) : CommandWorker :=
  match action with
  | .consume move => s.consume go cfg move
  | .produce partition key value time =>
      let offset := (s.reader.log partition).length
      { s with
        reader := s.reader.append partition
          ⟨cfg.commandTopic, partition, offset, key, value, time⟩ }
  | .store op => { s with db := Store.step go pg s.db op }
  | .bury value => { s with dlq := s.dlq ++ [value] }

end Iot.Worker
