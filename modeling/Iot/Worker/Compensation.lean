import Iot.Platform.TDengine
import Iot.Worker.Offsets

/-!
# Workers with their compensation loops

Any number of workers share the database, the telemetry topic and the dead-letter topic. Each runs
the telemetry consumer and, if it has a TDengine writer, `compensateUnwrittenTelemetry`
(`internal/platform/worker.go`): at every tick it lists the rows TDengine does not have after the
last id of the batch before, writes them and marks them. A permanent failure of a row is skipped; a
transient one keeps the cursor, so that the next tick lists the rows again.

A row keeps its id, and there is one row for a key, so the ids are a function of the key that a
`Deployment` fixes. The rows of a batch are written one after another, a step each.

Besides what the programs see, the state records the keys TDengine has confirmed (`stored`), the
statements executed for each key (`statements`) and, for the sweep that is going on, the keys that
were pending at each of its scans (`seen`) and those passed to the writer (`passed`).
-/

namespace Iot.Worker

open Text Json Contracts Platform Store Data Execution Telemetry

/-- `tdengineCompensateMinAge`. -/
def tdengineCompensateMinAge : Time := 120 * second

/-- `tdengineCompensateBatch`. -/
def tdengineCompensateBatch : Nat := 500

/-- How the workers are set up: the configuration and the consumer group of each, their TDengine
writer, and the ids the database gives to the rows. -/
structure Deployment where
  cfg : Nat → WorkerConfig
  group : Nat → Bytes
  writer : TDengineWriter
  rowID : TelemetryKey → Nat
  rowID_pos : ∀ key, 0 < rowID key
  rowID_inj : ∀ key other, rowID key = rowID other → key = other

/-- Where a compensation loop stands. -/
inductive SweepPoint where
  /-- About to wait for the next tick. -/
  | waiting
  /-- A row of the batch is about to be written, with the rows after it. -/
  | writing (rec : TelemetryRecord) (rows : List TelemetryRecord) (nextID : Nat)
  /-- A row was written and is about to be marked. -/
  | marking (rec : TelemetryRecord) (rows : List TelemetryRecord) (nextID : Nat)
  /-- The context was cancelled, or the process ended. -/
  | stopped
  deriving DecidableEq, Repr

/-- A compensation loop: its cursor and where it stands. -/
structure Sweep where
  afterID : Nat
  point : SweepPoint
  seen : List (List TelemetryKey)
  passed : List TelemetryKey
  deriving DecidableEq, Repr

/-- A loop at the start of a sweep. -/
def Sweep.initial : Sweep := ⟨0, .waiting, [], []⟩

/-- A step of a compensation loop with the outcome of the call it makes. -/
inductive SweepMove where
  | scan (now : Time) (error : Option GoError)
  | write (exec : Option ExecError)
  | mark (applied : Bool)
  | cancel
  | restart
  deriving DecidableEq, Repr

/-- A worker. -/
structure Member where
  consumer : Telemetry.Worker
  sweep : Sweep

/-- The workers and what they share. -/
structure Fleet where
  db : TelemetryDb
  topic : Nat → List Message
  committed : Bytes → Nat → Nat
  dlq : List Bytes
  members : Nat → Member
  stored : List TelemetryKey
  statements : List (TelemetryKey × Bytes)

/-- Empty tables and topics. -/
def Fleet.initial : Fleet :=
  ⟨.empty, fun _ => [], fun _ _ => 0, [], fun _ => ⟨⟨.idle, fun _ => 0⟩, .initial⟩, [], []⟩

variable (go : GoRuntime) (pg : Postgres) (d : Deployment)

/-- The `WHERE` of `ListUnwrittenTelemetry` without the cursor: TDengine does not have the row, it
is old enough and the worker is for its tenant. -/
def pending (cfg : WorkerConfig) (olderThan : Time) (row : TelemetryRecord) : Bool :=
  !row.tdengineWritten && decide (row.receivedAt ≤ olderThan) && tenantAllowed cfg row.tenantID

/-- `ListUnwrittenTelemetry`: the rows and the id of the last. -/
def listUnwrittenTelemetry (cfg : WorkerConfig) (olderThan : Time) (afterID limit : Nat)
    (db : TelemetryDb) : List TelemetryRecord × Nat :=
  let rows := db.records.select
    (fun row => pending cfg olderThan row && decide (afterID < d.rowID (telemetryKey row)))
    (fun row other => d.rowID (telemetryKey row) ≤ d.rowID (telemetryKey other)) limit
  (rows, rows.getLast?.elim afterID fun row => d.rowID (telemetryKey row))

/-- The keys of the rows that are pending. -/
def pendingKeys (cfg : WorkerConfig) (olderThan : Time) (db : TelemetryDb) : List TelemetryKey :=
  (db.records.rows.filter (pending cfg olderThan)).map telemetryKey

/-- The loop of `compensateTelemetryRows` goes on with the rows that are left: rows of other
tenants are passed over, and after the last row the cursor moves. -/
def Sweep.next (cfg : WorkerConfig) (sweep : Sweep) (rows : List TelemetryRecord) (nextID : Nat) :
    Sweep :=
  match rows.dropWhile fun rec => !tenantAllowed cfg rec.tenantID with
  | [] => { sweep with afterID := nextID, point := .waiting }
  | rec :: rest => { sweep with point := .writing rec rest nextID }

/-- The state with the loop of a worker changed. -/
def Fleet.setSweep (s : Fleet) (i : Nat) (sweep : Sweep) : Fleet :=
  { s with members := Function.update s.members i { s.members i with sweep := sweep } }

/-- The consumers stay where they are. -/
@[simp] theorem setSweep_consumer (s : Fleet) (i : Nat) (sweep : Sweep) (j : Nat) :
    ((s.setSweep i sweep).members j).consumer = (s.members j).consumer := by
  by_cases hj : j = i
  · subst hj
    simp [Fleet.setSweep]
  · simp [Fleet.setSweep, Function.update_of_ne hj]

/-- The loop of the worker is changed and no other. -/
@[simp] theorem setSweep_sweep (s : Fleet) (i : Nat) (sweep : Sweep) (j : Nat) :
    ((s.setSweep i sweep).members j).sweep = if j = i then sweep else (s.members j).sweep := by
  by_cases hj : j = i
  · subst hj
    simp [Fleet.setSweep]
  · simp [Fleet.setSweep, hj]

/-- A record is passed to the writer: the statement is executed unless the fields are rejected. -/
def Fleet.execute (s : Fleet) (rec : TelemetryRecord) (error : Option WriteError) : Fleet :=
  { s with
    stored := if error.isNone then s.stored ++ [telemetryKey rec] else s.stored
    statements := match d.writer.prepare rec with
      | .error _ => s.statements
      | .ok statement => s.statements ++ [(telemetryKey rec, statement)] }

/-- A step of a compensation loop. A move that does not fit where it stands changes nothing. -/
def Fleet.compensate (s : Fleet) (i : Nat) (move : SweepMove) : Fleet :=
  let sweep := (s.members i).sweep
  match sweep.point, move with
  | .waiting, .scan now none =>
      if (d.cfg i).tdengine then
        let olderThan := now - tdengineCompensateMinAge
        let batch := listUnwrittenTelemetry d (d.cfg i) olderThan sweep.afterID
          tdengineCompensateBatch s.db
        if batch.1 = [] then s.setSweep i .initial
        else
          s.setSweep i (({ sweep with
            seen := sweep.seen ++ [pendingKeys (d.cfg i) olderThan s.db] } : Sweep).next
              (d.cfg i) batch.1 batch.2)
      else s
  | .writing rec rows nextID, .write exec =>
      let error := d.writer.writeRecord rec exec
      let passing : Sweep := { sweep with passed := sweep.passed ++ [telemetryKey rec] }
      (s.execute d rec error).setSweep i
        (match error with
        | none => { passing with point := .marking rec rows nextID }
        | some err =>
            if isPermanentTDengineWriteError err then passing.next (d.cfg i) rows nextID
            else { passing with point := .waiting })
  | .marking rec rows nextID, .mark applied =>
      { s with
        db := if applied then markTelemetryTDengineWritten (telemetryKey rec) s.db else s.db
      }.setSweep i (sweep.next (d.cfg i) rows nextID)
  | _, .cancel => s.setSweep i { sweep with point := .stopped }
  | .stopped, .restart => s.setSweep i .initial
  | _, _ => s

/-- What a worker sees of the state. -/
def Fleet.world (s : Fleet) (i : Nat) : World :=
  ⟨s.db, s.topic, s.committed (d.group i), s.dlq⟩

/-- The record the consumer passes to the writer in a step, with the error it gets: rejected
fields fail before the call of the driver. -/
def sinkCall (consumer : Consumer) (move : ConsumerMove) :
    Option (TelemetryRecord × Option WriteError) :=
  match consumer, move with
  | .sinking _ rec, .sink error =>
      some (rec, d.writer.writeRecord rec (error.map fun err => ⟨err, none⟩))
  | _, _ => none

/-- The state after a step of the telemetry consumer of a worker. -/
def Fleet.advance (s : Fleet) (i : Nat) (move : ConsumerMove) : Fleet :=
  let result := consumeTelemetry go pg (d.cfg i) (s.world d i) (s.members i).consumer move
  { s with
    db := result.1.db
    topic := result.1.topic
    committed := Function.update s.committed (d.group i) result.1.committed
    dlq := result.1.dlq
    members := Function.update s.members i { s.members i with consumer := result.2 } }

/-- A step of the telemetry consumer of a worker, with what it passes to the writer. -/
def Fleet.consume (s : Fleet) (i : Nat) (move : ConsumerMove) : Fleet :=
  match sinkCall d (s.members i).consumer.consumer move with
  | none => s.advance go pg d i move
  | some (rec, error) =>
      (s.advance go pg d i (.sink (error.map WriteError.error))).execute d rec error

/-- A step of a worker or of others. -/
inductive FleetAction where
  | consume (i : Nat) (move : ConsumerMove)
  | sweep (i : Nat) (move : SweepMove)
  /-- A partition is assigned to a worker, which reads on from the committed offset. -/
  | assign (i partition : Nat)
  /-- A record is written to the telemetry topic. -/
  | produce (topic : Bytes) (partition : Nat) (key value : Bytes) (time : Time)
  /-- The API or the MQTT bridge stores a record. -/
  | store (rec : TelemetryRecord) (call : Call)
  | registerDevice (tenantID deviceID : Bytes)

/-- The state after a step. -/
def Fleet.step (s : Fleet) (action : FleetAction) : Fleet :=
  match action with
  | .consume i move => s.consume go pg d i move
  | .sweep i move => s.compensate d i move
  | .assign i partition =>
      let worker := (s.members i).consumer
      { s with
        members := Function.update s.members i { s.members i with
          consumer := { worker with
            position := Function.update worker.position partition
              (s.committed (d.group i) partition) } } }
  | .produce topic partition key value time =>
      { s with
        topic := Function.update s.topic partition
          (s.topic partition ++
            [⟨topic, partition, (s.topic partition).length, key, value, time⟩]) }
  | .store rec call => { s with db := call.after s.db (restoreTelemetry go pg rec s.db) }
  | .registerDevice tenantID deviceID =>
      { s with db := { s.db with devices := (tenantID, deviceID) :: s.db.devices } }

end Iot.Worker
