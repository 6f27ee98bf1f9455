import Iot.Data.Table
import Iot.Platform.Domain

/-!
# The command tables of PostgreSQL

The operations of `PostgresStore` on commands (`internal/platform/postgres_store.go`), each as one
atomic change of the tables. What the program does not decide is an argument: the clocks, the id
drawn for a new command, and the rows other transactions have locked, which `SKIP LOCKED` passes
over. An operation that returns an error has been rolled back.

The foreign keys of `command_ack` and `command_events` are fields of `Db`.
-/

namespace Iot.Store

open Text Contracts Platform Data

/-- What the model takes from PostgreSQL: the text of a value cast to `jsonb`, or why the cast
fails, equality of two such values, and the order of texts under the database's collation. -/
structure Postgres where
  jsonb : Bytes → Except GoError Bytes
  jsonbEq : Bytes → Bytes → Bool
  textLe : Bytes → Bytes → Bool

/-- A database to evaluate the model with: every value is stored as it is written. -/
def Postgres.plain : Postgres := ⟨.ok, fun value other => value == other, fun _ _ => true⟩

/-- A row of `commands`. -/
structure CommandRow where
  id : Bytes
  tenantID : Bytes
  deviceID : Bytes
  status : CommandStatus
  payload : Bytes
  nextDispatchAt : Time
  dispatchAttempts : Nat
  deadlineAt : Option Time
  createdAt : Time
  updatedAt : Time
  idempotencyKey : Option Bytes
  result : Option CommandResult
  deriving DecidableEq, Repr

/-- A row of `command_ack`. -/
structure AckRow where
  commandID : Bytes
  tenantID : Bytes
  deviceID : Bytes
  ackStatus : Bytes
  ackPayload : CommandResult
  createdAt : Time
  deriving DecidableEq, Repr

/-- A row of `command_events`. -/
structure EventRow where
  commandID : Bytes
  eventType : CommandEvent
  deriving DecidableEq, Repr

/-- The tables the command operations use. `devices` holds the keys of the device table. -/
structure Db where
  devices : List (Bytes × Bytes)
  commands : Table CommandRow.id
  acks : List AckRow
  events : List EventRow
  acksReference : ∀ ack ∈ acks, (commands.find? ack.commandID).isSome
  eventsReference : ∀ event ∈ events, (commands.find? event.commandID).isSome

/-- The empty schema. -/
def Db.empty : Db := ⟨[], .empty, [], [], by simp, by simp⟩

/-- Insert a command with its first event. -/
def Db.insertCommand (db : Db) (row : CommandRow) (h : db.commands.find? row.id = none) : Db where
  devices := db.devices
  commands := db.commands.insert row h
  acks := db.acks
  events := db.events ++ [⟨row.id, .created⟩]
  acksReference ack hack := Table.isSome_find?_insert (db.acksReference ack hack)
  eventsReference event hevent := by
    rw [List.mem_append, List.mem_singleton] at hevent
    rcases hevent with hevent | rfl
    · exact Table.isSome_find?_insert (db.eventsReference event hevent)
    · simp [Table.find?_insert]

/-- `updateCommandsWithEvent`: change the commands that satisfy a predicate and write an event for
each of them, in one statement. Statements without an event pass `none`. -/
def Db.updateCommands (db : Db) (where? : CommandRow → Bool) (set : CommandRow → CommandRow)
    (hset : ∀ row, (set row).id = row.id) (event : Option CommandEvent) : Db where
  devices := db.devices
  commands := db.commands.update where? set hset
  acks := db.acks
  events := db.events ++
    (db.commands.rows.filter where?).flatMap fun row => event.toList.map fun e => ⟨row.id, e⟩
  acksReference ack hack := by
    rw [Table.isSome_find?_update]
    exact db.acksReference ack hack
  eventsReference e he := by
    rw [Table.isSome_find?_update]
    rw [List.mem_append] at he
    rcases he with he | he
    · exact db.eventsReference e he
    · simp only [List.mem_flatMap, List.mem_filter, List.mem_map] at he
      obtain ⟨row, ⟨hrow, _⟩, _, _, rfl⟩ := he
      rw [(db.commands.find?_eq_some_iff row.id row).mpr ⟨hrow, rfl⟩]
      rfl

/-- Insert an acknowledgement of a command that exists. -/
def Db.insertAck (db : Db) (ack : AckRow) (h : (db.commands.find? ack.commandID).isSome) : Db where
  devices := db.devices
  commands := db.commands
  acks := db.acks ++ [ack]
  events := db.events
  acksReference other hother := by
    rw [List.mem_append, List.mem_singleton] at hother
    rcases hother with hother | rfl
    · exact db.acksReference other hother
    · exact h
  eventsReference := db.eventsReference

/-- A row as the store returns it. -/
def CommandRow.command (row : CommandRow) : Command where
  id := row.id
  tenantID := row.tenantID
  deviceID := row.deviceID
  status := row.status
  payload := row.payload
  createdAt := row.createdAt
  updatedAt := row.updatedAt
  dispatchAttempts := row.dispatchAttempts
  deadlineAt := row.deadlineAt.getD zeroTime
  result := row.result

variable (go : GoRuntime) (pg : Postgres)

/-- `requireDevice`, over the keys of the device table. -/
def requireDevice (devices : List (Bytes × Bytes)) (tenantID deviceID : Bytes) :
    Except GoError Unit :=
  if devices.contains (tenantID, deviceID) then .ok ()
  else .error (.label "device" errNotFound)

/-- The violation of the primary key of `commands`. -/
def errDuplicateID : GoError :=
  .new "duplicate key value violates unique constraint \"commands_pkey\""

/-- The command that already uses a request key. `NULLIF` makes the empty key no key. -/
def keyOwner (db : Db) (tenantID key : Bytes) : Option CommandRow :=
  if key = [] then none
  else db.commands.rows.find? fun row => row.tenantID = tenantID ∧ row.idempotencyKey = some key

/-- The row `CreateCommandWithKey` inserts. -/
def newCommandRow (tenantID deviceID key payload id : Bytes) (now : Time) : CommandRow where
  id := id
  tenantID := tenantID
  deviceID := deviceID
  status := .created
  payload := payload
  nextDispatchAt := now
  dispatchAttempts := 0
  deadlineAt := none
  createdAt := now
  updatedAt := now
  idempotencyKey := if key = [] then none else some key
  result := none

/-- `CreateCommandWithKey`, with the id `uuid.NewV7` drew. -/
def createCommandWithKey (tenantID deviceID key payload : Bytes) (newID : Except GoError Bytes)
    (now : Time) (db : Db) : Except GoError (Command × Db) := do
  validateCommandInput go tenantID deviceID payload
  validateIdempotencyKey key
  requireDevice db.devices tenantID deviceID
  let normalized ← pg.jsonb (orEmptyObject payload)
  validateCommandInput go tenantID deviceID normalized
  let id ← newID
  match keyOwner db tenantID key with
  | some owner =>
      if owner.deviceID = deviceID ∧ pg.jsonbEq owner.payload normalized then
        pure (owner.command, db)
      else throw errIdempotencyConflict
  | none =>
      let row := newCommandRow tenantID deviceID key normalized id now
      if h : db.commands.find? row.id = none then pure (row.command, db.insertCommand row h)
      else throw errDuplicateID

/-- `maxDispatchAttempts`. -/
def maxDispatchAttempts : Nat := 10

/-- `ORDER BY created_at, id`. -/
def createdBefore (row other : CommandRow) : Bool :=
  row.createdAt < other.createdAt ||
    (row.createdAt == other.createdAt && pg.textLe row.id other.id)

/-- The ids of the first rows that satisfy a predicate and are not locked. -/
def selectForUpdate (db : Db) (where? : CommandRow → Bool) (limit : Nat) (locked : List Bytes) :
    List Bytes :=
  (db.commands.select (fun row => where? row && !locked.contains row.id) (createdBefore pg)
    limit).map CommandRow.id

/-- The rows `ClaimCommandsForDispatch` looks for. -/
def claimable (now : Time) (row : CommandRow) : Bool :=
  row.status == .created && row.nextDispatchAt ≤ now && row.dispatchAttempts < maxDispatchAttempts

/-- A row after a claim. -/
def claimedRow (now lease : Time) (row : CommandRow) : CommandRow :=
  { row with
    dispatchAttempts := row.dispatchAttempts + 1
    nextDispatchAt := now + lease
    updatedAt := now }

@[simp] theorem claimedRow_id (now lease : Time) (row : CommandRow) :
    (claimedRow now lease row).id = row.id := rfl

/-- `ClaimCommandsForDispatch`. The rows returned are those changed. -/
def claimCommandsForDispatch (now lease : Time) (limit : Int) (locked : List Bytes) (db : Db) :
    List Command × Db :=
  if limit < 1 then ([], db)
  else
    let ids := selectForUpdate pg db (claimable now) limit.toNat locked
    let claimed : CommandRow → Bool := fun row => ids.contains row.id
    ((db.commands.rows.filter claimed).map fun row => (claimedRow now lease row).command,
      db.updateCommands claimed (claimedRow now lease) (claimedRow_id now lease) none)

/-- The fence of a completed claim: the claimed attempt is the last one and its lease runs. -/
def fenced (now : Time) (id : Bytes) (attempt : Int) (row : CommandRow) : Bool :=
  row.id == id && row.status == .created && (row.dispatchAttempts : Int) == attempt &&
    row.nextDispatchAt > now

/-- `MarkCommandPublished`. -/
def markCommandPublished (now : Time) (id : Bytes) (attempt : Int) (db : Db) : Db :=
  db.updateCommands (fenced now id attempt)
    (fun row => { row with status := .published, updatedAt := now }) (fun _ => rfl)
    (some .published)

/-- `RescheduleCommand`. -/
def rescheduleCommand (now : Time) (id : Bytes) (attempt : Int) (retryAfter : Time) (db : Db) :
    Db :=
  db.updateCommands (fenced now id attempt)
    (fun row => { row with nextDispatchAt := now + retryAfter, updatedAt := now }) (fun _ => rfl)
    none

/-- `MarkCommandSent`. -/
def markCommandSent (now : Time) (id : Bytes) (deadline : Time) (db : Db) : Db :=
  db.updateCommands
    (fun row => row.id == id && (row.status == .created || row.status == .published))
    (fun row => { row with status := .sent, deadlineAt := some deadline, updatedAt := now })
    (fun _ => rfl) (some .delivered)

/-- A row put back in the queue. -/
def requeuedRow (now next : Time) (row : CommandRow) : CommandRow :=
  { row with status := .created, nextDispatchAt := next, updatedAt := now }

@[simp] theorem requeuedRow_id (now next : Time) (row : CommandRow) :
    (requeuedRow now next row).id = row.id := rfl

/-- `RequeueCommand`. -/
def requeueCommand (now : Time) (id : Bytes) (retryAfter : Time) (db : Db) : Db :=
  db.updateCommands (fun row => row.id == id && row.status == .published)
    (requeuedRow now (now + retryAfter)) (requeuedRow_id now _) (some .requeued)

/-- The most rows one sweep changes. -/
def sweepLimit : Nat := 500

/-- `updateCommandBatchWithEvent`. -/
def updateCommandBatch (where? : CommandRow → Bool) (set : CommandRow → CommandRow)
    (hset : ∀ row, (set row).id = row.id) (event : CommandEvent) (locked : List Bytes) (db : Db) :
    Db :=
  let ids := selectForUpdate pg db where? sweepLimit locked
  db.updateCommands (fun row => ids.contains row.id) set hset (some event)

/-- The rows `ExpireCommands` looks for. A comparison with a missing deadline is not true. -/
def expirable (now grace : Time) (row : CommandRow) : Bool :=
  row.status == .sent &&
    match row.deadlineAt with
    | some deadline => deadline ≤ now
    | none => grace > 0 && row.updatedAt + grace ≤ now

/-- A row in a final status that carries no result. -/
def endedRow (status : CommandStatus) (now : Time) (row : CommandRow) : CommandRow :=
  { row with status := status, updatedAt := now }

@[simp] theorem endedRow_id (status : CommandStatus) (now : Time) (row : CommandRow) :
    (endedRow status now row).id = row.id := rfl

/-- `ExpireCommands`. -/
def expireCommands (now grace : Time) (locked : List Bytes) (db : Db) : Db :=
  updateCommandBatch pg (expirable now grace) (endedRow .timeout now) (endedRow_id .timeout now)
    .timeout locked db

/-- The rows the first statement of `RecoverStaleCommands` looks for. -/
def requeueable (staleBefore : Time) (maxAttempts : Int) (row : CommandRow) : Bool :=
  row.status == .published && row.updatedAt ≤ staleBefore &&
    (row.dispatchAttempts : Int) < maxAttempts

/-- The first statement of `RecoverStaleCommands`. -/
def recoverStaleRequeue (now staleBefore : Time) (maxAttempts : Int) (locked : List Bytes)
    (db : Db) : Db :=
  updateCommandBatch pg (requeueable staleBefore maxAttempts) (requeuedRow now now)
    (requeuedRow_id now now) .requeued locked db

/-- The rows the second statement of `RecoverStaleCommands` looks for. -/
def exhausted (now staleBefore : Time) (maxAttempts : Int) (row : CommandRow) : Bool :=
  (row.dispatchAttempts : Int) ≥ maxAttempts &&
    ((row.status == .created && row.nextDispatchAt ≤ now) ||
      (row.status == .published && row.updatedAt ≤ staleBefore))

/-- The second statement of `RecoverStaleCommands`. -/
def recoverStaleFail (now staleBefore : Time) (maxAttempts : Int) (locked : List Bytes)
    (db : Db) : Db :=
  updateCommandBatch pg (exhausted now staleBefore maxAttempts) (endedRow .failed now)
    (endedRow_id .failed now) .failed locked db

/-- The value of the `result` column: casting the encoded result to `jsonb` casts its members. -/
def storedResult (result : CommandResult) : Except GoError CommandResult := do
  let payload ← pg.jsonb result.payload
  pure { result with payload := payload }

/-- `result = $2::jsonb`. -/
def sameResult (stored other : CommandResult) : Bool :=
  stored.status == other.status && stored.errorCode == other.errorCode &&
    pg.jsonbEq stored.payload other.payload

/-- The three writes of an acknowledgement: the row, the acknowledgement and the event. -/
def Db.acknowledge (db : Db) (row : CommandRow) (h : db.commands.find? row.id = some row)
    (next : CommandStatus) (event : CommandEvent) (result : CommandResult) (now : Time) : Db :=
  (db.insertAck ⟨row.id, row.tenantID, row.deviceID, result.status, result, now⟩
      (by simp [h])).updateCommands
    (fun other => other.id == row.id)
    (fun other => { other with status := next, updatedAt := now, result := some result })
    (fun _ => rfl) (some event)

/-- The part of `AckCommandResult` after the command has been found to belong to the device. -/
def acknowledgeRow (normalized : CommandResult) (now : Time) (db : Db) (row : CommandRow)
    (h : db.commands.find? row.id = some row) : Except GoError (Command × Db) :=
  if row.status.terminal then
    match row.result with
    | none => .ok (row.command, db)
    | some stored => do
        let other ← storedResult pg normalized
        if sameResult pg stored other then pure (row.command, db)
        else throw errAcknowledgementConflict
  else
    match commandEvent? normalized.status with
    | none => .error errInvalidCommandTransition
    | some event => do
        let next ← advanceCommandStatus row.status event
        let result ← storedResult pg normalized
        pure ({ row.command with status := next, updatedAt := now, result := some normalized },
          db.acknowledge row h next event result now)

/-- `AckCommandResult`. -/
def ackCommandResult (id tenantID deviceID : Bytes) (input : CommandResult) (now : Time)
    (db : Db) : Except GoError (Command × Db) := do
  validateDeviceIdentity tenantID deviceID
  validateCommandID id
  let normalized ← normalizeCommandResult go input
  let _encoded ← resultToks go 0 normalized
  match h : db.commands.find? id with
  | none => throw (.label "command" errNotFound)
  | some row =>
      if row.tenantID ≠ tenantID ∨ row.deviceID ≠ deviceID then
        throw (.label "command" errNotFound)
      else acknowledgeRow pg normalized now db row (by rw [Table.key_of_find? h]; exact h)

/-- `GetCommandContext`, also under the name `GetCommandForDelivery`. -/
def getCommandContext (db : Db) (id : Bytes) : Except GoError Command :=
  match db.commands.find? id with
  | none => .error errNotFound
  | some row => .ok row.command

/-- One call of a command operation with its arguments, or a device added to the schema. -/
inductive Op where
  | registerDevice (tenantID deviceID : Bytes)
  | createCommandWithKey (tenantID deviceID key payload : Bytes) (newID : Except GoError Bytes)
      (now : Time)
  | claimCommandsForDispatch (now lease : Time) (limit : Int) (locked : List Bytes)
  | markCommandPublished (now : Time) (id : Bytes) (attempt : Int)
  | rescheduleCommand (now : Time) (id : Bytes) (attempt : Int) (retryAfter : Time)
  | markCommandSent (now : Time) (id : Bytes) (deadline : Time)
  | requeueCommand (now : Time) (id : Bytes) (retryAfter : Time)
  | expireCommands (now grace : Time) (locked : List Bytes)
  | recoverStaleRequeue (now staleBefore : Time) (maxAttempts : Int) (locked : List Bytes)
  | recoverStaleFail (now staleBefore : Time) (maxAttempts : Int) (locked : List Bytes)
  | ackCommandResult (id tenantID deviceID : Bytes) (input : CommandResult) (now : Time)

/-- The tables after a transaction: unchanged when it failed. -/
def committed (db : Db) : Except GoError (Command × Db) → Db
  | .ok (_, after) => after
  | .error _ => db

/-- The tables after an operation. -/
def step (db : Db) : Op → Db
  | .registerDevice tenantID deviceID => { db with devices := (tenantID, deviceID) :: db.devices }
  | .createCommandWithKey tenantID deviceID key payload newID now =>
      committed db (createCommandWithKey go pg tenantID deviceID key payload newID now db)
  | .claimCommandsForDispatch now lease limit locked =>
      (claimCommandsForDispatch pg now lease limit locked db).2
  | .markCommandPublished now id attempt => markCommandPublished now id attempt db
  | .rescheduleCommand now id attempt retryAfter =>
      rescheduleCommand now id attempt retryAfter db
  | .markCommandSent now id deadline => markCommandSent now id deadline db
  | .requeueCommand now id retryAfter => requeueCommand now id retryAfter db
  | .expireCommands now grace locked => expireCommands pg now grace locked db
  | .recoverStaleRequeue now staleBefore maxAttempts locked =>
      recoverStaleRequeue pg now staleBefore maxAttempts locked db
  | .recoverStaleFail now staleBefore maxAttempts locked =>
      recoverStaleFail pg now staleBefore maxAttempts locked db
  | .ackCommandResult id tenantID deviceID input now =>
      committed db (ackCommandResult go pg id tenantID deviceID input now db)

end Iot.Store
