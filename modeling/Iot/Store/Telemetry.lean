import Iot.Store.Commands

/-!
# The telemetry table of PostgreSQL

`RestoreTelemetryContext` and its relatives (`internal/platform/postgres_store.go`). Like the
command operations, each is one atomic change of the table. `device_state`, which no other
modelled operation reads, is left out.
-/

namespace Iot.Store

open Text Contracts Platform Data

/-- The key of a telemetry row: message, tenant and device. -/
abbrev TelemetryKey := Bytes × Bytes × Bytes

/-- The key of a record. -/
def telemetryKey (rec : TelemetryRecord) : TelemetryKey := (rec.msgID, rec.tenantID, rec.deviceID)

/-- The tables the telemetry operations use. -/
structure TelemetryDb where
  devices : List (Bytes × Bytes)
  records : Table telemetryKey

/-- The empty schema. -/
def TelemetryDb.empty : TelemetryDb := ⟨[], .empty⟩

/-- How storing a record ends when it does not fail. -/
inductive Restored where
  | inserted (rec : TelemetryRecord) (db : TelemetryDb)
  | duplicate (stored : TelemetryRecord)

/-- The record the caller gets. -/
def Restored.record : Restored → TelemetryRecord
  | .inserted rec _ => rec
  | .duplicate stored => stored

/-- The tables afterwards, from those before. -/
def Restored.db (before : TelemetryDb) : Restored → TelemetryDb
  | .inserted _ db => db
  | .duplicate _ => before

variable (go : GoRuntime) (pg : Postgres)

/-- `RestoreTelemetryContext`. A row that is already there makes the call return that row with
`ErrDuplicateTelemetry`, which is the outcome `duplicate` here. -/
def restoreTelemetry (rec : TelemetryRecord) (db : TelemetryDb) : Except GoError Restored := do
  validateTelemetryPayload rec.payload
  returnIf (rec.receivedAt = zeroTime)
    (errInvalidEnvelope.wrap (ascii "original receive time is required"))
  requireDevice db.devices rec.tenantID rec.deviceID
  let normalized ← pg.jsonb rec.payload
  validateTelemetryPayload normalized
  let payload ← rawValue go 0 rec.payload
  let column ← pg.jsonb (Json.text payload)
  let row : TelemetryRecord := { rec with payload := column, tdengineWritten := false }
  match h : db.records.find? (telemetryKey row) with
  | some stored => pure (.duplicate stored)
  | none =>
      pure (.inserted { rec with tdengineWritten := false }
        { db with records := db.records.insert row h })

/-- `RecordTelemetryContext`. -/
def recordTelemetry (env : Envelope) (now : Time) (db : TelemetryDb) : Except GoError Restored :=
  restoreTelemetry go pg (.ofEnvelope env now) db

/-- A row marked as written to TDengine. -/
def markedRow (row : TelemetryRecord) : TelemetryRecord := { row with tdengineWritten := true }

@[simp] theorem telemetryKey_markedRow (row : TelemetryRecord) :
    telemetryKey (markedRow row) = telemetryKey row := rfl

/-- `MarkTelemetryTDengineWritten`. -/
def markTelemetryTDengineWritten (key : TelemetryKey) (db : TelemetryDb) : TelemetryDb :=
  { db with
    records := db.records.update (fun row => telemetryKey row = key) markedRow
      telemetryKey_markedRow }

/-- The columns of a row that come from the envelope, its payload apart. -/
def SameHead (rec other : TelemetryRecord) : Prop :=
  telemetryKey rec = telemetryKey other ∧ rec.ts = other.ts ∧ rec.type = other.type ∧
    rec.version = other.version

variable {go pg}

/-- What storing a record does: it adds a row with the record's columns and returns the record, or
it changes nothing and returns the row that has the record's key. -/
theorem restoreTelemetry_cases {rec : TelemetryRecord} {db : TelemetryDb} {result : Restored}
    (h : restoreTelemetry go pg rec db = .ok result) :
    validateTelemetryPayload rec.payload = .ok () ∧
    ((∃ row hnew, SameHead row rec ∧
        result = .inserted { rec with tdengineWritten := false }
          { db with records := db.records.insert row hnew }) ∨
      ∃ stored, db.records.find? (telemetryKey rec) = some stored ∧
        result = .duplicate stored) := by
  simp only [restoreTelemetry, bind_eq_ok] at h
  obtain ⟨⟨⟩, hpayload, _, _, _, _, _, _, _, _, payload, _, column, _, h⟩ := h
  refine ⟨hpayload, ?_⟩
  split at h
  · rename_i stored hstored
    cases h
    exact Or.inr ⟨stored, hstored, rfl⟩
  · rename_i hnew
    cases h
    exact Or.inl ⟨_, hnew, ⟨rfl, rfl, rfl, rfl⟩, rfl⟩

/-- The text of a payload as the `payload` column returns it. -/
def StoredText (go : GoRuntime) (pg : Postgres) (payload column : Bytes) : Prop :=
  ∃ value, rawValue go 0 payload = .ok value ∧ pg.jsonb (Json.text value) = .ok column

/-- The row of a record whose payload is stored as the text given. -/
def storedRow (rec : TelemetryRecord) (column : Bytes) : TelemetryRecord :=
  { rec with payload := column, tdengineWritten := false }

/-- The row that is added is the record with the stored text of its payload, and is not marked. -/
theorem restoreTelemetry_inserted {rec first : TelemetryRecord} {db after : TelemetryDb}
    (h : restoreTelemetry go pg rec db = .ok (.inserted first after)) :
    first = { rec with tdengineWritten := false } ∧ ∃ column,
      ∃ hnew : db.records.find? (telemetryKey (storedRow rec column)) = none,
        StoredText go pg rec.payload column ∧
        after = { db with records := db.records.insert (storedRow rec column) hnew } := by
  simp only [restoreTelemetry, bind_eq_ok] at h
  obtain ⟨⟨⟩, _, _, _, _, _, _, _, _, _, value, hvalue, column, hcolumn, h⟩ := h
  split at h
  · cases h
  · rename_i hnew
    cases h
    exact ⟨rfl, column, hnew, ⟨value, hvalue, hcolumn⟩, rfl⟩

/-- The row of every other key is kept when a row is added. -/
theorem find?_inserted {rec first : TelemetryRecord} {db after : TelemetryDb}
    (h : restoreTelemetry go pg rec db = .ok (.inserted first after)) (key : TelemetryKey) :
    ∃ column, StoredText go pg rec.payload column ∧ db.records.find? (telemetryKey rec) = none ∧
      after.records.find? key =
        if telemetryKey rec = key then some (storedRow rec column) else db.records.find? key := by
  obtain ⟨_, column, hnew, hcolumn, rfl⟩ := restoreTelemetry_inserted h
  exact ⟨column, hcolumn, hnew, Table.find?_insert _ _ hnew key⟩

/-- A stored row has the key of its record, and the record returned too. -/
theorem restoreTelemetry_key {rec : TelemetryRecord} {db : TelemetryDb} {result : Restored}
    (h : restoreTelemetry go pg rec db = .ok result) :
    telemetryKey result.record = telemetryKey rec ∧
      ((result.db db).records.find? (telemetryKey rec)).isSome := by
  obtain ⟨_, ⟨row, hnew, hhead, rfl⟩ | ⟨stored, hstored, rfl⟩⟩ := restoreTelemetry_cases h
  · refine ⟨rfl, ?_⟩
    simp only [Restored.db, Table.find?_insert, hhead.1, if_true, Option.isSome_some]
  · exact ⟨Table.key_of_find? hstored, by simp [Restored.db, hstored]⟩

end Iot.Store
