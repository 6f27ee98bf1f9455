import Iot.Store.Telemetry

/-!
# Device liveness

`device_state` has a row for each device with the receive time and the message id of the telemetry
seen last. `CreateDeviceContext` makes the row, and a transaction that stores telemetry updates it
if the record is new and strictly later (`internal/platform/postgres_store.go`). Each transaction is
one atomic change in the order of the commits.

`createDevice_cases` and `restoreAndObserve_cases` say what the two transactions do.
-/

namespace Iot.Store

open Text Contracts Platform Data

/-! ## The tables -/

/-- A row of `device_state`. -/
structure DeviceState where
  tenantID : Bytes
  deviceID : Bytes
  connected : Bool
  lastSeenAt : Option Time
  lastMsgID : Option Bytes
  updatedAt : Time
  deriving DecidableEq, Repr

/-- The key of a row of `device_state`. -/
def stateKey (state : DeviceState) : Bytes × Bytes := (state.tenantID, state.deviceID)

/-- The device of a telemetry row. -/
def deviceOf (rec : TelemetryRecord) : Bytes × Bytes := (rec.tenantID, rec.deviceID)

/-- The tables of tenants, devices, telemetry and device states. -/
structure DeviceDb where
  tenants : List Bytes
  telemetry : TelemetryDb
  states : Table stateKey

/-- The empty schema. -/
def DeviceDb.empty : DeviceDb := ⟨[], .empty, .empty⟩

/-- `platform.ErrAlreadyExists`. -/
def errAlreadyExists : GoError := ⟨ascii "already exists", [.alreadyExists]⟩

/-- `contracts.ErrInvalidDeviceSecret`. -/
def errInvalidDeviceSecret : GoError :=
  ⟨ascii "secret must contain 1..72 UTF-8 bytes", [.invalidDeviceSecret]⟩

/-- A character of a product id, at its first place or after it. -/
def isProductByte (first : Bool) (c : UInt8) : Bool :=
  (0x61 ≤ c && c ≤ 0x7A) || (0x41 ≤ c && c ≤ 0x5A) || (0x30 ≤ c && c ≤ 0x39) ||
    (!first && (c == 0x2E || c == 0x5F || c == 0x2D))

/-- `ValidateProductID`. -/
def validateProductID (value : Bytes) : Except GoError Unit :=
  match value with
  | [] => .error (errInvalidPayload.wrap
      (ascii "productId must contain 1..64 ASCII identifier characters"))
  | first :: rest =>
      if value.length > 64 then .error (errInvalidPayload.wrap
        (ascii "productId must contain 1..64 ASCII identifier characters"))
      else if isProductByte true first && rest.all (isProductByte false) then .ok ()
      else .error (errInvalidPayload.wrap (ascii "invalid productId"))

/-- `ValidateDeviceSecret`. -/
def validateDeviceSecret (secret : Bytes) : Except GoError Unit :=
  returnIf (secret = [] ∨ secret.length > 72 ∨ ¬ utf8Valid secret) errInvalidDeviceSecret

/-- The fields of a `Device` that `CreateDeviceContext` checks. -/
structure NewDevice where
  tenantID : Bytes
  deviceID : Bytes
  productID : Bytes
  secret : Bytes
  deriving DecidableEq, Repr

/-- A row of `device_state` with another update time. -/
def touchedState (now : Time) (state : DeviceState) : DeviceState := { state with updatedAt := now }

theorem stateKey_touchedState (now : Time) (state : DeviceState) :
    stateKey (touchedState now state) = stateKey state := rfl

/-- `INSERT INTO device_state … ON CONFLICT … DO UPDATE SET updated_at = EXCLUDED.updated_at`. -/
def createState (tenantID deviceID : Bytes) (now : Time) (states : Table stateKey) :
    Table stateKey :=
  match h : states.find? (tenantID, deviceID) with
  | none => states.insert ⟨tenantID, deviceID, false, none, none, now⟩ h
  | some _ => states.update (fun state => stateKey state = (tenantID, deviceID))
      (touchedState now) (stateKey_touchedState now)

/-- `CreateDeviceContext`. `hash` is bcrypt. -/
def createDevice (hash : Bytes → Except GoError Bytes) (device : NewDevice) (now : Time)
    (db : DeviceDb) : Except GoError DeviceDb := do
  validateProductID device.productID
  returnIf (!isValidTenantID device.tenantID || !isValidTopicPart device.deviceID)
    errInvalidTopicPart
  returnIf (!db.tenants.contains device.tenantID) (.label "tenant" errNotFound)
  validateDeviceSecret device.secret
  let _ ← hash device.secret
  returnIf (db.telemetry.devices.contains (device.tenantID, device.deviceID))
    (.label "device" errAlreadyExists)
  pure { db with
    telemetry := { db.telemetry with
      devices := (device.tenantID, device.deviceID) :: db.telemetry.devices }
    states := createState device.tenantID device.deviceID now db.states }

/-- The `WHERE` of the update of `device_state`: the record is later than all before. -/
def isLater (receivedAt : Time) (state : DeviceState) : Bool :=
  match state.lastSeenAt with
  | none => true
  | some lastSeenAt => lastSeenAt < receivedAt

/-- The row of `device_state` with a later record. -/
def seenState (rec : TelemetryRecord) (now : Time) (state : DeviceState) : DeviceState :=
  { state with
    connected := true
    lastSeenAt := some rec.receivedAt
    lastMsgID := some rec.msgID
    updatedAt := max state.updatedAt now }

theorem stateKey_seenState (rec : TelemetryRecord) (now : Time) (state : DeviceState) :
    stateKey (seenState rec now state) = stateKey state := rfl

/-- The upsert of `device_state` for a record that is new. -/
def observeState (rec : TelemetryRecord) (now : Time) (states : Table stateKey) : Table stateKey :=
  match h : states.find? (deviceOf rec) with
  | none =>
      states.insert ⟨rec.tenantID, rec.deviceID, true, some rec.receivedAt, some rec.msgID, now⟩ h
  | some _ => states.update
      (fun state => stateKey state = deviceOf rec ∧ isLater rec.receivedAt state)
      (seenState rec now) (stateKey_seenState rec now)

variable (go : GoRuntime) (pg : Postgres)

/-- `RestoreTelemetryContext` with `device_state`. A duplicate is rolled back. -/
def restoreAndObserve (rec : TelemetryRecord) (now : Time) (db : DeviceDb) :
    Except GoError DeviceDb := do
  match ← restoreTelemetry go pg rec db.telemetry with
  | .duplicate _ => pure db
  | .inserted _ telemetry =>
      pure { db with telemetry := telemetry, states := observeState rec now db.states }

/-- A transaction with the times it reads. -/
inductive DeviceAction where
  | createTenant (tenantID : Bytes)
  | createDevice (device : NewDevice) (hash : Bytes → Except GoError Bytes) (now : Time)
  /-- `RestoreTelemetryContext`. -/
  | restore (rec : TelemetryRecord) (now : Time)
  /-- `RecordTelemetryContext`, which stamps the receive time. -/
  | record (env : Envelope) (receivedAt now : Time)

/-- The tables after a transaction. One that fails changes nothing. -/
def DeviceDb.step (db : DeviceDb) (action : DeviceAction) : DeviceDb :=
  match action with
  | .createTenant tenantID => { db with tenants := tenantID :: db.tenants }
  | .createDevice device hash now =>
      match createDevice hash device now db with
      | .ok after => after
      | .error _ => db
  | .restore rec now =>
      match restoreAndObserve go pg rec now db with
      | .ok after => after
      | .error _ => db
  | .record env receivedAt now =>
      match restoreAndObserve go pg (.ofEnvelope env receivedAt) now db with
      | .ok after => after
      | .error _ => db

/-! ## What a transaction does -/

variable {go pg}

/-- A record is stored for a registered device only. -/
theorem restoreTelemetry_device {rec : TelemetryRecord} {db : TelemetryDb} {result : Restored}
    (h : restoreTelemetry go pg rec db = .ok result) : deviceOf rec ∈ db.devices := by
  simp only [restoreTelemetry, bind_eq_ok] at h
  obtain ⟨_, _, _, _, _, hdevice, _⟩ := h
  unfold requireDevice at hdevice
  split at hdevice
  · rename_i hcontains
    exact List.contains_iff_mem.mp hcontains
  · cases hdevice

/-- A device that is created is new, and the rest stays. -/
theorem createDevice_cases {hash : Bytes → Except GoError Bytes} {device : NewDevice} {now : Time}
    {db after : DeviceDb} (h : createDevice hash device now db = .ok after) :
    (device.tenantID, device.deviceID) ∉ db.telemetry.devices ∧
      after = { db with
        telemetry := { db.telemetry with
          devices := (device.tenantID, device.deviceID) :: db.telemetry.devices }
        states := createState device.tenantID device.deviceID now db.states } := by
  simp only [createDevice, bind_eq_ok] at h
  obtain ⟨_, _, _, _, _, _, _, _, _, _, _, hnew, h⟩ := h
  cases h
  refine ⟨?_, rfl⟩
  simpa using hnew

/-- The row of a device that has none yet. -/
theorem find?_createState {tenantID deviceID : Bytes} {states : Table stateKey} (now : Time)
    (hnew : states.find? (tenantID, deviceID) = none) (key : Bytes × Bytes) :
    (createState tenantID deviceID now states).find? key =
      if (tenantID, deviceID) = key then some ⟨tenantID, deviceID, false, none, none, now⟩
      else states.find? key := by
  unfold createState
  split
  · rename_i h
    exact Table.find?_insert _ _ h key
  · rename_i h
    rw [hnew] at h
    cases h

/-- The row of a device after a record, where there is one. -/
theorem find?_observeState {rec : TelemetryRecord} {states : Table stateKey} {state : DeviceState}
    (now : Time) (hstate : states.find? (deviceOf rec) = some state)
    (key : Bytes × Bytes) :
    (observeState rec now states).find? key =
      if deviceOf rec = key then
        some (if isLater rec.receivedAt state then seenState rec now state else state)
      else states.find? key := by
  unfold observeState
  split
  · rename_i h
    rw [hstate] at h
    cases h
  · rw [Table.find?_update]
    by_cases hkey : deviceOf rec = key
    · subst hkey
      have hsame := Table.key_of_find? hstate
      rw [if_pos rfl, hstate]
      simp [hsame]
    · rw [if_neg hkey]
      cases hother : states.find? key with
      | none => rfl
      | some other =>
          have hsame := Table.key_of_find? hother
          simp [hsame, Ne.symm hkey]

/-- What storing a record does to the tables: nothing, or a row is added and the state of its
device brought up to date. -/
theorem restoreAndObserve_cases {rec : TelemetryRecord} {now : Time} {db after : DeviceDb}
    (h : restoreAndObserve go pg rec now db = .ok after) :
    (after = db ∧ ∃ stored, db.telemetry.records.find? (telemetryKey rec) = some stored) ∨
    ∃ first telemetry, restoreTelemetry go pg rec db.telemetry = .ok (.inserted first telemetry) ∧
      after = { db with telemetry := telemetry, states := observeState rec now db.states } := by
  obtain ⟨restored, hrestore, h⟩ := bind_eq_ok.mp h
  cases restored with
  | duplicate stored =>
      cases h
      obtain ⟨_, ⟨_, _, _, heq⟩ | ⟨_, hstored, _⟩⟩ := restoreTelemetry_cases hrestore
      · cases heq
      · exact Or.inl ⟨rfl, _, hstored⟩
  | inserted first telemetry =>
      cases h
      exact Or.inr ⟨first, telemetry, hrestore, rfl⟩

variable (go pg) in
/-- What a transaction can do. -/
theorem device_step_cases (db : DeviceDb) (action : DeviceAction) :
    (∃ tenants, db.step go pg action = { db with tenants := tenants }) ∨
    (∃ hash device now, createDevice hash device now db = .ok (db.step go pg action)) ∨
    ∃ rec now, restoreAndObserve go pg rec now db = .ok (db.step go pg action) := by
  cases action with
  | createTenant tenantID => exact Or.inl ⟨_, rfl⟩
  | createDevice device hash now =>
      simp only [DeviceDb.step]
      split
      · rename_i after hafter
        exact Or.inr (Or.inl ⟨hash, device, now, hafter⟩)
      · exact Or.inl ⟨db.tenants, rfl⟩
  | restore rec now =>
      simp only [DeviceDb.step]
      split
      · rename_i after hafter
        exact Or.inr (Or.inr ⟨rec, now, hafter⟩)
      · exact Or.inl ⟨db.tenants, rfl⟩
  | record env receivedAt now =>
      simp only [DeviceDb.step]
      split
      · rename_i after hafter
        exact Or.inr (Or.inr ⟨_, now, hafter⟩)
      · exact Or.inl ⟨db.tenants, rfl⟩

end Iot.Store
