import Iot.Contracts.Identity
import Iot.Execution.Run
import Iot.Json.Numbers
import Iot.Store.DeviceState
import Iot.Store.Lifecycle

/-!
# The store in memory

`memoryStore` (`internal/platform/memory_store.go`) is the store of a platform without a database.
Every operation runs under one lock, so a run is a list of operations. The clocks it reads and the
values `encoding/json` makes of a text are arguments.

`step_commands` and `step_telemetry` say what an operation can do. From them follow the invariant of
all runs (`MemoryStore.Sound`), what a request key stands for (`memory_keys_idempotent`) and that
the first result of a command stays (`memory_first_result`).
-/

namespace Iot.Store

open Text Json Contracts Platform Data Execution

/-! ## The maps -/

/-- The key of a device in the maps. -/
def Device.mapKey (d : Device) : Bytes := deviceKey d.tenantID d.deviceID

/-- The key of a status in the maps. -/
def DeviceStatus.mapKey (status : DeviceStatus) : Bytes := deviceKey status.tenantID status.deviceID

/-- The key of the telemetry of a record. -/
def recordKey (rec : TelemetryRecord) : Bytes := deviceKey rec.tenantID rec.deviceID

/-- `memoryStore`. The records of all devices are one list in the order they came in. -/
structure MemoryStore where
  ttl : Time
  tenants : Table Tenant.id
  devices : Table Device.mapKey
  statuses : Table DeviceStatus.mapKey
  telemetry : List TelemetryRecord
  commandKeys : Table (Prod.fst : Bytes × Bytes → Bytes)
  commands : Table Command.id
  commandSeq : Nat

/-- `newMemoryStore`. -/
def newMemoryStore (ttl : Time) : MemoryStore :=
  ⟨ttl, .empty, .empty, .empty, [], .empty, .empty, 0⟩

namespace MemoryStore

/-- `ListTelemetry`. -/
def listTelemetry (s : MemoryStore) (tenantID deviceID : Bytes) : List TelemetryRecord :=
  s.telemetry.filter fun rec => recordKey rec == deviceKey tenantID deviceID

/-- `s.commandKeys[id]`. -/
def keyOf (s : MemoryStore) (id : Bytes) : Bytes := ((s.commandKeys.find? id).map Prod.snd).getD []

end MemoryStore

/-- The largest `time.Duration`. -/
def maxDuration : Int := 9223372036854775807

/-- `time.Since`, at a time. A duration is an `int64` and stays at the end of its range. -/
def timeSince (now t : Time) : Int := max (-maxDuration - 1) (min maxDuration (now - t))

/-- `ValidateTenantName`. -/
def validateTenantName (value : Bytes) : Except GoError Unit := do
  returnIf (trimSpace value = [] ∨ value.length > 256 ∨ !utf8Valid value)
    (errInvalidPayload.wrap (ascii "name must contain 1..256 UTF-8 bytes and not be blank"))
  returnIf ((decode value).any Rune.isControl)
    (errInvalidPayload.wrap (ascii "name contains control characters"))

/-- `commandAlreadyDelivered`. -/
def commandAlreadyDelivered (status : CommandStatus) : Bool :=
  match status with
  | .sent | .acked | .timeout | .failed => true
  | _ => false

/-! ## The operations -/

namespace MemoryStore

/-- `CreateTenant`. -/
def createTenant (t : Tenant) (s : MemoryStore) : Except GoError (Tenant × MemoryStore) := do
  validateTenantName t.name
  returnIf (!isValidTenantID t.id) errInvalidTopicPart
  returnIf (s.tenants.find? t.id).isSome (.label "tenant" errAlreadyExists)
  pure (t, { s with tenants := s.tenants.put t })

/-- `CreateDevice`. -/
def createDevice (d : Device) (now : Time) (s : MemoryStore) :
    Except GoError (Device × MemoryStore) := do
  validateProductID d.productID
  validateDeviceSecret d.secret
  returnIf (!isValidTenantID d.tenantID || !isValidTopicPart d.deviceID) errInvalidTopicPart
  returnIf (s.tenants.find? d.tenantID).isNone (.label "tenant" errNotFound)
  returnIf (s.devices.find? (deviceKey d.tenantID d.deviceID)).isSome
    (.label "device" errAlreadyExists)
  let d := { d with createdAt := now }
  pure (d, { s with
    devices := s.devices.put d
    statuses := s.statuses.put ⟨d.tenantID, d.deviceID, false, zeroTime⟩ })

/-- The status after a record: a later record than the last makes the device online. -/
def observe (rec : TelemetryRecord) (statuses : Table DeviceStatus.mapKey) :
    Table DeviceStatus.mapKey :=
  let lastSeenAt := ((statuses.find? (recordKey rec)).map DeviceStatus.lastSeenAt).getD zeroTime
  if lastSeenAt = zeroTime ∨ lastSeenAt < rec.receivedAt then
    statuses.put ⟨rec.tenantID, rec.deviceID, true, rec.receivedAt⟩
  else statuses

/-- `RestoreTelemetryContext`. -/
def restoreTelemetry (rec : TelemetryRecord) (s : MemoryStore) :
    Except GoError (TelemetryRecord × MemoryStore) := do
  validateTelemetryPayload rec.payload
  returnIf (rec.receivedAt = zeroTime)
    (errInvalidEnvelope.wrap (ascii "original receive time is required"))
  returnIf (s.devices.find? (recordKey rec)).isNone (.label "device" errNotFound)
  pure (rec, { s with telemetry := s.telemetry ++ [rec], statuses := observe rec s.statuses })

/-- `GetDeviceStatus`, at a time. -/
def getDeviceStatus (s : MemoryStore) (tenantID deviceID : Bytes) (now : Time) :
    Option DeviceStatus :=
  (s.statuses.find? (deviceKey tenantID deviceID)).map fun status =>
    if status.lastSeenAt ≠ zeroTime ∧ timeSince now status.lastSeenAt > s.ttl then
      { status with online := false }
    else status

end MemoryStore

/-- The id of the command with a number. -/
def numberedID (n : Nat) : Bytes := ascii "cmd-" ++ decimal n

namespace MemoryStore

/-- `createCommand`. -/
def createCommand (tenantID deviceID payload : Bytes) (now later : Time) (s : MemoryStore) :
    Except GoError (Command × MemoryStore) := do
  returnIf (s.devices.find? (deviceKey tenantID deviceID)).isNone (.label "device" errNotFound)
  let next ← advanceCommandStatus .created .published
  let cmd : Command := ⟨numberedID (s.commandSeq + 1), tenantID, deviceID, next, payload, now,
    later, 0, zeroTime, none⟩
  pure (cmd, { s with commandSeq := s.commandSeq + 1, commands := s.commands.put cmd })

/-- The command of the tenant that was made with a key. -/
def keyHolder (s : MemoryStore) (tenantID key : Bytes) : Option Command :=
  if key = [] then none
  else s.commands.rows.find? fun cmd => cmd.tenantID = tenantID ∧ s.keyOf cmd.id = key

variable (go : GoRuntime) {Value : Type} [DecidableEq Value]
  (decodeAny : Bytes → Except GoError Value)

/-- `CreateCommandWithKey`. -/
def createCommandWithKey (tenantID deviceID key payload : Bytes) (now later : Time)
    (s : MemoryStore) : Except GoError (Command × MemoryStore) := do
  validateCommandInput go tenantID deviceID payload
  validateIdempotencyKey key
  let payload := orEmptyObject payload
  let value ← decodeAny payload
  match s.keyHolder tenantID key with
  | some cmd =>
      if cmd.deviceID ≠ deviceID ∨ (decodeAny cmd.payload).toOption ≠ some value then
        throw errIdempotencyConflict
      else pure (cmd, s)
  | none => do
      let (cmd, s) ← s.createCommand tenantID deviceID payload now later
      if key = [] then pure (cmd, s)
      else pure (cmd, { s with commandKeys := s.commandKeys.put (cmd.id, key) })

/-- The value of a result in JSON. -/
def resultValue (result : CommandResult) : Option Value :=
  (decodeAny (resultJSON go (some result))).toOption

/-- `AckCommandResultContext`. -/
def ackCommandResult (id tenantID deviceID : Bytes) (input : CommandResult) (now : Time)
    (s : MemoryStore) : Except GoError (Command × MemoryStore) := do
  validateDeviceIdentity tenantID deviceID
  validateCommandID id
  let result ← normalizeCommandResult go input
  match s.commands.find? id with
  | none => throw errNotFound
  | some cmd =>
      if cmd.tenantID ≠ tenantID ∨ cmd.deviceID ≠ deviceID then throw errNotFound
      else if commandAlreadyDelivered cmd.status ∧ cmd.status ≠ .sent then
        match cmd.result with
        | none => pure (cmd, s)
        | some stored =>
            if resultValue go decodeAny stored ≠ resultValue go decodeAny result then
              throw errAcknowledgementConflict
            else pure (cmd, s)
      else
        match commandEvent? result.status with
        | none => throw errInvalidCommandTransition
        | some event => do
            let next ← advanceCommandStatus cmd.status event
            let cmd := { cmd with status := next, updatedAt := now, result := some result }
            pure (cmd, { s with commands := s.commands.put cmd })

end MemoryStore

/-- One call with its arguments and the clocks it reads. -/
inductive MemoryOp where
  | createTenant (t : Tenant)
  | createDevice (d : Device) (now : Time)
  | restoreTelemetry (rec : TelemetryRecord)
  | createCommandWithKey (tenantID deviceID key payload : Bytes) (now later : Time)
  | ackCommandResult (id tenantID deviceID : Bytes) (input : CommandResult) (now : Time)

namespace MemoryStore

/-- The store after a call: unchanged when it failed. -/
def after {α : Type} (s : MemoryStore) : Except GoError (α × MemoryStore) → MemoryStore
  | .ok (_, next) => next
  | .error _ => s

variable (go : GoRuntime) {Value : Type} [DecidableEq Value]
  (decodeAny : Bytes → Except GoError Value)

/-- The store after a call of an operation. -/
def step (s : MemoryStore) : MemoryOp → MemoryStore
  | .createTenant t => s.after (s.createTenant t)
  | .createDevice d now => s.after (s.createDevice d now)
  | .restoreTelemetry rec => s.after (s.restoreTelemetry rec)
  | .createCommandWithKey tenantID deviceID key payload now later =>
      s.after (s.createCommandWithKey go decodeAny tenantID deviceID key payload now later)
  | .ackCommandResult id tenantID deviceID input now =>
      s.after (s.ackCommandResult go decodeAny id tenantID deviceID input now)

variable {go} {decodeAny}

/-! ## What an operation can do -/

/-- A call leaves the store as it is or succeeds. -/
theorem after_cases {α : Type} (s : MemoryStore) (result : Except GoError (α × MemoryStore)) :
    s.after result = s ∨ ∃ value next, result = .ok (value, next) ∧ s.after result = next := by
  cases result with
  | error err => exact .inl rfl
  | ok answer => exact .inr ⟨answer.1, answer.2, rfl, rfl⟩

/-- A tenant that was created. -/
theorem createTenant_ok {t created : Tenant} {s next : MemoryStore}
    (h : s.createTenant t = .ok (created, next)) :
    next = { s with tenants := s.tenants.put t } := by
  simp only [createTenant, bind_eq_ok] at h
  obtain ⟨_, _, _, _, _, _, hnext⟩ := h
  exact (Prod.mk.inj (Except.ok.inj hnext)).2.symm

/-- A device that was created. -/
theorem createDevice_ok {d created : Device} {now : Time} {s next : MemoryStore}
    (h : s.createDevice d now = .ok (created, next)) :
    isValidTenantID d.tenantID ∧ s.devices.find? (deviceKey d.tenantID d.deviceID) = none ∧
      next = { s with
        devices := s.devices.put { d with createdAt := now }
        statuses := s.statuses.put ⟨d.tenantID, d.deviceID, false, zeroTime⟩ } := by
  simp only [createDevice, bind_eq_ok, returnIf_eq_ok, Bool.or_eq_true, Bool.not_eq_true',
    not_or, Bool.not_eq_false, Bool.not_eq_true, Option.isSome_eq_false_iff,
    Option.isNone_iff_eq_none] at h
  obtain ⟨_, _, _, _, _, hvalid, _, _, _, hdevice, hnext⟩ := h
  exact ⟨hvalid.1, hdevice, (Prod.mk.inj (Except.ok.inj hnext)).2.symm⟩

/-- A record that was stored. -/
theorem restoreTelemetry_ok {rec stored : TelemetryRecord} {s next : MemoryStore}
    (h : s.restoreTelemetry rec = .ok (stored, next)) :
    rec.receivedAt ≠ zeroTime ∧ (s.devices.find? (recordKey rec)).isSome ∧
      next = { s with
        telemetry := s.telemetry ++ [rec], statuses := observe rec s.statuses } := by
  simp only [restoreTelemetry, bind_eq_ok, returnIf_eq_ok, Bool.not_eq_true,
    Option.isNone_eq_false_iff] at h
  obtain ⟨_, _, _, hzero, _, hdevice, hnext⟩ := h
  exact ⟨hzero, hdevice, (Prod.mk.inj (Except.ok.inj hnext)).2.symm⟩

/-- The command that `createCommand` makes. -/
def newCommand (s : MemoryStore) (tenantID deviceID payload : Bytes) (now later : Time) : Command :=
  ⟨numberedID (s.commandSeq + 1), tenantID, deviceID, .published, payload, now, later, 0, zeroTime,
    none⟩

/-- The store with a new command, and its key if it has one. -/
def withCommand (s : MemoryStore) (cmd : Command) (key : Bytes) : MemoryStore :=
  { s with
    commandSeq := s.commandSeq + 1
    commands := s.commands.put cmd
    commandKeys := if key = [] then s.commandKeys else s.commandKeys.put (cmd.id, key) }

/-- The calls that succeed: a command that has the key is returned, or a new one is made. -/
theorem createCommandWithKey_eq_ok {tenantID deviceID key payload : Bytes} {now later : Time}
    {s next : MemoryStore} {cmd : Command} :
    s.createCommandWithKey go decodeAny tenantID deviceID key payload now later = .ok (cmd, next) ↔
      validateCommandInput go tenantID deviceID payload = .ok () ∧
      validateIdempotencyKey key = .ok () ∧
      ∃ value, decodeAny (orEmptyObject payload) = .ok value ∧
        ((s.keyHolder tenantID key = some cmd ∧ cmd.deviceID = deviceID ∧
            (decodeAny cmd.payload).toOption = some value ∧ next = s) ∨
          (s.keyHolder tenantID key = none ∧
            (s.devices.find? (deviceKey tenantID deviceID)).isSome ∧
            cmd = s.newCommand tenantID deviceID (orEmptyObject payload) now later ∧
            next = s.withCommand cmd key)) := by
  have hcreate : ∀ {payload : Bytes} {made : Command × MemoryStore},
      s.createCommand tenantID deviceID payload now later = .ok made ↔
        (s.devices.find? (deviceKey tenantID deviceID)).isSome ∧
        made = (s.newCommand tenantID deviceID payload now later,
          { s with
            commandSeq := s.commandSeq + 1
            commands := s.commands.put (s.newCommand tenantID deviceID payload now later) }) := by
    intro payload made
    simp only [createCommand, advanceCommandStatus, bind_eq_ok, returnIf_eq_ok, Bool.not_eq_true,
      Option.isNone_eq_false_iff, Except.ok.injEq]
    constructor
    · rintro ⟨_, hdevice, _, rfl, hmade⟩
      exact ⟨hdevice, (Except.ok.inj hmade).symm⟩
    · rintro ⟨hdevice, rfl⟩
      exact ⟨(), hdevice, _, rfl, rfl⟩
  simp only [createCommandWithKey, bind_eq_ok]
  constructor
  · rintro ⟨_, hinput, _, hkey, value, hvalue, h⟩
    refine ⟨hinput, hkey, value, hvalue, ?_⟩
    cases hholder : s.keyHolder tenantID key with
    | some holder =>
        rw [hholder] at h
        dsimp only at h
        split_ifs at h with hconflict
        rw [not_or, not_not, not_not] at hconflict
        obtain ⟨rfl, rfl⟩ := Prod.mk.inj (Except.ok.inj h)
        exact .inl ⟨rfl, hconflict.1, hconflict.2, rfl⟩
    | none =>
        rw [hholder] at h
        simp only [bind_eq_ok, hcreate] at h
        obtain ⟨made, ⟨hdevice, rfl⟩, h⟩ := h
        refine .inr ⟨rfl, hdevice, ?_⟩
        dsimp only at h
        split_ifs at h with hempty
        · obtain ⟨rfl, rfl⟩ := Prod.mk.inj (Except.ok.inj h)
          exact ⟨rfl, by rw [withCommand, if_pos hempty]⟩
        · obtain ⟨rfl, rfl⟩ := Prod.mk.inj (Except.ok.inj h)
          exact ⟨rfl, by rw [withCommand, if_neg hempty]⟩
  · rintro ⟨hinput, hkey, value, hvalue, h⟩
    refine ⟨(), hinput, (), hkey, value, hvalue, ?_⟩
    obtain ⟨hholder, hdevice, hsame, rfl⟩ | ⟨hholder, hdevice, rfl, rfl⟩ := h
    · have hconflict :
          ¬ (cmd.deviceID ≠ deviceID ∨ (decodeAny cmd.payload).toOption ≠ some value) := by
        rw [not_or, not_not, not_not]
        exact ⟨hdevice, hsame⟩
      simp only [hholder, if_neg hconflict]
      rfl
    · simp only [hholder, bind_eq_ok, hcreate]
      refine ⟨_, ⟨hdevice, rfl⟩, ?_⟩
      dsimp only
      split_ifs with hempty
      · rw [withCommand, if_pos hempty]
        rfl
      · rw [withCommand, if_neg hempty]
        rfl

/-- The calls that succeed: a command that has ended is returned as it is, and another one
advances. -/
theorem ackCommandResult_ok {id tenantID deviceID : Bytes} {input : CommandResult} {now : Time}
    {s next : MemoryStore} {cmd : Command}
    (h : s.ackCommandResult go decodeAny id tenantID deviceID input now = .ok (cmd, next)) :
    next = s ∨ ∃ before result status, s.commands.find? id = some before ∧
      before.status.terminal = false ∧ status.terminal ∧ status.text = result.status ∧
      cmd = { before with status := status, updatedAt := now, result := some result } ∧
      next = { s with commands := s.commands.put cmd } := by
  simp only [ackCommandResult, bind_eq_ok] at h
  obtain ⟨_, _, _, _, result, hresult, h⟩ := h
  obtain ⟨rfl, hreported⟩ := normalize_status hresult
  cases hfind : s.commands.find? id with
  | none =>
      rw [hfind] at h
      cases h
  | some before =>
      rw [hfind] at h
      dsimp only at h
      split_ifs at h with howner hended
      · cases hstored : before.result with
        | none =>
            rw [hstored] at h
            exact .inl (Prod.mk.inj (Except.ok.inj h)).2.symm
        | some stored =>
            rw [hstored] at h
            dsimp only at h
            split_ifs at h
            exact .inl (Prod.mk.inj (Except.ok.inj h)).2.symm
      · have hopen : before.status.terminal = false := by
          cases hstatus : before.status <;>
            simp_all [commandAlreadyDelivered, CommandStatus.terminal]
        cases hevent : commandEvent? input.status with
        | none =>
            rw [hevent] at h
            cases h
        | some event =>
            rw [hevent] at h
            simp only [bind_eq_ok] at h
            obtain ⟨status, hadvance, hcmd⟩ := h
            obtain ⟨rfl, rfl⟩ := Prod.mk.inj (Except.ok.inj hcmd)
            obtain ⟨hended, htext⟩ := advance_acknowledged hreported hevent hadvance
            refine .inr ⟨before, { input with payload := orEmptyObject input.payload }, status, rfl,
              hopen, ?_, htext, rfl, rfl⟩
            obtain ⟨rfl, _⟩ | ⟨rfl, _⟩ := hended <;> rfl

/-- What an operation can do to the commands of a store. -/
inductive CommandChange (s : MemoryStore) : MemoryOp → MemoryStore → Prop where
  | kept {op : MemoryOp} {next : MemoryStore} (hcommands : next.commands = s.commands)
      (hkeys : next.commandKeys = s.commandKeys) (hseq : next.commandSeq = s.commandSeq) :
      CommandChange s op next
  | created {tenantID deviceID key payload : Bytes} {now later : Time} {cmd : Command}
      (hholder : s.keyHolder tenantID key = none)
      (hcmd : cmd = s.newCommand tenantID deviceID (orEmptyObject payload) now later) :
      CommandChange s (.createCommandWithKey tenantID deviceID key payload now later)
        (s.withCommand cmd key)
  | advanced {op : MemoryOp} {before : Command} {status : CommandStatus} {now : Time}
      {result : CommandResult} (hfind : s.commands.find? before.id = some before)
      (hopen : before.status.terminal = false) (hended : status.terminal)
      (htext : status.text = result.status) :
      CommandChange s op { s with
        commands := s.commands.put
          { before with status := status, updatedAt := now, result := some result } }

/-- Every operation does one of these. -/
theorem step_commands (s : MemoryStore) (op : MemoryOp) :
    CommandChange s op (s.step go decodeAny op) := by
  cases op with
  | createTenant t =>
      rw [step]
      obtain hkept | ⟨_, next, hok, hnext⟩ := s.after_cases (s.createTenant t)
      · rw [hkept]
        exact .kept rfl rfl rfl
      · rw [hnext, createTenant_ok hok]
        exact .kept rfl rfl rfl
  | createDevice d now =>
      rw [step]
      obtain hkept | ⟨_, next, hok, hnext⟩ := s.after_cases (s.createDevice d now)
      · rw [hkept]
        exact .kept rfl rfl rfl
      · rw [hnext, (createDevice_ok hok).2.2]
        exact .kept rfl rfl rfl
  | restoreTelemetry rec =>
      rw [step]
      obtain hkept | ⟨_, next, hok, hnext⟩ := s.after_cases (s.restoreTelemetry rec)
      · rw [hkept]
        exact .kept rfl rfl rfl
      · rw [hnext, (restoreTelemetry_ok hok).2.2]
        exact .kept rfl rfl rfl
  | createCommandWithKey tenantID deviceID key payload now later =>
      rw [step]
      obtain hkept | ⟨_, next, hok, hnext⟩ := s.after_cases
        (s.createCommandWithKey go decodeAny tenantID deviceID key payload now later)
      · rw [hkept]
        exact .kept rfl rfl rfl
      · rw [hnext]
        obtain ⟨_, _, value, _, ⟨_, _, _, rfl⟩ | ⟨hholder, _, hcmd, rfl⟩⟩ :=
          createCommandWithKey_eq_ok.mp hok
        · exact .kept rfl rfl rfl
        · exact .created hholder hcmd
  | ackCommandResult id tenantID deviceID input now =>
      rw [step]
      obtain hkept | ⟨_, next, hok, hnext⟩ := s.after_cases
        (s.ackCommandResult go decodeAny id tenantID deviceID input now)
      · rw [hkept]
        exact .kept rfl rfl rfl
      · rw [hnext]
        obtain rfl | ⟨before, result, status, hfind, hopen, hended, htext, rfl, rfl⟩ :=
          ackCommandResult_ok hok
        · exact .kept rfl rfl rfl
        · have hid := Table.key_of_find? hfind
          exact .advanced (hid.symm ▸ hfind) hopen hended htext

/-! ## The invariant -/

/-- Numbers are told apart by their ids. -/
theorem numberedID_injective {n m : Nat} (h : numberedID n = numberedID m) : n = m :=
  Int.ofNat.inj (decimal_injective (List.append_cancel_left h))

/-- The commands of a store: their ids are numbered, keys are those of commands, no two commands of
a tenant have the same key, and a command with a result has the status of the result. -/
structure Sound (s : MemoryStore) : Prop where
  numbered : ∀ id cmd, s.commands.find? id = some cmd → ∃ n ≤ s.commandSeq, id = numberedID n
  keyed : ∀ id, s.keyOf id ≠ [] → (s.commands.find? id).isSome
  single : ∀ cmd other, s.commands.find? cmd.id = some cmd →
    s.commands.find? other.id = some other →
    cmd.tenantID = other.tenantID → s.keyOf cmd.id = s.keyOf other.id → s.keyOf cmd.id ≠ [] →
    cmd.id = other.id
  ended : ∀ id cmd result, s.commands.find? id = some cmd → cmd.result = some result →
    cmd.status.terminal ∧ cmd.status.text = result.status

theorem sound_new (ttl : Time) : (newMemoryStore ttl).Sound where
  numbered id cmd h := by cases h
  keyed id h := absurd rfl h
  single cmd other h := by cases h
  ended id cmd result h := by cases h

/-- The number of the next command is free. -/
theorem Sound.fresh {s : MemoryStore} (h : s.Sound) :
    s.commands.find? (numberedID (s.commandSeq + 1)) = none := by
  cases hfind : s.commands.find? (numberedID (s.commandSeq + 1)) with
  | none => rfl
  | some cmd =>
      obtain ⟨n, hn, hid⟩ := h.numbered _ _ hfind
      have := numberedID_injective hid
      omega

/-- It has no key either. -/
theorem Sound.fresh_key {s : MemoryStore} (h : s.Sound) :
    s.keyOf (numberedID (s.commandSeq + 1)) = [] := by
  by_contra hkey
  have hsome := h.keyed _ hkey
  rw [h.fresh] at hsome
  cases hsome

/-- The keys after a command was added. -/
theorem keyOf_withCommand {s : MemoryStore} (cmd : Command) (key id : Bytes)
    (hfresh : s.keyOf cmd.id = []) :
    (s.withCommand cmd key).keyOf id = if cmd.id = id then key else s.keyOf id := by
  unfold keyOf withCommand
  dsimp only
  by_cases hempty : key = []
  · rw [if_pos hempty]
    split_ifs with hid
    · rw [← hid, hempty]
      exact hfresh
    · rfl
  · rw [if_neg hempty, Table.find?_put]
    show (Option.map Prod.snd (if cmd.id = id then _ else _)).getD [] = _
    split_ifs <;> rfl

/-- The command that holds a key. -/
theorem keyHolder_eq_some {s : MemoryStore} {tenantID key : Bytes} {cmd : Command}
    (h : s.keyHolder tenantID key = some cmd) :
    key ≠ [] ∧ s.commands.find? cmd.id = some cmd ∧ cmd.tenantID = tenantID ∧
      s.keyOf cmd.id = key := by
  unfold keyHolder at h
  split_ifs at h with hempty
  have hmem := List.mem_of_find?_eq_some h
  have hprop := List.find?_some h
  rw [decide_eq_true_eq] at hprop
  exact ⟨hempty, (s.commands.find?_eq_some_iff _ _).mpr ⟨hmem, rfl⟩, hprop⟩

/-- No command holds a key. -/
theorem keyHolder_eq_none {s : MemoryStore} {tenantID key : Bytes}
    (h : s.keyHolder tenantID key = none) (hkey : key ≠ []) {cmd : Command}
    (hcmd : s.commands.find? cmd.id = some cmd) (htenant : cmd.tenantID = tenantID) :
    s.keyOf cmd.id ≠ key := by
  unfold keyHolder at h
  rw [if_neg hkey, List.find?_eq_none] at h
  intro heq
  exact h cmd ((s.commands.find?_eq_some_iff _ _).mp hcmd).1 (decide_eq_true ⟨htenant, heq⟩)

/-- In a sound store a command with a key is the one that holds it. -/
theorem Sound.keyHolder_eq {s : MemoryStore} (h : s.Sound) {cmd : Command}
    (hcmd : s.commands.find? cmd.id = some cmd) (hkey : s.keyOf cmd.id ≠ []) :
    s.keyHolder cmd.tenantID (s.keyOf cmd.id) = some cmd := by
  cases hholder : s.keyHolder cmd.tenantID (s.keyOf cmd.id) with
  | none => exact absurd rfl (keyHolder_eq_none hholder hkey hcmd rfl)
  | some other =>
      obtain ⟨_, hother, htenant, hsame⟩ := keyHolder_eq_some hholder
      have hid := h.single cmd other hcmd hother htenant.symm hsame.symm hkey
      rw [hid, hother] at hcmd
      exact hcmd

/-- Every operation keeps the invariant. -/
theorem sound_step {s : MemoryStore} (h : s.Sound) (op : MemoryOp) :
    (s.step go decodeAny op).Sound := by
  have hchange := @step_commands go Value _ decodeAny s op
  generalize s.step go decodeAny op = next at hchange
  cases hchange with
  | kept hcommands hkeys hseq =>
      have hkeyOf : ∀ id, next.keyOf id = s.keyOf id := fun id => by rw [keyOf, keyOf, hkeys]
      refine ⟨?_, ?_, ?_, hcommands ▸ h.ended⟩
      · rw [hcommands, hseq]
        exact h.numbered
      · intro id
        rw [hcommands, hkeyOf]
        exact h.keyed id
      · intro cmd other
        rw [hcommands, hkeyOf, hkeyOf]
        exact h.single cmd other
  | @created tenantID deviceID key payload now later cmd hholder hcmd =>
      have hid : cmd.id = numberedID (s.commandSeq + 1) := by rw [hcmd]; rfl
      have hfresh : s.keyOf cmd.id = [] := by rw [hid]; exact h.fresh_key
      have hfind : ∀ id, (s.withCommand cmd key).commands.find? id =
          if cmd.id = id then some cmd else s.commands.find? id := fun id =>
        Table.find?_put s.commands cmd id
      refine ⟨?_, ?_, ?_, ?_⟩
      · intro id other hother
        rw [hfind] at hother
        split_ifs at hother with hsame
        · exact ⟨s.commandSeq + 1, Nat.le_refl _, hsame.symm.trans hid⟩
        · obtain ⟨n, hn, hnumber⟩ := h.numbered id other hother
          exact ⟨n, Nat.le_succ_of_le hn, hnumber⟩
      · intro id hkey
        rw [keyOf_withCommand cmd key id hfresh] at hkey
        rw [hfind]
        split_ifs at hkey ⊢ with hsame
        · rfl
        · exact h.keyed id hkey
      · -- a command found is the new one or an old one, and no old one of the tenant has the key
        have hfound : ∀ {c : Command}, (s.withCommand cmd key).commands.find? c.id = some c →
            c = cmd ∨ (cmd.id ≠ c.id ∧ s.commands.find? c.id = some c) := by
          intro c hc
          rw [hfind] at hc
          split_ifs at hc with hsame
          · exact .inl (Option.some.inj hc).symm
          · exact .inr ⟨hsame, hc⟩
        have hnone : ∀ {c : Command}, cmd.id ≠ c.id → s.commands.find? c.id = some c →
            c.tenantID = cmd.tenantID → key ≠ [] → key ≠ s.keyOf c.id := by
          intro c _ hc htenant hkey heq
          have htenant' : c.tenantID = tenantID := by rw [htenant, hcmd]; rfl
          exact keyHolder_eq_none hholder hkey hc htenant' heq.symm
        intro c other hc hother htenant hsame hkey
        rw [keyOf_withCommand cmd key _ hfresh] at hsame hkey
        rw [keyOf_withCommand cmd key _ hfresh] at hsame
        obtain rfl | ⟨hne, hold⟩ := hfound hc
        · rw [if_pos rfl] at hkey hsame
          obtain rfl | ⟨hne', hold'⟩ := hfound hother
          · rfl
          · rw [if_neg hne'] at hsame
            exact absurd hsame (hnone hne' hold' htenant.symm hkey)
        · rw [if_neg hne] at hkey hsame
          obtain rfl | ⟨hne', hold'⟩ := hfound hother
          · rw [if_pos rfl] at hsame
            exact absurd hsame.symm (hnone hne hold htenant (hsame ▸ hkey))
          · rw [if_neg hne'] at hsame
            exact h.single c other hold hold' htenant hsame hkey
      · intro id c result hc hresult
        rw [hfind] at hc
        split_ifs at hc with hsame
        · obtain rfl := Option.some.inj hc
          rw [hcmd] at hresult
          cases hresult
        · exact h.ended id c result hc hresult
  | @advanced _ before status now result hfind hopen hended htext =>
      -- a command found was there before, with the same id and tenant
      have hfound : ∀ {id : Bytes} {c : Command}, (s.commands.put
          { before with status := status, updatedAt := now, result := some result }).find? id =
            some c → ∃ old, s.commands.find? id = some old ∧ old.tenantID = c.tenantID := by
        intro id c hc
        rw [Table.find?_put] at hc
        split_ifs at hc with hsame
        · obtain rfl := Option.some.inj hc
          exact ⟨before, hsame ▸ hfind, rfl⟩
        · exact ⟨c, hc, rfl⟩
      refine ⟨?_, ?_, ?_, ?_⟩
      · intro id c hc
        obtain ⟨old, hold, _⟩ := hfound hc
        exact h.numbered id old hold
      · intro id hkey
        have hsome := h.keyed id hkey
        show ((s.commands.put _).find? id).isSome
        rw [Table.find?_put]
        split_ifs
        · rfl
        · exact hsome
      · intro c other hc hother htenant hsame hkey
        obtain ⟨old, hold, hold_tenant⟩ := hfound hc
        obtain ⟨old', hold', hold_tenant'⟩ := hfound hother
        have hid := Table.key_of_find? hold
        have hid' := Table.key_of_find? hold'
        rw [← hid] at hold hsame hkey ⊢
        rw [← hid'] at hold' hsame ⊢
        exact h.single old old' hold hold' (by rw [hold_tenant, hold_tenant', htenant]) hsame hkey
      · intro id c other hc hother
        have hc' : (s.commands.put { before with
            status := status, updatedAt := now, result := some result }).find? id = some c := hc
        rw [Table.find?_put] at hc'
        split_ifs at hc' with hsame
        · obtain rfl := Option.some.inj hc'
          obtain rfl := Option.some.inj hother
          exact ⟨hended, htext⟩
        · exact h.ended id c other hc' hother

/-! ## What later operations leave -/

/-- What was asked for with a command. -/
structure SameCall (cmd other : Command) : Prop where
  id : other.id = cmd.id
  tenantID : other.tenantID = cmd.tenantID
  deviceID : other.deviceID = cmd.deviceID
  payload : other.payload = cmd.payload
  createdAt : other.createdAt = cmd.createdAt

/-- Commands stay with what was asked for and their keys, and do not change once they have ended. -/
def Keeps (s next : MemoryStore) : Prop :=
  ∀ id cmd, s.commands.find? id = some cmd → ∃ later, next.commands.find? id = some later ∧
    SameCall cmd later ∧ next.keyOf id = s.keyOf id ∧ (cmd.status.terminal → later = cmd)

theorem keeps_refl (s : MemoryStore) : Keeps s s :=
  fun _ cmd h => ⟨cmd, h, ⟨rfl, rfl, rfl, rfl, rfl⟩, rfl, fun _ => rfl⟩

theorem keeps_trans {first second third : MemoryStore} (h : Keeps first second)
    (hnext : Keeps second third) : Keeps first third := by
  intro id cmd hcmd
  obtain ⟨mid, hmid, hsame, hkey, hended⟩ := h id cmd hcmd
  obtain ⟨last, hlast, hsame', hkey', hended'⟩ := hnext id mid hmid
  refine ⟨last, hlast, ⟨?_, ?_, ?_, ?_, ?_⟩, hkey'.trans hkey, fun hterminal => ?_⟩
  · rw [hsame'.id, hsame.id]
  · rw [hsame'.tenantID, hsame.tenantID]
  · rw [hsame'.deviceID, hsame.deviceID]
  · rw [hsame'.payload, hsame.payload]
  · rw [hsame'.createdAt, hsame.createdAt]
  · obtain rfl := hended hterminal
    exact hended' hterminal

/-- An operation keeps the commands. -/
theorem keeps_step {s : MemoryStore} (h : s.Sound) (op : MemoryOp) :
    Keeps s (s.step go decodeAny op) := by
  have hchange := @step_commands go Value _ decodeAny s op
  generalize s.step go decodeAny op = next at hchange
  intro id cmd hcmd
  cases hchange with
  | kept hcommands hkeys hseq =>
      refine ⟨cmd, hcommands ▸ hcmd, ⟨rfl, rfl, rfl, rfl, rfl⟩, ?_, fun _ => rfl⟩
      rw [keyOf, keyOf, hkeys]
  | @created tenantID deviceID key payload now later new hholder hnew =>
      have hid : new.id = numberedID (s.commandSeq + 1) := by rw [hnew]; rfl
      have hne : new.id ≠ id := by
        intro heq
        rw [← heq, hid, h.fresh] at hcmd
        cases hcmd
      refine ⟨cmd, ?_, ⟨rfl, rfl, rfl, rfl, rfl⟩, ?_, fun _ => rfl⟩
      · show (s.commands.put new).find? id = some cmd
        rw [Table.find?_put, if_neg hne, hcmd]
      · rw [keyOf_withCommand new key id (by rw [hid]; exact h.fresh_key), if_neg hne]
  | @advanced _ before status now result hfind hopen hended htext =>
      by_cases hsame : before.id = id
      · rw [hsame, hcmd] at hfind
        obtain rfl := Option.some.inj hfind
        refine ⟨{ cmd with status := status, updatedAt := now, result := some result }, ?_,
          ⟨rfl, rfl, rfl, rfl, rfl⟩, rfl, fun hterminal => ?_⟩
        · show (s.commands.put _).find? id = _
          rw [Table.find?_put, if_pos hsame]
        · rw [hopen] at hterminal
          cases hterminal
      · refine ⟨cmd, ?_, ⟨rfl, rfl, rfl, rfl, rfl⟩, rfl, fun _ => rfl⟩
        show (s.commands.put _).find? id = some cmd
        rw [Table.find?_put, if_neg hsame, hcmd]

/-- So does a run, which also keeps the invariant. -/
theorem run_keeps {s : MemoryStore} (h : s.Sound) (ops : List MemoryOp) :
    (run (step go decodeAny) s ops).Sound ∧ Keeps s (run (step go decodeAny) s ops) := by
  have hstep : ∀ (state : MemoryStore) (op : MemoryOp), state.Sound →
      (state.step go decodeAny op).Sound := fun state op hstate => sound_step hstate op
  exact ⟨run_invariant Sound hstep h ops, run_related Sound Keeps hstep keeps_refl
    (fun _ _ _ => keeps_trans) (fun state op hstate => keeps_step hstate op) h ops⟩

/-- A request key stands for one request: after any run, a call that used it succeeds again with the
command it made, and no other request of the tenant succeeds with it. -/
theorem memory_keys_idempotent (ttl : Time) (ops more : List MemoryOp)
    {tenantID deviceID key payload : Bytes} {now later : Time} {cmd : Command}
    {s next : MemoryStore} (hs : s = run (step go decodeAny) (newMemoryStore ttl) ops)
    (hkey : key ≠ [])
    (h : s.createCommandWithKey go decodeAny tenantID deviceID key payload now later =
      .ok (cmd, next)) :
    (∀ now' later', ∃ again,
      (run (step go decodeAny) next more).createCommandWithKey go decodeAny tenantID deviceID key
        payload now' later' = .ok (again, run (step go decodeAny) next more) ∧
      SameCall cmd again) ∧
    ∀ deviceID' payload' now' later' other after,
      (run (step go decodeAny) next more).createCommandWithKey go decodeAny tenantID deviceID' key
        payload' now' later' = .ok (other, after) →
      after = run (step go decodeAny) next more ∧ SameCall cmd other ∧ deviceID' = deviceID ∧
      (decodeAny (orEmptyObject payload')).toOption =
        (decodeAny (orEmptyObject payload)).toOption := by
  have hsound : s.Sound := by
    rw [hs]
    exact (run_keeps (sound_new ttl) ops).1
  obtain ⟨hinput, hvalid, value, hvalue, hcases⟩ := createCommandWithKey_eq_ok.mp h
  -- the command of the first call is in the store after it, with the key
  obtain ⟨hnext, hfind, htenant, hheld, hdevice, hpayload⟩ : next.Sound ∧
      next.commands.find? cmd.id = some cmd ∧ cmd.tenantID = tenantID ∧ next.keyOf cmd.id = key ∧
      cmd.deviceID = deviceID ∧ (decodeAny cmd.payload).toOption = some value := by
    have hstep := @sound_step go Value _ decodeAny s hsound
      (.createCommandWithKey tenantID deviceID key payload now later)
    rw [step, h] at hstep
    obtain ⟨hholder, hdevice, hsame, rfl⟩ | ⟨hholder, hexists, hcmd, rfl⟩ := hcases
    · obtain ⟨_, hfind, htenant, hheld⟩ := keyHolder_eq_some hholder
      exact ⟨hsound, hfind, htenant, hheld, hdevice, hsame⟩
    · have hid : cmd.id = numberedID (s.commandSeq + 1) := by rw [hcmd]; rfl
      refine ⟨hstep, ?_, ?_, ?_, ?_, ?_⟩
      · show (s.commands.put cmd).find? cmd.id = some cmd
        rw [Table.find?_put, if_pos rfl]
      · rw [hcmd]
        rfl
      · rw [keyOf_withCommand cmd key _ (by rw [hid]; exact hsound.fresh_key), if_pos rfl]
      · rw [hcmd]
        rfl
      · rw [hcmd]
        show (decodeAny (orEmptyObject payload)).toOption = some value
        rw [hvalue]
        rfl
  -- it is still there after the run, and it is the one that holds the key
  obtain ⟨hlast, hkeeps⟩ := @run_keeps go Value _ decodeAny next hnext more
  generalize run (step go decodeAny) next more = last at hlast hkeeps
  obtain ⟨again, hagain, hsame, hkeyed, _⟩ := hkeeps cmd.id cmd hfind
  have hholder : last.keyHolder tenantID key = some again := by
    rw [← hsame.id] at hagain hkeyed
    have hholds := hlast.keyHolder_eq hagain (by rw [hkeyed, hsame.id, hheld]; exact hkey)
    rwa [hkeyed, hsame.id, hheld, hsame.tenantID, htenant] at hholds
  constructor
  · intro now' later'
    refine ⟨again, createCommandWithKey_eq_ok.mpr ⟨hinput, hvalid, value, hvalue, .inl
      ⟨hholder, hsame.deviceID.trans hdevice, ?_, rfl⟩⟩, hsame⟩
    rw [hsame.payload, hpayload]
  · intro deviceID' payload' now' later' other after hother
    obtain ⟨_, _, value', hvalue', hcases'⟩ := createCommandWithKey_eq_ok.mp hother
    obtain ⟨hholder', hdevice', hpayload', rfl⟩ | ⟨hholder', _⟩ := hcases'
    · obtain rfl := Option.some.inj (hholder.symm.trans hholder')
      refine ⟨rfl, hsame, ?_, ?_⟩
      · rw [← hdevice', hsame.deviceID, hdevice]
      · have hequal : value' = value := by
          refine Option.some.inj ?_
          rw [← hpayload', hsame.payload, hpayload]
        rw [hvalue', hvalue, hequal]
    · rw [hholder] at hholder'
      cases hholder'

/-- A tenant with one device. -/
def onePump : List MemoryOp :=
  [.createTenant ⟨ascii "acme", ascii "Acme"⟩,
    .createDevice ⟨ascii "acme", ascii "pump", ascii "p1", ascii "secret", 0⟩ 1]

/-- The acknowledgement of the first command. -/
def ackFirst : MemoryOp :=
  .ackCommandResult (ascii "cmd-1") (ascii "acme") (ascii "pump") ⟨ascii "acked", [], []⟩ 3

/-- A request that is made again after its command was acknowledged. -/
theorem memory_keys_idempotent_pump : ∃ cmd again next,
    createCommandWithKey GoRuntime.plain Except.ok (ascii "acme") (ascii "pump") (ascii "k") [] 2 2
      (run (step GoRuntime.plain Except.ok) (newMemoryStore 60) onePump) = .ok (cmd, next) ∧
    createCommandWithKey GoRuntime.plain Except.ok (ascii "acme") (ascii "pump") (ascii "k") [] 4 4
      (run (step GoRuntime.plain Except.ok) next [ackFirst]) =
        .ok (again, run (step GoRuntime.plain Except.ok) next [ackFirst]) ∧
    SameCall cmd again := by
  have hok : (createCommandWithKey GoRuntime.plain Except.ok (ascii "acme") (ascii "pump")
      (ascii "k") [] 2 2
      (run (step GoRuntime.plain Except.ok) (newMemoryStore 60) onePump)).toBool = true := by
    decide +kernel
  cases hmade : createCommandWithKey GoRuntime.plain Except.ok (ascii "acme") (ascii "pump")
      (ascii "k") [] 2 2 (run (step GoRuntime.plain Except.ok) (newMemoryStore 60) onePump) with
  | error err =>
      rw [hmade] at hok
      cases hok
  | ok made =>
      obtain ⟨hagain, _⟩ := memory_keys_idempotent 60 onePump [ackFirst] rfl (by decide) hmade
      obtain ⟨again, hcall, hsame⟩ := hagain 4 4
      exact ⟨made.1, again, made.2, rfl, hcall, hsame⟩

/-- The first result of a command stays: after any run it is returned as it was recorded. -/
theorem memory_first_result (ttl : Time) (ops more : List MemoryOp) {id : Bytes} {cmd : Command}
    {result : CommandResult}
    (h : (run (step go decodeAny) (newMemoryStore ttl) ops).commands.find? id = some cmd)
    (hresult : cmd.result = some result) :
    cmd.status.text = result.status ∧
    (run (step go decodeAny) (newMemoryStore ttl) (ops ++ more)).commands.find? id = some cmd := by
  obtain ⟨hsound, _⟩ := @run_keeps go Value _ decodeAny _ (sound_new ttl) ops
  obtain ⟨hterminal, htext⟩ := hsound.ended id cmd result h hresult
  obtain ⟨_, hkeeps⟩ := @run_keeps go Value _ decodeAny _ hsound more
  obtain ⟨later, hlater, _, _, hended⟩ := hkeeps id cmd h
  rw [Execution.run_append]
  exact ⟨htext, by rw [hlater, hended hterminal]⟩

/-- A command that is made and acknowledged. -/
def acknowledged : List MemoryOp :=
  onePump ++ [.createCommandWithKey (ascii "acme") (ascii "pump") [] [] 2 2, ackFirst]

/-- The failure of a command that was acknowledged. -/
def failFirst : MemoryOp :=
  .ackCommandResult (ascii "cmd-1") (ascii "acme") (ascii "pump") ⟨ascii "failed", [], []⟩ 5

/-- A second result does not replace the first. -/
theorem memory_first_result_pump : ∃ cmd,
    (run (step GoRuntime.plain Except.ok) (newMemoryStore 60) acknowledged).commands.find?
      (ascii "cmd-1") = some cmd ∧ cmd.result.isSome ∧
    (run (step GoRuntime.plain Except.ok) (newMemoryStore 60)
      (acknowledged ++ [failFirst])).commands.find? (ascii "cmd-1") = some cmd := by
  have hresult : ((run (step GoRuntime.plain Except.ok) (newMemoryStore 60)
      acknowledged).commands.find? (ascii "cmd-1")).any (fun cmd => cmd.result.isSome) = true := by
    decide +kernel
  cases hcmd : (run (step GoRuntime.plain Except.ok) (newMemoryStore 60)
      acknowledged).commands.find? (ascii "cmd-1") with
  | none =>
      rw [hcmd] at hresult
      cases hresult
  | some cmd =>
      rw [hcmd] at hresult
      obtain ⟨result, hsome⟩ := Option.isSome_iff_exists.mp hresult
      exact ⟨cmd, rfl, hresult, (memory_first_result 60 acknowledged [failFirst] hcmd hsome).2⟩

/-! ## Liveness -/

/-- What an operation can do to the devices and their telemetry. -/
inductive TelemetryChange (s : MemoryStore) : MemoryOp → MemoryStore → Prop where
  | kept {op : MemoryOp} {next : MemoryStore} (hdevices : next.devices = s.devices)
      (hstatuses : next.statuses = s.statuses) (htelemetry : next.telemetry = s.telemetry) :
      TelemetryChange s op next
  | device {d : Device} {now : Time} (hvalid : isValidTenantID d.tenantID)
      (hnew : s.devices.find? (deviceKey d.tenantID d.deviceID) = none) :
      TelemetryChange s (.createDevice d now) { s with
        devices := s.devices.put { d with createdAt := now }
        statuses := s.statuses.put ⟨d.tenantID, d.deviceID, false, zeroTime⟩ }
  | stored {rec : TelemetryRecord} (hreceived : rec.receivedAt ≠ zeroTime)
      (hdevice : (s.devices.find? (recordKey rec)).isSome) :
      TelemetryChange s (.restoreTelemetry rec) { s with
        telemetry := s.telemetry ++ [rec], statuses := observe rec s.statuses }

/-- Every operation does one of these. -/
theorem step_telemetry (s : MemoryStore) (op : MemoryOp) :
    TelemetryChange s op (s.step go decodeAny op) := by
  cases op with
  | createTenant t =>
      rw [step]
      obtain hkept | ⟨_, next, hok, hnext⟩ := s.after_cases (s.createTenant t)
      · rw [hkept]
        exact .kept rfl rfl rfl
      · rw [hnext, createTenant_ok hok]
        exact .kept rfl rfl rfl
  | createDevice d now =>
      rw [step]
      obtain hkept | ⟨_, next, hok, hnext⟩ := s.after_cases (s.createDevice d now)
      · rw [hkept]
        exact .kept rfl rfl rfl
      · obtain ⟨hvalid, hnew, rfl⟩ := createDevice_ok hok
        rw [hnext]
        exact .device hvalid hnew
  | restoreTelemetry rec =>
      rw [step]
      obtain hkept | ⟨_, next, hok, hnext⟩ := s.after_cases (s.restoreTelemetry rec)
      · rw [hkept]
        exact .kept rfl rfl rfl
      · obtain ⟨hreceived, hdevice, rfl⟩ := restoreTelemetry_ok hok
        rw [hnext]
        exact .stored hreceived hdevice
  | createCommandWithKey tenantID deviceID key payload now later =>
      rw [step]
      obtain hkept | ⟨_, next, hok, hnext⟩ := s.after_cases
        (s.createCommandWithKey go decodeAny tenantID deviceID key payload now later)
      · rw [hkept]
        exact .kept rfl rfl rfl
      · rw [hnext]
        obtain ⟨_, _, _, _, ⟨_, _, _, rfl⟩ | ⟨_, _, _, rfl⟩⟩ := createCommandWithKey_eq_ok.mp hok
        · exact .kept rfl rfl rfl
        · exact .kept rfl rfl rfl
  | ackCommandResult id tenantID deviceID input now =>
      rw [step]
      obtain hkept | ⟨_, next, hok, hnext⟩ := s.after_cases
        (s.ackCommandResult go decodeAny id tenantID deviceID input now)
      · rw [hkept]
        exact .kept rfl rfl rfl
      · rw [hnext]
        obtain rfl | ⟨_, _, _, _, _, _, _, _, rfl⟩ := ackCommandResult_ok hok
        · exact .kept rfl rfl rfl
        · exact .kept rfl rfl rfl

/-- A status is that of the record received last, or of none. -/
def Summarises (status : DeviceStatus) (records : List TelemetryRecord) : Prop :=
  (records = [] ∧ status.online = false ∧ status.lastSeenAt = zeroTime) ∨
  ∃ rec ∈ records, status.online = true ∧ status.lastSeenAt = rec.receivedAt ∧
    ∀ other ∈ records, other.receivedAt ≤ rec.receivedAt

/-- Devices and statuses belong together, telemetry is that of devices, and each status is that of
the telemetry of its device. -/
structure Observed (s : MemoryStore) : Prop where
  located : ∀ rec ∈ s.telemetry, rec.receivedAt ≠ zeroTime ∧
    (s.devices.find? (recordKey rec)).isSome
  registered : ∀ key, (s.devices.find? key).isSome → (s.statuses.find? key).isSome
  summary : ∀ key status, s.statuses.find? key = some status →
    Summarises status (s.telemetry.filter fun rec => recordKey rec == key)

theorem observed_new (ttl : Time) : (newMemoryStore ttl).Observed where
  located rec h := by cases h
  registered key h := by cases h
  summary key status h := by cases h

/-- A later record is adopted, and an earlier one is not. -/
theorem summarises_append {status : DeviceStatus} {records : List TelemetryRecord}
    {rec : TelemetryRecord} (h : Summarises status records)
    (hreceived : ∀ other ∈ records, other.receivedAt ≠ zeroTime) :
    Summarises
      (if status.lastSeenAt = zeroTime ∨ status.lastSeenAt < rec.receivedAt then
        ⟨rec.tenantID, rec.deviceID, true, rec.receivedAt⟩ else status) (records ++ [rec]) := by
  obtain ⟨rfl, honline, hzero⟩ | ⟨last, hlast, honline, hseen, hlatest⟩ := h
  · rw [if_pos (.inl hzero)]
    refine .inr ⟨rec, by simp, rfl, rfl, fun other hother => ?_⟩
    rw [List.nil_append, List.mem_singleton] at hother
    rw [hother]
  · have hnonzero : status.lastSeenAt ≠ zeroTime := hseen ▸ hreceived last hlast
    split_ifs with hadopt
    · have hlt : last.receivedAt < rec.receivedAt := hseen ▸ hadopt.resolve_left hnonzero
      refine .inr ⟨rec, by simp, rfl, rfl, fun other hother => ?_⟩
      rw [List.mem_append, List.mem_singleton] at hother
      obtain hother | rfl := hother
      · exact Int.le_of_lt (Int.lt_of_le_of_lt (hlatest other hother) hlt)
      · exact Int.le_refl _
    · rw [not_or, hseen] at hadopt
      refine .inr ⟨last, by simp [hlast], honline, hseen, fun other hother => ?_⟩
      rw [List.mem_append, List.mem_singleton] at hother
      obtain hother | rfl := hother
      · exact hlatest other hother
      · exact Int.not_lt.mp hadopt.2

/-- The statuses after a record of a device that has one. -/
theorem find?_observe {rec : TelemetryRecord} {statuses : Table DeviceStatus.mapKey}
    {status : DeviceStatus} (h : statuses.find? (recordKey rec) = some status) (key : Bytes) :
    (observe rec statuses).find? key =
      if recordKey rec = key then
        some (if status.lastSeenAt = zeroTime ∨ status.lastSeenAt < rec.receivedAt then
          ⟨rec.tenantID, rec.deviceID, true, rec.receivedAt⟩ else status)
      else statuses.find? key := by
  unfold observe
  simp only [h, Option.map_some, Option.getD_some]
  by_cases hadopt : status.lastSeenAt = zeroTime ∨ status.lastSeenAt < rec.receivedAt
  · rw [if_pos hadopt, if_pos hadopt, Table.find?_put]
    rfl
  · rw [if_neg hadopt, if_neg hadopt]
    split_ifs with hkey
    · rw [← hkey, h]
    · rfl

/-- Every operation keeps the statuses those of the telemetry. -/
theorem observed_step {s : MemoryStore} (h : s.Observed) (op : MemoryOp) :
    (s.step go decodeAny op).Observed := by
  have hchange := @step_telemetry go Value _ decodeAny s op
  generalize s.step go decodeAny op = next at hchange
  cases hchange with
  | kept hdevices hstatuses htelemetry =>
      refine ⟨?_, ?_, ?_⟩
      · rw [hdevices, htelemetry]
        exact h.located
      · rw [hdevices, hstatuses]
        exact h.registered
      · rw [hstatuses, htelemetry]
        exact h.summary
  | @device d now hvalid hnew =>
      have hfind : ∀ key, (s.devices.put { d with createdAt := now }).find? key =
          if deviceKey d.tenantID d.deviceID = key then some { d with createdAt := now }
          else s.devices.find? key := fun key => Table.find?_put _ _ key
      have hstatus : ∀ key, (s.statuses.put ⟨d.tenantID, d.deviceID, false, zeroTime⟩).find? key =
          if deviceKey d.tenantID d.deviceID = key then
            some ⟨d.tenantID, d.deviceID, false, zeroTime⟩
          else s.statuses.find? key := fun key => Table.find?_put _ _ key
      refine ⟨?_, ?_, ?_⟩
      · intro rec hrec
        refine ⟨(h.located rec hrec).1, ?_⟩
        show ((s.devices.put _).find? (recordKey rec)).isSome
        rw [hfind]
        split_ifs
        · rfl
        · exact (h.located rec hrec).2
      · intro key hkey
        have hkey' : ((s.devices.put { d with createdAt := now }).find? key).isSome := hkey
        show ((s.statuses.put _).find? key).isSome
        rw [hfind] at hkey'
        rw [hstatus]
        split_ifs at hkey' ⊢ with hsame
        · rfl
        · exact h.registered key hkey'
      · intro key status hfound
        have hfound' : (s.statuses.put ⟨d.tenantID, d.deviceID, false, zeroTime⟩).find? key =
          some status := hfound
        rw [hstatus] at hfound'
        split_ifs at hfound' with hsame
        · -- telemetry under this key would have been that of a device
          obtain rfl := Option.some.inj hfound'
          refine .inl ⟨?_, rfl, rfl⟩
          rw [List.filter_eq_nil_iff]
          intro rec hrec hkey
          have hdevice := (h.located rec hrec).2
          rw [beq_iff_eq.mp hkey, ← hsame, hnew] at hdevice
          cases hdevice
        · exact h.summary key status hfound'
  | @stored rec hreceived hdevice =>
      obtain ⟨status, hstatus⟩ := Option.isSome_iff_exists.mp (h.registered _ hdevice)
      refine ⟨?_, ?_, ?_⟩
      · intro other hother
        rw [List.mem_append, List.mem_singleton] at hother
        obtain hother | rfl := hother
        · exact h.located other hother
        · exact ⟨hreceived, hdevice⟩
      · intro key hkey
        show ((observe rec s.statuses).find? key).isSome
        rw [find?_observe hstatus]
        split_ifs
        · rfl
        · rfl
        · exact h.registered key hkey
      · intro key found hfound
        have hfound' : (observe rec s.statuses).find? key = some found := hfound
        rw [find?_observe hstatus] at hfound'
        show Summarises found ((s.telemetry ++ [rec]).filter fun other => recordKey other == key)
        rw [List.filter_append]
        by_cases hsame : recordKey rec = key
        · rw [if_pos hsame] at hfound'
          obtain rfl := Option.some.inj hfound'
          rw [show [rec].filter (fun other => recordKey other == key) = [rec] by simp [hsame]]
          exact summarises_append (h.summary key status (hsame ▸ hstatus)) fun other hother =>
            (h.located other (List.mem_of_mem_filter hother)).1
        · rw [if_neg hsame] at hfound'
          rw [show [rec].filter (fun other => recordKey other == key) = [] by simp [hsame],
            List.append_nil]
          exact h.summary key found hfound'

/-- The more time has passed, the longer it was ago. -/
theorem timeSince_anti {now t u : Time} (h : t ≤ u) : timeSince now u ≤ timeSince now t := by
  have hsub : (now - u : Int) ≤ now - t := Int.sub_le_sub_left h now
  exact max_le_max (Int.le_refl _) (min_le_min (Int.le_refl _) hsub)

/-- Durations below the largest are compared as the times are. -/
theorem timeSince_le_iff {now t : Time} {ttl : Int} (hlow : -maxDuration - 1 ≤ ttl)
    (hhigh : ttl < maxDuration) : timeSince now t ≤ ttl ↔ now - t ≤ ttl := by
  rw [timeSince, max_le_iff, min_le_iff]
  exact ⟨fun h => h.2.resolve_left (Int.not_le.mpr hhigh), fun h => ⟨hlow, .inr h⟩⟩

/-- After any run a device has a status, and it is online exactly while a record of it was received
no longer ago than the store waits for. `time.Since` does not count further than the largest
duration; a store that waits less is not affected. -/
theorem memory_online_iff (ttl : Time) (ops : List MemoryOp) {s : MemoryStore}
    (hs : s = run (step go decodeAny) (newMemoryStore ttl) ops) {tenantID deviceID : Bytes}
    (hdevice : (s.devices.find? (deviceKey tenantID deviceID)).isSome) (now : Time) :
    ∃ status, s.getDeviceStatus tenantID deviceID now = some status ∧
      (status.online ↔
        ∃ rec ∈ s.listTelemetry tenantID deviceID, timeSince now rec.receivedAt ≤ s.ttl) ∧
      (-maxDuration - 1 ≤ s.ttl → s.ttl < maxDuration → (status.online ↔
        ∃ rec ∈ s.listTelemetry tenantID deviceID, now - rec.receivedAt ≤ s.ttl)) := by
  have hobserved : s.Observed := by
    rw [hs]
    exact run_invariant Observed
      (fun (state : MemoryStore) op (hstate : state.Observed) => observed_step hstate op)
      (observed_new ttl) ops
  obtain ⟨status, hstatus⟩ := Option.isSome_iff_exists.mp (hobserved.registered _ hdevice)
  suffices hsince : (if status.lastSeenAt ≠ zeroTime ∧ timeSince now status.lastSeenAt > s.ttl then
      { status with online := false } else status).online ↔
        ∃ rec ∈ s.listTelemetry tenantID deviceID, timeSince now rec.receivedAt ≤ s.ttl by
    refine ⟨_, by rw [getDeviceStatus, hstatus]; rfl, hsince, fun hlow hhigh => ?_⟩
    rw [hsince]
    simp only [timeSince_le_iff hlow hhigh]
  obtain ⟨hnone, honline, hzero⟩ | ⟨last, hlast, honline, hseen, hlatest⟩ :=
    hobserved.summary _ status hstatus
  · rw [if_neg (by simp [hzero]), honline, listTelemetry, hnone]
    simp
  · have hnonzero : status.lastSeenAt ≠ zeroTime := by
      rw [hseen]
      exact (hobserved.located last (List.mem_of_mem_filter hlast)).1
    split_ifs with hexpired
    · rw [hseen] at hexpired
      refine ⟨fun h => (by cases h), ?_⟩
      rintro ⟨rec, hrec, hrecent⟩
      exact absurd hrecent
        (Int.not_le.mpr (Int.lt_of_lt_of_le hexpired.2 (timeSince_anti (hlatest rec hrec))))
    · rw [not_and] at hexpired
      have hle := hexpired hnonzero
      rw [hseen] at hle
      exact ⟨fun _ => ⟨last, hlast, Int.not_lt.mp hle⟩, fun _ => honline⟩

/-- The reading of one device. -/
def pumpReading (msgID : String) (receivedAt : Time) : TelemetryRecord :=
  ⟨ascii msgID, ascii "acme", ascii "pump", 0, ascii "report", ascii "1", ascii "\x7b\x7d", false,
    receivedAt⟩

/-- Two readings of the device, the older one received last. -/
def lateReadings : List MemoryOp :=
  onePump ++ [.restoreTelemetry (pumpReading "b" 40), .restoreTelemetry (pumpReading "a" 10)]

/-- The store after them. -/
def pumpStore : MemoryStore := run (step GoRuntime.plain Except.ok) (newMemoryStore 60) lateReadings

/-- The device is online sixty ticks after the newer reading. -/
theorem memory_online_iff_pump : ∃ status,
    pumpStore.getDeviceStatus (ascii "acme") (ascii "pump") 100 = some status ∧
    (status.online ↔ ∃ rec ∈ pumpStore.listTelemetry (ascii "acme") (ascii "pump"),
      100 - rec.receivedAt ≤ pumpStore.ttl) := by
  have hdevice : (pumpStore.devices.find? (deviceKey (ascii "acme") (ascii "pump"))).isSome =
      true := by
    decide +kernel
  have httl : -maxDuration - 1 ≤ pumpStore.ttl ∧ pumpStore.ttl < maxDuration := by decide +kernel
  obtain ⟨status, hstatus, -, honline⟩ := memory_online_iff 60 lateReadings rfl hdevice 100
  exact ⟨status, hstatus, honline httl.1 httl.2⟩

end MemoryStore

end Iot.Store
