import Iot.Contracts.Command
import Iot.Contracts.Envelope
import Iot.Text.TimeRoundtrip

/-!
# Commands and telemetry records

The records of `internal/platform/domain.go` with the JSON that `json.Marshal` writes for them,
and the check on the size of a command (`command_capacity.go`).
-/

namespace Iot.Platform

open Text Json Contracts

variable (go : GoRuntime)

/-- A `json.RawMessage` as `json.Marshal` writes it inside `depth` objects. -/
def rawValue (depth : Nat) (raw : Bytes) : Except GoError (List Tok) :=
  match rawToks depth raw with
  | some toks => .ok toks
  | none =>
      .error ⟨ascii "json: error calling MarshalJSON for type json.RawMessage: " ++
        go.syntaxText raw, []⟩

/-- The error of `json.Marshal` for a year that has not four digits. -/
def errYearRange : GoError :=
  .new ("json: error calling MarshalJSON for type time.Time: " ++
    "Time.MarshalJSON: year outside of range [0,9999]")

/-- The error of `json.Marshal` for an offset of a day or more. -/
def errZoneRange : GoError :=
  .new ("json: error calling MarshalJSON for type time.Time: " ++
    "Time.MarshalJSON: timezone hour outside of range [0,23]")

/-- A `time.Time` in UTC as `json.Marshal` writes it. -/
def timeValue (t : Time) : Except GoError (List Tok) :=
  match timeToks t with
  | some toks => .ok toks
  | none => .error errYearRange

/-- A `time.Time` at an offset as `json.Marshal` writes it. -/
def zonedValue (offset : Int) (t : Time) : Except GoError (List Tok) :=
  match rfc3339NanoAt offset t with
  | none => .error errYearRange
  | some s =>
      if 24 ≤ (offset.tdiv 60).natAbs / 60 then .error errZoneRange
      else .ok (plainTok s)

/-- What a time at an offset is written as. -/
theorem zonedValue_eq_ok {offset : Int} {t : Time} {toks : List Tok} :
    zonedValue offset t = .ok toks ↔ ∃ s, rfc3339NanoAt offset t = some s ∧
      (offset.tdiv 60).natAbs / 60 < 24 ∧ toks = plainTok s := by
  unfold zonedValue
  cases rfc3339NanoAt offset t with
  | none => simp
  | some s =>
      simp only [Option.some.injEq, exists_eq_left']
      split_ifs with hday
      · simp only [false_iff]
        rintro ⟨hless, _⟩
        omega
      · simp only [Except.ok.injEq, Nat.not_le.mp hday, true_and]
        exact eq_comm

/-- At the offset zero a time is written as one in UTC. -/
theorem zonedValue_zero (t : Time) : zonedValue 0 t = timeValue t := by
  unfold zonedValue timeValue
  rw [rfc3339NanoAt_zero, timeToks]
  cases rfc3339Nano t with
  | none => rfl
  | some clock => rfl

/-- A time can be written in UTC when its year has four digits. -/
theorem zonedValue_zero_isOk (t : Time) :
    (∃ toks, zonedValue 0 t = .ok toks) ↔ (rfc3339Nano t).isSome := by
  simp only [zonedValue_eq_ok, rfc3339NanoAt_zero]
  cases rfc3339Nano t <;> simp

/-- `Tenant`. -/
structure Tenant where
  id : Bytes
  name : Bytes
  deriving DecidableEq, Repr

/-- `Device`, with the secret its creator chose. -/
structure Device where
  tenantID : Bytes
  deviceID : Bytes
  productID : Bytes
  secret : Bytes
  createdAt : Time
  deriving DecidableEq, Repr

/-- `DeviceStatus`. -/
structure DeviceStatus where
  tenantID : Bytes
  deviceID : Bytes
  online : Bool
  lastSeenAt : Time
  deriving DecidableEq, Repr

/-- `TelemetryRecord`. `TDengineWritten` is not part of its JSON. -/
structure TelemetryRecord where
  msgID : Bytes
  tenantID : Bytes
  deviceID : Bytes
  ts : Int
  type : Bytes
  version : Bytes
  payload : Bytes
  tdengineWritten : Bool
  receivedAt : Time
  deriving DecidableEq, Repr

/-- The zero value. -/
def TelemetryRecord.zero : TelemetryRecord := ⟨[], [], [], 0, [], [], [], false, zeroTime⟩

/-- The members of a telemetry record in JSON, with its receive time at an offset. -/
def TelemetryRecord.toksAt (offset : Int) (rec : TelemetryRecord) : Except GoError (List Tok) := do
  let payload ← rawValue go 1 rec.payload
  let receivedAt ← zonedValue offset rec.receivedAt
  pure (object
    [("msgId", strTok rec.msgID), ("tenantId", strTok rec.tenantID),
      ("deviceId", strTok rec.deviceID), ("ts", intTok rec.ts), ("type", strTok rec.type),
      ("version", strTok rec.version), ("payload", payload), ("receivedAt", receivedAt)])

/-- `json.Marshal` of a telemetry record whose receive time is at an offset. -/
def TelemetryRecord.marshalAt (offset : Int) (rec : TelemetryRecord) : Except GoError Bytes :=
  (rec.toksAt go offset).map text

/-- `json.Marshal` of a telemetry record whose receive time is in UTC. -/
def TelemetryRecord.marshal (rec : TelemetryRecord) : Except GoError Bytes := rec.marshalAt go 0

/-- The fields of a telemetry record in JSON. -/
def TelemetryRecord.fields : List (RecordField TelemetryRecord) :=
  [strField "TelemetryRecord.msgId" "msgId" "string" fun v r => { r with msgID := v },
    strField "TelemetryRecord.tenantId" "tenantId" "string" fun v r => { r with tenantID := v },
    strField "TelemetryRecord.deviceId" "deviceId" "string" fun v r => { r with deviceID := v },
    intField "TelemetryRecord.ts" "ts" "int64" fun v r => { r with ts := v },
    strField "TelemetryRecord.type" "type" "string" fun v r => { r with type := v },
    strField "TelemetryRecord.version" "version" "string" fun v r => { r with version := v },
    rawField "payload" fun v r => { r with payload := v },
    timeField "receivedAt" go.timeText fun v r => { r with receivedAt := v }]

/-- `json.Unmarshal` into a telemetry record. -/
def TelemetryRecord.unmarshal (raw : Bytes) : Except GoError TelemetryRecord :=
  Contracts.unmarshal go (fields go) "platform.TelemetryRecord" .zero raw

/-- The record of an envelope received at a time. -/
def TelemetryRecord.ofEnvelope (env : Envelope) (receivedAt : Time) : TelemetryRecord :=
  ⟨env.msgID, env.tenantID, env.deviceID, env.ts, env.type, env.version, env.payload, false,
    receivedAt⟩

/-- The JSON of an execution result that stands inside `depth` objects. -/
def resultToks (depth : Nat) (result : CommandResult) : Except GoError (List Tok) := do
  let payload ← rawValue go (depth + 1) result.payload
  let errorCode :=
    if result.errorCode = [] then [] else [("errorCode", strTok result.errorCode)]
  pure (object ([("status", strTok result.status)] ++ errorCode ++ [("payload", payload)]))

/-- `json.Marshal` of the result of a command, whose error is dropped. -/
def resultJSON (result : Option CommandResult) : Bytes :=
  match result with
  | none => ascii "null"
  | some result => ((resultToks go 0 result).toOption.map Json.text).getD []

/-- `Command`. A missing deadline is the zero time. -/
structure Command where
  id : Bytes
  tenantID : Bytes
  deviceID : Bytes
  status : CommandStatus
  payload : Bytes
  createdAt : Time
  updatedAt : Time
  dispatchAttempts : Int
  deadlineAt : Time
  result : Option CommandResult
  deriving DecidableEq, Repr

/-- The offsets from UTC, in seconds, of the times of a command. -/
structure Offsets where
  createdAt : Int
  updatedAt : Int
  deadlineAt : Int

/-- All times in UTC. -/
def Offsets.utc : Offsets := ⟨0, 0, 0⟩

/-- The JSON of a command whose times have offsets. `omitempty` drops a missing result and never a
time. -/
def Command.toksAt (offsets : Offsets) (cmd : Command) : Except GoError (List Tok) := do
  let payload ← rawValue go 1 cmd.payload
  let createdAt ← zonedValue offsets.createdAt cmd.createdAt
  let updatedAt ← zonedValue offsets.updatedAt cmd.updatedAt
  let deadlineAt ← zonedValue offsets.deadlineAt cmd.deadlineAt
  let result ←
    match cmd.result with
    | none => pure []
    | some result => do
        let toks ← resultToks go 1 result
        pure [("result", toks)]
  pure (object
    ([("id", strTok cmd.id), ("tenantId", strTok cmd.tenantID),
      ("deviceId", strTok cmd.deviceID), ("status", strTok cmd.status.text),
      ("payload", payload), ("createdAt", createdAt), ("updatedAt", updatedAt),
      ("dispatchAttempts", intTok cmd.dispatchAttempts), ("deadlineAt", deadlineAt)] ++ result))

/-- `json.Marshal` of a command whose times have offsets. -/
def Command.marshalAt (offsets : Offsets) (cmd : Command) : Except GoError Bytes :=
  (cmd.toksAt go offsets).map text

/-- `json.Marshal` of a command whose times are in UTC. -/
def Command.marshal (cmd : Command) : Except GoError Bytes := cmd.marshalAt go .utc

/-- The zero value. The status, a text in the source, has no empty one here. -/
def Command.zero : Command :=
  ⟨[], [], [], .created, [], zeroTime, zeroTime, 0, zeroTime, none⟩

/-- The fields of an execution result inside a command. -/
def resultFields : List (RecordField CommandResult) :=
  [strField "CommandResult.result.status" "status" "contracts.CommandStatus"
      fun v r => { r with status := v },
    strField "CommandResult.result.errorCode" "errorCode" "string"
      fun v r => { r with errorCode := v },
    rawField "payload" fun v r => { r with payload := v }]

/-- The fields of a command in JSON. A status has to be a string; which one it is does not matter,
since no reader of a command in JSON looks at it. -/
def Command.fields : List (RecordField Command) :=
  [strField "Command.id" "id" "string" fun v c => { c with id := v },
    strField "Command.tenantId" "tenantId" "string" fun v c => { c with tenantID := v },
    strField "Command.deviceId" "deviceId" "string" fun v c => { c with deviceID := v },
    strField "Command.status" "status" "contracts.CommandStatus" fun _ c => c,
    rawField "payload" fun v c => { c with payload := v },
    timeField "createdAt" go.timeText fun v c => { c with createdAt := v },
    timeField "updatedAt" go.timeText fun v c => { c with updatedAt := v },
    intField "Command.dispatchAttempts" "dispatchAttempts" "int"
      fun v c => { c with dispatchAttempts := v },
    timeField "deadlineAt" go.timeText fun v c => { c with deadlineAt := v },
    pointerField "Command.result" "result" "contracts.CommandResult" (foldJSONField go)
      resultFields ⟨[], [], []⟩ Command.result fun v c => { c with result := v }]

/-- `json.Unmarshal` into a command. -/
def Command.unmarshal (raw : Bytes) : Except GoError Command :=
  Contracts.unmarshal go (fields go) "platform.Command" .zero raw

/-- `businessBatchBytes`, one MiB. -/
def businessBatchBytes : Nat := 1048576

/-- `maxCommandValueBytes`. -/
def maxCommandValueBytes : Nat := businessBatchBytes - 1024

/-- The last nanosecond of the year 9999. -/
def lastStamp : Time := (daysFromCivil ⟨9999, 12, 31⟩ * 86400 + 86399) * second + 999999999

/-- `ValidateCommandInput`. -/
def validateCommandInput (tenant device payload : Bytes) : Except GoError Unit := do
  let payload := orEmptyObject payload
  validateCommandPayload go payload
  let value ← Command.marshal go
    { id := List.replicate 36 0x78, tenantID := tenant, deviceID := device, payload := payload
      status := .published, createdAt := lastStamp, updatedAt := lastStamp
      deadlineAt := lastStamp, dispatchAttempts := 2147483647, result := none }
  returnIf (value.length > maxCommandValueBytes)
    (errInvalidPayload.wrap
      (ascii "encoded command exceeds " ++ decimal maxCommandValueBytes ++ ascii " bytes"))

end Iot.Platform
