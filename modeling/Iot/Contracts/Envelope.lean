import Iot.Contracts.Fields
import Iot.Contracts.RequestJson

/-!
# Telemetry envelopes

The envelope a device sends and the checks made where it enters the platform
(`internal/contracts/envelope.go`, `ValidateTelemetryFields` of `fields.go`). The clock is an
argument, as in `validateEnvelopeAt`.
-/

namespace Iot.Contracts

open Text Json

/-- `Envelope`. -/
structure Envelope where
  msgID : Bytes
  tenantID : Bytes
  deviceID : Bytes
  ts : Int
  type : Bytes
  version : Bytes
  traceID : Bytes
  productID : Bytes
  region : Bytes
  seq : Int
  payload : Bytes
  deriving DecidableEq, Repr

/-- The zero value. -/
def Envelope.zero : Envelope := ⟨[], [], [], 0, [], [], [], [], [], 0, []⟩

/-- The fields of an envelope in JSON. -/
def Envelope.fields : List (RecordField Envelope) :=
  [strField "Envelope.msgId" "msgId" "string" fun v e => { e with msgID := v },
    strField "Envelope.tenantId" "tenantId" "string" fun v e => { e with tenantID := v },
    strField "Envelope.deviceId" "deviceId" "string" fun v e => { e with deviceID := v },
    intField "Envelope.ts" "ts" "int64" fun v e => { e with ts := v },
    strField "Envelope.type" "type" "string" fun v e => { e with type := v },
    strField "Envelope.version" "version" "string" fun v e => { e with version := v },
    strField "Envelope.traceId" "traceId" "string" fun v e => { e with traceID := v },
    strField "Envelope.productId" "productId" "string" fun v e => { e with productID := v },
    strField "Envelope.region" "region" "string" fun v e => { e with region := v },
    intField "Envelope.seq" "seq" "int64" fun v e => { e with seq := v },
    rawField "payload" fun v e => { e with payload := v }]

/-- `json.Unmarshal` into an envelope. -/
def Envelope.unmarshal (go : GoRuntime) (raw : Bytes) : Except GoError Envelope :=
  Contracts.unmarshal go Envelope.fields "contracts.Envelope" .zero raw

/-- `minEnvelopeTsMillis`: the first millisecond of the year 2000. -/
def minEnvelopeTsMillis : Int := 946684800000

/-- `maxEnvelopeClockSkew`. -/
def maxEnvelopeClockSkew : Time := 5 * 60 * second

/-- `ErrEnvelopeTimestampOutOfRange`. -/
def errEnvelopeTimestampOutOfRange : GoError := errInvalidEnvelope.wrap (ascii "ts out of range")

/-- `Time.UnixMilli`. -/
def unixMilli (t : Time) : Int := t / 1000000

/-- The fields `ValidateTelemetryFields` loops over, with the length each may have. -/
def telemetryFields (env : Envelope) : List (String × Bytes × Nat) :=
  [("msgId", env.msgID, telemetryFieldMaxBytes),
    ("tenantId", env.tenantID, telemetryFieldMaxBytes),
    ("deviceId", env.deviceID, telemetryFieldMaxBytes),
    ("type", env.type, telemetryFieldMaxBytes),
    ("version", env.version, telemetryVersionMaxBytes)]

/-- `ValidateTelemetryFields`. -/
def validateTelemetryFields (env : Envelope) : Except GoError Unit := do
  (telemetryFields env).forM fun field => validateStorageField field.1 field.2.1 field.2.2
  returnIf (!isValidTenantID env.tenantID || !isValidTopicPart env.deviceID) errInvalidEnvelope

/-- `ValidateTelemetryPayload`. -/
def validateTelemetryPayload (raw : Bytes) : Except GoError Unit :=
  if !startsObject raw || !utf8Valid raw || !valid raw then
    .error (errInvalidEnvelope.wrap (ascii "payload is required and must be a JSON object"))
  else
    match validateJSONBBudget raw maxTelemetryPayloadBytes with
    | .ok () => .ok ()
    | .error err => .error (errInvalidEnvelope.join err)

/-- `validateEnvelopeAt`, and `ValidateEnvelope` with the clock as an argument. -/
def validateEnvelopeAt (env : Envelope) (now : Time) : Except GoError Unit := do
  validateTelemetryPayload env.payload
  returnIf (env.ts ≤ 0) errInvalidEnvelope
  validateTelemetryFields env
  returnIf (env.ts < minEnvelopeTsMillis ∨ env.ts > unixMilli (now + maxEnvelopeClockSkew))
    errEnvelopeTimestampOutOfRange

/-- `ParseEnvelope`. The cause of a decoding error is printed, not wrapped. -/
def parseEnvelope (go : GoRuntime) (raw : Bytes) (now : Time) : Except GoError Envelope :=
  match Envelope.unmarshal go raw with
  | .error err => .error (errInvalidEnvelope.wrap err.text)
  | .ok env => do
      validateEnvelopeAt env now
      pure env

end Iot.Contracts
