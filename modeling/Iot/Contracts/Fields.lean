import Iot.Contracts.Errors

/-!
# Identifiers and topics

The checks on identifiers that come from outside (`internal/contracts/fields.go`, `metadata.go`,
`idempotency.go`) and the device topics built from them (`topic.go`).
-/

namespace Iot.Contracts

open Text

/-- `TelemetryFieldMaxBytes`. -/
def telemetryFieldMaxBytes : Nat := 64

/-- `TelemetryVersionMaxBytes`. -/
def telemetryVersionMaxBytes : Nat := 32

/-- `ValidateStorageField`. -/
def validateStorageField (name : String) (value : Bytes) (maxBytes : Nat) : Except GoError Unit :=
  if value = [] ∨ value.length > maxBytes ∨ ¬ utf8Valid value then
    .error (errInvalidEnvelope.wrap
      (ascii name ++ ascii " must contain 1.." ++ decimal maxBytes ++ ascii " UTF-8 bytes"))
  else if (decode value).any Rune.isControl then
    .error (errInvalidEnvelope.wrap (ascii name ++ ascii " contains control characters"))
  else .ok ()

/-- `IsValidTopicPart`. -/
def isValidTopicPart (part : Bytes) : Bool :=
  part == trimSpace part && !containsAny part (ascii "/#+") &&
    (validateStorageField "topic part" part telemetryFieldMaxBytes).isOk

/-- `IsValidTenantID`: the first colon of an MQTT user name ends the tenant. -/
def isValidTenantID (id : Bytes) : Bool := isValidTopicPart id && !id.contains 0x3A

/-- `ValidateDeviceIdentity`. -/
def validateDeviceIdentity (tenant device : Bytes) : Except GoError Unit :=
  if !isValidTenantID tenant || !isValidTopicPart device then
    .error (errInvalidEnvelope.wrap (ascii "valid tenantId and deviceId are required"))
  else .ok ()

/-- `ValidateCommandID`. -/
def validateCommandID (id : Bytes) : Except GoError Unit :=
  if !isValidTopicPart id then
    .error (errInvalidEnvelope.wrap (ascii "valid commandId is required"))
  else .ok ()

/-- `ErrInvalidIdempotencyKey`. -/
def errInvalidIdempotencyKey : GoError :=
  ⟨ascii "idempotency key must contain at most 128 printable ASCII characters without spaces",
    [.invalidIdempotencyKey]⟩

/-- `ValidateIdempotencyKey`. -/
def validateIdempotencyKey (key : Bytes) : Except GoError Unit :=
  if key.length > 128 then .error errInvalidIdempotencyKey
  else if key.any fun b => b < 0x21 || b > 0x7E then .error errInvalidIdempotencyKey
  else .ok ()

/-- `TopicSuffixTelemetry`. -/
def topicSuffixTelemetry : Bytes := ascii "telemetry"

/-- `TopicSuffixCommand`. -/
def topicSuffixCommand : Bytes := ascii "command"

/-- `TopicSuffixAck`. -/
def topicSuffixAck : Bytes := ascii "ack"

/-- `BuildDeviceTopic`. -/
def buildDeviceTopic (tenant device suffix : Bytes) : Except GoError Bytes :=
  if !isValidTenantID tenant || !isValidTopicPart device || !isValidTopicPart suffix then
    .error errInvalidTopicPart
  else
    .ok (ascii "tenant/" ++ tenant ++ ascii "/device/" ++ device ++ ascii "/" ++ suffix)

/-- A parsed device topic. -/
structure DeviceTopic where
  tenant : Bytes
  device : Bytes
  suffix : Bytes
  deriving DecidableEq, Repr

/-- `ParseDeviceTopic`. -/
def parseDeviceTopic (topic : Bytes) : Option DeviceTopic :=
  match topic.splitOn 0x2F with
  | [p0, tenant, p2, device, suffix] =>
      if p0 = ascii "tenant" ∧ p2 = ascii "device" then
        if isValidTenantID tenant && isValidTopicPart device && isValidTopicPart suffix then
          some ⟨tenant, device, suffix⟩
        else none
      else none
  | _ => none

end Iot.Contracts
