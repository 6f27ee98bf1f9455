import Iot.Platform.DeadLetter

/-!
# Replaying dead letters to Kafka

What `dlq-replay` (`cmd/dlq-replay/main.go`) writes for a dead letter of any stage but
`command.ack`. A receive time that `time.Parse` reads keeps its zone, so that the record is written
with it. `telemetryTopic` is the topic the environment names.
-/

namespace Iot.Replay

open Text Json Contracts Platform

variable (go : GoRuntime)

/-- `replayReceivedAt`: the instant and the offset of its zone. -/
def replayReceivedAt (item : DeadLetter) (ts : Int) : Except GoError (Time × Int) :=
  if item.occurredAt ≠ [] then
    let invalid : GoError :=
      ⟨ascii "invalid dead-letter occurredAt: " ++ go.quoteText item.occurredAt, []⟩
    match parseZoned item.occurredAt with
    | some received => if received.1 = zeroTime then .error invalid else .ok received
    | none => .error invalid
  else if ts ≤ 0 then .error (.new "telemetry replay has no original timestamp")
  else .ok (ts * 1000000, 0)

variable {go} in
/-- The offset of a receive time has no seconds. -/
theorem replayReceivedAt_minutes {item : DeadLetter} {ts : Int} {received : Time} {offset : Int}
    (h : replayReceivedAt go item ts = .ok (received, offset)) : offset % 60 = 0 := by
  unfold replayReceivedAt at h
  split_ifs at h
  · split at h
    · rename_i hparse
      split_ifs at h
      cases h
      exact parseZoned_minutes hparse
    · cases h
  · cases h
    rfl

/-- The branch of `replayKafkaPayload` for telemetry that MQTT delivered and Kafka did not take:
the record is made from the envelope, which is not validated. -/
def replayEnvelope (telemetryTopic : Bytes) (item : DeadLetter) (value : Bytes) :
    Except GoError (Bytes × Bytes) := do
  let env ← Envelope.unmarshal go value
  match parseDeviceTopic item.sourceTopic with
  | none => throw (.new "telemetry identity does not match source topic")
  | some parsed => do
      returnIf (parsed.suffix ≠ topicSuffixTelemetry ∨ parsed.tenant ≠ env.tenantID ∨
          parsed.device ≠ env.deviceID)
        (.new "telemetry identity does not match source topic")
      let (received, offset) ← replayReceivedAt go item env.ts
      let payload ← (TelemetryRecord.ofEnvelope env received).marshalAt go offset
      pure (telemetryTopic, payload)

/-- The branch of `replayKafkaPayload` for telemetry a sink did not take: a record without a
receive time is given one, any other is written as it is. -/
def replayRecord (item : DeadLetter) (value : Bytes) : Except GoError (Bytes × Bytes) := do
  let rec' ← TelemetryRecord.unmarshal go value
  if rec'.receivedAt = zeroTime then do
    let (received, offset) ← replayReceivedAt go item rec'.ts
    let payload ← ({ rec' with receivedAt := received } : TelemetryRecord).marshalAt go offset
    pure (item.sourceTopic, payload)
  else pure (item.sourceTopic, value)

/-- `replayKafkaPayload`: the topic and the value to write. -/
def replayKafkaPayload (telemetryTopic : Bytes) (item : DeadLetter) (value : Bytes) :
    Except GoError (Bytes × Bytes) :=
  if item.stage = Stage.mqttDecode.text ∨ item.stage = Stage.mqttIdentity.text then
    .error (.new "invalid MQTT messages must be corrected at their source")
  else if item.stage = Stage.mqttKafka.text then replayEnvelope go telemetryTopic item value
  else if item.stage = Stage.telemetryPostgres.text ∨ item.stage = Stage.telemetryTDengine.text then
    replayRecord go item value
  else .ok (item.sourceTopic, value)

/-- The part of the replay loop between reading a record of the dead-letter topic and writing to
Kafka. A record that is malformed or of stage `command.ack` leads to no write. -/
def replayWrite (telemetryTopic raw : Bytes) : Option (Bytes × Bytes × Bytes) :=
  match DeadLetter.unmarshal go raw with
  | .error _ => none
  | .ok item =>
      match decode64 item.valueBase64 with
      | none => none
      | some value =>
          if item.stage = Stage.commandAck.text then none
          else
            match replayKafkaPayload go telemetryTopic item value with
            | .error _ => none
            | .ok (topic, payload) => some (topic, item.key, payload)

end Iot.Replay
