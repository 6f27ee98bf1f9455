import Iot.Platform.Domain
import Iot.Text.Base64

/-!
# Dead letters

The record `publishDeadLetter` writes to the dead-letter topic
(`internal/platform/dead_letter.go`): the message that could not be handled, encoded in base64,
with where it came from, the stage that failed and the text of the error.
-/

namespace Iot.Platform

open Text Json Contracts

variable (go : GoRuntime)

/-- `deadLetterBatchBytes`, two MiB. -/
def deadLetterBatchBytes : Nat := 2097152

/-- The dead-letter stages. -/
inductive Stage where
  | mqttDecode
  | mqttIdentity
  | mqttKafka
  | telemetryDecode
  | telemetryPostgres
  | telemetryTDengine
  | commandDecode
  | commandTopic
  | commandEncode
  | commandMQTT
  | commandAck
  deriving DecidableEq, Repr

/-- The text of a stage. -/
def Stage.text : Stage → Bytes
  | .mqttDecode => ascii "mqtt.decode"
  | .mqttIdentity => ascii "mqtt.identity"
  | .mqttKafka => ascii "mqtt.kafka"
  | .telemetryDecode => ascii "telemetry.decode"
  | .telemetryPostgres => ascii "telemetry.postgres"
  | .telemetryTDengine => ascii "telemetry.tdengine"
  | .commandDecode => ascii "command.decode"
  | .commandTopic => ascii "command.topic"
  | .commandEncode => ascii "command.encode"
  | .commandMQTT => ascii "command.mqtt"
  | .commandAck => ascii "command.ack"

/-- What a message of Kafka carries, or one of MQTT handed on as one. -/
structure Message where
  topic : Bytes
  partition : Int
  offset : Int
  key : Bytes
  value : Bytes
  time : Time
  deriving DecidableEq, Repr

/-- A message of MQTT as the dead-letter functions are handed it. -/
def Message.ofMQTT (topic payload : Bytes) : Message := ⟨topic, 0, 0, [], payload, zeroTime⟩

/-- Where a message is in its topic: its partition and its offset. -/
def Message.address (msg : Message) : Nat × Nat := (msg.partition.toNat, msg.offset.toNat)

/-- `DeadLetter`. -/
structure DeadLetter where
  sourceTopic : Bytes
  sourcePartition : Int
  sourceOffset : Int
  key : Bytes
  valueBase64 : Bytes
  stage : Bytes
  error : Bytes
  occurredAt : Bytes
  deriving DecidableEq, Repr

/-- The zero value. -/
def DeadLetter.zero : DeadLetter := ⟨[], 0, 0, [], [], [], [], []⟩

/-- The members of a dead letter in JSON. `omitempty` drops an empty key. -/
def DeadLetter.members (item : DeadLetter) : List (String × List Tok) :=
  [("sourceTopic", strTok item.sourceTopic), ("sourcePartition", intTok item.sourcePartition),
    ("sourceOffset", intTok item.sourceOffset)] ++
  (if item.key = [] then [] else [("key", strTok item.key)]) ++
  [("valueBase64", strTok item.valueBase64), ("stage", strTok item.stage),
    ("error", strTok item.error), ("occurredAt", strTok item.occurredAt)]

/-- `json.Marshal` of a dead letter, which cannot fail. -/
def DeadLetter.marshal (item : DeadLetter) : Bytes := Json.text (object item.members)

/-- The fields of a dead letter in JSON. -/
def DeadLetter.fields : List (RecordField DeadLetter) :=
  [strField "DeadLetter.sourceTopic" "sourceTopic" "string" fun v d => { d with sourceTopic := v },
    intField "DeadLetter.sourcePartition" "sourcePartition" "int"
      fun v d => { d with sourcePartition := v },
    intField "DeadLetter.sourceOffset" "sourceOffset" "int64"
      fun v d => { d with sourceOffset := v },
    strField "DeadLetter.key" "key" "string" fun v d => { d with key := v },
    strField "DeadLetter.valueBase64" "valueBase64" "string" fun v d => { d with valueBase64 := v },
    strField "DeadLetter.stage" "stage" "string" fun v d => { d with stage := v },
    strField "DeadLetter.error" "error" "string" fun v d => { d with error := v },
    strField "DeadLetter.occurredAt" "occurredAt" "string" fun v d => { d with occurredAt := v }]

/-- `json.Unmarshal` into a dead letter. -/
def DeadLetter.unmarshal (raw : Bytes) : Except GoError DeadLetter :=
  Contracts.unmarshal go fields "platform.DeadLetter" .zero raw

/-- `Time.Format(time.RFC3339Nano)`. The clock shows a year of four digits. -/
def formatRFC3339Nano (now : Time) : Bytes := (rfc3339Nano now).getD []

/-- The dead letter `publishDeadLetter` makes of a message. -/
def deadLetterOf (msg : Message) (stage : Stage) (cause : GoError) (now : Time) : DeadLetter where
  sourceTopic := msg.topic
  sourcePartition := msg.partition
  sourceOffset := msg.offset
  key := msg.key
  valueBase64 := encode64 msg.value
  stage := stage.text
  error := cause.text
  occurredAt := formatRFC3339Nano now

end Iot.Platform
