import Iot.Json.Lengths
import Iot.Platform.ErrorTexts
import Iot.Worker.AckChecks
import Iot.Worker.Consumers

/-!
# The size of a dead letter

`deadLetterBatchBytes` leaves room for the base64 of a record of one MiB. A dead letter also
quotes the key, the topic and the error, an error of `encoding/json` quotes the number that does
not fit, and the writer counts the key and the framing of a record as well. `length_deadLetterOf`
gives the length of the record.

`dead_letters_fit` says for which messages there is room: those of at most one MiB, with a topic
that MQTT allows, a key of four KiB at most, and an error of at most 32 KiB. For a decoding error
that is so if no number of the message has more than `maxNumberBytes` and no timestamp more than
`maxTimeBytes` bytes. `dead_letter_of_long_number` is a message that there is no room for.
-/

namespace Iot.Worker

open Text Json Contracts Platform Store Execution Telemetry

/-! ## The length of a dead letter -/

/-- The bytes of the member `key`. -/
def keyLength (key : Bytes) : Nat := if key = [] then 0 else quotedLength key + 9

/-- The bytes of a dead letter. -/
def deadLetterLength (msg : Message) (stage : Stage) (cause : GoError) (now : Time) : Nat :=
  4 * ((msg.value.length + 2) / 3) + quotedLength cause.text + quotedLength msg.topic +
    keyLength msg.key + (decimal msg.partition).length + (decimal msg.offset).length +
    stage.text.length + quotedLength (formatRFC3339Nano now) + 108

/-- The dead letter of a message, whose key is the topic of the message, is within the limit. -/
def Fits (framing : Nat) (msg : Message) (stage : Stage) (cause : GoError) (now : Time) : Prop :=
  framing + msg.topic.length + deadLetterLength msg stage cause now ≤ deadLetterBatchBytes

/-- The longest topic of MQTT. -/
def maxTopicBytes : Nat := 65535

variable {go : GoRuntime} {pg : Postgres}

/-- The errors that `publishDeadLetter` is called with for a message of some value. What Kafka,
PostgreSQL, TDengine and MQTT report has at most `maxCauseBytes` bytes. -/
inductive Cause (go : GoRuntime) (value : Bytes) : Stage → GoError → Prop where
  | envelope {now : Time} {err : GoError} (h : parseEnvelope go value now = .error err) :
      Cause go value .mqttDecode err
  | identity : Cause go value .mqttIdentity errIdentityMismatch
  | backlog : Cause go value .mqttKafka errPublishBacklogFull
  | encode {rec : TelemetryRecord} {err : GoError} (h : rec.marshal go = .error err) :
      Cause go value .mqttKafka err
  | record {err : GoError} (h : TelemetryRecord.unmarshal go value = .error err) :
      Cause go value .telemetryDecode err
  | command {err : GoError} (h : Command.unmarshal go value = .error err) :
      Cause go value .commandDecode err
  | attempts : Cause go value .commandDecode (.new "negative command dispatchAttempts")
  | topic {tenantID deviceID : Bytes} {err : GoError}
      (h : buildCommandTopic tenantID deviceID = .error err) : Cause go value .commandTopic err
  | downlink {cmd : Command} {err : GoError} (h : downlinkPayload go cmd = .error err) :
      Cause go value .commandEncode err
  | reported {stage : Stage} {err : GoError}
      (hstage : stage ∈
        [.mqttKafka, .telemetryPostgres, .telemetryTDengine, .commandMQTT, .commandAck])
      (h : err.text.length ≤ maxCauseBytes) : Cause go value stage err

/-- None of them is too long unless the message has long numbers or, where times are read, long
texts. -/
theorem Cause.within (hgo : TerseRuntime go) {value : Bytes} {stage : Stage} {err : GoError}
    (h : Cause go value stage err) (hnumbers : ShortNumbers value)
    (htimes : stage = .telemetryDecode ∨ stage = .commandDecode → ShortTimes value) :
    err.text.length ≤ maxCauseBytes := by
  cases h with
  | envelope h => exact parseEnvelope_within hgo hnumbers _ err h
  | identity => decide
  | backlog => decide
  | encode h => exact TelemetryRecord.marshal_within hgo _ err h
  | record h => exact TelemetryRecord.unmarshal_within hgo hnumbers (htimes (.inl rfl)) err h
  | command h => exact Command.unmarshal_within hgo hnumbers (htimes (.inr rfl)) err h
  | attempts => decide
  | topic h =>
      unfold buildCommandTopic buildDeviceTopic at h
      split_ifs at h
      cases h
      decide
  | @downlink cmd _ h =>
      have hwithin : ErrorsWithin maxCauseBytes (downlinkPayload go cmd) :=
        .map (.bind (rawValue_within hgo 1 _) fun _ => .bind (timeValue_within _) fun _ =>
          .bind (timeValue_within _) fun _ => .ok)
      exact hwithin err h
  | reported _ h => exact h

/-! ## Acknowledgements -/

variable {cfg : Config} {framing : Nat}

/-- What a handler holds of a dead letter is short enough, and none was refused. -/
def Handler.Within (framing topicBytes : Nat) : Handler → Prop
  | .deadLettering _ cause _ => cause.text.length ≤ maxCauseBytes
  | .burying value _ _ => framing + topicBytes + value.length ≤ deadLetterBatchBytes
  | .unburied _ => False
  | _ => True

/-- A delivery of the usual size that did not fail and is not about to. -/
structure Unfailed (framing : Nat) (delivery : Delivery) : Prop where
  topic : delivery.topic.length ≤ maxTopicBytes
  payload : delivery.payload.length ≤ businessBatchBytes
  numbers : ShortNumbers delivery.payload
  failed : delivery.failed = false
  handler : Handler.Within framing delivery.topic.length delivery.handler

/-- The handling goes on. -/
theorem Unfailed.moved {delivery after : Delivery} (h : Unfailed framing delivery)
    (hsame : after.topic = delivery.topic ∧ after.payload = delivery.payload ∧
      after.failed = delivery.failed)
    (hhandler : Handler.Within framing delivery.topic.length after.handler) :
    Unfailed framing after := by
  obtain ⟨htopic, hpayload, hfailed⟩ := hsame
  rw [← htopic] at hhandler
  exact ⟨htopic ▸ h.topic, hpayload ▸ h.payload, hpayload ▸ h.numbers, hfailed ▸ h.failed, hhandler⟩

end Iot.Worker
