import Iot.Platform.DeadLetter
import Iot.Store.Commands

/-!
# Device acknowledgements

`handleAckMessage` (`internal/platform/worker_ack.go`) checks an acknowledgement that MQTT
delivered, stores its result with up to three attempts and writes a dead letter when the store
keeps failing; `replayAck` (`cmd/dlq-replay/main.go`) does the same checks on a dead letter and
stores it once.

What the handler does not decide is an argument: how each call of the store ends, and whether the
dead-letter topic takes a record.
-/

namespace Iot.Worker

open Text Json Contracts Platform Store

variable (go : GoRuntime) (pg : Postgres)

/-- `CommandAckMessage`. -/
structure CommandAckMessage where
  commandID : Bytes
  tenantID : Bytes
  deviceID : Bytes
  status : Bytes
  errorCode : Bytes
  payload : Bytes
  deriving DecidableEq, Repr

/-- The zero value. -/
def CommandAckMessage.zero : CommandAckMessage := ⟨[], [], [], [], [], []⟩

/-- The fields of an acknowledgement in JSON. -/
def CommandAckMessage.fields : List (RecordField CommandAckMessage) :=
  [strField "CommandAckMessage.commandId" "commandId" "string" fun v a => { a with commandID := v },
    strField "CommandAckMessage.tenantId" "tenantId" "string" fun v a => { a with tenantID := v },
    strField "CommandAckMessage.deviceId" "deviceId" "string" fun v a => { a with deviceID := v },
    strField "CommandAckMessage.status" "status" "string" fun v a => { a with status := v },
    strField "CommandAckMessage.errorCode" "errorCode" "string" fun v a =>
      { a with errorCode := v },
    rawField "payload" fun v a => { a with payload := v }]

/-- `DecodeRequestJSON` into an acknowledgement. -/
def CommandAckMessage.decode (raw : Bytes) : Except GoError CommandAckMessage :=
  decodeRequestJSON go fields "platform.CommandAckMessage" .zero raw

/-- The execution result an acknowledgement reports. -/
def CommandAckMessage.result (ack : CommandAckMessage) : CommandResult :=
  ⟨ack.status, ack.errorCode, ack.payload⟩

/-- The identity checks of `handleAckMessage` and `replayAck`: the topic is an acknowledgement
topic of the device the message names, and the message names a command. -/
def ackIdentity (topic : Bytes) (ack : CommandAckMessage) : Bool :=
  match parseDeviceTopic topic with
  | none => false
  | some parsed =>
      parsed.suffix = topicSuffixAck ∧ parsed.tenant = ack.tenantID ∧
        parsed.device = ack.deviceID ∧ ack.commandID ≠ []

/-- The checks `handleAckMessage` makes itself. The error is the reason it logs. -/
def checkAck (topic payload : Bytes) : Except String CommandAckMessage :=
  match CommandAckMessage.decode go payload with
  | .error _ => .error "invalid JSON"
  | .ok ack =>
      if !ackIdentity topic ack then .error "invalid identity or commandId"
      else
        match normalizeCommandResult go ack.result with
        | .error _ => .error "invalid execution result"
        | .ok _ => .ok ack

/-- How a call of the store ends: it is executed at a time, or an error of the connection is
reported and the transaction may have been applied or not. -/
inductive StoreCall where
  | executed (now : Time)
  | lost (err : GoError) (now : Time) (applied : Bool)
  deriving DecidableEq, Repr

/-- The errors after which `handleAckMessage` does not try again. -/
def isFinal (err : GoError) : Bool := err.is .notFound || err.is .acknowledgementConflict

/-- What a lost call reports: no error the store itself returns. -/
def lostError (err : GoError) : GoError :=
  { err with wraps := err.wraps.filter fun s => s ≠ .notFound ∧ s ≠ .acknowledgementConflict }

/-- `applyAck`: what is reported, and the tables afterwards. -/
def applyAck (ack : CommandAckMessage) (call : StoreCall) (db : Db) : Except GoError Unit × Db :=
  match call with
  | .executed now =>
      let result :=
        ackCommandResult go pg ack.commandID ack.tenantID ack.deviceID ack.result now db
      (result.map fun _ => (), committed db result)
  | .lost err now applied =>
      (.error (lostError err),
        if applied then
          committed db
            (ackCommandResult go pg ack.commandID ack.tenantID ack.deviceID ack.result now db)
        else db)

/-- `ackStoreAttempts`. -/
def ackStoreAttempts : Nat := 3

/-- How the attempts to store an acknowledgement end. -/
inductive Stored where
  | done
  | failed (err : GoError)
  /-- The worker was stopped while it waited for the next attempt. -/
  | stopped
  deriving DecidableEq, Repr

/-- The attempts of `handleAckMessage`, with `left` of them left. The calls run out when the worker
is stopped. -/
def storeAck (ack : CommandAckMessage) : Nat → List StoreCall → Db → Stored × Db
  | 0, _, db => (.stopped, db)
  | _ + 1, [], db => (.stopped, db)
  | left + 1, call :: calls, db =>
      match applyAck go pg ack call db with
      | (.ok (), after) => (.done, after)
      | (.error err, after) =>
          if isFinal err ∨ left = 0 then (.failed err, after) else storeAck ack left calls after

/-- How the handling of an acknowledgement ends. -/
inductive AckOutcome where
  /-- Acknowledged to the broker without being stored. -/
  | rejected (reason : String)
  /-- Stored and acknowledged to the broker. -/
  | stored
  /-- Written to the dead-letter topic and acknowledged to the broker. -/
  | deadLettered (cause : GoError)
  /-- The dead letter could not be written: `failAck`. -/
  | failed (cause : GoError)
  /-- The worker stopped first. -/
  | stopped
  deriving DecidableEq, Repr

/-- The message `handleAckMessage` makes a dead letter of. -/
def ackMessage (topic payload : Bytes) (ack : CommandAckMessage) : Message :=
  { Message.ofMQTT topic payload with key := ack.commandID }

/-- `handleAckMessage`. `write` is what the dead-letter topic answers to the key and the value of a
record. -/
def handleAckMessage (write : Bytes → Bytes → Except GoError Unit) (topic payload : Bytes)
    (calls : List StoreCall) (now : Time) (db : Db) : AckOutcome × Db :=
  match checkAck go topic payload with
  | .error reason => (.rejected reason, db)
  | .ok ack =>
      match storeAck go pg ack ackStoreAttempts calls db with
      | (.done, after) => (.stored, after)
      | (.stopped, after) => (.stopped, after)
      | (.failed err, after) =>
          if isFinal err then (.rejected "unknown command", after)
          else
            match write topic
                (deadLetterOf (ackMessage topic payload ack) .commandAck err now).marshal with
            | .ok () => (.deadLettered err, after)
            | .error _ => (.failed err, after)

/-- The checks of `replayAck`. -/
def checkReplayAck (item : DeadLetter) (value : Bytes) : Except GoError CommandAckMessage := do
  let ack ← CommandAckMessage.decode go value
  returnIf (!ackIdentity item.sourceTopic ack) (.new "ACK identity does not match source topic")
  let _ ← normalizeCommandResult go ack.result
  pure ack

/-- `replayAck`: the result is normalized before the store is called. -/
def replayAck (item : DeadLetter) (value : Bytes) (now : Time) (db : Db) :
    Except GoError (Command × Db) := do
  let ack ← checkReplayAck go item value
  let result ← normalizeCommandResult go ack.result
  ackCommandResult go pg ack.commandID ack.tenantID ack.deviceID result now db

end Iot.Worker
