import Iot.Contracts.Fields
import Iot.Contracts.RequestJson

/-!
# Command states and execution results

`AdvanceCommandStatus` (`internal/contracts/command_state.go`), the checks on a command payload
(`metadata.go`) and on the execution result a device acknowledges with (`command_result.go`).
-/

namespace Iot.Contracts

open Text Json

/-- `CommandStatus`, the named values. -/
inductive CommandStatus where
  | created
  | published
  | sent
  | acked
  | failed
  | timeout
  deriving DecidableEq, Repr

/-- The text of a status. -/
def CommandStatus.text : CommandStatus → Bytes
  | .created => ascii "created"
  | .published => ascii "published"
  | .sent => ascii "sent"
  | .acked => ascii "acked"
  | .failed => ascii "failed"
  | .timeout => ascii "timeout"

/-- The statuses a command ends in. -/
def CommandStatus.terminal : CommandStatus → Bool
  | .acked | .failed | .timeout => true
  | _ => false

/-- `CommandEvent` and the two further types the store writes to the audit log, `created` and
`requeued`. -/
inductive CommandEvent where
  | created
  | published
  | delivered
  | requeued
  | acked
  | failed
  | timeout
  deriving DecidableEq, Repr

/-- The text of an event. -/
def CommandEvent.text : CommandEvent → Bytes
  | .created => ascii "created"
  | .published => ascii "published"
  | .delivered => ascii "delivered"
  | .requeued => ascii "requeued"
  | .acked => ascii "acked"
  | .failed => ascii "failed"
  | .timeout => ascii "timeout"

/-- The events after which nothing more happens to a command. -/
def CommandEvent.terminal : CommandEvent → Bool
  | .acked | .failed | .timeout => true
  | _ => false

/-- The conversion of a text to a `CommandEvent`; a text that names no event has none. -/
def commandEvent? (text : Bytes) : Option CommandEvent :=
  [.created, .published, .delivered, .requeued, .acked, .failed, .timeout].find?
    fun event : CommandEvent => event.text = text

/-- `AdvanceCommandStatus`. -/
def advanceCommandStatus (current : CommandStatus) (event : CommandEvent) :
    Except GoError CommandStatus :=
  match current, event with
  | .created, .failed => .ok .failed
  | .created, .published => .ok .published
  | .created, .acked => .ok .acked
  | .published, .delivered => .ok .sent
  | .published, .acked => .ok .acked
  | .published, .failed => .ok .failed
  | .sent, .acked => .ok .acked
  | .sent, .failed => .ok .failed
  | .sent, .timeout => .ok .timeout
  | _, _ => .error errInvalidCommandTransition

variable (go : GoRuntime)

/-- `ValidateCommandPayload`. An omitted argument object is an empty one. -/
def validateCommandPayload (payload : Bytes) : Except GoError Unit :=
  if payload = [] then .ok ()
  else do
    validateJSONB payload
    match validateUniqueJSON go payload false with
    | .error err => throw (errInvalidPayload.wrap err.text)
    | .ok () =>
        returnIf (!startsObject payload)
          (errInvalidPayload.wrap (ascii "command payload must be an object"))

/-- `CommandResult`. The status is the text the device sent. -/
structure CommandResult where
  status : Bytes
  errorCode : Bytes
  payload : Bytes
  deriving DecidableEq, Repr

/-- A payload that may be omitted. -/
def orEmptyObject (payload : Bytes) : Bytes :=
  if payload = [] then ascii "\x7b\x7d" else payload

/-- It is never empty. -/
theorem orEmptyObject_ne_nil (payload : Bytes) : orEmptyObject payload ≠ [] := by
  unfold orEmptyObject
  split_ifs with h
  · decide
  · exact h

/-- The longest acknowledgement payload. -/
def maxAckPayloadBytes : Nat := 64 * 1024

/-- `NormalizeCommandResult`. -/
def normalizeCommandResult (result : CommandResult) : Except GoError CommandResult := do
  returnIf (result.status ≠ CommandStatus.acked.text ∧ result.status ≠ CommandStatus.failed.text)
    (errInvalidPayload.wrap (ascii "acknowledgement status must be acked or failed"))
  returnIf (result.errorCode.length > 64 ∨ trimSpace result.errorCode ≠ result.errorCode)
    (errInvalidPayload.wrap (ascii "invalid errorCode"))
  returnIf (result.errorCode ≠ [] ∧ !(validateStorageField "errorCode" result.errorCode 64).isOk)
    (errInvalidPayload.wrap (ascii "invalid errorCode"))
  returnIf (result.status = CommandStatus.acked.text ∧ result.errorCode ≠ [])
    (errInvalidPayload.wrap (ascii "successful acknowledgement cannot have an errorCode"))
  let result := { result with payload := orEmptyObject result.payload }
  returnIf (result.payload.length > maxAckPayloadBytes)
    (errInvalidPayload.wrap (ascii "acknowledgement payload exceeds 64KiB"))
  validateJSONBBudget result.payload maxAckPayloadBytes
  validateCommandPayload go result.payload
  pure result

end Iot.Contracts
