import Iot.Contracts.Envelope
import Iot.Json.Numbers
import Iot.Platform.Domain
import Iot.Text.Sha256

/-!
# The TDengine writer

`writeRecord` (`internal/platform/tdengine_writer.go`) writes a telemetry record in one statement:
into the subtable of its device, with the SHA-256 hash and the length of the payload in place of
the payload. Two records that agree in everything but the payload get the same statement exactly if
hash and length of their payloads agree (`insertStatement_eq_iff`).
-/

namespace Iot.Platform

open Text Json Contracts

/-- `TDengineWriter`: the names its statements use. -/
structure TDengineWriter where
  database : Bytes
  table : Bytes
  deriving DecidableEq, Repr

/-- `strings.ReplaceAll` for one byte. -/
def replaceByte (old : UInt8) (new text : Bytes) : Bytes :=
  text.flatMap fun b => if b = old then new else [b]

/-- `escapeTD`. -/
def escapeTD (text : Bytes) : Bytes :=
  replaceByte 0x27 [0x27, 0x27] (replaceByte 0x5C [0x5C, 0x5C] text)

/-- The super table. -/
def TDengineWriter.stable (w : TDengineWriter) : Bytes := w.database ++ ascii "." ++ w.table

/-- The subtable of a device. -/
def TDengineWriter.childTable (w : TDengineWriter) (tenantID deviceID : Bytes) : Bytes :=
  w.stable ++ ascii "_" ++ (sha256Hex (tenantID ++ [0x00] ++ deviceID)).take 24

/-- The statement up to the columns of the payload. -/
def TDengineWriter.insertHead (w : TDengineWriter) (rec : TelemetryRecord) : Bytes :=
  ascii "INSERT INTO " ++ w.childTable rec.tenantID rec.deviceID ++ ascii " USING " ++ w.stable ++
    ascii " TAGS ('" ++ escapeTD rec.tenantID ++ ascii "', '" ++ escapeTD rec.deviceID ++
    ascii "') VALUES (" ++ decimal rec.ts ++ ascii ", '" ++ escapeTD rec.msgID ++ ascii "', '" ++
    escapeTD rec.type ++ ascii "', '" ++ escapeTD rec.version ++ ascii "', '"

/-- The columns `payload_hash` and `payload_bytes` and the end of the statement. -/
def payloadColumns (payload : Bytes) : Bytes :=
  sha256Hex payload ++ (ascii "', " ++ (decimal payload.length ++ ascii ")"))

/-- The statement `writeRecord` executes. -/
def TDengineWriter.insertStatement (w : TDengineWriter) (rec : TelemetryRecord) : Bytes :=
  w.insertHead rec ++ payloadColumns rec.payload

/-- An error of the driver, with its code if it is a `TaosError`. -/
structure ExecError where
  err : GoError
  code : Option Int
  deriving DecidableEq, Repr

/-- Why a write failed: the fields were rejected (`errTDFieldRejected`) or the statement was. -/
inductive WriteError where
  | fieldRejected (err : GoError)
  | exec (failure : ExecError)
  deriving DecidableEq, Repr

/-- The error itself. -/
def WriteError.error : WriteError → GoError
  | .fieldRejected err => (GoError.new "tdengine field rejected").wrap err.text
  | .exec failure => failure.err

/-- `isPermanentTDengineWriteError`. -/
def isPermanentTDengineWriteError : WriteError → Bool
  | .fieldRejected _ => true
  | .exec ⟨_, some code⟩ => code % 65536 = 0x060b
  | .exec ⟨_, none⟩ => false

/-- `writeRecord` up to the call of the driver: the statement it executes. -/
def TDengineWriter.prepare (w : TDengineWriter) (rec : TelemetryRecord) :
    Except WriteError Bytes :=
  match validateTelemetryFields
    ⟨rec.msgID, rec.tenantID, rec.deviceID, 0, rec.type, rec.version, [], [], [], 0, []⟩ with
  | .error err => .error (.fieldRejected err)
  | .ok () => .ok (w.insertStatement rec)

/-- `writeRecord` with the outcome of the call of the driver: the error it returns. -/
def TDengineWriter.writeRecord (w : TDengineWriter) (rec : TelemetryRecord)
    (exec : Option ExecError) : Option WriteError :=
  match w.prepare rec with
  | .error err => some err
  | .ok _ => exec.map .exec

/-- The columns of the payload tell hash and length apart. -/
theorem payloadColumns_eq_iff {payload other : Bytes} :
    payloadColumns payload = payloadColumns other ↔
      sha256Hex payload = sha256Hex other ∧ payload.length = other.length := by
  constructor
  · intro h
    have hlength : (sha256Hex payload).length = (sha256Hex other).length := by
      rw [length_sha256Hex, length_sha256Hex]
    obtain ⟨hhash, hrest⟩ := List.append_inj h hlength
    have hdecimal := List.append_cancel_right (List.append_cancel_left hrest)
    exact ⟨hhash, Int.ofNat_inj.mp (decimal_injective hdecimal)⟩
  · rintro ⟨hhash, hlength⟩
    rw [payloadColumns, payloadColumns, hhash, hlength]

/-- Two records that differ at most in the payload have the same statement exactly if hash and
length of the payloads agree. -/
theorem insertStatement_eq_iff {w : TDengineWriter} {rec other : TelemetryRecord}
    (hhead : w.insertHead rec = w.insertHead other) :
    w.insertStatement rec = w.insertStatement other ↔
      sha256Hex rec.payload = sha256Hex other.payload ∧
        rec.payload.length = other.payload.length := by
  rw [TDengineWriter.insertStatement, TDengineWriter.insertStatement, hhead,
    ← payloadColumns_eq_iff]
  exact ⟨List.append_cancel_left, fun h => by rw [h]⟩

end Iot.Platform
