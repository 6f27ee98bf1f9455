import Iot.Execution.Run
import Iot.Store.Commands

/-!
# Reading a command across the tenant boundary

`Service.GetCommand` of `internal/core/service.go` over the PostgreSQL store, with the gRPC status
it ends in (`mapRepoError`) and the REST reply written for it (`getCommandHandler`,
`writeRPCError` of `internal/adminapi/server.go`).

A command of another tenant is reported like a missing one, with the same code. The two messages
differ, though: the missing row is reported by the store and the foreign row by the service. So the
reply tells whether another tenant has a command of this id (`foreign_command_revealed`), and it
depends on the tenant's own commands alone exactly for the ids that name a command in both
databases or in neither (`getCommand_noninterference`).
-/

namespace Iot.Core

open Text Json Contracts Platform Store Data

/-- The gRPC status codes that the services and the gateway name. -/
inductive Code where
  | ok
  | canceled
  | invalidArgument
  | deadlineExceeded
  | notFound
  | alreadyExists
  | permissionDenied
  | resourceExhausted
  | failedPrecondition
  | aborted
  | outOfRange
  | internal
  | unavailable
  | unauthenticated
  deriving DecidableEq, Repr

/-- A gRPC status error. -/
structure Status where
  code : Code
  message : Bytes
  deriving DecidableEq, Repr

/-- `mapRepoError` of an error that is not nil. -/
def mapRepoError (err : GoError) : Status :=
  if err.is .invalidPayload || err.is .invalidDeviceSecret then ⟨.invalidArgument, err.text⟩
  else if err.is .listItemTooLarge then ⟨.failedPrecondition, err.text⟩
  else if err.is .invalidPage then ⟨.invalidArgument, err.text⟩
  else if err.is .invalidEnvelope then ⟨.invalidArgument, err.text⟩
  else if err.is .notFound then ⟨.notFound, err.text⟩
  else if err.is .deadlineExceeded then ⟨.deadlineExceeded, ascii "database operation timed out"⟩
  else if err.is .canceled then ⟨.canceled, ascii "request canceled"⟩
  else if err.is .acknowledgementConflict then ⟨.aborted, err.text⟩
  else if err.is .idempotencyConflict then ⟨.alreadyExists, err.text⟩
  else if err.is .alreadyExists then ⟨.alreadyExists, err.text⟩
  else ⟨.internal, err.text⟩

/-- `timestamppb.Timestamp`. -/
structure Timestamp where
  seconds : Int
  nanos : Int
  deriving DecidableEq, Repr

/-- `toTimestamp`. -/
def toTimestamp (t : Time) : Option Timestamp :=
  if t = zeroTime then none else some ⟨t / second, t % second⟩

/-- `corev1.Command`. -/
structure PbCommand where
  id : Bytes
  tenantID : Bytes
  deviceID : Bytes
  status : Bytes
  payload : Bytes
  createdAt : Option Timestamp
  updatedAt : Option Timestamp
  result : Option CommandResult
  deriving DecidableEq, Repr

/-- `commandToPB`. -/
def commandToPB (command : Command) : PbCommand :=
  ⟨command.id, command.tenantID, command.deviceID, command.status.text, command.payload,
    toTimestamp command.createdAt, toTimestamp command.updatedAt, command.result⟩

/-- `Service.GetCommand` over the PostgreSQL store. -/
def getCommand (db : Db) (id tenantID : Bytes) : Except Status PbCommand :=
  if !isValidTenantID tenantID then
    .error ⟨.invalidArgument, ascii "valid tenantId is required"⟩
  else
    match validateCommandID id with
    | .error err => .error (mapRepoError err)
    | .ok () =>
        if id = [] ∨ tenantID = [] then
          .error ⟨.invalidArgument, ascii "id and tenantId are required"⟩
        else
          match getCommandContext db id with
          | .error err => .error (mapRepoError err)
          | .ok command =>
              if command.tenantID ≠ tenantID then
                .error ⟨.notFound, ascii "command not found"⟩
              else .ok (commandToPB command)

/-! ## The REST gateway -/

/-- The status and the body of an HTTP reply. -/
structure HttpReply where
  status : Nat
  body : Bytes
  deriving DecidableEq, Repr

/-- `writeJSON`. A value that cannot be encoded leaves the body empty. -/
def writeJSON (status : Nat) (value : Except GoError (List Tok)) : HttpReply :=
  match value with
  | .ok toks => ⟨status, text toks ++ [0x0A]⟩
  | .error _ => ⟨status, []⟩

/-- `writeError`. -/
def writeError (status : Nat) (message : Bytes) : HttpReply :=
  writeJSON status (.ok (object [("error", strTok message)]))

/-- `httpStatusFromGRPC`. -/
def httpStatusFromGRPC : Code → Nat
  | .ok => 200
  | .invalidArgument | .failedPrecondition | .outOfRange => 400
  | .notFound => 404
  | .alreadyExists | .aborted => 409
  | .unauthenticated => 401
  | .permissionDenied => 403
  | .resourceExhausted => 429
  | .deadlineExceeded => 504
  | .unavailable => 502
  | .canceled | .internal => 500

/-- `writeRPCError`. -/
def writeRPCError (err : Status) : HttpReply :=
  writeError (httpStatusFromGRPC err.code) err.message

/-- `timestampToTime`. -/
def timestampToTime : Option Timestamp → Time
  | none => zeroTime
  | some ts => ts.seconds * second + ts.nanos

variable (go : GoRuntime)

/-- The JSON of `commandFromPB`. -/
def commandResponseToks (command : PbCommand) : Except GoError (List Tok) := do
  let payload ← rawValue go 1 command.payload
  let createdAt ← timeValue (timestampToTime command.createdAt)
  let updatedAt ← timeValue (timestampToTime command.updatedAt)
  let result ←
    match command.result with
    | none => pure []
    | some result => do
        let toks ← resultToks go 1 result
        pure [("result", toks)]
  pure (object
    ([("id", strTok command.id), ("tenantId", strTok command.tenantID),
      ("deviceId", strTok command.deviceID), ("status", strTok command.status),
      ("payload", payload), ("createdAt", createdAt), ("updatedAt", updatedAt)] ++ result))

/-- What `requestParameters` reads from the path of a command. -/
structure ManagementParameters where
  tenantID : Bytes
  commandID : Bytes

/-- The reply to the answer of the service. -/
def commandReply : Except Status PbCommand → HttpReply
  | .error err => writeRPCError err
  | .ok command => writeJSON 200 (commandResponseToks go command)

/-- `getCommandHandler`, for what `ManagementRequest` makes of the request. -/
def getCommandHandler (db : Db) (params : Except GoError ManagementParameters) : HttpReply :=
  match params with
  | .error err => writeError (if err.is .notFound then 404 else 400) err.text
  | .ok params => commandReply go (getCommand db params.commandID params.tenantID)

/-! ## Two databases -/

/-- The databases hold the same commands of a tenant. -/
def SameTenant (tenantID : Bytes) (db db' : Db) : Prop :=
  ∀ row, row.tenantID = tenantID → (row ∈ db.commands.rows ↔ row ∈ db'.commands.rows)

/-- The request passes the checks the service makes before it reads the database. -/
def Admitted (id tenantID : Bytes) : Prop :=
  isValidTenantID tenantID ∧ isValidTopicPart id

/-- A command of this id exists, in whatever tenant. -/
def Names (db : Db) (id : Bytes) : Prop := (db.commands.find? id).isSome

/-- The status for an id that no command has. -/
def missing : Status := ⟨.notFound, ascii "not found"⟩

/-- The status for a command of another tenant. -/
def foreign : Status := ⟨.notFound, ascii "command not found"⟩

/-- What the service makes of the row it finds. -/
def answer (tenantID : Bytes) : Option CommandRow → Except Status PbCommand
  | none => .error missing
  | some row =>
      if row.tenantID ≠ tenantID then .error foreign else .ok (commandToPB row.command)

/-- The status of a request that is not admitted. -/
def refusal (tenantID : Bytes) : Status :=
  if !isValidTenantID tenantID then ⟨.invalidArgument, ascii "valid tenantId is required"⟩
  else mapRepoError (errInvalidEnvelope.wrap (ascii "valid commandId is required"))

/-- The service looks up the row of an admitted request, and reads nothing for any other. -/
theorem getCommand_eq (db : Db) (id tenantID : Bytes) :
    getCommand db id tenantID =
      if isValidTenantID tenantID ∧ isValidTopicPart id then
        answer tenantID (db.commands.find? id)
      else .error (refusal tenantID) := by
  by_cases htenant : isValidTenantID tenantID
  · by_cases hid : isValidTopicPart id
    · -- valid identifiers are not empty, so the next check of the source never fails
      have hid' : id ≠ [] := by
        rintro rfl
        exact absurd hid (by decide)
      have htenant' : tenantID ≠ [] := by
        rintro rfl
        exact absurd htenant (by decide)
      simp only [getCommand, htenant, validateCommandID, hid, hid', htenant', getCommandContext]
      cases db.commands.find? id with
      | none => rfl
      | some row => rfl
    · simp [getCommand, htenant, hid, validateCommandID, refusal]
  · simp [getCommand, htenant, refusal]

/-- The two databases agree on which rows of the tenant an id finds. -/
theorem SameTenant.find? {tenantID : Bytes} {db db' : Db} (h : SameTenant tenantID db db')
    {id : Bytes} {row : CommandRow} (hrow : row.tenantID = tenantID) :
    db.commands.find? id = some row ↔ db'.commands.find? id = some row := by
  rw [Table.find?_eq_some_iff, Table.find?_eq_some_iff, h row hrow]

/-- An observer that tells a missing row from a foreign one sees whether the id names a command,
and any observer sees no more than that. -/
theorem observe_answer_iff {Observation : Type} (observe : Except Status PbCommand → Observation)
    (hdiffers : observe (.error missing) ≠ observe (.error foreign)) {tenantID : Bytes}
    {db db' : Db} (h : SameTenant tenantID db db') (id : Bytes) :
    observe (answer tenantID (db.commands.find? id)) =
        observe (answer tenantID (db'.commands.find? id)) ↔ (Names db id ↔ Names db' id) := by
  unfold Names
  cases hfind : db.commands.find? id with
  | none =>
      cases hfind' : db'.commands.find? id with
      | none => simp
      | some row' =>
          have hforeign : row'.tenantID ≠ tenantID := fun hrow =>
            absurd ((h.find? hrow).mpr hfind') (by simp [hfind])
          simpa [answer, hforeign] using hdiffers
  | some row =>
      by_cases hrow : row.tenantID = tenantID
      · simp [(h.find? hrow).mp hfind]
      · cases hfind' : db'.commands.find? id with
        | none => simpa [answer, hrow] using hdiffers.symm
        | some row' =>
            have hforeign : row'.tenantID ≠ tenantID := by
              intro hrow'
              have hsame := (h.find? hrow').mpr hfind'
              cases hfind.symm.trans hsame
              exact hrow hrow'
            simp [answer, hrow, hforeign]

/-- An id that finds no row of the tenant is answered with `NotFound`. -/
theorem code_answer_hidden {tenantID id : Bytes} {db : Db}
    (hhidden : ∀ row, db.commands.find? id = some row → row.tenantID ≠ tenantID) :
    (answer tenantID (db.commands.find? id)).mapError Status.code = .error .notFound := by
  cases hfind : db.commands.find? id with
  | none => rfl
  | some row => simp [answer, hhidden row hfind, foreign, Except.mapError]

/-- The code of the answer, and the command in it, depend on the tenant's own commands alone. -/
theorem code_answer {tenantID : Bytes} {db db' : Db} (h : SameTenant tenantID db db')
    (id : Bytes) :
    (answer tenantID (db.commands.find? id)).mapError Status.code =
      (answer tenantID (db'.commands.find? id)).mapError Status.code := by
  by_cases hown : ∃ row, db.commands.find? id = some row ∧ row.tenantID = tenantID
  · obtain ⟨row, hfind, hrow⟩ := hown
    rw [hfind, (h.find? hrow).mp hfind]
  · have hhidden : ∀ row, db.commands.find? id = some row → row.tenantID ≠ tenantID :=
      fun row hfind hrow => hown ⟨row, hfind, hrow⟩
    rw [code_answer_hidden hhidden, code_answer_hidden fun row hfind hrow =>
      hhidden row ((h.find? hrow).mpr hfind) hrow]

/-- Reading a command reveals nothing of other tenants exactly when the request is refused before
the database is read, or its id names a command in both databases or in neither. The code, and the
command that is returned, never do; what differs is the message, and with it the body of the REST
reply. -/
theorem getCommand_noninterference (tenantID id : Bytes) (db db' : Db)
    (h : SameTenant tenantID db db') :
    (getCommand db id tenantID = getCommand db' id tenantID ↔
      ¬ Admitted id tenantID ∨ (Names db id ↔ Names db' id)) ∧
    (getCommandHandler go db (.ok ⟨tenantID, id⟩) = getCommandHandler go db' (.ok ⟨tenantID, id⟩) ↔
      ¬ Admitted id tenantID ∨ (Names db id ↔ Names db' id)) ∧
    (getCommand db id tenantID).mapError Status.code =
      (getCommand db' id tenantID).mapError Status.code := by
  simp only [getCommandHandler, getCommand_eq, Admitted]
  by_cases hadmitted : isValidTenantID tenantID ∧ isValidTopicPart id
  · have hreply : writeRPCError missing ≠ writeRPCError foreign := by decide +kernel
    simp only [if_pos hadmitted, not_not_intro hadmitted, false_or]
    exact ⟨observe_answer_iff (fun answer => answer) (by decide +kernel) h id,
      observe_answer_iff (commandReply go) hreply h id, code_answer h id⟩
  · simp [hadmitted]

/-- A database with one command, which belongs to the tenant `u`. -/
def foreignDb : Db :=
  Execution.run (Store.step .plain .plain) Db.empty
    [.registerDevice (ascii "u") (ascii "d"),
      .createCommandWithKey (ascii "u") (ascii "d") [] [] (.ok (ascii "c")) 0]

/-- The tenant `t` has no command in it. -/
theorem sameTenant_foreignDb : SameTenant (ascii "t") Db.empty foreignDb := by
  have hforeign : ∀ row ∈ foreignDb.commands.rows, row.tenantID ≠ ascii "t" := by decide +kernel
  intro row hrow
  exact ⟨fun hmem => absurd hmem (List.not_mem_nil), fun hmem => absurd hrow (hforeign row hmem)⟩

theorem getCommand_noninterference_absent :
    SameTenant (ascii "t") Db.empty foreignDb ∧
      getCommand Db.empty (ascii "x") (ascii "t") =
        getCommand foreignDb (ascii "x") (ascii "t") := by
  refine ⟨sameTenant_foreignDb, ?_⟩
  refine (getCommand_noninterference .plain _ _ _ _ sameTenant_foreignDb).1.mpr (Or.inr ?_)
  unfold Names
  decide +kernel

/-- The tenant `t` learns whether another tenant has a command `c`. -/
theorem foreign_command_revealed :
    SameTenant (ascii "t") Db.empty foreignDb ∧
      getCommand Db.empty (ascii "c") (ascii "t") = .error ⟨.notFound, ascii "not found"⟩ ∧
      getCommand foreignDb (ascii "c") (ascii "t") =
        .error ⟨.notFound, ascii "command not found"⟩ ∧
      getCommandHandler .plain Db.empty (.ok ⟨ascii "t", ascii "c"⟩) =
        ⟨404, ascii "\x7b\"error\":\"not found\"\x7d\n"⟩ ∧
      getCommandHandler .plain foreignDb (.ok ⟨ascii "t", ascii "c"⟩) =
        ⟨404, ascii "\x7b\"error\":\"command not found\"\x7d\n"⟩ := by
  refine ⟨sameTenant_foreignDb, ?_⟩
  decide +kernel

end Iot.Core
