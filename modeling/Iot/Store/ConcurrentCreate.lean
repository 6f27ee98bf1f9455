import Iot.Execution.Run
import Iot.Store.AuditLog

/-!
# Commands created at the same time

`CreateCommandWithKey` statement by statement (`internal/platform/postgres_store.go`), for any
number of callers whose transactions interleave under `READ COMMITTED`. A row that was inserted and
not committed is held by its caller (`Phase.pending`) and seen by nobody else, except by the unique
indexes: an `INSERT` whose request key or id such a row has waits for that transaction, and goes on
when it has committed or rolled back. A transaction may be rolled back before any of its
statements, and the confirmation of a commit may get lost.

The other operations of the store go on in between.

`Caller.Moves` says what a step of a caller can do.
-/

namespace Iot.Store

open Text Contracts Platform Data Execution

variable (go : GoRuntime) (pg : Postgres)

/-- The arguments of `CreateCommandWithKey`. -/
structure CreateRequest where
  tenantID : Bytes
  deviceID : Bytes
  key : Bytes
  payload : Bytes
  deriving DecidableEq, Repr

/-- Where a caller stands. -/
inductive Phase where
  /-- About to check its arguments and begin. -/
  | arrived
  /-- About to insert the command. -/
  | ready (normalized : Bytes)
  /-- The row is inserted, its event is not. -/
  | inserted (row : CommandRow)
  /-- The row and its event are about to be committed. -/
  | written (row : CommandRow)
  /-- `ON CONFLICT DO NOTHING` inserted nothing. -/
  | skipped (normalized : Bytes)
  /-- The command that owns the key is the one asked for. -/
  | matched (owner : CommandRow)
  /-- Returned the command it created. -/
  | created (cmd : Command)
  /-- Returned the command that owns the key. -/
  | reused (cmd : Command)
  /-- The commit was applied and an error was returned. -/
  | unconfirmed (id : Bytes) (err : GoError)
  /-- Rolled back, and returned an error. -/
  | failed (err : GoError)
  deriving DecidableEq, Repr

/-- The row a transaction has inserted and not committed. -/
def Phase.pending : Phase → Option CommandRow
  | .inserted row | .written row => some row
  | _ => none

/-- The id of the row a caller has committed. -/
def Phase.committed : Phase → Option Bytes
  | .created cmd => some cmd.id
  | .unconfirmed id _ => some id
  | _ => none

/-- The call has not returned yet. -/
def Phase.running : Phase → Bool
  | .created _ | .reused _ | .unconfirmed _ _ | .failed _ => false
  | _ => true

/-- A call of `CreateCommandWithKey`. -/
structure Caller where
  request : CreateRequest
  phase : Phase
  deriving DecidableEq, Repr

/-- The committed tables and the calls. -/
structure Contest where
  db : Db
  callers : List Caller

/-- No tables and no calls yet. -/
def Contest.initial : Contest := ⟨.empty, []⟩

/-- The rows that are inserted and not committed. -/
def Contest.pending (sys : Contest) : List CommandRow :=
  sys.callers.filterMap fun caller => caller.phase.pending

/-- The part of `CreateCommandWithKey` before the `INSERT`. -/
def prepare (request : CreateRequest) (db : Db) : Except GoError Bytes := do
  validateCommandInput go request.tenantID request.deviceID request.payload
  validateIdempotencyKey request.key
  requireDevice db.devices request.tenantID request.deviceID
  let normalized ← pg.jsonb (orEmptyObject request.payload)
  validateCommandInput go request.tenantID request.deviceID normalized
  pure normalized

/-- The row of a request. -/
def CreateRequest.row (request : CreateRequest) (normalized id : Bytes) (now : Time) : CommandRow :=
  newCommandRow request.tenantID request.deviceID request.key normalized id now

/-- Two rows with one request key. -/
def sameKey (row other : CommandRow) : Bool :=
  row.tenantID == other.tenantID && row.idempotencyKey == other.idempotencyKey &&
    row.idempotencyKey.isSome

/-- `sql.ErrNoRows`. -/
def errNoRows : GoError := .new "sql: no rows in result set"

/-- A statement of a caller with what the program does not decide: the id `uuid.NewV7` drew, the
clock, and whether the database fails. -/
inductive Statement where
  | begin
  | insert (newID : Except GoError Bytes) (now : Time)
  | audit
  | select
  | commit
  | rollback (err : GoError)
  | loseConfirmation (err : GoError)

/-- `INSERT … ON CONFLICT (tenant_id,idempotency_key) … DO NOTHING RETURNING id`: the phase after
it, which is the one before it while the statement waits. -/
def insertPhase (request : CreateRequest) (normalized id : Bytes) (now : Time) (db : Db)
    (pending : List CommandRow) : Phase :=
  let row := request.row normalized id now
  if (keyOwner db request.tenantID request.key).isSome then .skipped normalized
  else if pending.any (sameKey row) then .ready normalized
  else if (db.commands.find? id).isSome then .failed errDuplicateID
  else if pending.any fun other => other.id == id then .ready normalized
  else .inserted row

/-- `SELECT … FROM commands WHERE tenant_id=$1 AND idempotency_key=$2`, and what follows from it. -/
def selectPhase (request : CreateRequest) (normalized : Bytes) (db : Db) : Phase :=
  match keyOwner db request.tenantID request.key with
  | none => .failed errNoRows
  | some owner =>
      if owner.deviceID = request.deviceID ∧ pg.jsonbEq owner.payload normalized then .matched owner
      else .failed errIdempotencyConflict

/-- A statement of a caller: the committed tables and the phase after it. A statement that does not
fit the phase changes nothing. -/
def Caller.step (db : Db) (pending : List CommandRow) (caller : Caller) (statement : Statement) :
    Db × Phase :=
  match caller.phase, statement with
  | .arrived, .begin =>
      match prepare go pg caller.request db with
      | .error err => (db, .failed err)
      | .ok normalized => (db, .ready normalized)
  | .ready _, .insert (.error err) _ => (db, .failed err)
  | .ready normalized, .insert (.ok id) now =>
      (db, insertPhase caller.request normalized id now db pending)
  | .inserted row, .audit => (db, .written row)
  | .skipped normalized, .select => (db, selectPhase pg caller.request normalized db)
  | .written row, .commit =>
      if h : db.commands.find? row.id = none then (db.insertCommand row h, .created row.command)
      else (db, caller.phase)
  | .written row, .loseConfirmation err =>
      if h : db.commands.find? row.id = none then
        (db.insertCommand row h, .unconfirmed row.id err)
      else (db, caller.phase)
  | .matched owner, .commit => (db, .reused owner.command)
  | .arrived, .rollback err | .ready _, .rollback err | .inserted _, .rollback err
  | .written _, .rollback err | .skipped _, .rollback err | .matched _, .rollback err =>
      (db, .failed err)
  | _, _ => (db, caller.phase)

/-- A step of the contest. -/
inductive ContestAction where
  | call (request : CreateRequest)
  | execute (index : Nat) (statement : Statement)
  /-- Another operation of the store. -/
  | operate (op : Op)

/-- The operation creates a command. -/
def Op.creates : Op → Bool
  | .createCommandWithKey _ _ _ _ _ _ => true
  | _ => false

/-- The contest after a step. -/
def Contest.step (sys : Contest) (action : ContestAction) : Contest :=
  match action with
  | .call request => { sys with callers := sys.callers ++ [⟨request, .arrived⟩] }
  | .execute index statement =>
      match sys.callers[index]? with
      | none => sys
      | some caller =>
          let after := caller.step go pg sys.db sys.pending statement
          ⟨after.1, sys.callers.set index { caller with phase := after.2 }⟩
  | .operate op => if op.creates then sys else { sys with db := Store.step go pg sys.db op }

/-! ## What a step of a caller can do -/

/-- The rows of a request key that are committed or pending. -/
def Free (db : Db) (pending : List CommandRow) (row : CommandRow) : Prop :=
  (∀ other ∈ db.commands.rows, other.id ≠ row.id ∧ sameKey row other = false) ∧
    ∀ other ∈ pending, other.id ≠ row.id ∧ sameKey row other = false

/-- What a statement of a caller can do. -/
inductive Caller.Moves (db : Db) (pending : List CommandRow) (caller : Caller) :
    Db → Phase → Prop where
  | stay : Moves db pending caller db caller.phase
  | prepare {normalized : Bytes} (h : caller.phase = .arrived)
      (hprepare : prepare go pg caller.request db = .ok normalized) :
      Moves db pending caller db (.ready normalized)
  | insert {normalized id : Bytes} {now : Time} (h : caller.phase = .ready normalized)
      (hfree : Free db pending (caller.request.row normalized id now)) :
      Moves db pending caller db (.inserted (caller.request.row normalized id now))
  | skip {normalized : Bytes} {owner : CommandRow} (h : caller.phase = .ready normalized)
      (howner : keyOwner db caller.request.tenantID caller.request.key = some owner) :
      Moves db pending caller db (.skipped normalized)
  | audit {row : CommandRow} (h : caller.phase = .inserted row) :
      Moves db pending caller db (.written row)
  | find {normalized : Bytes} {owner : CommandRow} (h : caller.phase = .skipped normalized)
      (howner : keyOwner db caller.request.tenantID caller.request.key = some owner)
      (hdevice : owner.deviceID = caller.request.deviceID)
      (hpayload : pg.jsonbEq owner.payload normalized) :
      Moves db pending caller db (.matched owner)
  | create {row : CommandRow} {phase : Phase} (h : caller.phase = .written row)
      (hnew : db.commands.find? row.id = none)
      (hphase : phase = .created row.command ∨ ∃ err, phase = .unconfirmed row.id err) :
      Moves db pending caller (db.insertCommand row hnew) phase
  | reuse {owner : CommandRow} (h : caller.phase = .matched owner) :
      Moves db pending caller db (.reused owner.command)
  | fail {err : GoError} (h : caller.phase.running) : Moves db pending caller db (.failed err)

/-- The key of a row as a request gives it. -/
theorem keyOwner_eq_some {db : Db} {tenantID key : Bytes} {owner : CommandRow}
    (h : keyOwner db tenantID key = some owner) :
    key ≠ [] ∧ owner ∈ db.commands.rows ∧ owner.tenantID = tenantID ∧
      owner.idempotencyKey = some key := by
  unfold keyOwner at h
  split_ifs at h with hkey
  have hfound := List.find?_some h
  simp only [decide_eq_true_eq] at hfound
  exact ⟨hkey, List.mem_of_find?_eq_some h, hfound⟩

/-- No committed row has the key of a request that no row owns. -/
theorem sameKey_of_keyOwner {db : Db} {request : CreateRequest} {normalized id : Bytes}
    {now : Time} (h : keyOwner db request.tenantID request.key = none) {other : CommandRow}
    (hother : other ∈ db.commands.rows) :
    sameKey (request.row normalized id now) other = false := by
  unfold keyOwner at h
  unfold sameKey CreateRequest.row newCommandRow
  split_ifs at h with hkey
  · simp [hkey]
  · have hnone := List.find?_eq_none.mp h other hother
    simp only [decide_eq_true_eq, not_and] at hnone
    simp only [hkey, if_false, Bool.and_eq_false_iff, beq_eq_false_iff_ne, ne_eq]
    by_cases htenant : other.tenantID = request.tenantID
    · exact Or.inl (Or.inr fun heq => hnone htenant heq.symm)
    · exact Or.inl (Or.inl fun heq => htenant heq.symm)

/-- What an `INSERT` can lead to. -/
theorem insertPhase_cases (request : CreateRequest) (normalized id : Bytes) (now : Time) (db : Db)
    (pending : List CommandRow) :
    ((∃ owner, keyOwner db request.tenantID request.key = some owner) ∧
      insertPhase request normalized id now db pending = .skipped normalized) ∨
    insertPhase request normalized id now db pending = .ready normalized ∨
    insertPhase request normalized id now db pending = .failed errDuplicateID ∨
    (Free db pending (request.row normalized id now) ∧
      insertPhase request normalized id now db pending =
        .inserted (request.row normalized id now)) := by
  unfold insertPhase
  by_cases howner : (keyOwner db request.tenantID request.key).isSome
  · exact Or.inl ⟨Option.isSome_iff_exists.mp howner, by simp [howner]⟩
  right
  rw [if_neg howner]
  by_cases hkey : pending.any (sameKey (request.row normalized id now))
  · exact Or.inl (by simp [hkey])
  rw [if_neg hkey]
  by_cases hid : (db.commands.find? id).isSome
  · exact Or.inr (Or.inl (by simp [hid]))
  rw [if_neg hid]
  by_cases hpending : pending.any fun other => other.id == id
  · exact Or.inl (by simp [hpending])
  rw [if_neg hpending]
  refine Or.inr (Or.inr ⟨⟨fun other hother => ⟨?_, ?_⟩, fun other hother => ⟨?_, ?_⟩⟩, rfl⟩)
  · intro heq
    have hfound := (db.commands.find?_eq_some_iff id other).mpr ⟨hother, heq⟩
    simp [hfound] at hid
  · exact sameKey_of_keyOwner (by simpa using howner) hother
  · intro heq
    exact hpending (List.any_eq_true.mpr ⟨other, hother, beq_iff_eq.mpr heq⟩)
  · exact Bool.eq_false_iff.mpr fun htrue => hkey (List.any_eq_true.mpr ⟨other, hother, htrue⟩)

/-- A statement of a caller does nothing else. -/
theorem caller_step (db : Db) (pending : List CommandRow) (caller : Caller)
    (statement : Statement) :
    Caller.Moves go pg db pending caller (caller.step go pg db pending statement).1
      (caller.step go pg db pending statement).2 := by
  unfold Caller.step
  split
  · next hphase =>
    split
    · exact .fail (by rw [hphase]; rfl)
    · next hprepare => exact .prepare hphase hprepare
  · next hphase => exact .fail (by rw [hphase]; rfl)
  · next normalized id now hphase =>
    rcases insertPhase_cases caller.request normalized id now db pending with
      ⟨⟨owner, howner⟩, hskip⟩ | hwait | hfail | ⟨hfree, hinsert⟩
    · rw [hskip]
      exact .skip hphase howner
    · rw [hwait, ← hphase]
      exact .stay
    · rw [hfail]
      exact .fail (by rw [hphase]; rfl)
    · rw [hinsert]
      exact .insert hphase hfree
  · next hphase => exact .audit hphase
  · next normalized hphase =>
    unfold selectPhase
    split
    · exact .fail (by rw [hphase]; rfl)
    · next owner howner =>
      split_ifs with hmatch
      · exact .find hphase howner hmatch.1 hmatch.2
      · exact .fail (by rw [hphase]; rfl)
  · next hphase =>
    split
    · exact .create hphase _ (Or.inl rfl)
    · exact .stay
  · next hphase =>
    split
    · exact .create hphase _ (Or.inr ⟨_, rfl⟩)
    · exact .stay
  · next hphase => exact .reuse hphase
  · next hphase => exact .fail (by rw [hphase]; rfl)
  · next hphase => exact .fail (by rw [hphase]; rfl)
  · next hphase => exact .fail (by rw [hphase]; rfl)
  · next hphase => exact .fail (by rw [hphase]; rfl)
  · next hphase => exact .fail (by rw [hphase]; rfl)
  · next hphase => exact .fail (by rw [hphase]; rfl)
  · exact .stay

end Iot.Store
