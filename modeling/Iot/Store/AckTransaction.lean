import Iot.Execution.Transaction
import Iot.Store.Lifecycle

/-!
# The transaction of an acknowledgement

`AckCommandResultContext` (`internal/platform/postgres_store.go`) statement by statement: every
statement and the commit may fail, and what is not committed when the function returns is rolled
back. The row is locked by the first statement, so that no other transaction changes it in between.

`transact_ack` says that a transaction without faults does what `ackCommandResult` does in one
step, and `ends_ack` how one with faults compares with it.
-/

namespace Iot.Store

open Text Contracts Platform Data Execution

variable (go : GoRuntime) (pg : Postgres)

/-- The statements of the transaction. -/
inductive AckStatement where
  | begin
  | select
  | compare
  | update
  | insertAck
  | insertEvent
  deriving DecidableEq, Repr

/-- The fault a statement reports, if any, and how the commit ends. -/
structure Faults where
  statement : AckStatement → Option GoError
  commit : CommitOutcome GoError

/-- No statement reports a fault, and the commit is confirmed. -/
def noFaults : Faults := ⟨fun _ => none, .confirmed⟩

/-- The violation of a foreign key. -/
def errForeignKey : GoError := .new "violates foreign key constraint"

/-- Insert an event of a command that exists. -/
def Db.insertEvent (db : Db) (event : EventRow) (h : (db.commands.find? event.commandID).isSome) :
    Db where
  devices := db.devices
  commands := db.commands
  acks := db.acks
  events := db.events ++ [event]
  acksReference := db.acksReference
  eventsReference other hother := by
    rw [List.mem_append, List.mem_singleton] at hother
    rcases hother with hother | rfl
    · exact db.eventsReference other hother
    · exact h

/-- `SELECT … FROM commands WHERE id = $1 FOR UPDATE`. -/
def selectCommand (id : Bytes) (db : Db) : Except GoError (CommandRow × Db) :=
  match db.commands.find? id with
  | none => .error (.label "command" errNotFound)
  | some row => .ok (row, db)

/-- `SELECT result=$2::jsonb FROM commands WHERE id=$1`, for the stored result. -/
def compareResult (stored normalized : CommandResult) (db : Db) : Except GoError (Bool × Db) := do
  let other ← storedResult pg normalized
  pure (sameResult pg stored other, db)

/-- `UPDATE commands SET status=$1,updated_at=$2,result=$4::jsonb WHERE id=$3`. -/
def updateResult (id : Bytes) (next : CommandStatus) (now : Time) (normalized : CommandResult)
    (db : Db) : Except GoError (Unit × Db) := do
  let result ← storedResult pg normalized
  pure ((), db.updateCommands (fun other => other.id == id)
    (fun other => { other with status := next, updatedAt := now, result := some result })
    (fun _ => rfl) none)

/-- `INSERT INTO command_ack`. -/
def insertAckRow (id tenantID deviceID : Bytes) (normalized : CommandResult) (now : Time)
    (db : Db) : Except GoError (Unit × Db) := do
  let result ← storedResult pg normalized
  if h : (db.commands.find? id).isSome then
    pure ((), db.insertAck ⟨id, tenantID, deviceID, normalized.status, result, now⟩ h)
  else throw errForeignKey

/-- `INSERT INTO command_events`. -/
def insertEventRow (id : Bytes) (event : CommandEvent) (db : Db) : Except GoError (Unit × Db) :=
  if h : (db.commands.find? id).isSome then .ok ((), db.insertEvent ⟨id, event⟩ h)
  else .error errForeignKey

/-- The event of a status a device reports, and the status it leads to. -/
def reportedEvent (status : CommandStatus) (reported : Bytes) :
    Except GoError (CommandEvent × CommandStatus) :=
  match commandEvent? reported with
  | none => .error errInvalidCommandTransition
  | some event => do
      let next ← advanceCommandStatus status event
      pure (event, next)

/-- The end of the transaction for a command in a final status. -/
def repeatedAck (fault : Faults) (normalized : CommandResult) (row : CommandRow) :
    Tx Db GoError Command :=
  match row.result with
  | none => do
      Tx.commit fault.commit
      pure row.command
  | some stored => do
      let equal ← Tx.statement (fault.statement .compare) (compareResult pg stored normalized)
      if equal then do
        Tx.commit fault.commit
        pure row.command
      else Tx.check (.error errAcknowledgementConflict)

/-- The end of the transaction for an open command. -/
def firstAck (fault : Faults) (normalized : CommandResult) (now : Time) (row : CommandRow) :
    Tx Db GoError Command := do
  let reported ← Tx.check (reportedEvent row.status normalized.status)
  Tx.statement (fault.statement .update) (updateResult pg row.id reported.2 now normalized)
  Tx.statement (fault.statement .insertAck)
    (insertAckRow pg row.id row.tenantID row.deviceID normalized now)
  Tx.statement (fault.statement .insertEvent) (insertEventRow row.id reported.1)
  Tx.commit fault.commit
  pure { row.command with status := reported.2, updatedAt := now, result := some normalized }

/-- `AckCommandResultContext`. -/
def ackTransaction (fault : Faults) (id tenantID deviceID : Bytes) (input : CommandResult)
    (now : Time) : Tx Db GoError Command := do
  Tx.check (validateDeviceIdentity tenantID deviceID)
  Tx.check (validateCommandID id)
  let normalized ← Tx.check (normalizeCommandResult go input)
  let _encoded ← Tx.check (resultToks go 0 normalized)
  Tx.statement (fault.statement .begin) fun db => .ok ((), db)
  let row ← Tx.statement (fault.statement .select) (selectCommand id)
  if row.tenantID ≠ tenantID ∨ row.deviceID ≠ deviceID then
    Tx.check (.error (.label "command" errNotFound))
  else if row.status.terminal then repeatedAck pg fault normalized row
  else firstAck pg fault normalized now row

/-! ## Transactions with faults -/

variable {go pg}

/-- The commit is the last thing a transaction does. -/
theorem ends_ack (fault : Faults) (id tenantID deviceID : Bytes) (input : CommandResult)
    (now : Time) : Tx.Ends fault.commit (ackTransaction go pg fault id tenantID deviceID input now)
      (ackTransaction go pg noFaults id tenantID deviceID input now) := by
  unfold ackTransaction
  refine (Tx.prepares_check _).bind fun _ => (Tx.prepares_check _).bind fun _ =>
    (Tx.prepares_check _).bind fun normalized => (Tx.prepares_check _).bind fun _ =>
    (Tx.prepares_statement _ _).bind fun _ => (Tx.prepares_statement _ _).bind fun row => ?_
  split_ifs
  · exact (Tx.prepares_check _).ends _
  · unfold repeatedAck
    split
    · exact Tx.ends_commit _ _
    · refine (Tx.prepares_statement _ _).bind fun equal => ?_
      split_ifs
      · exact Tx.ends_commit _ _
      · exact (Tx.prepares_check _).ends _
  · unfold firstAck
    exact (Tx.prepares_check _).bind fun _ => (Tx.prepares_statement _ _).bind fun _ =>
      (Tx.prepares_statement _ _).bind fun _ => (Tx.prepares_statement _ _).bind fun _ =>
      Tx.ends_commit _ _

/-! ## Transactions without faults -/

/-- The tables are given by their rows. -/
theorem Db.eq_of {left right : Db} (hdevices : left.devices = right.devices)
    (hcommands : left.commands = right.commands) (hacks : left.acks = right.acks)
    (hevents : left.events = right.events) : left = right := by
  cases left
  cases right
  simp only at hdevices hcommands hacks hevents
  subst hdevices hcommands hacks hevents
  rfl

/-- The row, the acknowledgement and the event of an acknowledgement, table by table. -/
theorem acknowledge_tables (db : Db) (row : CommandRow) (h : db.commands.find? row.id = some row)
    (next : CommandStatus) (event : CommandEvent) (result : CommandResult) (now : Time) :
    (db.acknowledge row h next event result now).acks =
        db.acks ++ [⟨row.id, row.tenantID, row.deviceID, result.status, result, now⟩] ∧
      (db.acknowledge row h next event result now).events = db.events ++ [⟨row.id, event⟩] := by
  have hfilter : (db.commands.rows.filter fun other => other.id == row.id) = [row] := by
    have hkey := db.commands.filter_key row.id
    rw [h] at hkey
    simpa only [beq_eq_decide, Option.toList_some] using hkey
  refine ⟨rfl, ?_⟩
  show db.events ++ ((db.commands.rows.filter fun other => other.id == row.id).flatMap
    fun other => [⟨other.id, event⟩]) = _
  rw [hfilter]
  rfl

/-- The status of a result is stored as it is. -/
theorem storedResult_status {normalized result : CommandResult}
    (h : storedResult pg normalized = .ok result) : normalized.status = result.status := by
  simp only [storedResult, bind_eq_ok] at h
  obtain ⟨payload, _, h⟩ := h
  cases h
  rfl

/-- The three statements of an acknowledgement write what `Db.acknowledge` writes. -/
theorem acknowledge_statements {db : Db} {row : CommandRow}
    (h : db.commands.find? row.id = some row) {normalized result : CommandResult}
    (hresult : storedResult pg normalized = .ok result) (next : CommandStatus)
    (event : CommandEvent) (now : Time) :
    ∃ updated acked, updateResult pg row.id next now normalized db = .ok ((), updated) ∧
      insertAckRow pg row.id row.tenantID row.deviceID normalized now updated = .ok ((), acked) ∧
      insertEventRow row.id event acked =
        .ok ((), db.acknowledge row h next event result now) := by
  -- the row is still there after the update, so both references hold
  have hsome : ((db.acknowledge row h next event result now).commands.find? row.id).isSome := by
    rw [← view_row, view_acknowledge, if_pos rfl]
    rfl
  obtain ⟨hacks, hevents⟩ := acknowledge_tables db row h next event result now
  refine ⟨_, _, by simp only [updateResult, hresult]; rfl,
    by simp only [insertAckRow, hresult]; exact dif_pos hsome, ?_⟩
  refine (dif_pos hsome).trans (congrArg Except.ok (Prod.ext rfl (Db.eq_of rfl rfl ?_ ?_)))
  · rw [hacks]
    show db.acks ++ [⟨row.id, row.tenantID, row.deviceID, normalized.status, result, now⟩] = _
    rw [storedResult_status hresult]
  · rw [hevents]
    show (db.events ++ (db.commands.rows.filter fun other => other.id == row.id).flatMap
      fun _ => []) ++ [⟨row.id, event⟩] = _
    rw [List.flatMap_eq_nil_iff.mpr fun _ _ => rfl, List.append_nil]

/-- The end of a transaction without faults for a command that belongs to the device. -/
theorem acknowledgeRow_transact {normalized : CommandResult} {now : Time} {db : Db}
    {row : CommandRow} (h : db.commands.find? row.id = some row) :
    ∃ work, (if row.status.terminal then repeatedAck pg noFaults normalized row
        else firstAck pg noFaults normalized now row) ⟨db, db⟩ =
      ((acknowledgeRow pg normalized now db row h).map Prod.fst,
        ⟨committed db (acknowledgeRow pg normalized now db row h), work⟩) := by
  unfold acknowledgeRow
  split_ifs with hterminal
  · unfold repeatedAck
    cases row.result with
    | none => exact ⟨db, rfl⟩
    | some stored =>
        cases hresult : storedResult pg normalized with
        | error err =>
            refine ⟨db, Tx.statement_error_bind ?_⟩
            simp only [compareResult, hresult]
            rfl
        | ok other =>
            have hcompare : compareResult pg stored normalized db =
                .ok (sameResult pg stored other, db) := by
              simp only [compareResult, hresult]
              rfl
            refine ⟨db, (Tx.statement_ok_bind hcompare).trans ?_⟩
            simp only [bind, Except.bind]
            split_ifs <;> rfl
  · unfold firstAck reportedEvent
    cases hevent : commandEvent? normalized.status with
    | none => exact ⟨db, rfl⟩
    | some event =>
        cases hnext : advanceCommandStatus row.status event with
        | error err => exact ⟨db, by simp only [hnext]; rfl⟩
        | ok next =>
            cases hresult : storedResult pg normalized with
            | error err =>
                refine ⟨db, ?_⟩
                simp only [hnext, bind, Except.bind, pure, Except.pure]
                refine (Tx.check_ok_bind _ _ _).trans (Tx.statement_error_bind ?_)
                simp only [updateResult, hresult]
                rfl
            | ok result =>
                obtain ⟨updated, acked, hupdate, hack, hinsert⟩ :=
                  acknowledge_statements h hresult next event now
                refine ⟨db.acknowledge row h next event result now, ?_⟩
                simp only [hnext, bind, Except.bind, pure, Except.pure]
                refine (Tx.check_ok_bind _ _ _).trans ?_
                refine (Tx.statement_ok_bind hupdate).trans ?_
                refine (Tx.statement_ok_bind hack).trans ?_
                refine (Tx.statement_ok_bind hinsert).trans ?_
                exact Tx.commit_bind _ _

/-- The arguments of an acknowledgement pass the checks made before the transaction. -/
structure Accepted (go : GoRuntime) (id tenantID deviceID : Bytes)
    (input normalized : CommandResult) :
    Prop where
  identity : validateDeviceIdentity tenantID deviceID = .ok ()
  commandID : validateCommandID id = .ok ()
  result : normalizeCommandResult go input = .ok normalized
  encoded : ∃ toks, resultToks go 0 normalized = .ok toks

/-- The arguments pass the checks, or every call with them fails with the same error. -/
theorem accepted_or_rejected (id tenantID deviceID : Bytes) (input : CommandResult) :
    (∃ normalized, Accepted go id tenantID deviceID input normalized) ∨
      ∃ err, ∀ now db, ackCommandResult go pg id tenantID deviceID input now db = .error err ∧
        ∀ fault, ackTransaction go pg fault id tenantID deviceID input now ⟨db, db⟩ =
          (.error err, ⟨db, db⟩) := by
  unfold ackCommandResult ackTransaction
  cases hidentity : validateDeviceIdentity tenantID deviceID with
  | error err => exact Or.inr ⟨err, fun _ _ => ⟨rfl, fun _ => rfl⟩⟩
  | ok _ =>
      cases hcommand : validateCommandID id with
      | error err => exact Or.inr ⟨err, fun _ _ => ⟨rfl, fun _ => rfl⟩⟩
      | ok _ =>
          cases hresult : normalizeCommandResult go input with
          | error err => exact Or.inr ⟨err, fun _ _ => ⟨rfl, fun _ => rfl⟩⟩
          | ok normalized =>
              cases hencoded : resultToks go 0 normalized with
              | ok toks => exact Or.inl ⟨normalized, hidentity, hcommand, hresult, toks, hencoded⟩
              | error err =>
                  refine Or.inr ⟨err, fun now db => ⟨?_, fun fault => ?_⟩⟩
                  · simp only [bind, Except.bind, hencoded]
                  · simp only [Tx.check_ok_bind, hencoded, Tx.check_error_bind]

/-- A call for a command that does not exist. -/
theorem ackCommandResult_absent {id tenantID deviceID : Bytes} {input normalized : CommandResult}
    (h : Accepted go id tenantID deviceID input normalized) (now : Time) {db : Db}
    (hfind : db.commands.find? id = none) :
    ackCommandResult go pg id tenantID deviceID input now db =
      .error (.label "command" errNotFound) := by
  obtain ⟨toks, htoks⟩ := h.encoded
  simp only [ackCommandResult, h.identity, h.commandID, h.result, htoks, bind, Except.bind]
  split
  · rfl
  · next hrow =>
    rw [hfind] at hrow
    cases hrow

/-- A call for a command that exists. -/
theorem ackCommandResult_found {id tenantID deviceID : Bytes} {input normalized : CommandResult}
    (h : Accepted go id tenantID deviceID input normalized) (now : Time) {db : Db}
    {row : CommandRow} (hfind : db.commands.find? id = some row)
    (hrow : db.commands.find? row.id = some row) :
    ackCommandResult go pg id tenantID deviceID input now db =
      if row.tenantID ≠ tenantID ∨ row.deviceID ≠ deviceID then
        .error (.label "command" errNotFound)
      else acknowledgeRow pg normalized now db row hrow := by
  obtain ⟨toks, htoks⟩ := h.encoded
  simp only [ackCommandResult, h.identity, h.commandID, h.result, htoks, bind, Except.bind]
  split
  · next hrow =>
    rw [hfind] at hrow
    cases hrow
  · next hrow =>
    cases hfind.symm.trans hrow
    rfl

/-- A transaction without faults returns and writes what `ackCommandResult` does. -/
theorem transact_ack (id tenantID deviceID : Bytes) (input : CommandResult) (now : Time)
    (db : Db) :
    (ackTransaction go pg noFaults id tenantID deviceID input now).transact db =
      ((ackCommandResult go pg id tenantID deviceID input now db).map Prod.fst,
        committed db (ackCommandResult go pg id tenantID deviceID input now db)) := by
  have hsession : ∃ work, ackTransaction go pg noFaults id tenantID deviceID input now ⟨db, db⟩ =
      ((ackCommandResult go pg id tenantID deviceID input now db).map Prod.fst,
        ⟨committed db (ackCommandResult go pg id tenantID deviceID input now db), work⟩) := by
    rcases @accepted_or_rejected go pg id tenantID deviceID input with
      ⟨normalized, haccepted⟩ | ⟨err, hrejected⟩
    · obtain ⟨toks, htoks⟩ := haccepted.encoded
      unfold ackTransaction
      simp only [haccepted.identity, haccepted.commandID, haccepted.result, htoks,
        Tx.check_ok_bind]
      cases hfind : db.commands.find? id with
      | none =>
          rw [ackCommandResult_absent haccepted now hfind]
          refine ⟨db, (Tx.statement_ok_bind rfl).trans (Tx.statement_error_bind ?_)⟩
          simp only [selectCommand, hfind]
      | some row =>
          have hrow : db.commands.find? row.id = some row := by
            rw [Table.key_of_find? hfind]
            exact hfind
          have hselect : selectCommand id db = .ok (row, db) := by
            simp only [selectCommand, hfind]
          rw [ackCommandResult_found haccepted now hfind hrow]
          by_cases hforeign : row.tenantID ≠ tenantID ∨ row.deviceID ≠ deviceID
          · refine ⟨db, (Tx.statement_ok_bind rfl).trans ((Tx.statement_ok_bind hselect).trans ?_)⟩
            rw [if_pos hforeign, if_pos hforeign]
            rfl
          · obtain ⟨work, hwork⟩ := @acknowledgeRow_transact pg normalized now db row hrow
            refine ⟨work, (Tx.statement_ok_bind rfl).trans
              ((Tx.statement_ok_bind hselect).trans ?_)⟩
            rw [if_neg hforeign, if_neg hforeign]
            exact hwork
    · obtain ⟨hcall, htransaction⟩ := hrejected now db
      refine ⟨db, ?_⟩
      rw [hcall, htransaction noFaults]
      rfl
  obtain ⟨work, hwork⟩ := hsession
  rw [Tx.transact, hwork]

end Iot.Store
