import Iot.Store.AckTransaction
import Iot.Store.RowInvariant
import Iot.Worker.AckChecks

/-!
# The first result wins

Acknowledgements arrive over REST, over MQTT and from the dead-letter topic, in any order and any
number of times. All of them end in the transaction of `AckCommandResultContext`, here `ackCall`.
`first_result_wins` says what each of these calls does after any run of the command operations.
-/

namespace Iot.Worker

open Text Json Contracts Platform Data Store Execution

variable {go : GoRuntime} {pg : Postgres}

/-- `AckCommandResultContext`: what it returns, and the tables afterwards. -/
def ackCall (go : GoRuntime) (pg : Postgres) (fault : Faults) (id tenantID deviceID : Bytes)
    (input : CommandResult) (now : Time) (db : Db) : Except GoError Command × Db :=
  (ackTransaction go pg fault id tenantID deviceID input now).transact db

/-- The command exists and belongs to the device. -/
structure Owned (db : Db) (id tenantID deviceID : Bytes) (row : CommandRow) : Prop where
  found : db.commands.find? id = some row
  tenant : row.tenantID = tenantID
  device : row.deviceID = deviceID

/-- A call for a command of the device. -/
theorem ackCall_owned {id tenantID deviceID : Bytes} {input normalized : CommandResult}
    (h : Accepted go id tenantID deviceID input normalized) (now : Time) {db : Db}
    {row : CommandRow} (howned : Owned db id tenantID deviceID row)
    (hrow : db.commands.find? row.id = some row) :
    ackCall go pg noFaults id tenantID deviceID input now db =
      ((acknowledgeRow pg normalized now db row hrow).map Prod.fst,
        committed db (acknowledgeRow pg normalized now db row hrow)) := by
  have hsame : ¬ (row.tenantID ≠ tenantID ∨ row.deviceID ≠ deviceID) := by
    simp [howned.tenant, howned.device]
  rw [ackCall, transact_ack, ackCommandResult_found h now howned.found hrow, if_neg hsame]

/-- The first report of the device: one row changes, and one acknowledgement and one event are
written. -/
theorem ackCall_first (hpg : Healthy pg) {id tenantID deviceID : Bytes}
    {input normalized : CommandResult} (h : Accepted go id tenantID deviceID input normalized)
    (now : Time) {db : Db} {row : CommandRow} (howned : Owned db id tenantID deviceID row)
    (hopen : row.status.terminal = false) :
    ∃ cmd after next event result,
      ackCall go pg noFaults id tenantID deviceID input now db = (.ok cmd, after) ∧
      storedResult pg normalized = .ok result ∧ next.text = normalized.status ∧ next.terminal ∧
      commandEvent? normalized.status = some event ∧
      after.acks = db.acks ++ [⟨id, tenantID, deviceID, normalized.status, result, now⟩] ∧
      after.events = db.events ++ [⟨id, event⟩] ∧
      ∀ other, after.commands.find? other =
        if id = other then some { row with status := next, updatedAt := now, result := some result }
        else db.commands.find? other := by
  obtain ⟨hfound, rfl, rfl⟩ := howned
  obtain rfl : row.id = id := Table.key_of_find? hfound
  obtain ⟨next, event, result, hstored, hevent, hnext, hrow⟩ :=
    acknowledgeRow_open hpg h.result now hfound hopen
  obtain ⟨hnormalized, hstatus⟩ := normalize_status h.result
  have hreported : normalized.status = CommandStatus.acked.text ∨
      normalized.status = CommandStatus.failed.text := by
    rw [hnormalized]
    exact hstatus
  obtain ⟨hcase, htext⟩ := advance_acknowledged hreported hevent hnext
  have hcall : ackCall go pg noFaults row.id row.tenantID row.deviceID input now db =
      (.ok { row.command with status := next, updatedAt := now, result := some normalized },
        db.acknowledge row hfound next event result now) := by
    rw [ackCall_owned h now ⟨hfound, rfl, rfl⟩ hfound, hrow]
    rfl
  obtain ⟨hacks, hevents⟩ := acknowledge_tables db row hfound next event result now
  refine ⟨_, _, next, event, result, hcall, hstored, htext, ?_, hevent, ?_, hevents, ?_⟩
  · rcases hcase with hcase | hcase <;> rw [hcase.1] <;> rfl
  · rw [storedResult_status hstored]
    exact hacks
  · intro other
    rw [← view_row, view_acknowledge]
    split_ifs
    · rfl
    · exact view_row db other

/-- A report for a command in a final status: nothing changes. -/
theorem ackCall_repeated (hpg : Healthy pg) {id tenantID deviceID : Bytes}
    {input normalized : CommandResult} (h : Accepted go id tenantID deviceID input normalized)
    (now : Time) {db : Db} {row : CommandRow} (howned : Owned db id tenantID deviceID row)
    (hterminal : row.status.terminal) :
    (row.result = none →
      ackCall go pg noFaults id tenantID deviceID input now db = (.ok row.command, db)) ∧
    ∀ stored, row.result = some stored → ∃ result, storedResult pg normalized = .ok result ∧
      ackCall go pg noFaults id tenantID deviceID input now db =
        (if sameResult pg stored result then .ok row.command
          else .error errAcknowledgementConflict, db) := by
  have hrow : db.commands.find? row.id = some row := by
    rw [Table.key_of_find? howned.found]
    exact howned.found
  rw [ackCall_owned h now howned hrow]
  unfold acknowledgeRow
  rw [if_pos hterminal]
  constructor
  · intro hnone
    rw [hnone]
    rfl
  · intro stored hstored
    obtain ⟨result, hresult⟩ := @normalized_storable go pg hpg _ _ h.result
    refine ⟨result, hresult, ?_⟩
    simp only [hstored, hresult, bind, Except.bind]
    split_ifs <;> rfl

/-- A report for a command of another tenant or device looks like one for no command. -/
theorem ackCall_foreign {id tenantID deviceID : Bytes} {db : Db} {row : CommandRow}
    (hfound : db.commands.find? id = some row)
    (hforeign : row.tenantID ≠ tenantID ∨ row.deviceID ≠ deviceID) (input : CommandResult)
    (now : Time) {other : Db} (habsent : other.commands.find? id = none) :
    ∃ err, ackCall go pg noFaults id tenantID deviceID input now db = (.error err, db) ∧
      ackCall go pg noFaults id tenantID deviceID input now other = (.error err, other) := by
  have hrow : db.commands.find? row.id = some row := by
    rw [Table.key_of_find? hfound]
    exact hfound
  unfold ackCall
  rw [transact_ack, transact_ack]
  rcases @accepted_or_rejected go pg id tenantID deviceID input with
    ⟨normalized, haccepted⟩ | ⟨err, hrejected⟩
  · rw [ackCommandResult_found haccepted now hfound hrow, if_pos hforeign,
      ackCommandResult_absent haccepted now habsent]
    exact ⟨_, rfl, rfl⟩
  · rw [(hrejected now db).1, (hrejected now other).1]
    exact ⟨err, rfl, rfl⟩

/-- **The first result wins, and only for the owner.** After every run of the command operations,
whatever the arguments of a call and the faults of its statements: a call that fails has changed
nothing, unless its commit was applied and not confirmed and it has changed what the call without
faults changes; and one that succeeds does what it does without faults. Without faults, the call
that finds the command open stores its status and result for good, with one acknowledgement, the
first of the command, and one event; a call that finds it ended succeeds without changing anything
when there is no result or an equal one, and conflicts otherwise; and a call of another tenant or
device cannot be told from one for a command that does not exist. -/
theorem first_result_wins (go : GoRuntime) (pg : Postgres) (hpg : Healthy pg) (ops : List Op)
    (id tenantID deviceID : Bytes) (input : CommandResult) (now : Time) :
    let db := run (step go pg) Db.empty ops
    (∀ fault err after,
      ackCall go pg fault id tenantID deviceID input now db = (.error err, after) →
        after = db ∨ fault.commit = .unconfirmed err ∧
          ∃ cmd, ackCall go pg noFaults id tenantID deviceID input now db = (.ok cmd, after)) ∧
    (∀ fault cmd after,
      ackCall go pg fault id tenantID deviceID input now db = (.ok cmd, after) →
        ackCall go pg noFaults id tenantID deviceID input now db = (.ok cmd, after) ∧
          after = step go pg db (.ackCommandResult id tenantID deviceID input now)) ∧
    (∀ normalized, Accepted go id tenantID deviceID input normalized →
      ∀ row, Owned db id tenantID deviceID row →
        (row.status.terminal = false →
          (∃ cmd after next event result,
            ackCall go pg noFaults id tenantID deviceID input now db = (.ok cmd, after) ∧
            storedResult pg normalized = .ok result ∧ next.text = normalized.status ∧
            next.terminal ∧ commandEvent? normalized.status = some event ∧
            after.acks = db.acks ++ [⟨id, tenantID, deviceID, normalized.status, result, now⟩] ∧
            after.events = db.events ++ [⟨id, event⟩] ∧
            (∀ other, after.commands.find? other =
              if id = other then
                some { row with status := next, updatedAt := now, result := some result }
              else db.commands.find? other) ∧
            ∀ later, (run (step go pg) after later).view id = after.view id) ∧
          (db.view id).acks = []) ∧
        (row.status.terminal → row.result = none →
          ackCall go pg noFaults id tenantID deviceID input now db = (.ok row.command, db)) ∧
        (row.status.terminal → ∀ stored, row.result = some stored →
          ∃ result, storedResult pg normalized = .ok result ∧
            ackCall go pg noFaults id tenantID deviceID input now db =
              (if sameResult pg stored result then .ok row.command
                else .error errAcknowledgementConflict, db))) ∧
    ∀ row, db.commands.find? id = some row →
      row.tenantID ≠ tenantID ∨ row.deviceID ≠ deviceID →
      ∀ other : Db, other.commands.find? id = none →
        ∃ err, ackCall go pg noFaults id tenantID deviceID input now db = (.error err, db) ∧
          ackCall go pg noFaults id tenantID deviceID input now other = (.error err, other) := by
  intro db
  have hends := fun fault =>
    Tx.transact_ends (@ends_ack go pg fault id tenantID deviceID input now) db
  refine ⟨?_, ?_, ?_, ?_⟩
  · intro fault err after h
    obtain ⟨_, hfailed⟩ | ⟨_, _, hok, _⟩ | ⟨_, cmd, _, hcommit, hlost, hplain⟩ := hends fault
    · cases h.symm.trans hfailed
      exact .inl rfl
    · cases h.symm.trans hok
    · cases h.symm.trans hlost
      exact .inr ⟨hcommit, cmd, hplain⟩
  · intro fault cmd after h
    obtain ⟨_, hfailed⟩ | ⟨_, _, hok, hplain⟩ | ⟨_, _, _, _, hlost, _⟩ := hends fault
    · cases h.symm.trans hfailed
    · cases h.symm.trans hok
      refine ⟨hplain, ?_⟩
      rw [transact_ack] at hplain
      exact (Prod.mk.inj hplain).2.symm
    · cases h.symm.trans hlost
  · intro normalized haccepted row howned
    refine ⟨?_, fun hterminal => (ackCall_repeated hpg haccepted now howned hterminal).1,
      fun hterminal => (ackCall_repeated hpg haccepted now howned hterminal).2⟩
    intro hopen
    constructor
    · obtain ⟨cmd, after, next, event, result, hcall, hstored, htext, hended, hevent, hacks,
        hevents, hrows⟩ := ackCall_first hpg haccepted now howned hopen
      refine ⟨cmd, after, next, event, result, hcall, hstored, htext, hended, hevent, hacks,
        hevents, hrows, fun later => ?_⟩
      have hrow := hrows id
      rw [if_pos rfl] at hrow
      exact run_terminal go pg after later hrow hended
    · exact ((run_valid go pg ops id row howned.found).open_result hopen).2
  · intro row hfound hforeign other habsent
    exact ackCall_foreign hfound hforeign input now habsent

/-- The connection is lost after the commit was applied. -/
def lostConfirmation : Faults := ⟨fun _ => none, .unconfirmed (.new "unexpected EOF")⟩

/-- **A call that fails and has changed all three tables**: the first report for the command `c`,
when the confirmation of its commit is lost. -/
theorem unconfirmed_ack_changes :
    let db := run (step .plain .plain) Db.empty (ackedRun.take 2)
    let reply := ackCall .plain .plain lostConfirmation (ascii "c") (ascii "t") (ascii "d")
      ⟨ascii "acked", [], []⟩ 5 db
    reply.1 = .error (.new "unexpected EOF") ∧
      reply.2.commands.find? (ascii "c") ≠ db.commands.find? (ascii "c") ∧
      reply.2.acks ≠ db.acks ∧ reply.2.events ≠ db.events := by
  decide +kernel

/-- A report that arguments of valid form make is accepted. -/
theorem accepted_c (status : String) (h : status = "acked" ∨ status = "failed") :
    Accepted .plain (ascii "c") (ascii "t") (ascii "d") ⟨ascii status, [], []⟩
      ⟨ascii status, [], ascii "\x7b\x7d"⟩ := by
  rcases h with rfl | rfl <;>
    exact ⟨by decide +kernel, by decide +kernel, by decide +kernel, _, rfl⟩

/-- A command is created and acknowledged; a report of a failure after that conflicts. -/
theorem first_result_wins_c :
    (∃ cmd after, ackCall .plain .plain noFaults (ascii "c") (ascii "t") (ascii "d")
        ⟨ascii "acked", [], []⟩ 5 (run (step .plain .plain) Db.empty (ackedRun.take 2)) =
          (.ok cmd, after) ∧
        (after.view (ascii "c")).acks.length = 1) ∧
      ackCall .plain .plain noFaults (ascii "c") (ascii "t") (ascii "d") ⟨ascii "failed", [], []⟩ 6
          (run (step .plain .plain) Db.empty ackedRun) =
        (.error errAcknowledgementConflict, run (step .plain .plain) Db.empty ackedRun) := by
  have hcreated : (run (step .plain .plain) Db.empty (ackedRun.take 2)).commands.find? (ascii "c") =
      some (newCommandRow (ascii "t") (ascii "d") [] (ascii "\x7b\x7d") (ascii "c") 0) := by
    decide +kernel
  have hacked : (run (step .plain .plain) Db.empty ackedRun).commands.find? (ascii "c") =
      some ackedRow := by decide +kernel
  constructor
  · obtain ⟨_, _, hcalls, _⟩ := first_result_wins .plain .plain healthy_plain (ackedRun.take 2)
      (ascii "c") (ascii "t") (ascii "d") ⟨ascii "acked", [], []⟩ 5
    obtain ⟨⟨cmd, after, _, _, _, hcall, _, _, _, _, hacks, _⟩, hnone⟩ :=
      (hcalls _ (accepted_c "acked" (Or.inl rfl)) _ ⟨hcreated, rfl, rfl⟩).1 rfl
    refine ⟨cmd, after, hcall, ?_⟩
    unfold Db.view at hnone ⊢
    simp only [hacks, List.filter_append] at hnone ⊢
    rw [hnone]
    rfl
  · obtain ⟨_, _, hcalls, _⟩ := first_result_wins .plain .plain healthy_plain ackedRun
      (ascii "c") (ascii "t") (ascii "d") ⟨ascii "failed", [], []⟩ 6
    obtain ⟨result, hresult, hcall⟩ :=
      (hcalls _ (accepted_c "failed" (Or.inr rfl)) _ ⟨hacked, rfl, rfl⟩).2.2 rfl _ rfl
    cases hresult
    exact hcall

end Iot.Worker
