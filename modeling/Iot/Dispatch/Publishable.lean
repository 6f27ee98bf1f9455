import Iot.Platform.CommandCapacity
import Iot.Store.RequestKeys
import Iot.Store.RowInvariant

/-!
# Accepted commands can be published

`CreateCommandWithKey` checks the size of the command it stores, with the payload as PostgreSQL
prints it. No operation changes the columns that were measured (`step_rows`), and a row that can
be claimed has neither a deadline nor a result (`run_valid`), so the command of every later claim
is within the limit (`accepted_command_publishable`).
-/

namespace Iot.Dispatch

open Text Json Contracts Platform Store Execution

/-- The form of the ids `uuid.NewV7` draws. -/
def isUUID (id : Bytes) : Bool :=
  id.length == 36 && id.all fun b => (ascii "0123456789abcdef-").contains b

/-- An operation that draws an id draws one of that form. -/
def DrawsUUID : Op → Prop
  | .createCommandWithKey _ _ _ _ newID _ => ∀ id, newID = .ok id → isUUID id
  | _ => True

/-- A row was accepted: its id was drawn and its command was measured. -/
def Accepted (go : GoRuntime) (row : CommandRow) : Prop :=
  isUUID row.id ∧ validateCommandInput go row.tenantID row.deviceID row.payload = .ok ()

variable {go : GoRuntime} {pg : Postgres}

/-- The id is written as it is. -/
theorem quotedLength_isUUID {id : Bytes} (h : isUUID id) : quotedLength id = 36 := by
  simp only [isUUID, Bool.and_eq_true, beq_iff_eq, List.all_eq_true] at h
  have hplain : (ascii "0123456789abcdef-").all fun b =>
      b < 0x80 && quoteWidth (.one b) == 1 := by decide
  have hid : id.all fun b => b < 0x80 && quoteWidth (.one b) == 1 := by
    rw [List.all_eq_true]
    intro b hb
    exact List.all_eq_true.mp hplain b (by simpa using h.2 b hb)
  rw [quotedLength_of_all hid, h.1]

/-- Acceptance does not depend on the columns that change. -/
theorem Accepted.of_sameRequest {row after : CommandRow} (h : Accepted go row)
    (hsame : SameRequest row after) : Accepted go after := by
  rw [Accepted, hsame.id, hsame.tenant, hsame.device, hsame.payload]
  exact h

/-- An operation keeps every row accepted. -/
theorem step_accepted {db : Db} {op : Op} (h : ∀ row ∈ db.commands.rows, Accepted go row)
    (hop : DrawsUUID op) : ∀ row ∈ (step go pg db op).commands.rows, Accepted go row := by
  cases hcreates : op.creates with
  | false =>
      obtain ⟨_, change, hchange, hrows⟩ := step_rows go pg db op hcreates
      rw [hrows, List.forall_mem_map]
      exact fun row hrow => (h row hrow).of_sameRequest (hchange row)
  | true =>
      cases op with
      | createCommandWithKey tenantID deviceID key payload newID now =>
          simp only [step]
          cases hresult : createCommandWithKey go pg tenantID deviceID key payload newID now db with
          | error err => exact h
          | ok value =>
              obtain ⟨cmd, after⟩ := value
              rcases create_cases hresult with rfl | ⟨normalized, id, hid, hinput, hnew, rfl⟩
              · exact h
              · intro row hrow
                rcases List.mem_append.mp hrow with hold | hnew
                · exact h row hold
                · rw [List.mem_singleton.mp hnew]
                  exact ⟨hop id hid, hinput⟩
      | _ => cases hcreates

/-- Every row of every run was accepted. -/
theorem run_accepted {ops : List Op} (h : ∀ op ∈ ops, DrawsUUID op) :
    ∀ row ∈ (run (step go pg) Db.empty ops).commands.rows, Accepted go row :=
  run_invariant_along (fun _ op => DrawsUUID op)
    (fun db : Db => ∀ row ∈ db.commands.rows, Accepted go row)
    (fun _ _ hdb hop => step_accepted hdb hop) (by simp [Db.empty, Data.Table.empty])
    (along_of_forall (fun op hop _ => h op hop) Db.empty)

/-- A command that is claimed comes from a row that could be claimed. -/
theorem claimed_row {now lease : Time} {limit : Int} {locked : List Bytes} {db : Db}
    {cmd : Command} (h : cmd ∈ (claimCommandsForDispatch pg now lease limit locked db).1) :
    ∃ row ∈ db.commands.rows, claimable now row ∧ cmd = (claimedRow now lease row).command := by
  rw [claimCommandsForDispatch] at h
  split_ifs at h
  · cases h
  · simp only [List.mem_map, List.mem_filter] at h
    obtain ⟨row, ⟨hrow, hselected⟩, rfl⟩ := h
    have hfind := (db.commands.find?_eq_some_iff row.id row).mpr ⟨hrow, rfl⟩
    exact ⟨row, hrow, selected_where pg hfind hselected, rfl⟩

/-- An attempt has at most two digits. -/
theorem length_attempt_le {n : Nat} (h : n < maxDispatchAttempts) :
    (decimal ((n + 1 : Nat) : Int)).length ≤ 2 := by
  have hpow : n + 1 < Nat.pow 10 (1 + 1) := by
    rw [show Nat.pow 10 (1 + 1) = 100 from rfl]
    rw [show maxDispatchAttempts = 10 from rfl] at h
    omega
  rw [decimal_eq, if_neg (by omega), List.nil_append]
  exact length_digits_le hpow

/-- The command of a claim has been accepted, and it has neither a deadline nor a result. -/
theorem claimed_cases {ops : List Op} (h : ∀ op ∈ ops, DrawsUUID op) {now lease : Time}
    {limit : Int} {locked : List Bytes} {cmd : Command}
    (hcmd : cmd ∈ (claimCommandsForDispatch pg now lease limit locked
      (run (step go pg) Db.empty ops)).1) :
    validateCommandInput go cmd.tenantID cmd.deviceID cmd.payload = .ok () ∧
      isUUID cmd.id ∧ cmd.status = .created ∧ (decimal cmd.dispatchAttempts).length ≤ 2 ∧
      cmd.deadlineAt = zeroTime ∧ cmd.result = none := by
  obtain ⟨row, hrow, hclaimable, rfl⟩ := claimed_row hcmd
  obtain ⟨hid, haccepted⟩ := run_accepted h row hrow
  simp only [claimable, Bool.and_eq_true, beq_iff_eq, decide_eq_true_eq] at hclaimable
  obtain ⟨⟨hstatus, _⟩, hattempts⟩ := hclaimable
  have hfind := (Data.Table.find?_eq_some_iff _ row.id row).mpr ⟨hrow, rfl⟩
  obtain ⟨hdeadline, hresult⟩ := (run_valid go pg ops row.id row hfind).undelivered (.inl hstatus)
  refine ⟨haccepted, hid, hstatus, length_attempt_le hattempts, ?_, hresult⟩
  rw [CommandRow.command, claimedRow, hdeadline]
  rfl

/-- A command without a result can be marshalled when its payload and its times can. -/
theorem exists_marshalAt {cmd : Command} {offsets : Offsets}
    (haccepted : validateCommandInput go cmd.tenantID cmd.deviceID cmd.payload = .ok ())
    (hresult : cmd.result = none) :
    (∃ value, cmd.marshalAt go offsets = .ok value) ↔
      (zonedValue offsets.createdAt cmd.createdAt).isOk ∧
      (zonedValue offsets.updatedAt cmd.updatedAt).isOk ∧
      (zonedValue offsets.deadlineAt cmd.deadlineAt).isOk := by
  have hisOk : ∀ result : Except GoError (List Tok), result.isOk ↔ ∃ toks, result = .ok toks := by
    rintro (err | toks) <;> simp [Except.isOk, Except.toBool]
  obtain ⟨measured, hmeasured, _⟩ := Command.length_of_accepted haccepted
  obtain ⟨payload, hpayload⟩ : ∃ toks, rawToks 1 cmd.payload = some toks := by
    by_cases hempty : cmd.payload = []
    · exact ⟨_, by rw [hempty]; rfl⟩
    · exact ⟨measured, by rwa [orEmptyObject, if_neg hempty] at hmeasured⟩
  simp only [hisOk, Command.marshalAt_eq_ok hresult]
  constructor
  · rintro ⟨_, _, createdAt, updatedAt, deadlineAt, _, hcreated, hupdated, hdeadline, _⟩
    exact ⟨⟨createdAt, hcreated⟩, ⟨updatedAt, hupdated⟩, ⟨deadlineAt, hdeadline⟩⟩
  · rintro ⟨⟨createdAt, hcreated⟩, ⟨updatedAt, hupdated⟩, ⟨deadlineAt, hdeadline⟩⟩
    exact ⟨_, payload, createdAt, updatedAt, deadlineAt, hpayload, hcreated, hupdated, hdeadline,
      rfl⟩

/-- After a command has been accepted, and whatever happened before and happens after that, every
command that is claimed can be marshalled as soon as its times can be written at the offsets the
driver gives them, and its JSON has at most `maxCommandValueBytes` bytes. -/
theorem accepted_command_publishable (go : GoRuntime) (pg : Postgres) (before later : List Op)
    (tenantID deviceID key payload : Bytes) (newID : Except GoError Bytes) (createdAt : Time)
    (hids : ∀ op ∈ before ++
      .createCommandWithKey tenantID deviceID key payload newID createdAt :: later, DrawsUUID op)
    (created : Command) (db : Db)
    (hcreate : createCommandWithKey go pg tenantID deviceID key payload newID createdAt
      (run (step go pg) Db.empty before) = .ok (created, db))
    (now lease : Time) (limit : Int) (locked : List Bytes) :
    ∀ cmd ∈ (claimCommandsForDispatch pg now lease limit locked (run (step go pg) db later)).1,
      ∀ offsets : Offsets,
        ((∃ value, cmd.marshalAt go offsets = .ok value) ↔
          (zonedValue offsets.createdAt cmd.createdAt).isOk ∧
          (zonedValue offsets.updatedAt cmd.updatedAt).isOk ∧
          (zonedValue offsets.deadlineAt cmd.deadlineAt).isOk) ∧
        ∀ value, cmd.marshalAt go offsets = .ok value → value.length ≤ maxCommandValueBytes := by
  intro cmd hcmd offsets
  have hrun : run (step go pg) db later = run (step go pg) Db.empty (before ++
      .createCommandWithKey tenantID deviceID key payload newID createdAt :: later) := by
    rw [Execution.run_append, run_cons, step, hcreate, committed]
  rw [hrun] at hcmd
  obtain ⟨haccepted, hid, hstatus, hattempts, hdeadline, hresult⟩ := claimed_cases hids hcmd
  refine ⟨exists_marshalAt haccepted hresult, fun value hvalue => ?_⟩
  exact Command.length_marshalAt_le haccepted (quotedLength_isUUID hid).le hstatus hattempts
    hdeadline hresult hvalue

/-- One device and one command. -/
def createdID : Bytes := ascii "01890a5d-ac96-774b-bcce-b302099a8057"

theorem accepted_command_publishable_plain :
    (∀ op ∈ [Op.registerDevice (ascii "t") (ascii "d")] ++
      .createCommandWithKey (ascii "t") (ascii "d") [] [] (.ok createdID) 0 :: [], DrawsUUID op) ∧
    ∃ created db, createCommandWithKey .plain .plain (ascii "t") (ascii "d") [] []
        (.ok createdID) 0 (run (step .plain .plain) Db.empty
          [.registerDevice (ascii "t") (ascii "d")]) = .ok (created, db) ∧
      ∀ cmd ∈ (claimCommandsForDispatch .plain 5 second 1 [] db).1, ∀ value,
        cmd.marshalAt .plain ⟨28800, 28800, 0⟩ = .ok value →
          value.length ≤ maxCommandValueBytes := by
  have hids : ∀ op ∈ [Op.registerDevice (ascii "t") (ascii "d")] ++
      .createCommandWithKey (ascii "t") (ascii "d") [] [] (.ok createdID) 0 :: [],
      DrawsUUID op := by
    intro op hop
    simp only [List.cons_append, List.nil_append, List.mem_cons, List.not_mem_nil, or_false] at hop
    rcases hop with rfl | rfl
    · trivial
    · rintro _ ⟨⟩
      decide
  have hok : (createCommandWithKey .plain .plain (ascii "t") (ascii "d") [] []
      (.ok createdID) 0 (run (step .plain .plain) Db.empty
        [.registerDevice (ascii "t") (ascii "d")])).isOk := by decide +kernel
  cases hcreate : createCommandWithKey .plain .plain (ascii "t") (ascii "d") [] []
      (.ok createdID) 0 (run (step .plain .plain) Db.empty
        [.registerDevice (ascii "t") (ascii "d")]) with
  | error err =>
      rw [hcreate] at hok
      cases hok
  | ok value =>
      obtain ⟨created, db⟩ := value
      exact ⟨hids, created, db, rfl, fun cmd hcmd =>
        (accepted_command_publishable .plain .plain _ [] _ _ _ _ _ _ hids created db hcreate 5
          second 1 [] cmd hcmd _).2⟩

end Iot.Dispatch
