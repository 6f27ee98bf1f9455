import Iot.Data.Parties
import Iot.Store.ConcurrentCreate
import Mathlib.Data.List.Pairwise

/-!
# Request keys create at most one command

`Contest.Inv` is kept by every step of the contest: the rows that are committed or pending differ
in their ids and in their request keys, every committed row was committed by exactly one call, the
callers are where their phase says (`Caller.Sound`), and the tables are those of a run of the
store in which each command was created in one step.
-/

namespace Iot.Store

open Text Contracts Platform Data Execution

variable (go : GoRuntime) (pg : Postgres)

/-! ## What does not change in a row -/

/-- The columns of a row that no operation changes. -/
structure SameRequest (row after : CommandRow) : Prop where
  id : after.id = row.id
  tenant : after.tenantID = row.tenantID
  device : after.deviceID = row.deviceID
  payload : after.payload = row.payload
  key : after.idempotencyKey = row.idempotencyKey

theorem SameRequest.refl (row : CommandRow) : SameRequest row row := ⟨rfl, rfl, rfl, rfl, rfl⟩

theorem SameRequest.trans {row middle after : CommandRow} (h : SameRequest row middle)
    (h' : SameRequest middle after) : SameRequest row after :=
  ⟨h'.id.trans h.id, h'.tenant.trans h.tenant, h'.device.trans h.device,
    h'.payload.trans h.payload, h'.key.trans h.key⟩

/-- The tables have grown: devices and rows stay. -/
structure Grows (db after : Db) : Prop where
  devices : db.devices ⊆ after.devices
  rows : ∀ row ∈ db.commands.rows, ∃ row' ∈ after.commands.rows, SameRequest row row'

theorem Grows.refl (db : Db) : Grows db db :=
  ⟨fun _ h => h, fun row hrow => ⟨row, hrow, .refl row⟩⟩

theorem Grows.trans {db middle after : Db} (h : Grows db middle) (h' : Grows middle after) :
    Grows db after := by
  refine ⟨fun _ hdevice => h'.devices (h.devices hdevice), fun row hrow => ?_⟩
  obtain ⟨row', hrow', hsame⟩ := h.rows row hrow
  obtain ⟨row'', hrow'', hsame'⟩ := h'.rows row' hrow'
  exact ⟨row'', hrow'', hsame.trans hsame'⟩

/-- A new row leaves the others as they are. -/
theorem grows_insertCommand (db : Db) (row : CommandRow) (h : db.commands.find? row.id = none) :
    Grows db (db.insertCommand row h) :=
  ⟨fun _ hdevice => hdevice,
    fun other hother => ⟨other, List.mem_append_left _ hother, .refl other⟩⟩

/-- The rows after a statement that changes other columns. -/
theorem rows_updateCommands (db : Db) (where? : CommandRow → Bool) (set : CommandRow → CommandRow)
    (hset : ∀ row, (set row).id = row.id) (event : Option CommandEvent)
    (h : ∀ row, SameRequest row (set row)) :
    ∃ change : CommandRow → CommandRow, (∀ row, SameRequest row (change row)) ∧
      (db.updateCommands where? set hset event).commands.rows = db.commands.rows.map change := by
  refine ⟨fun row => if where? row then set row else row, fun row => ?_, rfl⟩
  dsimp only
  split_ifs
  · exact h row
  · exact .refl row

/-- The rows after an operation that creates no command are the rows before it, changed in other
columns. -/
theorem step_rows (db : Db) (op : Op) (h : op.creates = false) :
    db.devices ⊆ (step go pg db op).devices ∧
      ∃ change : CommandRow → CommandRow, (∀ row, SameRequest row (change row)) ∧
        (step go pg db op).commands.rows = db.commands.rows.map change := by
  have hnothing : ∃ change : CommandRow → CommandRow, (∀ row, SameRequest row (change row)) ∧
      db.commands.rows = db.commands.rows.map change := ⟨id, .refl, (List.map_id _).symm⟩
  cases op with
  | createCommandWithKey => cases h
  | registerDevice tenantID deviceID => exact ⟨fun _ => List.mem_cons_of_mem _, hnothing⟩
  | claimCommandsForDispatch now lease limit locked =>
      simp only [step, claimCommandsForDispatch]
      split
      · exact ⟨fun _ hdevice => hdevice, hnothing⟩
      · exact ⟨fun _ hdevice => hdevice,
          rows_updateCommands _ _ _ _ _ fun row => ⟨rfl, rfl, rfl, rfl, rfl⟩⟩
  | ackCommandResult id tenantID deviceID input now =>
      simp only [step]
      cases hresult : ackCommandResult go pg id tenantID deviceID input now db with
      | error err => exact ⟨fun _ hdevice => hdevice, hnothing⟩
      | ok value =>
          obtain ⟨cmd, after⟩ := value
          rcases ack_cases hresult with rfl | ⟨row, hrow, next, event, result, _, _, _, rfl⟩
          · exact ⟨fun _ hdevice => hdevice, hnothing⟩
          · exact ⟨fun _ hdevice => hdevice,
              rows_updateCommands _ _ _ _ _ fun row => ⟨rfl, rfl, rfl, rfl, rfl⟩⟩
  | markCommandPublished | rescheduleCommand | markCommandSent | requeueCommand
  | expireCommands | recoverStaleRequeue | recoverStaleFail =>
      exact ⟨fun _ hdevice => hdevice,
        rows_updateCommands _ _ _ _ _ fun row => ⟨rfl, rfl, rfl, rfl, rfl⟩⟩

/-- Such an operation only lets the tables grow. -/
theorem grows_step {db : Db} {op : Op} (h : op.creates = false) :
    Grows db (step go pg db op) := by
  obtain ⟨hdevices, change, hchange, hrows⟩ := step_rows go pg db op h
  refine ⟨hdevices, fun row hrow => ⟨change row, ?_, hchange row⟩⟩
  rw [hrows]
  exact List.mem_map_of_mem hrow

/-! ## The invariant -/

/-- Two rows that the unique indexes allow together. -/
def Distinct (row other : CommandRow) : Prop := row.id ≠ other.id ∧ sameKey row other = false

theorem sameKey_iff {row other : CommandRow} :
    sameKey row other ↔ row.tenantID = other.tenantID ∧
      row.idempotencyKey = other.idempotencyKey ∧ row.idempotencyKey.isSome := by
  simp [sameKey, and_assoc]

theorem sameKey_comm (row other : CommandRow) : sameKey row other = sameKey other row := by
  have hswap : ∀ {row other : CommandRow}, sameKey row other → sameKey other row := by
    intro row other h
    obtain ⟨htenant, hkey, hsome⟩ := sameKey_iff.mp h
    exact sameKey_iff.mpr ⟨htenant.symm, hkey.symm, hkey ▸ hsome⟩
  exact Bool.eq_iff_iff.mpr ⟨hswap, hswap⟩

theorem Distinct.symm {row other : CommandRow} (h : Distinct row other) : Distinct other row :=
  ⟨h.1.symm, by rw [sameKey_comm]; exact h.2⟩

instance : Std.Symm Distinct := ⟨fun _ _ => Distinct.symm⟩

theorem SameRequest.sameKey {row after other : CommandRow} (h : SameRequest row after) :
    sameKey after other = sameKey row other := by
  unfold Store.sameKey
  rw [h.tenant, h.key]

/-- Rows stay distinct while only their other columns change. -/
theorem Distinct.mono {row after other after' : CommandRow} (h : Distinct row other)
    (hrow : SameRequest row after) (hother : SameRequest other after') : Distinct after after' := by
  refine ⟨?_, ?_⟩
  · rw [hrow.id, hother.id]
    exact h.1
  · rw [hrow.sameKey, sameKey_comm, hother.sameKey, sameKey_comm]
    exact h.2

/-- The `idempotency_key` column for a request key. -/
def keyColumn (key : Bytes) : Option Bytes := if key = [] then none else some key

/-- A row that a request may be answered with. -/
structure Answers (db : Db) (request : CreateRequest) (id : Bytes) (row : CommandRow) : Prop where
  mem : row ∈ db.commands.rows
  id : row.id = id
  tenant : row.tenantID = request.tenantID
  device : row.deviceID = request.deviceID
  key : row.idempotencyKey = keyColumn request.key

/-- What is known about a caller in its phase. -/
def Caller.Sound (db : Db) (caller : Caller) : Prop :=
  match caller.phase with
  | .arrived | .unconfirmed _ _ | .failed _ => True
  | .ready normalized => prepare go pg caller.request db = .ok normalized
  | .inserted row | .written row => ∃ normalized id now,
      prepare go pg caller.request db = .ok normalized ∧
        row = caller.request.row normalized id now
  | .skipped normalized => prepare go pg caller.request db = .ok normalized ∧
      ∃ owner, keyOwner db caller.request.tenantID caller.request.key = some owner
  | .matched owner => caller.request.key ≠ [] ∧ ∃ normalized row,
      prepare go pg caller.request db = .ok normalized ∧
        Answers db caller.request owner.id row ∧ pg.jsonbEq row.payload normalized
  | .created cmd => ∃ normalized row, prepare go pg caller.request db = .ok normalized ∧
      Answers db caller.request cmd.id row ∧ row.payload = normalized
  | .reused cmd => caller.request.key ≠ [] ∧ ∃ normalized row,
      prepare go pg caller.request db = .ok normalized ∧
        Answers db caller.request cmd.id row ∧ pg.jsonbEq row.payload normalized

/-- What the steps of a contest keep. -/
structure Contest.Inv (sys : Contest) : Prop where
  distinct : (sys.db.commands.rows ++ sys.pending).Pairwise Distinct
  origin : (sys.db.commands.rows.map CommandRow.id).Perm
    (sys.callers.filterMap fun caller => caller.phase.committed)
  sound : ∀ caller ∈ sys.callers, caller.Sound go pg sys.db
  reached : ∃ ops, sys.db = run (Store.step go pg) Db.empty ops

variable {go pg}

/-- The checks before the `INSERT` pass again on larger tables. -/
theorem prepare_mono {db after : Db} (h : Grows db after) {request : CreateRequest}
    {normalized : Bytes} (hprepare : prepare go pg request db = .ok normalized) :
    prepare go pg request after = .ok normalized := by
  simp only [prepare, bind_eq_ok] at hprepare ⊢
  obtain ⟨_, hinput, _, hkey, _, hdevice, rest⟩ := hprepare
  refine ⟨_, hinput, _, hkey, (), ?_, rest⟩
  unfold requireDevice at hdevice ⊢
  split_ifs at hdevice with hcontains
  rw [List.contains_iff_mem] at hcontains
  rw [if_pos (List.contains_iff_mem.mpr (h.devices hcontains))]

/-- A key keeps its owner. -/
theorem keyOwner_mono {db after : Db} (h : Grows db after) {tenantID key : Bytes}
    (howner : ∃ owner, keyOwner db tenantID key = some owner) :
    ∃ owner, keyOwner after tenantID key = some owner := by
  obtain ⟨owner, howner⟩ := howner
  obtain ⟨hkey, hmem, htenant, hcolumn⟩ := keyOwner_eq_some howner
  obtain ⟨row, hrow, hsame⟩ := h.rows owner hmem
  unfold keyOwner
  rw [if_neg hkey]
  refine Option.isSome_iff_exists.mp (List.find?_isSome.mpr ⟨row, hrow, ?_⟩)
  simp [hsame.tenant, hsame.key, htenant, hcolumn]

theorem Answers.mono {db after : Db} (h : Grows db after) {request : CreateRequest} {id : Bytes}
    {row : CommandRow} (hanswers : Answers db request id row) :
    ∃ row', Answers after request id row' ∧ row'.payload = row.payload := by
  obtain ⟨row', hrow', hsame⟩ := h.rows row hanswers.mem
  exact ⟨row', ⟨hrow', hsame.id.trans hanswers.id, hsame.tenant.trans hanswers.tenant,
    hsame.device.trans hanswers.device, hsame.key.trans hanswers.key⟩, hsame.payload⟩

/-- What is known about a caller stays known. -/
theorem Caller.Sound.mono {db after : Db} (h : Grows db after) {caller : Caller}
    (hsound : caller.Sound go pg db) : caller.Sound go pg after := by
  unfold Caller.Sound at hsound ⊢
  split at hsound
  · trivial
  · trivial
  · trivial
  · exact prepare_mono h hsound
  · obtain ⟨normalized, id, now, hprepare, hrow⟩ := hsound
    exact ⟨normalized, id, now, prepare_mono h hprepare, hrow⟩
  · obtain ⟨normalized, id, now, hprepare, hrow⟩ := hsound
    exact ⟨normalized, id, now, prepare_mono h hprepare, hrow⟩
  · exact ⟨prepare_mono h hsound.1, keyOwner_mono h hsound.2⟩
  · obtain ⟨hkey, normalized, row, hprepare, hanswers, hpayload⟩ := hsound
    obtain ⟨row', hanswers', hsame⟩ := hanswers.mono h
    exact ⟨hkey, normalized, row', prepare_mono h hprepare, hanswers',
      by rw [hsame]; exact hpayload⟩
  · obtain ⟨normalized, row, hprepare, hanswers, hpayload⟩ := hsound
    obtain ⟨row', hanswers', hsame⟩ := hanswers.mono h
    exact ⟨normalized, row', prepare_mono h hprepare, hanswers', hsame.trans hpayload⟩
  · obtain ⟨hkey, normalized, row, hprepare, hanswers, hpayload⟩ := hsound
    obtain ⟨row', hanswers', hsame⟩ := hanswers.mono h
    exact ⟨hkey, normalized, row', prepare_mono h hprepare, hanswers',
      by rw [hsame]; exact hpayload⟩

/-! ## Steps -/

/-- A pending row is a row of its request. -/
theorem Caller.Sound.pending {db : Db} {caller : Caller} (h : caller.Sound go pg db)
    {row : CommandRow} (hrow : caller.phase.pending = some row) :
    ∃ normalized id now, prepare go pg caller.request db = .ok normalized ∧
      row = caller.request.row normalized id now := by
  unfold Caller.Sound at h
  unfold Phase.pending at hrow
  split at hrow
  · next hphase =>
    cases hrow
    rwa [hphase] at h
  · next hphase =>
    cases hrow
    rwa [hphase] at h
  · cases hrow

/-- No row owns the key of a row that differs from all of them. -/
theorem keyOwner_of_distinct {db : Db} {request : CreateRequest} {normalized id : Bytes}
    {now : Time}
    (h : ∀ other ∈ db.commands.rows, Distinct (request.row normalized id now) other) :
    keyOwner db request.tenantID request.key = none := by
  cases howner : keyOwner db request.tenantID request.key with
  | none => rfl
  | some owner =>
      obtain ⟨hkey, hmem, htenant, hcolumn⟩ := keyOwner_eq_some howner
      have hdistinct := (h owner hmem).2
      have hsame : sameKey (request.row normalized id now) owner := by
        refine sameKey_iff.mpr ⟨htenant.symm, ?_, ?_⟩ <;>
          simp [CreateRequest.row, newCommandRow, hkey, hcolumn]
      rw [hsame] at hdistinct
      cases hdistinct

/-- Committing a new row is what `createCommandWithKey` does in one step. -/
theorem create_step {db : Db} {request : CreateRequest} {normalized id : Bytes} {now : Time}
    (hprepare : prepare go pg request db = .ok normalized)
    (howner : keyOwner db request.tenantID request.key = none)
    (hnew : db.commands.find? (request.row normalized id now).id = none) :
    step go pg db (.createCommandWithKey request.tenantID request.deviceID request.key
        request.payload (.ok id) now) =
      db.insertCommand (request.row normalized id now) hnew := by
  have hcreate : createCommandWithKey go pg request.tenantID request.deviceID request.key
      request.payload (.ok id) now db =
        .ok ((request.row normalized id now).command,
          db.insertCommand (request.row normalized id now) hnew) := by
    simp only [prepare, bind_eq_ok] at hprepare
    obtain ⟨_, hinput, _, hkey, _, hdevice, value, hjsonb, _, hnormalized, hvalue⟩ := hprepare
    cases hvalue
    simp only [createCommandWithKey, hinput, hkey, hdevice, hjsonb, hnormalized, howner, bind,
      Except.bind]
    exact dif_pos hnew
  simp only [step, hcreate, committed]

section Moves

variable {db after : Db} {pending : List CommandRow} {caller : Caller} {phase : Phase}

/-- A caller only lets the tables grow. -/
theorem moves_grows (h : caller.Moves go pg db pending after phase) : Grows db after := by
  cases h with
  | create h hnew hphase => exact grows_insertCommand _ _ hnew
  | stay | prepare | insert | skip | audit | find | reuse | fail => exact .refl db

/-- What is known about a caller after its step. -/
theorem moves_sound (h : caller.Moves go pg db pending after phase)
    (hsound : caller.Sound go pg db) : Caller.Sound go pg after ⟨caller.request, phase⟩ := by
  cases h with
  | stay => exact hsound
  | prepare hphase hprepare => exact hprepare
  | insert hphase hfree =>
      unfold Caller.Sound at hsound
      rw [hphase] at hsound
      exact ⟨_, _, _, hsound, rfl⟩
  | skip hphase howner =>
      unfold Caller.Sound at hsound
      rw [hphase] at hsound
      exact ⟨hsound, _, howner⟩
  | audit hphase =>
      unfold Caller.Sound at hsound
      rw [hphase] at hsound
      exact hsound
  | @find normalized owner hphase howner hdevice hpayload =>
      unfold Caller.Sound at hsound
      rw [hphase] at hsound
      obtain ⟨hkey, hmem, htenant, hcolumn⟩ := keyOwner_eq_some howner
      refine ⟨hkey, normalized, owner, hsound.1, ⟨hmem, rfl, htenant, hdevice, ?_⟩, hpayload⟩
      rw [hcolumn, keyColumn, if_neg hkey]
  | @create row phase hphase hnew hresult =>
      obtain ⟨normalized, id, now, hprepare, rfl⟩ :=
        hsound.pending (show caller.phase.pending = some row by rw [hphase]; rfl)
      rcases hresult with rfl | ⟨err, rfl⟩
      · refine ⟨normalized, _, prepare_mono (grows_insertCommand _ _ hnew) hprepare,
          ⟨List.mem_append_right _ (List.mem_singleton_self _), rfl, rfl, rfl, rfl⟩, rfl⟩
      · trivial
  | reuse hphase =>
      unfold Caller.Sound at hsound
      rw [hphase] at hsound
      exact hsound
  | fail => trivial

/-- The committed and the pending rows stay distinct. -/
theorem moves_distinct (h : caller.Moves go pg db pending after phase) {rest : List CommandRow}
    (hpending : pending.Perm (caller.phase.pending.toList ++ rest))
    (hdistinct : (db.commands.rows ++ pending).Pairwise Distinct) :
    (after.commands.rows ++ (phase.pending.toList ++ rest)).Pairwise Distinct := by
  have hold : (db.commands.rows ++ (caller.phase.pending.toList ++ rest)).Pairwise Distinct :=
    ((hpending.append_left _).pairwise_iff Distinct.symm).mp hdistinct
  -- without what the caller holds
  have hrest : (db.commands.rows ++ rest).Pairwise Distinct :=
    hold.sublist ((List.Sublist.refl _).append (List.sublist_append_right _ _))
  cases h with
  | stay => exact hold
  | audit hphase =>
      rw [hphase] at hold
      exact hold
  | prepare | skip | find | reuse | fail => exact hrest
  | @insert normalized id now hphase hfree =>
      have hmiddle : (db.commands.rows ++ caller.request.row normalized id now :: rest).Perm
          (caller.request.row normalized id now :: (db.commands.rows ++ rest)) := List.perm_middle
      refine (hmiddle.pairwise_iff Distinct.symm).mpr (List.pairwise_cons.mpr ⟨?_, hrest⟩)
      intro other hother
      rcases List.mem_append.mp hother with hother | hother
      · exact ⟨(hfree.1 other hother).1.symm, (hfree.1 other hother).2⟩
      · have hmem := hpending.mem_iff.mpr (List.mem_append_right _ hother)
        exact ⟨(hfree.2 other hmem).1.symm, (hfree.2 other hmem).2⟩
  | @create row phase hphase hnew hresult =>
      have hnone : phase.pending = none := by
        rcases hresult with rfl | ⟨err, rfl⟩ <;> rfl
      rw [hphase] at hold
      rw [hnone]
      show ((db.commands.rows ++ [row]) ++ ([] ++ rest)).Pairwise Distinct
      rw [List.append_assoc]
      exact hold

/-- Each committed row is committed by one call. -/
theorem moves_origin (h : caller.Moves go pg db pending after phase) {rest : List Bytes}
    (horigin : (db.commands.rows.map CommandRow.id).Perm (caller.phase.committed.toList ++ rest)) :
    (after.commands.rows.map CommandRow.id).Perm (phase.committed.toList ++ rest) := by
  cases h with
  | stay => exact horigin
  | prepare hphase | insert hphase | skip hphase | audit hphase | find hphase | reuse hphase =>
      rw [hphase] at horigin
      exact horigin
  | fail hrunning =>
      have hnone : caller.phase.committed = none := by
        cases hphase : caller.phase <;> simp_all [Phase.running, Phase.committed]
      rw [hnone] at horigin
      exact horigin
  | @create row phase hphase hnew hresult =>
      have hsome : phase.committed = some row.id := by
        rcases hresult with rfl | ⟨err, rfl⟩ <;> rfl
      rw [hphase] at horigin
      rw [hsome]
      show ((db.commands.rows ++ [row]).map CommandRow.id).Perm (row.id :: rest)
      rw [List.map_append]
      exact (List.perm_append_singleton _ _).trans (horigin.cons row.id)

/-- The tables after a step of a caller are those after no operation or after one that creates a
command. -/
theorem moves_reached (h : caller.Moves go pg db pending after phase)
    (hsound : caller.Sound go pg db)
    (hdistinct : ∀ row, caller.phase.pending = some row →
      ∀ other ∈ db.commands.rows, Distinct row other) :
    after = db ∨ ∃ op, after = step go pg db op := by
  cases h with
  | stay | prepare | insert | skip | audit | find | reuse | fail => exact Or.inl rfl
  | @create row phase hphase hnew hresult =>
      have hpending : caller.phase.pending = some row := by
        rw [hphase]
        rfl
      obtain ⟨normalized, id, now, hprepare, rfl⟩ := hsound.pending hpending
      exact Or.inr ⟨_,
        (create_step hprepare (keyOwner_of_distinct (hdistinct _ hpending)) hnew).symm⟩

end Moves

/-- A statement of a caller keeps the invariant. -/
theorem inv_execute {sys : Contest} (h : sys.Inv go pg) {index : Nat} {caller : Caller}
    (hindex : sys.callers[index]? = some caller) {db : Db} {phase : Phase}
    (hmoves : caller.Moves go pg sys.db sys.pending db phase) :
    Contest.Inv go pg ⟨db, sys.callers.set index { caller with phase := phase }⟩ := by
  have hsound := h.sound caller (List.mem_of_getElem? hindex)
  obtain ⟨held, hheld, hheld'⟩ :=
    filterMap_set (fun caller : Caller => caller.phase.pending) hindex
  obtain ⟨committed, hcommitted, hcommitted'⟩ :=
    filterMap_set (fun caller : Caller => caller.phase.committed) hindex
  refine ⟨?_, ?_, ?_, ?_⟩
  · exact (((hheld' _).append_left _).pairwise_iff Distinct.symm).mpr
      (moves_distinct hmoves hheld h.distinct)
  · exact (moves_origin hmoves (h.origin.trans hcommitted)).trans
      (hcommitted' { caller with phase := phase }).symm
  · intro other hother
    rcases List.mem_or_eq_of_mem_set hother with hother | rfl
    · exact (h.sound other hother).mono (moves_grows hmoves)
    · exact moves_sound hmoves hsound
  · obtain ⟨ops, hops⟩ := h.reached
    have hdistinct : ∀ row, caller.phase.pending = some row →
        ∀ other ∈ sys.db.commands.rows, Distinct row other := by
      intro row hrow other hother
      have hmem : row ∈ sys.pending :=
        List.mem_filterMap.mpr ⟨caller, List.mem_of_getElem? hindex, hrow⟩
      exact ((List.pairwise_append.mp h.distinct).2.2 other hother row hmem).symm
    rcases moves_reached hmoves hsound hdistinct with hsame | ⟨op, hop⟩
    · exact ⟨ops, hsame.trans hops⟩
    · refine ⟨ops ++ [op], ?_⟩
      rw [run_append, ← hops]
      exact hop

/-- Another operation of the store keeps the invariant. -/
theorem inv_operate {sys : Contest} (h : sys.Inv go pg) {op : Op} (hop : op.creates = false) :
    Contest.Inv go pg { sys with db := step go pg sys.db op } := by
  obtain ⟨_, change, hchange, hrows⟩ := step_rows go pg sys.db op hop
  refine ⟨?_, ?_, fun caller hcaller => (h.sound caller hcaller).mono (grows_step go pg hop), ?_⟩
  · show ((step go pg sys.db op).commands.rows ++ sys.pending).Pairwise Distinct
    obtain ⟨hcommitted, hpending, hcross⟩ := List.pairwise_append.mp h.distinct
    rw [hrows, List.pairwise_append, List.pairwise_map]
    refine ⟨hcommitted.imp fun hdistinct => hdistinct.mono (hchange _) (hchange _), hpending, ?_⟩
    intro row hrow other hother
    obtain ⟨before, hbefore, rfl⟩ := List.mem_map.mp hrow
    exact (hcross before hbefore other hother).mono (hchange before) (.refl other)
  · show ((step go pg sys.db op).commands.rows.map CommandRow.id).Perm _
    have hids : CommandRow.id ∘ change = CommandRow.id := funext fun row => (hchange row).id
    rw [hrows, List.map_map, hids]
    exact h.origin
  · obtain ⟨ops, hops⟩ := h.reached
    refine ⟨ops ++ [op], ?_⟩
    rw [run_append, ← hops]
    rfl

/-- Every step keeps the invariant. -/
theorem inv_step {sys : Contest} (h : sys.Inv go pg) (action : ContestAction) :
    (sys.step go pg action).Inv go pg := by
  unfold Contest.step
  cases action with
  | call request =>
      refine ⟨?_, ?_, ?_, h.reached⟩
      · simpa [Contest.pending, List.filterMap_append, Phase.pending] using h.distinct
      · simpa [List.filterMap_append, Phase.committed] using h.origin
      · intro caller hcaller
        rcases List.mem_append.mp hcaller with hcaller | hcaller
        · exact h.sound caller hcaller
        · cases List.mem_singleton.mp hcaller
          trivial
  | execute index statement =>
      dsimp only
      split
      · exact h
      · next caller hindex => exact inv_execute h hindex (caller_step go pg _ _ caller statement)
  | operate op =>
      dsimp only
      split_ifs with hop
      · exact h
      · exact inv_operate h (by simpa using hop)

/-! ## Runs -/

/-- The invariant holds in every state of every run. -/
theorem run_inv (actions : List ContestAction) :
    (run (Contest.step go pg) .initial actions).Inv go pg :=
  run_invariant (Contest.Inv go pg) (fun _ action h => inv_step h action)
    ⟨by simp [Contest.initial, Contest.pending, Db.empty, Table.empty],
      by simp [Contest.initial, Db.empty, Table.empty], by simp [Contest.initial],
      [], rfl⟩ actions

/-- A key has one owner. -/
theorem Contest.Inv.key_unique {sys : Contest} (h : sys.Inv go pg) {row other : CommandRow}
    (hrow : row ∈ sys.db.commands.rows) (hother : other ∈ sys.db.commands.rows)
    (hsame : sameKey row other) : row = other := by
  by_contra hne
  have hdistinct := (List.pairwise_append.mp h.distinct).1.forall hrow hother hne
  exact Bool.noConfusion (hsame.symm.trans hdistinct.2)

/-- The owner of a key. -/
theorem Contest.Inv.keyOwner_eq {sys : Contest} (h : sys.Inv go pg) {tenantID key : Bytes}
    (hkey : key ≠ []) {row : CommandRow} (hrow : row ∈ sys.db.commands.rows)
    (htenant : row.tenantID = tenantID) (hcolumn : row.idempotencyKey = some key) :
    keyOwner sys.db tenantID key = some row := by
  have hsome : ∃ owner, keyOwner sys.db tenantID key = some owner := by
    unfold keyOwner
    rw [if_neg hkey]
    exact Option.isSome_iff_exists.mp
      (List.find?_isSome.mpr ⟨row, hrow, by simp [htenant, hcolumn]⟩)
  obtain ⟨owner, howner⟩ := hsome
  obtain ⟨_, hmem, htenant', hcolumn'⟩ := keyOwner_eq_some howner
  rw [howner, h.key_unique hmem hrow (sameKey_iff.mpr
    ⟨htenant'.trans htenant.symm, hcolumn'.trans hcolumn.symm, by rw [hcolumn']; rfl⟩)]

/-- The row of a call that succeeded. -/
theorem Caller.Sound.answers {db : Db} {caller : Caller} (h : caller.Sound go pg db) {cmd : Command}
    (hphase : caller.phase = .created cmd ∨ caller.phase = .reused cmd) :
    ∃ row, Answers db caller.request cmd.id row := by
  unfold Caller.Sound at h
  rcases hphase with hphase | hphase <;> rw [hphase] at h
  · obtain ⟨_, row, _, hanswers, _⟩ := h
    exact ⟨row, hanswers⟩
  · obtain ⟨_, _, row, _, hanswers, _⟩ := h
    exact ⟨row, hanswers⟩

/-- The action is a statement of the caller. -/
def ContestAction.actsOn (index : Nat) : ContestAction → Bool
  | .execute other _ => other == index
  | _ => false

/-- A step lets the tables grow, and leaves the callers it is not a statement of as they are. -/
theorem step_untouched {sys : Contest} {index : Nat} {caller : Caller}
    (hindex : sys.callers[index]? = some caller) {action : ContestAction}
    (h : action.actsOn index = false) :
    (sys.step go pg action).callers[index]? = some caller ∧
      Grows sys.db (sys.step go pg action).db := by
  have hlt := (List.getElem?_eq_some_iff.mp hindex).1
  unfold Contest.step
  cases action with
  | call request =>
      refine ⟨?_, .refl _⟩
      rw [List.getElem?_append_left hlt]
      exact hindex
  | execute other statement =>
      have hne : other ≠ index := by simpa [ContestAction.actsOn] using h
      dsimp only
      split
      · exact ⟨hindex, .refl _⟩
      · refine ⟨?_, moves_grows (caller_step go pg _ _ _ statement)⟩
        rw [List.getElem?_set_ne hne]
        exact hindex
  | operate op =>
      dsimp only
      split_ifs with hop
      · exact ⟨hindex, .refl _⟩
      · exact ⟨hindex, grows_step go pg (by simpa using hop)⟩

/-- So do runs. -/
theorem run_untouched {sys : Contest} {index : Nat} {caller : Caller}
    (hindex : sys.callers[index]? = some caller) {actions : List ContestAction}
    (h : ∀ action ∈ actions, action.actsOn index = false) :
    (run (Contest.step go pg) sys actions).callers[index]? = some caller ∧
      Grows sys.db (run (Contest.step go pg) sys actions).db := by
  induction actions generalizing sys with
  | nil => exact ⟨hindex, .refl _⟩
  | cons action rest ih =>
      obtain ⟨hindex', hgrows⟩ := @step_untouched go pg sys index caller hindex action
        (h action List.mem_cons_self)
      obtain ⟨hrest, hgrows'⟩ := ih hindex' fun other hother =>
        h other (List.mem_cons_of_mem _ hother)
      exact ⟨hrest, hgrows.trans hgrows'⟩

/-- A statement of a caller. -/
theorem step_execute {sys : Contest} {index : Nat} {caller : Caller}
    (hindex : sys.callers[index]? = some caller) (statement : Statement) :
    (sys.step go pg (.execute index statement)).callers[index]? =
        some { caller with phase := (caller.step go pg sys.db sys.pending statement).2 } ∧
      (sys.step go pg (.execute index statement)).db =
        (caller.step go pg sys.db sys.pending statement).1 := by
  have hlt := (List.getElem?_eq_some_iff.mp hindex).1
  unfold Contest.step
  simp only [hindex]
  exact ⟨List.getElem?_set_self hlt, trivial⟩

/-- A call whose key another device or payload owns conflicts, whatever happens in between. -/
theorem conflict_run {sys : Contest} {index : Nat} {caller : Caller} {normalized : Bytes}
    (h : sys.Inv go pg) (hindex : sys.callers[index]? = some caller)
    (hphase : caller.phase = .ready normalized) (hkey : caller.request.key ≠ []) {row : CommandRow}
    (hrow : row ∈ sys.db.commands.rows) (htenant : row.tenantID = caller.request.tenantID)
    (hcolumn : row.idempotencyKey = some caller.request.key)
    (hother : ¬ (row.deviceID = caller.request.deviceID ∧ pg.jsonbEq row.payload normalized))
    {before between : List ContestAction}
    (hbefore : ∀ action ∈ before, action.actsOn index = false)
    (hbetween : ∀ action ∈ between, action.actsOn index = false) (id : Bytes) (now : Time) :
    (run (Contest.step go pg) sys (before ++ [.execute index (.insert (.ok id) now)] ++ between ++
        [.execute index .select])).callers[index]? =
      some { caller with phase := .failed errIdempotencyConflict } := by
  have hinv : ∀ actions, (run (Contest.step go pg) sys actions).Inv go pg := fun actions =>
    run_invariant (Contest.Inv go pg) (fun _ action hstep => inv_step hstep action) h actions
  -- the key has this owner, up to other columns, in all states that follow
  have howner : ∀ {later : Contest}, later.Inv go pg → Grows sys.db later.db →
      ∃ owner, keyOwner later.db caller.request.tenantID caller.request.key = some owner ∧
        SameRequest row owner := by
    intro later hlater hgrows
    obtain ⟨owner, hmem, hsame⟩ := hgrows.rows row hrow
    exact ⟨owner, hlater.keyOwner_eq hkey hmem (hsame.tenant.trans htenant)
      (hsame.key.trans hcolumn), hsame⟩
  rw [run_append, run_append, run_append, run_cons, run_nil, run_cons, run_nil]
  obtain ⟨hindexBefore, hgrowsBefore⟩ := @run_untouched go pg _ _ _ hindex _ hbefore
  -- nothing is inserted
  obtain ⟨owner, howner1, _⟩ := howner (hinv before) hgrowsBefore
  have hskip : caller.step go pg (run (Contest.step go pg) sys before).db
      (run (Contest.step go pg) sys before).pending (.insert (.ok id) now) =
        ((run (Contest.step go pg) sys before).db, .skipped normalized) := by
    unfold Caller.step
    rw [hphase]
    simp only [insertPhase, howner1, Option.isSome_some, if_true]
  obtain ⟨hindexSkip, hdbSkip⟩ :=
    @step_execute go pg _ _ _ hindexBefore (.insert (.ok id) now)
  rw [hskip] at hindexSkip hdbSkip
  obtain ⟨hindexBetween, hgrowsBetween⟩ := @run_untouched go pg _ _ _ hindexSkip _ hbetween
  rw [hdbSkip] at hgrowsBetween
  -- the owner is found, and is another one
  have hinvBetween : (run (Contest.step go pg) ((run (Contest.step go pg) sys before).step go pg
      (.execute index (.insert (.ok id) now))) between).Inv go pg := by
    have hall := hinv (before ++ [.execute index (.insert (.ok id) now)] ++ between)
    rwa [run_append, run_append, run_cons, run_nil] at hall
  obtain ⟨owner, howner2, hsame⟩ := howner hinvBetween (hgrowsBefore.trans hgrowsBetween)
  rw [(step_execute hindexBetween .select).1]
  have hmismatch : ¬ (owner.deviceID = caller.request.deviceID ∧
      pg.jsonbEq owner.payload normalized) := by
    rw [hsame.device, hsame.payload]
    exact hother
  simp only [Caller.step, selectPhase, howner2, hmismatch, if_false]

/-- A call whose key nobody owns inserts its row, whatever other tenants do with the key. -/
theorem insert_free {sys : Contest} {index : Nat} {caller : Caller} {normalized id : Bytes}
    (hindex : sys.callers[index]? = some caller) (hphase : caller.phase = .ready normalized)
    (hfree : ∀ row ∈ sys.db.commands.rows ++ sys.pending, row.id ≠ id ∧
      ¬ (row.tenantID = caller.request.tenantID ∧
        row.idempotencyKey = some caller.request.key)) (now : Time) :
    (sys.step go pg (.execute index (.insert (.ok id) now))).callers[index]? =
      some { caller with phase := .inserted (caller.request.row normalized id now) } := by
  have howner : keyOwner sys.db caller.request.tenantID caller.request.key = none := by
    cases howner : keyOwner sys.db caller.request.tenantID caller.request.key with
    | none => rfl
    | some owner =>
        obtain ⟨_, hmem, htenant, hcolumn⟩ := keyOwner_eq_some howner
        exact absurd ⟨htenant, hcolumn⟩ (hfree owner (List.mem_append_left _ hmem)).2
  have hpending : sys.pending.any (sameKey (caller.request.row normalized id now)) = false := by
    refine List.any_eq_false.mpr fun other hother hsame => ?_
    obtain ⟨htenant, hcolumn, hsome⟩ := sameKey_iff.mp hsame
    refine (hfree other (List.mem_append_right _ hother)).2 ⟨htenant.symm, ?_⟩
    rw [← hcolumn]
    simp only [CreateRequest.row, newCommandRow] at hsome ⊢
    split_ifs at hsome ⊢ with hkey
    · cases hsome
    · rfl
  have hcommitted : sys.db.commands.find? id = none := by
    cases hfind : sys.db.commands.find? id with
    | none => rfl
    | some row =>
        obtain ⟨hmem, hid⟩ := (sys.db.commands.find?_eq_some_iff id row).mp hfind
        exact absurd hid (hfree row (List.mem_append_left _ hmem)).1
  have hids : (sys.pending.any fun other => other.id == id) = false := by
    refine List.any_eq_false.mpr fun other hother hid => ?_
    exact (hfree other (List.mem_append_right _ hother)).1 (beq_iff_eq.mp hid)
  rw [(step_execute hindex (.insert (.ok id) now)).1]
  unfold Caller.step
  rw [hphase]
  simp only [insertPhase, howner, hpending, hcommitted, hids, Option.isSome_none,
    Bool.false_eq_true, if_false]

/-- A call that succeeded. -/
def Caller.succeeded (caller : Caller) (cmd : Command) : Prop :=
  caller.phase = .created cmd ∨ caller.phase = .reused cmd

/-- **Request keys create at most one command.** In every state of every interleaving of calls of
`CreateCommandWithKey` with each other and with the other operations of the store:

* at most one committed row carries a request key of a tenant, and every call with that key that
  succeeded returned the id of that row;
* a call that reuses a row asked for its device and an equal payload, and a call for another
  device or payload fails with `ErrIdempotencyConflict`, whatever happens in between;
* every committed row was committed by exactly one call, so that the others added none;
* a call whose own tenant does not use the key inserts its row;
* a call without a key shares its row with no other;
* every committed command has exactly one event of its creation. -/
theorem request_keys_create_one_command (go : GoRuntime) (pg : Postgres)
    (actions : List ContestAction) :
    let sys := run (Contest.step go pg) .initial actions
    (∀ row ∈ sys.db.commands.rows, ∀ other ∈ sys.db.commands.rows,
      row.tenantID = other.tenantID → row.idempotencyKey = other.idempotencyKey →
        row.idempotencyKey ≠ none → row = other) ∧
    (∀ caller ∈ sys.callers, ∀ cmd, caller.succeeded cmd → caller.request.key ≠ [] →
      (∃ row ∈ sys.db.commands.rows, row.tenantID = caller.request.tenantID ∧
        row.idempotencyKey = some caller.request.key) ∧
      ∀ row ∈ sys.db.commands.rows, row.tenantID = caller.request.tenantID →
        row.idempotencyKey = some caller.request.key → row.id = cmd.id) ∧
    (∀ caller ∈ sys.callers, ∀ cmd, caller.phase = .reused cmd →
      ∃ normalized row, prepare go pg caller.request sys.db = .ok normalized ∧
        row ∈ sys.db.commands.rows ∧ row.id = cmd.id ∧
        row.deviceID = caller.request.deviceID ∧ pg.jsonbEq row.payload normalized) ∧
    (∀ (index : Nat) (caller : Caller) normalized row, sys.callers[index]? = some caller →
      caller.phase = .ready normalized → caller.request.key ≠ [] →
      row ∈ sys.db.commands.rows → row.tenantID = caller.request.tenantID →
      row.idempotencyKey = some caller.request.key →
      ¬ (row.deviceID = caller.request.deviceID ∧ pg.jsonbEq row.payload normalized) →
      ∀ before between, (∀ action ∈ before, action.actsOn index = false) →
        (∀ action ∈ between, action.actsOn index = false) → ∀ id now,
        (run (Contest.step go pg) sys (before ++ [.execute index (.insert (.ok id) now)] ++
            between ++ [.execute index .select])).callers[index]? =
          some { caller with phase := .failed errIdempotencyConflict }) ∧
    (sys.db.commands.rows.map CommandRow.id).Perm
      (sys.callers.filterMap fun caller => caller.phase.committed) ∧
    (∀ (index : Nat) (caller : Caller) normalized id, sys.callers[index]? = some caller →
      caller.phase = .ready normalized →
      (∀ row ∈ sys.db.commands.rows ++ sys.pending, row.id ≠ id ∧
        ¬ (row.tenantID = caller.request.tenantID ∧
          row.idempotencyKey = some caller.request.key)) → ∀ now,
        (sys.step go pg (.execute index (.insert (.ok id) now))).callers[index]? =
          some { caller with phase := .inserted (caller.request.row normalized id now) }) ∧
    (∀ (i j : Nat) (caller other : Caller) (cmd cmd' : Command),
      sys.callers[i]? = some caller → sys.callers[j]? = some other → caller.request.key = [] →
        caller.succeeded cmd → other.succeeded cmd' → cmd.id = cmd'.id → i = j) ∧
    ∀ row ∈ sys.db.commands.rows,
      ∃ rest, (sys.db.view row.id).log = .created :: rest ∧ .created ∉ rest := by
  intro sys
  have hinv : sys.Inv go pg := run_inv actions
  refine ⟨?_, ?_, ?_, ?_, hinv.origin, ?_, ?_, ?_⟩
  · intro row hrow other hother htenant hkey hsome
    exact hinv.key_unique hrow hother
      (sameKey_iff.mpr ⟨htenant, hkey, Option.isSome_iff_ne_none.mpr hsome⟩)
  · intro caller hcaller cmd hsucceeded hkey
    obtain ⟨row, hanswers⟩ := (hinv.sound caller hcaller).answers hsucceeded
    have hcolumn : row.idempotencyKey = some caller.request.key := by
      rw [hanswers.key, keyColumn, if_neg hkey]
    refine ⟨⟨row, hanswers.mem, hanswers.tenant, hcolumn⟩, fun other hother htenant hother' => ?_⟩
    rw [← hanswers.id, hinv.key_unique hother hanswers.mem (sameKey_iff.mpr
      ⟨htenant.trans hanswers.tenant.symm, hother'.trans hcolumn.symm, by rw [hother']; rfl⟩)]
  · intro caller hcaller cmd hphase
    have hsound := hinv.sound caller hcaller
    unfold Caller.Sound at hsound
    rw [hphase] at hsound
    obtain ⟨_, normalized, row, hprepare, hanswers, hpayload⟩ := hsound
    exact ⟨normalized, row, hprepare, hanswers.mem, hanswers.id, hanswers.device, hpayload⟩
  · intro index caller normalized row hindex hphase hkey hrow htenant hcolumn hother before between
      hbefore hbetween id now
    exact conflict_run hinv hindex hphase hkey hrow htenant hcolumn hother hbefore hbetween id now
  · intro index caller normalized id hindex hphase hfree now
    exact insert_free hindex hphase hfree now
  · intro i j caller other cmd cmd' hi hj hkey hsucceeded hother hid
    have hsound := hinv.sound caller (List.mem_of_getElem? hi)
    have hcreated : caller.phase = .created cmd := by
      refine hsucceeded.resolve_right fun hreused => ?_
      unfold Caller.Sound at hsound
      rw [hreused] at hsound
      exact hsound.1 hkey
    obtain ⟨row, hanswers⟩ := hsound.answers hsucceeded
    obtain ⟨row', hanswers'⟩ := (hinv.sound other (List.mem_of_getElem? hj)).answers hother
    -- both calls were answered with the one row of that id, which has no key
    have hrow : row = row' := sys.db.commands.eq_of_key hanswers.mem hanswers'.mem
      (by rw [hanswers.id, hanswers'.id, hid])
    have hcreated' : other.phase = .created cmd' := by
      refine hother.resolve_right fun hreused => ?_
      have hsound' := hinv.sound other (List.mem_of_getElem? hj)
      unfold Caller.Sound at hsound'
      rw [hreused] at hsound'
      have hcolumn := hanswers'.key
      rw [← hrow, hanswers.key, keyColumn, keyColumn, if_pos hkey, if_neg hsound'.1] at hcolumn
      cases hcolumn
    have hnodup := hinv.origin.nodup_iff.mp sys.db.commands.nodup
    have hfirst : caller.phase.committed = some cmd.id := by
      rw [hcreated]
      rfl
    have hsecond : other.phase.committed = some cmd.id := by
      rw [hcreated', hid]
      rfl
    exact eq_of_filterMap_nodup hnodup hi hj hfirst hsecond
  · intro row hrow
    obtain ⟨ops, hops⟩ := hinv.reached
    have hfind : sys.db.commands.find? row.id = some row :=
      (sys.db.commands.find?_eq_some_iff row.id row).mpr ⟨hrow, rfl⟩
    have hlogged : (sys.db.view row.id).Logged := by
      rw [hops]
      exact run_logged go pg ops row.id
    refine created_of_legal hlogged.legal fun hnil => ?_
    have hstatus := hlogged.status
    rw [hnil, View.status?, view_row, hfind] at hstatus
    cases hstatus

/-! ## Three calls with one key -/

/-- A request with the key `k`. -/
def keyedRequest (payload : String) : CreateRequest :=
  ⟨ascii "t", ascii "d", ascii "k", ascii payload⟩

/-- The second call waits for the first one, and the third asks for another payload. -/
def contestRun : List ContestAction :=
  [.operate (.registerDevice (ascii "t") (ascii "d")), .call (keyedRequest "\x7b\x7d"),
    .call (keyedRequest ""), .call (keyedRequest "\x7b\"a\":1\x7d"), .execute 0 .begin,
    .execute 1 .begin, .execute 2 .begin, .execute 0 (.insert (.ok (ascii "c")) 1),
    .execute 1 (.insert (.ok (ascii "e")) 2), .execute 0 .audit, .execute 0 .commit,
    .execute 1 (.insert (.ok (ascii "e")) 3), .execute 1 .select, .execute 1 .commit]

/-- The row of the first call. -/
def contestRow : CommandRow := (keyedRequest "").row (ascii "\x7b\x7d") (ascii "c") 1

/-- The second call returned the command of the first, and the third conflicts. -/
theorem request_keys_create_one_command_k :
    (run (Contest.step .plain .plain) .initial contestRun).callers[1]? =
        some ⟨keyedRequest "", .reused contestRow.command⟩ ∧
      (∀ row ∈ (run (Contest.step .plain .plain) .initial contestRun).db.commands.rows,
        row.tenantID = ascii "t" → row.idempotencyKey = some (ascii "k") → row.id = ascii "c") ∧
      (run (Contest.step .plain .plain) (run (Contest.step .plain .plain) .initial contestRun)
          [.execute 2 (.insert (.ok (ascii "f")) 4), .execute 2 .select]).callers[2]? =
        some ⟨keyedRequest "\x7b\"a\":1\x7d", .failed errIdempotencyConflict⟩ := by
  have hcallers : (run (Contest.step .plain .plain) .initial contestRun).callers =
      [⟨keyedRequest "\x7b\x7d", .created contestRow.command⟩,
        ⟨keyedRequest "", .reused contestRow.command⟩,
        ⟨keyedRequest "\x7b\"a\":1\x7d", .ready (ascii "\x7b\"a\":1\x7d")⟩] := by
    decide +kernel
  have hrows : (run (Contest.step .plain .plain) .initial contestRun).db.commands.rows =
      [contestRow] := by decide +kernel
  obtain ⟨_, hreturned, _, hconflict, _⟩ :=
    request_keys_create_one_command .plain .plain contestRun
  refine ⟨by rw [hcallers]; rfl, ?_, ?_⟩
  · exact (hreturned ⟨keyedRequest "", .reused contestRow.command⟩ (by rw [hcallers]; simp)
      contestRow.command (Or.inr rfl) (by decide)).2
  · exact hconflict 2 _ _ contestRow (by rw [hcallers]; rfl) rfl (by decide)
      (by rw [hrows]; exact List.mem_singleton_self _) rfl rfl (by decide) [] [] (by simp)
      (by simp) (ascii "f") 4

end Iot.Store
