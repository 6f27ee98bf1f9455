import Iot.Execution.Run
import Iot.Store.Lifecycle

/-!
# What every command row satisfies

`View.Valid` links the status of a command to its deadline, its result, its acknowledgements and
its audit log. Every transition of the lifecycle keeps it and none starts in a final status, so
by refinement both hold over every run of the store (`command_row_invariant`).
-/

namespace Iot.Store

open Text Contracts Platform Data Execution

/-- The row, the acknowledgements and the log of a command fit together. -/
structure CommandRow.Valid (row : CommandRow) (acks : List AckRow) (log : List CommandEvent) :
    Prop where
  acknowledged : acks.length = if row.result.isSome then 1 else 0
  resultStatus : ∀ result, row.result = some result →
    row.status.text = result.status ∧ (row.status = .acked ∨ row.status = .failed)
  undelivered : row.status = .created ∨ row.status = .published →
    row.deadlineAt = none ∧ row.result = none
  delivered : row.status = .sent ∨ row.status = .timeout →
    row.deadlineAt.isSome ∧ .delivered ∈ log
  expired : row.status = .timeout → ∃ deadline, row.deadlineAt = some deadline ∧
    deadline ≤ row.updatedAt

/-- A command that exists has a valid row. -/
def View.Valid (view : View) : Prop := ∀ row, view.row = some row → row.Valid view.acks view.log

/-- An open command has no result and no acknowledgement. -/
theorem CommandRow.Valid.open_result {row : CommandRow} {acks : List AckRow}
    {log : List CommandEvent} (h : row.Valid acks log) (hopen : row.status.terminal = false) :
    row.result = none ∧ acks = [] := by
  have hresult : row.result = none := by
    cases hresult : row.result with
    | none => rfl
    | some result =>
        rcases (h.resultStatus result hresult).2 with hstatus | hstatus <;>
          simp [hstatus, CommandStatus.terminal] at hopen
  refine ⟨hresult, ?_⟩
  have hacks := h.acknowledged
  rw [hresult] at hacks
  simpa using hacks

/-- No transition starts in a final status. -/
theorem transition_open {label : Label} {view after : View} (h : Transition label view after)
    {row : CommandRow} (hrow : view.row = some row) : row.status.terminal = false := by
  cases h with
  | create => simp at hrow
  | claim h =>
      cases hrow
      simp_all [claimable, CommandStatus.terminal]
  | publish h | reschedule h =>
      cases hrow
      simp_all [fenced, CommandStatus.terminal]
  | deliver h =>
      cases hrow
      rcases h with h | h <;> simp [h, CommandStatus.terminal]
  | requeue h =>
      cases hrow
      simp [h, CommandStatus.terminal]
  | expire h =>
      cases hrow
      simp_all [expirable, CommandStatus.terminal]
  | exhaust h =>
      cases hrow
      simp only [exhausted, Bool.and_eq_true, Bool.or_eq_true, beq_iff_eq] at h
      rcases h.2 with h | h <;> simp [h.1, CommandStatus.terminal]
  | acknowledge hopen =>
      cases hrow
      exact hopen

/-- A claim or a reschedule touches nothing the validity of a row speaks of. -/
theorem CommandRow.Valid.of_created {row after : CommandRow} {acks : List AckRow}
    {log : List CommandEvent} (h : row.Valid acks log) (hstatus : row.status = .created)
    (hafter : after.status = .created) (hdeadline : after.deadlineAt = row.deadlineAt)
    (hresult : after.result = row.result) : after.Valid acks log where
  acknowledged := by rw [hresult]; exact h.acknowledged
  resultStatus result hsome := by
    have hnone := (h.undelivered (Or.inl hstatus)).2
    simp [hresult, hnone] at hsome
  undelivered _ := by
    rw [hdeadline, hresult]
    exact h.undelivered (Or.inl hstatus)
  delivered hcase := by simp [hafter] at hcase
  expired hcase := by simp [hafter] at hcase

/-- Every transition keeps the row of a command valid. -/
theorem transition_valid {label : Label} {view after : View} (h : Transition label view after)
    (hvalid : view.Valid) : after.Valid := by
  intro changed hchanged
  cases h with
  | create hstatus hattempts hdeadline hresult =>
      cases hchanged
      exact ⟨by simp [hresult], by simp [hresult], fun _ => ⟨hdeadline, hresult⟩,
        by simp [hstatus], by simp [hstatus]⟩
  | @claim row acks log now lease h =>
      cases hchanged
      simp only [claimable, Bool.and_eq_true, beq_iff_eq] at h
      exact (hvalid row rfl).of_created h.1.1 h.1.1 rfl rfl
  | @publish row acks log now attempt h =>
      cases hchanged
      simp only [fenced, Bool.and_eq_true, beq_iff_eq] at h
      have hrow := hvalid row rfl
      have hnone := hrow.undelivered (Or.inl h.1.1.2)
      exact ⟨hrow.acknowledged, by simp [hnone], fun _ => hnone, by simp, by simp⟩
  | @reschedule row acks log now retryAfter attempt h =>
      cases hchanged
      simp only [fenced, Bool.and_eq_true, beq_iff_eq] at h
      exact (hvalid row rfl).of_created h.1.1.2 h.1.1.2 rfl rfl
  | @deliver row acks log now deadline h =>
      cases hchanged
      have hrow := hvalid row rfl
      have hnone := (hrow.undelivered h).2
      exact ⟨hrow.acknowledged, by simp [hnone], by simp, by simp, by simp⟩
  | @requeue row acks log now next h =>
      cases hchanged
      have hrow := hvalid row rfl
      have hnone := hrow.undelivered (Or.inr h)
      exact ⟨hrow.acknowledged, by simp [requeuedRow, hnone], fun _ => hnone,
        by simp [requeuedRow], by simp [requeuedRow]⟩
  | @expire row acks log now grace h =>
      cases hchanged
      have hrow := hvalid row rfl
      simp only [expirable, Bool.and_eq_true, beq_iff_eq] at h
      obtain ⟨hsome, hlog⟩ := hrow.delivered (Or.inl h.1)
      obtain ⟨deadline, hdeadline⟩ := Option.isSome_iff_exists.mp hsome
      have hnone := (hrow.open_result (by simp [h.1, CommandStatus.terminal])).1
      have hpast : deadline ≤ now := by simpa [hdeadline] using h.2
      exact ⟨hrow.acknowledged, by simp [endedRow, hnone], by simp [endedRow],
        fun _ => ⟨hsome, by simp [hlog]⟩, fun _ => ⟨deadline, hdeadline, hpast⟩⟩
  | @exhaust row acks log now staleBefore maxAttempts h =>
      cases hchanged
      have hrow := hvalid row rfl
      simp only [exhausted, Bool.and_eq_true, Bool.or_eq_true, beq_iff_eq] at h
      have hnone := (hrow.undelivered (h.2.imp And.left And.left)).2
      exact ⟨hrow.acknowledged, by simp [endedRow, hnone], by simp [endedRow], by simp [endedRow],
        by simp [endedRow]⟩
  | @acknowledge row acks log now next event result ack hopen hnext hresult =>
      cases hchanged
      have hnone : acks = [] := ((hvalid row rfl).open_result hopen).2
      have hended : next = .acked ∨ next = .failed := hnext.imp And.left And.left
      have hother : next ≠ .created ∧ next ≠ .published ∧ next ≠ .sent ∧ next ≠ .timeout := by
        rcases hended with rfl | rfl <;> simp
      refine ⟨by simp [hnone], ?_, by simp [hother], by simp [hother], by simp [hother]⟩
      rintro stored hstored
      cases hstored
      exact ⟨hresult, hended⟩

variable (go : GoRuntime) (pg : Postgres)

/-- Every operation keeps every command valid. -/
theorem step_valid (db : Db) (op : Op) (h : ∀ id, (db.view id).Valid) (id : Bytes) :
    ((step go pg db op).view id).Valid := by
  rcases step_refines go pg db op id with hsame | ⟨label, _, htransition⟩
  · rw [hsame]
    exact h id
  · exact transition_valid htransition (h id)

/-- Every command of every run is valid. -/
theorem run_valid (ops : List Op) (id : Bytes) :
    ((run (step go pg) Db.empty ops).view id).Valid :=
  run_invariant (fun db : Db => ∀ id, (db.view id).Valid) (step_valid go pg)
    (fun _ row hrow => by simp [Db.empty] at hrow) ops id

/-- An operation does not touch a command in a final status. -/
theorem step_terminal (db : Db) (op : Op) {id : Bytes} {row : CommandRow}
    (hrow : db.commands.find? id = some row) (hterminal : row.status.terminal) :
    (step go pg db op).view id = db.view id := by
  rcases step_refines go pg db op id with hsame | ⟨label, _, htransition⟩
  · exact hsame
  · have hopen := transition_open htransition hrow
    simp [hterminal] at hopen

/-- No run touches a command in a final status. -/
theorem run_terminal (db : Db) (later : List Op) {id : Bytes} {row : CommandRow}
    (hrow : db.commands.find? id = some row) (hterminal : row.status.terminal) :
    (run (step go pg) db later).view id = db.view id := by
  induction later generalizing db with
  | nil => rfl
  | cons op rest ih =>
      have hview := step_terminal go pg db op hrow hterminal
      have hrow' : (step go pg db op).commands.find? id = some row := by
        rw [← view_row, hview]
        exact hrow
      rw [run_cons, ih _ hrow', hview]

/-- Over every run from the empty schema: a command in a final status keeps its row, its
acknowledgements and its log; it has a result exactly when it has one acknowledgement, and then
the result names its status; it has no deadline before its delivery and one, with the event of
the delivery, after it; and it times out only after its deadline. -/
theorem command_row_invariant (go : GoRuntime) (pg : Postgres) (ops : List Op) (id : Bytes)
    (row : CommandRow) (h : (run (step go pg) Db.empty ops).commands.find? id = some row) :
    let db := run (step go pg) Db.empty ops
    (row.status = .acked ∨ row.status = .failed ∨ row.status = .timeout →
      ∀ later, (run (step go pg) Db.empty (ops ++ later)).view id = db.view id) ∧
    (row.result.isSome ↔ (db.view id).acks.length = 1) ∧
    (∀ result, row.result = some result →
      row.status.text = result.status ∧ (row.status = .acked ∨ row.status = .failed)) ∧
    (row.status = .created ∨ row.status = .published →
      row.deadlineAt = none ∧ row.result = none) ∧
    (row.status = .sent ∨ row.status = .timeout →
      row.deadlineAt.isSome ∧ .delivered ∈ (db.view id).log) ∧
    (row.status = .timeout → ∃ deadline, row.deadlineAt = some deadline ∧
      deadline ≤ row.updatedAt) := by
  intro db
  have hvalid := run_valid go pg ops id row h
  refine ⟨?_, ?_, hvalid.resultStatus, hvalid.undelivered, hvalid.delivered, hvalid.expired⟩
  · intro hended later
    have hterminal : row.status.terminal := by
      rcases hended with hstatus | hstatus | hstatus <;> simp [hstatus, CommandStatus.terminal]
    rw [run_append]
    exact run_terminal go pg db later h hterminal
  · have hacks := hvalid.acknowledged
    cases hresult : row.result <;> simp_all [db]

/-- A command of one device, acknowledged right after it was created. -/
def ackedRun : List Op :=
  [.registerDevice (ascii "t") (ascii "d"),
    .createCommandWithKey (ascii "t") (ascii "d") [] [] (.ok (ascii "c")) 0,
    .ackCommandResult (ascii "c") (ascii "t") (ascii "d") ⟨ascii "acked", [], []⟩ 5]

/-- The row at the end of `ackedRun`. -/
def ackedRow : CommandRow :=
  { newCommandRow (ascii "t") (ascii "d") [] (ascii "\x7b\x7d") (ascii "c") 0 with
    status := .acked, updatedAt := 5, result := some ⟨ascii "acked", [], ascii "\x7b\x7d"⟩ }

theorem command_row_invariant_acked :
    (run (step .plain .plain) Db.empty ackedRun).commands.find? (ascii "c") = some ackedRow ∧
      ((run (step .plain .plain) Db.empty ackedRun).view (ascii "c")).acks.length = 1 := by
  have hrow : (run (step .plain .plain) Db.empty ackedRun).commands.find? (ascii "c") =
      some ackedRow := by decide +kernel
  exact ⟨hrow, (command_row_invariant .plain .plain ackedRun (ascii "c") ackedRow hrow).2.1.mp rfl⟩

end Iot.Store
