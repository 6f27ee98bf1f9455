import Iot.Worker.Compensation
import Mathlib.Data.Nat.Pairing

/-!
# Markers and sweeps

A row is marked as written only after a write of its key was confirmed, and is not changed
otherwise; a sweep of a compensation loop passes every row to the writer that is pending at all of
its scans (`markers_and_sweeps`).

What a step of a consumer can do to the rows and to what was confirmed is said once
(`consume_effect`), as is what a step of a loop can do (`compensate_effect`). The invariant of a
sweep (`Sweep.Covers`) says that a row pending at all scans so far was passed to the writer if its
id is not above the cursor, and is passed or in the rest of the batch if it is not above the last
id of the batch.
-/

namespace Iot.Worker

open Text Json Contracts Platform Store Data Execution Telemetry

/-! ## What a step can do -/

/-- A consumer that is neither about to write to TDengine nor to mark a row. -/
def Quiet (consumer : Consumer) : Prop :=
  ∀ msg rec, consumer ≠ .sinking msg rec ∧ consumer ≠ .marking msg rec

/-- What a step of a consumer can do to the rows and to what was written, with where it stands
afterwards. -/
inductive ConsumerEffect (go : GoRuntime) (pg : Postgres) (d : Deployment) (s after : Fleet)
    (before : Consumer) : Consumer → Prop where
  | quiet {consumer : Consumer} (hconsumer : consumer = before ∨ Quiet consumer)
      (hdb : after.db = s.db) (hstored : after.stored = s.stored)
      (hstatements : after.statements = s.statements) :
      ConsumerEffect go pg d s after before consumer
  | restore {msg : Message} {rec : TelemetryRecord} {restored : Restored} {consumer : Consumer}
      (hbefore : before = .restoring msg rec)
      (hrestore : restoreTelemetry go pg rec s.db = .ok restored)
      (hconsumer : consumer = .committing msg ∨ consumer = .sinking msg restored.record)
      (hdb : after.db = restored.db s.db) (hstored : after.stored = s.stored)
      (hstatements : after.statements = s.statements) :
      ConsumerEffect go pg d s after before consumer
  | restoreFailed {rec : TelemetryRecord} {consumer : Consumer} (hconsumer : Quiet consumer)
      (hdb : MayStore go pg rec s.db after.db) (hstored : after.stored = s.stored)
      (hstatements : after.statements = s.statements) :
      ConsumerEffect go pg d s after before consumer
  | write {msg : Message} {rec : TelemetryRecord} {error : Option WriteError}
      {consumer : Consumer} (hbefore : before = .sinking msg rec)
      (hconsumer : consumer = .marking msg rec ∧ error = none ∨ Quiet consumer)
      (hdb : after.db = s.db) (hstored : after.stored = (s.execute d rec error).stored)
      (hstatements : after.statements = (s.execute d rec error).statements) :
      ConsumerEffect go pg d s after before consumer
  | mark {msg : Message} {rec : TelemetryRecord} {consumer : Consumer}
      (hbefore : before = .marking msg rec) (hconsumer : Quiet consumer)
      (hdb : after.db = s.db ∨
        after.db = markTelemetryTDengineWritten (telemetryKey rec) s.db)
      (hstored : after.stored = s.stored) (hstatements : after.statements = s.statements) :
      ConsumerEffect go pg d s after before consumer

variable (go : GoRuntime) (pg : Postgres) (d : Deployment)

variable {go pg d} in
/-- A step of the pipeline's consumer that passes nothing to the writer has one of these effects. -/
theorem moves_effect {s after : Fleet} {cfg : Config} {move : ConsumerMove} {before world : World}
    {worker next : Telemetry.Worker} (hmoves : worker.Moves go pg cfg move before world next)
    (hsink : ∀ msg rec, worker.consumer = .sinking msg rec → move ≠ .sink none)
    (hbefore : before.db = s.db) (hdb : after.db = world.db) (hstored : after.stored = s.stored)
    (hstatements : after.statements = s.statements) :
    ConsumerEffect go pg d s after worker.consumer next.consumer := by
  cases hmoves with
  | stay => exact .quiet (Or.inl rfl) (hdb.trans hbefore) hstored hstatements
  | restore h hrestore =>
      rename_i msg rec restored
      rw [hbefore] at hrestore
      refine .restore h hrestore (afterRestore_cases cfg msg restored) ?_ hstored hstatements
      rw [hdb, hbefore]
  | restoreFailed h hstore =>
      rw [hbefore] at hstore
      exact .restoreFailed (fun _ _ => ⟨by simp, by simp⟩) (by rw [hdb]; exact hstore) hstored
        hstatements
  | sink h hmove => exact absurd hmove (hsink _ _ h)
  | mark h hafter =>
      refine .mark h (fun _ _ => ⟨by simp, by simp⟩) ?_ hstored hstatements
      rcases hafter with rfl | rfl
      · exact Or.inl (hdb.trans hbefore)
      · exact Or.inr (by rw [hdb, hbefore])
  | buryFailed h hafter hnext =>
      refine .quiet (Or.inr ?_) ?_ hstored hstatements
      · rcases hnext with rfl | ⟨_, rfl⟩ <;> exact fun _ _ => ⟨by simp, by simp⟩
      · rcases hafter with rfl | rfl <;> exact hdb.trans hbefore
  | commit h hnext =>
      refine .quiet (Or.inr ?_) (hdb.trans hbefore) hstored hstatements
      rcases hnext with rfl | rfl <;> exact fun _ _ => ⟨by simp, by simp⟩
  | _ =>
      exact .quiet (Or.inr fun _ _ => ⟨by simp, by simp⟩) (hdb.trans hbefore) hstored hstatements

/-- What passing a record to the writer makes of the consumer. -/
theorem consumeTelemetry_sink {cfg : WorkerConfig} {world : World} {worker : Telemetry.Worker}
    {msg : Message} {rec : TelemetryRecord} (h : worker.consumer = .sinking msg rec)
    (error : Option GoError) :
    consumeTelemetry go pg cfg world worker (.sink error) =
      (world, { worker with consumer := match error with
        | none => .marking msg rec
        | some err => .deadLettering msg .telemetryTDengine err }) := by
  unfold consumeTelemetry
  rw [h]
  cases error <;> simp only [Telemetry.Worker.step, h]

/-- A step of a consumer changes its worker only, and has one of these effects. -/
theorem consume_effect (s : Fleet) (i : Nat) (move : ConsumerMove) :
    ∃ worker, (s.consume go pg d i move).members =
        Function.update s.members i { s.members i with consumer := worker } ∧
      ConsumerEffect go pg d s (s.consume go pg d i move) (s.members i).consumer.consumer
        worker.consumer := by
  unfold Fleet.consume
  cases hcall : sinkCall d (s.members i).consumer.consumer move with
  | some call =>
      -- the record is passed to the writer
      obtain ⟨rec, result⟩ := call
      obtain ⟨msg, hsinking⟩ : ∃ msg, (s.members i).consumer.consumer = .sinking msg rec := by
        unfold sinkCall at hcall
        split at hcall
        · rename_i msg rec' error hsinking
          cases hcall
          exact ⟨msg, hsinking⟩
        · cases hcall
      refine ⟨{ (s.members i).consumer with consumer := match result with
        | none => .marking msg rec
        | some err => .deadLettering msg .telemetryTDengine err.error }, ?_, ?_⟩
      · simp only [Fleet.execute, Fleet.advance, consumeTelemetry_sink go pg hsinking]
        cases result <;> rfl
      · refine .write hsinking ?_ ?_ rfl rfl
        · cases result with
          | none => exact Or.inl ⟨rfl, rfl⟩
          | some err => exact Or.inr fun _ _ => ⟨by simp, by simp⟩
        · simp only [Fleet.execute, Fleet.advance, consumeTelemetry_sink go pg hsinking]
          rfl
  | none =>
      refine ⟨_, rfl, ?_⟩
      rcases consumeTelemetry_cases go pg (d.cfg i) (s.world d i) (s.members i).consumer move with
        ⟨msg, rec, _, _, _, heq⟩ | hmoves
      · refine .quiet (Or.inr ?_) ?_ rfl rfl
        · rw [heq]
          exact fun _ _ => ⟨by simp, by simp⟩
        · show (consumeTelemetry go pg (d.cfg i) (s.world d i) (s.members i).consumer move).1.db
            = s.db
          rw [heq]
          rfl
      · refine moves_effect hmoves (fun msg rec hsinking hmove => ?_) rfl rfl rfl rfl
        rw [hsinking, hmove] at hcall
        cases hcall

/-- What a step of a compensation loop can do. -/
inductive LoopStep (s : Fleet) (i : Nat) : Fleet → Prop where
  | stay : LoopStep s i s
  | reset {sweep : Sweep}
      (h : sweep = .initial ∨ sweep = { (s.members i).sweep with point := .stopped }) :
      LoopStep s i (s.setSweep i sweep)
  | scan {olderThan : Time} (hpoint : (s.members i).sweep.point = .waiting)
      (hrows : (listUnwrittenTelemetry d (d.cfg i) olderThan (s.members i).sweep.afterID
        tdengineCompensateBatch s.db).1 ≠ []) :
      LoopStep s i (s.setSweep i (({ (s.members i).sweep with
        seen := (s.members i).sweep.seen ++ [pendingKeys (d.cfg i) olderThan s.db] } : Sweep).next
          (d.cfg i)
          (listUnwrittenTelemetry d (d.cfg i) olderThan (s.members i).sweep.afterID
            tdengineCompensateBatch s.db).1
          (listUnwrittenTelemetry d (d.cfg i) olderThan (s.members i).sweep.afterID
            tdengineCompensateBatch s.db).2))
  | write {rec : TelemetryRecord} {rows : List TelemetryRecord} {nextID : Nat}
      {error : Option WriteError} {sweep passing : Sweep}
      (hpoint : (s.members i).sweep.point = .writing rec rows nextID)
      (hpassing : passing = { (s.members i).sweep with
        passed := (s.members i).sweep.passed ++ [telemetryKey rec] })
      (hsweep : error = none ∧ sweep = { passing with point := .marking rec rows nextID } ∨
        sweep = passing.next (d.cfg i) rows nextID ∨ sweep = { passing with point := .waiting }) :
      LoopStep s i ((s.execute d rec error).setSweep i sweep)
  | mark {rec : TelemetryRecord} {rows : List TelemetryRecord} {nextID : Nat} {db : TelemetryDb}
      (hpoint : (s.members i).sweep.point = .marking rec rows nextID)
      (hdb : db = s.db ∨ db = markTelemetryTDengineWritten (telemetryKey rec) s.db) :
      LoopStep s i ({ s with db := db }.setSweep i
        ((s.members i).sweep.next (d.cfg i) rows nextID))

/-- A step of a compensation loop does nothing else. -/
theorem compensate_step (s : Fleet) (i : Nat) (move : SweepMove) :
    LoopStep d s i (s.compensate d i move) := by
  unfold Fleet.compensate
  dsimp only
  split
  · rename_i hpoint
    split
    · split
      · exact .reset (Or.inl rfl)
      · rename_i hrows
        exact .scan hpoint hrows
    · exact .stay
  · rename_i rec rows nextID exec hpoint
    refine .write hpoint rfl ?_
    cases d.writer.writeRecord rec exec with
    | none => exact Or.inl ⟨rfl, rfl⟩
    | some err =>
        dsimp only
        split
        · exact Or.inr (Or.inl rfl)
        · exact Or.inr (Or.inr rfl)
  · rename_i rec rows nextID applied hpoint
    refine .mark hpoint ?_
    split
    · exact Or.inr rfl
    · exact Or.inl rfl
  · exact .reset (Or.inr rfl)
  · exact .reset (Or.inl rfl)
  · exact .stay

/-! ## Markers -/

/-- A change of the rows that the workers can make: none, a record that is stored, or a mark for a
key that TDengine has confirmed. -/
inductive RowsStep (stored : List TelemetryKey) (before after : TelemetryDb) : Prop where
  | same (h : after.records = before.records)
  | store {rec : TelemetryRecord} (h : MayStore go pg rec before after)
  | mark {key : TelemetryKey} (hkey : key ∈ stored)
      (h : after = markTelemetryTDengineWritten key before)

/-- What is marked, or about to be, has been confirmed. -/
structure Fleet.Marked (s : Fleet) : Prop where
  rows : ∀ key row, s.db.records.find? key = some row → row.tdengineWritten = true →
    key ∈ s.stored
  consumers : ∀ i msg rec, (s.members i).consumer.consumer = .marking msg rec →
    telemetryKey rec ∈ s.stored
  sweeps : ∀ i rec rows nextID, (s.members i).sweep.point = .marking rec rows nextID →
    telemetryKey rec ∈ s.stored

/-- Rows stay as they are, apart from the mark. -/
def RowsMarked (before after : TelemetryDb) : Prop :=
  ∀ key row, before.records.find? key = some row →
    after.records.find? key = some row ∨ after.records.find? key = some (markedRow row)

theorem rowsMarked_refl (db : TelemetryDb) : RowsMarked db db := fun _ _ h => Or.inl h

theorem rowsMarked_trans {first second third : TelemetryDb} (h : RowsMarked first second)
    (hnext : RowsMarked second third) : RowsMarked first third := by
  intro key row hrow
  rcases h key row hrow with hsame | hmarked
  · exact hnext key row hsame
  · rcases hnext key _ hmarked with hsame | hagain
    · exact Or.inr hsame
    · exact Or.inr hagain

variable {go pg} in
/-- The rows after a change. -/
theorem RowsStep.find? {stored : List TelemetryKey} {before after : TelemetryDb}
    (h : RowsStep go pg stored before after) (key : TelemetryKey) :
    after.records.find? key = before.records.find? key ∨
    (∃ row, before.records.find? key = some row ∧ key ∈ stored ∧
      after.records.find? key = some (markedRow row)) ∨
    ∃ rec column, before.records.find? key = none ∧ telemetryKey rec = key ∧
      StoredText go pg rec.payload column ∧
      after.records.find? key = some (storedRow rec column) := by
  cases h with
  | same h => exact Or.inl (by rw [h])
  | store h =>
      rename_i rec
      rcases h with rfl | ⟨restored, hrestore, rfl⟩
      · exact Or.inl rfl
      · cases restored with
        | duplicate stored => exact Or.inl rfl
        | inserted first db =>
            obtain ⟨column, hcolumn, hnew, hfind⟩ := find?_inserted hrestore key
            simp only [Restored.db, hfind]
            split
            · rename_i hkey
              exact Or.inr (Or.inr ⟨rec, column, hkey ▸ hnew, hkey, hcolumn, rfl⟩)
            · exact Or.inl rfl
  | mark hkey h =>
      rename_i marked
      subst h
      rw [markTelemetryTDengineWritten, Table.find?_update]
      cases hrow : before.records.find? key with
      | none => exact Or.inl rfl
      | some row =>
          dsimp only [Option.map_some]
          split
          · rename_i hmarked
            have hsame : key = marked := by
              rw [← Table.key_of_find? hrow]
              exact of_decide_eq_true hmarked
            exact Or.inr (Or.inl ⟨row, rfl, hsame ▸ hkey, rfl⟩)
          · exact Or.inl rfl

/-- What was confirmed stays confirmed. -/
theorem subset_execute (s : Fleet) (rec : TelemetryRecord) (error : Option WriteError) :
    s.stored ⊆ (s.execute d rec error).stored := by
  unfold Fleet.execute
  dsimp only
  split
  · exact List.subset_append_left _ _
  · exact List.Subset.refl _

/-- A write that returned no error is confirmed. -/
theorem mem_execute (s : Fleet) (rec : TelemetryRecord) :
    telemetryKey rec ∈ (s.execute d rec none).stored := by
  simp [Fleet.execute]

/-- What a step keeps: the marks are backed by what was confirmed, which only grows, and the rows
change as a worker may change them. -/
structure Fleet.Keeps (s after : Fleet) : Prop where
  stored : s.stored ⊆ after.stored
  rows : RowsStep go pg s.stored s.db after.db

variable {go pg d} in
/-- Rows that change as they may are marked only with a confirmation. -/
theorem rows_marked {s after : Fleet} (h : s.Marked) (hkeeps : s.Keeps go pg after) :
    ∀ key row, after.db.records.find? key = some row → row.tdengineWritten = true →
      key ∈ after.stored := by
  intro key row hrow hwritten
  rcases hkeeps.rows.find? key with hsame | ⟨_, _, hkey, _⟩ | ⟨rec, column, _, _, _, hnew⟩
  · rw [hsame] at hrow
    exact hkeeps.stored (h.rows key row hrow hwritten)
  · exact hkeeps.stored hkey
  · rw [hnew] at hrow
    cases hrow
    cases hwritten

variable {go pg d} in
/-- A step of a consumer. -/
theorem marked_consume {s : Fleet} (h : s.Marked) (i : Nat) (move : ConsumerMove) :
    s.Keeps go pg (s.consume go pg d i move) ∧ (s.consume go pg d i move).Marked := by
  obtain ⟨worker, hmembers, heffect⟩ := consume_effect go pg d s i move
  generalize s.consume go pg d i move = after at hmembers heffect
  have hkeeps : s.Keeps go pg after := by
    cases heffect with
    | quiet _ hdb hstored _ => exact ⟨hstored ▸ List.Subset.refl _, .same (by rw [hdb])⟩
    | restore _ hrestore _ hdb hstored _ =>
        exact ⟨hstored ▸ List.Subset.refl _, .store (Or.inr ⟨_, hrestore, hdb⟩)⟩
    | restoreFailed _ hdb hstored _ => exact ⟨hstored ▸ List.Subset.refl _, .store hdb⟩
    | write _ _ hdb hstored _ =>
        exact ⟨hstored ▸ subset_execute d s _ _, .same (by rw [hdb])⟩
    | mark hbefore _ hdb hstored _ =>
        refine ⟨hstored ▸ List.Subset.refl _, ?_⟩
        rcases hdb with hdb | hdb
        · exact .same (by rw [hdb])
        · exact .mark (h.consumers i _ _ hbefore) hdb
  refine ⟨hkeeps, rows_marked h hkeeps, fun j msg rec hmarking => ?_,
    fun j rec rows nextID hpoint => ?_⟩
  · rw [hmembers] at hmarking
    by_cases hj : j = i
    · subst hj
      rw [Function.update_self] at hmarking
      cases heffect with
      | quiet hconsumer _ _ _ =>
          rcases hconsumer with hsame | hquiet
          · exact hkeeps.stored (h.consumers j msg rec (hsame ▸ hmarking))
          · exact absurd hmarking (hquiet msg rec).2
      | restore _ _ hconsumer _ _ _ =>
          rcases hconsumer with hnext | hnext <;> rw [hnext] at hmarking <;> cases hmarking
      | restoreFailed hconsumer _ _ _ => exact absurd hmarking (hconsumer msg rec).2
      | write _ hconsumer _ hstored _ =>
          rcases hconsumer with ⟨hnext, rfl⟩ | hquiet
          · rw [hnext] at hmarking
            cases hmarking
            rw [hstored]
            exact mem_execute d s rec
          · exact absurd hmarking (hquiet msg rec).2
      | mark _ hconsumer _ _ _ => exact absurd hmarking (hconsumer msg rec).2
    · rw [Function.update_of_ne hj] at hmarking
      exact hkeeps.stored (h.consumers j msg rec hmarking)
  · rw [hmembers] at hpoint
    refine hkeeps.stored (h.sweeps j rec rows nextID ?_)
    by_cases hj : j = i
    · subst hj
      rwa [Function.update_self] at hpoint
    · rwa [Function.update_of_ne hj] at hpoint

/-- The loop goes on with a row to write or waits. -/
theorem next_point (cfg : WorkerConfig) (sweep : Sweep) (rows : List TelemetryRecord)
    (nextID : Nat) (rec : TelemetryRecord) (rest : List TelemetryRecord) (last : Nat) :
    (sweep.next cfg rows nextID).point ≠ .marking rec rest last := by
  unfold Sweep.next
  split <;> simp

variable {go pg d} in
/-- The state of the loops and consumers after a change of one loop. -/
theorem marked_setSweep {s after : Fleet} {i : Nat} {sweep : Sweep} (h : s.Marked)
    (hkeeps : s.Keeps go pg after) (hmembers : after.members = s.members)
    (hsweep : ∀ rec rows nextID, sweep.point = .marking rec rows nextID →
      telemetryKey rec ∈ after.stored) :
    s.Keeps go pg (after.setSweep i sweep) ∧ (after.setSweep i sweep).Marked := by
  have hkeeps' : s.Keeps go pg (after.setSweep i sweep) := ⟨hkeeps.stored, hkeeps.rows⟩
  refine ⟨hkeeps', rows_marked h hkeeps', fun j msg rec hmarking => ?_,
    fun j rec rows nextID hpoint => ?_⟩
  · rw [setSweep_consumer, hmembers] at hmarking
    exact hkeeps.stored (h.consumers j msg rec hmarking)
  · rw [setSweep_sweep, hmembers] at hpoint
    split at hpoint
    · exact hsweep rec rows nextID hpoint
    · exact hkeeps.stored (h.sweeps j rec rows nextID hpoint)

variable {go pg d} in
/-- A step of a compensation loop. -/
theorem marked_compensate {s after : Fleet} {i : Nat} (h : s.Marked)
    (hstep : LoopStep d s i after) :
    s.Keeps go pg after ∧ after.Marked := by
  have hrefl : s.Keeps go pg s := ⟨List.Subset.refl _, .same rfl⟩
  cases hstep with
  | stay => exact ⟨hrefl, h⟩
  | reset hsweep =>
      refine marked_setSweep h hrefl rfl fun rec rows nextID hpoint => ?_
      rcases hsweep with rfl | rfl <;> cases hpoint
  | scan _ _ =>
      exact marked_setSweep h hrefl rfl fun rec rows nextID hpoint =>
        absurd hpoint (next_point _ _ _ _ _ _ _)
  | write _ _ hsweep =>
      rename_i rec rows nextID error sweep passing _ _
      have hkeeps : s.Keeps go pg (s.execute d rec error) :=
        ⟨subset_execute d s rec error, .same rfl⟩
      refine marked_setSweep h hkeeps rfl fun rec' rows' nextID' hpoint => ?_
      rcases hsweep with ⟨rfl, rfl⟩ | rfl | rfl
      · cases hpoint
        exact mem_execute d s rec
      · exact absurd hpoint (next_point _ _ _ _ _ _ _)
      · cases hpoint
  | mark hpoint hdb =>
      rename_i rec rows nextID db
      have hkeeps : s.Keeps go pg { s with db := db } := by
        refine ⟨List.Subset.refl _, ?_⟩
        rcases hdb with rfl | rfl
        · exact .same rfl
        · exact .mark (h.sweeps i rec rows nextID hpoint) rfl
      exact marked_setSweep h hkeeps rfl fun _ _ _ hnext =>
        absurd hnext (next_point _ _ _ _ _ _ _)

variable {go pg d} in
/-- A step keeps the marks backed. -/
theorem marked_step {s : Fleet} (h : s.Marked) (action : FleetAction) :
    s.Keeps go pg (s.step go pg d action) ∧ (s.step go pg d action).Marked := by
  cases action with
  | consume i move => exact marked_consume h i move
  | sweep i move => exact marked_compensate h (compensate_step d s i move)
  | assign i partition =>
      refine ⟨⟨List.Subset.refl _, .same rfl⟩, h.rows, fun j msg rec hmarking => ?_,
        fun j rec rows nextID hpoint => ?_⟩
      · refine h.consumers j msg rec ?_
        by_cases hj : j = i
        · subst hj
          simpa [Fleet.step] using hmarking
        · simpa [Fleet.step, Function.update_of_ne hj] using hmarking
      · refine h.sweeps j rec rows nextID ?_
        by_cases hj : j = i
        · subst hj
          simpa [Fleet.step] using hpoint
        · simpa [Fleet.step, Function.update_of_ne hj] using hpoint
  | produce topic partition key value time =>
      exact ⟨⟨List.Subset.refl _, .same rfl⟩, h.rows, h.consumers, h.sweeps⟩
  | store rec call =>
      have hmay : MayStore go pg rec s.db (call.after s.db (restoreTelemetry go pg rec s.db)) := by
        rcases call_cases go pg call rec s.db with ⟨restored, hrestore, _, hafter⟩ | ⟨_, _, hafter⟩
        · exact Or.inr ⟨restored, hrestore, hafter⟩
        · exact hafter
      have hkeeps : s.Keeps go pg (s.step go pg d (.store rec call)) :=
        ⟨List.Subset.refl _, .store hmay⟩
      exact ⟨hkeeps, rows_marked h hkeeps, h.consumers, h.sweeps⟩
  | registerDevice tenantID deviceID =>
      exact ⟨⟨List.Subset.refl _, .same rfl⟩, h.rows, h.consumers, h.sweeps⟩

theorem initial_marked : Fleet.initial.Marked :=
  ⟨fun _ _ hrow => (by cases hrow), fun _ _ _ h => (by cases h), fun _ _ _ _ h => (by cases h)⟩

variable {go pg} in
/-- Rows that change as they may stay as they are, apart from the mark. -/
theorem RowsStep.rowsMarked {stored : List TelemetryKey} {before after : TelemetryDb}
    (h : RowsStep go pg stored before after) : RowsMarked before after := by
  intro key row hrow
  rcases h.find? key with hsame | ⟨row', hrow', _, hmarked⟩ | ⟨_, _, hnone, _⟩
  · exact Or.inl (hsame.trans hrow)
  · rw [hrow] at hrow'
    cases hrow'
    exact Or.inr hmarked
  · rw [hrow] at hnone
    cases hnone

/-! ## Sweeps -/

/-- The key was pending at all scans of the sweep. -/
def Sweep.Persistent (sweep : Sweep) (key : TelemetryKey) : Prop := ∀ keys ∈ sweep.seen, key ∈ keys

/-- The rows of the batch that are left, and the id of its last row. -/
def SweepPoint.batch : SweepPoint → Option (List TelemetryRecord × Nat)
  | .writing rec rows nextID => some (rec :: rows, nextID)
  | .marking _ rows nextID => some (rows, nextID)
  | _ => none

/-- The rows that are left cover the persistent keys up to an id. -/
def Sweep.Reaches (sweep : Sweep) (rows : List TelemetryRecord) (nextID : Nat) : Prop :=
  ∀ key, sweep.Persistent key → d.rowID key ≤ nextID →
    key ∈ sweep.passed ∨ key ∈ rows.map telemetryKey

/-- The invariant of a sweep: nothing that was pending at all scans is left behind the cursor, or
behind the last row of the batch without being in the rest of it. -/
structure Sweep.Covers (cfg : WorkerConfig) (sweep : Sweep) : Prop where
  start : sweep.seen = [] → sweep.afterID = 0
  cursor : ∀ key, sweep.Persistent key → d.rowID key ≤ sweep.afterID → key ∈ sweep.passed
  batch : ∀ rows nextID, sweep.point.batch = some (rows, nextID) →
    sweep.seen ≠ [] ∧ (∀ rec ∈ rows, tenantAllowed cfg rec.tenantID = true) ∧
      sweep.Reaches d rows nextID

theorem covers_initial (cfg : WorkerConfig) : Sweep.initial.Covers d cfg := by
  refine ⟨fun _ => rfl, fun key _ hkey => ?_, fun _ _ h => by cases h⟩
  have hpos := d.rowID_pos key
  exact absurd hkey (Nat.not_le_of_lt hpos)

variable {d}

/-- A sweep that does nothing more keeps the cursor covered. -/
theorem covers_pause {cfg : WorkerConfig} {sweep : Sweep} {point : SweepPoint}
    {passed : List TelemetryKey} (h : sweep.Covers d cfg) (hpassed : sweep.passed ⊆ passed)
    (hpoint : point.batch = none) :
    Sweep.Covers d cfg { sweep with point := point, passed := passed } := by
  refine ⟨h.start, fun key hkey hid => hpassed (h.cursor key hkey hid),
    fun rows nextID hbatch => ?_⟩
  rw [show ({ sweep with point := point, passed := passed } : Sweep).point = point from rfl,
    hpoint] at hbatch
  cases hbatch

/-- The loop goes on with rows that cover the persistent keys. -/
theorem covers_next {cfg : WorkerConfig} {sweep : Sweep} {rows : List TelemetryRecord}
    {nextID : Nat} (hseen : sweep.seen ≠ [])
    (hcursor : ∀ key, sweep.Persistent key → d.rowID key ≤ sweep.afterID → key ∈ sweep.passed)
    (hallowed : ∀ rec ∈ rows, tenantAllowed cfg rec.tenantID = true)
    (hrows : sweep.Reaches d rows nextID) : (sweep.next cfg rows nextID).Covers d cfg := by
  -- the scan lists rows of allowed tenants only, so none is passed over
  have hdrop : (rows.dropWhile fun rec => !tenantAllowed cfg rec.tenantID) = rows := by
    cases rows with
    | nil => rfl
    | cons rec rest => simp [hallowed rec (by simp)]
  unfold Sweep.next
  rw [hdrop]
  cases rows with
  | nil =>
      refine ⟨fun hnil => absurd hnil hseen, fun key hkey hid => ?_,
        fun _ _ hbatch => by cases hbatch⟩
      exact (hrows key hkey hid).resolve_right (by simp)
  | cons rec rest =>
      refine ⟨fun hnil => absurd hnil hseen, hcursor, fun rows' nextID' hbatch => ?_⟩
      cases hbatch
      exact ⟨hseen, hallowed, hrows⟩

/-- The rows a scan lists reach up to its last id. -/
theorem reaches_scan {cfg : WorkerConfig} {sweep : Sweep} {olderThan : Time} {limit : Nat}
    {db : TelemetryDb} (hcursor : ∀ key, sweep.Persistent key → d.rowID key ≤ sweep.afterID →
      key ∈ sweep.passed)
    (hrows : (listUnwrittenTelemetry d cfg olderThan sweep.afterID limit db).1 ≠ [])
    (key : TelemetryKey) (hpersistent : sweep.Persistent key)
    (hpending : key ∈ pendingKeys cfg olderThan db)
    (hid : d.rowID key ≤ (listUnwrittenTelemetry d cfg olderThan sweep.afterID limit db).2) :
    key ∈ sweep.passed ∨
      key ∈ (listUnwrittenTelemetry d cfg olderThan sweep.afterID limit db).1.map telemetryKey := by
  by_cases hbefore : d.rowID key ≤ sweep.afterID
  · exact Or.inl (hcursor key hpersistent hbefore)
  · right
    obtain ⟨row, hrow, rfl⟩ := List.mem_map.mp hpending
    obtain ⟨hmem, hwhere⟩ := List.mem_filter.mp hrow
    obtain ⟨last, hlast⟩ := Option.isSome_iff_exists.mp (List.getLast?_isSome.mpr hrows)
    have hnext : (listUnwrittenTelemetry d cfg olderThan sweep.afterID limit db).2 =
        d.rowID (telemetryKey last) := by
      show (Option.elim _ _ _ : Nat) = _
      rw [show (db.records.select _ _ limit).getLast? = some last from hlast]
      rfl
    refine List.mem_map_of_mem (Table.mem_select_of_le ?_ hmem ?_ (List.mem_of_getLast? hlast) ?_)
    · intro row hrow other hother heq
      exact db.records.eq_of_key hrow hother (d.rowID_inj _ _ heq)
    · simp only [hwhere, Bool.true_and, decide_eq_true_eq]
      omega
    · exact hnext ▸ hid

/-- A step of a compensation loop keeps the sweep covered. -/
theorem covers_step {s after : Fleet} {i : Nat} (h : (s.members i).sweep.Covers d (d.cfg i))
    (hstep : LoopStep d s i after) : (after.members i).sweep.Covers d (d.cfg i) := by
  cases hstep with
  | stay => exact h
  | reset hsweep =>
      rw [setSweep_sweep, if_pos rfl]
      rcases hsweep with rfl | rfl
      · exact covers_initial d _
      · exact covers_pause h (List.Subset.refl _) rfl
  | scan hpoint hrows =>
      rename_i olderThan
      rw [setSweep_sweep, if_pos rfl]
      have hcursor : ∀ key, (∀ keys ∈ (s.members i).sweep.seen ++
          [pendingKeys (d.cfg i) olderThan s.db], key ∈ keys) →
          d.rowID key ≤ (s.members i).sweep.afterID → key ∈ (s.members i).sweep.passed :=
        fun key hkey hid =>
          h.cursor key (fun keys hkeys => hkey keys (List.mem_append_left _ hkeys)) hid
      refine covers_next (by simp) hcursor (fun rec hrec => ?_) (fun key hkey hid => ?_)
      · have hwhere := (Table.mem_of_mem_select hrec).2
        simp only [pending, Bool.and_eq_true] at hwhere
        exact hwhere.1.2
      · exact reaches_scan h.cursor hrows key
          (fun keys hkeys => hkey keys (List.mem_append_left _ hkeys)) (hkey _ (by simp)) hid
  | write hpoint hpassing hsweep =>
      rename_i rec rows nextID error sweep passing
      rw [setSweep_sweep, if_pos rfl]
      obtain ⟨hseen, hallowed, hreaches⟩ :=
        h.batch (rec :: rows) nextID (by rw [hpoint]; rfl)
      have hgrows : (s.members i).sweep.passed ⊆ passing.passed := by
        rw [hpassing]
        exact List.subset_append_left _ _
      have hrest : passing.Reaches d rows nextID := by
        intro key hkey hid
        rw [hpassing] at hkey ⊢
        rcases hreaches key hkey hid with hdone | hleft
        · exact Or.inl (List.mem_append_left _ hdone)
        · rcases List.mem_cons.mp hleft with rfl | hleft
          · exact Or.inl (List.mem_append_right _ (List.mem_singleton_self _))
          · exact Or.inr hleft
      have hcursor : ∀ key, passing.Persistent key → d.rowID key ≤ passing.afterID →
          key ∈ passing.passed := by
        intro key hkey hid
        rw [hpassing] at hkey hid
        exact hgrows (h.cursor key hkey hid)
      have hseen' : passing.seen ≠ [] := by
        rw [hpassing]
        exact hseen
      have hallowed' : ∀ row ∈ rows, tenantAllowed (d.cfg i) row.tenantID = true :=
        fun row hrow => hallowed row (List.mem_cons_of_mem _ hrow)
      rcases hsweep with ⟨_, rfl⟩ | rfl | rfl
      · refine ⟨fun hnil => absurd hnil hseen', hcursor, fun rows' nextID' hbatch => ?_⟩
        cases hbatch
        exact ⟨hseen', hallowed', hrest⟩
      · exact covers_next hseen' hcursor hallowed' hrest
      · -- a transient failure leaves the cursor where it is
        subst hpassing
        show Sweep.Covers d (d.cfg i) { (s.members i).sweep with
          point := .waiting, passed := (s.members i).sweep.passed ++ [telemetryKey rec] }
        exact covers_pause h hgrows rfl
  | mark hpoint hdb =>
      rename_i rec rows nextID db
      rw [setSweep_sweep, if_pos rfl]
      obtain ⟨hseen, hallowed, hreaches⟩ := h.batch rows nextID (by rw [hpoint]; rfl)
      exact covers_next hseen h.cursor hallowed hreaches

/-- A step of a compensation loop leaves the other loops as they are. -/
theorem loop_other {s after : Fleet} {i j : Nat} (hstep : LoopStep d s i after) (hj : j ≠ i) :
    (after.members j).sweep = (s.members j).sweep := by
  cases hstep with
  | stay => rfl
  | _ => exact (setSweep_sweep _ _ _ _).trans (if_neg hj)

/-- A step keeps all sweeps covered. -/
theorem covers_fleet {s : Fleet} (h : ∀ i, (s.members i).sweep.Covers d (d.cfg i))
    (action : FleetAction) (i : Nat) :
    ((s.step go pg d action).members i).sweep.Covers d (d.cfg i) := by
  cases action with
  | consume j move =>
      obtain ⟨worker, hmembers, _⟩ := consume_effect go pg d s j move
      show ((s.consume go pg d j move).members i).sweep.Covers d (d.cfg i)
      rw [hmembers, Function.update_apply]
      split
      · subst_vars
        exact h _
      · exact h i
  | sweep j move =>
      have hstep := compensate_step d s j move
      by_cases hi : i = j
      · subst hi
        exact covers_step (h i) hstep
      · show ((s.compensate d j move).members i).sweep.Covers d (d.cfg i)
        rw [loop_other hstep hi]
        exact h i
  | assign j partition =>
      simp only [Fleet.step, Function.update_apply]
      split
      · subst_vars
        exact h _
      · exact h i
  | produce topic partition key value time => exact h i
  | store rec call => exact h i
  | registerDevice tenantID deviceID => exact h i

/-- For every run of any number of workers, whichever writes and marks fail: a row is marked only
if a write of its key was confirmed before; there is one row for a key, and it is not changed
otherwise and never deleted; and when a scan of a compensation loop finds no row, which ends its
sweep, every row that was pending at that scan and at all others of the sweep has been passed to the
writer in the sweep. -/
theorem markers_and_sweeps (go : GoRuntime) (pg : Postgres) (d : Deployment)
    (actions more : List FleetAction) :
    let s := Execution.run (Fleet.step go pg d) .initial actions
    (∀ row ∈ s.db.records.rows, row.tdengineWritten = true → telemetryKey row ∈ s.stored) ∧
    (s.db.records.rows.map telemetryKey).Nodup ∧
    RowsMarked s.db (Execution.run (Fleet.step go pg d) s more).db ∧
    ∀ (i : Nat) (now : Time), (s.members i).sweep.point = .waiting →
      (listUnwrittenTelemetry d (d.cfg i) (now - tdengineCompensateMinAge)
        (s.members i).sweep.afterID tdengineCompensateBatch s.db).1 = [] →
      ∀ key, (s.members i).sweep.Persistent key →
        key ∈ pendingKeys (d.cfg i) (now - tdengineCompensateMinAge) s.db →
        key ∈ (s.members i).sweep.passed := by
  intro s
  have hmarked : s.Marked :=
    run_invariant Fleet.Marked (fun _ action h => (marked_step h action).2) initial_marked actions
  have hcovers : ∀ i, (s.members i).sweep.Covers d (d.cfg i) :=
    run_invariant (fun state : Fleet => ∀ i, (state.members i).sweep.Covers d (d.cfg i))
      (fun _ action h => covers_fleet go pg h action) (fun _ => covers_initial d _) actions
  refine ⟨fun row hrow hwritten => ?_, s.db.records.nodup, ?_,
    fun i now _ hempty key hkey hpending => ?_⟩
  · exact hmarked.rows _ row ((Table.find?_eq_some_iff _ _ _).mpr ⟨hrow, rfl⟩) hwritten
  · exact run_related Fleet.Marked (fun before after => RowsMarked before.db after.db)
      (fun _ action h => (marked_step h action).2) (fun state => rowsMarked_refl state.db)
      (fun _ _ _ => rowsMarked_trans)
      (fun _ action h => (marked_step h action).1.rows.rowsMarked) hmarked more
  · refine (hcovers i).cursor key hkey (Nat.le_of_not_lt fun hlt => ?_)
    obtain ⟨row, hrow, rfl⟩ := List.mem_map.mp hpending
    obtain ⟨hmem, hwhere⟩ := List.mem_filter.mp hrow
    refine Table.select_ne_nil (by decide) hmem ?_ hempty
    simp only [hwhere, Bool.true_and, decide_eq_true_eq]
    exact hlt

/-- The number of a text, which tells texts apart. -/
def textNumber : Bytes → Nat
  | [] => 0
  | b :: rest => b.toNat + 1 + 257 * textNumber rest

theorem textNumber_injective :
    ∀ {text other : Bytes}, textNumber text = textNumber other → text = other
  | [], [], _ => rfl
  | [], c :: rest, h => by
      simp only [textNumber] at h
      omega
  | b :: rest, [], h => by
      simp only [textNumber] at h
      omega
  | b :: rest, c :: rest', h => by
      have hb := b.toNat_lt
      have hc := c.toNat_lt
      simp only [textNumber] at h
      have hrest : textNumber rest = textNumber rest' := by omega
      have hhead : b.toNat = c.toNat := by omega
      rw [textNumber_injective hrest, UInt8.toNat_inj.mp hhead]

/-- Workers for one tenant, and a database that numbers the rows by the text of their keys. -/
def plainDeployment : Deployment where
  cfg := fun _ => plainWorker
  group := fun _ => ascii "iot-device-worker-telemetry"
  writer := ⟨ascii "iot", ascii "telemetry_v2"⟩
  rowID := fun key =>
    Nat.pair (textNumber key.1) (Nat.pair (textNumber key.2.1) (textNumber key.2.2)) + 1
  rowID_pos := fun _ => Nat.succ_pos _
  rowID_inj := fun key other h => by
    obtain ⟨hmsg, hrest⟩ := Nat.pair_eq_pair.mp (Nat.succ.inj h)
    obtain ⟨htenant, hdevice⟩ := Nat.pair_eq_pair.mp hrest
    exact Prod.ext (textNumber_injective hmsg)
      (Prod.ext (textNumber_injective htenant) (textNumber_injective hdevice))

/-- A record of the tenant. -/
def plainRecord : TelemetryRecord :=
  ⟨ascii "m", ascii "t", ascii "d", 1, ascii "temp", ascii "v1", ascii "\x7b\x7d", false, 1⟩

/-- A row is stored, and the sweep of a worker passes it to TDengine, which rejects its time for
good. -/
def rejectedSweep : List FleetAction :=
  [.registerDevice (ascii "t") (ascii "d"), .store plainRecord .executed,
    .sweep 0 (.scan (121 * second) none),
    .sweep 0 (.write (some ⟨.new "timestamp out of range", some 0x060b⟩))]

/-- The sweep that meets the rejected row ends with it passed to the writer. -/
theorem markers_and_sweeps_rejected :
    let s := Execution.run (Fleet.step .plain .plain plainDeployment) .initial rejectedSweep
    (s.members 0).sweep.seen = [[telemetryKey plainRecord]] ∧
      telemetryKey plainRecord ∈ (s.members 0).sweep.passed := by
  have hsweeps := (markers_and_sweeps .plain .plain plainDeployment rejectedSweep []).2.2.2 0
    (121 * second)
  have hpoint : ((Execution.run (Fleet.step .plain .plain plainDeployment) .initial
      rejectedSweep).members 0).sweep.point = .waiting := by decide +kernel
  have hseen : ((Execution.run (Fleet.step .plain .plain plainDeployment) .initial
      rejectedSweep).members 0).sweep.seen = [[telemetryKey plainRecord]] := by decide +kernel
  refine ⟨hseen, hsweeps hpoint (by decide +kernel) _ (fun keys hkeys => ?_) (by decide +kernel)⟩
  rw [hseen] at hkeys
  rw [List.mem_singleton.mp hkeys]
  exact List.mem_singleton_self _

end Iot.Worker
