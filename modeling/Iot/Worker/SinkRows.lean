import Iot.Worker.Sweeps

/-!
# One message, one statement

A telemetry message may be written to TDengine more than once: by the consumer that stores its row,
by a consumer that finds the row already there and by a compensation loop. The consumer that stores
the row writes the payload as Kafka delivered it, the others the text PostgreSQL returns for it, so
`payload_hash` and `payload_bytes` depend on who writes (`paths_disagree`). The statements agree
exactly if the payload is the text PostgreSQL returns for it, up to collisions of SHA-256
(`statements_agree_iff`).
-/

namespace Iot.Worker

open Text Json Contracts Platform Store Data Execution Telemetry

variable (go : GoRuntime) (pg : Postgres) (d : Deployment)

/-- The payload is the text PostgreSQL returns for it. -/
def NormalForm (payload : Bytes) : Prop :=
  ∀ column, StoredText go pg payload column → payload = column

/-- Two texts of the same length that SHA-256 does not tell apart. -/
structure Collision (payload column : Bytes) : Prop where
  ne : payload ≠ column
  hash : sha256Hex payload = sha256Hex column
  length : payload.length = column.length

/-- A consumer that is about to store a new row has a payload in the form PostgreSQL returns. -/
def Normalized (s : Fleet) (action : FleetAction) : Prop :=
  ∀ i move msg rec, action = .consume i move →
    (s.members i).consumer.consumer = .restoring msg rec →
    s.db.records.find? (telemetryKey rec) = none → NormalForm go pg rec.payload

/-- A record is written as the row of its key would be. -/
def Fleet.WrittenAsRow (s : Fleet) (rec : TelemetryRecord) : Prop :=
  ∃ row, s.db.records.find? (telemetryKey rec) = some row ∧
    d.writer.prepare rec = d.writer.prepare row

/-- All that was written, or is about to be, is written as the row of its key is. -/
structure Fleet.Agreed (s : Fleet) : Prop where
  statements : ∀ key statement, (key, statement) ∈ s.statements →
    ∃ row, s.db.records.find? key = some row ∧ d.writer.prepare row = .ok statement
  consumers : ∀ i msg rec, (s.members i).consumer.consumer = .sinking msg rec →
    s.WrittenAsRow d rec
  sweeps : ∀ i rows nextID, (s.members i).sweep.point.batch = some (rows, nextID) →
    ∀ rec ∈ rows, s.WrittenAsRow d rec

variable {go pg d}

/-- StoredText is a function of the payload. -/
theorem storedText_unique {payload column other : Bytes} (h : StoredText go pg payload column)
    (hother : StoredText go pg payload other) : column = other := by
  obtain ⟨value, hvalue, hcolumn⟩ := h
  obtain ⟨value', hvalue', hother⟩ := hother
  rw [hvalue] at hvalue'
  cases hvalue'
  rw [hcolumn] at hother
  cases hother
  rfl

/-- A record and its row differ in the payload columns only. -/
theorem insertStatement_storedRow_iff (rec : TelemetryRecord) (column : Bytes) :
    d.writer.insertStatement rec = d.writer.insertStatement (storedRow rec column) ↔
      sha256Hex rec.payload = sha256Hex column ∧ rec.payload.length = column.length :=
  insertStatement_eq_iff rfl

/-- A record whose payload is the text that is stored has the statement of its row. -/
theorem insertStatement_storedRow {rec : TelemetryRecord} {column : Bytes}
    (hcolumn : StoredText go pg rec.payload column) (hnormal : NormalForm go pg rec.payload) :
    d.writer.insertStatement rec = d.writer.insertStatement (storedRow rec column) := by
  have hsame : rec.payload = column := hnormal column hcolumn
  exact (insertStatement_storedRow_iff rec column).mpr
    ⟨congrArg sha256Hex hsame, congrArg List.length hsame⟩

/-- If the two have the same statement, the payload is the text that is stored, or SHA-256 does not
tell them apart. -/
theorem normalForm_or_collision {rec : TelemetryRecord} {column : Bytes}
    (hcolumn : StoredText go pg rec.payload column)
    (h : d.writer.insertStatement rec = d.writer.insertStatement (storedRow rec column)) :
    NormalForm go pg rec.payload ∨ Collision rec.payload column := by
  obtain ⟨hhash, hlength⟩ := (insertStatement_storedRow_iff rec column).mp h
  by_cases hsame : rec.payload = column
  · exact .inl fun other hother => hsame.trans (storedText_unique hcolumn hother)
  · exact .inr ⟨hsame, hhash, hlength⟩

/-- Records that are written alike, and whose fields are the same, are prepared alike. -/
theorem prepare_storedRow {rec : TelemetryRecord} {column : Bytes}
    (h : d.writer.insertStatement rec = d.writer.insertStatement (storedRow rec column)) :
    d.writer.prepare rec = d.writer.prepare (storedRow rec column) := by
  unfold TDengineWriter.prepare
  rw [h]
  rfl

/-- Once the fields are accepted, records that are prepared alike are written alike. -/
theorem insertStatement_of_prepare {rec : TelemetryRecord} {column statement : Bytes}
    (hrec : d.writer.prepare rec = .ok statement)
    (h : d.writer.prepare rec = d.writer.prepare (storedRow rec column)) :
    d.writer.insertStatement rec = d.writer.insertStatement (storedRow rec column) := by
  unfold TDengineWriter.prepare at h hrec
  dsimp only [storedRow] at h
  split at hrec
  · cases hrec
  · rename_i hfields
    rw [hfields] at h
    exact Except.ok.inj h

/-- The mark changes nothing that is written. -/
@[simp] theorem prepare_markedRow (row : TelemetryRecord) :
    d.writer.prepare (markedRow row) = d.writer.prepare row := rfl

/-- A row stays, and so does what is written for it. -/
theorem prepare_kept {before after : TelemetryDb} {key : TelemetryKey} {row : TelemetryRecord}
    (hrows : RowsMarked before after) (h : before.records.find? key = some row) :
    ∃ row', after.records.find? key = some row' ∧ d.writer.prepare row' = d.writer.prepare row := by
  rcases hrows key row h with hsame | hmarked
  · exact ⟨row, hsame, rfl⟩
  · exact ⟨markedRow row, hmarked, rfl⟩

/-- What is written as the row of its key is stays so. -/
theorem writtenAsRow_mono {s after : Fleet} {rec : TelemetryRecord}
    (hrows : RowsMarked s.db after.db) (h : s.WrittenAsRow d rec) : after.WrittenAsRow d rec := by
  obtain ⟨row, hrow, hsame⟩ := h
  obtain ⟨row', hrow', hkept⟩ := prepare_kept (d := d) hrows hrow
  exact ⟨row', hrow', hsame.trans hkept.symm⟩

/-- What a consumer writes after it has stored a record. -/
theorem writtenAsRow_restore {s after : Fleet} {rec : TelemetryRecord} {restored : Restored}
    (hrestore : restoreTelemetry go pg rec s.db = .ok restored)
    (hdb : after.db = restored.db s.db)
    (hnormalized : s.db.records.find? (telemetryKey rec) = none → NormalForm go pg rec.payload) :
    after.WrittenAsRow d restored.record := by
  unfold Fleet.WrittenAsRow
  rw [hdb]
  cases restored with
  | duplicate stored =>
      obtain ⟨_, ⟨_, _, _, h⟩ | ⟨_, hstored, h⟩⟩ := restoreTelemetry_cases hrestore
      · cases h
      · cases h
        refine ⟨stored, ?_, rfl⟩
        rw [show telemetryKey (Restored.duplicate stored).record = telemetryKey rec from
          Table.key_of_find? hstored]
        exact hstored
  | inserted first db =>
      obtain ⟨hfirst, _⟩ := restoreTelemetry_inserted hrestore
      obtain ⟨column, hcolumn, hnew, hfind⟩ := find?_inserted hrestore (telemetryKey rec)
      rw [if_pos rfl] at hfind
      refine ⟨storedRow rec column, by rw [← hfind, Restored.record, hfirst]; rfl, ?_⟩
      rw [Restored.record, hfirst]
      exact prepare_storedRow (insertStatement_storedRow hcolumn (hnormalized hnew))

/-- What the rows a scan lists are written as. -/
theorem writtenAsRow_listed {s : Fleet} {cfg : WorkerConfig} {olderThan : Time}
    {afterID limit : Nat} {rec : TelemetryRecord}
    (h : rec ∈ (listUnwrittenTelemetry d cfg olderThan afterID limit s.db).1) :
    s.db.records.find? (telemetryKey rec) = some rec :=
  (Table.find?_eq_some_iff _ _ _).mpr ⟨(Table.mem_of_mem_select h).1, rfl⟩

/-- Passing a record to the writer that is written as its row is. -/
theorem statements_execute {s after : Fleet} {rec : TelemetryRecord} {error : Option WriteError}
    (h : ∀ key statement, (key, statement) ∈ s.statements →
      ∃ row, s.db.records.find? key = some row ∧ d.writer.prepare row = .ok statement)
    (hrec : s.WrittenAsRow d rec) (hdb : after.db = s.db)
    (hstatements : after.statements = (s.execute d rec error).statements) :
    ∀ key statement, (key, statement) ∈ after.statements →
      ∃ row, after.db.records.find? key = some row ∧ d.writer.prepare row = .ok statement := by
  intro key statement hmem
  rw [hdb]
  rw [hstatements, Fleet.execute] at hmem
  obtain ⟨row, hrow, hsame⟩ := hrec
  cases hprepare : d.writer.prepare rec with
  | error err =>
      rw [hprepare] at hmem
      exact h key statement hmem
  | ok issued =>
      rw [hprepare] at hmem
      rcases List.mem_append.mp hmem with hmem | hmem
      · exact h key statement hmem
      · cases List.mem_singleton.mp hmem
        exact ⟨row, hrow, hsame.symm.trans hprepare⟩

/-- The statements that were executed stay those of the rows. -/
theorem statements_kept {s after : Fleet} (h : s.Agreed d) (hrows : RowsMarked s.db after.db)
    (hstatements : after.statements = s.statements) :
    ∀ key statement, (key, statement) ∈ after.statements →
      ∃ row, after.db.records.find? key = some row ∧ d.writer.prepare row = .ok statement := by
  intro key statement hmem
  rw [hstatements] at hmem
  obtain ⟨row, hrow, hprepare⟩ := h.statements key statement hmem
  obtain ⟨row', hrow', hkept⟩ := prepare_kept (d := d) hrows hrow
  exact ⟨row', hrow', hkept.trans hprepare⟩

/-- A step of a consumer that stores no payload that differs from its text in PostgreSQL. -/
theorem agreed_consume {s : Fleet} (h : s.Agreed d) (hmarked : s.Marked) {i : Nat}
    {move : ConsumerMove} (hnormalized : Normalized go pg s (.consume i move)) :
    (s.consume go pg d i move).Agreed d := by
  have hkeeps : s.Keeps go pg (s.consume go pg d i move) := (marked_consume hmarked i move).1
  have hrows := hkeeps.rows.rowsMarked
  obtain ⟨worker, hmembers, heffect⟩ := consume_effect go pg d s i move
  generalize s.consume go pg d i move = after at hmembers heffect hrows
  clear hkeeps
  refine ⟨?_, fun j msg rec hsinking => ?_, fun j rows nextID hbatch rec hrec => ?_⟩
  · cases heffect with
    | write hbefore _ hdb _ hstatements =>
        exact statements_execute h.statements (h.consumers i _ _ hbefore) hdb hstatements
    | quiet _ _ _ hstatements => exact statements_kept h hrows hstatements
    | restore _ _ _ _ _ hstatements => exact statements_kept h hrows hstatements
    | restoreFailed _ _ _ hstatements => exact statements_kept h hrows hstatements
    | mark _ _ _ _ hstatements => exact statements_kept h hrows hstatements
  · rw [hmembers] at hsinking
    by_cases hj : j = i
    · subst hj
      rw [Function.update_self] at hsinking
      cases heffect with
      | quiet hconsumer _ _ _ =>
          rcases hconsumer with hsame | hquiet
          · exact writtenAsRow_mono hrows (h.consumers j msg rec (hsame ▸ hsinking))
          · exact absurd hsinking (hquiet msg rec).1
      | restore hbefore hrestore hconsumer hdb _ _ =>
          rcases hconsumer with hnext | hnext
          · rw [hnext] at hsinking
            cases hsinking
          · rw [hnext] at hsinking
            cases hsinking
            exact writtenAsRow_restore hrestore hdb (hnormalized j move _ _ rfl hbefore)
      | restoreFailed hconsumer _ _ _ => exact absurd hsinking (hconsumer msg rec).1
      | write _ hconsumer _ _ _ =>
          rcases hconsumer with ⟨hnext, _⟩ | hquiet
          · rw [hnext] at hsinking
            cases hsinking
          · exact absurd hsinking (hquiet msg rec).1
      | mark _ hconsumer _ _ _ => exact absurd hsinking (hconsumer msg rec).1
    · rw [Function.update_of_ne hj] at hsinking
      exact writtenAsRow_mono hrows (h.consumers j msg rec hsinking)
  · rw [hmembers] at hbatch
    refine writtenAsRow_mono hrows (h.sweeps j rows nextID ?_ rec hrec)
    by_cases hj : j = i
    · subst hj
      rwa [Function.update_self] at hbatch
    · rwa [Function.update_of_ne hj] at hbatch

/-- The loop goes on with rows of its batch. -/
theorem mem_next_batch {cfg : WorkerConfig} {sweep : Sweep} {rows rest : List TelemetryRecord}
    {nextID last : Nat} (h : (sweep.next cfg rows nextID).point.batch = some (rest, last)) :
    ∀ rec ∈ rest, rec ∈ rows := by
  unfold Sweep.next at h
  split at h
  · cases h
  · rename_i rec tail heq
    cases h
    intro other hother
    rw [← heq] at hother
    exact (List.dropWhile_sublist _).subset hother

/-- A step of a loop that keeps the rows, with what it may write next. -/
theorem agreed_setSweep {s after : Fleet} {i : Nat} {sweep : Sweep} (h : s.Agreed d)
    (hrows : RowsMarked s.db after.db) (hmembers : after.members = s.members)
    (hstatements : ∀ key statement, (key, statement) ∈ after.statements →
      ∃ row, after.db.records.find? key = some row ∧ d.writer.prepare row = .ok statement)
    (hsweep : ∀ rows nextID, sweep.point.batch = some (rows, nextID) → ∀ rec ∈ rows,
      s.WrittenAsRow d rec) : (after.setSweep i sweep).Agreed d := by
  refine ⟨hstatements, fun j msg rec hsinking => ?_, fun j rows nextID hbatch rec hrec => ?_⟩
  · rw [setSweep_consumer, hmembers] at hsinking
    exact writtenAsRow_mono hrows (h.consumers j msg rec hsinking)
  · rw [setSweep_sweep, hmembers] at hbatch
    split at hbatch
    · exact writtenAsRow_mono hrows (hsweep rows nextID hbatch rec hrec)
    · exact writtenAsRow_mono hrows (h.sweeps j rows nextID hbatch rec hrec)

/-- A step of a compensation loop. -/
theorem agreed_compensate {s after : Fleet} {i : Nat} (h : s.Agreed d)
    (hstep : LoopStep d s i after) : after.Agreed d := by
  have hrefl := rowsMarked_refl s.db
  cases hstep with
  | stay => exact h
  | reset hsweep =>
      refine agreed_setSweep h hrefl rfl h.statements fun rows nextID hbatch => ?_
      rcases hsweep with rfl | rfl <;> cases hbatch
  | scan _ _ =>
      refine agreed_setSweep h hrefl rfl h.statements fun rows nextID hbatch rec hrec => ?_
      exact ⟨rec, writtenAsRow_listed (mem_next_batch hbatch rec hrec), rfl⟩
  | write hpoint hpassing hsweep =>
      rename_i rec rows nextID error sweep passing
      have hbatch := h.sweeps i (rec :: rows) nextID (by rw [hpoint]; rfl)
      refine agreed_setSweep h hrefl rfl
        (statements_execute h.statements (hbatch rec (by simp)) rfl rfl) ?_
      intro rows' nextID' hnext row hrow
      refine hbatch row (List.mem_cons_of_mem _ ?_)
      rcases hsweep with ⟨_, rfl⟩ | rfl | rfl
      · cases hnext
        exact hrow
      · exact mem_next_batch hnext row hrow
      · cases hnext
  | mark hpoint hdb =>
      rename_i rec rows nextID db
      have hrows : RowsMarked s.db db := by
        rcases hdb with rfl | rfl
        · exact hrefl
        · have hmark : RowsStep .plain .plain [telemetryKey rec] s.db
              (markTelemetryTDengineWritten (telemetryKey rec) s.db) :=
            .mark (List.mem_singleton_self _) rfl
          exact hmark.rowsMarked
      refine agreed_setSweep h hrows rfl (statements_kept h hrows rfl)
        fun rows' nextID' hnext row hrow => ?_
      exact h.sweeps i rows nextID (by rw [hpoint]; rfl) row (mem_next_batch hnext row hrow)

/-- A step that meets the condition. -/
theorem agreed_step {s : Fleet} (h : s.Agreed d) (hmarked : s.Marked) {action : FleetAction}
    (hnormalized : Normalized go pg s action) : (s.step go pg d action).Agreed d := by
  have hkeeps : s.Keeps go pg (s.step go pg d action) := (marked_step hmarked action).1
  have hrows := hkeeps.rows.rowsMarked
  cases action with
  | consume i move => exact agreed_consume h hmarked hnormalized
  | sweep i move => exact agreed_compensate h (compensate_step d s i move)
  | assign i partition =>
      refine ⟨h.statements, fun j msg rec hsinking => ?_, fun j rows nextID hbatch => ?_⟩
      · refine h.consumers j msg rec ?_
        simp only [Fleet.step, Function.update_apply] at hsinking
        split at hsinking
        · subst_vars
          exact hsinking
        · exact hsinking
      · refine h.sweeps j rows nextID ?_
        simp only [Fleet.step, Function.update_apply] at hbatch
        split at hbatch
        · subst_vars
          exact hbatch
        · exact hbatch
  | produce topic partition key value time => exact ⟨h.statements, h.consumers, h.sweeps⟩
  | store rec call =>
      exact ⟨statements_kept h hrows rfl,
        fun j msg rec hsinking => writtenAsRow_mono hrows (h.consumers j msg rec hsinking),
        fun j rows nextID hbatch rec hrec =>
          writtenAsRow_mono hrows (h.sweeps j rows nextID hbatch rec hrec)⟩
  | registerDevice tenantID deviceID => exact ⟨h.statements, h.consumers, h.sweeps⟩

theorem initial_agreed : Fleet.initial.Agreed d :=
  ⟨fun _ _ hmem => (by cases hmem), fun _ _ _ h => (by cases h), fun _ _ _ h => (by cases h)⟩

/-- What the other two paths write for a key: the row that a consumer gets that finds it there, and
that a compensation loop lists. -/
structure OtherPaths (go : GoRuntime) (pg : Postgres) (d : Deployment) (later : TelemetryDb)
    (key : TelemetryKey) (row : TelemetryRecord) : Prop where
  found : later.records.find? key = some row
  duplicate : ∀ other stored, telemetryKey other = key →
    restoreTelemetry go pg other later = .ok (.duplicate stored) → stored = row
  listed : ∀ cfg olderThan afterID limit,
    ∀ other ∈ (listUnwrittenTelemetry d cfg olderThan afterID limit later).1,
      telemetryKey other = key → other = row

/-- Both read the row of the key. -/
theorem otherPaths_of_find? {later : TelemetryDb} {key : TelemetryKey} {row : TelemetryRecord}
    (h : later.records.find? key = some row) : OtherPaths go pg d later key row := by
  refine ⟨h, fun other stored hkey hrestore => ?_,
    fun cfg olderThan afterID limit other hother hkey => ?_⟩
  · obtain ⟨_, ⟨_, _, _, heq⟩ | ⟨_, hstored, heq⟩⟩ := restoreTelemetry_cases hrestore
    · cases heq
    · cases heq
      rw [hkey, h] at hstored
      exact (Option.some.inj hstored).symm
  · have hfind : later.records.find? (telemetryKey other) = some other :=
      (Table.find?_eq_some_iff _ _ _).mpr ⟨(Table.mem_of_mem_select hother).1, rfl⟩
    rw [hkey, h] at hfind
    exact (Option.some.inj hfind).symm

/-- A consumer that stores a new row is about to write the record as it got it. -/
theorem consume_inserted {s : Fleet} {i : Nat} {msg : Message} {rec first : TelemetryRecord}
    {db : TelemetryDb} (hconsumer : (s.members i).consumer.consumer = .restoring msg rec)
    (hinsert : restoreTelemetry go pg rec s.db = .ok (.inserted first db)) :
    (s.step go pg d (.consume i (.restore .executed))).db = db ∧
      ((d.cfg i).tdengine = true →
        ((s.step go pg d (.consume i (.restore .executed))).members i).consumer.consumer =
          .sinking msg first) := by
  have hcall : sinkCall d (s.members i).consumer.consumer (.restore .executed) = none := by
    rw [hconsumer]
    rfl
  have hstep : consumeTelemetry go pg (d.cfg i) (s.world d i) (s.members i).consumer
      (.restore .executed) = ({ s.world d i with db := db }, { (s.members i).consumer with
        consumer := afterRestore (d.cfg i).toConfig msg (.inserted first db) }) := by
    simp only [consumeTelemetry, hconsumer, Telemetry.Worker.step, Fleet.world, hinsert,
      Call.reported, Call.after, Restored.db]
  simp only [Fleet.step, Fleet.consume, hcall, Fleet.advance, hstep, Function.update_self]
  refine ⟨trivial, fun htdengine => ?_⟩
  simp [afterRestore, htdengine, Restored.record]

/-- For every run of any number of workers. As long as no consumer stores a new row whose payload is
not the text PostgreSQL returns for it, all statements executed for a message are the same. And for
every new row a consumer stores, whatever happens afterwards: what it writes itself is what the
other paths write if the payload is that text; and if it is what they write, the payload is that
text, or another one of the same length and with the same hash. -/
theorem statements_agree_iff (go : GoRuntime) (pg : Postgres) (d : Deployment)
    (actions : List FleetAction) :
    let s := Execution.run (Fleet.step go pg d) .initial actions
    (Along (Fleet.step go pg d) (Normalized go pg) .initial actions →
      ∀ key statement other, (key, statement) ∈ s.statements → (key, other) ∈ s.statements →
        statement = other) ∧
    ∀ (i : Nat) (msg : Message) (rec first : TelemetryRecord) (db : TelemetryDb)
      (statement : Bytes) (more : List FleetAction),
      (s.members i).consumer.consumer = .restoring msg rec →
      restoreTelemetry go pg rec s.db = .ok (.inserted first db) →
      d.writer.prepare first = .ok statement →
      let after := s.step go pg d (.consume i (.restore .executed))
      let later := Execution.run (Fleet.step go pg d) after more
      ((d.cfg i).tdengine = true → (after.members i).consumer.consumer = .sinking msg first) ∧
      ∃ row, OtherPaths go pg d later.db (telemetryKey rec) row ∧
        (NormalForm go pg rec.payload → d.writer.prepare first = d.writer.prepare row) ∧
        (d.writer.prepare first = d.writer.prepare row →
          NormalForm go pg rec.payload ∨ Collision rec.payload row.payload) := by
  intro s
  have hmarked : s.Marked :=
    run_invariant Fleet.Marked (fun _ action h => (marked_step h action).2) initial_marked actions
  refine ⟨fun halong key statement other hfirst hsecond => ?_, ?_⟩
  · have hagreed : s.Marked ∧ s.Agreed d := run_invariant_along (Normalized go pg)
      (fun state : Fleet => state.Marked ∧ state.Agreed d)
      (fun _ action h hnormalized => ⟨(marked_step h.1 action).2, agreed_step h.2 h.1 hnormalized⟩)
      ⟨initial_marked, initial_agreed⟩ halong
    obtain ⟨row, hrow, hstatement⟩ := hagreed.2.statements key statement hfirst
    obtain ⟨row', hrow', hother⟩ := hagreed.2.statements key other hsecond
    rw [hrow] at hrow'
    cases hrow'
    rw [hstatement] at hother
    exact Except.ok.inj hother
  · intro i msg rec first db statement more hconsumer hinsert hprepare after later
    obtain ⟨hdb, hsinking⟩ := consume_inserted (d := d) hconsumer hinsert
    refine ⟨hsinking, ?_⟩
    obtain ⟨hfirst, _⟩ := restoreTelemetry_inserted hinsert
    obtain ⟨column, hcolumn, _, hfind⟩ := find?_inserted hinsert (telemetryKey rec)
    rw [if_pos rfl, ← hdb] at hfind
    have hmarked' : after.Marked := (marked_step hmarked _).2
    have hrows : RowsMarked after.db later.db :=
      run_related Fleet.Marked (fun before next => RowsMarked before.db next.db)
        (fun _ action h => (marked_step h action).2) (fun state => rowsMarked_refl state.db)
        (fun _ _ _ => rowsMarked_trans)
        (fun _ action h => (marked_step h action).1.rows.rowsMarked) hmarked' more
    obtain ⟨row, hrow, hpayload, hkept⟩ : ∃ row, later.db.records.find? (telemetryKey rec) =
        some row ∧ row.payload = column ∧
          d.writer.prepare row = d.writer.prepare (storedRow rec column) := by
      rcases hrows _ _ hfind with hsame | hset
      · exact ⟨_, hsame, rfl, rfl⟩
      · exact ⟨_, hset, rfl, rfl⟩
    refine ⟨row, otherPaths_of_find? hrow, ?_⟩
    have hplain : d.writer.prepare first = d.writer.prepare rec := by rw [hfirst]; rfl
    rw [hkept, hpayload, hplain]
    rw [hplain] at hprepare
    exact ⟨fun hnormal => prepare_storedRow (insertStatement_storedRow hcolumn hnormal),
      fun h => normalForm_or_collision hcolumn (insertStatement_of_prepare hprepare h)⟩

/-- A PostgreSQL that prints the object of the example as it does. -/
def spacedPostgres : Postgres :=
  { Postgres.plain with
    jsonb := fun raw =>
      .ok (if raw = ascii "\x7b\"abc\":1\x7d" then ascii "\x7b\"abc\": 1\x7d" else raw) }

/-- A telemetry record as it stands in Kafka. -/
def kafkaRecord : Bytes :=
  ascii "\x7b\"msgId\":\"k\",\"tenantId\":\"t\",\"deviceId\":\"d\",\"type\":\"x\",\"version\":\"v\",\"payload\":\x7b\"abc\":1\x7d\x7d"

/-- A worker gets the record. -/
def receivedFromKafka : List FleetAction :=
  [.registerDevice (ascii "t") (ascii "d"), .produce (ascii "iot.telemetry") 0 [] kafkaRecord 1,
    .consume 0 (.fetch 0), .consume 0 .decode]

/-- The worker stores and writes the record and loses the mark, and its compensation loop writes the
row again. -/
def rewrittenRecord : List FleetAction :=
  receivedFromKafka ++ [.consume 0 (.restore .executed), .consume 0 (.sink none),
    .consume 0 (.mark false), .sweep 0 (.scan (121 * second) none), .sweep 0 (.write none)]

/-- The two writes of one message are different statements: the first has nine bytes as the length
of the payload, the second ten. -/
theorem paths_disagree :
    ∃ statement other, statement ≠ other ∧
      (Execution.run (Fleet.step .plain spacedPostgres plainDeployment) .initial
        rewrittenRecord).statements =
      [((ascii "k", ascii "t", ascii "d"), statement),
        ((ascii "k", ascii "t", ascii "d"), other)] := by
  have hlengths : ((Execution.run (Fleet.step .plain spacedPostgres plainDeployment) .initial
      rewrittenRecord).statements.map fun entry => (entry.1, entry.2.length)) =
      [((ascii "k", ascii "t", ascii "d"), 189), ((ascii "k", ascii "t", ascii "d"), 190)] := by
    decide +kernel
  generalize (Execution.run (Fleet.step .plain spacedPostgres plainDeployment) .initial
    rewrittenRecord).statements = statements at hlengths ⊢
  rcases statements with _ | ⟨⟨key, statement⟩, _ | ⟨⟨key', other⟩, _ | ⟨_, _⟩⟩⟩ <;>
    simp at hlengths
  obtain ⟨⟨rfl, hfirst⟩, rfl, hsecond⟩ := hlengths
  refine ⟨statement, other, fun h => ?_, rfl⟩
  rw [h, hsecond] at hfirst
  cases hfirst

/-- The record as the worker reads it. -/
def receivedRecordOf : TelemetryRecord :=
  ⟨ascii "k", ascii "t", ascii "d", 0, ascii "x", ascii "v", ascii "\x7b\"abc\":1\x7d", false, 1⟩

/-- The record that was stored as a new row. -/
def insertedRecord : Except GoError Restored → Option TelemetryRecord
  | .ok (.inserted first _) => some first
  | _ => none

theorem exists_of_insertedRecord {result : Except GoError Restored} {first : TelemetryRecord}
    (h : insertedRecord result = some first) : ∃ db, result = .ok (.inserted first db) := by
  unfold insertedRecord at h
  split at h
  · cases h
    exact ⟨_, rfl⟩
  · cases h

/-- The worker stores the record, which PostgreSQL returns as it is. -/
theorem statements_agree_iff_received :
    ∃ row, OtherPaths .plain .plain plainDeployment
        (Execution.run (Fleet.step .plain .plain plainDeployment)
          ((Execution.run (Fleet.step .plain .plain plainDeployment) .initial
            receivedFromKafka).step .plain .plain plainDeployment
              (.consume 0 (.restore .executed))) []).db
        (telemetryKey receivedRecordOf) row ∧
      plainDeployment.writer.prepare receivedRecordOf = plainDeployment.writer.prepare row := by
  have hconsumer : ((Execution.run (Fleet.step .plain .plain plainDeployment) .initial
      receivedFromKafka).members 0).consumer.consumer =
      .restoring ⟨ascii "iot.telemetry", 0, 0, [], kafkaRecord, 1⟩ receivedRecordOf := by
    decide +kernel
  have hinserted : insertedRecord (restoreTelemetry .plain .plain receivedRecordOf
      (Execution.run (Fleet.step .plain .plain plainDeployment) .initial receivedFromKafka).db) =
      some receivedRecordOf := by decide +kernel
  obtain ⟨db, hinsert⟩ := exists_of_insertedRecord hinserted
  have hprepare : plainDeployment.writer.prepare receivedRecordOf =
      .ok (plainDeployment.writer.insertStatement receivedRecordOf) := by
    unfold TDengineWriter.prepare
    rw [show validateTelemetryFields ⟨receivedRecordOf.msgID, receivedRecordOf.tenantID,
      receivedRecordOf.deviceID, 0, receivedRecordOf.type, receivedRecordOf.version, [], [], [], 0,
      []⟩ = .ok () by decide +kernel]
  have hnormal : NormalForm .plain .plain receivedRecordOf.payload := by
    rintro column ⟨value, hvalue, hcolumn⟩
    have hraw : (rawValue .plain 0 receivedRecordOf.payload).map Json.text =
        .ok receivedRecordOf.payload := by decide +kernel
    rw [hvalue] at hraw
    rw [Except.ok.inj hraw] at hcolumn
    exact Except.ok.inj hcolumn
  obtain ⟨-, row, hpaths, hsame, -⟩ := (statements_agree_iff .plain .plain plainDeployment
    receivedFromKafka).2 0 _ _ _ db _ [] hconsumer hinsert hprepare
  exact ⟨row, hpaths, hsame hnormal⟩

end Iot.Worker
