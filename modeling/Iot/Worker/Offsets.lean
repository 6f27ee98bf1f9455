import Iot.Worker.Consumers

/-!
# Offsets never pass unfinished work

Committing a message commits everything before it in its partition, and each loop of the worker has
about ten exits. Both consumers are readers of a log (`Execution.Reader`) that commit a message
only once it is settled: skipped for its tenant, in the dead-letter topic, or handled to its end
(`TelemetrySettled`, `CommandSettled`). So every message below a committed offset is settled, in
every state of every run (`committed_messages_settled`).
-/

namespace Iot.Worker

open Text Json Contracts Platform Store Data Execution Telemetry
open Dispatch (commandForDelivery commandRetryBackoff)

variable (go : GoRuntime) (pg : Postgres) (cfg : WorkerConfig)

/-- The dead-letter topic holds a copy of a message. -/
def Buried (dlq : List Bytes) (msg : Message) : Prop :=
  ∃ stage cause now, (deadLetterOf msg stage cause now).marshal ∈ dlq

/-- Dead letters stay. -/
theorem buried_mono {dlq after : List Bytes} {msg : Message} (hdlq : dlq ⊆ after)
    (h : Buried dlq msg) : Buried after msg := by
  obtain ⟨stage, cause, now, hmem⟩ := h
  exact ⟨stage, cause, now, hdlq hmem⟩

/-! ## Telemetry -/

/-- A telemetry message is settled: its tenant is outside the allowlist, or the dead-letter topic
holds it, or its row is stored and, where there is a TDengine writer, the message was written to
TDengine or the row is flagged as written. -/
def TelemetrySettled (s : Intake) (msg : Message) : Prop :=
  (∃ rec, TelemetryRecord.unmarshal go msg.value = .ok rec ∧
      tenantAllowed cfg rec.tenantID = false) ∨
    Buried s.world.dlq msg ∨
    ∃ rec row, TelemetryRecord.unmarshal go msg.value = .ok rec ∧
      s.world.db.records.find? (telemetryKey rec) = some row ∧
      (cfg.tdengine = true → msg ∈ s.written ∨ row.tdengineWritten = true)

/-- Rows stay, and so does the flag that says TDengine has them. -/
def RowsKept (before after : TelemetryDb) : Prop :=
  ∀ key row, before.records.find? key = some row →
    ∃ row', after.records.find? key = some row' ∧
      (row.tdengineWritten = true → row'.tdengineWritten = true)

theorem rowsKept_refl (db : TelemetryDb) : RowsKept db db := fun _ row h => ⟨row, h, id⟩

variable {go pg} in
/-- Storing a record keeps the rows. -/
theorem rowsKept_restore {rec : TelemetryRecord} {db : TelemetryDb} {restored : Restored}
    (h : restoreTelemetry go pg rec db = .ok restored) : RowsKept db (restored.db db) := by
  intro key row hrow
  obtain ⟨_, ⟨new, hnew, _, rfl⟩ | ⟨stored, _, rfl⟩⟩ := restoreTelemetry_cases h
  · refine ⟨row, ?_, id⟩
    have hkey : telemetryKey new ≠ key := by
      intro heq
      rw [← heq, hnew] at hrow
      cases hrow
    simp only [Restored.db, Table.find?_insert]
    rw [if_neg hkey]
    exact hrow
  · exact ⟨row, hrow, id⟩

/-- Marking a row keeps the rows. -/
theorem rowsKept_mark (key : TelemetryKey) (db : TelemetryDb) :
    RowsKept db (markTelemetryTDengineWritten key db) := by
  intro other row hrow
  rw [markTelemetryTDengineWritten, Table.find?_update, hrow]
  refine ⟨_, rfl, ?_⟩
  dsimp only
  split
  · exact fun _ => rfl
  · exact id

/-- Nothing a settled message rests on is taken away. -/
structure Intake.Grows (s after : Intake) : Prop where
  dlq : s.world.dlq ⊆ after.world.dlq
  rows : RowsKept s.world.db after.world.db
  written : s.written ⊆ after.written

variable {go pg cfg}

/-- What is settled stays settled. -/
theorem telemetrySettled_mono {s after : Intake} {msg : Message} (hgrows : s.Grows after)
    (h : TelemetrySettled go cfg s msg) : TelemetrySettled go cfg after msg := by
  rcases h with hskip | hburied | ⟨rec, row, hrec, hrow, htdengine⟩
  · exact Or.inl hskip
  · exact Or.inr (Or.inl (buried_mono hgrows.dlq hburied))
  · obtain ⟨row', hrow', hflag⟩ := hgrows.rows _ _ hrow
    refine Or.inr (Or.inr ⟨rec, row', hrec, hrow', fun hon => ?_⟩)
    exact (htdengine hon).imp (fun hmem => hgrows.written hmem) hflag

/-- The message the consumer is at. -/
def consumerMessage : Consumer → Option Message
  | .idle | .stopped => none
  | .fetched msg | .restoring msg _ | .sinking msg _ | .marking msg _ | .deadLettering msg _ _
  | .burying msg _ _ | .committing msg => some msg

/-- The telemetry consumer as a reader of its topic. One that has stopped is about to start
again. -/
def Intake.reader (s : Intake) : Reader Message where
  log := s.world.topic
  committed := s.world.committed
  position := if s.worker.consumer = .stopped then s.world.committed else s.worker.position
  current := (consumerMessage s.worker.consumer).map Message.address

variable (go cfg) in
/-- What the consumer has done for the message it is at. -/
def Intake.Progress (s : Intake) : Prop :=
  match s.worker.consumer with
  | .restoring msg rec => ∃ rec', TelemetryRecord.unmarshal go msg.value = .ok rec' ∧
      telemetryKey rec = telemetryKey rec'
  | .sinking msg _ => ∃ rec row, TelemetryRecord.unmarshal go msg.value = .ok rec ∧
      s.world.db.records.find? (telemetryKey rec) = some row
  | .marking msg _ => TelemetrySettled go cfg s msg
  | .burying msg value _ => ∃ stage cause now, (deadLetterOf msg stage cause now).marshal = value
  | .committing msg => TelemetrySettled go cfg s msg
  | _ => True

variable (go cfg) in
/-- The invariant of the telemetry consumer. -/
structure Intake.Sound (s : Intake) : Prop where
  safe : s.reader.Safe Message.address (TelemetrySettled go cfg s)
  located : ∀ msg, consumerMessage s.worker.consumer = some msg → s.reader.At Message.address msg
  progress : s.Progress go cfg

theorem initial_sound : Intake.initial.Sound go cfg where
  safe := safe_initial
  located := by simp [Intake.initial, consumerMessage]
  progress := trivial

/-- The invariant holds on while others work. -/
theorem sound_of_grows {s after : Intake} (h : s.Sound go cfg) (hgrows : s.Grows after)
    (htopic : after.world.topic = s.world.topic)
    (hcommitted : after.world.committed = s.world.committed) (hworker : after.worker = s.worker) :
    after.Sound go cfg := by
  have hreader : after.reader = s.reader := by
    simp only [Intake.reader, htopic, hcommitted, hworker]
  refine ⟨?_, ?_, ?_⟩
  · rw [hreader]
    exact h.safe.mono fun _ => telemetrySettled_mono hgrows
  · rw [hreader, hworker]
    exact h.located
  · have hprogress := h.progress
    unfold Intake.Progress at hprogress ⊢
    rw [hworker]
    split at hprogress
    · exact hprogress
    · obtain ⟨rec, row, hrec, hrow⟩ := hprogress
      obtain ⟨row', hrow', _⟩ := hgrows.rows _ _ hrow
      exact ⟨rec, row', hrec, hrow'⟩
    · exact telemetrySettled_mono hgrows hprogress
    · exact hprogress
    · exact telemetrySettled_mono hgrows hprogress
    · trivial

/-- The consumer goes on with the message it is at. -/
theorem sound_goto {s after : Intake} {msg : Message} (h : s.Sound go cfg) (hgrows : s.Grows after)
    (htopic : after.world.topic = s.world.topic)
    (hcommitted : after.world.committed = s.world.committed)
    (hposition : after.worker.position = s.worker.position)
    (hbefore : consumerMessage s.worker.consumer = some msg)
    (hafter : consumerMessage after.worker.consumer = some msg)
    (hprogress : after.Progress go cfg) : after.Sound go cfg := by
  have hrunning : ∀ {consumer : Consumer}, consumerMessage consumer = some msg →
      consumer ≠ .stopped := by
    rintro consumer hconsumer rfl
    cases hconsumer
  have hreader : after.reader = s.reader := by
    simp only [Intake.reader, htopic, hcommitted, hposition, hbefore, hafter,
      if_neg (hrunning hbefore), if_neg (hrunning hafter)]
  refine ⟨?_, ?_, hprogress⟩
  · rw [hreader]
    exact h.safe.mono fun _ => telemetrySettled_mono hgrows
  · rw [hreader, hafter, ← hbefore]
    exact h.located

/-- A consumer may stop, and start again, at any time. -/
theorem sound_restart {s after : Intake} (h : s.Sound go cfg) (hgrows : s.Grows after)
    (hreader : after.reader = s.reader.restart)
    (hconsumer : after.worker.consumer = .idle ∨ after.worker.consumer = .stopped) :
    after.Sound go cfg := by
  refine ⟨?_, ?_, ?_⟩
  · rw [hreader]
    exact (safe_restart h.safe).mono fun _ => telemetrySettled_mono hgrows
  · rcases hconsumer with hconsumer | hconsumer <;> simp [hconsumer, consumerMessage]
  · rcases hconsumer with hconsumer | hconsumer <;> simp [Intake.Progress, hconsumer]

variable (go pg cfg) in
/-- A step of the consumer is one of the pipeline's, or it skips a record of another tenant. -/
theorem consumeTelemetry_cases (world : World) (worker : Telemetry.Worker) (move : ConsumerMove) :
    (∃ msg rec, worker.consumer = .fetched msg ∧
        TelemetryRecord.unmarshal go msg.value = .ok rec ∧
        tenantAllowed cfg rec.tenantID = false ∧
        consumeTelemetry go pg cfg world worker move =
          (world, { worker with consumer := .committing msg })) ∨
      worker.Moves go pg cfg.toConfig move world (consumeTelemetry go pg cfg world worker move).1
        (consumeTelemetry go pg cfg world worker move).2 := by
  unfold consumeTelemetry
  split
  · rename_i msg hconsumer
    split
    · exact Or.inr (worker_step world worker _)
    · rename_i rec hrec
      split
      · exact Or.inr (worker_step world worker _)
      · rename_i hallowed
        exact Or.inl ⟨msg, rec, hconsumer, hrec, Bool.eq_false_iff.mpr hallowed, rfl⟩
  · exact Or.inr (worker_step world worker _)

/-- The messages written to TDengine stay written. -/
theorem subset_writtenAfter (written : List Message) (consumer : Consumer) (move : ConsumerMove) :
    written ⊆ writtenAfter written consumer move := by
  unfold writtenAfter
  split
  · exact List.subset_append_left _ _
  · exact List.Subset.refl _

/-- Once its row is stored a message is settled, or it is about to be written to TDengine. -/
theorem progress_afterRestore {world : World} {worker : Telemetry.Worker} {written : List Message}
    {msg : Message} {rec rec' : TelemetryRecord} {restored : Restored}
    (hrestore : restoreTelemetry go pg rec world.db = .ok restored)
    (hrec : TelemetryRecord.unmarshal go msg.value = .ok rec')
    (hkey : telemetryKey rec = telemetryKey rec') :
    Intake.Progress go cfg
      ⟨{ world with db := restored.db world.db },
        { worker with consumer := afterRestore cfg.toConfig msg restored }, written⟩ := by
  obtain ⟨row, hrow⟩ := Option.isSome_iff_exists.mp (restoreTelemetry_key hrestore).2
  rw [hkey] at hrow
  have hwrite : ∀ rec'', Intake.Progress go cfg
      ⟨{ world with db := restored.db world.db },
        { worker with consumer := if cfg.tdengine then .sinking msg rec'' else .committing msg },
        written⟩ := by
    intro rec''
    by_cases hon : cfg.tdengine = true
    · simp only [Intake.Progress, hon, if_true]
      exact ⟨rec', row, hrec, hrow⟩
    · simp only [Intake.Progress, hon]
      exact Or.inr (Or.inr ⟨rec', row, hrec, hrow, fun hon' => absurd hon' hon⟩)
  obtain ⟨_, ⟨new, hnew, _, rfl⟩ | ⟨stored, hstored, rfl⟩⟩ := restoreTelemetry_cases hrestore
  · exact hwrite _
  · by_cases hflag : stored.tdengineWritten = true
    · -- a duplicate that TDengine already has needs no write
      simp only [Intake.Progress, afterRestore, hflag, if_true]
      rw [hkey] at hstored
      exact Or.inr (Or.inr ⟨rec', stored, hrec, hstored, fun _ => Or.inr hflag⟩)
    · have hnext : afterRestore cfg.toConfig msg (.duplicate stored) =
          if cfg.tdengine then .sinking msg stored else .committing msg := by
        simp [afterRestore, hflag, Restored.record]
      rw [hnext]
      exact hwrite stored

/-- A step of the pipeline's consumer keeps the invariant. -/
theorem moves_sound {s : Intake} {move : ConsumerMove} {world : World}
    {worker : Telemetry.Worker} {written : List Message} (h : s.Sound go cfg)
    (hmoves : s.worker.Moves go pg cfg.toConfig move s.world world worker)
    (hwritten : s.written ⊆ written)
    (hsink : ∀ msg rec, s.worker.consumer = .sinking msg rec → move = .sink none →
      msg ∈ written) :
    Intake.Sound go cfg ⟨world, worker, written⟩ := by
  obtain ⟨before, ⟨consumer, position⟩, written₀⟩ := s
  have hprogress := h.progress
  have hsame : Intake.Grows ⟨before, ⟨consumer, position⟩, written₀⟩ ⟨before, worker, written⟩ :=
    ⟨List.Subset.refl _, rowsKept_refl _, hwritten⟩
  unfold Intake.Progress at hprogress
  cases hmoves with
  | stay => exact sound_of_grows h hsame rfl rfl rfl
  | @fetch partition msg hconsumer hmsg =>
      cases hconsumer
      obtain ⟨hsafe, hat⟩ := safe_fetch h.safe rfl hmsg
      have hreader : Intake.reader ⟨before, ⟨.fetched msg,
          Function.update position partition (position partition + 1)⟩, written⟩ =
          (Intake.reader ⟨before, ⟨.idle, position⟩, written₀⟩).fetch partition := by
        simp [Intake.reader, Reader.fetch, consumerMessage,
          h.safe.addressed partition (position partition) msg hmsg]
      refine ⟨?_, fun other hother => ?_, trivial⟩
      · rw [hreader]
        exact hsafe.mono fun _ => telemetrySettled_mono hsame
      · cases hother
        rw [hreader]
        exact hat
  | @decode msg rec hconsumer hrec =>
      cases hconsumer
      refine sound_goto h hsame rfl rfl rfl rfl rfl ⟨rec, hrec, ?_⟩
      unfold receivedRecord
      split <;> rfl
  | decodeFailed hconsumer =>
      cases hconsumer
      exact sound_goto h hsame rfl rfl rfl rfl rfl trivial
  | @restore msg rec restored hconsumer hrestore =>
      cases hconsumer
      obtain ⟨rec', hrec', hkey⟩ := hprogress
      have hmessage : consumerMessage (afterRestore cfg.toConfig msg restored) = some msg := by
        rcases afterRestore_cases cfg.toConfig msg restored with hnext | hnext <;>
          rw [hnext] <;> rfl
      exact sound_goto h ⟨List.Subset.refl _, rowsKept_restore hrestore, hwritten⟩ rfl rfl rfl rfl
        hmessage (progress_afterRestore hrestore hrec' hkey)
  | restoreFailed hconsumer hdb =>
      cases hconsumer
      refine sound_goto h ⟨List.Subset.refl _, ?_, hwritten⟩ rfl rfl rfl rfl rfl trivial
      rcases hdb with rfl | ⟨restored, hrestore, rfl⟩
      · exact rowsKept_refl _
      · exact rowsKept_restore hrestore
  | @sink msg rec hconsumer hmove =>
      have hmem := hsink msg rec hconsumer hmove
      cases hconsumer
      obtain ⟨rec', row, hrec', hrow⟩ := hprogress
      exact sound_goto h hsame rfl rfl rfl rfl rfl
        (Or.inr (Or.inr ⟨rec', row, hrec', hrow, fun _ => Or.inl hmem⟩))
  | sinkFailed hconsumer =>
      cases hconsumer
      exact sound_goto h hsame rfl rfl rfl rfl rfl trivial
  | @mark msg rec _ hconsumer hafter =>
      cases hconsumer
      rcases hafter with rfl | rfl
      · exact sound_goto h hsame rfl rfl rfl rfl rfl (telemetrySettled_mono hsame hprogress)
      · have hgrows : Intake.Grows ⟨before, ⟨.marking msg rec, position⟩, written₀⟩
            ⟨{ before with db := markTelemetryTDengineWritten (telemetryKey rec) before.db },
              ⟨.committing msg, position⟩, written⟩ :=
          ⟨List.Subset.refl _, rowsKept_mark _ _, hwritten⟩
        exact sound_goto h hgrows rfl rfl rfl rfl rfl (telemetrySettled_mono hgrows hprogress)
  | encode hconsumer =>
      cases hconsumer
      exact sound_goto h hsame rfl rfl rfl rfl rfl ⟨_, _, _, rfl⟩
  | @bury msg value attempt hconsumer =>
      cases hconsumer
      obtain ⟨stage, cause, now, rfl⟩ := hprogress
      refine sound_goto h ⟨List.subset_append_left _ _, rowsKept_refl _, hwritten⟩ rfl rfl rfl rfl
        rfl (Or.inr (Or.inl ⟨stage, cause, now, ?_⟩))
      exact List.mem_append_right _ (List.mem_singleton_self _)
  | buryFailed hconsumer hafter hnext =>
      cases hconsumer
      have hkept : world.topic = before.topic ∧ world.committed = before.committed ∧
          before.dlq ⊆ world.dlq ∧ RowsKept before.db world.db := by
        rcases hafter with rfl | rfl
        · exact ⟨rfl, rfl, List.Subset.refl _, rowsKept_refl _⟩
        · exact ⟨rfl, rfl, List.subset_append_left _ _, rowsKept_refl _⟩
      obtain ⟨htopic, hcommitted, hdlq, hrows⟩ := hkept
      rcases hnext with rfl | ⟨next, rfl⟩
      · refine sound_restart h ⟨hdlq, hrows, hwritten⟩ ?_ (Or.inr rfl)
        simp [Intake.reader, Reader.restart, htopic, hcommitted, consumerMessage]
      · exact sound_goto h ⟨hdlq, hrows, hwritten⟩ htopic hcommitted rfl rfl rfl hprogress
  | @commit msg next hconsumer hnext =>
      cases hconsumer
      have hsafe := safe_commit h.safe (h.located msg rfl) hprogress
      have hgrows : Intake.Grows ⟨before, ⟨.committing msg, position⟩, written₀⟩
          ⟨before.commit msg, ⟨next, position⟩, written⟩ :=
        ⟨List.Subset.refl _, rowsKept_refl _, hwritten⟩
      rcases hnext with rfl | rfl
      · exact ⟨hsafe.mono fun _ => telemetrySettled_mono hgrows, by simp [consumerMessage], trivial⟩
      · exact ⟨(safe_restart hsafe).mono fun _ => telemetrySettled_mono hgrows,
          by simp [consumerMessage], trivial⟩
  | stop =>
      refine sound_restart h hsame ?_ (Or.inr rfl)
      simp [Intake.reader, Reader.restart, consumerMessage]
  | restart =>
      refine sound_restart h hsame ?_ (Or.inl rfl)
      simp [Intake.reader, Reader.restart, consumerMessage]

variable (pg) in
/-- Every step keeps the invariant of the telemetry consumer. -/
theorem intake_step_sound {s : Intake} (h : s.Sound go cfg) (action : IntakeAction) :
    (s.step go pg cfg action).Sound go cfg := by
  cases action with
  | consume move =>
      have hwritten := subset_writtenAfter s.written s.worker.consumer move
      rcases consumeTelemetry_cases go pg cfg s.world s.worker move with
        ⟨msg, rec, hconsumer, hrec, hallowed, hstep⟩ | hmoves
      · simp only [Intake.step, hstep]
        refine sound_goto h ⟨List.Subset.refl _, rowsKept_refl _, hwritten⟩ rfl rfl rfl ?_ rfl
          (Or.inl ⟨rec, hrec, hallowed⟩)
        rw [hconsumer]
        rfl
      · refine moves_sound h hmoves hwritten ?_
        rintro msg rec hconsumer rfl
        simp [writtenAfter, hconsumer]
  | produce partition key value time =>
      have hgrows : s.Grows (s.step go pg cfg (.produce partition key value time)) :=
        ⟨List.Subset.refl _, rowsKept_refl _, List.Subset.refl _⟩
      refine ⟨?_, fun msg hmsg => at_append (h.located msg hmsg), ?_⟩
      · exact (safe_append h.safe rfl).mono fun _ => telemetrySettled_mono hgrows
      · exact h.progress
  | store rec call =>
      refine sound_of_grows h ⟨List.Subset.refl _, ?_, List.Subset.refl _⟩ rfl rfl rfl
      rcases call_cases go pg call rec s.world.db with
        ⟨restored, hrestore, _, hafter⟩ | ⟨err, _, hafter | ⟨restored, hrestore, hafter⟩⟩
      · simp only [Intake.step, hafter]
        exact rowsKept_restore hrestore
      · simp only [Intake.step, hafter]
        exact rowsKept_refl _
      · simp only [Intake.step, hafter]
        exact rowsKept_restore hrestore
  | mark key =>
      exact sound_of_grows h ⟨List.Subset.refl _, rowsKept_mark _ _, List.Subset.refl _⟩ rfl rfl rfl
  | bury value =>
      exact sound_of_grows h
        ⟨List.subset_append_left _ _, rowsKept_refl _, List.Subset.refl _⟩ rfl rfl rfl
  | registerDevice tenantID deviceID =>
      exact sound_of_grows h
        ⟨List.Subset.refl _, fun _ row hrow => ⟨row, hrow, id⟩, List.Subset.refl _⟩ rfl rfl rfl

/-! ## Commands -/

/-- The lookup found nothing to deliver: no command, one of another tenant or device, or one that
has been sent or has ended. -/
def Undeliverable (event : Command) (row : Option CommandRow) : Prop :=
  ∀ found ∈ row, found.tenantID ≠ event.tenantID ∨ found.deviceID ≠ event.deviceID ∨
    found.status = .sent ∨ found.status.terminal = true

variable (go cfg) in
/-- A command message is settled: its tenant is outside the allowlist, or the dead-letter topic
holds it, or the lookup found nothing to deliver, or MQTT confirmed the publish and PostgreSQL
then confirmed the mark. -/
def CommandSettled (s : CommandWorker) (msg : Message) : Prop :=
  (∃ event, Command.unmarshal go msg.value = .ok event ∧
      tenantAllowed cfg event.tenantID = false) ∨
    Buried s.dlq msg ∨
    (∃ event row, Command.unmarshal go msg.value = .ok event ∧
      .lookedUp msg row ∈ s.history ∧ Undeliverable event row) ∨
    ∃ topic payload,
      List.Sublist [.published msg topic payload, .markedSent msg] s.history

/-- Nothing a settled message rests on is taken away. -/
structure CommandWorker.Grows (s after : CommandWorker) : Prop where
  dlq : s.dlq ⊆ after.dlq
  history : s.history.Sublist after.history

theorem CommandWorker.Grows.refl (s : CommandWorker) : s.Grows s :=
  ⟨List.Subset.refl _, List.Sublist.refl _⟩

/-- What is settled stays settled. -/
theorem commandSettled_mono {s after : CommandWorker} {msg : Message} (hgrows : s.Grows after)
    (h : CommandSettled go cfg s msg) : CommandSettled go cfg after msg := by
  rcases h with hskip | hburied | ⟨event, row, hevent, hmem, hrow⟩ | ⟨topic, payload, hsent⟩
  · exact Or.inl hskip
  · exact Or.inr (Or.inl (buried_mono hgrows.dlq hburied))
  · exact Or.inr (Or.inr (Or.inl ⟨event, row, hevent, hgrows.history.subset hmem, hrow⟩))
  · exact Or.inr (Or.inr (Or.inr ⟨topic, payload, hsent.trans hgrows.history⟩))

/-- The message the consumer is at. -/
def stageMessage : CommandStage → Option Message
  | .idle | .stopped => none
  | .fetched msg | .lookingUp msg _ | .publishing msg _ _ _ | .requeueing msg _ _ | .marking msg _
  | .deadLettering msg _ _ | .burying msg _ _ | .committing msg => some msg

variable (go cfg) in
/-- What the consumer has done for the message it is at. -/
def CommandWorker.Progress (s : CommandWorker) : Prop :=
  match s.stage with
  | .idle => s.reader.current = none
  | .lookingUp msg event => Command.unmarshal go msg.value = .ok event
  | .marking msg _ => ∃ topic payload, .published msg topic payload ∈ s.history
  | .burying msg value _ => ∃ stage cause now, (deadLetterOf msg stage cause now).marshal = value
  | .committing msg => CommandSettled go cfg s msg
  | _ => True

variable (go cfg) in
/-- The invariant of the command consumer. -/
structure CommandWorker.Sound (s : CommandWorker) : Prop where
  safe : s.reader.Safe Message.address (CommandSettled go cfg s)
  located : ∀ msg, stageMessage s.stage = some msg → s.reader.At Message.address msg
  progress : s.Progress go cfg

theorem initial_commands_sound : CommandWorker.initial.Sound go cfg where
  safe := safe_initial
  located := by simp [CommandWorker.initial, stageMessage]
  progress := rfl

/-- The invariant holds on while others work. -/
theorem commands_of_grows {s after : CommandWorker} (h : s.Sound go cfg) (hgrows : s.Grows after)
    (hreader : after.reader = s.reader) (hstage : after.stage = s.stage) :
    after.Sound go cfg := by
  refine ⟨?_, ?_, ?_⟩
  · rw [hreader]
    exact h.safe.mono fun _ => commandSettled_mono hgrows
  · rw [hreader, hstage]
    exact h.located
  · have hprogress := h.progress
    unfold CommandWorker.Progress at hprogress ⊢
    rw [hstage]
    split at hprogress
    · rw [hreader]
      exact hprogress
    · exact hprogress
    · obtain ⟨topic, payload, hmem⟩ := hprogress
      exact ⟨topic, payload, hgrows.history.subset hmem⟩
    · exact hprogress
    · exact commandSettled_mono hgrows hprogress
    · trivial

/-- The consumer goes on with the message it is at, or stops. -/
theorem commands_goto {s after : CommandWorker} (h : s.Sound go cfg) (hgrows : s.Grows after)
    (hreader : after.reader = s.reader)
    (hmessage : stageMessage after.stage = stageMessage s.stage ∨ after.stage = .stopped)
    (hprogress : after.Progress go cfg) : after.Sound go cfg := by
  refine ⟨?_, ?_, hprogress⟩
  · rw [hreader]
    exact h.safe.mono fun _ => commandSettled_mono hgrows
  · rw [hreader]
    rcases hmessage with hmessage | hstopped
    · rw [hmessage]
      exact h.located
    · simp [hstopped, stageMessage]

/-- A command that the lookup does not hand on is not to be delivered. -/
theorem undeliverable_of_none {db : Db} {event : Command}
    (h : commandForDelivery db event = .ok none) :
    Undeliverable event (db.commands.find? event.id) := by
  intro row hrow
  simp only [Option.mem_def] at hrow
  simp only [commandForDelivery, getCommandContext, hrow, CommandRow.command] at h
  by_cases htenant : row.tenantID = event.tenantID
  · by_cases hdevice : row.deviceID = event.deviceID
    · cases hstatus : row.status <;>
        simp [htenant, hdevice, hstatus, CommandStatus.terminal] at h ⊢
    · exact Or.inr (Or.inl hdevice)
  · exact Or.inl htenant

variable (go cfg) in
/-- The checks of a message send it on to the lookup, to the dead letters, or past a worker that is
not for its tenant. -/
theorem progress_check (s : CommandWorker) (msg : Message) :
    stageMessage (checkCommandMessage go cfg msg) = some msg ∧
      CommandWorker.Progress go cfg { s with stage := checkCommandMessage go cfg msg } := by
  unfold checkCommandMessage
  split
  · exact ⟨rfl, trivial⟩
  · rename_i event hevent
    split
    · exact ⟨rfl, trivial⟩
    · by_cases hallowed : tenantAllowed cfg event.tenantID = true
      · rw [if_pos hallowed]
        exact ⟨rfl, hevent⟩
      · rw [if_neg hallowed]
        exact ⟨rfl, Or.inl ⟨event, hevent, Bool.eq_false_iff.mpr hallowed⟩⟩

/-- After the lookup the consumer stops, goes on to deliver the command or has found nothing to
deliver. -/
theorem progress_lookUp (s : CommandWorker) {msg : Message} {event : Command}
    (hmqtt : cfg.mqtt = true) (hevent : Command.unmarshal go msg.value = .ok event)
    (hlooked : .lookedUp msg (s.db.commands.find? event.id) ∈ s.history) :
    let stage := afterLookUp go cfg msg (commandForDelivery s.db event)
    (stageMessage stage = some msg ∨ stage = .stopped) ∧
      CommandWorker.Progress go cfg { s with stage := stage } := by
  unfold afterLookUp
  cases hfound : commandForDelivery s.db event with
  | error err => exact ⟨Or.inr rfl, trivial⟩
  | ok found =>
      cases found with
      | none =>
          refine ⟨Or.inl rfl, Or.inr (Or.inr (Or.inl ⟨event, _, hevent, hlooked, ?_⟩))⟩
          exact undeliverable_of_none hfound
      | some cmd =>
          simp only [hmqtt, if_true]
          split
          · exact ⟨Or.inl rfl, trivial⟩
          · split
            · exact ⟨Or.inl rfl, trivial⟩
            · exact ⟨Or.inl rfl, trivial⟩

/-- A step of the command consumer keeps the invariant. -/
theorem consume_sound {s : CommandWorker} (h : s.Sound go cfg) (hmqtt : cfg.mqtt = true)
    (move : CommandMove) : (s.consume go cfg move).Sound go cfg := by
  obtain ⟨db, reader, stage, dlq, history⟩ := s
  have hprogress := h.progress
  have hrefl := CommandWorker.Grows.refl ⟨db, reader, stage, dlq, history⟩
  unfold CommandWorker.Progress at hprogress
  unfold CommandWorker.consume
  dsimp only
  split
  · -- fetch
    rename_i partition
    split
    · exact h
    · rename_i msg hmsg
      obtain ⟨hsafe, hat⟩ := safe_fetch h.safe hprogress hmsg
      refine ⟨hsafe.mono fun _ => commandSettled_mono ⟨hrefl.dlq, hrefl.history⟩, ?_, trivial⟩
      intro other hother
      cases hother
      exact hat
  · -- decode
    rename_i msg
    obtain ⟨hmessage, hnext⟩ :=
      progress_check go cfg ⟨db, reader, .fetched msg, dlq, history⟩ msg
    exact commands_goto h ⟨hrefl.dlq, hrefl.history⟩ rfl (Or.inl hmessage) hnext
  · -- the lookup is executed
    rename_i msg event
    have hgrows : history.Sublist (history ++ [.lookedUp msg (db.commands.find? event.id)]) :=
      List.sublist_append_left _ _
    have hmem : .lookedUp msg (db.commands.find? event.id) ∈
        history ++ [.lookedUp msg (db.commands.find? event.id)] := by simp
    obtain ⟨hmessage, hnext⟩ := progress_lookUp ⟨db, reader, .lookingUp msg event, dlq, _⟩ hmqtt
      hprogress hmem
    exact commands_goto h ⟨hrefl.dlq, hgrows⟩ rfl hmessage hnext
  · -- the lookup fails
    exact commands_goto h ⟨hrefl.dlq, hrefl.history⟩ rfl (Or.inr rfl) trivial
  · -- MQTT confirms the publish
    rename_i msg cmd topic payload
    refine commands_goto h ⟨hrefl.dlq, List.sublist_append_left _ _⟩ rfl (Or.inl rfl) ?_
    exact ⟨topic, payload, by simp⟩
  · -- the publish fails
    exact commands_goto h ⟨hrefl.dlq, hrefl.history⟩ rfl (Or.inl rfl) trivial
  · -- the requeue
    exact commands_goto h ⟨hrefl.dlq, hrefl.history⟩ rfl (Or.inl rfl) trivial
  · -- the mark
    rename_i msg cmd now clock ok applied
    cases ok with
    | false => exact commands_goto h ⟨hrefl.dlq, hrefl.history⟩ rfl (Or.inr rfl) trivial
    | true =>
        obtain ⟨topic, payload, hmem⟩ := hprogress
        refine commands_goto h ⟨hrefl.dlq, List.sublist_append_left _ _⟩ rfl (Or.inl rfl) ?_
        refine Or.inr (Or.inr (Or.inr ⟨topic, payload, ?_⟩))
        exact (List.singleton_sublist.mpr hmem).append (List.Sublist.refl [Incident.markedSent msg])
  · -- the dead letter is encoded
    exact commands_goto h ⟨hrefl.dlq, hrefl.history⟩ rfl (Or.inl rfl) ⟨_, _, _, rfl⟩
  · -- the dead letter is written
    rename_i msg value attempt write
    have hdlq : dlq ⊆ if write.applied then dlq ++ [value] else dlq := by
      split
      · exact List.subset_append_left _ _
      · exact List.Subset.refl _
    obtain ⟨stage, cause, now, rfl⟩ := hprogress
    rcases afterWrite_cases attempt write (.committing msg : CommandStage) (fun _ => .stopped)
      (.burying msg (deadLetterOf msg stage cause now).marshal (attempt + 1)) with
      ⟨rfl, hnext⟩ | ⟨err, hnext⟩ | hnext
    · rw [hnext]
      refine commands_goto h ⟨hdlq, hrefl.history⟩ rfl (Or.inl rfl) ?_
      exact Or.inr (Or.inl ⟨stage, cause, now, by simp [Write.applied]⟩)
    · rw [hnext]
      exact commands_goto h ⟨hdlq, hrefl.history⟩ rfl (Or.inr rfl) trivial
    · rw [hnext]
      exact commands_goto h ⟨hdlq, hrefl.history⟩ rfl (Or.inl rfl) ⟨stage, cause, now, rfl⟩
  · -- the commit
    rename_i msg ok applied
    have hsafe := safe_commit h.safe (h.located msg rfl) hprogress
    rcases ok with _ | _
    · rcases applied with _ | _
      · exact commands_goto h ⟨hrefl.dlq, hrefl.history⟩ rfl (Or.inr rfl) trivial
      · exact ⟨hsafe.mono fun _ => commandSettled_mono ⟨hrefl.dlq, hrefl.history⟩,
          by simp [stageMessage], trivial⟩
    · exact ⟨hsafe.mono fun _ => commandSettled_mono ⟨hrefl.dlq, hrefl.history⟩,
        by simp [stageMessage], rfl⟩
  · -- the consumer ends
    exact commands_goto h ⟨hrefl.dlq, hrefl.history⟩ rfl (Or.inr rfl) trivial
  · -- it starts again
    exact ⟨(safe_restart h.safe).mono fun _ => commandSettled_mono ⟨hrefl.dlq, hrefl.history⟩,
      by simp [stageMessage], rfl⟩
  · exact h

variable (pg) in
/-- Every step keeps the invariant of the command consumer. -/
theorem command_step_sound {s : CommandWorker} (h : s.Sound go cfg) (hmqtt : cfg.mqtt = true)
    (action : CommandAction) : (s.step go pg cfg action).Sound go cfg := by
  have hrefl := CommandWorker.Grows.refl s
  cases action with
  | consume move => exact consume_sound h hmqtt move
  | produce partition key value time =>
      refine ⟨?_, fun msg hmsg => at_append (h.located msg hmsg), h.progress⟩
      exact (safe_append h.safe rfl).mono fun _ =>
        commandSettled_mono ⟨hrefl.dlq, hrefl.history⟩
  | store op => exact commands_of_grows h ⟨hrefl.dlq, hrefl.history⟩ rfl rfl
  | bury value => exact commands_of_grows h ⟨List.subset_append_left _ _, hrefl.history⟩ rfl rfl

/-! ## Both consumers -/

/-- Whatever the topics hold, whichever calls fail and wherever the worker is stopped and started
again: every telemetry message below a committed offset is settled, and so is every command
message when the worker has an MQTT client. -/
theorem committed_messages_settled (go : GoRuntime) (pg : Postgres) (cfg : WorkerConfig)
    (telemetry : List IntakeAction) (commands : List CommandAction) :
    (let s := run (Intake.step go pg cfg) .initial telemetry
      ∀ (partition offset : Nat) (msg : Message), (s.world.topic partition)[offset]? = some msg →
        offset < s.world.committed partition → TelemetrySettled go cfg s msg) ∧
    (cfg.mqtt = true →
      let s := run (CommandWorker.step go pg cfg) .initial commands
      ∀ (partition offset : Nat) (msg : Message), (s.reader.log partition)[offset]? = some msg →
        offset < s.reader.committed partition → CommandSettled go cfg s msg) := by
  refine ⟨?_, fun hmqtt => ?_⟩
  · have hsound := run_invariant (Intake.Sound go cfg)
      (fun _ action h => intake_step_sound pg h action) initial_sound telemetry
    exact fun partition offset msg hmsg hlt => hsound.safe.settled partition offset msg hlt hmsg
  · have hsound := run_invariant (CommandWorker.Sound go cfg)
      (fun _ action h => command_step_sound pg h hmqtt action) initial_commands_sound
      commands
    exact fun partition offset msg hmsg hlt => hsound.safe.settled partition offset msg hlt hmsg

/-- A worker for one tenant with an MQTT client and a TDengine writer. -/
def plainWorker : WorkerConfig where
  inbox := false
  deadLetters := true
  tdengine := true
  telemetryTopic := ascii "iot.telemetry"
  tenantIDs := [ascii "t"]
  commandTopic := ascii "iot.command"
  mqtt := true
  ackTimeout := 300 * second

/-- A record that is no JSON is written to the dead letters in the second attempt, and its offset
is committed after a crash. -/
def buriedTelemetry : List IntakeAction :=
  [.produce 0 [] (ascii "?") 0, .consume (.fetch 0), .consume .decode, .consume .crash,
    .consume .restart, .consume (.fetch 0), .consume .decode, .consume (.encode 0),
    .consume (.bury (.failed (.new "timeout") true false)), .consume (.bury .acknowledged),
    .consume (.commit true true)]

/-- A command is created, and its event is looked up, published, marked and committed. -/
def deliveredCommand : List CommandAction :=
  [.store (.registerDevice (ascii "t") (ascii "d")),
    .store (.createCommandWithKey (ascii "t") (ascii "d") [] (ascii "\x7b\x7d") (.ok (ascii "c"))
      0),
    .produce 0 [] (ascii "\x7b\"id\":\"c\",\"tenantId\":\"t\",\"deviceId\":\"d\"\x7d") 0,
    .consume (.fetch 0), .consume .decode, .consume (.lookUp none), .consume (.publish none),
    .consume (.mark 1 1 true true), .consume (.commit true true)]

theorem committed_messages_settled_plain :
    (let s := run (Intake.step .plain .plain plainWorker) .initial buriedTelemetry
      ∃ msg, (s.world.topic 0)[(0 : Nat)]? = some msg ∧ 0 < s.world.committed 0 ∧
        TelemetrySettled .plain plainWorker s msg) ∧
    (let s := run (CommandWorker.step .plain .plain plainWorker) .initial deliveredCommand
      ∃ msg, (s.reader.log 0)[(0 : Nat)]? = some msg ∧ 0 < s.reader.committed 0 ∧
        CommandSettled .plain plainWorker s msg) := by
  obtain ⟨htelemetry, hcommands⟩ :=
    committed_messages_settled .plain .plain plainWorker buriedTelemetry deliveredCommand
  have hfirst : ((run (Intake.step .plain .plain plainWorker) .initial buriedTelemetry).world.topic
      0)[(0 : Nat)]? = some ⟨ascii "iot.telemetry", 0, 0, [], ascii "?", 0⟩ := by decide +kernel
  have hsecond : ((run (CommandWorker.step .plain .plain plainWorker) .initial
      deliveredCommand).reader.log 0)[(0 : Nat)]? = some ⟨ascii "iot.command", 0, 0, [],
        ascii "\x7b\"id\":\"c\",\"tenantId\":\"t\",\"deviceId\":\"d\"\x7d", 0⟩ := by
    decide +kernel
  have hburied : 0 < (run (Intake.step .plain .plain plainWorker) .initial
      buriedTelemetry).world.committed 0 := by decide +kernel
  have hdelivered : 0 < (run (CommandWorker.step .plain .plain plainWorker) .initial
      deliveredCommand).reader.committed 0 := by decide +kernel
  exact ⟨⟨_, hfirst, hburied, htelemetry 0 0 _ hfirst hburied⟩,
    ⟨_, hsecond, hdelivered, hcommands rfl 0 0 _ hsecond hdelivered⟩⟩

end Iot.Worker
