import Iot.Telemetry.Pipeline

/-!
# What a step of the pipeline can do

`Delivery.Moves` lists what a step in the handling of a delivery can do and `Worker.Moves` what a
step of the consumer can do; `delivery_step` and `worker_step` say that they do nothing else. The
invariants of the pipeline are proved by cases on them.

No step takes anything away (`World.Grows`): rows stay, and the topics only get longer.
-/

namespace Iot.Telemetry

open Text Json Contracts Platform Store Data Execution Replay

variable (go : GoRuntime) (pg : Postgres) (cfg : Config)

/-- A transaction that stores a record was applied, or not. -/
def MayStore (rec : TelemetryRecord) (before after : TelemetryDb) : Prop :=
  after = before ∨
    ∃ restored, restoreTelemetry go pg rec before = .ok restored ∧ after = restored.db before

/-- A record was appended to the telemetry topic, or not. -/
def MayAppend (key value : Bytes) (before after : World) : Prop :=
  after = before ∨ ∃ partition time, after = before.append cfg partition key value time

/-- A value was appended to the dead-letter topic, or not. -/
def MayBury (value : Bytes) (before after : World) : Prop :=
  after = before ∨ after = before.bury value

/-- What a step in the handling of a delivery can do. -/
inductive Delivery.Moves (move : HandlerMove) (world : World) (delivery : Delivery) :
    World → Delivery → Prop where
  | stay : Moves move world delivery world delivery
  | refuse (h : delivery.handler = .arrived) :
      Moves move world delivery world (delivery.goto .refused)
  | enter (h : delivery.handler = .arrived) :
      Moves move world delivery world (delivery.goto .admitted)
  | start (h : delivery.handler = .admitted) :
      Moves move world delivery world (delivery.goto .started)
  | overflow (h : delivery.handler = .admitted) (hmove : move = .slot false) :
      Moves move world delivery world
        (delivery.goto (.deadLettering .mqttKafka errPublishBacklogFull false))
  | reject {stage : Stage} {cause : GoError} (h : delivery.handler = .started)
      (hstage : stage = .mqttDecode ∨ stage = .mqttIdentity) :
      Moves move world delivery world (delivery.goto (.deadLettering stage cause false))
  | accept {env : Envelope} {now receivedAt : Time} {handler : Handler}
      (h : delivery.handler = .started) (henv : parseEnvelope go delivery.payload now = .ok env)
      (hnext : handler = .recording env (.ofEnvelope env receivedAt) ∨
        handler = .publishing (.ofEnvelope env receivedAt) false 0) :
      Moves move world delivery world (delivery.goto handler)
  | record {env : Envelope} {rec : TelemetryRecord} {now : Time} {restored : Restored}
      (h : delivery.handler = .recording env rec)
      (hrecord : recordTelemetry go pg env now world.db = .ok restored) :
      Moves move world delivery { world with db := restored.db world.db }
        (delivery.sink (.recorded restored.record))
  | recordFailed {env : Envelope} {rec : TelemetryRecord} {now : Time} {db : TelemetryDb}
      (h : delivery.handler = .recording env rec)
      (hdb : MayStore go pg (.ofEnvelope env now) world.db db) :
      Moves move world delivery { world with db := db } (delivery.goto (.publishing rec false 0))
  | ackRecorded {rec : TelemetryRecord} (h : delivery.handler = .recorded rec) :
      Moves move world delivery world (delivery.ack (.publishing rec true 0))
  | publish {rec : TelemetryRecord} {durable : Bool} {attempt partition : Nat} {value : Bytes}
      {time : Time} (h : delivery.handler = .publishing rec durable attempt)
      (hvalue : rec.marshal go = .ok value) :
      Moves move world delivery (world.append cfg partition rec.deviceID value time)
        (delivery.sink (.published durable))
  | publishFailed {rec : TelemetryRecord} {durable : Bool} {attempt : Nat} {after : World}
      {handler : Handler} (h : delivery.handler = .publishing rec durable attempt)
      (hafter : after = world ∨
        ∃ value, rec.marshal go = .ok value ∧ MayAppend cfg rec.deviceID value world after)
      (hnext : (∃ err, handler = .deadLettering .mqttKafka err durable) ∨
        ∃ next, handler = .publishing rec durable next) :
      Moves move world delivery after (delivery.goto handler)
  | encode {stage : Stage} {cause : GoError} {durable : Bool} {now : Time}
      (h : delivery.handler = .deadLettering stage cause durable) :
      Moves move world delivery world
        (delivery.goto (.burying
          (deadLetterOf (.ofMQTT delivery.topic delivery.payload) stage cause now).marshal
          durable 0))
  | unconfigured {stage : Stage} {cause : GoError} {durable : Bool}
      (h : delivery.handler = .deadLettering stage cause durable) :
      Moves move world delivery world (delivery.goto (.unburied durable))
  | bury {value : Bytes} {durable : Bool} {attempt : Nat}
      (h : delivery.handler = .burying value durable attempt) :
      Moves move world delivery (world.bury value) (delivery.sink (.buried durable))
  | buryFailed {value : Bytes} {durable : Bool} {attempt : Nat} {after : World}
      {handler : Handler} (h : delivery.handler = .burying value durable attempt)
      (hafter : MayBury value world after)
      (hnext : handler = .unburied durable ∨ ∃ next, handler = .burying value durable next) :
      Moves move world delivery after (delivery.goto handler)
  | ackSunk (h : delivery.handler = .published false ∨ delivery.handler = .buried false) :
      Moves move world delivery world (delivery.ack .finished)
  | finish (h : delivery.handler = .published true ∨ delivery.handler = .buried true) :
      Moves move world delivery world (delivery.goto .finished)
  | fail {durable : Bool} (h : delivery.handler = .unburied durable) :
      Moves move world delivery world
        { delivery with handler := .finished, failed := delivery.failed || !durable }

/-- What a step of the consumer can do. -/
inductive Worker.Moves (move : ConsumerMove) (world : World) (worker : Worker) :
    World → Worker → Prop where
  | stay : Moves move world worker world worker
  | fetch {partition : Nat} {msg : Message} (h : worker.consumer = .idle)
      (hmsg : (world.topic partition)[worker.position partition]? = some msg) :
      Moves move world worker world
        ⟨.fetched msg, Function.update worker.position partition (worker.position partition + 1)⟩
  | decode {msg : Message} {rec : TelemetryRecord} (h : worker.consumer = .fetched msg)
      (hrec : TelemetryRecord.unmarshal go msg.value = .ok rec) :
      Moves move world worker world
        { worker with consumer := .restoring msg (receivedRecord msg rec) }
  | decodeFailed {msg : Message} {err : GoError} (h : worker.consumer = .fetched msg) :
      Moves move world worker world
        { worker with consumer := .deadLettering msg .telemetryDecode err }
  | restore {msg : Message} {rec : TelemetryRecord} {restored : Restored}
      (h : worker.consumer = .restoring msg rec)
      (hrestore : restoreTelemetry go pg rec world.db = .ok restored) :
      Moves move world worker { world with db := restored.db world.db }
        { worker with consumer := afterRestore cfg msg restored }
  | restoreFailed {msg : Message} {rec : TelemetryRecord} {db : TelemetryDb} {err : GoError}
      (h : worker.consumer = .restoring msg rec) (hdb : MayStore go pg rec world.db db) :
      Moves move world worker { world with db := db }
        { worker with consumer := .deadLettering msg .telemetryPostgres err }
  | sink {msg : Message} {rec : TelemetryRecord} (h : worker.consumer = .sinking msg rec)
      (hmove : move = .sink none) :
      Moves move world worker world { worker with consumer := .marking msg rec }
  | sinkFailed {msg : Message} {rec : TelemetryRecord} {err : GoError}
      (h : worker.consumer = .sinking msg rec) :
      Moves move world worker world
        { worker with consumer := .deadLettering msg .telemetryTDengine err }
  | mark {msg : Message} {rec : TelemetryRecord} {after : World}
      (h : worker.consumer = .marking msg rec)
      (hafter : after = world ∨
        after = { world with db := markTelemetryTDengineWritten (telemetryKey rec) world.db }) :
      Moves move world worker after { worker with consumer := .committing msg }
  | encode {msg : Message} {stage : Stage} {cause : GoError} {now : Time}
      (h : worker.consumer = .deadLettering msg stage cause) :
      Moves move world worker world
        { worker with consumer := .burying msg (deadLetterOf msg stage cause now).marshal 0 }
  | bury {msg : Message} {value : Bytes} {attempt : Nat}
      (h : worker.consumer = .burying msg value attempt) :
      Moves move world worker (world.bury value) { worker with consumer := .committing msg }
  | buryFailed {msg : Message} {value : Bytes} {attempt : Nat} {after : World}
      {consumer : Consumer} (h : worker.consumer = .burying msg value attempt)
      (hafter : MayBury value world after)
      (hnext : consumer = .stopped ∨ ∃ next, consumer = .burying msg value next) :
      Moves move world worker after { worker with consumer := consumer }
  | commit {msg : Message} {consumer : Consumer} (h : worker.consumer = .committing msg)
      (hnext : consumer = .idle ∨ consumer = .stopped) :
      Moves move world worker (world.commit msg) { worker with consumer := consumer }
  | stop : Moves move world worker world { worker with consumer := .stopped }
  | restart : Moves move world worker world ⟨.idle, world.committed⟩

variable {go pg cfg}

/-- After an attempt to write, one of three things happens. -/
theorem afterWrite_cases {α : Type} (attempt : Nat) (write : Write) (ok : α) (error : GoError → α)
    (retry : α) :
    (write = .acknowledged ∧ afterWrite attempt write ok error retry = ok) ∨
      (∃ err, afterWrite attempt write ok error retry = error err) ∨
      afterWrite attempt write ok error retry = retry := by
  cases write with
  | acknowledged => exact Or.inl ⟨rfl, rfl⟩
  | failed err retriable appended =>
      rw [afterWrite]
      split
      · exact Or.inr (Or.inr rfl)
      · exact Or.inr (Or.inl ⟨err, rfl⟩)

variable (cfg) in
/-- An attempt to write to the telemetry topic. -/
theorem mayAppend (write : Write) (world : World) (partition : Nat) (key value : Bytes)
    (time : Time) : MayAppend cfg key value world
      (if write.applied then world.append cfg partition key value time else world) := by
  split
  · exact Or.inr ⟨partition, time, rfl⟩
  · exact Or.inl rfl

/-- An attempt to write to the dead-letter topic. -/
theorem mayBury (write : Write) (world : World) (value : Bytes) :
    MayBury value world (if write.applied then world.bury value else world) := by
  split
  · exact Or.inr rfl
  · exact Or.inl rfl

variable (go pg) in
/-- What a call of the store reports as done has been done. -/
theorem call_cases (call : Call) (rec : TelemetryRecord) (before : TelemetryDb) :
    (∃ restored, restoreTelemetry go pg rec before = .ok restored ∧
        call.reported (restoreTelemetry go pg rec before) = .ok restored ∧
        call.after before (restoreTelemetry go pg rec before) = restored.db before) ∨
      ∃ err, call.reported (restoreTelemetry go pg rec before) = .error err ∧
        MayStore go pg rec before (call.after before (restoreTelemetry go pg rec before)) := by
  cases hresult : restoreTelemetry go pg rec before with
  | error err =>
      cases call with
      | executed => exact Or.inr ⟨err, rfl, Or.inl rfl⟩
      | lost lost applied =>
          refine Or.inr ⟨_, rfl, Or.inl ?_⟩
          cases applied <;> rfl
  | ok restored =>
      cases call with
      | executed => exact Or.inl ⟨restored, rfl, rfl, rfl⟩
      | lost err applied =>
          refine Or.inr ⟨_, rfl, ?_⟩
          cases applied with
          | false => exact Or.inl rfl
          | true => exact Or.inr ⟨restored, hresult, rfl⟩

/-- A message is accepted or rejected. -/
theorem processMessage_cases (topic payload : Bytes) (now receivedAt : Time) :
    (∃ stage cause, (stage = .mqttDecode ∨ stage = .mqttIdentity) ∧
        processMessage go cfg topic payload now receivedAt = .deadLettering stage cause false) ∨
      ∃ env, parseEnvelope go payload now = .ok env ∧
        (processMessage go cfg topic payload now receivedAt =
            .recording env (.ofEnvelope env receivedAt) ∨
          processMessage go cfg topic payload now receivedAt =
            .publishing (.ofEnvelope env receivedAt) false 0) := by
  rw [processMessage]
  split
  · exact Or.inl ⟨_, _, Or.inl rfl, rfl⟩
  · rename_i env henv
    split
    · exact Or.inl ⟨_, _, Or.inr rfl, rfl⟩
    · split
      · exact Or.inl ⟨_, _, Or.inr rfl, rfl⟩
      · refine Or.inr ⟨env, henv, ?_⟩
        split
        · exact Or.inl rfl
        · exact Or.inr rfl

/-- A step in the handling of a delivery does nothing else. -/
theorem delivery_step (stopping : Bool) (world : World) (delivery : Delivery) (move : HandlerMove) :
    delivery.Moves go pg cfg move world (delivery.step go pg cfg stopping world move).1
      (delivery.step go pg cfg stopping world move).2 := by
  unfold Delivery.step
  split
  · rename_i h
    split
    · exact .refuse h
    · exact .enter h
  · rename_i acquired h
    cases acquired with
    | true => exact .start h
    | false => exact .overflow h rfl
  · rename_i now receivedAt h
    rcases processMessage_cases delivery.topic delivery.payload now receivedAt with
      ⟨stage, cause, hstage, heq⟩ | ⟨env, henv, hnext⟩
    · rw [heq]
      exact .reject h hstage
    · exact .accept h henv hnext
  · rename_i env rec now call h
    simp only [recordTelemetry]
    rcases call_cases go pg call (.ofEnvelope env now) world.db with
      ⟨restored, hrestored, hreported, hafter⟩ | ⟨err, hreported, hafter⟩
    · simp only [hreported, hafter]
      exact .record h hrestored
    · simp only [hreported]
      exact .recordFailed h hafter
  · rename_i h
    exact .ackRecorded h
  · rename_i rec durable attempt partition time write h
    split
    · rename_i err hvalue
      exact .publishFailed h (Or.inl rfl) (Or.inl ⟨err, rfl⟩)
    · rename_i value hvalue
      have hafter := mayAppend cfg write world partition rec.deviceID value time
      rcases afterWrite_cases attempt write (delivery.sink (.published durable))
        (fun err => delivery.goto (.deadLettering .mqttKafka err durable))
        (delivery.goto (.publishing rec durable (attempt + 1))) with
        ⟨rfl, heq⟩ | ⟨err, heq⟩ | heq
      · rw [heq]
        exact .publish h hvalue
      · rw [heq]
        exact .publishFailed h (Or.inr ⟨value, hvalue, hafter⟩) (Or.inl ⟨err, rfl⟩)
      · rw [heq]
        exact .publishFailed h (Or.inr ⟨value, hvalue, hafter⟩) (Or.inr ⟨_, rfl⟩)
  · rename_i durable h
    cases durable with
    | false => exact .ackSunk (Or.inl h)
    | true => exact .finish (Or.inl h)
  · rename_i h
    split
    · exact .encode h
    · exact .unconfigured h
  · rename_i value durable attempt write h
    have hafter := mayBury write world value
    rcases afterWrite_cases attempt write (delivery.sink (.buried durable))
      (fun _ => delivery.goto (.unburied durable))
      (delivery.goto (.burying value durable (attempt + 1))) with
      ⟨rfl, heq⟩ | ⟨err, heq⟩ | heq
    · rw [heq]
      exact .bury h
    · rw [heq]
      exact .buryFailed h hafter (Or.inl rfl)
    · rw [heq]
      exact .buryFailed h hafter (Or.inr ⟨_, rfl⟩)
  · rename_i durable h
    cases durable with
    | false => exact .ackSunk (Or.inr h)
    | true => exact .finish (Or.inr h)
  · rename_i h
    exact .fail h
  · exact .stay

variable (cfg) in
/-- Once a record is stored, the consumer commits or writes to TDengine. -/
theorem afterRestore_cases (msg : Message) (restored : Restored) :
    afterRestore cfg msg restored = .committing msg ∨
      afterRestore cfg msg restored = .sinking msg restored.record := by
  have hwrite : ∀ rec, (if cfg.tdengine then Consumer.sinking msg rec else .committing msg) =
      .committing msg ∨ (if cfg.tdengine then Consumer.sinking msg rec else .committing msg) =
      .sinking msg rec := by
    intro rec
    split
    · exact Or.inr rfl
    · exact Or.inl rfl
  unfold afterRestore
  cases restored with
  | inserted rec db => exact hwrite rec
  | duplicate stored =>
      dsimp only
      split
      · exact Or.inl rfl
      · exact hwrite stored

/-- A step of the consumer does nothing else. -/
theorem worker_step (world : World) (worker : Worker) (move : ConsumerMove) :
    worker.Moves go pg cfg move world (worker.step go pg cfg world move).1
      (worker.step go pg cfg world move).2 := by
  unfold Worker.step
  dsimp only
  split
  · rename_i partition h
    split
    · exact .stay
    · rename_i msg hmsg
      exact .fetch h hmsg
  · rename_i msg h
    split
    · exact .decodeFailed h
    · rename_i rec hrec
      exact .decode h hrec
  · rename_i msg rec call h
    rcases call_cases go pg call rec world.db with
      ⟨restored, hrestored, hreported, hafter⟩ | ⟨err, hreported, hafter⟩
    · simp only [hreported, hafter]
      exact .restore h hrestored
    · simp only [hreported]
      exact .restoreFailed h hafter
  · rename_i h
    exact .sink h rfl
  · rename_i h
    exact .sinkFailed h
  · rename_i msg rec applied h
    refine .mark h ?_
    split
    · exact Or.inr rfl
    · exact Or.inl rfl
  · rename_i h
    exact .encode h
  · rename_i msg value attempt write h
    have hafter := mayBury write world value
    rcases afterWrite_cases attempt write ({ worker with consumer := .committing msg } : Worker)
      (fun _ => { worker with consumer := .stopped })
      { worker with consumer := .burying msg value (attempt + 1) } with
      ⟨rfl, heq⟩ | ⟨err, heq⟩ | heq
    · rw [heq]
      exact .bury h
    · rw [heq]
      exact .buryFailed h hafter (Or.inl rfl)
    · rw [heq]
      exact .buryFailed h hafter (Or.inr ⟨_, rfl⟩)
  · rename_i msg ok applied h
    rcases ok with _ | _
    · rcases applied with _ | _
      · exact .stop
      · exact .commit h (Or.inr rfl)
    · exact .commit h (Or.inl rfl)
  · exact .stop
  · exact .restart
  · exact .stay

/-! ## Nothing is taken away -/

/-- Rows stay, and the topics only get longer. -/
structure World.Grows (before after : World) : Prop where
  rows : ∀ key, (before.db.records.find? key).isSome → (after.db.records.find? key).isSome
  topic : ∀ partition, before.topic partition <+: after.topic partition
  dlq : before.dlq <+: after.dlq

theorem World.Grows.refl (world : World) : world.Grows world :=
  ⟨fun _ h => h, fun _ => List.prefix_refl _, List.prefix_refl _⟩

/-- Storing a record takes no row away. -/
theorem grows_store {rec : TelemetryRecord} {world : World} {restored : Restored}
    (h : restoreTelemetry go pg rec world.db = .ok restored) :
    world.Grows { world with db := restored.db world.db } := by
  refine ⟨fun key hkey => ?_, fun _ => List.prefix_refl _, List.prefix_refl _⟩
  obtain ⟨_, ⟨row, hnew, _, rfl⟩ | ⟨stored, _, rfl⟩⟩ := restoreTelemetry_cases h
  · exact Table.isSome_find?_insert (h := hnew) hkey
  · exact hkey

theorem grows_mayStore {rec : TelemetryRecord} {world : World} {db : TelemetryDb}
    (h : MayStore go pg rec world.db db) : world.Grows { world with db := db } := by
  rcases h with rfl | ⟨restored, h, rfl⟩
  · exact World.Grows.refl _
  · exact grows_store h

theorem grows_append (world : World) (partition : Nat) (key value : Bytes) (time : Time) :
    world.Grows (world.append cfg partition key value time) := by
  refine ⟨fun _ h => h, fun other => ?_, List.prefix_refl _⟩
  by_cases hother : other = partition
  · subst hother
    simp [World.append]
  · simp [World.append, Function.update_of_ne hother]

theorem grows_mayAppend {key value : Bytes} {world after : World}
    (h : MayAppend cfg key value world after) : world.Grows after := by
  rcases h with rfl | ⟨partition, time, rfl⟩
  · exact World.Grows.refl _
  · exact grows_append _ _ _ _ _

theorem grows_bury (world : World) (value : Bytes) : world.Grows (world.bury value) :=
  ⟨fun _ h => h, fun _ => List.prefix_refl _, List.prefix_append _ _⟩

theorem grows_mayBury {value : Bytes} {world after : World} (h : MayBury value world after) :
    world.Grows after := by
  rcases h with rfl | rfl
  · exact World.Grows.refl _
  · exact grows_bury _ _

theorem grows_mark (world : World) (key : TelemetryKey) :
    world.Grows { world with db := markTelemetryTDengineWritten key world.db } := by
  refine ⟨fun k hk => ?_, fun _ => List.prefix_refl _, List.prefix_refl _⟩
  exact (Table.isSome_find?_update _ _ _ telemetryKey_markedRow k).trans hk

theorem grows_commit (world : World) (msg : Message) : world.Grows (world.commit msg) :=
  ⟨fun _ h => h, fun _ => List.prefix_refl _, List.prefix_refl _⟩

/-- The handling of deliveries takes nothing away. -/
theorem grows_delivery {move : HandlerMove} {world after : World} {delivery delivery' : Delivery}
    (h : delivery.Moves go pg cfg move world after delivery') : world.Grows after := by
  cases h with
  | record _ hrecord => exact grows_store hrecord
  | recordFailed _ hdb => exact grows_mayStore hdb
  | publish _ _ => exact grows_append _ _ _ _ _
  | publishFailed _ hafter _ =>
      rcases hafter with rfl | ⟨_, _, hafter⟩
      · exact World.Grows.refl _
      · exact grows_mayAppend hafter
  | bury _ => exact grows_bury _ _
  | buryFailed _ hafter _ => exact grows_mayBury hafter
  | _ => exact World.Grows.refl _

/-- The consumer takes nothing away. -/
theorem grows_worker {move : ConsumerMove} {world after : World} {worker worker' : Worker}
    (h : worker.Moves go pg cfg move world after worker') : world.Grows after := by
  cases h with
  | restore _ hrestore => exact grows_store hrestore
  | restoreFailed _ hdb => exact grows_mayStore hdb
  | mark _ hafter =>
      rcases hafter with rfl | rfl
      · exact World.Grows.refl _
      · exact grows_mark _ _
  | bury _ => exact grows_bury _ _
  | buryFailed _ hafter _ => exact grows_mayBury hafter
  | commit _ _ => exact grows_commit _ _
  | _ => exact World.Grows.refl _

/-! ## Whole steps -/

variable (go pg cfg) in
/-- What a step of the pipeline can do. -/
inductive Pipeline.Moves (action : Action) (sys : Pipeline) : Pipeline → Prop where
  | stay : Moves action sys sys
  | deliver {topic payload : Bytes} :
      Moves action sys { sys with deliveries := sys.deliveries ++ [.new topic payload] }
  | handle {index : Nat} {move : HandlerMove} {delivery after : Delivery} {world : World}
      (haction : action = .handle index move) (h : sys.deliveries[index]? = some delivery)
      (hmoves : delivery.Moves go pg cfg move sys.world world after) :
      Moves action sys { sys with world := world, deliveries := sys.deliveries.set index after }
  | stopBridge : Moves action sys { sys with stopping := true }
  | restartBridge :
      Moves action sys { sys with stopping := false, deliveries := sys.deliveries.map .crash }
  | consume {move : ConsumerMove} {world : World} {worker : Worker}
      (h : sys.worker.Moves go pg cfg move sys.world world worker) :
      Moves action sys { sys with world := world, worker := worker }
  | ingest {env : Envelope} {now receivedAt : Time} {restored : Restored}
      (henv : validateEnvelopeAt env now = .ok ())
      (hrecord : recordTelemetry go pg env receivedAt sys.world.db = .ok restored) :
      Moves action sys
        { sys with
          world := { sys.world with db := restored.db sys.world.db }
          requests := sys.requests ++ [some (restored.record, 0)] }
  | record {env : Envelope} {now receivedAt : Time} {db : TelemetryDb}
      (henv : validateEnvelopeAt env now = .ok ())
      (hdb : MayStore go pg (.ofEnvelope env receivedAt) sys.world.db db) :
      Moves action sys { sys with world := { sys.world with db := db } }
  | publish {index attempt : Nat} {rec : TelemetryRecord} {after : World} {request : Request}
      (h : sys.requests[index]? = some (some (rec, attempt)))
      (hafter : after = sys.world ∨
        ∃ value, rec.marshal go = .ok value ∧ MayAppend cfg rec.deviceID value sys.world after)
      (hnext : request = none ∨ ∃ next, request = some (rec, next)) :
      Moves action sys { sys with world := after, requests := sys.requests.set index request }
  | compensate {key : TelemetryKey} :
      Moves action sys
        { sys with world := { sys.world with db := markTelemetryTDengineWritten key sys.world.db } }
  | replay {partition : Nat} {time : Time} {raw key value : Bytes} (hraw : raw ∈ sys.world.dlq)
      (hwrite : replayWrite go cfg.telemetryTopic raw = some (cfg.telemetryTopic, key, value)) :
      Moves action sys { sys with world := sys.world.append cfg partition key value time }
  | registerDevice {devices : List (Bytes × Bytes)} :
      Moves action sys
        { sys with world := { sys.world with db := { sys.world.db with devices := devices } } }

variable (go pg) in
/-- A request is refused, or recorded with what the store reports, or may be recorded. -/
theorem recordRequest_cases (world : World) (env : Envelope) (now receivedAt : Time) (call : Call) :
    (∃ err, recordRequest go pg world env now receivedAt call = (world, .error err)) ∨
    validateEnvelopeAt env now = .ok () ∧
      ((∃ restored, recordTelemetry go pg env receivedAt world.db = .ok restored ∧
          recordRequest go pg world env now receivedAt call =
            ({ world with db := restored.db world.db }, .ok restored)) ∨
        ∃ db err, MayStore go pg (.ofEnvelope env receivedAt) world.db db ∧
          recordRequest go pg world env now receivedAt call =
            ({ world with db := db }, .error err)) := by
  cases henv : validateEnvelopeAt env now with
  | error err => exact Or.inl ⟨err, by simp [recordRequest, henv]⟩
  | ok _ =>
      refine Or.inr ⟨rfl, ?_⟩
      simp only [recordRequest, henv, recordTelemetry]
      rcases call_cases go pg call (.ofEnvelope env receivedAt) world.db with
        ⟨restored, hrestored, hreported, hafter⟩ | ⟨err, hreported, hafter⟩
      · exact Or.inl ⟨restored, hrestored, by rw [hreported, hafter]⟩
      · exact Or.inr ⟨_, err, hafter, by rw [hreported]⟩

/-- A step of the pipeline does nothing else. -/
theorem pipeline_step (sys : Pipeline) (action : Action) :
    sys.Moves go pg cfg action (sys.step go pg cfg action) := by
  cases action with
  | deliver topic payload => exact .deliver
  | handle index move =>
      simp only [Pipeline.step]
      split
      · exact .stay
      · rename_i delivery h
        exact .handle rfl h (delivery_step sys.stopping sys.world delivery move)
  | stopBridge => exact .stopBridge
  | restartBridge => exact .restartBridge
  | consume move => exact .consume (worker_step sys.world sys.worker move)
  | ingestTelemetry env now receivedAt call =>
      simp only [Pipeline.step]
      rcases recordRequest_cases go pg sys.world env now receivedAt call with
        ⟨err, heq⟩ | ⟨henv, ⟨restored, hrecord, heq⟩ | ⟨db, err, hdb, heq⟩⟩
      · rw [heq]
        exact .stay
      · rw [heq]
        exact .ingest henv hrecord
      · rw [heq]
        exact .record henv hdb
  | publishRequest index partition time write =>
      simp only [Pipeline.step]
      split
      · rename_i rec attempt h
        unfold publishRequest
        split
        · exact .publish h (Or.inl rfl) (Or.inl rfl)
        · rename_i value hvalue
          have hafter := mayAppend cfg write sys.world partition rec.deviceID value time
          refine .publish h (Or.inr ⟨value, hvalue, hafter⟩) ?_
          rcases afterWrite_cases attempt write (none : Request) (fun _ => none)
            (some (rec, attempt + 1)) with ⟨_, heq⟩ | ⟨_, heq⟩ | heq
          · exact Or.inl heq
          · exact Or.inl heq
          · exact Or.inr ⟨_, heq⟩
      · exact .stay
  | recordTelemetry env now receivedAt call =>
      simp only [Pipeline.step]
      rcases recordRequest_cases go pg sys.world env now receivedAt call with
        ⟨err, heq⟩ | ⟨henv, ⟨restored, hrecord, heq⟩ | ⟨db, err, hdb, heq⟩⟩
      · rw [heq]
        exact .stay
      · rw [heq]
        exact .record henv (Or.inr ⟨restored, hrecord, rfl⟩)
      · rw [heq]
        exact .record henv hdb
  | compensate key => exact .compensate
  | replay index partition time appended =>
      simp only [Pipeline.step]
      split
      · exact .stay
      · rename_i raw h
        unfold replayOne
        split
        · exact .stay
        · rename_i topic key value hwrite
          split
          · rename_i htopic
            rw [htopic.1] at hwrite
            exact .replay (List.mem_of_getElem? h) hwrite
          · exact .stay
  | registerDevice tenantID deviceID => exact .registerDevice

/-- No step takes anything away. -/
theorem grows_step {action : Action} {sys after : Pipeline} (h : sys.Moves go pg cfg action after) :
    sys.world.Grows after.world := by
  cases h with
  | handle _ _ hmoves => exact grows_delivery hmoves
  | consume hmoves => exact grows_worker hmoves
  | ingest _ hrecord => exact grows_store hrecord
  | record _ hdb => exact grows_mayStore hdb
  | publish _ hafter _ =>
      rcases hafter with rfl | ⟨_, _, hafter⟩
      · exact World.Grows.refl _
      · exact grows_mayAppend hafter
  | compensate => exact grows_mark _ _
  | replay _ _ => exact grows_append _ _ _ _ _
  | registerDevice => exact ⟨fun _ h => h, fun _ => List.prefix_refl _, List.prefix_refl _⟩
  | _ => exact World.Grows.refl _

end Iot.Telemetry
