import Iot.Contracts.Identity
import Iot.Telemetry.FieldContract

/-!
# Where telemetry comes from

The pipeline stores telemetry of a device only if someone spoke for the device: a message was
delivered on a topic of the device, or a request of the API named it. `rows_spoken` says so for
whole runs, with dead letters, replays and crashes in between. The identity in a message is compared
with its topic when the message is processed, and again when its dead letter is replayed; behind
these two comparisons nothing looks at it any more, and nothing changes it.
-/

namespace Iot.Telemetry

open Text Json Contracts Platform Store Data Execution Replay

section Spoken

variable (go : GoRuntime) (spoken : Bytes → Bytes → Prop)

/-- Someone speaks for the device of a record. -/
def RecordSpoken (rec : TelemetryRecord) : Prop := spoken rec.tenantID rec.deviceID

/-- Someone speaks for the device of the record in this Kafka value. -/
def ValueSpoken (value : Bytes) : Prop :=
  ∀ rec, TelemetryRecord.unmarshal go value = .ok rec → RecordSpoken spoken rec

/-- What stands in the dead-letter topic under each stage. Under `mqtt.kafka` it is a message that
need not have been looked at, with its topic. -/
def BuriedSpoken (stage : Stage) (msg : Message) : Prop :=
  stage = .mqttDecode ∨ stage = .mqttIdentity ∨
    (stage = .mqttKafka ∧ TopicSpoken spoken msg.topic) ∨
    (Stage.ofConsumer stage ∧ ValueSpoken go spoken msg.value)

/-- A value of the dead-letter topic is a dead letter of such a message. -/
def EntrySpoken (raw : Bytes) : Prop :=
  ∃ msg stage cause now, raw = (deadLetterOf msg stage cause now).marshal ∧
    BuriedSpoken go spoken stage msg

/-- What a handler holds. -/
def Handler.Spoken : Handler → Prop
  | .recording env rec => spoken env.tenantID env.deviceID ∧ RecordSpoken spoken rec
  | .recorded rec | .publishing rec _ _ => RecordSpoken spoken rec
  | .deadLettering stage _ _ => stage = .mqttDecode ∨ stage = .mqttIdentity ∨ stage = .mqttKafka
  | .burying value _ _ => EntrySpoken go spoken value
  | _ => True

/-- A delivery after some steps of its handling, each in the world it finds. -/
def Delivery.handled (pg : Postgres) (cfg : Config) (delivery : Delivery)
    (steps : List (Bool × World × HandlerMove)) : Delivery :=
  run (fun delivery step => (delivery.step go pg cfg step.1 step.2.1 step.2.2).2) delivery steps

/-- A delivery on a topic that is spoken for. -/
structure Delivery.Spoken (delivery : Delivery) : Prop where
  topic : TopicSpoken spoken delivery.topic
  handler : delivery.handler.Spoken go spoken

/-- What the consumer holds. -/
def Consumer.Spoken : Consumer → Prop
  | .fetched msg | .sinking msg _ => ValueSpoken go spoken msg.value
  | .restoring msg rec => ValueSpoken go spoken msg.value ∧ RecordSpoken spoken rec
  | .deadLettering msg stage _ => Stage.ofConsumer stage ∧ ValueSpoken go spoken msg.value
  | .burying _ value _ => EntrySpoken go spoken value
  | _ => True

/-- Rows, records and dead letters. -/
structure World.Spoken (world : World) : Prop where
  rows : ∀ row ∈ world.db.records.rows, RecordSpoken spoken row
  topic : ∀ partition, ∀ msg ∈ world.topic partition, ValueSpoken go spoken msg.value
  dlq : ∀ raw ∈ world.dlq, EntrySpoken go spoken raw

/-- What is in the world after a step was there before it, or is spoken for. -/
structure World.Adds (world after : World) : Prop where
  rows : ∀ row ∈ after.db.records.rows, row ∈ world.db.records.rows ∨ RecordSpoken spoken row
  topic : ∀ partition, ∀ msg ∈ after.topic partition,
    msg ∈ world.topic partition ∨ ValueSpoken go spoken msg.value
  dlq : ∀ raw ∈ after.dlq, raw ∈ world.dlq ∨ EntrySpoken go spoken raw

/-- Everything the pipeline holds. -/
structure Pipeline.Spoken (sys : Pipeline) : Prop where
  world : sys.world.Spoken go spoken
  deliveries : ∀ delivery ∈ sys.deliveries, delivery.Spoken go spoken
  worker : sys.worker.consumer.Spoken go spoken
  requests : ∀ rec attempt, some (rec, attempt) ∈ sys.requests → RecordSpoken spoken rec

/-- What enters the pipeline is spoken for. -/
def Action.SpokenBy : Action → Prop
  | .deliver topic _ => TopicSpoken spoken topic
  | .ingestTelemetry env now _ _ | .recordTelemetry env now _ _ =>
      validateEnvelopeAt env now = .ok () → spoken env.tenantID env.deviceID
  | _ => True

end Spoken

section Runs

variable {go : GoRuntime} {pg : Postgres} {cfg : Config} {spoken : Bytes → Bytes → Prop}
  (hvalid : ∀ tenant device, spoken tenant device → utf8Valid tenant ∧ utf8Valid device)

/-! ## Records and dead letters -/

/-- Whether someone speaks for a record depends on its key. -/
theorem recordSpoken_congr {rec other : TelemetryRecord}
    (h : telemetryKey rec = telemetryKey other) :
    RecordSpoken spoken rec ↔ RecordSpoken spoken other := by
  simp only [telemetryKey, Prod.mk.injEq] at h
  rw [RecordSpoken, RecordSpoken, h.2.1, h.2.2]

include hvalid in
/-- What is read from the JSON of a record is of the same device. -/
theorem valueSpoken_marshal {rec : TelemetryRecord} {offset : Int} {value : Bytes}
    (h : rec.marshalAt go offset = .ok value) (hoffset : offset % 60 = 0)
    (hrec : RecordSpoken spoken rec) : ValueSpoken go spoken value := by
  intro rec' hrec'
  obtain ⟨payload, rfl⟩ := TelemetryRecord.unmarshal_marshalAt hoffset h hrec'
  obtain ⟨htenant, hdevice⟩ := hvalid _ _ hrec
  show spoken (Json.reread rec.tenantID) (Json.reread rec.deviceID)
  rw [reread_of_valid htenant, reread_of_valid hdevice]
  exact hrec

include hvalid in
/-- The replay of a message compares its identity with its topic. -/
theorem valueSpoken_replayEnvelope {topic topic' value value' : Bytes} {item : DeadLetter}
    (hspoken : TopicSpoken spoken item.sourceTopic)
    (h : replayEnvelope go topic item value = .ok (topic', value')) :
    ValueSpoken go spoken value' := by
  simp only [replayEnvelope, bind_eq_ok] at h
  obtain ⟨env, _, h⟩ := h
  split at h
  · cases h
  · rename_i parsed hparsed
    simp only [bind_eq_ok, returnIf_eq_ok, not_or, not_not] at h
    obtain ⟨_, ⟨_, htenant, hdevice⟩, ⟨_, _⟩, hreceived, payload, hpayload, h⟩ := h
    cases h
    have hrec : spoken env.tenantID env.deviceID := by
      rw [← htenant, ← hdevice]
      exact hspoken.2 parsed hparsed
    exact valueSpoken_marshal hvalid hpayload (replayReceivedAt_minutes hreceived) hrec

include hvalid in
/-- The replay of a record keeps its device. -/
theorem valueSpoken_replayRecord {topic' value value' : Bytes} {item : DeadLetter}
    (hspoken : ValueSpoken go spoken value)
    (h : replayRecord go item value = .ok (topic', value')) : ValueSpoken go spoken value' := by
  simp only [replayRecord, bind_eq_ok] at h
  obtain ⟨rec, hrec, h⟩ := h
  split at h
  · simp only [bind_eq_ok] at h
    obtain ⟨⟨_, _⟩, hreceived, payload, hpayload, h⟩ := h
    cases h
    exact valueSpoken_marshal hvalid hpayload (replayReceivedAt_minutes hreceived)
      (hspoken rec hrec)
  · cases h
    exact hspoken

include hvalid in
/-- What a replay publishes. -/
theorem valueSpoken_replay {topic topic' raw key value : Bytes} (hentry : EntrySpoken go spoken raw)
    (h : replayWrite go topic raw = some (topic', key, value)) : ValueSpoken go spoken value := by
  obtain ⟨msg, stage, cause, now, rfl, hburied⟩ := hentry
  obtain ⟨item, hsource, hcases⟩ := replayWrite_cases h
  obtain ⟨rfl, hplan⟩ | ⟨hstage, hplan⟩ | ⟨⟨hdecode, hidentity, hkafka⟩, rfl⟩ := hcases
  · obtain hother | hother | ⟨-, hspoken⟩ | ⟨hother, -⟩ := hburied
    · cases hother
    · cases hother
    · refine valueSpoken_replayEnvelope hvalid ?_ hplan
      rw [hsource, reread_of_valid hspoken.1]
      exact hspoken
    · simp [Stage.ofConsumer] at hother
  · obtain hother | hother | ⟨hother, -⟩ | ⟨-, hspoken⟩ := hburied
    · simp [hother] at hstage
    · simp [hother] at hstage
    · simp [hother] at hstage
    · exact valueSpoken_replayRecord hvalid hspoken hplan
  · obtain hother | hother | ⟨hother, -⟩ | ⟨-, hspoken⟩ := hburied
    · exact absurd hother hdecode
    · exact absurd hother hidentity
    · exact absurd hother hkafka
    · exact hspoken

/-! ## The world -/

theorem World.Adds.refl {world : World} : World.Adds go spoken world world :=
  ⟨fun _ => Or.inl, fun _ _ => Or.inl, fun _ => Or.inl⟩

/-- Nothing that nobody speaks for gets into the world. -/
theorem World.Spoken.adds {world after : World} (h : world.Spoken go spoken)
    (hadds : World.Adds go spoken world after) : after.Spoken go spoken :=
  ⟨fun row hrow => (hadds.rows row hrow).elim (h.rows row) id,
    fun partition msg hmsg => (hadds.topic partition msg hmsg).elim (h.topic partition msg) id,
    fun raw hraw => (hadds.dlq raw hraw).elim (h.dlq raw) id⟩

/-- Storing a record that is spoken for. A row that is stored already has the key of the record. -/
theorem adds_store {world : World} {rec : TelemetryRecord} {restored : Restored}
    (hrec : RecordSpoken spoken rec)
    (hstore : restoreTelemetry go pg rec world.db = .ok restored) :
    World.Adds go spoken world { world with db := restored.db world.db } ∧
      RecordSpoken spoken restored.record := by
  obtain ⟨_, ⟨row, hnew, hhead, rfl⟩ | ⟨stored, hstored, rfl⟩⟩ := restoreTelemetry_cases hstore
  · refine ⟨⟨fun other hother => ?_, fun _ _ => Or.inl, fun _ => Or.inl⟩, hrec⟩
    rcases List.mem_append.mp hother with hother | hother
    · exact Or.inl hother
    · rw [List.mem_singleton.mp hother]
      exact Or.inr ((recordSpoken_congr hhead.1).mpr hrec)
  · exact ⟨.refl, (recordSpoken_congr (Table.key_of_find? hstored)).mpr hrec⟩

theorem adds_mayStore {world : World} {rec : TelemetryRecord} {db : TelemetryDb}
    (hrec : RecordSpoken spoken rec) (hdb : MayStore go pg rec world.db db) :
    World.Adds go spoken world { world with db := db } := by
  rcases hdb with rfl | ⟨restored, hstore, rfl⟩
  · exact .refl
  · exact (adds_store hrec hstore).1

/-- Appending a record that is spoken for. -/
theorem adds_append {world : World} {value : Bytes} (hvalue : ValueSpoken go spoken value)
    (partition : Nat) (key : Bytes) (time : Time) :
    World.Adds go spoken world (world.append cfg partition key value time) := by
  refine ⟨fun _ => Or.inl, fun other msg hmsg => ?_, fun _ => Or.inl⟩
  by_cases hother : other = partition
  · subst hother
    simp only [World.append, Function.update_self, List.mem_append, List.mem_singleton] at hmsg
    rcases hmsg with hmsg | rfl
    · exact Or.inl hmsg
    · exact Or.inr hvalue
  · simp only [World.append, Function.update_of_ne hother] at hmsg
    exact Or.inl hmsg

include hvalid in
theorem adds_mayAppend {world after : World} {rec : TelemetryRecord}
    (hrec : RecordSpoken spoken rec)
    (hafter : after = world ∨
      ∃ value, rec.marshal go = .ok value ∧ MayAppend cfg rec.deviceID value world after) :
    World.Adds go spoken world after := by
  rcases hafter with rfl | ⟨value, hvalue, rfl | ⟨partition, time, rfl⟩⟩
  · exact .refl
  · exact .refl
  · exact adds_append (valueSpoken_marshal hvalid hvalue rfl hrec) partition rec.deviceID time

theorem adds_mayBury {world after : World} {value : Bytes} (hvalue : EntrySpoken go spoken value)
    (hafter : MayBury value world after) : World.Adds go spoken world after := by
  rcases hafter with rfl | rfl
  · exact .refl
  · refine ⟨fun _ => Or.inl, fun _ _ => Or.inl, fun raw hraw => ?_⟩
    rcases List.mem_append.mp hraw with hraw | hraw
    · exact Or.inl hraw
    · rw [List.mem_singleton.mp hraw]
      exact Or.inr hvalue

/-- Marking a row keeps its device. -/
theorem spoken_mark {world : World} (h : world.Spoken go spoken) (key : TelemetryKey) :
    World.Spoken go spoken { world with db := markTelemetryTDengineWritten key world.db } := by
  refine ⟨fun row hrow => ?_, h.topic, h.dlq⟩
  obtain ⟨before, hbefore, rfl⟩ := List.mem_map.mp hrow
  split
  · exact h.rows before hbefore
  · exact h.rows before hbefore

/-! ## The processes -/

/-- A message is accepted for the device whose topic it has, or goes to the dead-letter topic. -/
theorem processMessage_spoken {topic : Bytes} (h : TopicSpoken spoken topic) (payload : Bytes)
    (now receivedAt : Time) :
    (processMessage go cfg topic payload now receivedAt).Spoken go spoken := by
  rw [processMessage]
  cases henv : parseEnvelope go payload now with
  | error err => exact Or.inl rfl
  | ok env =>
      cases hparsed : parseDeviceTopic topic with
      | none => exact Or.inr (Or.inl rfl)
      | some parsed =>
          by_cases hmismatch : parsed.tenant ≠ env.tenantID ∨ parsed.device ≠ env.deviceID
          · simp only [if_pos hmismatch]
            exact Or.inr (Or.inl rfl)
          · have hidentity : spoken env.tenantID env.deviceID := by
              rw [not_or, not_not, not_not] at hmismatch
              rw [← hmismatch.1, ← hmismatch.2]
              exact h.2 parsed hparsed
            simp only [if_neg hmismatch]
            cases cfg.inbox with
            | true => exact ⟨hidentity, hidentity⟩
            | false => exact hidentity

/-- A delivery whose processing has started takes no other step than to be processed. -/
theorem step_started (stopping : Bool) (world : World) {delivery : Delivery}
    (h : delivery.handler = .started) (move : HandlerMove) :
    (delivery.step go pg cfg stopping world move = (world, delivery)) ∨
      ∃ now receivedAt, delivery.step go pg cfg stopping world move = (world,
        delivery.goto (processMessage go cfg delivery.topic delivery.payload now receivedAt)) := by
  obtain ⟨topic, payload, handler, acks, failed, sunk⟩ := delivery
  obtain rfl : handler = .started := h
  cases move with
  | process now receivedAt => exact Or.inr ⟨now, receivedAt, rfl⟩
  | _ => exact Or.inl rfl

include hvalid in
/-- A step in the handling of a delivery, in whatever world it is taken. -/
theorem delivery_adds (stopping : Bool) (world : World) {delivery : Delivery} (move : HandlerMove)
    (h : delivery.Spoken go spoken) :
    World.Adds go spoken world (delivery.step go pg cfg stopping world move).1 ∧
      (delivery.step go pg cfg stopping world move).2.Spoken go spoken := by
  -- of the comparison with the topic `Delivery.Moves` keeps nothing, so it is looked at here
  by_cases hstarted : delivery.handler = .started
  · rcases @step_started go pg cfg stopping world delivery hstarted move with
      hstep | ⟨now, receivedAt, hstep⟩
    · rw [hstep]
      exact ⟨.refl, h⟩
    · rw [hstep]
      exact ⟨.refl, h.topic, processMessage_spoken h.topic delivery.payload now receivedAt⟩
  · obtain ⟨htopic, hheld⟩ := h
    have hmoves := @delivery_step go pg cfg stopping world delivery move
    generalize delivery.step go pg cfg stopping world move = result at hmoves
    obtain ⟨after, delivery'⟩ := result
    cases hmoves with
    | stay => exact ⟨.refl, htopic, hheld⟩
    | refuse _ | enter _ | start _ | ackSunk _ | finish _ | fail _ | unconfigured _ =>
        exact ⟨.refl, htopic, trivial⟩
    | overflow _ _ => exact ⟨.refl, htopic, Or.inr (Or.inr rfl)⟩
    | reject hh _ => exact absurd hh hstarted
    | accept hh _ _ => exact absurd hh hstarted
    | @record env rec now restored hh hrecord =>
        rw [hh] at hheld
        have henv : RecordSpoken spoken (.ofEnvelope env now) := hheld.1
        obtain ⟨hadds, hrec⟩ := adds_store henv hrecord
        exact ⟨hadds, htopic, hrec⟩
    | @recordFailed env rec now db hh hdb =>
        rw [hh] at hheld
        have henv : RecordSpoken spoken (.ofEnvelope env now) := hheld.1
        exact ⟨adds_mayStore henv hdb, htopic, hheld.2⟩
    | ackRecorded hh =>
        rw [hh] at hheld
        exact ⟨.refl, htopic, hheld⟩
    | publish hh hvalue =>
        rw [hh] at hheld
        exact ⟨adds_append (valueSpoken_marshal hvalid hvalue rfl hheld) _ _ _, htopic, trivial⟩
    | publishFailed hh hafter hnext =>
        rw [hh] at hheld
        refine ⟨adds_mayAppend hvalid hheld hafter, htopic, ?_⟩
        rcases hnext with ⟨err, rfl⟩ | ⟨next, rfl⟩
        · exact Or.inr (Or.inr rfl)
        · exact hheld
    | encode hh =>
        rw [hh] at hheld
        refine ⟨.refl, htopic, _, _, _, _, rfl, ?_⟩
        exact hheld.imp_right (Or.imp_right fun hstage => Or.inl ⟨hstage, htopic⟩)
    | bury hh =>
        rw [hh] at hheld
        exact ⟨adds_mayBury hheld (Or.inr rfl), htopic, trivial⟩
    | buryFailed hh hafter hnext =>
        rw [hh] at hheld
        refine ⟨adds_mayBury hheld hafter, htopic, ?_⟩
        rcases hnext with rfl | ⟨next, rfl⟩
        · trivial
        · exact hheld

include hvalid in
/-- The handling of a message on a topic that is spoken for adds only what is spoken for, whatever
else happens to the world between its steps. -/
theorem handled_adds {topic : Bytes} (h : TopicSpoken spoken topic) (payload : Bytes)
    (steps : List (Bool × World × HandlerMove)) (stopping : Bool) (world : World)
    (move : HandlerMove) :
    World.Adds go spoken world
      ((Delivery.handled go pg cfg (.new topic payload) steps).step go pg cfg stopping world
        move).1 := by
  have hnew : (Delivery.new topic payload).Spoken go spoken := ⟨h, trivial⟩
  have hhandled : (Delivery.handled go pg cfg (.new topic payload) steps).Spoken go spoken :=
    run_invariant (Delivery.Spoken go spoken)
      (fun _ step hdelivery => (delivery_adds hvalid step.1 step.2.1 step.2.2 hdelivery).2) hnew
      steps
  exact (delivery_adds hvalid stopping world move hhandled).1

/-- A step of the consumer. -/
theorem worker_spoken {move : ConsumerMove} {world after : World} {worker worker' : Worker}
    (hworld : world.Spoken go spoken) (h : worker.consumer.Spoken go spoken)
    (hmoves : worker.Moves go pg cfg move world after worker') :
    after.Spoken go spoken ∧ worker'.consumer.Spoken go spoken := by
  cases hmoves with
  | stay => exact ⟨hworld, h⟩
  | fetch _ hmsg => exact ⟨hworld, hworld.topic _ _ (List.mem_of_getElem? hmsg)⟩
  | @decode msg rec hh hrec =>
      rw [hh] at h
      refine ⟨hworld, h, ?_⟩
      have hidentity : RecordSpoken spoken (receivedRecord msg rec) ↔ RecordSpoken spoken rec := by
        unfold receivedRecord
        split <;> exact Iff.rfl
      exact hidentity.mpr (h rec hrec)
  | decodeFailed hh =>
      rw [hh] at h
      exact ⟨hworld, Or.inl rfl, h⟩
  | @restore msg rec restored hh hrestore =>
      rw [hh] at h
      refine ⟨hworld.adds (adds_store h.2 hrestore).1, ?_⟩
      rcases afterRestore_cases cfg msg restored with hnext | hnext
      · rw [hnext]
        trivial
      · rw [hnext]
        exact h.1
  | restoreFailed hh hdb =>
      rw [hh] at h
      exact ⟨hworld.adds (adds_mayStore h.2 hdb), Or.inr (Or.inl rfl), h.1⟩
  | sink _ _ => exact ⟨hworld, trivial⟩
  | sinkFailed hh =>
      rw [hh] at h
      exact ⟨hworld, Or.inr (Or.inr rfl), h⟩
  | mark _ hafter =>
      refine ⟨?_, trivial⟩
      rcases hafter with rfl | rfl
      · exact hworld
      · exact spoken_mark hworld _
  | encode hh =>
      rw [hh] at h
      exact ⟨hworld, _, _, _, _, rfl, Or.inr (Or.inr (Or.inr h))⟩
  | bury hh =>
      rw [hh] at h
      exact ⟨hworld.adds (adds_mayBury h (Or.inr rfl)), trivial⟩
  | buryFailed hh hafter hnext =>
      rw [hh] at h
      refine ⟨hworld.adds (adds_mayBury h hafter), ?_⟩
      rcases hnext with rfl | ⟨next, rfl⟩
      · trivial
      · exact h
  | commit _ hnext =>
      refine ⟨⟨hworld.rows, hworld.topic, hworld.dlq⟩, ?_⟩
      rcases hnext with rfl | rfl <;> trivial
  | stop => exact ⟨hworld, trivial⟩
  | restart => exact ⟨hworld, trivial⟩

/-! ## The pipeline -/

theorem initial_spoken : Pipeline.initial.Spoken go spoken := by
  refine ⟨⟨?_, ?_, ?_⟩, ?_, trivial, ?_⟩ <;>
    simp [Pipeline.initial, World.initial, TelemetryDb.empty, Table.empty]

/-- A crash leaves nothing to hold. -/
theorem crash_spoken {delivery : Delivery} (h : delivery.Spoken go spoken) :
    delivery.crash.Spoken go spoken := by
  unfold Delivery.crash
  split
  · exact h
  · exact h
  · exact h
  · exact ⟨h.1, trivial⟩

include hvalid in
/-- A step of the pipeline. -/
theorem step_spoken {sys : Pipeline} {action : Action} (h : sys.Spoken go spoken)
    (haction : action.SpokenBy spoken) : (sys.step go pg cfg action).Spoken go spoken := by
  cases action with
  | deliver topic payload =>
      refine ⟨h.world, fun delivery hdelivery => ?_, h.worker, h.requests⟩
      rcases List.mem_append.mp hdelivery with hdelivery | hdelivery
      · exact h.deliveries delivery hdelivery
      · cases List.mem_singleton.mp hdelivery
        exact ⟨haction, trivial⟩
  | handle index move =>
      rw [Pipeline.step]
      cases hindex : sys.deliveries[index]? with
      | none => exact h
      | some delivery =>
          obtain ⟨hadds, hafter⟩ := @delivery_adds go pg cfg spoken hvalid sys.stopping sys.world
            delivery move (h.deliveries _ (List.mem_of_getElem? hindex))
          refine ⟨h.world.adds hadds, fun other hother => ?_, h.worker, h.requests⟩
          rcases List.mem_or_eq_of_mem_set hother with hother | rfl
          · exact h.deliveries other hother
          · exact hafter
  | stopBridge => exact ⟨h.world, h.deliveries, h.worker, h.requests⟩
  | restartBridge =>
      refine ⟨h.world, fun delivery hdelivery => ?_, h.worker, h.requests⟩
      obtain ⟨before, hbefore, rfl⟩ := List.mem_map.mp hdelivery
      exact crash_spoken (h.deliveries before hbefore)
  | consume move =>
      obtain ⟨hworld, hworker⟩ := worker_spoken h.world h.worker
        (@worker_step go pg cfg sys.world sys.worker move)
      exact ⟨hworld, h.deliveries, hworker, h.requests⟩
  | ingestTelemetry env now receivedAt call =>
      rw [Pipeline.step]
      rcases recordRequest_cases go pg sys.world env now receivedAt call with
        ⟨err, heq⟩ | ⟨henv, ⟨restored, hrecord, heq⟩ | ⟨db, err, hdb, heq⟩⟩
      · rw [heq]
        exact ⟨h.world, h.deliveries, h.worker, h.requests⟩
      · rw [heq]
        have hrec : RecordSpoken spoken (.ofEnvelope env receivedAt) := haction henv
        obtain ⟨hadds, hstored⟩ := adds_store hrec hrecord
        refine ⟨h.world.adds hadds, h.deliveries, h.worker, fun rec attempt hrequest => ?_⟩
        rcases List.mem_append.mp hrequest with hrequest | hrequest
        · exact h.requests rec attempt hrequest
        · cases List.mem_singleton.mp hrequest
          exact hstored
      · rw [heq]
        have hrec : RecordSpoken spoken (.ofEnvelope env receivedAt) := haction henv
        exact ⟨h.world.adds (adds_mayStore hrec hdb), h.deliveries, h.worker, h.requests⟩
  | recordTelemetry env now receivedAt call =>
      rw [Pipeline.step]
      rcases recordRequest_cases go pg sys.world env now receivedAt call with
        ⟨err, heq⟩ | ⟨henv, ⟨restored, hrecord, heq⟩ | ⟨db, err, hdb, heq⟩⟩
      · rw [heq]
        exact ⟨h.world, h.deliveries, h.worker, h.requests⟩
      · rw [heq]
        have hrec : RecordSpoken spoken (.ofEnvelope env receivedAt) := haction henv
        exact ⟨h.world.adds (adds_store hrec hrecord).1, h.deliveries, h.worker, h.requests⟩
      · rw [heq]
        have hrec : RecordSpoken spoken (.ofEnvelope env receivedAt) := haction henv
        exact ⟨h.world.adds (adds_mayStore hrec hdb), h.deliveries, h.worker, h.requests⟩
  | publishRequest index partition time write =>
      rw [Pipeline.step]
      cases hindex : sys.requests[index]? with
      | none => exact h
      | some request =>
          obtain _ | ⟨rec, attempt⟩ := request
          · exact h
          have hrec := h.requests rec attempt (List.mem_of_getElem? hindex)
          show Pipeline.Spoken go spoken { sys with
            world := (publishRequest go cfg sys.world rec attempt partition time write).1
            requests := sys.requests.set index
              (publishRequest go cfg sys.world rec attempt partition time write).2 }
          rw [publishRequest]
          cases hvalue : rec.marshal go with
          | error err =>
              refine ⟨h.world, h.deliveries, h.worker, fun other attempt' hother => ?_⟩
              rcases List.mem_or_eq_of_mem_set hother with hother | hother
              · exact h.requests other attempt' hother
              · cases hother
          | ok value =>
              have hafter := mayAppend cfg write sys.world partition rec.deviceID value time
              refine ⟨h.world.adds (adds_mayAppend hvalid hrec (Or.inr ⟨value, hvalue, hafter⟩)),
                h.deliveries, h.worker, fun other attempt' hother => ?_⟩
              rcases List.mem_or_eq_of_mem_set hother with hother | hother
              · exact h.requests other attempt' hother
              · rcases afterWrite_cases attempt write (none : Request) (fun _ => none)
                  (some (rec, attempt + 1)) with ⟨_, heq⟩ | ⟨_, heq⟩ | heq
                · cases hother.trans heq
                · cases hother.trans heq
                · cases hother.trans heq
                  exact hrec
  | compensate key => exact ⟨spoken_mark h.world _, h.deliveries, h.worker, h.requests⟩
  | replay index partition time appended =>
      rw [Pipeline.step]
      cases hindex : sys.world.dlq[index]? with
      | none => exact h
      | some raw =>
          refine ⟨?_, h.deliveries, h.worker, h.requests⟩
          show (replayOne go cfg sys.world raw partition time appended).Spoken go spoken
          rw [replayOne]
          cases hwrite : replayWrite go cfg.telemetryTopic raw with
          | none => exact h.world
          | some written =>
              obtain ⟨topic, key, value⟩ := written
              dsimp only
              split
              · exact h.world.adds (adds_append
                  (valueSpoken_replay hvalid (h.world.dlq _ (List.mem_of_getElem? hindex)) hwrite)
                  _ _ _)
              · exact h.world
  | registerDevice tenantID deviceID =>
      exact ⟨⟨h.world.rows, h.world.topic, h.world.dlq⟩, h.deliveries, h.worker, h.requests⟩

include hvalid in
/-- Someone has spoken for the device of every row and of every record in the telemetry topic. -/
theorem rows_spoken {actions : List Action} (h : ∀ action ∈ actions, action.SpokenBy spoken) :
    (run (Pipeline.step go pg cfg) Pipeline.initial actions).world.Spoken go spoken :=
  (run_invariant_along (fun _ action => action.SpokenBy spoken) (Pipeline.Spoken go spoken)
    (fun _ _ hsys haction => step_spoken hvalid hsys haction) initial_spoken
    (along_of_forall (fun action haction _ => h action haction) _)).world

end Runs

end Iot.Telemetry
