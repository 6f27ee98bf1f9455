import Iot.Telemetry.Durability

/-!
# The field contract of stored telemetry

The fields of telemetry are validated where it enters the platform and not again when a record is
consumed or replayed. So every row meets the contract as long as every path into Kafka has
validated first. One has not: a message that finds no publish slot is written to the dead-letter
topic unread, under the stage of messages that were validated, and its replay is published.
-/

namespace Iot.Telemetry

open Text Json Contracts Platform Store Data Execution Replay

/-- The fields of an envelope are accepted by `ValidateTelemetryFields` and its time is not below
`minEnvelopeTsMillis`. -/
def envelopeMeets (env : Envelope) : Bool :=
  (validateTelemetryFields env).isOk && minEnvelopeTsMillis ≤ env.ts

/-- The envelope of a record. -/
def envelopeOfRecord (rec : TelemetryRecord) : Envelope :=
  { Envelope.zero with
    msgID := rec.msgID, tenantID := rec.tenantID, deviceID := rec.deviceID, ts := rec.ts
    type := rec.type, version := rec.version, payload := rec.payload }

/-- A record meets the field contract. -/
def recordMeets (rec : TelemetryRecord) : Bool := envelopeMeets (envelopeOfRecord rec)

variable (go : GoRuntime)

/-- A message that can be read as an envelope meets the field contract. -/
def messageMeets (payload : Bytes) : Bool :=
  match Envelope.unmarshal go payload with
  | .ok env => envelopeMeets env
  | .error _ => true

/-- A message that finds no publish slot meets the field contract. -/
def overflowMeets (sys : Pipeline) (action : Action) : Bool :=
  match action with
  | .handle index (.slot false) =>
      match sys.deliveries[index]? with
      | some delivery => delivery.handler ≠ .admitted || messageMeets go delivery.payload
      | none => true
  | _ => true

/-- A record read from this Kafka value meets the field contract. -/
def ValueMeets (value : Bytes) : Prop :=
  ∀ rec, TelemetryRecord.unmarshal go value = .ok rec → recordMeets rec

/-- The stages of the telemetry consumer. -/
def Stage.ofConsumer (stage : Stage) : Prop :=
  stage = .telemetryDecode ∨ stage = .telemetryPostgres ∨ stage = .telemetryTDengine

/-- What stands in the dead-letter topic under each stage. -/
def Buried (stage : Stage) (value : Bytes) : Prop :=
  stage = .mqttDecode ∨ stage = .mqttIdentity ∨ (stage = .mqttKafka ∧ messageMeets go value) ∨
    (Stage.ofConsumer stage ∧ ValueMeets go value)

/-- A value of the dead-letter topic is a dead letter of such a message. -/
def EntryMeets (raw : Bytes) : Prop :=
  ∃ msg stage cause now, raw = (deadLetterOf msg stage cause now).marshal ∧
    Buried go stage msg.value

variable {go} {pg : Postgres} {cfg : Config}

/-! ## Records and dead letters -/

/-- The contract is about the columns that come from the envelope. -/
theorem recordMeets_congr {rec other : TelemetryRecord} (h : SameHead rec other) :
    recordMeets rec = recordMeets other := by
  obtain ⟨msgID, tenantID, deviceID, ts, type, version, payload, written, receivedAt⟩ := rec
  obtain ⟨hkey, hts, htype, hversion⟩ := h
  simp only [telemetryKey, Prod.mk.injEq] at hkey hts htype hversion
  obtain ⟨rfl, rfl, rfl⟩ := hkey
  subst hts htype hversion
  rfl

/-- The contract in terms of the checks. -/
theorem envelopeMeets_iff {env : Envelope} :
    envelopeMeets env ↔ validateTelemetryFields env = .ok () ∧ minEnvelopeTsMillis ≤ env.ts := by
  rw [envelopeMeets, Bool.and_eq_true, decide_eq_true_eq]
  cases validateTelemetryFields env <;> simp [Except.isOk, Except.toBool]

/-- What ingress accepts meets the contract. -/
theorem envelopeMeets_of_valid {env : Envelope} {now : Time}
    (h : validateEnvelopeAt env now = .ok ()) : envelopeMeets env := by
  obtain ⟨_, _, hfields, hmin, _⟩ := validateEnvelopeAt_eq_ok.mp h
  exact envelopeMeets_iff.mpr ⟨hfields, hmin⟩

/-- What is read from the JSON of a record meets the contract when the record does. -/
theorem valueMeets_marshal {rec : TelemetryRecord} {offset : Int} {value : Bytes}
    (h : rec.marshalAt go offset = .ok value) (hoffset : offset % 60 = 0)
    (hmeets : recordMeets rec) : ValueMeets go value := by
  intro rec' hrec'
  obtain ⟨payload, rfl⟩ := TelemetryRecord.unmarshal_marshalAt hoffset h hrec'
  obtain ⟨hfields, _⟩ := envelopeMeets_iff.mp hmeets
  obtain ⟨hmsg, htenant, hdevice, htype, hversion⟩ := utf8Valid_of_fields hfields
  have hhead : SameHead (rec.reread payload) rec := by
    refine ⟨?_, rfl, reread_of_valid htype, reread_of_valid hversion⟩
    simp only [telemetryKey, Prod.mk.injEq]
    exact ⟨reread_of_valid hmsg, reread_of_valid htenant, reread_of_valid hdevice⟩
  rw [recordMeets_congr hhead]
  exact hmeets

/-- Replaying a message that was validated publishes a record that meets the contract. -/
theorem valueMeets_replayEnvelope {topic topic' value value' : Bytes} {item : DeadLetter}
    (hmeets : messageMeets go value)
    (h : replayEnvelope go topic item value = .ok (topic', value')) : ValueMeets go value' := by
  simp only [replayEnvelope, bind_eq_ok] at h
  obtain ⟨env, henv, h⟩ := h
  simp only [messageMeets, henv] at hmeets
  split at h
  · cases h
  · simp only [bind_eq_ok] at h
    obtain ⟨_, _, ⟨_, _⟩, hreceived, payload, hpayload, h⟩ := h
    cases h
    exact valueMeets_marshal hpayload (replayReceivedAt_minutes hreceived) hmeets

/-- Replaying a record that a sink did not take publishes a record with the same fields. -/
theorem valueMeets_replayRecord {topic' value value' : Bytes} {item : DeadLetter}
    (hmeets : ValueMeets go value) (h : replayRecord go item value = .ok (topic', value')) :
    ValueMeets go value' := by
  simp only [replayRecord, bind_eq_ok] at h
  obtain ⟨rec, hrec, h⟩ := h
  split at h
  · simp only [bind_eq_ok] at h
    obtain ⟨⟨_, _⟩, hreceived, payload, hpayload, h⟩ := h
    cases h
    exact valueMeets_marshal hpayload (replayReceivedAt_minutes hreceived) (hmeets rec hrec)
  · cases h
    exact hmeets

/-- What a replay writes for a dead letter depends on its stage: a message of the overflow and a
record that was not stored are made into a record, any other value is written as it was, and the
messages that the bridge rejected are not written at all. -/
theorem replayWrite_cases {topic topic' key value : Bytes} {msg : Message} {stage : Stage}
    {cause : GoError} {now : Time}
    (h : replayWrite go topic (deadLetterOf msg stage cause now).marshal =
      some (topic', key, value)) :
    ∃ item : DeadLetter, item.sourceTopic = Json.reread msg.topic ∧
      (stage = .mqttKafka ∧ replayEnvelope go topic item msg.value = .ok (topic', value) ∨
        (stage = .telemetryPostgres ∨ stage = .telemetryTDengine) ∧
          replayRecord go item msg.value = .ok (topic', value) ∨
        (stage ≠ .mqttDecode ∧ stage ≠ .mqttIdentity ∧ stage ≠ .mqttKafka) ∧
          value = msg.value) := by
  unfold replayWrite at h
  split at h
  · cases h
  rename_i item hitem
  obtain ⟨hvalue, hstage⟩ := DeadLetter.reread_deadLetterOf msg stage cause now
  have hsource : (deadLetterOf msg stage cause now).reread.sourceTopic = Json.reread msg.topic :=
    rfl
  rw [← DeadLetter.unmarshal_marshal hitem] at hvalue hstage hsource
  rw [hvalue, decode64_encode64] at h
  simp only [hstage] at h
  split at h
  · cases h
  split at h
  · cases h
  rename_i hplan
  cases h
  refine ⟨item, hsource, ?_⟩
  rw [replayKafkaPayload, hstage] at hplan
  cases stage with
  | mqttDecode | mqttIdentity =>
      rw [if_pos (by decide)] at hplan
      cases hplan
  | mqttKafka =>
      rw [if_neg (by decide), if_pos rfl] at hplan
      exact .inl ⟨rfl, hplan⟩
  | telemetryPostgres | telemetryTDengine =>
      rw [if_neg (by decide), if_neg (by decide), if_pos (by decide)] at hplan
      exact .inr (.inl ⟨by decide, hplan⟩)
  | telemetryDecode | commandDecode | commandTopic | commandEncode | commandMQTT | commandAck =>
      rw [if_neg (by decide), if_neg (by decide), if_neg (by decide)] at hplan
      cases hplan
      exact .inr (.inr ⟨by decide, rfl⟩)

/-- What a replay publishes meets the contract when the dead letter does. -/
theorem valueMeets_replay {topic topic' raw key value : Bytes} (hentry : EntryMeets go raw)
    (h : replayWrite go topic raw = some (topic', key, value)) : ValueMeets go value := by
  obtain ⟨msg, stage, cause, now, rfl, hburied⟩ := hentry
  obtain ⟨item, -, hcases⟩ := replayWrite_cases h
  obtain ⟨rfl, hplan⟩ | ⟨hstage, hplan⟩ | ⟨⟨hdecode, hidentity, hkafka⟩, rfl⟩ := hcases
  · obtain hother | hother | ⟨-, hmeets⟩ | ⟨hother, -⟩ := hburied
    · cases hother
    · cases hother
    · exact valueMeets_replayEnvelope hmeets hplan
    · simp [Stage.ofConsumer] at hother
  · obtain hother | hother | ⟨hother, -⟩ | ⟨-, hmeets⟩ := hburied
    · simp [hother] at hstage
    · simp [hother] at hstage
    · simp [hother] at hstage
    · exact valueMeets_replayRecord hmeets hplan
  · obtain hother | hother | ⟨hother, -⟩ | ⟨-, hmeets⟩ := hburied
    · exact absurd hother hdecode
    · exact absurd hother hidentity
    · exact absurd hother hkafka
    · exact hmeets

/-! ## The world -/

variable (go) in
/-- Rows, records and dead letters meet the contract. -/
structure World.Meets (world : World) : Prop where
  rows : ∀ row ∈ world.db.records.rows, recordMeets row
  topic : ∀ partition, ∀ msg ∈ world.topic partition, ValueMeets go msg.value
  dlq : ∀ raw ∈ world.dlq, EntryMeets go raw

/-- Storing a record that meets the contract. -/
theorem meets_store {world : World} {rec : TelemetryRecord} {restored : Restored}
    (h : world.Meets go) (hrec : recordMeets rec)
    (hstore : restoreTelemetry go pg rec world.db = .ok restored) :
    World.Meets go { world with db := restored.db world.db } ∧ recordMeets restored.record := by
  obtain ⟨_, ⟨row, hnew, hhead, rfl⟩ | ⟨stored, hstored, rfl⟩⟩ := restoreTelemetry_cases hstore
  · refine ⟨⟨fun other hother => ?_, h.topic, h.dlq⟩, ?_⟩
    · rcases List.mem_append.mp hother with hother | hother
      · exact h.rows other hother
      · rw [List.mem_singleton.mp hother, recordMeets_congr hhead]
        exact hrec
    · exact hrec
  · exact ⟨h, h.rows stored ((Table.find?_eq_some_iff _ _ _).mp hstored).1⟩

theorem meets_mayStore {world : World} {rec : TelemetryRecord} {db : TelemetryDb}
    (h : world.Meets go) (hrec : recordMeets rec) (hdb : MayStore go pg rec world.db db) :
    World.Meets go { world with db := db } := by
  rcases hdb with rfl | ⟨restored, hstore, rfl⟩
  · exact h
  · exact (meets_store h hrec hstore).1

/-- Appending a record that meets the contract. -/
theorem meets_append {world : World} (h : world.Meets go) {value : Bytes}
    (hvalue : ValueMeets go value) (partition : Nat) (key : Bytes) (time : Time) :
    (world.append cfg partition key value time).Meets go := by
  refine ⟨h.rows, fun other msg hmsg => ?_, h.dlq⟩
  by_cases hother : other = partition
  · subst hother
    simp only [World.append, Function.update_self, List.mem_append, List.mem_singleton] at hmsg
    rcases hmsg with hmsg | rfl
    · exact h.topic other msg hmsg
    · exact hvalue
  · simp only [World.append, Function.update_of_ne hother] at hmsg
    exact h.topic other msg hmsg

theorem meets_mayAppend {world after : World} (h : world.Meets go) {rec : TelemetryRecord}
    (hrec : recordMeets rec)
    (hafter : after = world ∨
      ∃ value, rec.marshal go = .ok value ∧ MayAppend cfg rec.deviceID value world after) :
    after.Meets go := by
  rcases hafter with rfl | ⟨value, hvalue, rfl | ⟨partition, time, rfl⟩⟩
  · exact h
  · exact h
  · exact meets_append h (valueMeets_marshal hvalue rfl hrec) partition rec.deviceID time

/-- Appending a dead letter that meets the contract. -/
theorem meets_bury {world : World} (h : world.Meets go) {value : Bytes}
    (hvalue : EntryMeets go value) : (world.bury value).Meets go := by
  refine ⟨h.rows, h.topic, fun raw hraw => ?_⟩
  rcases List.mem_append.mp hraw with hraw | hraw
  · exact h.dlq raw hraw
  · rw [List.mem_singleton.mp hraw]
    exact hvalue

theorem meets_mayBury {world after : World} (h : world.Meets go) {value : Bytes}
    (hvalue : EntryMeets go value) (hafter : MayBury value world after) : after.Meets go := by
  rcases hafter with rfl | rfl
  · exact h
  · exact meets_bury h hvalue

/-- Marking a row changes no field of the contract. -/
theorem meets_mark {world : World} (h : world.Meets go) (key : TelemetryKey) :
    World.Meets go { world with db := markTelemetryTDengineWritten key world.db } := by
  refine ⟨fun row hrow => ?_, h.topic, h.dlq⟩
  obtain ⟨before, hbefore, rfl⟩ := List.mem_map.mp hrow
  split
  · exact h.rows before hbefore
  · exact h.rows before hbefore

/-! ## The processes -/

variable (go) in
/-- What a handler holds meets the contract. -/
def Delivery.Meets (delivery : Delivery) : Prop :=
  match delivery.handler with
  | .recording env rec =>
      envelopeMeets env ∧ recordMeets rec ∧ messageMeets go delivery.payload
  | .recorded rec | .publishing rec _ _ => recordMeets rec ∧ messageMeets go delivery.payload
  | .deadLettering stage _ _ => Buried go stage delivery.payload
  | .burying value _ _ => EntryMeets go value
  | _ => True

variable (go) in
/-- What the consumer holds meets the contract. -/
def Consumer.Meets : Consumer → Prop
  | .fetched msg | .sinking msg _ => ValueMeets go msg.value
  | .restoring msg rec => ValueMeets go msg.value ∧ recordMeets rec
  | .deadLettering msg stage _ => Stage.ofConsumer stage ∧ ValueMeets go msg.value
  | .burying _ value _ => EntryMeets go value
  | _ => True

/-- A step in the handling of a delivery, when a message that finds no slot meets the contract. -/
theorem delivery_meets {move : HandlerMove} {world after : World} {delivery delivery' : Delivery}
    (hworld : world.Meets go) (h : delivery.Meets go)
    (hoverflow : move = .slot false → delivery.handler = .admitted →
      messageMeets go delivery.payload)
    (hmoves : delivery.Moves go pg cfg move world after delivery') :
    after.Meets go ∧ delivery'.Meets go := by
  unfold Delivery.Meets at h
  cases hmoves with
  | stay => exact ⟨hworld, h⟩
  | refuse _ | enter _ | start _ | ackSunk _ | finish _ | fail _ | unconfigured _ =>
      exact ⟨hworld, trivial⟩
  | overflow hh hmove =>
      exact ⟨hworld, Or.inr (Or.inr (Or.inl ⟨rfl, hoverflow hmove hh⟩))⟩
  | reject _ hstage =>
      rcases hstage with rfl | rfl
      · exact ⟨hworld, Or.inl rfl⟩
      · exact ⟨hworld, Or.inr (Or.inl rfl)⟩
  | accept _ henv hnext =>
      obtain ⟨hraw, hvalid⟩ := parseEnvelope_eq_ok.mp henv
      have henv' := envelopeMeets_of_valid hvalid
      have hmessage : messageMeets go delivery.payload := by simpa [messageMeets, hraw] using henv'
      rcases hnext with rfl | rfl
      · exact ⟨hworld, henv', henv', hmessage⟩
      · exact ⟨hworld, henv', hmessage⟩
  | @record env rec now restored hh hrecord =>
      simp only [hh] at h
      have henv : recordMeets (.ofEnvelope env now) := h.1
      obtain ⟨hafter, hrec⟩ := meets_store hworld henv hrecord
      exact ⟨hafter, hrec, h.2.2⟩
  | @recordFailed env rec now db hh hdb =>
      simp only [hh] at h
      have henv : recordMeets (.ofEnvelope env now) := h.1
      exact ⟨meets_mayStore hworld henv hdb, h.2⟩
  | ackRecorded hh =>
      simp only [hh] at h
      exact ⟨hworld, h⟩
  | publish hh hvalue =>
      simp only [hh] at h
      exact ⟨meets_append hworld (valueMeets_marshal hvalue rfl h.1) _ _ _, trivial⟩
  | publishFailed hh hafter hnext =>
      simp only [hh] at h
      refine ⟨meets_mayAppend hworld h.1 hafter, ?_⟩
      rcases hnext with ⟨err, rfl⟩ | ⟨next, rfl⟩
      · exact Or.inr (Or.inr (Or.inl ⟨rfl, h.2⟩))
      · exact h
  | encode hh =>
      simp only [hh] at h
      exact ⟨hworld, _, _, _, _, rfl, h⟩
  | bury hh =>
      simp only [hh] at h
      exact ⟨meets_bury hworld h, trivial⟩
  | buryFailed hh hafter hnext =>
      simp only [hh] at h
      refine ⟨meets_mayBury hworld h hafter, ?_⟩
      rcases hnext with rfl | ⟨next, rfl⟩
      · trivial
      · exact h

/-- A step of the consumer. -/
theorem worker_meets {move : ConsumerMove} {world after : World} {worker worker' : Worker}
    (hworld : world.Meets go) (h : worker.consumer.Meets go)
    (hmoves : worker.Moves go pg cfg move world after worker') :
    after.Meets go ∧ worker'.consumer.Meets go := by
  cases hmoves with
  | stay => exact ⟨hworld, h⟩
  | fetch _ hmsg => exact ⟨hworld, hworld.topic _ _ (List.mem_of_getElem? hmsg)⟩
  | @decode msg rec hh hrec =>
      rw [hh] at h
      refine ⟨hworld, h, ?_⟩
      have hhead : SameHead (receivedRecord msg rec) rec := by
        unfold receivedRecord
        split <;> exact ⟨rfl, rfl, rfl, rfl⟩
      rw [recordMeets_congr hhead]
      exact h rec hrec
  | decodeFailed hh =>
      rw [hh] at h
      exact ⟨hworld, Or.inl rfl, h⟩
  | @restore msg rec restored hh hrestore =>
      rw [hh] at h
      refine ⟨(meets_store hworld h.2 hrestore).1, ?_⟩
      rcases afterRestore_cases cfg msg restored with hnext | hnext
      · rw [hnext]
        trivial
      · rw [hnext]
        exact h.1
  | restoreFailed hh hdb =>
      rw [hh] at h
      exact ⟨meets_mayStore hworld h.2 hdb, Or.inr (Or.inl rfl), h.1⟩
  | sink _ _ => exact ⟨hworld, trivial⟩
  | sinkFailed hh =>
      rw [hh] at h
      exact ⟨hworld, Or.inr (Or.inr rfl), h⟩
  | mark _ hafter =>
      refine ⟨?_, trivial⟩
      rcases hafter with rfl | rfl
      · exact hworld
      · exact meets_mark hworld _
  | encode hh =>
      rw [hh] at h
      exact ⟨hworld, _, _, _, _, rfl, Or.inr (Or.inr (Or.inr h))⟩
  | bury hh =>
      rw [hh] at h
      exact ⟨meets_bury hworld h, trivial⟩
  | buryFailed hh hafter hnext =>
      rw [hh] at h
      refine ⟨meets_mayBury hworld h hafter, ?_⟩
      rcases hnext with rfl | ⟨next, rfl⟩
      · trivial
      · exact h
  | commit _ hnext =>
      refine ⟨⟨hworld.rows, hworld.topic, hworld.dlq⟩, ?_⟩
      rcases hnext with rfl | rfl <;> trivial
  | stop => exact ⟨hworld, trivial⟩
  | restart => exact ⟨hworld, trivial⟩

/-! ## The pipeline -/

variable (go) in
/-- Everything the pipeline holds meets the contract. -/
structure Pipeline.Meets (sys : Pipeline) : Prop where
  world : sys.world.Meets go
  deliveries : ∀ delivery ∈ sys.deliveries, delivery.Meets go
  worker : sys.worker.consumer.Meets go
  requests : ∀ rec attempt, some (rec, attempt) ∈ sys.requests → recordMeets rec

theorem initial_meets : Pipeline.initial.Meets go := by
  refine ⟨⟨?_, ?_, ?_⟩, ?_, trivial, ?_⟩ <;>
    simp [Pipeline.initial, World.initial, TelemetryDb.empty, Table.empty]

/-- A crash leaves nothing to hold. -/
theorem crash_meets {delivery : Delivery} (h : delivery.Meets go) : delivery.crash.Meets go := by
  unfold Delivery.crash
  split
  · exact h
  · exact h
  · exact h
  · trivial

/-- A step that meets the condition keeps the contract. -/
theorem step_meets {action : Action} {sys after : Pipeline} (h : sys.Meets go)
    (hoverflow : overflowMeets go sys action) (hmoves : sys.Moves go pg cfg action after) :
    after.Meets go := by
  cases hmoves with
  | stay | stopBridge => exact ⟨h.world, h.deliveries, h.worker, h.requests⟩
  | deliver =>
      refine ⟨h.world, fun delivery hdelivery => ?_, h.worker, h.requests⟩
      rcases List.mem_append.mp hdelivery with hdelivery | hdelivery
      · exact h.deliveries delivery hdelivery
      · cases List.mem_singleton.mp hdelivery
        trivial
  | @handle index move delivery after world haction hindex hstep =>
      have hslot : move = .slot false → delivery.handler = .admitted →
          messageMeets go delivery.payload := by
        rintro rfl hadmitted
        simpa [overflowMeets, haction, hindex, hadmitted] using hoverflow
      obtain ⟨hworld, hafter⟩ :=
        delivery_meets h.world (h.deliveries _ (List.mem_of_getElem? hindex)) hslot hstep
      refine ⟨hworld, fun other hother => ?_, h.worker, h.requests⟩
      rcases List.mem_or_eq_of_mem_set hother with hother | rfl
      · exact h.deliveries other hother
      · exact hafter
  | restartBridge =>
      refine ⟨h.world, fun delivery hdelivery => ?_, h.worker, h.requests⟩
      obtain ⟨before, hbefore, rfl⟩ := List.mem_map.mp hdelivery
      exact crash_meets (h.deliveries before hbefore)
  | consume hstep =>
      obtain ⟨hworld, hworker⟩ := worker_meets h.world h.worker hstep
      exact ⟨hworld, h.deliveries, hworker, h.requests⟩
  | @ingest env now receivedAt restored henv hrecord =>
      have hrec : recordMeets (.ofEnvelope env receivedAt) := envelopeMeets_of_valid henv
      obtain ⟨hworld, hstored⟩ := meets_store h.world hrec hrecord
      refine ⟨hworld, h.deliveries, h.worker, fun rec attempt hrequest => ?_⟩
      rcases List.mem_append.mp hrequest with hrequest | hrequest
      · exact h.requests rec attempt hrequest
      · cases List.mem_singleton.mp hrequest
        exact hstored
  | @record env now receivedAt db henv hdb =>
      have hrec : recordMeets (.ofEnvelope env receivedAt) := envelopeMeets_of_valid henv
      exact ⟨meets_mayStore h.world hrec hdb, h.deliveries, h.worker, h.requests⟩
  | @publish index attempt rec world request hindex hafter hnext =>
      have hrec := h.requests rec attempt (List.mem_of_getElem? hindex)
      refine ⟨meets_mayAppend h.world hrec hafter, h.deliveries, h.worker, ?_⟩
      intro other attempt' hother
      rcases List.mem_or_eq_of_mem_set hother with hother | hother
      · exact h.requests other attempt' hother
      · rcases hnext with rfl | ⟨next, rfl⟩
        · cases hother
        · cases hother
          exact hrec
  | compensate => exact ⟨meets_mark h.world _, h.deliveries, h.worker, h.requests⟩
  | replay hraw hwrite =>
      have hvalue := valueMeets_replay (h.world.dlq _ hraw) hwrite
      exact ⟨meets_append h.world hvalue _ _ _, h.deliveries, h.worker, h.requests⟩
  | registerDevice =>
      exact ⟨⟨h.world.rows, h.world.topic, h.world.dlq⟩, h.deliveries, h.worker, h.requests⟩

/-- **Every stored row meets the field contract**, in every state reached by a run in which every
message that finds no publish slot, and can be read as an envelope at all, meets it. -/
theorem stored_rows_meet_contract (go : GoRuntime) (pg : Postgres) (cfg : Config)
    (actions : List Action)
    (h : Along (Pipeline.step go pg cfg) (fun sys action => overflowMeets go sys action)
      Pipeline.initial actions) (row : TelemetryRecord)
    (hrow : row ∈ (run (Pipeline.step go pg cfg) Pipeline.initial actions).world.db.records.rows) :
    validateTelemetryFields (envelopeOfRecord row) = .ok () ∧ minEnvelopeTsMillis ≤ row.ts := by
  have hmeets := run_invariant_along (fun sys action => overflowMeets go sys action)
    (Pipeline.Meets go) (fun sys action h hcondition => step_meets h hcondition
      (pipeline_step sys action)) initial_meets h
  exact envelopeMeets_iff.mp (hmeets.world.rows row hrow)

/-- A message that finds no slot is dead-lettered, replayed, consumed and stored. -/
def overflowRun (payload : Bytes) : List Action :=
  [.registerDevice (ascii "t") (ascii "d"), .deliver sampleTopic payload, .handle 0 .enter,
    .handle 0 (.slot false), .handle 0 (.encode sampleTime), .handle 0 (.bury .acknowledged),
    .handle 0 .acknowledge, .replay 0 0 sampleTime true, .consume (.fetch 0), .consume .decode,
    .consume (.restore .executed)]

/-- The row of the message the runs start with. -/
def sampleRow : TelemetryRecord :=
  ⟨ascii "m", ascii "t", ascii "d", 1700000000000, ascii "temperature", ascii "v1",
    ascii "\x7b\x7d", false, sampleTime⟩

theorem stored_rows_meet_contract_overflow :
    sampleRow ∈ (run (Pipeline.step .plain .plain plainConfig) .initial
        (overflowRun samplePayload)).world.db.records.rows ∧
      validateTelemetryFields (envelopeOfRecord sampleRow) = .ok () := by
  have hrun : Along (Pipeline.step .plain .plain plainConfig)
        (fun sys action => overflowMeets .plain sys action) .initial (overflowRun samplePayload) ∧
      sampleRow ∈ (run (Pipeline.step .plain .plain plainConfig) .initial
        (overflowRun samplePayload)).world.db.records.rows := by
    decide +kernel
  exact ⟨hrun.2, (stored_rows_meet_contract .plain .plain plainConfig _ hrun.1 _ hrun.2).1⟩

/-- A message without an id, a type, a version and a time. -/
def barePayload : Bytes :=
  ascii "\x7b\"tenantId\":\"t\",\"deviceId\":\"d\",\"payload\":\x7b\x7d\x7d"

/-- The same way leads a message into the table that no ingress would accept. -/
theorem overflow_stores_invalid_row :
    ∃ row ∈ (run (Pipeline.step .plain .plain plainConfig) .initial
        (overflowRun barePayload)).world.db.records.rows,
      row.msgID = [] ∧ row.type = [] ∧ row.version = [] ∧ row.ts = 0 ∧ recordMeets row = false := by
  decide +kernel

end Iot.Telemetry
