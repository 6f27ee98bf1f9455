import Iot.Contracts.Validation
import Iot.Platform.Records
import Iot.Telemetry.Steps

/-!
# No acknowledged telemetry is lost

Durability is handed from the bridge to PostgreSQL, to Kafka or to the dead-letter topic, and by
the consumer from Kafka to PostgreSQL or to the dead-letter topic. The invariant follows this
order: what a sink has reported is kept (`Delivery.Sound`), what the consumer has passed is settled
(`Pipeline.Sound.settled`), and together they give that a delivery that was acknowledged is kept
somewhere (`World.Keeps`).
-/

namespace Iot.Telemetry

open Text Json Contracts Platform Store Data Execution

variable (go : GoRuntime)

/-- The key under which the message of an envelope is stored. -/
def envelopeKey (env : Envelope) : TelemetryKey := (env.msgID, env.tenantID, env.deviceID)

/-- A Kafka value is the JSON of a record with this key. -/
def Carries (key : TelemetryKey) (value : Bytes) : Prop :=
  ∃ rec : TelemetryRecord, rec.marshal go = .ok value ∧ telemetryKey rec = key

/-- There is a dead letter that holds the value. -/
def World.Holds (world : World) (value : Bytes) : Prop :=
  ∃ item : DeadLetter, item.marshal ∈ world.dlq ∧ item.valueBase64 = encode64 value

/-- There is a dead letter of the message as it was delivered. -/
def World.HoldsDelivery (world : World) (delivery : Delivery) : Prop :=
  ∃ item : DeadLetter, item.marshal ∈ world.dlq ∧ item.sourceTopic = delivery.topic ∧
    item.valueBase64 = encode64 delivery.payload

/-- There is a row with this key. -/
def World.HasRow (world : World) (key : TelemetryKey) : Prop :=
  (world.db.records.find? key).isSome

/-- The message of a delivery is kept: by a row, by a record of the topic at an offset not below
the committed one, or by a dead letter, of the message or of a record made from it. -/
def World.Keeps (world : World) (delivery : Delivery) : Prop :=
  (∃ env, Envelope.unmarshal go delivery.payload = .ok env ∧ world.HasRow (envelopeKey env)) ∨
  (∃ env partition offset msg, Envelope.unmarshal go delivery.payload = .ok env ∧
    (world.topic partition)[offset]? = some msg ∧ world.committed partition ≤ offset ∧
    Carries go (envelopeKey env) msg.value) ∨
  world.HoldsDelivery delivery ∨
  ∃ env value, Envelope.unmarshal go delivery.payload = .ok env ∧
    Carries go (envelopeKey env) value ∧ world.Holds value

/-! ## Deliveries -/

/-- The message was parsed to an envelope, whose key is valid UTF-8. -/
def Parsed (delivery : Delivery) (env : Envelope) : Prop :=
  Envelope.unmarshal go delivery.payload = .ok env ∧ utf8Valid env.msgID ∧
    utf8Valid env.tenantID ∧ utf8Valid env.deviceID

/-- What a sink that reported success keeps, whatever the consumer has done since. -/
def World.Kept (world : World) (delivery : Delivery) : Prop :=
  (∃ env, Parsed go delivery env ∧ (world.HasRow (envelopeKey env) ∨
    ∃ partition, ∃ msg ∈ world.topic partition, Carries go (envelopeKey env) msg.value)) ∨
  world.HoldsDelivery delivery

/-- What has been called for a delivery that is acknowledged once a sink holds it. -/
def Delivery.Owes (delivery : Delivery) (durable : Bool) : Prop :=
  if durable then delivery.acks = 1 ∧ delivery.sunk else delivery.acks = 0

/-- The calls made so far, from where the handling stands. -/
def Delivery.Ledger (delivery : Delivery) : Prop :=
  match delivery.handler with
  | .arrived | .refused | .admitted | .started | .recording _ _ => delivery.acks = 0
  | .recorded _ => delivery.acks = 0 ∧ delivery.sunk
  | .publishing _ durable _ | .deadLettering _ _ durable | .burying _ durable _
  | .unburied durable => delivery.Owes durable
  | .published durable | .buried durable => delivery.Owes durable ∧ delivery.sunk
  | .finished => (delivery.acks = 1 ∧ delivery.sunk) ∨ (delivery.acks = 0 ∧ delivery.failed)
  | .lost => delivery.acks = 0 ∨ (delivery.acks = 1 ∧ delivery.sunk)

/-- What the handler holds belongs to the message. -/
def Delivery.Data (delivery : Delivery) : Prop :=
  match delivery.handler with
  | .recording env rec => Parsed go delivery env ∧ telemetryKey rec = envelopeKey env
  | .recorded rec | .publishing rec _ _ =>
      ∃ env, Parsed go delivery env ∧ telemetryKey rec = envelopeKey env
  | .burying value _ _ => ∃ item : DeadLetter, item.marshal = value ∧
      item.sourceTopic = delivery.topic ∧ item.valueBase64 = encode64 delivery.payload
  | _ => True

/-- The invariant of a delivery. -/
structure Delivery.Sound (world : World) (delivery : Delivery) : Prop where
  ledger : delivery.Ledger
  data : delivery.Data go
  kept : delivery.sunk → world.Kept go delivery

variable {go} {pg : Postgres} {cfg : Config}

/-- What is kept stays kept. -/
theorem kept_mono {world after : World} {delivery : Delivery} (hgrows : world.Grows after)
    (h : world.Kept go delivery) : after.Kept go delivery := by
  rcases h with ⟨env, hparsed, hrow | ⟨partition, msg, hmsg, hcarries⟩⟩ | ⟨item, hitem, hcopy⟩
  · exact Or.inl ⟨env, hparsed, Or.inl (hgrows.rows _ hrow)⟩
  · have hmsg' := (hgrows.topic partition).subset hmsg
    exact Or.inl ⟨env, hparsed, Or.inr ⟨partition, msg, hmsg', hcarries⟩⟩
  · exact Or.inr ⟨item, hgrows.dlq.subset hitem, hcopy⟩

/-- A record appended is in the topic. -/
theorem mem_append (world : World) (partition : Nat) (key value : Bytes) (time : Time) :
    (⟨cfg.telemetryTopic, partition, (world.topic partition).length, key, value, time⟩ : Message) ∈
      (world.append cfg partition key value time).topic partition := by
  simp [World.append]

/-- A message that was accepted has been parsed. -/
theorem parsed_of_parse {delivery : Delivery} {env : Envelope} {now : Time}
    (h : parseEnvelope go delivery.payload now = .ok env) : Parsed go delivery env := by
  obtain ⟨hraw, hvalid⟩ := parseEnvelope_eq_ok.mp h
  have hfields := utf8Valid_of_fields (validateEnvelopeAt_eq_ok.mp hvalid).2.2.1
  exact ⟨hraw, hfields.1, hfields.2.1, hfields.2.2.1⟩

section DeliverySteps

variable {move : HandlerMove} {world after : World} {delivery delivery' : Delivery}

theorem owes_sink {durable : Bool} (h : delivery.Owes durable) (handler : Handler) :
    (delivery.sink handler).Owes durable := by
  cases durable with
  | false => exact h
  | true => exact ⟨h.1, rfl⟩

/-- A step makes the calls that are due where the handling stands. -/
theorem ledger_step (h : delivery.Ledger)
    (hmoves : delivery.Moves go pg cfg move world after delivery') : delivery'.Ledger := by
  cases hmoves with
  | stay => exact h
  | refuse hh | enter hh | start hh | overflow hh _ | reject hh _ | recordFailed hh _
  | encode hh | unconfigured hh =>
      simpa [Delivery.Ledger, hh, Delivery.goto, Delivery.Owes] using h
  | accept hh _ hnext =>
      rcases hnext with rfl | rfl <;>
        simpa [Delivery.Ledger, hh, Delivery.goto, Delivery.Owes] using h
  | publishFailed hh _ hnext =>
      rcases hnext with ⟨_, rfl⟩ | ⟨_, rfl⟩ <;>
        simpa [Delivery.Ledger, hh, Delivery.goto, Delivery.Owes] using h
  | buryFailed hh _ hnext =>
      rcases hnext with rfl | ⟨_, rfl⟩ <;>
        simpa [Delivery.Ledger, hh, Delivery.goto, Delivery.Owes] using h
  | record hh _ => simpa [Delivery.Ledger, hh, Delivery.sink] using h
  | ackRecorded hh =>
      simp only [Delivery.Ledger, hh] at h
      simp [Delivery.Ledger, Delivery.ack, Delivery.Owes, h.1, h.2]
  | publish hh _ =>
      simp only [Delivery.Ledger, hh] at h
      exact ⟨owes_sink h _, rfl⟩
  | bury hh =>
      simp only [Delivery.Ledger, hh] at h
      exact ⟨owes_sink h _, rfl⟩
  | ackSunk hh =>
      rcases hh with hh | hh <;>
      · simp only [Delivery.Ledger, hh] at h
        exact Or.inl ⟨by simpa [Delivery.ack, Delivery.Owes] using h.1, h.2⟩
  | finish hh =>
      rcases hh with hh | hh <;>
      · simp only [Delivery.Ledger, hh] at h
        exact Or.inl h.1
  | @fail durable hh =>
      simp only [Delivery.Ledger, hh] at h
      cases durable with
      | true => exact Or.inl h
      | false => exact Or.inr ⟨h, by simp⟩

/-- What the handler holds still belongs to the message. -/
theorem data_step (h : delivery.Data go)
    (hmoves : delivery.Moves go pg cfg move world after delivery') : delivery'.Data go := by
  cases hmoves with
  | stay => exact h
  | refuse _ | enter _ | start _ | overflow _ _ | reject _ _ | publish _ _ | unconfigured _
  | bury _ | ackSunk _ | finish _ | fail _ => trivial
  | accept _ henv hnext =>
      have hparsed := parsed_of_parse henv
      rcases hnext with rfl | rfl
      · exact ⟨hparsed, rfl⟩
      · exact ⟨_, hparsed, rfl⟩
  | record hh hrecord =>
      simp only [Delivery.Data, hh] at h
      exact ⟨_, h.1, (restoreTelemetry_key hrecord).1⟩
  | recordFailed hh _ =>
      simp only [Delivery.Data, hh] at h
      exact ⟨_, h⟩
  | ackRecorded hh =>
      simp only [Delivery.Data, hh] at h
      exact h
  | publishFailed hh _ hnext =>
      simp only [Delivery.Data, hh] at h
      rcases hnext with ⟨_, rfl⟩ | ⟨_, rfl⟩
      · trivial
      · exact h
  | encode hh => exact ⟨_, rfl, rfl, rfl⟩
  | buryFailed hh _ hnext =>
      simp only [Delivery.Data, hh] at h
      rcases hnext with rfl | ⟨_, rfl⟩
      · trivial
      · exact h

/-- A sink that reports success keeps the message. -/
theorem kept_step (hdata : delivery.Data go) (h : delivery.sunk → world.Kept go delivery)
    (hmoves : delivery.Moves go pg cfg move world after delivery') :
    delivery'.sunk → after.Kept go delivery' := by
  have hgrows := grows_delivery hmoves
  have hsame : delivery.sunk → after.Kept go delivery := fun hsunk => kept_mono hgrows (h hsunk)
  cases hmoves with
  | record hh hrecord =>
      simp only [Delivery.Data, hh] at hdata
      exact fun _ => Or.inl ⟨_, hdata.1, Or.inl (restoreTelemetry_key hrecord).2⟩
  | @publish rec _ _ partition value time hh hvalue =>
      simp only [Delivery.Data, hh] at hdata
      obtain ⟨env, hparsed, hkey⟩ := hdata
      exact fun _ => Or.inl ⟨env, hparsed,
        Or.inr ⟨partition, _, mem_append world partition rec.deviceID value time, rec, hvalue,
          hkey⟩⟩
  | bury hh =>
      simp only [Delivery.Data, hh] at hdata
      obtain ⟨item, rfl, hcopy⟩ := hdata
      exact fun _ => Or.inr ⟨item, by simp [World.bury], hcopy⟩
  | _ => exact hsame

/-- A step in the handling of a delivery keeps its invariant. -/
theorem delivery_sound (h : delivery.Sound go world)
    (hmoves : delivery.Moves go pg cfg move world after delivery') : delivery'.Sound go after :=
  ⟨ledger_step h.ledger hmoves, data_step h.data hmoves, kept_step h.data h.kept hmoves⟩

end DeliverySteps

/-- A delivery nothing is called for stays sound while the world grows. -/
theorem sound_mono {world after : World} {delivery : Delivery} (hgrows : world.Grows after)
    (h : delivery.Sound go world) : delivery.Sound go after :=
  ⟨h.ledger, h.data, fun hsunk => kept_mono hgrows (h.kept hsunk)⟩

/-- A delivery is acknowledged at most once, and only after a sink has reported success. -/
theorem acks_of_ledger {delivery : Delivery} (h : delivery.Ledger) :
    delivery.acks = 0 ∨ (delivery.acks = 1 ∧ delivery.sunk) := by
  have howes : ∀ {durable}, delivery.Owes durable → delivery.acks = 0 ∨
      (delivery.acks = 1 ∧ delivery.sunk) := by
    intro durable h
    cases durable with
    | false => exact Or.inl h
    | true => exact Or.inr h
  unfold Delivery.Ledger at h
  cases hh : delivery.handler <;> simp only [hh] at h
  case arrived | refused | admitted | started | recording => exact Or.inl h
  case recorded => exact Or.inl h.1
  case publishing | deadLettering | burying | unburied => exact howes h
  case published | buried => exact howes h.1
  case finished => exact h.symm.imp And.left id
  case lost => exact h

/-- The end of the process keeps the invariant of a delivery. -/
theorem crash_sound {world : World} {delivery : Delivery} (h : delivery.Sound go world) :
    delivery.crash.Sound go world := by
  unfold Delivery.crash
  split
  · exact h
  · exact h
  · exact h
  · have hacks := acks_of_ledger h.ledger
    exact ⟨hacks, trivial, h.kept⟩

/-! ## The consumer -/

variable (go) in
/-- The consumer may pass a value: a dead letter holds it, or the row of its record is there. -/
def World.Settled (world : World) (value : Bytes) : Prop :=
  world.Holds value ∨
    ∃ rec, TelemetryRecord.unmarshal go value = .ok rec ∧ world.HasRow (telemetryKey rec)

/-- Every record of the topic carries its own address. -/
def World.Addressed (world : World) : Prop :=
  ∀ (partition offset : Nat) (msg : Message), (world.topic partition)[offset]? = some msg →
    msg.partition = partition ∧ msg.offset = offset

variable (go) in
/-- The invariant of the topic: what lies below the committed offset is settled. -/
structure World.Sound (world : World) : Prop where
  addressed : world.Addressed
  bounded : ∀ partition, world.committed partition ≤ (world.topic partition).length
  settled : ∀ (partition offset : Nat) (msg : Message),
    (world.topic partition)[offset]? = some msg → offset < world.committed partition →
    world.Settled go msg.value

/-- The message the consumer is at: the one at the committed offset of its partition, and nothing
else has been fetched since the last commit. -/
def Worker.InFlight (world : World) (worker : Worker) (msg : Message) : Prop :=
  ∃ partition offset : Nat, msg.partition = partition ∧ msg.offset = offset ∧
    (world.topic partition)[offset]? = some msg ∧ world.committed partition = offset ∧
    worker.position = Function.update world.committed partition (offset + 1)

variable (go) in
/-- The invariant of the consumer. -/
def Worker.Sound (world : World) (worker : Worker) : Prop :=
  match worker.consumer with
  | .idle => worker.position = world.committed
  | .fetched msg | .deadLettering msg _ _ => worker.InFlight world msg
  | .restoring msg rec => worker.InFlight world msg ∧
      ∃ rec', TelemetryRecord.unmarshal go msg.value = .ok rec' ∧
        telemetryKey rec = telemetryKey rec'
  | .sinking msg _ | .marking msg _ | .committing msg =>
      worker.InFlight world msg ∧ world.Settled go msg.value
  | .burying msg value _ => worker.InFlight world msg ∧
      ∃ item : DeadLetter, item.marshal = value ∧ item.valueBase64 = encode64 msg.value
  | .stopped => True

/-- What is settled stays settled. -/
theorem settled_mono {world after : World} {value : Bytes} (hgrows : world.Grows after)
    (h : world.Settled go value) : after.Settled go value := by
  rcases h with ⟨item, hitem, hvalue⟩ | ⟨rec, hrec, hrow⟩
  · exact Or.inl ⟨item, hgrows.dlq.subset hitem, hvalue⟩
  · exact Or.inr ⟨rec, hrec, hgrows.rows _ hrow⟩

/-- A record of a topic that grows stays where it is. -/
theorem getElem?_mono {world after : World} (hgrows : world.Grows after) {partition offset : Nat}
    {msg : Message} (h : (world.topic partition)[offset]? = some msg) :
    (after.topic partition)[offset]? = some msg := by
  obtain ⟨more, hmore⟩ := hgrows.topic partition
  have hlt : offset < (world.topic partition).length := (List.getElem?_eq_some_iff.mp h).1
  rw [← hmore, List.getElem?_append_left hlt, h]

/-- The topic stays sound while the world grows and nothing is committed. -/
theorem world_sound_mono {world after : World} (h : world.Sound go) (hgrows : world.Grows after)
    (hcommitted : after.committed = world.committed) (haddressed : after.Addressed) :
    after.Sound go := by
  refine ⟨haddressed, fun partition => ?_, fun partition offset msg hmsg hlt => ?_⟩
  · rw [hcommitted]
    exact Nat.le_trans (h.bounded partition) (hgrows.topic partition).length_le
  · rw [hcommitted] at hlt
    obtain ⟨more, hmore⟩ := hgrows.topic partition
    rw [← hmore, List.getElem?_append_left (Nat.lt_of_lt_of_le hlt (h.bounded partition))] at hmsg
    exact settled_mono hgrows (h.settled _ _ _ hmsg hlt)

/-- A record appended carries its own address. -/
theorem addressed_append {world : World} (h : world.Addressed) (partition : Nat)
    (key value : Bytes) (time : Time) :
    (world.append cfg partition key value time).Addressed := by
  intro partition' offset msg hmsg
  by_cases hp : partition' = partition
  · subst hp
    simp only [World.append, Function.update_self] at hmsg
    rcases Nat.lt_trichotomy offset (world.topic partition').length with hlt | heq | hgt
    · rw [List.getElem?_append_left hlt] at hmsg
      exact h _ _ _ hmsg
    · subst heq
      simp only [List.getElem?_concat_length, Option.some.injEq] at hmsg
      subst hmsg
      exact ⟨rfl, rfl⟩
    · rw [List.getElem?_eq_none (by rw [List.length_append]; exact hgt)] at hmsg
      cases hmsg
  · simp only [World.append, Function.update_of_ne hp] at hmsg
    exact h _ _ _ hmsg

/-- Appending keeps the topic sound. -/
theorem world_sound_append {world : World} (h : world.Sound go) (partition : Nat)
    (key value : Bytes) (time : Time) : (world.append cfg partition key value time).Sound go :=
  world_sound_mono h (grows_append _ _ _ _ _) rfl
    (addressed_append h.addressed partition key value time)

/-- Committing a message that is settled keeps the topic sound. -/
theorem world_sound_commit {world : World} {worker : Worker} {msg : Message} (h : world.Sound go)
    (hflight : worker.InFlight world msg) (hsettled : world.Settled go msg.value) :
    (world.commit msg).Sound go := by
  obtain ⟨partition, offset, hpartition, hoffset, hmsg, hcommitted, _⟩ := hflight
  have hpartition' : msg.partition.toNat = partition := by simp [hpartition]
  have hoffset' : msg.offset.toNat = offset := by simp [hoffset]
  refine ⟨h.addressed, fun other => ?_, fun other offset' msg' hmsg' hlt => ?_⟩
  · by_cases hother : other = partition
    · subst hother
      have hlength : offset < (world.topic other).length := (List.getElem?_eq_some_iff.mp hmsg).1
      simp only [World.commit, hpartition', hoffset', Function.update_self]
      omega
    · simp only [World.commit, hpartition', Function.update_of_ne hother]
      exact h.bounded other
  · by_cases hother : other = partition
    · subst hother
      simp only [World.commit, hpartition', hoffset', Function.update_self] at hlt hmsg'
      rcases Nat.lt_succ_iff_lt_or_eq.mp hlt with hlt | rfl
      · exact h.settled _ _ _ hmsg' (hcommitted ▸ hlt)
      · rw [hmsg] at hmsg'
        cases hmsg'
        exact hsettled
    · simp only [World.commit, hpartition', Function.update_of_ne hother] at hlt hmsg'
      exact h.settled _ _ _ hmsg' hlt

/-- The message the consumer is at stays where it is while others work. -/
theorem inFlight_mono {world after : World} {worker worker' : Worker} {msg : Message}
    (hgrows : world.Grows after) (hcommitted : after.committed = world.committed)
    (hposition : worker'.position = worker.position) (h : worker.InFlight world msg) :
    worker'.InFlight after msg := by
  obtain ⟨partition, offset, hpartition, hoffset, hmsg, hlast, hnext⟩ := h
  refine ⟨partition, offset, hpartition, hoffset, getElem?_mono hgrows hmsg, ?_, ?_⟩
  · rw [hcommitted, hlast]
  · rw [hposition, hnext, hcommitted]

/-- The consumer's invariant holds on while others work. -/
theorem worker_sound_mono {world after : World} {worker : Worker} (hgrows : world.Grows after)
    (hcommitted : after.committed = world.committed) (h : worker.Sound go world) :
    worker.Sound go after := by
  have hflight : ∀ {msg}, worker.InFlight world msg → worker.InFlight after msg :=
    inFlight_mono hgrows hcommitted rfl
  unfold Worker.Sound at h ⊢
  split at h
  · exact h.trans hcommitted.symm
  · exact hflight h
  · exact hflight h
  · exact ⟨hflight h.1, h.2⟩
  · exact ⟨hflight h.1, settled_mono hgrows h.2⟩
  · exact ⟨hflight h.1, settled_mono hgrows h.2⟩
  · exact ⟨hflight h.1, settled_mono hgrows h.2⟩
  · exact ⟨hflight h.1, h.2⟩
  · trivial

/-- The consumer fetches the message at the committed offset. -/
theorem inFlight_fetch {world : World} {worker : Worker} {partition : Nat} {msg : Message}
    (haddressed : world.Addressed) (h : worker.position = world.committed)
    (hmsg : (world.topic partition)[worker.position partition]? = some msg) :
    Worker.InFlight world
      ⟨.fetched msg, Function.update worker.position partition (worker.position partition + 1)⟩
      msg := by
  obtain ⟨hpartition, hoffset⟩ := haddressed _ _ _ hmsg
  exact ⟨partition, worker.position partition, hpartition, hoffset, hmsg, by rw [h], by rw [h]⟩

/-- A committed message is the last one fetched. -/
theorem position_commit {world : World} {worker : Worker} {msg : Message}
    (h : worker.InFlight world msg) : worker.position = (world.commit msg).committed := by
  obtain ⟨partition, offset, hpartition, hoffset, _, _, hnext⟩ := h
  simp [World.commit, hpartition, hoffset, hnext]

/-- A step of the consumer keeps its invariant and that of the topic. -/
theorem worker_sound {move : ConsumerMove} {world after : World} {worker worker' : Worker}
    (hworld : world.Sound go) (h : worker.Sound go world)
    (hmoves : worker.Moves go pg cfg move world after worker') :
    after.Sound go ∧ worker'.Sound go after := by
  have hgrows := grows_worker hmoves
  have hsound : after.topic = world.topic → after.committed = world.committed → after.Sound go :=
    fun htopic hcommitted => world_sound_mono hworld hgrows hcommitted
      (by rw [World.Addressed, htopic]; exact hworld.addressed)
  have hflight : after.committed = world.committed → ∀ {consumer msg}, worker.InFlight world msg →
      Worker.InFlight after { worker with consumer := consumer } msg :=
    fun hcommitted => inFlight_mono hgrows hcommitted rfl
  unfold Worker.Sound at h
  cases hmoves with
  | stay => exact ⟨hworld, h⟩
  | fetch hh hmsg =>
      simp only [hh] at h
      exact ⟨hworld, inFlight_fetch hworld.addressed h hmsg⟩
  | @decode msg rec hh hrec =>
      simp only [hh] at h
      refine ⟨hworld, h, rec, hrec, ?_⟩
      unfold receivedRecord
      split <;> rfl
  | decodeFailed hh =>
      simp only [hh] at h
      exact ⟨hworld, h⟩
  | @restore msg rec restored hh hrestore =>
      simp only [hh] at h
      obtain ⟨hcurrent, rec', hrec', hkey⟩ := h
      have hrow := (restoreTelemetry_key hrestore).2
      rw [hkey] at hrow
      refine ⟨hsound rfl rfl, ?_⟩
      rcases afterRestore_cases cfg msg restored with hnext | hnext <;>
        simp only [Worker.Sound, hnext] <;>
        exact ⟨hflight rfl hcurrent, Or.inr ⟨rec', hrec', hrow⟩⟩
  | restoreFailed hh _ =>
      simp only [hh] at h
      exact ⟨hsound rfl rfl, hflight rfl h.1⟩
  | sink hh _ =>
      simp only [hh] at h
      exact ⟨hworld, h⟩
  | sinkFailed hh =>
      simp only [hh] at h
      exact ⟨hworld, h.1⟩
  | mark hh hafter =>
      simp only [hh] at h
      rcases hafter with rfl | rfl
      · exact ⟨hworld, h⟩
      · exact ⟨hsound rfl rfl, hflight rfl h.1, settled_mono hgrows h.2⟩
  | encode hh =>
      simp only [hh] at h
      exact ⟨hworld, h, _, rfl, rfl⟩
  | bury hh =>
      simp only [hh] at h
      obtain ⟨hcurrent, item, rfl, hvalue⟩ := h
      exact ⟨hsound rfl rfl, hflight rfl hcurrent, Or.inl ⟨item, by simp [World.bury], hvalue⟩⟩
  | buryFailed hh hafter hnext =>
      simp only [hh] at h
      have hsame : after.topic = world.topic ∧ after.committed = world.committed := by
        rcases hafter with rfl | rfl <;> exact ⟨rfl, rfl⟩
      refine ⟨hsound hsame.1 hsame.2, ?_⟩
      rcases hnext with rfl | ⟨next, rfl⟩
      · trivial
      · exact ⟨hflight hsame.2 h.1, h.2⟩
  | commit hh hnext =>
      simp only [hh] at h
      refine ⟨world_sound_commit hworld h.1 h.2, ?_⟩
      rcases hnext with rfl | rfl
      · exact position_commit h.1
      · trivial
  | stop => exact ⟨hworld, trivial⟩
  | restart => exact ⟨hworld, rfl⟩

/-! ## The pipeline -/

variable (go) in
/-- The invariant of the pipeline. -/
structure Pipeline.Sound (sys : Pipeline) : Prop where
  world : sys.world.Sound go
  deliveries : ∀ delivery ∈ sys.deliveries, delivery.Sound go sys.world
  worker : sys.worker.Sound go sys.world

theorem initial_sound : Pipeline.initial.Sound go := by
  refine ⟨⟨?_, ?_, ?_⟩, ?_, rfl⟩
  · intro partition offset msg h
    simp [Pipeline.initial, World.initial] at h
  · intro partition
    exact Nat.zero_le _
  · intro partition offset msg h
    simp [Pipeline.initial, World.initial] at h
  · intro delivery h
    simp [Pipeline.initial] at h

/-- A change of the world by which nothing is committed keeps the topic sound. -/
def World.Carried (world after : World) : Prop :=
  (∀ go, world.Sound go → after.Sound go) ∧ after.committed = world.committed

theorem carried_refl (world : World) : world.Carried world := ⟨fun _ h => h, rfl⟩

theorem carried_db {world : World} {db : TelemetryDb}
    (hgrows : world.Grows { world with db := db }) :
    world.Carried { world with db := db } :=
  ⟨fun _ h => world_sound_mono h hgrows rfl h.addressed, rfl⟩

theorem carried_append (world : World) (partition : Nat) (key value : Bytes) (time : Time) :
    world.Carried (world.append cfg partition key value time) :=
  ⟨fun _ h => world_sound_append h partition key value time, rfl⟩

theorem carried_mayAppend {key value : Bytes} {world after : World}
    (h : MayAppend cfg key value world after) : world.Carried after := by
  rcases h with rfl | ⟨partition, time, rfl⟩
  · exact carried_refl _
  · exact carried_append _ _ _ _ _

theorem carried_bury (world : World) (value : Bytes) : world.Carried (world.bury value) :=
  ⟨fun _ h => world_sound_mono h (grows_bury _ _) rfl h.addressed, rfl⟩

/-- The handling of deliveries commits nothing. -/
theorem carried_delivery {move : HandlerMove} {world after : World} {delivery delivery' : Delivery}
    (h : delivery.Moves go pg cfg move world after delivery') : world.Carried after := by
  have hgrows := grows_delivery h
  cases h with
  | record _ _ => exact carried_db hgrows
  | recordFailed _ _ => exact carried_db hgrows
  | publish _ _ => exact carried_append _ _ _ _ _
  | publishFailed _ hafter _ =>
      rcases hafter with rfl | ⟨_, _, hafter⟩
      · exact carried_refl _
      · exact carried_mayAppend hafter
  | bury _ => exact carried_bury _ _
  | buryFailed _ hafter _ =>
      rcases hafter with rfl | rfl
      · exact carried_refl _
      · exact carried_bury _ _
  | _ => exact carried_refl _

/-- A step of the pipeline keeps its invariant. -/
theorem step_sound {action : Action} {sys after : Pipeline} (h : sys.Sound go)
    (hmoves : sys.Moves go pg cfg action after) : after.Sound go := by
  have hgrows := grows_step hmoves
  -- Whoever does not move sees the world grow.
  have hothers : ∀ delivery ∈ sys.deliveries, delivery.Sound go after.world :=
    fun delivery hdelivery => sound_mono hgrows (h.deliveries delivery hdelivery)
  have hcarried : sys.world.Carried after.world →
      after.world.Sound go ∧ sys.worker.Sound go after.world :=
    fun hworld => ⟨hworld.1 go h.world, worker_sound_mono hgrows hworld.2 h.worker⟩
  cases hmoves with
  | stay | stopBridge => exact ⟨h.world, h.deliveries, h.worker⟩
  | deliver =>
      refine ⟨h.world, fun delivery hdelivery => ?_, h.worker⟩
      rcases List.mem_append.mp hdelivery with hdelivery | hdelivery
      · exact h.deliveries delivery hdelivery
      · cases List.mem_singleton.mp hdelivery
        exact ⟨rfl, trivial, fun hsunk => by cases hsunk⟩
  | handle _ hindex hstep =>
      obtain ⟨hworld, hworker⟩ := hcarried (carried_delivery hstep)
      refine ⟨hworld, fun delivery hdelivery => ?_, hworker⟩
      rcases List.mem_or_eq_of_mem_set hdelivery with hdelivery | rfl
      · exact hothers delivery hdelivery
      · exact delivery_sound (h.deliveries _ (List.mem_of_getElem? hindex)) hstep
  | restartBridge =>
      refine ⟨h.world, fun delivery hdelivery => ?_, h.worker⟩
      obtain ⟨before, hbefore, rfl⟩ := List.mem_map.mp hdelivery
      exact crash_sound (h.deliveries before hbefore)
  | consume hstep =>
      obtain ⟨hworld, hworker⟩ := worker_sound h.world h.worker hstep
      exact ⟨hworld, hothers, hworker⟩
  | ingest _ _ | record _ _ | compensate | registerDevice =>
      obtain ⟨hworld, hworker⟩ := hcarried (carried_db hgrows)
      exact ⟨hworld, hothers, hworker⟩
  | publish _ hafter _ =>
      rcases hafter with rfl | ⟨_, _, hafter⟩
      · exact ⟨h.world, h.deliveries, h.worker⟩
      · obtain ⟨hworld, hworker⟩ := hcarried (carried_mayAppend hafter)
        exact ⟨hworld, hothers, hworker⟩
  | replay _ _ =>
      obtain ⟨hworld, hworker⟩ := hcarried (carried_append _ _ _ _ _)
      exact ⟨hworld, hothers, hworker⟩

variable (go pg cfg) in
/-- Every state the pipeline reaches is sound. -/
theorem run_sound (actions : List Action) :
    (run (Pipeline.step go pg cfg) Pipeline.initial actions).Sound go :=
  run_invariant (Pipeline.Sound go) (fun sys action h => step_sound h (pipeline_step sys action))
    initial_sound actions

/-- What a sink has reported is kept where the claim looks for it: below the committed offset the
consumer has handed it on. -/
theorem keeps_of_kept {world : World} {delivery : Delivery} (hworld : world.Sound go)
    (h : world.Kept go delivery) : world.Keeps go delivery := by
  rcases h with ⟨env, hparsed, hrow | ⟨partition, msg, hmem, hcarries⟩⟩ | hcopy
  · exact Or.inl ⟨env, hparsed.1, hrow⟩
  · obtain ⟨offset, hmsg⟩ := List.getElem?_of_mem hmem
    rcases Nat.lt_or_ge offset (world.committed partition) with hlt | hge
    · rcases hworld.settled _ _ _ hmsg hlt with hholds | ⟨rec', hrec', hrow⟩
      · exact Or.inr (Or.inr (Or.inr ⟨env, msg.value, hparsed.1, hcarries, hholds⟩))
      · obtain ⟨rec, hvalue, hkey⟩ := hcarries
        obtain ⟨payload, rfl⟩ := TelemetryRecord.unmarshal_marshal hvalue hrec'
        refine Or.inl ⟨env, hparsed.1, ?_⟩
        have hsame : telemetryKey (rec.reread payload) = envelopeKey env := by
          simp only [telemetryKey, envelopeKey, Prod.mk.injEq] at hkey ⊢
          obtain ⟨hmsgID, htenant, hdevice⟩ := hkey
          simp only [TelemetryRecord.reread, hmsgID, htenant, hdevice]
          exact ⟨reread_of_valid hparsed.2.1, reread_of_valid hparsed.2.2.1,
            reread_of_valid hparsed.2.2.2⟩
        rw [← hsame]
        exact hrow
    · exact Or.inr (Or.inl ⟨env, partition, offset, msg, hparsed.1, hmsg, hge, hcarries⟩)
  · exact Or.inr (Or.inr (Or.inl hcopy))

/-- **No acknowledged telemetry is lost.** In every state the pipeline reaches, every delivery has
been acknowledged at most once; one that was acknowledged is kept by a row, by a record the
consumer has not passed, or by a dead letter; and one for which no sink has reported success is not
acknowledged, and `fail()` has been called for it when its handling has ended. -/
theorem acknowledged_telemetry_kept (go : GoRuntime) (pg : Postgres) (cfg : Config)
    (actions : List Action) (delivery : Delivery)
    (h : delivery ∈ (run (Pipeline.step go pg cfg) Pipeline.initial actions).deliveries) :
    delivery.acks ≤ 1 ∧
      (1 ≤ delivery.acks →
        (run (Pipeline.step go pg cfg) Pipeline.initial actions).world.Keeps go delivery) ∧
      (delivery.sunk = false →
        delivery.acks = 0 ∧ (delivery.handler = .finished → delivery.failed = true)) := by
  have hrun := run_sound go pg cfg actions
  have hdelivery := hrun.deliveries delivery h
  have hledger := hdelivery.ledger
  rcases acks_of_ledger hledger with hacks | ⟨hacks, hsunk⟩
  · refine ⟨by omega, fun hpos => by omega, fun hsunk => ⟨hacks, fun hfinished => ?_⟩⟩
    simp only [Delivery.Ledger, hfinished, hsunk, Bool.false_eq_true, and_false, false_or]
      at hledger
    exact hledger.2
  · refine ⟨by omega, fun _ => keeps_of_kept hrun.world (hdelivery.kept hsunk), fun hnot => ?_⟩
    rw [hsunk] at hnot
    cases hnot

/-- A bridge without inbox, for the runs below. -/
def plainConfig : Config := ⟨false, true, false, ascii "iot.telemetry"⟩

/-- A message of device `d` of tenant `t`. -/
def sampleTopic : Bytes := ascii "tenant/t/device/d/telemetry"

/-- A payload that is accepted. -/
def samplePayload : Bytes :=
  ascii ("\x7b\"msgId\":\"m\",\"tenantId\":\"t\",\"deviceId\":\"d\",\"ts\":1700000000000," ++
    "\"type\":\"temperature\",\"version\":\"v1\",\"payload\":\x7b\x7d\x7d")

/-- The time at which the message is handled. -/
def sampleTime : Time := 1700000000 * second

/-- The message is delivered, published and acknowledged. -/
def publishedRun : List Action :=
  [.deliver sampleTopic samplePayload, .handle 0 .enter, .handle 0 (.slot true),
    .handle 0 (.process sampleTime sampleTime), .handle 0 (.publish 0 sampleTime .acknowledged),
    .handle 0 .acknowledge]

/-- The delivery at the end of that run. -/
def publishedDelivery : Delivery := ⟨sampleTopic, samplePayload, .finished, 1, false, true⟩

theorem acknowledged_telemetry_kept_published :
    publishedDelivery ∈ (run (Pipeline.step .plain .plain plainConfig) .initial
        publishedRun).deliveries ∧
      1 ≤ publishedDelivery.acks ∧
      (run (Pipeline.step .plain .plain plainConfig) .initial publishedRun).world.Keeps .plain
        publishedDelivery := by
  have hmem : publishedDelivery ∈ (run (Pipeline.step .plain .plain plainConfig) .initial
      publishedRun).deliveries := by decide +kernel
  have hkept := acknowledged_telemetry_kept .plain .plain plainConfig publishedRun
    publishedDelivery hmem
  exact ⟨hmem, by decide, hkept.2.1 (by decide)⟩

/-- A delivery that arrives while the bridge is stopping ends in the callback: no sink has it, and
`fail()` is not called. -/
theorem refused_delivery_not_failed :
    ∃ delivery ∈ (run (Pipeline.step .plain .plain plainConfig) .initial
        [.stopBridge, .deliver sampleTopic samplePayload, .handle 0 .enter]).deliveries,
      delivery.handler = .refused ∧ delivery.sunk = false ∧ delivery.acks = 0 ∧
        delivery.failed = false := by
  decide +kernel

end Iot.Telemetry
