import Iot.Json.Roundtrip
import Iot.Platform.DeadLetter

/-!
# Records survive Kafka

What `json.Unmarshal` reads from the JSON of a telemetry record or of a dead letter. In the model
reading can fail for a record that was written, when an integer has more than 64 bits, so the
results say when it is read and as what (`unmarshal_marshal_eq`). The receive time of a telemetry
record may be at any offset of whole minutes.
-/

namespace Iot.Platform

open Text Json Contracts

variable {go : GoRuntime}

/-- `json.Unmarshal` of the text of an object. -/
theorem unmarshal_object {α : Type} {limit : Nat} {members : List (String × List Tok)}
    (h : WritableMembers limit members) (fields : List (RecordField α)) (typeName : String)
    (zero : α) :
    unmarshal go fields typeName zero (Json.text (object members)) =
      if isDocument maxNestingDepth (object members) then
        match storeMembers (foldJSONField go) fields none (readMembers members) zero none with
        | .ok (record, none) => .ok record
        | .ok (_, some message) => .error ⟨message, []⟩
        | .error message => .error ⟨message, []⟩
      else .error ⟨go.syntaxText (Json.text (object members)), []⟩ := by
  rw [unmarshal, parse_text (writable_object h)]
  by_cases hdocument : isDocument maxNestingDepth (object members)
  · simp only [hdocument, if_true, decodeObject_object h]
    rcases storeMembers (foldJSONField go) fields none (readMembers members) zero none with
      message | ⟨record, _ | message⟩ <;> rfl
  · simp only [hdocument]
    rfl

/-! ## Telemetry records -/

namespace TelemetryRecord

/-- The members of a telemetry record whose payload and time can be written. -/
def members (rec : TelemetryRecord) (payload receivedAt : List Tok) : List (String × List Tok) :=
  [("msgId", strTok rec.msgID), ("tenantId", strTok rec.tenantID),
    ("deviceId", strTok rec.deviceID), ("ts", intTok rec.ts), ("type", strTok rec.type),
    ("version", strTok rec.version), ("payload", payload), ("receivedAt", receivedAt)]

/-- A record as it is read back, with the text of its payload. -/
def reread (rec : TelemetryRecord) (payload : Bytes) : TelemetryRecord where
  msgID := Json.reread rec.msgID
  tenantID := Json.reread rec.tenantID
  deviceID := Json.reread rec.deviceID
  ts := rec.ts
  type := Json.reread rec.type
  version := Json.reread rec.version
  payload := payload
  tdengineWritten := false
  receivedAt := rec.receivedAt

/-- The JSON of a telemetry record is the text of an object of its members. -/
theorem marshalAt_eq_ok {offset : Int} {rec : TelemetryRecord} {value : Bytes} :
    rec.marshalAt go offset = .ok value ↔
      ∃ payload receivedAt, rawToks 1 rec.payload = some payload ∧
      zonedValue offset rec.receivedAt = .ok receivedAt ∧
      value = Json.text (object (rec.members payload receivedAt)) := by
  have hraw : ∀ {payload}, rawValue go 1 rec.payload = .ok payload ↔
      rawToks 1 rec.payload = some payload := by
    intro payload
    unfold rawValue
    cases rawToks 1 rec.payload <;> simp
  have htoks : ∀ {toks}, rec.toksAt go offset = .ok toks ↔ ∃ payload,
      rawToks 1 rec.payload = some payload ∧ ∃ receivedAt,
      zonedValue offset rec.receivedAt = .ok receivedAt ∧
      object (rec.members payload receivedAt) = toks := by
    intro toks
    simp only [toksAt, bind_eq_ok, hraw, pure, Except.pure, Except.ok.injEq]
    rfl
  rw [marshalAt]
  constructor
  · intro h
    cases hrec : rec.toksAt go offset with
    | error err => simp [hrec, Except.map] at h
    | ok toks =>
        obtain ⟨payload, hpayload, receivedAt, htime, rfl⟩ := htoks.mp hrec
        rw [hrec] at h
        cases h
        exact ⟨payload, receivedAt, hpayload, htime, rfl⟩
  · rintro ⟨payload, receivedAt, hpayload, htime, rfl⟩
    rw [htoks.mpr ⟨payload, hpayload, receivedAt, htime, rfl⟩]
    rfl

/-- The members of a telemetry record can be written inside an object. -/
theorem writable_members {offset : Int} {rec : TelemetryRecord} {payload receivedAt : List Tok}
    (hpayload : rawToks 1 rec.payload = some payload)
    (htime : zonedValue offset rec.receivedAt = .ok receivedAt) :
    WritableMembers (maxNestingDepth - 1) (rec.members payload receivedAt) := by
  obtain ⟨s, hs, _, rfl⟩ := zonedValue_eq_ok.mp htime
  exact writableMembers_cons (by decide) (writable_strTok _) <|
    writableMembers_cons (by decide) (writable_strTok _) <|
    writableMembers_cons (by decide) (writable_strTok _) <|
    writableMembers_cons (by decide) (writable_intTok _) <|
    writableMembers_cons (by decide) (writable_strTok _) <|
    writableMembers_cons (by decide) (writable_strTok _) <|
    writableMembers_cons (by decide) (writable_rawToks hpayload) <|
    writableMembers_cons (by decide) (writable_plainTok (rfc3339NanoAt_plain hs))
      writableMembers_nil

/-- Storing the members of a record: an event time of more than 64 bits is an error. -/
theorem store_members {offset : Int} (hoffset : offset % 60 = 0) {rec : TelemetryRecord}
    {payload receivedAt : List Tok} (htime : zonedValue offset rec.receivedAt = .ok receivedAt) :
    storeMembers (foldJSONField go) (fields go) none
        (readMembers (rec.members payload receivedAt)) zero none =
      if isInt64 rec.ts then .ok (rec.reread (Json.text payload), none)
      else .ok ({ rec.reread (Json.text payload) with ts := 0 },
        some (typeError (ascii "number " ++ decimal rec.ts) "TelemetryRecord.ts" "int64")) := by
  obtain ⟨s, hs, hday, rfl⟩ := zonedValue_eq_ok.mp htime
  have hparse : parseRFC3339 s = some rec.receivedAt := by
    rw [parseRFC3339, parseZoned_rfc3339NanoAt hoffset hday hs, Option.map_some]
  rw [members, storeMembers_str "msgId" rfl, storeMembers_str "tenantId" rfl,
    storeMembers_str "deviceId" rfl, storeMembers_int "ts" rfl]
  have hrest : ∀ record saved, storeMembers (foldJSONField go) (fields go) none
      (readMembers [("type", strTok rec.type), ("version", strTok rec.version),
        ("payload", payload), ("receivedAt", plainTok s)]) record saved =
      .ok ({ record with
        type := Json.reread rec.type
        version := Json.reread rec.version
        payload := Json.text payload
        receivedAt := rec.receivedAt }, saved) := by
    intro record saved
    rw [storeMembers_str "type" rfl, storeMembers_str "version" rfl,
      storeMembers_raw "payload" rfl, storeMembers_time "receivedAt" hparse rfl]
    rfl
  rw [hrest, hrest]
  rfl

/-- What is read from the JSON of a record, and when it is read at all. -/
theorem unmarshal_marshal_eq {offset : Int} (hoffset : offset % 60 = 0) {rec : TelemetryRecord}
    {payload receivedAt : List Tok} (hpayload : rawToks 1 rec.payload = some payload)
    (htime : zonedValue offset rec.receivedAt = .ok receivedAt) {rec' : TelemetryRecord} :
    unmarshal go (Json.text (object (rec.members payload receivedAt))) = .ok rec' ↔
      isInt64 rec.ts ∧ rec' = rec.reread (Json.text payload) := by
  have hmembers := writable_members hpayload htime
  -- the payload was written one level below the limit
  have hdocument : isDocument maxNestingDepth (object (rec.members payload receivedAt)) :=
    (writable_object hmembers).document
  rw [unmarshal, unmarshal_object hmembers, if_pos hdocument, store_members hoffset htime]
  by_cases hts : isInt64 rec.ts
  · simp [hts, eq_comm]
  · simp [hts]

/-- The fields of a record that is read are those of the record written. -/
theorem unmarshal_marshalAt {offset : Int} (hoffset : offset % 60 = 0)
    {rec rec' : TelemetryRecord} {value : Bytes} (h : rec.marshalAt go offset = .ok value)
    (h' : unmarshal go value = .ok rec') : ∃ payload, rec' = rec.reread payload := by
  obtain ⟨payload, receivedAt, hpayload, htime, rfl⟩ := marshalAt_eq_ok.mp h
  exact ⟨_, ((unmarshal_marshal_eq hoffset hpayload htime).mp h').2⟩

/-- The same for a record whose receive time is in UTC. -/
theorem unmarshal_marshal {rec rec' : TelemetryRecord} {value : Bytes}
    (h : rec.marshal go = .ok value) (h' : unmarshal go value = .ok rec') :
    ∃ payload, rec' = rec.reread payload := unmarshal_marshalAt rfl h h'

end TelemetryRecord

/-! ## Dead letters -/

namespace DeadLetter

/-- A dead letter as it is read back. -/
def reread (item : DeadLetter) : DeadLetter where
  sourceTopic := Json.reread item.sourceTopic
  sourcePartition := item.sourcePartition
  sourceOffset := item.sourceOffset
  key := Json.reread item.key
  valueBase64 := Json.reread item.valueBase64
  stage := Json.reread item.stage
  error := Json.reread item.error
  occurredAt := Json.reread item.occurredAt

/-- The members of a dead letter can be written. -/
theorem writable_members (item : DeadLetter) (limit : Nat) :
    WritableMembers limit item.members := by
  have hrest : WritableMembers limit
      [("valueBase64", strTok item.valueBase64), ("stage", strTok item.stage),
        ("error", strTok item.error), ("occurredAt", strTok item.occurredAt)] :=
    writableMembers_cons (by decide) (writable_strTok _) <|
    writableMembers_cons (by decide) (writable_strTok _) <|
    writableMembers_cons (by decide) (writable_strTok _) <|
    writableMembers_cons (by decide) (writable_strTok _) writableMembers_nil
  rw [members, List.append_assoc]
  refine writableMembers_cons (by decide) (writable_strTok _) <|
    writableMembers_cons (by decide) (writable_intTok _) <|
    writableMembers_cons (by decide) (writable_intTok _) ?_
  split_ifs
  · exact hrest
  · exact writableMembers_cons (by decide) (writable_strTok _) hrest

/-- Storing the members of a dead letter: a partition or an offset of more than 64 bits is an
error. -/
theorem store_members (item : DeadLetter) :
    ∃ record saved,
      storeMembers (foldJSONField go) fields none (readMembers item.members) zero none =
        .ok (record, saved) ∧
      (saved = none ↔ isInt64 item.sourcePartition ∧ isInt64 item.sourceOffset) ∧
      (saved = none → record = item.reread) := by
  have hrest : ∀ record saved, storeMembers (foldJSONField go) fields none
      (readMembers [("valueBase64", strTok item.valueBase64), ("stage", strTok item.stage),
        ("error", strTok item.error), ("occurredAt", strTok item.occurredAt)]) record saved =
      .ok ({ record with
        valueBase64 := Json.reread item.valueBase64
        stage := Json.reread item.stage
        error := Json.reread item.error
        occurredAt := Json.reread item.occurredAt }, saved) := by
    intro record saved
    rw [storeMembers_str "valueBase64" rfl, storeMembers_str "stage" rfl,
      storeMembers_str "error" rfl, storeMembers_str "occurredAt" rfl]
    rfl
  -- the key is a member only when there is one, and is stored as it is otherwise
  have hkey : ∀ record : DeadLetter, ∀ saved, record.key = [] →
      storeMembers (foldJSONField go) fields none
        (readMembers ((if item.key = [] then [] else [("key", strTok item.key)]) ++
          [("valueBase64", strTok item.valueBase64), ("stage", strTok item.stage),
            ("error", strTok item.error), ("occurredAt", strTok item.occurredAt)])) record saved =
      .ok ({ record with
        key := Json.reread item.key
        valueBase64 := Json.reread item.valueBase64
        stage := Json.reread item.stage
        error := Json.reread item.error
        occurredAt := Json.reread item.occurredAt }, saved) := by
    intro record saved hrecord
    split_ifs with hempty
    · have hnone : Json.reread item.key = record.key := by
        rw [hempty, hrecord]
        rfl
      rw [List.nil_append, hrest, hnone]
    · rw [List.cons_append, List.nil_append, storeMembers_str "key" rfl, hrest]
  rw [members, List.append_assoc, List.cons_append, storeMembers_str "sourceTopic" rfl,
    List.cons_append, storeMembers_int "sourcePartition" rfl, List.cons_append, List.nil_append,
    storeMembers_int "sourceOffset" rfl, storeMembers_int "sourceOffset" rfl]
  by_cases hpartition : isInt64 item.sourcePartition
  · by_cases hoffset : isInt64 item.sourceOffset
    · rw [if_pos hpartition, if_pos hoffset, hkey _ _ rfl]
      exact ⟨_, _, rfl, by simp [hpartition, hoffset], fun _ => rfl⟩
    · rw [if_pos hpartition, if_neg hoffset, hkey _ _ rfl]
      exact ⟨_, _, rfl, by simp [hoffset], by simp⟩
  · by_cases hoffset : isInt64 item.sourceOffset
    · rw [if_neg hpartition, if_pos hoffset, hkey _ _ rfl]
      exact ⟨_, _, rfl, by simp [hpartition], by simp⟩
    · rw [if_neg hpartition, if_neg hoffset, hkey _ _ rfl]
      exact ⟨_, _, rfl, by simp [hpartition], by simp⟩

/-- What is read from the JSON of a dead letter, and when it is read at all. -/
theorem unmarshal_marshal_eq {item item' : DeadLetter} :
    unmarshal go item.marshal = .ok item' ↔
      isInt64 item.sourcePartition ∧ isInt64 item.sourceOffset ∧ item' = item.reread := by
  have hdocument : isDocument maxNestingDepth (object item.members) :=
    isDocument_mono (writable_object (writable_members item 0)).document (by decide)
  obtain ⟨record, saved, hstore, hsaved, hrecord⟩ := @store_members go item
  rw [unmarshal, marshal, unmarshal_object (writable_members item 0), if_pos hdocument, hstore]
  cases saved with
  | none =>
      have hints := hsaved.mp rfl
      rw [hrecord rfl]
      simp [hints, eq_comm]
  | some message =>
      have hints : ¬ (isInt64 item.sourcePartition ∧ isInt64 item.sourceOffset) := by
        simpa using hsaved.not.mp (by simp)
      simp only [false_iff, reduceCtorEq]
      rintro ⟨hpartition, hoffset, _⟩
      exact hints ⟨hpartition, hoffset⟩

/-- What is read from the JSON of a dead letter, if anything is. -/
theorem unmarshal_marshal {item item' : DeadLetter} (h : unmarshal go item.marshal = .ok item') :
    item' = item.reread := (unmarshal_marshal_eq.mp h).2.2

/-- The value and the stage of a dead letter are read as they were written. -/
theorem reread_deadLetterOf (msg : Message) (stage : Stage) (cause : GoError) (now : Time) :
    (deadLetterOf msg stage cause now).reread.valueBase64 = encode64 msg.value ∧
      (deadLetterOf msg stage cause now).reread.stage = stage.text := by
  have hstage : ∀ b ∈ stage.text, b < 0x80 := ascii_of_all (by cases stage <;> decide)
  exact ⟨reread_of_valid (utf8Valid_ascii fun _ => encode64_ascii),
    reread_of_valid (utf8Valid_ascii hstage)⟩

end DeadLetter

end Iot.Platform
