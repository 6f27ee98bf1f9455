import Iot.Json.Messages
import Iot.Platform.Domain

/-!
# The texts of errors

A dead letter carries the text of the error that a message was refused with. The checks of the
platform report texts of their own, which are short. A decoding error may quote a number or a
timestamp of the message, so that its text is as long as the message has them
(`parseEnvelope_within`, `TelemetryRecord.unmarshal_within`, `Command.unmarshal_within`).
-/

namespace Iot.Platform

open Text Json Contracts

/-- The errors of a computation have texts of at most `n` bytes. -/
def ErrorsWithin {α : Type} (n : Nat) (result : Except GoError α) : Prop :=
  ∀ err, result = .error err → err.text.length ≤ n

/-! ## Computations -/

namespace ErrorsWithin

variable {α β : Type} {n m : Nat}

/-- A larger bound. -/
theorem mono {result : Except GoError α} (h : ErrorsWithin n result) (hle : n ≤ m) :
    ErrorsWithin m result := fun err herr => Nat.le_trans (h err herr) hle

/-- A value is no error. -/
theorem ok {value : α} : ErrorsWithin n (.ok value) := fun _ herr => (nomatch herr)

/-- One error. -/
theorem error {err : GoError} (h : err.text.length ≤ n) :
    ErrorsWithin n (.error err : Except GoError α) := by
  intro err' herr
  rw [← Except.error.inj herr]
  exact h

/-- A check. -/
theorem returnIf {condition : Prop} [Decidable condition] {err : GoError}
    (h : err.text.length ≤ n) :
    ErrorsWithin n (returnIf condition err) := by
  unfold Iot.returnIf
  split_ifs
  · exact error h
  · exact ok

/-- One computation after another. -/
theorem bind {first : Except GoError α} {next : α → Except GoError β} (h : ErrorsWithin n first)
    (hnext : ∀ value, ErrorsWithin n (next value)) : ErrorsWithin n (first >>= next) := by
  intro err herr
  cases first with
  | error cause =>
      obtain rfl : cause = err := Except.error.inj herr
      exact h _ rfl
  | ok value => exact hnext value err herr

/-- A loop of checks. -/
theorem forM {items : List α} {check : α → Except GoError Unit}
    (h : ∀ item ∈ items, ErrorsWithin n (check item)) : ErrorsWithin n (items.forM check) := by
  induction items with
  | nil => exact ok
  | cons item rest ih =>
      rw [List.forall_mem_cons] at h
      exact bind h.1 fun _ => ih h.2

/-- The value is changed and not the error. -/
theorem map {result : Except GoError α} {f : α → β} (h : ErrorsWithin n result) :
    ErrorsWithin n (result.map f) := by
  intro err herr
  cases result with
  | error cause =>
      cases herr
      exact h _ rfl
  | ok value => cases herr

end ErrorsWithin

/-! ## Checks -/

/-- The text of a wrapped error. -/
theorem length_wrap (err : GoError) (text : Bytes) :
    (err.wrap text).text.length = err.text.length + text.length + 2 := by
  have hcolon : (ascii ": ").length = 2 := by decide
  simp only [GoError.wrap, List.length_append, hcolon]
  omega

/-- What the token loop reports. -/
theorem chargeTokens_within (limit : Nat) (toks : List Tok) (used : Nat) :
    ErrorsWithin ((decimal limit).length + 60) (chargeTokens limit toks used) := by
  have htexts : errInvalidPayload.text.length = 15 ∧
      (ascii "numeric range exceeded").length = 22 ∧
      (ascii "expanded JSONB payload exceeds ").length = 31 ∧ (ascii " bytes").length = 6 := by
    decide
  have hcost : ∀ tok, ErrorsWithin 60 (tokenCost tok) := by
    intro tok
    unfold tokenCost
    split
    · dsimp only
      split_ifs
      · exact .error (by omega)
      · exact .ok
    · split
      · exact .error (by omega)
      · split_ifs
        · exact .error (by rw [length_wrap]; omega)
        · exact .ok
    · exact .ok
    · exact .ok
  induction toks generalizing used with
  | nil => exact .ok
  | cons tok rest ih =>
      rw [chargeTokens]
      refine .bind ((hcost tok).mono (by omega)) fun cost => ?_
      split_ifs
      · refine .error ?_
        rw [length_wrap]
        simp only [List.length_append]
        omega
      · exact ih _

/-- What `validateJSONBBudget` reports. -/
theorem validateJSONBBudget_within (raw : Bytes) (limit : Nat) :
    ErrorsWithin ((decimal limit).length + 60) (validateJSONBBudget raw limit) := by
  have htexts : errInvalidPayload.text.length = 15 ∧
      (ascii "JSONB payload exceeds ").length = 22 ∧ (ascii " bytes").length = 6 ∧
      (GoError.new "index out of range").text.length = 18 := by decide
  unfold validateJSONBBudget
  split_ifs
  · refine .error ?_
    rw [length_wrap]
    simp only [List.length_append]
    omega
  · exact .error (by omega)
  · split
    · exact .error (by omega)
    · split
      · exact .error (by omega)
      · exact .error (by omega)
      · exact chargeTokens_within _ _ _

/-- What `ValidateTelemetryPayload` reports. -/
theorem validateTelemetryPayload_within (raw : Bytes) :
    ErrorsWithin 128 (validateTelemetryPayload raw) := by
  have htexts : errInvalidEnvelope.text.length = 16 ∧ (ascii ": ").length = 2 ∧
      (ascii "payload is required and must be a JSON object").length = 45 ∧
      (decimal maxTelemetryPayloadBytes).length = 7 := by decide
  unfold validateTelemetryPayload
  split_ifs
  · exact .error (by rw [length_wrap]; omega)
  · split
    · exact .ok
    · rename_i err herr
      have hbudget := validateJSONBBudget_within raw maxTelemetryPayloadBytes err herr
      refine .error ?_
      simp only [GoError.join, List.length_append]
      omega

/-- What `ValidateStorageField` reports. -/
theorem validateStorageField_within (name : String) (value : Bytes) (maxBytes : Nat) :
    ErrorsWithin ((ascii name).length + (decimal maxBytes).length + 60)
      (validateStorageField name value maxBytes) := by
  have htexts : errInvalidEnvelope.text.length = 16 ∧ (ascii " must contain 1..").length = 17 ∧
      (ascii " UTF-8 bytes").length = 12 ∧ (ascii " contains control characters").length = 28 := by
    decide
  unfold validateStorageField
  split_ifs
  · refine .error ?_
    rw [length_wrap]
    simp only [List.length_append]
    omega
  · refine .error ?_
    rw [length_wrap, List.length_append]
    omega
  · exact .ok

/-- What the checks of an envelope report. -/
theorem validateEnvelopeAt_within (env : Envelope) (now : Time) :
    ErrorsWithin 128 (validateEnvelopeAt env now) := by
  have hshort : errInvalidEnvelope.text.length ≤ 128 ∧
      errEnvelopeTimestampOutOfRange.text.length ≤ 128 := by decide
  have hfields : ErrorsWithin 128 (validateTelemetryFields env) := by
    have hnames : ∀ field ∈ telemetryFields env,
        (ascii field.1).length + (decimal field.2.2).length ≤ 10 := by
      simp only [telemetryFields, List.forall_mem_cons, List.not_mem_nil, false_implies,
        implies_true, and_true]
      decide
    refine .bind (.forM fun field hfield => ?_) fun _ => .returnIf hshort.1
    have hname := hnames field hfield
    exact (validateStorageField_within _ _ _).mono (by omega)
  refine .bind (validateTelemetryPayload_within _) fun _ => ?_
  refine .bind (.returnIf hshort.1) fun _ => ?_
  exact .bind hfields fun _ => .returnIf hshort.2

/-! ## Decoding -/

/-- What the runtime reports is short: a syntax error has a text of its own, and an error about a
time quotes the literal twice, with up to four bytes for each. -/
structure TerseRuntime (go : GoRuntime) : Prop where
  syntaxText : ∀ raw, (go.syntaxText raw).length ≤ 1024
  timeText : ∀ literal, (go.timeText literal).length ≤ 8 * literal.length + 1024

/-- The longest text of an error that is looked at. -/
def maxCauseBytes : Nat := 32768

/-- The longest number. -/
def maxNumberBytes : Nat := 32000

/-- The longest timestamp, with its quotes. -/
def maxTimeBytes : Nat := 3900

/-- No number that is a member of the message itself is longer than `maxNumberBytes`. -/
def ShortNumbers (raw : Bytes) : Prop :=
  ∀ doc, parse raw = some doc → ∀ member ∈ members doc, ∀ space literal,
    member.value = [⟨space, .num literal⟩] → literal.length ≤ maxNumberBytes

/-- No text that is a member of the message itself is longer than `maxTimeBytes`. -/
def ShortTimes (raw : Bytes) : Prop :=
  ∀ doc, parse raw = some doc → ∀ member ∈ members doc, ∀ space items,
    member.value = [⟨space, .str items⟩] → (slice member.value).length ≤ maxTimeBytes

variable {go : GoRuntime} {raw : Bytes}

/-- What `json.Unmarshal` reports. -/
theorem unmarshal_within {α : Type} {n : Nat} {fields : List (RecordField α)} {typeName : String}
    {zero : α} (hgo : TerseRuntime go) (hmalformed : 1024 ≤ n)
    (htype : (ascii typeName).length + 52 ≤ n)
    (hfields : ∀ doc, parse raw = some doc →
      ∀ field ∈ fields, ∀ member ∈ members doc, field.Brief n member.value) :
    ErrorsWithin n (Contracts.unmarshal go fields typeName zero raw) := by
  unfold Contracts.unmarshal
  split
  · exact .error (Nat.le_trans (hgo.syntaxText raw) hmalformed)
  · rename_i doc hparse
    split
    · exact .ok
    · rename_i message hmessage
      exact .error (decodeObject_brief htype (hfields doc hparse) hmessage)

/-- What is reported for an envelope. -/
theorem Envelope.unmarshal_within (hgo : TerseRuntime go) (hnumbers : ShortNumbers raw) :
    ErrorsWithin 32200 (Envelope.unmarshal go raw) := by
  refine Platform.unmarshal_within hgo (by decide) (by decide) ?_
  intro doc hparse field hfield member hmember
  have hnumber := hnumbers doc hparse member hmember
  simp only [Envelope.fields, List.mem_cons, List.not_mem_nil, or_false] at hfield
  obtain rfl | rfl | rfl | rfl | rfl | rfl | rfl | rfl | rfl | rfl | rfl := hfield
  · exact brief_strField (by decide)
  · exact brief_strField (by decide)
  · exact brief_strField (by decide)
  · exact brief_intField (by decide) hnumber
  · exact brief_strField (by decide)
  · exact brief_strField (by decide)
  · exact brief_strField (by decide)
  · exact brief_strField (by decide)
  · exact brief_strField (by decide)
  · exact brief_intField (by decide) hnumber
  · exact brief_rawField

/-- What `ParseEnvelope` reports. -/
theorem parseEnvelope_within (hgo : TerseRuntime go) (hnumbers : ShortNumbers raw) (now : Time) :
    ErrorsWithin maxCauseBytes (parseEnvelope go raw now) := by
  have hwrap : errInvalidEnvelope.text.length = 16 := by decide
  unfold parseEnvelope
  split
  · rename_i err herr
    have htext := Envelope.unmarshal_within hgo hnumbers err herr
    refine .error ?_
    rw [length_wrap, maxCauseBytes]
    omega
  · exact .bind ((validateEnvelopeAt_within _ _).mono (by decide)) fun _ => .ok

/-- What is reported for a timestamp. -/
theorem length_timeText (hgo : TerseRuntime go) {literal : Bytes}
    (h : literal.length ≤ maxTimeBytes) :
    (go.timeText literal).length ≤ maxCauseBytes := by
  have htext := hgo.timeText literal
  rw [maxTimeBytes] at h
  rw [maxCauseBytes]
  omega

/-- What is reported for a telemetry record. -/
theorem TelemetryRecord.unmarshal_within (hgo : TerseRuntime go) (hnumbers : ShortNumbers raw)
    (htimes : ShortTimes raw) : ErrorsWithin maxCauseBytes (TelemetryRecord.unmarshal go raw) := by
  refine Platform.unmarshal_within hgo (by decide) (by decide) ?_
  intro doc hparse field hfield member hmember
  have hnumber := hnumbers doc hparse member hmember
  have htime := fun space items hvalue =>
    length_timeText hgo (htimes doc hparse member hmember space items hvalue)
  simp only [TelemetryRecord.fields, List.mem_cons, List.not_mem_nil, or_false] at hfield
  obtain rfl | rfl | rfl | rfl | rfl | rfl | rfl | rfl := hfield
  · exact brief_strField (by decide)
  · exact brief_strField (by decide)
  · exact brief_strField (by decide)
  · exact brief_intField (by decide) hnumber
  · exact brief_strField (by decide)
  · exact brief_strField (by decide)
  · exact brief_rawField
  · exact brief_timeField (by decide) htime

/-- What is reported for a command. -/
theorem Command.unmarshal_within (hgo : TerseRuntime go) (hnumbers : ShortNumbers raw)
    (htimes : ShortTimes raw) : ErrorsWithin maxCauseBytes (Command.unmarshal go raw) := by
  refine Platform.unmarshal_within hgo (by decide) (by decide) ?_
  intro doc hparse field hfield member hmember
  have hnumber := hnumbers doc hparse member hmember
  have htime := fun space items hvalue =>
    length_timeText hgo (htimes doc hparse member hmember space items hvalue)
  have hresult : ∀ field ∈ resultFields, ∀ inner ∈ Json.members member.value,
      field.Brief maxCauseBytes inner.value := by
    intro field hfield inner _
    simp only [resultFields, List.mem_cons, List.not_mem_nil, or_false] at hfield
    obtain rfl | rfl | rfl := hfield
    · exact brief_strField (by decide)
    · exact brief_strField (by decide)
    · exact brief_rawField
  simp only [Command.fields, List.mem_cons, List.not_mem_nil, or_false] at hfield
  obtain rfl | rfl | rfl | rfl | rfl | rfl | rfl | rfl | rfl | rfl := hfield
  · exact brief_strField (by decide)
  · exact brief_strField (by decide)
  · exact brief_strField (by decide)
  · exact brief_strField (by decide)
  · exact brief_rawField
  · exact brief_timeField (by decide) htime
  · exact brief_timeField (by decide) htime
  · exact brief_intField (by decide) hnumber
  · exact brief_timeField (by decide) htime
  · exact brief_pointerField (by decide) hresult

/-! ## Encoding -/

/-- What is reported for a payload. -/
theorem rawValue_within (hgo : TerseRuntime go) (depth : Nat) (raw : Bytes) :
    ErrorsWithin maxCauseBytes (rawValue go depth raw) := by
  have htext := hgo.syntaxText raw
  have hlabel :
      (ascii "json: error calling MarshalJSON for type json.RawMessage: ").length ≤ 64 := by
    decide
  unfold rawValue
  split
  · exact .ok
  · refine .error ?_
    rw [List.length_append, maxCauseBytes]
    omega

/-- What is reported for a time. -/
theorem timeValue_within (t : Time) : ErrorsWithin maxCauseBytes (timeValue t) := by
  unfold timeValue
  split
  · exact .ok
  · exact .error (by decide)

/-- What is reported for a telemetry record that cannot be written. -/
theorem TelemetryRecord.marshal_within (hgo : TerseRuntime go) (rec : TelemetryRecord) :
    ErrorsWithin maxCauseBytes (rec.marshal go) := by
  refine .map (.bind (rawValue_within hgo 1 rec.payload) fun payload => ?_)
  rw [zonedValue_zero]
  exact .bind (timeValue_within _) fun _ => .ok

end Iot.Platform
