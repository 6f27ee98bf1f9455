import Iot.Contracts.Envelope

/-!
# What the checks accept

One lemma for each check of `internal/contracts` that later results rest on.
-/

namespace Iot.Contracts

open Text Json

/-- `ValidateStorageField` accepts valid UTF-8 without control characters, of bounded length. -/
theorem validateStorageField_eq_ok {name : String} {value : Bytes} {maxBytes : Nat} :
    validateStorageField name value maxBytes = .ok () ↔
      value ≠ [] ∧ value.length ≤ maxBytes ∧ utf8Valid value ∧
        (decode value).any Rune.isControl = false := by
  rw [validateStorageField]
  split_ifs with h hcontrol
  · simp only [false_iff]
    rintro ⟨hne, hlength, hvalid, _⟩
    rcases h with rfl | h | h
    · exact hne rfl
    · omega
    · exact h hvalid
  · simp [hcontrol]
  · simp only [not_or, not_not] at h
    simp only [true_iff]
    exact ⟨h.1, by omega, h.2.2, by simpa using hcontrol⟩

/-- `ValidateTelemetryFields` accepts an envelope when every field passes its own check. -/
theorem validateTelemetryFields_eq_ok {env : Envelope} :
    validateTelemetryFields env = .ok () ↔
      (∀ field ∈ telemetryFields env, validateStorageField field.1 field.2.1 field.2.2 = .ok ()) ∧
        isValidTenantID env.tenantID ∧ isValidTopicPart env.deviceID := by
  rw [validateTelemetryFields, bind_eq_ok]
  constructor
  · rintro ⟨_, hfields, hids⟩
    have hids := returnIf_eq_ok.mp hids
    simp only [Bool.or_eq_true, Bool.not_eq_true', not_or, Bool.not_eq_false] at hids
    exact ⟨forM_eq_ok.mp hfields, hids.1, hids.2⟩
  · rintro ⟨hfields, htenant, hdevice⟩
    refine ⟨(), forM_eq_ok.mpr hfields, returnIf_eq_ok.mpr ?_⟩
    simp [htenant, hdevice]

/-- What `ValidateEnvelope` accepts. -/
theorem validateEnvelopeAt_eq_ok {env : Envelope} {now : Time} :
    validateEnvelopeAt env now = .ok () ↔
      validateTelemetryPayload env.payload = .ok () ∧ 0 < env.ts ∧
        validateTelemetryFields env = .ok () ∧ minEnvelopeTsMillis ≤ env.ts ∧
        env.ts ≤ unixMilli (now + maxEnvelopeClockSkew) := by
  simp only [validateEnvelopeAt, bind_eq_ok, returnIf_eq_ok, not_or, Int.not_le, Int.not_lt]
  constructor
  · rintro ⟨_, hpayload, _, hts, _, hfields, hmin, hmax⟩
    exact ⟨hpayload, hts, hfields, hmin, hmax⟩
  · rintro ⟨hpayload, hts, hfields, hmin, hmax⟩
    exact ⟨(), hpayload, (), hts, (), hfields, hmin, hmax⟩

/-- What `ParseEnvelope` accepts. -/
theorem parseEnvelope_eq_ok {go : GoRuntime} {raw : Bytes} {now : Time} {env : Envelope} :
    parseEnvelope go raw now = .ok env ↔
      Envelope.unmarshal go raw = .ok env ∧ validateEnvelopeAt env now = .ok () := by
  rw [parseEnvelope]
  cases hraw : Envelope.unmarshal go raw with
  | error err => simp
  | ok env' =>
      simp only [bind_eq_ok, Except.ok.injEq]
      constructor
      · rintro ⟨_, hvalid, henv⟩
        cases henv
        exact ⟨rfl, hvalid⟩
      · rintro ⟨rfl, hvalid⟩
        exact ⟨(), hvalid, rfl⟩

/-- The fields of a validated envelope are valid UTF-8. -/
theorem utf8Valid_of_fields {env : Envelope} (h : validateTelemetryFields env = .ok ()) :
    utf8Valid env.msgID ∧ utf8Valid env.tenantID ∧ utf8Valid env.deviceID ∧ utf8Valid env.type ∧
      utf8Valid env.version := by
  have hfields := (validateTelemetryFields_eq_ok.mp h).1
  simp only [telemetryFields, List.forall_mem_cons, validateStorageField_eq_ok] at hfields
  obtain ⟨hmsg, htenant, hdevice, htype, hversion, _⟩ := hfields
  exact ⟨hmsg.2.2.1, htenant.2.2.1, hdevice.2.2.1, htype.2.2.1, hversion.2.2.1⟩

end Iot.Contracts
