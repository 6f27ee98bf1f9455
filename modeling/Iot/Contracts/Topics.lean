import Iot.Contracts.Validation

/-!
# Device topics

`ParseDeviceTopic` accepts exactly the topics that `BuildDeviceTopic` builds
(`parseDeviceTopic_eq_some`), so a topic names one tenant, one device and one suffix.
-/

namespace Iot.Contracts

open Text

/-- Valid texts one after the other are valid. -/
theorem utf8Valid_append {left right : Bytes} (hleft : utf8Valid left)
    (hright : utf8Valid right) : utf8Valid (left ++ right) := by
  rw [utf8Valid, decode_append left right hleft, List.all_append, Bool.and_eq_true]
  exact ⟨hleft, hright⟩

/-- The texts a topic part may be. -/
theorem isValidTopicPart_iff {part : Bytes} :
    isValidTopicPart part ↔ part = trimSpace part ∧ 0x2F ∉ part ∧ 0x23 ∉ part ∧ 0x2B ∉ part ∧
      part ≠ [] ∧ part.length ≤ telemetryFieldMaxBytes ∧ utf8Valid part ∧
      (decode part).any Rune.isControl = false := by
  have hchars : containsAny part (ascii "/#+") = false ↔
      0x2F ∉ part ∧ 0x23 ∉ part ∧ 0x2B ∉ part := by
    have hset : ∀ b : UInt8, (ascii "/#+").contains b ↔ b = 0x2F ∨ b = 0x23 ∨ b = 0x2B := by
      intro b
      rw [show ascii "/#+" = [0x2F, 0x23, 0x2B] by decide]
      simp
    rw [containsAny, List.any_eq_false]
    constructor
    · intro h
      refine ⟨fun hb => h _ hb ((hset _).mpr ?_), fun hb => h _ hb ((hset _).mpr ?_),
        fun hb => h _ hb ((hset _).mpr ?_)⟩ <;> simp
    · rintro ⟨h1, h2, h3⟩ b hb hcontains
      rcases (hset b).mp hcontains with rfl | rfl | rfl
      · exact h1 hb
      · exact h2 hb
      · exact h3 hb
  have hfield : (validateStorageField "topic part" part telemetryFieldMaxBytes).isOk ↔
      validateStorageField "topic part" part telemetryFieldMaxBytes = .ok () := by
    cases validateStorageField "topic part" part telemetryFieldMaxBytes <;>
      simp [Except.isOk, Except.toBool]
  rw [isValidTopicPart, Bool.and_eq_true, Bool.and_eq_true, hfield, validateStorageField_eq_ok,
    beq_iff_eq, Bool.not_eq_true', hchars]
  tauto

/-- The topic of a device. -/
def deviceTopic (tenant device suffix : Bytes) : Bytes :=
  ascii "tenant/" ++ tenant ++ ascii "/device/" ++ device ++ ascii "/" ++ suffix

/-- A topic is its words with slashes between them. -/
theorem deviceTopic_eq_intercalate (tenant device suffix : Bytes) :
    deviceTopic tenant device suffix =
      [0x2F].intercalate [ascii "tenant", tenant, ascii "device", device, suffix] := by
  simp only [deviceTopic, List.intercalate, List.intersperse, List.flatten_cons, List.flatten_nil,
    List.append_nil]
  rw [show ascii "tenant/" = ascii "tenant" ++ [0x2F] by decide,
    show ascii "/device/" = [0x2F] ++ ascii "device" ++ [0x2F] by decide,
    show ascii "/" = [0x2F] by decide]
  simp only [List.append_assoc]

/-- Which topics `ParseDeviceTopic` accepts. -/
theorem parseDeviceTopic_eq_some {topic tenant device suffix : Bytes} :
    parseDeviceTopic topic = some ⟨tenant, device, suffix⟩ ↔
      isValidTenantID tenant ∧ isValidTopicPart device ∧ isValidTopicPart suffix ∧
        topic = deviceTopic tenant device suffix := by
  constructor
  · intro h
    have hjoin : [0x2F].intercalate (topic.splitOn 0x2F) = topic := List.intercalate_splitOn 0x2F
    unfold parseDeviceTopic at h
    split at h
    · next hsplit =>
      split_ifs at h with hwords hparts
      cases h
      simp only [Bool.and_eq_true] at hparts
      refine ⟨hparts.1.1, hparts.1.2, hparts.2, ?_⟩
      rw [← hjoin, hsplit, deviceTopic_eq_intercalate, hwords.1, hwords.2]
    · cases h
  · rintro ⟨htenant, hdevice, hsuffix, rfl⟩
    have hslash : ∀ {part : Bytes}, isValidTopicPart part → 0x2F ∉ part := fun hpart =>
      (isValidTopicPart_iff.mp hpart).2.1
    have htenant' : isValidTopicPart tenant := by
      rw [isValidTenantID, Bool.and_eq_true] at htenant
      exact htenant.1
    have hsplit : (deviceTopic tenant device suffix).splitOn 0x2F =
        [ascii "tenant", tenant, ascii "device", device, suffix] := by
      rw [deviceTopic_eq_intercalate]
      refine List.splitOn_intercalate 0x2F (fun word hword => ?_) (by simp)
      simp only [List.mem_cons, List.not_mem_nil, or_false] at hword
      rcases hword with rfl | rfl | rfl | rfl | rfl
      · decide
      · exact hslash htenant'
      · decide
      · exact hslash hdevice
      · exact hslash hsuffix
    rw [parseDeviceTopic, hsplit]
    simp [htenant, hdevice, hsuffix]

/-- Which topics `BuildDeviceTopic` builds. -/
theorem buildDeviceTopic_eq_ok {topic tenant device suffix : Bytes} :
    buildDeviceTopic tenant device suffix = .ok topic ↔
      parseDeviceTopic topic = some ⟨tenant, device, suffix⟩ := by
  rw [parseDeviceTopic_eq_some, buildDeviceTopic]
  split_ifs with hparts
  · simp only [Bool.or_eq_true, Bool.not_eq_true'] at hparts
    simp only [false_iff]
    rintro ⟨htenant, hdevice, hsuffix, _⟩
    simp [htenant, hdevice, hsuffix] at hparts
  · simp only [Bool.or_eq_true, Bool.not_eq_true', not_or, Bool.not_eq_false] at hparts
    simp only [Except.ok.injEq, hparts.1.1, hparts.1.2, hparts.2, true_and, deviceTopic]
    exact eq_comm

/-- A part of a topic is valid UTF-8. -/
theorem utf8Valid_of_isValidTopicPart {part : Bytes} (h : isValidTopicPart part) :
    utf8Valid part :=
  (isValidTopicPart_iff.mp h).2.2.2.2.2.2.1

/-- A topic that is accepted is valid UTF-8. -/
theorem utf8Valid_deviceTopic {topic : Bytes} {parsed : DeviceTopic}
    (h : parseDeviceTopic topic = some parsed) : utf8Valid topic := by
  obtain ⟨tenant, device, suffix⟩ := parsed
  obtain ⟨htenant, hdevice, hsuffix, rfl⟩ := parseDeviceTopic_eq_some.mp h
  rw [isValidTenantID, Bool.and_eq_true] at htenant
  have hvalid : ∀ {part : Bytes}, isValidTopicPart part → utf8Valid part :=
    utf8Valid_of_isValidTopicPart
  have hword : ∀ {word : Bytes}, word.all (· < 0x80) → utf8Valid word := fun hall =>
    utf8Valid_ascii (ascii_of_all hall)
  exact utf8Valid_append (utf8Valid_append (utf8Valid_append (utf8Valid_append (utf8Valid_append
    (hword (by decide)) (hvalid htenant.1)) (hword (by decide))) (hvalid hdevice))
    (hword (by decide))) (hvalid hsuffix)

end Iot.Contracts
