import Iot.Contracts.Topics

/-!
# Device identities

The texts that stand for a device: its topics (`Contracts.Topics`), its MQTT user name (`topic.go`)
and its key in the memory store (`memory_store.go`). A tenant has no colon and no part has a slash,
so each text can be taken apart again in one way only (`device_identity_encodings`).
-/

namespace Iot.Contracts

open Text

/-- `BuildDeviceUsername`. -/
def buildDeviceUsername (tenant device : Bytes) : Except GoError Bytes :=
  if !isValidTenantID tenant || !isValidTopicPart device then .error errInvalidTopicPart
  else .ok (tenant ++ ascii ":" ++ device)

/-- `ParseDeviceUsername`. -/
def parseDeviceUsername (username : Bytes) : Option (Bytes × Bytes) :=
  let (tenant, device, ok) := cut username 0x3A
  if !ok || !isValidTenantID tenant || !isValidTopicPart device then none
  else some (tenant, device)

/-- `deviceKey`. -/
def deviceKey (tenant device : Bytes) : Bytes := tenant ++ ascii ":" ++ device

/-- A text is cut at the first separator. -/
theorem cut_append {left right : Bytes} {separator : UInt8} (h : separator ∉ left) :
    cut (left ++ separator :: right) separator = (left, right, true) := by
  have hleft : ∀ b ∈ left, (b ≠ separator : Bool) = true := by
    intro b hb
    simpa using fun heq : b = separator => h (heq ▸ hb)
  simp only [cut, List.takeWhile_append_of_pos hleft, List.dropWhile_append_of_pos hleft]
  simp

/-- A text that has the separator is what the cut returns, put together again. -/
theorem eq_of_cut {text left right : Bytes} {separator : UInt8}
    (h : cut text separator = (left, right, true)) : text = left ++ separator :: right := by
  simp only [cut, Prod.mk.injEq] at h
  obtain ⟨rfl, rfl, hcontains⟩ := h
  have hmem : separator ∈ text := List.contains_iff_mem.mp hcontains
  have hdrop : ∃ rest, text.dropWhile (· ≠ separator) = separator :: rest := by
    induction text with
    | nil => cases hmem
    | cons b rest ih =>
        by_cases hb : b = separator
        · exact ⟨rest, by simp [hb]⟩
        · have hrest := (List.mem_cons.mp hmem).resolve_left fun heq => hb heq.symm
          obtain ⟨tail, htail⟩ := ih (List.contains_iff_mem.mpr hrest) hrest
          exact ⟨tail, by simpa [hb] using htail⟩
  obtain ⟨rest, hrest⟩ := hdrop
  have happend := List.takeWhile_append_dropWhile (p := (· ≠ separator)) (l := text)
  rw [hrest] at happend ⊢
  exact happend.symm

/-- The parts of a valid identity. -/
theorem isValidTenantID_iff {tenant : Bytes} :
    isValidTenantID tenant ↔ isValidTopicPart tenant ∧ 0x3A ∉ tenant := by
  rw [isValidTenantID, Bool.and_eq_true, Bool.not_eq_true', List.contains_eq_mem,
    decide_eq_false_iff_not]

/-- Which user names `ParseDeviceUsername` accepts. -/
theorem parseDeviceUsername_eq_some {username tenant device : Bytes} :
    parseDeviceUsername username = some (tenant, device) ↔
      isValidTenantID tenant ∧ isValidTopicPart device ∧ username = deviceKey tenant device := by
  have hcolon : deviceKey tenant device = tenant ++ 0x3A :: device := by
    simp [deviceKey, show ascii ":" = [0x3A] from rfl]
  constructor
  · intro h
    rw [parseDeviceUsername] at h
    rcases hcut : cut username 0x3A with ⟨left, right, found⟩
    simp only [hcut] at h
    split_ifs at h with hvalid
    cases h
    simp only [Bool.or_eq_true, Bool.not_eq_true', not_or, Bool.not_eq_false] at hvalid
    obtain ⟨⟨hfound, htenant⟩, hdevice⟩ := hvalid
    subst hfound
    exact ⟨htenant, hdevice, by rw [hcolon, eq_of_cut hcut]⟩
  · rintro ⟨htenant, hdevice, rfl⟩
    rw [parseDeviceUsername, hcolon, cut_append (isValidTenantID_iff.mp htenant).2]
    simp [htenant, hdevice]

/-- Which user names `BuildDeviceUsername` builds. -/
theorem buildDeviceUsername_eq_ok {username tenant device : Bytes} :
    buildDeviceUsername tenant device = .ok username ↔
      parseDeviceUsername username = some (tenant, device) := by
  rw [parseDeviceUsername_eq_some, buildDeviceUsername]
  split_ifs with hvalid
  · simp only [Bool.or_eq_true, Bool.not_eq_true'] at hvalid
    simp only [false_iff]
    rintro ⟨htenant, hdevice, _⟩
    simp [htenant, hdevice] at hvalid
  · simp only [Bool.or_eq_true, Bool.not_eq_true', not_or, Bool.not_eq_false] at hvalid
    simp only [Except.ok.injEq, hvalid.1, hvalid.2, true_and, deviceKey]
    exact eq_comm

/-- Topics: parsing accepts exactly what building produces, and each undoes the other. User names:
the same. Two devices never share a topic, a user name or a key of the memory store. -/
theorem device_identity_encodings :
    (∀ topic tenant device suffix, buildDeviceTopic tenant device suffix = .ok topic ↔
      parseDeviceTopic topic = some ⟨tenant, device, suffix⟩) ∧
    (∀ topic, (parseDeviceTopic topic).isSome ↔
      ∃ tenant device suffix, buildDeviceTopic tenant device suffix = .ok topic) ∧
    (∀ username tenant device, buildDeviceUsername tenant device = .ok username ↔
      parseDeviceUsername username = some (tenant, device)) ∧
    (∀ username, (parseDeviceUsername username).isSome ↔
      ∃ tenant device, buildDeviceUsername tenant device = .ok username) ∧
    ∀ tenant device tenant' device', isValidTenantID tenant → isValidTopicPart device →
      isValidTenantID tenant' → isValidTopicPart device' →
      (tenant, device) ≠ (tenant', device') →
      (∀ suffix suffix' topic, buildDeviceTopic tenant device suffix = .ok topic →
        buildDeviceTopic tenant' device' suffix' ≠ .ok topic) ∧
      buildDeviceUsername tenant device ≠ buildDeviceUsername tenant' device' ∧
      deviceKey tenant device ≠ deviceKey tenant' device' := by
  refine ⟨fun _ _ _ _ => buildDeviceTopic_eq_ok, fun topic => ?_,
    fun _ _ _ => buildDeviceUsername_eq_ok, fun username => ?_, ?_⟩
  · simp only [Option.isSome_iff_exists, buildDeviceTopic_eq_ok]
    constructor
    · rintro ⟨⟨tenant, device, suffix⟩, h⟩
      exact ⟨tenant, device, suffix, h⟩
    · rintro ⟨tenant, device, suffix, h⟩
      exact ⟨_, h⟩
  · simp only [Option.isSome_iff_exists, buildDeviceUsername_eq_ok, Prod.exists]
  intro tenant device tenant' device' htenant hdevice htenant' hdevice' hne
  have hkey : deviceKey tenant device ≠ deviceKey tenant' device' := by
    intro heq
    have hparse := parseDeviceUsername_eq_some.mpr ⟨htenant, hdevice, rfl⟩
    rw [heq, parseDeviceUsername_eq_some.mpr ⟨htenant', hdevice', rfl⟩] at hparse
    exact hne (Option.some.inj hparse).symm
  refine ⟨fun suffix suffix' topic h h' => ?_, fun heq => ?_, hkey⟩
  · have hparse := buildDeviceTopic_eq_ok.mp h
    rw [buildDeviceTopic_eq_ok.mp h', Option.some.injEq, DeviceTopic.mk.injEq] at hparse
    exact hne (Prod.ext hparse.1.symm hparse.2.1.symm)
  · rw [buildDeviceUsername_eq_ok.mpr (parseDeviceUsername_eq_some.mpr ⟨htenant, hdevice, rfl⟩),
      buildDeviceUsername_eq_ok.mpr (parseDeviceUsername_eq_some.mpr ⟨htenant', hdevice', rfl⟩),
      Except.ok.injEq] at heq
    exact hkey heq

/-- A device whose id has colons and the word `device`. -/
theorem device_identity_encodings_colons :
    deviceKey (ascii "t") (ascii "device:a:b") ≠ deviceKey (ascii "t") (ascii "device:a") :=
  (device_identity_encodings.2.2.2.2 (ascii "t") (ascii "device:a:b") (ascii "t")
    (ascii "device:a") (by decide +kernel) (by decide +kernel) (by decide +kernel)
    (by decide +kernel) (by decide)).2.2

/-- Someone speaks for the device whose topic it is. -/
def TopicSpoken (spoken : Bytes → Bytes → Prop) (topic : Bytes) : Prop :=
  utf8Valid topic ∧
    ∀ parsed, parseDeviceTopic topic = some parsed → spoken parsed.tenant parsed.device

end Iot.Contracts
