import Iot.Contracts.Topics
import Iot.Mqtt.Filters
import Mathlib.Data.List.TakeWhile

/-!
# Authentication of MQTT clients

The broker asks `MQTTAuthenticationHandler` (`internal/platform/mqtt_auth.go`) about every client
that connects and gets the list of what the client may do. Services share one password and are told
apart by their client id (`internalMQTTRole`); devices have a secret each.

`demo_confined` is about the client ids of the simulator: the rules they get stay within one tenant
exactly if what stands between the prefix and the last dash of the id is a valid tenant id, or makes
the rules match no topic at all.
-/

namespace Iot.Mqtt

open Text Contracts

/-! ## Rules -/

/-- The effect of a rule. -/
inductive Permission where
  | allow
  | deny
  deriving DecidableEq, Repr

/-- What a rule is about. -/
inductive Action where
  | publish
  | subscribe
  | all
  deriving DecidableEq, Repr

/-- `MQTTACLRule`. -/
structure ACLRule where
  permission : Permission
  action : Action
  topic : Bytes
  deriving DecidableEq, Repr

/-- `aclDenyAll`. -/
def aclDenyAll : ACLRule := ⟨.deny, .all, ascii "#"⟩

/-- `withACLGuard`. -/
def withACLGuard (rules : List ACLRule) : List ACLRule := rules ++ [aclDenyAll]

/-- What stands in front of a topic that is taken literally. -/
def literalMark : Bytes := ascii "eq "

/-- A rule is about a topic: a literal one, or one that its filter matches. -/
def ACLRule.covers (rule : ACLRule) (topic : Bytes) : Bool :=
  if literalMark.isPrefixOf rule.topic then rule.topic.drop literalMark.length = topic
  else topicMatches rule.topic topic

/-! ## Client ids of services -/

/-- The roles of a client. -/
inductive Role where
  | telemetryIngestor
  | deviceWorker
  | demo
  | device
  deriving DecidableEq, Repr

/-- What stands before and after the last separator byte, as `strings.LastIndex` finds it. -/
def lastCut (text : Bytes) (separator : UInt8) : Option (Bytes × Bytes) :=
  if text.contains separator then
    some (((text.reverse.dropWhile (· ≠ separator)).drop 1).reverse,
      (text.reverse.takeWhile (· ≠ separator)).reverse)
  else none

/-- The prefix of the client ids of the simulator. -/
def demoMark : Bytes := ascii "iot-demo-"

/-- `demoTenantFromClientID`. -/
def demoTenantFromClientID (clientID : Bytes) : Bytes :=
  if demoMark.isPrefixOf clientID then
    match lastCut (clientID.drop demoMark.length) 0x2D with
    | none => []
    | some (tenantID, suffix) =>
        if suffix ≠ [] ∧ (decode suffix).all (fun r => 0x30 ≤ r.code && r.code ≤ 0x39) then tenantID
        else []
  else []

/-- The filter of one suffix over all devices of a tenant. -/
def tenantFilter (tenantID suffix : Bytes) : Bytes :=
  ascii "tenant/" ++ tenantID ++ ascii "/device/+/" ++ suffix

/-- The rules of the simulator. -/
def demoACL (tenantID : Bytes) : List ACLRule :=
  withACLGuard
    [⟨.allow, .publish, tenantFilter tenantID topicSuffixTelemetry⟩,
      ⟨.allow, .publish, tenantFilter tenantID topicSuffixAck⟩,
      ⟨.allow, .subscribe, tenantFilter tenantID topicSuffixCommand⟩]

/-- `internalMQTTRole`. -/
def internalMQTTRole (clientID : Bytes) : Option (Role × List ACLRule) :=
  if (ascii "iot-telemetry-ingestor-").isPrefixOf clientID then
    some (.telemetryIngestor,
      withACLGuard [⟨.allow, .subscribe, ascii "tenant/+/device/+/telemetry"⟩])
  else if (ascii "iot-device-worker-").isPrefixOf clientID then
    some (.deviceWorker, withACLGuard
      [⟨.allow, .subscribe, ascii "tenant/+/device/+/ack"⟩,
        ⟨.allow, .publish, ascii "tenant/+/device/+/command"⟩])
  else if demoMark.isPrefixOf clientID then
    let tenantID := demoTenantFromClientID clientID
    if tenantID = [] then none else some (.demo, demoACL tenantID)
  else none

/-- The text around the last separator. -/
theorem lastCut_eq_some {text before after : Bytes} {separator : UInt8}
    (h : lastCut text separator = some (before, after)) :
    text = before ++ separator :: after ∧ separator ∉ after := by
  unfold lastCut at h
  split_ifs at h with hmem
  simp only [Option.some.injEq, Prod.mk.injEq] at h
  obtain ⟨rfl, rfl⟩ := h
  have hrev : separator ∈ text.reverse := by simpa using hmem
  have hdrop : text.reverse.dropWhile (· ≠ separator) =
      separator :: (text.reverse.dropWhile (· ≠ separator)).drop 1 := by
    generalize text.reverse = rev at hrev
    induction rev with
    | nil => cases hrev
    | cons b rest ih =>
        by_cases hb : b = separator
        · simp [hb]
        · have hrest : separator ∈ rest := by
            rcases List.mem_cons.mp hrev with heq | hrest
            · exact absurd heq.symm hb
            · exact hrest
          simpa [hb] using ih hrest
  refine ⟨?_, ?_⟩
  · have hsplit := @List.takeWhile_append_dropWhile _ (· ≠ separator) text.reverse
    rw [hdrop] at hsplit
    have hreverse := congrArg List.reverse hsplit
    rw [List.reverse_append, List.reverse_cons, List.reverse_reverse, List.append_assoc,
      List.singleton_append] at hreverse
    exact hreverse.symm
  · intro hafter
    rw [List.mem_reverse] at hafter
    simpa using List.mem_takeWhile_imp hafter

/-- The tenant that a client id of the simulator names. -/
theorem demoTenantFromClientID_spec {clientID : Bytes} (h : demoTenantFromClientID clientID ≠ []) :
    ∃ suffix, clientID = demoMark ++ demoTenantFromClientID clientID ++ 0x2D :: suffix ∧
      0x2D ∉ suffix := by
  unfold demoTenantFromClientID at h ⊢
  split_ifs at h ⊢ with hmark
  · obtain ⟨rest, hrest⟩ := List.isPrefixOf_iff_prefix.mp hmark
    subst hrest
    rw [List.drop_left] at h ⊢
    split at h
    · exact absurd rfl h
    · rename_i tenantID suffix hcut
      obtain ⟨hsplit, hdash⟩ := lastCut_eq_some hcut
      split_ifs at h with hdigits
      · refine ⟨suffix, ?_, hdash⟩
        rw [if_pos hdigits, hsplit, List.append_assoc]
      · exact absurd rfl h
  · exact absurd rfl h

/-! ## Confinement of the simulator -/

/-- Every topic that some rule allows lies in one tenant. -/
def Confined (acl : List ACLRule) : Prop :=
  ∃ tenantID, isValidTenantID tenantID ∧
    ∀ rule ∈ acl, rule.permission = .allow → ∀ topic, Concrete topic → rule.covers topic →
      ∃ deviceID suffix, topic = deviceTopic tenantID deviceID suffix ∧ 0x2F ∉ deviceID ∧
        suffix ∈ [topicSuffixTelemetry, topicSuffixAck, topicSuffixCommand]

/-- A level that no level of a concrete topic equals and that is no wildcard. -/
def Unmatchable (level : Bytes) : Prop := level ≠ plus ∧ ¬ Concrete level

/-- The client id names a valid tenant, or its rules match no topic. -/
def NamesOneTenant (clientID : Bytes) : Prop :=
  ∃ tenantID suffix, clientID = demoMark ++ tenantID ++ 0x2D :: suffix ∧ 0x2D ∉ suffix ∧
    (isValidTenantID tenantID ∨ ∃ level ∈ levels tenantID, Unmatchable level)

/-- The levels of the filter of a suffix. -/
theorem levels_tenantFilter {tenantID suffix : Bytes} (hsuffix : 0x2F ∉ suffix) :
    levels (tenantFilter tenantID suffix) =
      ascii "tenant" :: levels tenantID ++ [ascii "device", plus, suffix] := by
  have hfilter : tenantFilter tenantID suffix =
      ascii "tenant" ++ 0x2F :: (tenantID ++ 0x2F :: (ascii "device" ++ 0x2F :: (plus ++
        0x2F :: suffix))) := by
    rw [tenantFilter, show ascii "tenant/" = ascii "tenant" ++ [0x2F] by decide,
      show ascii "/device/+/" = [0x2F] ++ ascii "device" ++ [0x2F] ++ plus ++ [0x2F] by decide]
    simp only [List.append_assoc, List.cons_append, List.nil_append]
  rw [hfilter, levels_append, levels_append, levels_append, levels_append,
    @levels_single (ascii "tenant") (by decide), @levels_single (ascii "device") (by decide),
    @levels_single plus (by decide), levels_single hsuffix]
  simp only [List.cons_append, List.nil_append]

/-- The levels of the topic of a device. -/
theorem levels_deviceTopic {tenantID deviceID suffix : Bytes} (htenant : 0x2F ∉ tenantID)
    (hdevice : 0x2F ∉ deviceID) (hsuffix : 0x2F ∉ suffix) :
    levels (deviceTopic tenantID deviceID suffix) =
      [ascii "tenant", tenantID, ascii "device", deviceID, suffix] := by
  rw [levels, deviceTopic_eq_intercalate]
  refine List.splitOn_intercalate 0x2F (fun word hword => ?_) (by simp)
  simp only [List.mem_cons, List.not_mem_nil, or_false] at hword
  rcases hword with rfl | rfl | rfl | rfl | rfl
  · decide
  · exact htenant
  · decide
  · exact hdevice
  · exact hsuffix

/-- The suffixes of the topics of devices. -/
def deviceSuffixes : List Bytes := [topicSuffixTelemetry, topicSuffixAck, topicSuffixCommand]

/-- The rules that allow the simulator something are about one suffix each. -/
theorem mem_demoACL {tenantID : Bytes} {rule : ACLRule} (h : rule ∈ demoACL tenantID)
    (hallow : rule.permission = .allow) :
    ∃ suffix ∈ deviceSuffixes, rule.topic = tenantFilter tenantID suffix := by
  simp only [demoACL, withACLGuard, List.mem_append, List.mem_cons, List.not_mem_nil, or_false] at h
  rcases h with (rfl | rfl | rfl) | rfl
  · exact ⟨topicSuffixTelemetry, by simp [deviceSuffixes], rfl⟩
  · exact ⟨topicSuffixAck, by simp [deviceSuffixes], rfl⟩
  · exact ⟨topicSuffixCommand, by simp [deviceSuffixes], rfl⟩
  · cases hallow

/-- The suffixes hold no slash and are no wildcards. -/
theorem deviceSuffixes_plain {suffix : Bytes} (h : suffix ∈ deviceSuffixes) :
    0x2F ∉ suffix ∧ suffix ≠ plus ∧ suffix ≠ hash := by
  simp only [deviceSuffixes, List.mem_cons, List.not_mem_nil, or_false] at h
  rcases h with rfl | rfl | rfl <;> decide

/-- A rule with the filter of a suffix is about the topics that the filter matches. -/
theorem covers_tenantFilter {rule : ACLRule} {tenantID suffix topic : Bytes}
    (hrule : rule.topic = tenantFilter tenantID suffix) (hsuffix : 0x2F ∉ suffix) :
    rule.covers topic = matchLevels
      (ascii "tenant" :: levels tenantID ++ [ascii "device", plus, suffix]) (levels topic) := by
  have hliteral : literalMark.isPrefixOf (tenantFilter tenantID suffix) = false := rfl
  rw [ACLRule.covers, hrule, hliteral, topicMatches, levels_tenantFilter hsuffix]
  rfl

/-- The filters with a valid tenant match topics of that tenant. -/
theorem confined_of_valid {tenantID : Bytes} (h : isValidTenantID tenantID) :
    Confined (demoACL tenantID) := by
  have hpart := h
  rw [isValidTenantID, Bool.and_eq_true] at hpart
  obtain ⟨_, hslash, hhash, hplus, _⟩ := isValidTopicPart_iff.mp hpart.1
  refine ⟨tenantID, h, fun rule hrule hallow topic _ hcovers => ?_⟩
  obtain ⟨suffix, hsuffix, hfilter⟩ := mem_demoACL hrule hallow
  obtain ⟨hplain, hsuffixPlus, hsuffixHash⟩ := deviceSuffixes_plain hsuffix
  rw [covers_tenantFilter hfilter hplain, levels_single hslash] at hcovers
  have hne : tenantID ≠ plus ∧ tenantID ≠ hash := by
    refine ⟨?_, ?_⟩
    · rintro rfl
      exact hplus (List.mem_singleton.mpr rfl)
    · rintro rfl
      exact hhash (List.mem_singleton.mpr rfl)
  -- the filter has five levels, of which only the device is open
  simp only [List.cons_append, List.nil_append] at hcovers
  obtain ⟨afterRoot, hwords, hroot⟩ := (matchLevels_literal (by decide) (by decide)).mp hcovers
  obtain ⟨afterTenant, rfl, htenant⟩ := (matchLevels_literal hne.1 hne.2).mp hroot
  obtain ⟨afterKind, rfl, hkind⟩ := (matchLevels_literal (by decide) (by decide)).mp htenant
  obtain ⟨deviceID, afterDevice, rfl, hopen⟩ := matchLevels_plus.mp hkind
  obtain ⟨rest, rfl, hrest⟩ := (matchLevels_literal hsuffixPlus hsuffixHash).mp hopen
  obtain rfl : rest = [] := by simpa [matchLevels] using hrest
  have hdevice : 0x2F ∉ deviceID := (@mem_levels topic deviceID (by rw [hwords]; simp)).1
  refine ⟨deviceID, suffix, levels_injective ?_, hdevice, hsuffix⟩
  rw [hwords, levels_deviceTopic hslash hdevice hplain]

/-- The filters with a level that no concrete topic has match nothing. -/
theorem confined_of_unmatchable {tenantID level : Bytes} (hlevel : level ∈ levels tenantID)
    (h : Unmatchable level) : Confined (demoACL tenantID) := by
  refine ⟨ascii "t", by decide +kernel, fun rule hrule hallow topic hconcrete hcovers => ?_⟩
  obtain ⟨suffix, hsuffix, hfilter⟩ := mem_demoACL hrule hallow
  rw [covers_tenantFilter hfilter (deviceSuffixes_plain hsuffix).1] at hcovers
  obtain ⟨before, after, hsplit⟩ := List.append_of_mem hlevel
  have habsent : level ∉ levels topic := by
    intro hmem
    have hbytes := (mem_levels hmem).2
    exact h.2 ⟨fun hb => hconcrete.1 (hbytes _ hb), fun hb => hconcrete.2 (hbytes _ hb)⟩
  have hfalse := @matchLevels_absent (ascii "tenant" :: before)
    (after ++ [ascii "device", plus, suffix]) (levels topic) level (by simp) h.1 habsent
  rw [hsplit] at hcovers
  simp only [List.cons_append, List.append_assoc] at hcovers hfalse
  rw [hfalse] at hcovers
  cases hcovers

/-- If the rules are confined to a tenant and match something, the id names that tenant. -/
theorem valid_of_confined {tenantID : Bytes} (h : Confined (demoACL tenantID))
    (hlevels : ∀ level ∈ levels tenantID, ¬ Unmatchable level) : isValidTenantID tenantID := by
  obtain ⟨confinedTo, hvalid, hconfined⟩ := h
  have hpart := hvalid
  rw [isValidTenantID, Bool.and_eq_true] at hpart
  obtain ⟨_, hslash, _⟩ := isValidTopicPart_iff.mp hpart.1
  -- with a word in place of every wildcard the first rule matches, so the words name the tenant
  have hfilled : ∀ word : Bytes, Concrete word → 0x2F ∉ word →
      (levels tenantID).map (fill word) = [confinedTo] := by
    intro word hword hwordSlash
    have hfill : ∀ level ∈ levels tenantID, Concrete (fill word level) ∧
        0x2F ∉ fill word level := by
      intro level hlevel
      rw [fill]
      split_ifs with hplus
      · exact ⟨hword, hwordSlash⟩
      · refine ⟨?_, (mem_levels hlevel).1⟩
        by_contra hconcrete
        exact hlevels level hlevel ⟨hplus, hconcrete⟩
    obtain ⟨words, hwords⟩ : ∃ words, words = ascii "tenant" :: (levels tenantID).map (fill word) ++
        [ascii "device", word, topicSuffixTelemetry] := ⟨_, rfl⟩
    have hall : ∀ level ∈ words, Concrete level ∧ 0x2F ∉ level := by
      intro level hlevel
      simp only [hwords, List.cons_append, List.mem_cons, List.mem_append, List.mem_map,
        List.not_mem_nil, or_false] at hlevel
      rcases hlevel with rfl | ⟨part, hpart, rfl⟩ | rfl | rfl | rfl
      · exact ⟨⟨by decide, by decide⟩, by decide⟩
      · exact hfill part hpart
      · exact ⟨⟨by decide, by decide⟩, by decide⟩
      · exact ⟨hword, hwordSlash⟩
      · exact ⟨⟨by decide, by decide⟩, by decide⟩
    have htopic : levels ([0x2F].intercalate words) = words :=
      levels_intercalate (by rw [hwords]; simp) fun level hlevel => (hall level hlevel).2
    have hcovers : ACLRule.covers ⟨.allow, .publish, tenantFilter tenantID topicSuffixTelemetry⟩
        ([0x2F].intercalate words) := by
      have hmap : (ascii "tenant" :: levels tenantID ++
          [ascii "device", plus, topicSuffixTelemetry]).map (fill word) = words := by
        rw [hwords, List.map_append]
        rfl
      rw [covers_tenantFilter rfl (by decide), htopic, ← hmap]
      exact matchLevels_fill word _
    obtain ⟨deviceID, suffix, heq, hdevice, hsuffix⟩ := hconfined _
      (by simp [demoACL, withACLGuard]) rfl _
      (concrete_intercalate fun level hlevel => (hall level hlevel).1) hcovers
    have hsame := congrArg levels heq
    rw [htopic, levels_deviceTopic hslash hdevice (deviceSuffixes_plain hsuffix).1, hwords] at hsame
    have htail : (levels tenantID).map (fill word) ++ [ascii "device", word, topicSuffixTelemetry] =
        [confinedTo] ++ [ascii "device", deviceID, suffix] := (List.cons.inj hsame).2
    exact (List.append_inj' htail rfl).1
  have hx := hfilled (ascii "x") ⟨by decide, by decide⟩ (by decide)
  have hy := hfilled (ascii "y") ⟨by decide, by decide⟩ (by decide)
  obtain ⟨level, hlevel⟩ := List.length_eq_one_iff.mp (by simpa using congrArg List.length hx)
  rw [hlevel, List.map_singleton, List.singleton_inj] at hx hy
  have hnotPlus : level ≠ plus := by
    intro hplus
    rw [hplus, fill, if_pos rfl] at hx hy
    exact absurd (hx.trans hy.symm) (by decide)
  rw [fill, if_neg hnotPlus] at hx
  have hname : tenantID = confinedTo := levels_injective (by rw [hlevel, hx, levels_single hslash])
  rw [hname]
  exact hvalid

/-- What the role of the simulator is granted for. -/
theorem internalMQTTRole_demo {clientID : Bytes} {acl : List ACLRule}
    (h : internalMQTTRole clientID = some (.demo, acl)) :
    ∃ tenantID suffix, clientID = demoMark ++ tenantID ++ 0x2D :: suffix ∧ 0x2D ∉ suffix ∧
      acl = demoACL tenantID := by
  unfold internalMQTTRole at h
  split_ifs at h
  · simp at h
  · simp at h
  · dsimp only at h
    split_ifs at h with hempty
    obtain ⟨suffix, hsplit, hdash⟩ := demoTenantFromClientID_spec hempty
    simp only [Option.some.injEq, Prod.mk.injEq, true_and] at h
    exact ⟨_, suffix, hsplit, hdash, h.symm⟩

/-- Texts split at their last dash agree in both parts. -/
theorem eq_of_lastDash {left right suffix suffix' : Bytes} (h : 0x2D ∉ suffix)
    (h' : 0x2D ∉ suffix') (heq : left ++ 0x2D :: suffix = right ++ 0x2D :: suffix') :
    left = right := by
  have hlast : ∀ (text after : Bytes), 0x2D ∉ after →
      lastCut (text ++ 0x2D :: after) 0x2D = some (text, after) := by
    intro text after hafter
    have hmem : (text ++ 0x2D :: after).contains 0x2D = true := by simp
    have htake : ∀ b ∈ after.reverse, decide (b ≠ 0x2D) = true := by
      intro b hb
      rw [decide_eq_true_eq]
      rintro rfl
      exact hafter (List.mem_reverse.mp hb)
    rw [lastCut, if_pos hmem, List.reverse_append, List.reverse_cons, List.append_assoc,
      List.singleton_append, List.takeWhile_append_of_pos htake,
      List.dropWhile_append_of_pos htake]
    simp
  have hleft := hlast left suffix h
  rw [heq, hlast right suffix' h'] at hleft
  exact (Prod.mk.inj (Option.some.inj hleft)).1.symm

/-- The rules of the simulator are confined to one tenant exactly if its client id names one. -/
theorem demo_confined {clientID : Bytes} {acl : List ACLRule}
    (h : internalMQTTRole clientID = some (.demo, acl)) :
    Confined acl ↔ NamesOneTenant clientID := by
  obtain ⟨tenantID, suffix, hsplit, hdash, rfl⟩ := internalMQTTRole_demo h
  constructor
  · intro hconfined
    refine ⟨tenantID, suffix, hsplit, hdash, ?_⟩
    by_cases hlevels : ∃ level ∈ levels tenantID, Unmatchable level
    · exact Or.inr hlevels
    · refine Or.inl (valid_of_confined hconfined fun level hlevel hunmatchable => ?_)
      exact hlevels ⟨level, hlevel, hunmatchable⟩
  · rintro ⟨other, suffix', hsplit', hdash', hnames⟩
    rw [hsplit, List.append_assoc, List.append_assoc, List.append_cancel_left_eq] at hsplit'
    rw [eq_of_lastDash hdash hdash' hsplit']
    rcases hnames with hvalid | ⟨level, hlevel, hunmatchable⟩
    · exact confined_of_valid hvalid
    · exact confined_of_unmatchable hlevel hunmatchable

/-- A client id with the name of a tenant. -/
theorem demo_confined_named :
    internalMQTTRole (ascii "iot-demo-a-1-7") = some (.demo, demoACL (ascii "a-1")) ∧
      Confined (demoACL (ascii "a-1")) := by
  have h : internalMQTTRole (ascii "iot-demo-a-1-7") = some (.demo, demoACL (ascii "a-1")) := by
    decide +kernel
  refine ⟨h, (demo_confined h).mpr ⟨ascii "a-1", ascii "7", by decide, by decide, Or.inl ?_⟩⟩
  decide +kernel

/-- A client id with a wildcard in place of the tenant. -/
theorem demo_wildcard :
    internalMQTTRole (ascii "iot-demo-+-7") = some (.demo, demoACL plus) ∧
      ¬ Confined (demoACL plus) := by
  refine ⟨by decide +kernel, fun hconfined => ?_⟩
  have hvalid := valid_of_confined hconfined fun level hlevel hunmatchable => by
    rw [levels_single (by decide), List.mem_singleton] at hlevel
    exact hunmatchable.1 hlevel
  exact absurd hvalid (by decide)

end Iot.Mqtt
