import Iot.Mqtt.Devices
import Iot.Telemetry.Origin
import Iot.Worker.AckOrigin

/-!
# Who speaks for a device

The broker lets a client publish what the answer of `MQTTAuthenticationHandler` allows, and delivers
to the bridge and to the worker what matches their subscriptions. Together with the checks behind
the broker this means that a device can only speak for itself (`device_speaks_for_itself`):
telemetry of a device is stored (`telemetry_speakers`), and its commands are acknowledged
(`ack_speakers`), only if a client presented the secret of the device, or the password of the
services with a client id of the simulator whose rules cover the device. Telemetry may also come
from the API.
-/

namespace Iot.Mqtt

open Text Contracts Platform Store Execution

/-- `TelemetryTopicFilter`. -/
def telemetryTopicFilter : Bytes := ascii "tenant/+/device/+/telemetry"

/-- `AckTopicFilter`. -/
def ackTopicFilter : Bytes := ascii "tenant/+/device/+/ack"

/-- A callback of the broker, and how the handler that answers it is set up. -/
abbrev Asked := AuthSetup × AuthCallback

/-- One of the clients the broker has asked about was allowed, and may publish on a topic. -/
def MayPublish (asked : List Asked) (topic : Bytes) : Prop :=
  ∃ ask ∈ asked, ∃ response, mqttAuthenticationHandler ask.1 ask.2 = .answer response ∧
    response.result = .allow ∧ authorize response.acl .publish topic = some .allow

/-- One of the clients may speak for a device. -/
inductive Speaks (asked : List Asked) (tenantID deviceID : Bytes) : Prop where
  /-- It has presented the secret of the device. -/
  | device {ask : Asked} {req : AuthRequest} (hask : ask ∈ asked)
      (hreq : ask.1.decodeBody ask.2.body = .ok req)
      (husername : parseDeviceUsername req.username = some (tenantID, deviceID))
      (hsecret : ask.1.verifies tenantID deviceID req.password)
  /-- It has presented the password of the services with a client id of the simulator that names the
  tenant, or the wildcard in its place. -/
  | simulator {ask : Asked} {req : AuthRequest} {named : Bytes} (hask : ask ∈ asked)
      (hreq : ask.1.decodeBody ask.2.body = .ok req)
      (husername : req.username = internalMQTTUsername)
      (hpassword : secureEqual req.password ask.1.internalPassword)
      (hclient : internalMQTTRole req.clientID = some (.demo, demoACL named))
      (hnamed : named = tenantID ∨ named = plus)

/-! ## What clients may publish -/

/-- A level that is not the last one matches one level. -/
theorem matchLevels_inner {level : Bytes} {rest words : List Bytes} (hrest : rest ≠ []) :
    matchLevels (level :: rest) words ↔
      ∃ word more, words = word :: more ∧ (level = plus ∨ level = word) ∧
        matchLevels rest more := by
  cases words with
  | nil => simp [matchLevels, hrest]
  | cons word more => simp [matchLevels, hrest]

/-- A filter that does not end with `#` matches topics with as many levels. -/
theorem length_of_matchLevels {filter words : List Bytes} (hlast : filter.getLast? ≠ some hash)
    (h : matchLevels filter words) : filter.length = words.length := by
  induction filter generalizing words with
  | nil =>
      rw [matchLevels, List.isEmpty_iff] at h
      rw [h]
  | cons level rest ih =>
      by_cases hrest : rest = []
      · subst hrest
        have hlevel : level ≠ hash := by
          rintro rfl
          exact hlast rfl
        cases words with
        | nil => simp [matchLevels, hlevel] at h
        | cons word more =>
            have hmore : (level = plus ∨ level = word) ∧ more = [] := by
              simpa [matchLevels, hlevel] using h
            rw [hmore.2]
            rfl
      · obtain ⟨word, more, rfl, _, hmore⟩ := (matchLevels_inner hrest).mp h
        have hlast' : rest.getLast? ≠ some hash := by
          rwa [List.getLast?_cons_of_ne_nil hrest] at hlast
        rw [List.length_cons, List.length_cons, ih hlast' hmore]

/-- The tenants that a filter of the simulator covers. -/
theorem named_of_matches {named published tenantID deviceID suffix : Bytes}
    (hpublished : published ∈ deviceSuffixes) (htenant : 0x2F ∉ tenantID)
    (hdevice : 0x2F ∉ deviceID) (hsuffix : 0x2F ∉ suffix)
    (h : topicMatches (tenantFilter named published) (deviceTopic tenantID deviceID suffix)) :
    named = tenantID ∨ named = plus := by
  obtain ⟨hplain, hplus, hhash⟩ := deviceSuffixes_plain hpublished
  rw [topicMatches, levels_tenantFilter hplain, levels_deviceTopic htenant hdevice hsuffix] at h
  -- the tenant of the filter is one level
  have hlength := length_of_matchLevels (by
    rw [List.getLast?_append]
    simpa using hhash) h
  have hone : (levels named).length = 1 := by
    simpa using hlength
  obtain ⟨level, hlevel⟩ := List.length_eq_one_iff.mp hone
  have hnamed : named = level := by
    refine levels_injective (hlevel.trans (levels_single ?_).symm)
    exact (@mem_levels named level (by rw [hlevel]; simp)).1
  rw [hlevel] at h
  simp only [List.cons_append, List.nil_append] at h
  obtain ⟨_, _, hwords, _, hrest⟩ := (matchLevels_inner (by simp)).mp h
  cases hwords
  obtain ⟨_, _, hwords, htenants, _⟩ := (matchLevels_inner (by simp)).mp hrest
  cases hwords
  rw [hnamed]
  exact htenants.symm

/-- A filter over all devices matches the topics with its suffix. -/
theorem suffix_of_matches {tenantID deviceID suffix other : Bytes} (htenant : 0x2F ∉ tenantID)
    (hdevice : 0x2F ∉ deviceID) (hsuffix : 0x2F ∉ suffix) (hother : other ∈ deviceSuffixes)
    (h : topicMatches (tenantFilter plus other) (deviceTopic tenantID deviceID suffix)) :
    suffix = other := by
  obtain ⟨hplain, hplus, hhash⟩ := deviceSuffixes_plain hother
  rw [topicMatches, levels_tenantFilter hplain, levels_deviceTopic htenant hdevice hsuffix,
    @levels_single plus (by decide)] at h
  simp only [List.cons_append, List.nil_append] at h
  obtain ⟨_, _, hwords, _, hroot⟩ := (matchLevels_inner (by simp)).mp h
  cases hwords
  obtain ⟨_, _, hwords, _, htail⟩ := (matchLevels_inner (by simp)).mp hroot
  cases hwords
  obtain ⟨_, _, hwords, _, hkind⟩ := (matchLevels_inner (by simp)).mp htail
  cases hwords
  obtain ⟨_, _, hwords, _, hopen⟩ := (matchLevels_inner (by simp)).mp hkind
  cases hwords
  obtain ⟨_, hwords, _⟩ := (matchLevels_literal hplus hhash).mp hopen
  exact (List.cons.inj hwords).1

/-- A rule with a filter that starts with a word. -/
theorem applies_filter (permission : Permission) (allowed action : Action) (filter topic : Bytes)
    (hallowed : allowed ≠ .all) (hmark : literalMark.isPrefixOf filter = false) :
    ACLRule.applies ⟨permission, allowed, filter⟩ action topic = true →
      allowed = action ∧ topicMatches filter topic := by
  intro h
  simp only [ACLRule.applies, ACLRule.covers, hmark, Bool.false_eq_true, if_false, Bool.and_eq_true,
    Bool.or_eq_true, beq_iff_eq] at h
  exact ⟨h.1.1.resolve_left hallowed, h.1.2⟩

/-- What is allowed is allowed by a rule of the list. -/
theorem exists_rule_of_authorize {acl : List ACLRule} {action : Action} {topic : Bytes}
    (h : authorize acl action topic = some .allow) :
    ∃ rule ∈ acl, rule.permission = .allow ∧ rule.applies action topic = true := by
  rw [authorize, Option.map_eq_some_iff] at h
  obtain ⟨rule, hfind, hpermission⟩ := h
  have happlies := List.find?_some hfind
  exact ⟨rule, List.mem_of_find?_eq_some hfind, hpermission, happlies⟩

/-- What the services may publish: the worker commands, and the simulator what its filters match. -/
theorem publish_of_role {clientID topic : Bytes} {role : Role} {acl : List ACLRule}
    (hrole : internalMQTTRole clientID = some (role, acl))
    (h : authorize acl .publish topic = some .allow) :
    topicMatches (tenantFilter plus topicSuffixCommand) topic ∨
      ∃ named, ∃ suffix ∈ deviceSuffixes, internalMQTTRole clientID = some (.demo, demoACL named) ∧
        topicMatches (tenantFilter named suffix) topic := by
  obtain ⟨rule, hrule, hallow, happlies⟩ := exists_rule_of_authorize h
  have hfilter : ∀ {allowed : Action} {filter : Bytes}, allowed ≠ .all →
      literalMark.isPrefixOf filter = false → rule = ⟨.allow, allowed, filter⟩ →
      allowed = .publish ∧ topicMatches filter topic := by
    rintro allowed filter hallowed hmark rfl
    exact applies_filter _ _ _ _ _ hallowed hmark happlies
  have hdeny : rule ≠ aclDenyAll := by
    rintro rfl
    cases hallow
  have hdefinition := hrole
  unfold internalMQTTRole at hdefinition
  split_ifs at hdefinition
  · cases hdefinition
    simp only [withACLGuard, List.cons_append, List.nil_append, List.mem_cons, List.not_mem_nil,
      or_false] at hrule
    have hwrong := (hfilter (by decide) (by decide) (hrule.resolve_right hdeny)).1
    cases hwrong
  · cases hdefinition
    simp only [withACLGuard, List.cons_append, List.nil_append, List.mem_cons, List.not_mem_nil,
      or_false] at hrule
    rcases hrule with hrule | hrule | hrule
    · have hwrong := (hfilter (by decide) (by decide) hrule).1
      cases hwrong
    · left
      rw [show tenantFilter plus topicSuffixCommand = ascii "tenant/+/device/+/command" by decide]
      exact (hfilter (by decide) (by decide) hrule).2
    · exact absurd hrule hdeny
  · dsimp only at hdefinition
    split_ifs at hdefinition
    cases hdefinition
    right
    simp only [demoACL, withACLGuard, List.cons_append, List.nil_append, List.mem_cons,
      List.not_mem_nil, or_false] at hrule
    rcases hrule with hrule | hrule | hrule | hrule
    · exact ⟨_, topicSuffixTelemetry, by simp [deviceSuffixes], hrole,
        (hfilter (by decide) rfl hrule).2⟩
    · exact ⟨_, topicSuffixAck, by simp [deviceSuffixes], hrole, (hfilter (by decide) rfl hrule).2⟩
    · have hwrong := (hfilter (by decide) rfl hrule).1
      cases hwrong
    · exact absurd hrule hdeny

/-- What a client may publish under a subscription for telemetry or acknowledgements is spoken for:
its topic is that of a device the client may speak for. -/
theorem speaks_of_mayPublish {asked : List Asked} {topic suffix : Bytes}
    (h : MayPublish asked topic) (hsuffix : suffix = topicSuffixTelemetry ∨ suffix = topicSuffixAck)
    (hmatches : topicMatches (tenantFilter plus suffix) topic) {parsed : DeviceTopic}
    (hparsed : parseDeviceTopic topic = some parsed) :
    Speaks asked parsed.tenant parsed.device := by
  obtain ⟨ask, hask, response, hanswer, hallow, hauthorize⟩ := h
  obtain ⟨_, _, req, hreq, hallows⟩ := handler_allows hanswer hallow
  obtain ⟨tenantID, deviceID, found⟩ := parsed
  obtain ⟨htenant, hdevice, hfound, rfl⟩ := parseDeviceTopic_eq_some.mp hparsed
  have hslash : ∀ {part : Bytes}, isValidTopicPart part → 0x2F ∉ part := fun hpart =>
    (isValidTopicPart_iff.mp hpart).2.1
  have hfoundSuffix : ∀ {other : Bytes}, other ∈ deviceSuffixes →
      topicMatches (tenantFilter plus other) (deviceTopic tenantID deviceID found) →
      found = other := fun hother hother' =>
    suffix_of_matches (hslash (isValidTenantID_iff.mp htenant).1) (hslash hdevice) (hslash hfound)
      hother hother'
  have hmember : suffix ∈ deviceSuffixes := by
    rcases hsuffix with rfl | rfl <;> simp [deviceSuffixes]
  have hsame : found = suffix := hfoundSuffix hmember hmatches
  cases hallows with
  | @service role acl hservice =>
      rw [serviceRole] at hservice
      split_ifs at hservice with hcredentials
      rcases publish_of_role hservice hauthorize with
        hcommand | ⟨named, published, hpublished, hclient, hcovers⟩
      · -- the worker's commands come under no subscription for telemetry or acknowledgements
        have hcommandSuffix : found = topicSuffixCommand :=
          hfoundSuffix (by simp [deviceSuffixes]) hcommand
        rw [hsame] at hcommandSuffix
        rcases hsuffix with rfl | rfl
        · exact absurd hcommandSuffix (by decide)
        · exact absurd hcommandSuffix (by decide)
      · exact .simulator hask hreq hcredentials.1 hcredentials.2 hclient
          (named_of_matches hpublished (hslash (isValidTenantID_iff.mp htenant).1)
            (hslash hdevice) (hslash hfound) hcovers)
  | @device tenantID' deviceID' husername hsecret hclient =>
      obtain ⟨htenant', hdevice', _⟩ := parseDeviceUsername_eq_some.mp husername
      have hpermitted := (authorize_deviceACL htenant' hdevice' _ _).1.mp hauthorize
      obtain ⟨_, hown⟩ := hpermitted.parsed
      rw [hparsed, Option.some.injEq, DeviceTopic.mk.injEq] at hown
      show Speaks asked tenantID deviceID
      rw [hown.1, hown.2.1]
      exact .device hask hreq husername hsecret

/-! ## Telemetry -/

/-- The deliveries of the broker: the topic is valid UTF-8 and matches the subscription, and the
message was published by a client that may. -/
structure Delivered (asked : List Asked) (filter topic : Bytes) : Prop where
  utf8 : utf8Valid topic
  subscribed : topicMatches filter topic
  published : MayPublish asked topic

/-- A request of the API names a device. -/
def RequestNames (actions : List Telemetry.Action) (tenantID deviceID : Bytes) : Prop :=
  ∃ env now receivedAt call, (.ingestTelemetry env now receivedAt call ∈ actions ∨
      .recordTelemetry env now receivedAt call ∈ actions) ∧
    env.tenantID = tenantID ∧ env.deviceID = deviceID

/-- A client or a request speaks for a device. -/
structure Voiced (asked : List Asked) (actions : List Telemetry.Action)
    (tenantID deviceID : Bytes) : Prop where
  utf8 : utf8Valid tenantID ∧ utf8Valid deviceID
  voice : Speaks asked tenantID deviceID ∨ RequestNames actions tenantID deviceID

/-- Telemetry of a device is stored or published only if a client may speak for the device, or a
request of the API has named it. -/
theorem telemetry_speakers {go : GoRuntime} {pg : Postgres} {cfg : Telemetry.Config}
    {asked : List Asked} {actions : List Telemetry.Action}
    (hdelivered : ∀ topic payload, .deliver topic payload ∈ actions →
      Delivered asked telemetryTopicFilter topic) :
    (∀ row ∈ (run (Telemetry.Pipeline.step go pg cfg) .initial actions).world.db.records.rows,
      Speaks asked row.tenantID row.deviceID ∨ RequestNames actions row.tenantID row.deviceID) ∧
    ∀ partition, ∀ msg ∈
        (run (Telemetry.Pipeline.step go pg cfg) .initial actions).world.topic partition,
      ∀ rec, TelemetryRecord.unmarshal go msg.value = .ok rec →
        Speaks asked rec.tenantID rec.deviceID ∨
          RequestNames actions rec.tenantID rec.deviceID := by
  have hrequest : ∀ {env : Envelope} {now receivedAt : Time} {call : Telemetry.Call},
      (.ingestTelemetry env now receivedAt call ∈ actions ∨
        .recordTelemetry env now receivedAt call ∈ actions) →
      validateEnvelopeAt env now = .ok () →
      Voiced asked actions env.tenantID env.deviceID := by
    intro env now receivedAt call hmem henv
    obtain ⟨_, _, hfields, _⟩ := validateEnvelopeAt_eq_ok.mp henv
    obtain ⟨_, htenant, hdevice, _⟩ := utf8Valid_of_fields hfields
    exact ⟨⟨htenant, hdevice⟩, Or.inr ⟨env, now, receivedAt, call, hmem, rfl, rfl⟩⟩
  have hactions : ∀ action ∈ actions, action.SpokenBy (Voiced asked actions) := by
    intro action haction
    cases action with
    | deliver topic payload =>
        obtain ⟨hutf8, hsubscribed, hpublished⟩ := hdelivered topic payload haction
        refine ⟨hutf8, fun parsed hparsed => ?_⟩
        rw [show telemetryTopicFilter = tenantFilter plus topicSuffixTelemetry by decide]
          at hsubscribed
        have hspeaks := speaks_of_mayPublish hpublished (Or.inl rfl) hsubscribed hparsed
        obtain ⟨tenantID, deviceID, suffix⟩ := parsed
        obtain ⟨htenant, hdevice, _⟩ := parseDeviceTopic_eq_some.mp hparsed
        exact ⟨⟨utf8Valid_of_isValidTopicPart (isValidTenantID_iff.mp htenant).1,
          utf8Valid_of_isValidTopicPart hdevice⟩, Or.inl hspeaks⟩
    | ingestTelemetry env now receivedAt call => exact hrequest (Or.inl haction)
    | recordTelemetry env now receivedAt call => exact hrequest (Or.inr haction)
    | _ => trivial
  have hworld := @Telemetry.rows_spoken go pg cfg (Voiced asked actions) (fun _ _ h => h.utf8)
    actions hactions
  exact ⟨fun row hrow => (hworld.rows row hrow).voice,
    fun partition msg hmsg rec hrec => (hworld.topic partition msg hmsg rec hrec).voice⟩

/-- The broker has asked about device `d` of tenant `t`, whose secret is `s`. -/
def askedD : List Asked :=
  [(⟨some fun tenantID deviceID secret =>
        tenantID == ascii "t" && deviceID == ascii "d" && secret == ascii "s",
      ascii "service", ascii "token", fun body => .ok ⟨body, ascii "s", ascii "c1"⟩⟩,
    ⟨ascii "POST", ascii "token", ascii "t:d"⟩)]

/-- The device may publish on its topics. -/
theorem mayPublish_askedD {topic : Bytes}
    (h : authorize (deviceACL (ascii "t") (ascii "d")) .publish topic = some .allow) :
    MayPublish askedD topic := by
  have hanswer : ∀ ask ∈ askedD, mqttAuthenticationHandler ask.1 ask.2 =
      .answer ⟨.allow, [("role", Role.device.text), ("tenant_id", ascii "t"),
        ("device_id", ascii "d")], deviceACL (ascii "t") (ascii "d")⟩ := by decide +kernel
  exact ⟨_, List.mem_singleton_self _, _, hanswer _ (List.mem_singleton_self _), rfl, h⟩

/-- A message that was stored by way of the dead-letter topic comes from its device. -/
theorem telemetry_speakers_overflow :
    Telemetry.sampleRow ∈
      (run (Telemetry.Pipeline.step .plain .plain Telemetry.plainConfig) .initial
      (Telemetry.overflowRun Telemetry.samplePayload)).world.db.records.rows ∧
    Speaks askedD (ascii "t") (ascii "d") := by
  have hrow : Telemetry.sampleRow ∈ (run
      (Telemetry.Pipeline.step .plain .plain Telemetry.plainConfig) .initial
      (Telemetry.overflowRun Telemetry.samplePayload)).world.db.records.rows := by decide +kernel
  have hdelivered : ∀ topic payload,
      .deliver topic payload ∈ Telemetry.overflowRun Telemetry.samplePayload →
      Delivered askedD telemetryTopicFilter topic := by
    intro topic payload hmem
    simp only [Telemetry.overflowRun, List.mem_cons, List.not_mem_nil, or_false, reduceCtorEq,
      false_or, Telemetry.Action.deliver.injEq] at hmem
    rw [hmem.1]
    exact ⟨by decide +kernel, by decide +kernel, mayPublish_askedD (by decide +kernel)⟩
  refine ⟨hrow, ((telemetry_speakers hdelivered).1 _ hrow).resolve_right ?_⟩
  rintro ⟨env, now, receivedAt, call, hmem, _⟩
  simp [Telemetry.overflowRun] at hmem

/-! ## Acknowledgements -/

/-- An acknowledgement over MQTT, also one that is replayed from the dead-letter topic, changes a
command only if someone may speak for its device. -/
theorem ack_speakers {go : GoRuntime} {pg : Postgres} {asked : List Asked} (db : Db)
    {actions : List Worker.AckAction} {action : Worker.AckAction}
    (hdelivered : ∀ topic payload calls now answer applied,
      .receive topic payload calls now answer applied ∈ actions ++ [action] →
      Delivered asked ackTopicFilter topic)
    (hop : ∀ op, action ≠ .operate op) {id : Bytes} {row : CommandRow}
    (hrow : (run (Worker.AckWorld.step go pg) ⟨db, []⟩ actions).db.commands.find? id = some row)
    (hunspoken : ¬ Speaks asked row.tenantID row.deviceID) :
    (run (Worker.AckWorld.step go pg) ⟨db, []⟩ (actions ++ [action])).db.view id =
      (run (Worker.AckWorld.step go pg) ⟨db, []⟩ actions).db.view id := by
  have hspoken : ∀ other ∈ actions ++ [action], other.SpokenBy (Speaks asked) := by
    intro other hother
    cases other with
    | receive topic payload calls now answer applied =>
        obtain ⟨hutf8, hsubscribed, hpublished⟩ :=
          hdelivered topic payload calls now answer applied hother
        refine ⟨hutf8, fun parsed hparsed => ?_⟩
        rw [show ackTopicFilter = tenantFilter plus topicSuffixAck by decide] at hsubscribed
        exact speaks_of_mayPublish hpublished (Or.inr rfl) hsubscribed hparsed
    | _ => trivial
  rw [run_append, run_cons, run_nil]
  exact Worker.acks_spoken db (fun other hother => hspoken other (List.mem_append_left _ hother))
    (hspoken action (by simp)) hop hrow hunspoken

/-- A command of another device. -/
def otherCommand : CommandRow :=
  ⟨ascii "c", ascii "t", ascii "e", .published, ascii "\x7b\x7d", 0, 0, none, 0, 0, none, none⟩

/-- The command is the only one. -/
def otherDb : Db := ⟨[], ⟨[otherCommand], by decide⟩, [], [], by simp, by simp⟩

/-- The device acknowledges the command of the other one in its own name. -/
def ackOther : Worker.AckAction :=
  .receive (ascii "tenant/t/device/d/ack")
    (ascii "\x7b\"commandId\":\"c\",\"tenantId\":\"t\",\"deviceId\":\"d\",\"status\":\"acked\"\x7d")
    [.executed 0] 0 (.ok ()) false

/-- The command stays as it is. -/
theorem ack_speakers_other :
    (run (Worker.AckWorld.step .plain .plain) ⟨otherDb, []⟩ [ackOther]).db.view (ascii "c") =
      otherDb.view (ascii "c") := by
  have hunspoken : ¬ Speaks askedD (ascii "t") (ascii "e") := by
    intro h
    cases h with
    | device hask hreq husername _ =>
        obtain rfl := List.mem_singleton.mp hask
        cases hreq
        exact absurd husername (by decide +kernel)
    | simulator hask hreq husername =>
        obtain rfl := List.mem_singleton.mp hask
        cases hreq
        exact absurd husername (by decide)
  refine @ack_speakers .plain .plain askedD otherDb [] ackOther ?_ ?_ (ascii "c") otherCommand rfl
    hunspoken
  · intro topic payload calls now answer applied hmem
    rw [List.nil_append, List.mem_singleton, ackOther, Worker.AckAction.receive.injEq] at hmem
    rw [hmem.1]
    exact ⟨by decide +kernel, by decide +kernel, mayPublish_askedD (by decide +kernel)⟩
  · intro op heq
    cases heq

/-! ## One device -/

/-- A client that is allowed as a device has the name of one device and knows its secret, and its
client id is that of no service. It may publish on two topics and subscribe to one, which no other
device may. Whatever it publishes, the bridge stores and publishes records of the device alone, and
the worker changes commands of the device alone. -/
theorem device_speaks_for_itself {setup : AuthSetup} {callback : AuthCallback}
    {response : AuthResponse}
    (h : mqttAuthenticationHandler setup callback = .answer response)
    (hallow : response.result = .allow)
    (hrole : ("role", Role.device.text) ∈ response.clientAttrs) :
    ∃ req tenantID deviceID, setup.decodeBody callback.body = .ok req ∧
      parseDeviceUsername req.username = some (tenantID, deviceID) ∧
      setup.verifies tenantID deviceID req.password ∧
      isReservedMQTTClientID req.clientID = false ∧ internalMQTTRole req.clientID = none ∧
      (∀ action topic, authorize response.acl action topic = some .allow ↔
        Permitted tenantID deviceID action topic) ∧
      (∀ action topic, authorize response.acl action topic = none → topic.head? = some 0x24) ∧
      (∀ tenantID' deviceID' action action' topic, Permitted tenantID deviceID action topic →
        Permitted tenantID' deviceID' action' topic →
        tenantID = tenantID' ∧ deviceID = deviceID') ∧
      ∀ go pg topic payload, authorize response.acl .publish topic = some .allow →
        (∀ cfg steps stopping world move,
          Telemetry.World.Adds go (fun tenant device => tenant = tenantID ∧ device = deviceID) world
            ((Telemetry.Delivery.handled go pg cfg (.new topic payload) steps).step go pg cfg
              stopping world move).1) ∧
        ∀ write calls now db, Worker.LeavesOthers tenantID deviceID db
          (Worker.handleAckMessage go pg write topic payload calls now db).2 := by
  obtain ⟨req, tenantID, deviceID, hreq, husername, hsecret, hclient, hexact, hdollar⟩ :=
    device_permissions h hallow hrole
  refine ⟨req, tenantID, deviceID, hreq, husername, hsecret, hclient,
    internalMQTTRole_eq_none hclient, hexact, hdollar,
    fun _ _ _ _ _ hpermitted hpermitted' => hpermitted.identity hpermitted', ?_⟩
  intro go pg topic payload hpublish
  obtain ⟨suffix, hparsed⟩ := ((hexact _ _).mp hpublish).parsed
  constructor
  · intro cfg steps stopping world move
    obtain ⟨htenant, hdevice, _⟩ := parseDeviceUsername_eq_some.mp husername
    refine Telemetry.handled_adds ?_ ⟨utf8Valid_deviceTopic hparsed, ?_⟩ payload steps stopping
      world move
    · rintro _ _ ⟨rfl, rfl⟩
      exact ⟨utf8Valid_of_isValidTopicPart (isValidTenantID_iff.mp htenant).1,
        utf8Valid_of_isValidTopicPart hdevice⟩
    · intro parsed hparsed'
      cases hparsed.symm.trans hparsed'
      exact ⟨rfl, rfl⟩
  · intro write calls now db
    rcases @Worker.leavesOthers_handle go pg write topic payload calls now db with
      hsame | ⟨parsed, hparsed', hleaves⟩
    · rw [hsame]
      exact .refl ..
    · cases hparsed.symm.trans hparsed'
      exact hleaves

/-- A broker that sends the user name alone, and one device whose secret is its name. -/
def pumpSetup : AuthSetup :=
  ⟨some fun _ deviceID secret => deviceID == secret, ascii "service", ascii "token",
    fun body => .ok ⟨body, ascii "pump", ascii "c1"⟩⟩

/-- The device may publish its acknowledgements and not those of another one, and it does not change
the command of another one in its own name. -/
theorem device_speaks_for_itself_pump : ∃ response,
    mqttAuthenticationHandler pumpSetup ⟨ascii "POST", ascii "token", ascii "t:pump"⟩ =
      .answer response ∧
    authorize response.acl .publish (ascii "tenant/t/device/pump/ack") = some .allow ∧
    authorize response.acl .publish (ascii "tenant/t/device/e/ack") ≠ some .allow ∧
    ∀ payload calls now,
      (Worker.handleAckMessage .plain .plain (fun _ _ => .ok ())
        (ascii "tenant/t/device/pump/ack") payload calls now otherDb).2.view (ascii "c") =
      otherDb.view (ascii "c") := by
  have hanswer : mqttAuthenticationHandler pumpSetup
      ⟨ascii "POST", ascii "token", ascii "t:pump"⟩ =
      .answer ⟨.allow, [("role", Role.device.text), ("tenant_id", ascii "t"),
        ("device_id", ascii "pump")], deviceACL (ascii "t") (ascii "pump")⟩ := by decide +kernel
  obtain ⟨req, tenantID, deviceID, hreq, husername, _, _, _, hexact, _, hidentity, hspeaks⟩ :=
    device_speaks_for_itself hanswer rfl (by decide)
  cases hreq
  have hparsed : parseDeviceUsername (ascii "t:pump") = some (ascii "t", ascii "pump") := by
    decide +kernel
  rw [hparsed] at husername
  cases husername
  have hown := (hexact .publish (ascii "tenant/t/device/pump/ack")).mpr (.ack (by decide +kernel))
  refine ⟨_, hanswer, hown, fun hother => ?_, fun payload calls now => ?_⟩
  · have hpermitted : Permitted (ascii "t") (ascii "e") .publish
        (ascii "tenant/t/device/e/ack") := .ack (by decide +kernel)
    exact absurd (hidentity _ _ _ _ _ ((hexact _ _).mp hother) hpermitted).2 (by decide)
  · refine ((hspeaks .plain .plain _ payload hown).2 _ calls now otherDb).view _ fun row hrow => ?_
    obtain rfl : otherCommand = row := Option.some.inj hrow
    decide

end Iot.Mqtt
