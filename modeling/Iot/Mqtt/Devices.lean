import Iot.Contracts.Identity
import Iot.Mqtt.Auth

/-!
# What a device may do on the broker

`MQTTAuthenticationHandler` (`internal/platform/mqtt_auth.go`) answers the broker with a list of
rules for the client. The broker takes the first rule that applies (`authorize`), and asks its other
sources only if none does.

`device_permissions` says what a device gets: it may publish its telemetry and its acknowledgements
and subscribe to its commands, and nothing else, except for what the broker decides without the list
about topics that start with a dollar sign.
-/

namespace Iot.Mqtt

open Text Contracts

/-! ## The handler -/

/-- `MQTTAuthRequest`. -/
structure AuthRequest where
  username : Bytes
  password : Bytes
  clientID : Bytes
  deriving DecidableEq, Repr

/-- `MQTTAuthResponse`. -/
structure AuthResponse where
  result : Permission
  clientAttrs : List (String × Bytes)
  acl : List ACLRule
  deriving DecidableEq, Repr

/-- What the handler writes: an error with a status, or an answer with status 200. -/
inductive AuthReply where
  | error (status : Nat) (message : String)
  | answer (response : AuthResponse)
  deriving DecidableEq, Repr

/-- A callback of the broker: the method, the header with the token and the body. -/
structure AuthCallback where
  method : Bytes
  token : Bytes
  body : Bytes
  deriving DecidableEq, Repr

/-- The arguments of `MQTTAuthenticationHandler`, and the JSON decoder it uses. -/
structure AuthSetup where
  authenticator : Option (Bytes → Bytes → Bytes → Bool)
  internalPassword : Bytes
  callbackToken : Bytes
  decodeBody : Bytes → Except GoError AuthRequest

/-- `internalMQTTUsername`. -/
def internalMQTTUsername : Bytes := ascii "iot-service"

/-- `secureEqual`. -/
def secureEqual (left right : Bytes) : Bool := !left.isEmpty && !right.isEmpty && left == right

/-- The prefixes of `isReservedMQTTClientID`. -/
def reservedMarks : List Bytes :=
  [ascii "iot-device-worker", ascii "iot-telemetry-ingestor", ascii "iot-demo"]

/-- `isReservedMQTTClientID`. -/
def isReservedMQTTClientID (id : Bytes) : Bool :=
  reservedMarks.any fun mark => id == mark || (mark ++ ascii "-").isPrefixOf id

/-- The text of a role. -/
def Role.text : Role → Bytes
  | .telemetryIngestor => ascii "telemetry-ingestor"
  | .deviceWorker => ascii "device-worker"
  | .demo => ascii "demo"
  | .device => ascii "device"

/-- The rules of a device. -/
def deviceACL (tenantID deviceID : Bytes) : List ACLRule :=
  withACLGuard
    [⟨.allow, .publish, literalMark ++ deviceTopic tenantID deviceID topicSuffixTelemetry⟩,
      ⟨.allow, .publish, literalMark ++ deviceTopic tenantID deviceID topicSuffixAck⟩,
      ⟨.allow, .subscribe, literalMark ++ deviceTopic tenantID deviceID topicSuffixCommand⟩]

/-- The answer that denies. -/
def AuthResponse.deny : AuthResponse := ⟨.deny, [], []⟩

/-- The rules of a service, if its name and password are presented. -/
def serviceRole (setup : AuthSetup) (req : AuthRequest) : Option (Role × List ACLRule) :=
  if req.username = internalMQTTUsername ∧ secureEqual req.password setup.internalPassword then
    internalMQTTRole req.clientID
  else none

/-- The secret of a device is verified. Without an authenticator none is. -/
def AuthSetup.verifies (setup : AuthSetup) (tenantID deviceID secret : Bytes) : Bool :=
  match setup.authenticator with
  | none => false
  | some authenticate => authenticate tenantID deviceID secret

/-- The answer to a request. -/
def AuthSetup.answer (setup : AuthSetup) (req : AuthRequest) : AuthResponse :=
  match serviceRole setup req with
  | some (role, acl) => ⟨.allow, [("role", role.text)], acl⟩
  | none =>
      if isReservedMQTTClientID req.clientID then .deny
      else
        match parseDeviceUsername req.username with
        | none => .deny
        | some (tenantID, deviceID) =>
            if !setup.verifies tenantID deviceID req.password then .deny
            else
              ⟨.allow, [("role", Role.device.text), ("tenant_id", tenantID),
                ("device_id", deviceID)], deviceACL tenantID deviceID⟩

/-- `MQTTAuthenticationHandler`. -/
def mqttAuthenticationHandler (setup : AuthSetup) (callback : AuthCallback) : AuthReply :=
  if callback.method ≠ ascii "POST" then .error 405 "method not allowed"
  else if setup.callbackToken.isEmpty || !secureEqual callback.token setup.callbackToken then
    .error 401 "invalid callback token"
  else
    match setup.decodeBody callback.body with
    | .error _ => .answer .deny
    | .ok req => .answer (setup.answer req)

/-! ## What the broker makes of the rules -/

/-- A filter that starts with a wildcard is not about topics that start with a dollar sign. -/
def hidden (filter topic : Bytes) : Bool :=
  topic.head? == some 0x24 && (filter.head? == some 0x23 || filter.head? == some 0x2B)

/-- A rule applies to an action on a topic. -/
def ACLRule.applies (rule : ACLRule) (action : Action) (topic : Bytes) : Bool :=
  (rule.action == .all || rule.action == action) && rule.covers topic && !hidden rule.topic topic

/-- The permission of the first rule that applies, if any does. -/
def authorize (acl : List ACLRule) (action : Action) (topic : Bytes) : Option Permission :=
  (acl.find? fun rule => rule.applies action topic).map ACLRule.permission

@[simp] theorem authorize_nil (action : Action) (topic : Bytes) :
    authorize [] action topic = none := rfl

/-- The first rule decides, if it applies. -/
theorem authorize_cons (rule : ACLRule) (rest : List ACLRule) (action : Action) (topic : Bytes) :
    authorize (rule :: rest) action topic =
      if rule.applies action topic then some rule.permission else authorize rest action topic := by
  rw [authorize, List.find?_cons]
  cases rule.applies action topic with
  | true => rfl
  | false => rfl

/-- What a device may do. -/
inductive Permitted (tenantID deviceID : Bytes) : Action → Bytes → Prop where
  | telemetry {topic : Bytes}
      (h : buildDeviceTopic tenantID deviceID topicSuffixTelemetry = .ok topic) :
      Permitted tenantID deviceID .publish topic
  | ack {topic : Bytes} (h : buildDeviceTopic tenantID deviceID topicSuffixAck = .ok topic) :
      Permitted tenantID deviceID .publish topic
  | command {topic : Bytes}
      (h : buildDeviceTopic tenantID deviceID topicSuffixCommand = .ok topic) :
      Permitted tenantID deviceID .subscribe topic

/-- What a device may do is about a topic of its own. -/
theorem Permitted.parsed {tenantID deviceID topic : Bytes} {action : Action}
    (h : Permitted tenantID deviceID action topic) :
    ∃ suffix, parseDeviceTopic topic = some ⟨tenantID, deviceID, suffix⟩ := by
  cases h with
  | telemetry h => exact ⟨_, buildDeviceTopic_eq_ok.mp h⟩
  | ack h => exact ⟨_, buildDeviceTopic_eq_ok.mp h⟩
  | command h => exact ⟨_, buildDeviceTopic_eq_ok.mp h⟩

/-- Whether something is permitted does not depend on another device. -/
theorem Permitted.identity {tenantID deviceID tenantID' deviceID' topic : Bytes}
    {action action' : Action} (h : Permitted tenantID deviceID action topic)
    (h' : Permitted tenantID' deviceID' action' topic) :
    tenantID = tenantID' ∧ deviceID = deviceID' := by
  obtain ⟨suffix, hsuffix⟩ := h.parsed
  obtain ⟨suffix', hsuffix'⟩ := h'.parsed
  rw [hsuffix, Option.some.injEq, DeviceTopic.mk.injEq] at hsuffix'
  exact ⟨hsuffix'.1, hsuffix'.2.1⟩

/-- A rule with a literal topic applies to that topic. -/
theorem applies_literal (permission : Permission) (allowed action : Action) (literal topic : Bytes)
    (hallowed : allowed ≠ .all) :
    ACLRule.applies ⟨permission, allowed, literalMark ++ literal⟩ action topic =
      decide (allowed = action ∧ literal = topic) := by
  have hmark : literalMark.isPrefixOf (literalMark ++ literal) = true :=
    List.isPrefixOf_iff_prefix.mpr (List.prefix_append _ _)
  have hhidden : hidden (literalMark ++ literal) topic = false := by
    have hhead : (literalMark ++ literal).head? = some 0x65 := rfl
    simp [hidden, hhead]
  simp only [ACLRule.applies, ACLRule.covers, hmark, if_true, List.drop_left, hhidden,
    Bool.not_false, Bool.and_true]
  rw [Bool.eq_iff_iff]
  simp [hallowed]

/-- The last rule applies to every topic but those that start with a dollar sign. -/
theorem applies_aclDenyAll (action : Action) (topic : Bytes) :
    aclDenyAll.applies action topic = !(topic.head? == some 0x24) := by
  have hcovers : aclDenyAll.covers topic = true := by
    have hmark : literalMark.isPrefixOf aclDenyAll.topic = false := by decide
    have hlevels : levels aclDenyAll.topic = [hash] := @levels_single (ascii "#") (by decide)
    rw [ACLRule.covers, hmark, if_neg Bool.false_ne_true, topicMatches, hlevels]
    cases levels topic with
    | nil => rfl
    | cons word words => simp [matchLevels]
  have hhidden : hidden aclDenyAll.topic topic = (topic.head? == some 0x24) := by
    have hhead : aclDenyAll.topic.head? = some 0x23 := rfl
    simp [hidden, hhead]
  rw [ACLRule.applies, hcovers, hhidden, show aclDenyAll.action = .all from rfl]
  simp

/-- The suffixes of the topics are valid. -/
theorem isValidTopicPart_deviceSuffixes {suffix : Bytes} (h : suffix ∈ deviceSuffixes) :
    isValidTopicPart suffix := by
  have hall : ∀ suffix ∈ deviceSuffixes, isValidTopicPart suffix = true := by decide +kernel
  exact hall suffix h

/-- What the topics of a device are. -/
theorem buildDeviceTopic_valid {tenantID deviceID suffix topic : Bytes}
    (htenant : isValidTenantID tenantID) (hdevice : isValidTopicPart deviceID)
    (hsuffix : suffix ∈ deviceSuffixes) :
    buildDeviceTopic tenantID deviceID suffix = .ok topic ↔
      deviceTopic tenantID deviceID suffix = topic := by
  rw [buildDeviceTopic_eq_ok, parseDeviceTopic_eq_some]
  have hpart := isValidTopicPart_deviceSuffixes hsuffix
  simp only [htenant, hdevice, hpart, true_and]
  exact eq_comm

/-- The rules of a device allow what it may do, and leave open only what starts with a dollar
sign. -/
theorem authorize_deviceACL {tenantID deviceID : Bytes} (htenant : isValidTenantID tenantID)
    (hdevice : isValidTopicPart deviceID) (action : Action) (topic : Bytes) :
    (authorize (deviceACL tenantID deviceID) action topic = some .allow ↔
      Permitted tenantID deviceID action topic) ∧
    (authorize (deviceACL tenantID deviceID) action topic = none → topic.head? = some 0x24) := by
  have hbuild : ∀ {suffix : Bytes}, suffix ∈ deviceSuffixes →
      (buildDeviceTopic tenantID deviceID suffix = .ok topic ↔
        deviceTopic tenantID deviceID suffix = topic) := fun hsuffix =>
    buildDeviceTopic_valid htenant hdevice hsuffix
  have hpermitted : Permitted tenantID deviceID action topic ↔
      (Action.publish = action ∧ deviceTopic tenantID deviceID topicSuffixTelemetry = topic) ∨
      (Action.publish = action ∧ deviceTopic tenantID deviceID topicSuffixAck = topic) ∨
      (Action.subscribe = action ∧ deviceTopic tenantID deviceID topicSuffixCommand = topic) := by
    rw [← @hbuild topicSuffixTelemetry (by simp [deviceSuffixes]),
      ← @hbuild topicSuffixAck (by simp [deviceSuffixes]),
      ← @hbuild topicSuffixCommand (by simp [deviceSuffixes])]
    constructor
    · intro h
      cases h with
      | telemetry h => exact Or.inl ⟨rfl, h⟩
      | ack h => exact Or.inr (Or.inl ⟨rfl, h⟩)
      | command h => exact Or.inr (Or.inr ⟨rfl, h⟩)
    · rintro (⟨rfl, h⟩ | ⟨rfl, h⟩ | ⟨rfl, h⟩)
      · exact .telemetry h
      · exact .ack h
      · exact .command h
  have hrules : authorize (deviceACL tenantID deviceID) action topic =
      if Action.publish = action ∧ deviceTopic tenantID deviceID topicSuffixTelemetry = topic then
        some .allow
      else if Action.publish = action ∧ deviceTopic tenantID deviceID topicSuffixAck = topic then
        some .allow
      else if Action.subscribe = action ∧
          deviceTopic tenantID deviceID topicSuffixCommand = topic then some .allow
      else if topic.head? ≠ some 0x24 then some .deny else none := by
    simp only [deviceACL, withACLGuard, List.cons_append, List.nil_append, authorize_cons,
      applies_literal _ _ action _ topic (by decide : Action.publish ≠ .all),
      applies_literal _ _ action _ topic (by decide : Action.subscribe ≠ .all), applies_aclDenyAll,
      authorize_nil, decide_eq_true_eq, Bool.not_eq_true', beq_eq_false_iff_ne]
    rfl
  rw [hrules, hpermitted]
  split_ifs with htelemetry hack hcommand hdollar
  · exact ⟨iff_of_true rfl (Or.inl htelemetry), fun h => by cases h⟩
  · exact ⟨iff_of_true rfl (Or.inr (Or.inl hack)), fun h => by cases h⟩
  · exact ⟨iff_of_true rfl (Or.inr (Or.inr hcommand)), fun h => by cases h⟩
  · refine ⟨iff_of_false (by decide) ?_, fun h => by cases h⟩
    rintro (h | h | h)
    · exact htelemetry h
    · exact hack h
    · exact hcommand h
  · refine ⟨iff_of_false (by decide) ?_, fun _ => not_not.mp hdollar⟩
    rintro (h | h | h)
    · exact htelemetry h
    · exact hack h
    · exact hcommand h

/-! ## Answers -/

/-- The requests that are allowed: those of services with a role, and those of devices whose secret
was verified and whose client id is not reserved for services. -/
inductive AuthSetup.Allows (setup : AuthSetup) (req : AuthRequest) : AuthResponse → Prop where
  | service {role : Role} {acl : List ACLRule} (h : serviceRole setup req = some (role, acl)) :
      Allows setup req ⟨.allow, [("role", role.text)], acl⟩
  | device {tenantID deviceID : Bytes}
      (husername : parseDeviceUsername req.username = some (tenantID, deviceID))
      (hsecret : setup.verifies tenantID deviceID req.password)
      (hclient : isReservedMQTTClientID req.clientID = false) :
      Allows setup req ⟨.allow, [("role", Role.device.text), ("tenant_id", tenantID),
        ("device_id", deviceID)], deviceACL tenantID deviceID⟩

/-- Nothing else is allowed. -/
theorem AuthSetup.allows {setup : AuthSetup} {req : AuthRequest}
    (h : (setup.answer req).result = .allow) : setup.Allows req (setup.answer req) := by
  rw [AuthSetup.answer] at h ⊢
  cases hrole : serviceRole setup req with
  | some found => exact .service hrole
  | none =>
      simp only [hrole] at h ⊢
      split_ifs at h ⊢ with hreserved
      · cases h
      cases husername : parseDeviceUsername req.username with
      | none =>
          simp only [husername] at h
          cases h
      | some identity =>
          simp only [husername] at h ⊢
          split_ifs at h ⊢ with hsecret
          · cases h
          · exact .device husername (by simpa using hsecret) (by simpa using hreserved)

/-- An answer that allows is one to a request with the token of the broker. -/
theorem handler_allows {setup : AuthSetup} {callback : AuthCallback} {response : AuthResponse}
    (h : mqttAuthenticationHandler setup callback = .answer response)
    (hallow : response.result = .allow) :
    callback.token = setup.callbackToken ∧ setup.callbackToken ≠ [] ∧
      ∃ req, setup.decodeBody callback.body = .ok req ∧ setup.Allows req response := by
  rw [mqttAuthenticationHandler] at h
  split_ifs at h with hmethod htoken
  simp only [Bool.or_eq_true, List.isEmpty_iff, Bool.not_eq_true', not_or, Bool.not_eq_false,
    secureEqual, Bool.and_eq_true, beq_iff_eq] at htoken
  refine ⟨htoken.2.2, htoken.1, ?_⟩
  cases hbody : setup.decodeBody callback.body with
  | error err =>
      simp only [hbody, AuthReply.answer.injEq] at h
      rw [← h] at hallow
      cases hallow
  | ok req =>
      simp only [hbody, AuthReply.answer.injEq] at h
      rw [← h] at hallow
      exact ⟨req, rfl, h ▸ AuthSetup.allows hallow⟩

/-- The client ids of services are reserved. -/
theorem internalMQTTRole_eq_none {clientID : Bytes} (h : isReservedMQTTClientID clientID = false) :
    internalMQTTRole clientID = none := by
  simp only [isReservedMQTTClientID, reservedMarks, List.any_cons, List.any_nil, Bool.or_false,
    Bool.or_eq_false_iff] at h
  obtain ⟨⟨_, hworker⟩, ⟨_, hingestor⟩, _, hdemo⟩ := h
  have hworker' : (ascii "iot-device-worker-").isPrefixOf clientID = false := hworker
  have hingestor' : (ascii "iot-telemetry-ingestor-").isPrefixOf clientID = false := hingestor
  have hdemo' : demoMark.isPrefixOf clientID = false := hdemo
  rw [internalMQTTRole, if_neg (by rw [hingestor']; exact Bool.false_ne_true),
    if_neg (by rw [hworker']; exact Bool.false_ne_true),
    if_neg (by rw [hdemo']; exact Bool.false_ne_true)]

/-- The text of a role of a service is not that of a device. -/
theorem internalMQTTRole_not_device {clientID : Bytes} {role : Role} {acl : List ACLRule}
    (h : internalMQTTRole clientID = some (role, acl)) : role ≠ .device := by
  unfold internalMQTTRole at h
  split_ifs at h
  · cases h
    decide
  · cases h
    decide
  · dsimp only at h
    split_ifs at h
    cases h
    decide

/-- A client that is allowed as a device has the name of one device and knows its secret, has a
client id that is not reserved for services, and may do what the device may do, if the broker takes
the first rule that applies. -/
theorem device_permissions {setup : AuthSetup} {callback : AuthCallback} {response : AuthResponse}
    (h : mqttAuthenticationHandler setup callback = .answer response)
    (hallow : response.result = .allow)
    (hrole : ("role", Role.device.text) ∈ response.clientAttrs) :
    ∃ req tenantID deviceID, setup.decodeBody callback.body = .ok req ∧
      parseDeviceUsername req.username = some (tenantID, deviceID) ∧
      setup.verifies tenantID deviceID req.password ∧
      isReservedMQTTClientID req.clientID = false ∧
      (∀ action topic, authorize response.acl action topic = some .allow ↔
        Permitted tenantID deviceID action topic) ∧
      ∀ action topic, authorize response.acl action topic = none → topic.head? = some 0x24 := by
  obtain ⟨_, _, req, hreq, hallows⟩ := handler_allows h hallow
  cases hallows with
  | @service role acl hservice =>
      -- a service has another role
      exfalso
      rw [serviceRole] at hservice
      split_ifs at hservice
      have hother := internalMQTTRole_not_device hservice
      simp only [List.mem_singleton, Prod.mk.injEq, true_and] at hrole
      revert hrole hother
      cases role <;> decide
  | @device tenantID deviceID husername hsecret hclient =>
      obtain ⟨htenant, hdevice, _⟩ := parseDeviceUsername_eq_some.mp husername
      refine ⟨req, tenantID, deviceID, hreq, husername, hsecret, hclient, ?_, ?_⟩
      · exact fun action topic => (authorize_deviceACL htenant hdevice action topic).1
      · exact fun action topic => (authorize_deviceACL htenant hdevice action topic).2

end Iot.Mqtt
