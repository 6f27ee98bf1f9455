import Iot.Contracts.Payload
import Iot.Contracts.Topics
import Iot.Platform.Capacity
import Iot.Store.Lifecycle
import Iot.Worker.Acks

/-!
# The checks on an acknowledgement agree

`handleAckMessage` checks a message before it calls the store, `AckCommandResult` checks its
arguments again, and `replayAck` checks the dead letter. `ack_checks_imply_store_checks` says
when the first checks are enough: the store asks for a valid command id and the handler only for
one that is not empty.

A healthy PostgreSQL takes every value that `ValidateJSONB` lets through.
-/

namespace Iot.Worker

open Text Json Contracts Platform Store

variable {go : GoRuntime} {pg : Postgres}

/-- What `ValidateJSONB` accepts can be cast to `jsonb`. -/
def Healthy (pg : Postgres) : Prop :=
  ∀ raw, validateJSONB raw = .ok () → ∃ column, pg.jsonb raw = .ok column

/-- The store answered: it succeeded, or it reported an unknown command or another result. -/
def Answered {α : Type} (result : Except GoError α) : Prop :=
  (∃ value, result = .ok value) ∨ ∃ err, result = .error err ∧ isFinal err

/-- What the handler's own checks accept. -/
theorem checkAck_eq_ok {topic payload : Bytes} {ack : CommandAckMessage} :
    checkAck go topic payload = .ok ack ↔
      CommandAckMessage.decode go payload = .ok ack ∧ ackIdentity topic ack ∧
        ∃ normalized, normalizeCommandResult go ack.result = .ok normalized := by
  rw [checkAck]
  cases hdecode : CommandAckMessage.decode go payload with
  | error err => simp
  | ok ack' =>
      by_cases hidentity : ackIdentity topic ack'
      · cases hresult : normalizeCommandResult go ack'.result with
        | error err =>
            simp only [hidentity, hresult, Bool.not_true, Bool.false_eq_true, if_false, false_iff,
              reduceCtorEq, Except.ok.injEq]
            rintro ⟨rfl, _, normalized, hnormalized⟩
            rw [hresult] at hnormalized
            cases hnormalized
        | ok normalized =>
            simp only [hidentity, hresult, Bool.not_true, Bool.false_eq_true, if_false,
              Except.ok.injEq]
            constructor
            · rintro rfl
              exact ⟨rfl, hidentity, normalized, hresult⟩
            · rintro ⟨rfl, _⟩
              rfl
      · simp only [hidentity, Bool.not_false, if_true, Except.ok.injEq, false_iff, reduceCtorEq]
        rintro ⟨rfl, hidentity', _⟩
        exact hidentity hidentity'

/-- What the identity checks accept. -/
theorem ackIdentity_iff {topic : Bytes} {ack : CommandAckMessage} :
    ackIdentity topic ack ↔
      parseDeviceTopic topic = some ⟨ack.tenantID, ack.deviceID, topicSuffixAck⟩ ∧
        ack.commandID ≠ [] := by
  rw [ackIdentity]
  cases hparsed : parseDeviceTopic topic with
  | none => simp
  | some parsed =>
      obtain ⟨tenant, device, suffix⟩ := parsed
      simp only [decide_eq_true_eq, Option.some.injEq, DeviceTopic.mk.injEq]
      tauto

/-- The payload of a message that was decoded leaves a level of nesting, that of the message. -/
theorem decode_leavesLevel {raw : Bytes} {ack : CommandAckMessage}
    (h : CommandAckMessage.decode go raw = .ok ack) :
    ack.payload = [] ∨ LeavesLevel ack.payload := by
  simp only [CommandAckMessage.decode, decodeRequestJSON, bind_eq_ok] at h
  obtain ⟨_, _, _, _, _, _, _, _, _, _, h⟩ := h
  split at h
  · cases h
  rename_i doc hparse
  split at h
  swap
  · cases h
  rename_i decoded hdecode
  obtain rfl : decoded = ack := Except.ok.inj h
  refine decodeObject_invariant (fun ack => ack.payload = [] ∨ LeavesLevel ack.payload) ?_
    (.inl rfl) hdecode
  intro field hfield member hmember record next hrecord hstore
  -- a text is stored beside the payload, and a raw value is the text of a member
  have hkeeps : ∀ {path name goType : String} {set : Bytes → CommandAckMessage → CommandAckMessage},
      (strField path name goType set).store member.value record = .ok next →
      (∀ s, (set s record).payload = record.payload) →
      next.payload = [] ∨ LeavesLevel next.payload := by
    intro path name goType set hstored hset
    obtain rfl | ⟨s, rfl⟩ := strField_store hstored
    · exact hrecord
    · rw [hset]
      exact hrecord
  simp only [CommandAckMessage.fields, List.mem_cons, List.not_mem_nil, or_false] at hfield
  obtain rfl | rfl | rfl | rfl | rfl | rfl := hfield
  · exact hkeeps hstore fun _ => rfl
  · exact hkeeps hstore fun _ => rfl
  · exact hkeeps hstore fun _ => rfl
  · exact hkeeps hstore fun _ => rfl
  · exact hkeeps hstore fun _ => rfl
  · cases hstore
    have hvalue : parseWithin (maxNestingDepth - 1) (slice member.value) =
        some (trimHead member.value) := parseWithin_member hparse hmember
    exact .inr (by rw [LeavesLevel, hvalue]; rfl)

/-- A normalized result can be stored. Its payload is a document. -/
theorem normalized_storable (hpg : Healthy pg) {input normalized : CommandResult}
    (h : normalizeCommandResult go input = .ok normalized) :
    ∃ column, storedResult pg normalized = .ok column := by
  simp only [normalizeCommandResult, bind_eq_ok, returnIf_eq_ok] at h
  obtain ⟨_, _, _, _, _, _, _, _, _, _, _, _, _, hpayload, h⟩ := h
  cases h
  rw [validateCommandPayload, if_neg (orEmptyObject_ne_nil _), bind_eq_ok] at hpayload
  obtain ⟨⟨⟩, hjsonb, _⟩ := hpayload
  obtain ⟨column, hcolumn⟩ := hpg _ hjsonb
  exact ⟨_, by simp only [storedResult, hcolumn]; rfl⟩

/-- A normalized result can be written if its payload leaves a level for the result. -/
theorem normalized_encodable {input normalized : CommandResult}
    (h : normalizeCommandResult go input = .ok normalized)
    (hlevel : input.payload = [] ∨ LeavesLevel input.payload) :
    ∃ toks, resultToks go 0 normalized = .ok toks := by
  simp only [normalizeCommandResult, bind_eq_ok, returnIf_eq_ok] at h
  obtain ⟨_, _, _, _, _, _, _, _, _, _, _, hbudget, _, _, h⟩ := h
  cases h
  have hlevel' : LeavesLevel (orEmptyObject input.payload) := by
    obtain hempty | hlevel := hlevel
    · rw [hempty]
      decide +kernel
    · unfold orEmptyObject
      split_ifs
      · decide +kernel
      · exact hlevel
  obtain ⟨_, _, lexemes, hparse, _⟩ := validateJSONBBudget_eq_ok.mp hbudget
  have hraw := (rawToks_eq_some (orEmptyObject_ne_nil _) hparse).mpr ⟨hlevel', rfl⟩
  have hvalue : rawValue go 1 (orEmptyObject input.payload) =
      .ok (lexemes.map fun l => escapeTok l.tok) := by
    unfold rawValue
    rw [hraw]
  exact ⟨_, by simp only [resultToks, Nat.zero_add, hvalue]; rfl⟩

/-- The result of an open command is stored. -/
theorem acknowledgeRow_open (hpg : Healthy pg) {input normalized : CommandResult}
    (h : normalizeCommandResult go input = .ok normalized) (now : Time) {db : Db}
    {row : CommandRow} (hrow : db.commands.find? row.id = some row)
    (hopen : row.status.terminal = false) :
    ∃ next event result, storedResult pg normalized = .ok result ∧
      commandEvent? normalized.status = some event ∧
      advanceCommandStatus row.status event = .ok next ∧
      acknowledgeRow pg normalized now db row hrow =
        .ok ({ row.command with status := next, updatedAt := now, result := some normalized },
          db.acknowledge row hrow next event result now) := by
  obtain ⟨result, hstored⟩ := @normalized_storable go pg hpg _ _ h
  obtain ⟨hnormalized, hstatus⟩ := normalize_status h
  -- from an open status both reports lead to a final one
  have hadvance : ∀ event : CommandEvent, event = .acked ∨ event = .failed →
      ∃ next, advanceCommandStatus row.status event = .ok next := by
    intro event hevent
    rcases hevent with rfl | rfl <;> cases hcurrent : row.status <;>
      simp_all [advanceCommandStatus, CommandStatus.terminal]
  obtain ⟨event, hevent, hcase⟩ : ∃ event : CommandEvent,
      commandEvent? normalized.status = some event ∧ (event = .acked ∨ event = .failed) := by
    rw [hnormalized]
    rcases hstatus with hstatus | hstatus <;> rw [hstatus]
    · exact ⟨.acked, by decide, Or.inl rfl⟩
    · exact ⟨.failed, by decide, Or.inr rfl⟩
  obtain ⟨next, hnext⟩ := hadvance event hcase
  refine ⟨next, event, result, hstored, hevent, hnext, ?_⟩
  unfold acknowledgeRow
  simp only [hopen, hevent, hnext, hstored, bind, Except.bind, Bool.false_eq_true, if_false]
  rfl

/-- The store answers once the command has been found to belong to the device. -/
theorem acknowledgeRow_answered (hpg : Healthy pg) {input normalized : CommandResult}
    (h : normalizeCommandResult go input = .ok normalized) (now : Time) (db : Db)
    (row : CommandRow) (hrow : db.commands.find? row.id = some row) :
    Answered (acknowledgeRow pg normalized now db row hrow) := by
  by_cases hterminal : row.status.terminal
  · obtain ⟨column, hcolumn⟩ := @normalized_storable go pg hpg _ _ h
    unfold acknowledgeRow
    rw [if_pos hterminal]
    cases row.result with
    | none => exact Or.inl ⟨_, rfl⟩
    | some stored =>
        simp only [hcolumn, bind, Except.bind]
        split_ifs
        · exact Or.inl ⟨_, rfl⟩
        · exact Or.inr ⟨_, rfl, by decide⟩
  · obtain ⟨_, _, _, _, _, _, hok⟩ :=
      acknowledgeRow_open hpg h now hrow (by simpa using hterminal)
    exact Or.inl ⟨_, hok⟩

/-- An id that is not valid is refused before anything is looked up. -/
theorem ackCommandResult_invalid {ack : CommandAckMessage}
    (hidentity : validateDeviceIdentity ack.tenantID ack.deviceID = .ok ())
    (hid : ¬ isValidTopicPart ack.commandID) (now : Time) (db : Db) :
    ackCommandResult go pg ack.commandID ack.tenantID ack.deviceID ack.result now db =
      .error (errInvalidEnvelope.wrap (ascii "valid commandId is required")) := by
  have hcommand : validateCommandID ack.commandID =
      .error (errInvalidEnvelope.wrap (ascii "valid commandId is required")) := by
    simp [validateCommandID, hid]
  simp only [ackCommandResult, hidentity, hcommand, bind, Except.bind]

/-- The store answers exactly the calls with a valid command id. -/
theorem ackCommandResult_answered (hpg : Healthy pg) {ack : CommandAckMessage}
    {normalized : CommandResult}
    (hidentity : validateDeviceIdentity ack.tenantID ack.deviceID = .ok ())
    (hresult : normalizeCommandResult go ack.result = .ok normalized)
    (hlevel : ack.payload = [] ∨ LeavesLevel ack.payload) (now : Time) (db : Db) :
    Answered (ackCommandResult go pg ack.commandID ack.tenantID ack.deviceID ack.result now db) ↔
      isValidTopicPart ack.commandID := by
  obtain ⟨toks, htoks⟩ := normalized_encodable hresult hlevel
  by_cases hid : isValidTopicPart ack.commandID
  · have hcommand : validateCommandID ack.commandID = .ok () := by
      simp [validateCommandID, hid]
    simp only [ackCommandResult, hidentity, hcommand, hresult, htoks, bind, Except.bind, hid,
      iff_true]
    split
    · exact Or.inr ⟨_, rfl, by decide⟩
    · split_ifs
      · exact Or.inr ⟨_, rfl, by decide⟩
      · exact acknowledgeRow_answered hpg hresult now db _ _
  · rw [ackCommandResult_invalid hidentity hid]
    refine iff_of_false ?_ hid
    rintro (⟨value, hvalue⟩ | ⟨err, herr, hfinal⟩)
    · cases hvalue
    · cases herr
      exact absurd hfinal (by decide)

/-! ## Dead letters of acknowledgements -/

/-- Once the id is valid, a call that is executed ends the attempts. -/
theorem storeAck_executed (hpg : Healthy pg) {ack : CommandAckMessage}
    {normalized : CommandResult}
    (hidentity : validateDeviceIdentity ack.tenantID ack.deviceID = .ok ())
    (hresult : normalizeCommandResult go ack.result = .ok normalized)
    (hlevel : ack.payload = [] ∨ LeavesLevel ack.payload) (hid : isValidTopicPart ack.commandID)
    (left : Nat) (now : Time) (calls : List StoreCall) (db : Db) :
    ∃ ended, storeAck go pg ack (left + 1) (.executed now :: calls) db =
        (ended, committed db
          (ackCommandResult go pg ack.commandID ack.tenantID ack.deviceID ack.result now db)) ∧
      (ended = .done ∨ ∃ err, isFinal err ∧ ended = .failed err) := by
  unfold storeAck applyAck
  rcases (ackCommandResult_answered hpg hidentity hresult hlevel now db).mpr hid with
    ⟨value, hvalue⟩ | ⟨err, herr, hfinal⟩
  · exact ⟨.done, by simp only [hvalue, Except.map], Or.inl rfl⟩
  · exact ⟨.failed err, by simp only [herr, Except.map, hfinal, true_or, if_true],
      Or.inr ⟨err, hfinal, rfl⟩⟩

/-- Once the id is valid, the attempts fail for another reason than an answer of the store only
when every call was lost. -/
theorem storeAck_failed (hpg : Healthy pg) {ack : CommandAckMessage} {normalized : CommandResult}
    (hidentity : validateDeviceIdentity ack.tenantID ack.deviceID = .ok ())
    (hresult : normalizeCommandResult go ack.result = .ok normalized)
    (hlevel : ack.payload = [] ∨ LeavesLevel ack.payload) (hid : isValidTopicPart ack.commandID)
    {left : Nat} {calls : List StoreCall} {db after : Db} {err : GoError}
    (h : storeAck go pg ack left calls db = (.failed err, after))
    (hfinal : isFinal err = false) :
    left ≤ calls.length ∧
      ∀ call ∈ calls.take left, ∃ cause now applied, call = .lost cause now applied := by
  induction left generalizing calls db with
  | zero => simp
  | succ left ih =>
      cases calls with
      | nil => simp [storeAck] at h
      | cons call calls =>
          have hlost : ∃ cause now applied, call = .lost cause now applied := by
            cases call with
            | lost cause now applied => exact ⟨cause, now, applied, rfl⟩
            | executed now =>
                obtain ⟨ended, hended, hcase⟩ :=
                  storeAck_executed hpg hidentity hresult hlevel hid left now calls db
                rw [hended] at h
                rcases hcase with rfl | ⟨err', hfinal', rfl⟩
                · cases h
                · cases h
                  rw [hfinal'] at hfinal
                  cases hfinal
          obtain ⟨cause, now, applied, rfl⟩ := hlost
          simp only [storeAck, applyAck] at h
          by_cases hlast : isFinal (lostError cause) ∨ left = 0
          · rw [if_pos hlast] at h
            -- the last attempt, since the error is not final
            have hleft : left = 0 := by
              rcases hlast with hlast | hlast
              · cases h
                rw [hlast] at hfinal
                cases hfinal
              · exact hlast
            subst hleft
            refine ⟨by simp, ?_⟩
            simp only [Nat.zero_add, List.take_succ_cons, List.take_zero, List.mem_singleton,
              forall_eq]
            exact ⟨cause, now, applied, rfl⟩
          · rw [if_neg hlast] at h
            obtain ⟨hlength, hall⟩ := ih h
            refine ⟨by simpa using hlength, ?_⟩
            simp only [List.take_succ_cons, List.forall_mem_cons]
            exact ⟨⟨cause, now, applied, rfl⟩, hall⟩

/-- When an acknowledgement becomes a dead letter, and when it fails because the dead-letter topic
does not take it. -/
theorem handleAckMessage_buried {write : Bytes → Bytes → Except GoError Unit}
    {topic payload : Bytes} {ack : CommandAckMessage}
    (h : checkAck go topic payload = .ok ack) {calls : List StoreCall} {now : Time}
    {db after : Db} {err : GoError} :
    (handleAckMessage go pg write topic payload calls now db = (.deadLettered err, after) ↔
      (storeAck go pg ack ackStoreAttempts calls db = (.failed err, after) ∧ isFinal err = false) ∧
        write topic (deadLetterOf (ackMessage topic payload ack) .commandAck err now).marshal =
          .ok ()) ∧
    (handleAckMessage go pg write topic payload calls now db = (.failed err, after) ↔
      (storeAck go pg ack ackStoreAttempts calls db = (.failed err, after) ∧ isFinal err = false) ∧
        write topic (deadLetterOf (ackMessage topic payload ack) .commandAck err now).marshal ≠
          .ok ()) := by
  simp only [handleAckMessage, h]
  rcases storeAck go pg ack ackStoreAttempts calls db with ⟨_ | err' | _, after'⟩
  · simp
  · by_cases hfinal : isFinal err'
    · simp only [hfinal, if_true, Prod.mk.injEq, Stored.failed.injEq, reduceCtorEq, false_and,
        false_iff]
      constructor <;> rintro ⟨⟨⟨rfl, _⟩, hfinal'⟩, _⟩ <;> simp [hfinal] at hfinal'
    · simp only [hfinal, if_false, Prod.mk.injEq, Stored.failed.injEq, Bool.false_eq_true]
      cases hwrite : write topic (deadLetterOf (ackMessage topic payload ack) .commandAck err'
          now).marshal with
      | ok value =>
          simp only [Prod.mk.injEq, AckOutcome.deadLettered.injEq, reduceCtorEq, false_and,
            false_iff]
          constructor
          · constructor
            · rintro ⟨rfl, rfl⟩
              exact ⟨⟨⟨rfl, rfl⟩, by simpa using hfinal⟩, hwrite⟩
            · rintro ⟨⟨hstored, _⟩, _⟩
              exact hstored
          · rintro ⟨⟨⟨rfl, _⟩, _⟩, hne⟩
            exact hne hwrite
      | error failure =>
          simp only [Prod.mk.injEq, AckOutcome.failed.injEq, reduceCtorEq, false_and, false_iff]
          constructor
          · rintro ⟨⟨⟨rfl, _⟩, _⟩, hok⟩
            rw [hwrite] at hok
            cases hok
          · constructor
            · rintro ⟨rfl, rfl⟩
              exact ⟨⟨⟨rfl, rfl⟩, by simpa using hfinal⟩, by simp [hwrite]⟩
            · rintro ⟨⟨hstored, _⟩, _⟩
              exact hstored
  · simp

/-- The dead letter of an acknowledgement that was accepted is accepted again. -/
theorem checkReplayAck_deadLetterOf {topic payload : Bytes} {ack : CommandAckMessage}
    (h : checkAck go topic payload = .ok ack) (cause : GoError) (now : Time) :
    ∃ item, DeadLetter.unmarshal go
        (deadLetterOf (ackMessage topic payload ack) .commandAck cause now).marshal = .ok item ∧
      decode64 item.valueBase64 = some payload ∧ checkReplayAck go item payload = .ok ack := by
  obtain ⟨hdecode, hidentity, normalized, hresult⟩ := checkAck_eq_ok.mp h
  obtain ⟨hvalue, _⟩ :=
    DeadLetter.reread_deadLetterOf (ackMessage topic payload ack) .commandAck cause now
  have hzero : isInt64 0 := by decide
  refine ⟨_, DeadLetter.unmarshal_marshal_eq.mpr ⟨hzero, hzero, rfl⟩, ?_, ?_⟩
  · rw [hvalue]
    exact decode64_encode64 payload
  · -- the topic of a device is valid text, so that it is read as it was written
    have htopic : Json.reread topic = topic :=
      reread_of_valid (utf8Valid_deviceTopic (ackIdentity_iff.mp hidentity).1)
    have hsource : (deadLetterOf (ackMessage topic payload ack) .commandAck cause
        now).reread.sourceTopic = topic := htopic
    simp only [checkReplayAck, hdecode, hsource, hidentity, hresult, bind, Except.bind]
    rfl

/-- **The checks of the handler imply those of the store when the command id is valid**, and only
then: the store answers an acknowledgement that `handleAckMessage` accepted, whatever the tables
hold, exactly when its `commandId` is a valid topic part. With such an id only lost calls are
tried again or dead-lettered. The dead letter passes the checks of `replayAck` in any case. -/
theorem ack_checks_imply_store_checks (hpg : Healthy pg) {topic payload : Bytes}
    {ack : CommandAckMessage} (h : checkAck go topic payload = .ok ack) :
    (∀ now db,
      Answered (ackCommandResult go pg ack.commandID ack.tenantID ack.deviceID ack.result now db) ↔
        isValidTopicPart ack.commandID) ∧
    (isValidTopicPart ack.commandID → ∀ left now calls db,
      ∃ ended, storeAck go pg ack (left + 1) (.executed now :: calls) db =
          (ended, committed db
            (ackCommandResult go pg ack.commandID ack.tenantID ack.deviceID ack.result now db)) ∧
        (ended = .done ∨ ∃ err, isFinal err ∧ ended = .failed err)) ∧
    (isValidTopicPart ack.commandID → ∀ write calls now db after err,
      handleAckMessage go pg write topic payload calls now db = (.deadLettered err, after) ∨
          handleAckMessage go pg write topic payload calls now db = (.failed err, after) →
        ackStoreAttempts ≤ calls.length ∧ ∀ call ∈ calls.take ackStoreAttempts,
          ∃ cause now applied, call = .lost cause now applied) ∧
    ∀ cause now, ∃ item, DeadLetter.unmarshal go
        (deadLetterOf (ackMessage topic payload ack) .commandAck cause now).marshal = .ok item ∧
      decode64 item.valueBase64 = some payload ∧ checkReplayAck go item payload = .ok ack := by
  obtain ⟨hdecode, hack, normalized, hresult⟩ := checkAck_eq_ok.mp h
  have hlevel := decode_leavesLevel hdecode
  obtain ⟨htenant, hdevice, _⟩ := parseDeviceTopic_eq_some.mp (ackIdentity_iff.mp hack).1
  have hidentity : validateDeviceIdentity ack.tenantID ack.deviceID = .ok () := by
    simp [validateDeviceIdentity, htenant, hdevice]
  refine ⟨ackCommandResult_answered hpg hidentity hresult hlevel,
    storeAck_executed hpg hidentity hresult hlevel, ?_, checkReplayAck_deadLetterOf h⟩
  intro hid write calls now db after err hend
  have hfailed : storeAck go pg ack ackStoreAttempts calls db = (.failed err, after) ∧
      isFinal err = false := by
    rcases hend with hend | hend
    · exact ((handleAckMessage_buried h).1.mp hend).1
    · exact ((handleAckMessage_buried h).2.mp hend).1
  exact storeAck_failed hpg hidentity hresult hlevel hid hfailed.1 hfailed.2

/-! ## Two acknowledgements -/

/-- The topic of the acknowledgements of the device `d` of the tenant `t`. -/
def ackTopic : Bytes := ascii "tenant/t/device/d/ack"

/-- The acknowledgement of a command. -/
def ackedMessage (id : String) : CommandAckMessage :=
  ⟨ascii id, ascii "t", ascii "d", ascii "acked", [], []⟩

/-- The acknowledgement of a command in JSON. -/
def ackedPayload (id : String) : Bytes :=
  ascii "\x7b\"commandId\":\"" ++ ascii id ++
    ascii "\",\"tenantId\":\"t\",\"deviceId\":\"d\",\"status\":\"acked\"\x7d"

/-- A PostgreSQL that takes every value is healthy. -/
theorem healthy_plain : Healthy .plain := fun raw _ => ⟨raw, rfl⟩

/-- The store answers the acknowledgement of the command `c`. -/
theorem ack_checks_imply_store_checks_c :
    checkAck .plain ackTopic (ackedPayload "c") = .ok (ackedMessage "c") ∧
      ∀ now db, Answered (ackCommandResult .plain .plain (ascii "c") (ascii "t") (ascii "d")
        (ackedMessage "c").result now db) := by
  have hcheck : checkAck .plain ackTopic (ackedPayload "c") = .ok (ackedMessage "c") := by
    decide +kernel
  refine ⟨hcheck, fun now db => ?_⟩
  exact ((ack_checks_imply_store_checks healthy_plain hcheck).1 now db).mpr (by decide)

/-- The id `a/b` passes the checks of the handler and not those of the store: every call is
executed and none is answered, and the acknowledgement becomes a dead letter. -/
theorem ack_with_slash_in_id :
    checkAck .plain ackTopic (ackedPayload "a/b") = .ok (ackedMessage "a/b") ∧
      ackCommandResult .plain .plain (ascii "a/b") (ascii "t") (ascii "d")
          (ackedMessage "a/b").result zeroTime Db.empty =
        .error (errInvalidEnvelope.wrap (ascii "valid commandId is required")) ∧
      isFinal (errInvalidEnvelope.wrap (ascii "valid commandId is required")) = false ∧
      handleAckMessage .plain .plain (fun _ _ => .ok ()) ackTopic (ackedPayload "a/b")
          [.executed zeroTime, .executed zeroTime, .executed zeroTime] zeroTime Db.empty =
        (.deadLettered (errInvalidEnvelope.wrap (ascii "valid commandId is required")),
          Db.empty) := by
  have hcheck : checkAck .plain ackTopic (ackedPayload "a/b") = .ok (ackedMessage "a/b") := by
    decide +kernel
  have hstore : ackCommandResult .plain .plain (ascii "a/b") (ascii "t") (ascii "d")
      (ackedMessage "a/b").result zeroTime Db.empty =
        .error (errInvalidEnvelope.wrap (ascii "valid commandId is required")) := rfl
  refine ⟨hcheck, hstore, by decide, ?_⟩
  simp only [handleAckMessage, hcheck]
  rfl

end Iot.Worker
