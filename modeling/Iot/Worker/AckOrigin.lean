import Iot.Contracts.Identity
import Iot.Execution.Run
import Iot.Platform.Records
import Iot.Store.AckTransaction
import Iot.Worker.Acks

/-!
# Where acknowledgements come from

The worker changes a command only if someone spoke for its device: an acknowledgement came on the
topic of the device, now or before it was written to the dead-letter topic and replayed
(`acks_spoken`). Handling and replay compare the identity in the message with the topic, and the
store compares it with the command.
-/

namespace Iot.Worker

open Text Json Contracts Platform Store Data Execution

/-! ## The system -/

/-- The tables and the acknowledgements in the dead-letter topic. -/
structure AckWorld where
  db : Db
  dlq : List Bytes

/-- A step: the worker receives an acknowledgement, `dlq-replay` takes a dead letter, or another
command operation is executed. The dead-letter topic acknowledges a write or not; one that is not
acknowledged may have been applied all the same. -/
inductive AckAction where
  | receive (topic payload : Bytes) (calls : List StoreCall) (now : Time)
      (answer : Except GoError Unit) (applied : Bool)
  | replay (index : Nat) (now : Time)
  | operate (op : Op)

variable (go : GoRuntime) (pg : Postgres)

/-- The dead letter of an acknowledgement. -/
def ackLetter (topic payload : Bytes) (cause : GoError) (now : Time) : Option Bytes :=
  match checkAck go topic payload with
  | .error _ => none
  | .ok ack => some (deadLetterOf (ackMessage topic payload ack) .commandAck cause now).marshal

/-- What the worker leaves in the dead-letter topic. -/
def buriedAck (topic payload : Bytes) (outcome : AckOutcome) (now : Time) (applied : Bool) :
    List Bytes :=
  match outcome with
  | .deadLettered cause => (ackLetter go topic payload cause now).toList
  | .failed cause => if applied then (ackLetter go topic payload cause now).toList else []
  | _ => []

/-- `dlq-replay` with one record of the dead-letter topic, as far as it is an acknowledgement. -/
def replayLetter (raw : Bytes) (now : Time) (db : Db) : Db :=
  match DeadLetter.unmarshal go raw with
  | .error _ => db
  | .ok item =>
      match decode64 item.valueBase64 with
      | none => db
      | some value =>
          if item.stage = Stage.commandAck.text then
            committed db (replayAck go pg item value now db)
          else db

/-- The state after a step. -/
def AckWorld.step (world : AckWorld) : AckAction → AckWorld
  | .receive topic payload calls now answer applied =>
      let (outcome, db) := handleAckMessage go pg (fun _ _ => answer) topic payload calls now
        world.db
      ⟨db, world.dlq ++ buriedAck go topic payload outcome now applied⟩
  | .replay index now =>
      match world.dlq[index]? with
      | none => world
      | some raw => { world with db := replayLetter go pg raw now world.db }
  | .operate op => { world with db := Store.step go pg world.db op }

variable {go pg}

/-! ## One call of the store -/

/-- All commands but those of the device are left alone: their rows, acknowledgements and logs. -/
structure LeavesOthers (tenantID deviceID : Bytes) (before after : Db) : Prop where
  view : ∀ id, (∀ row, before.commands.find? id = some row →
    ¬ (row.tenantID = tenantID ∧ row.deviceID = deviceID)) → after.view id = before.view id

theorem LeavesOthers.refl (tenantID deviceID : Bytes) (db : Db) :
    LeavesOthers tenantID deviceID db db := ⟨fun _ _ => rfl⟩

/-- One change after another. -/
theorem LeavesOthers.trans {tenantID deviceID : Bytes} {first second third : Db}
    (h : LeavesOthers tenantID deviceID first second)
    (h' : LeavesOthers tenantID deviceID second third) :
    LeavesOthers tenantID deviceID first third := by
  refine ⟨fun id hother => ?_⟩
  have hview := h.view id hother
  have hfind : second.commands.find? id = first.commands.find? id := congrArg View.row hview
  rw [h'.view id (fun row hrow => hother row (hfind.symm.trans hrow)), hview]

/-- What acknowledging a command can change is that command. -/
theorem acknowledgeRow_view {normalized : CommandResult} {now : Time} {db : Db} {row : CommandRow}
    {hrow : db.commands.find? row.id = some row} {cmd : Command} {after : Db}
    (h : acknowledgeRow pg normalized now db row hrow = .ok (cmd, after)) {id : Bytes}
    (hid : row.id ≠ id) : after.view id = db.view id := by
  unfold acknowledgeRow at h
  split at h
  · split at h
    · cases h
      rfl
    · simp only [bind_eq_ok] at h
      obtain ⟨_, _, h⟩ := h
      split at h
      · cases h
        rfl
      · cases h
  · split at h
    · cases h
    · simp only [bind_eq_ok] at h
      obtain ⟨next, _, result, _, h⟩ := h
      cases h
      rw [view_acknowledge, if_neg hid]

/-- An acknowledgement changes commands of its device only. -/
theorem leavesOthers_ack (id tenantID deviceID : Bytes) (input : CommandResult) (now : Time)
    (db : Db) : LeavesOthers tenantID deviceID db
      (committed db (ackCommandResult go pg id tenantID deviceID input now db)) := by
  rcases @accepted_or_rejected go pg id tenantID deviceID input with
    ⟨normalized, haccepted⟩ | ⟨err, hrejected⟩
  · cases hfind : db.commands.find? id with
    | none =>
        rw [ackCommandResult_absent haccepted now hfind]
        exact LeavesOthers.refl ..
    | some found =>
        have hkey := Table.key_of_find? hfind
        have hfound : db.commands.find? found.id = some found := by
          rw [hkey]
          exact hfind
        rw [ackCommandResult_found haccepted now hfind hfound]
        by_cases hforeign : found.tenantID ≠ tenantID ∨ found.deviceID ≠ deviceID
        · rw [if_pos hforeign]
          exact LeavesOthers.refl ..
        · rw [if_neg hforeign]
          rw [not_or, not_not, not_not] at hforeign
          cases hresult : acknowledgeRow pg normalized now db found hfound with
          | error err => exact LeavesOthers.refl ..
          | ok result =>
              refine ⟨fun other hother => acknowledgeRow_view hresult fun hsame => ?_⟩
              exact hother found (hsame ▸ hfound) hforeign
  · rw [(hrejected now db).1]
    exact LeavesOthers.refl ..

/-! ## Messages -/

/-- An attempt to store an acknowledgement. -/
theorem leavesOthers_applyAck (ack : CommandAckMessage) (call : StoreCall) (db : Db) :
    LeavesOthers ack.tenantID ack.deviceID db (applyAck go pg ack call db).2 := by
  cases call with
  | executed now => exact leavesOthers_ack ..
  | lost err now applied =>
      cases applied with
      | true => exact leavesOthers_ack ..
      | false => exact LeavesOthers.refl ..

/-- All attempts. -/
theorem leavesOthers_storeAck (ack : CommandAckMessage) (left : Nat) (calls : List StoreCall)
    (db : Db) : LeavesOthers ack.tenantID ack.deviceID db (storeAck go pg ack left calls db).2 := by
  induction left generalizing calls db with
  | zero => exact LeavesOthers.refl ..
  | succ left ih =>
      cases calls with
      | nil => exact LeavesOthers.refl ..
      | cons call calls =>
          have hcall := @leavesOthers_applyAck go pg ack call db
          rw [storeAck]
          cases happly : applyAck go pg ack call db with
          | mk reported after =>
              rw [happly] at hcall
              cases reported with
              | ok _ => exact hcall
              | error err =>
                  dsimp only
                  split
                  · exact hcall
                  · exact hcall.trans (ih calls after)

/-- A message that passes the checks is on the topic of its device. -/
theorem checkAck_identity {topic payload : Bytes} {ack : CommandAckMessage}
    (h : checkAck go topic payload = .ok ack) :
    ∃ parsed, parseDeviceTopic topic = some parsed ∧ parsed.tenant = ack.tenantID ∧
      parsed.device = ack.deviceID := by
  rw [checkAck] at h
  split at h
  · cases h
  · split_ifs at h with hidentity
    · split at h
      · cases h
      · cases h
        rw [ackIdentity, Bool.not_eq_true', Bool.not_eq_false] at hidentity
        split at hidentity
        · cases hidentity
        · rename_i parsed hparsed
          simp only [decide_eq_true_eq] at hidentity
          exact ⟨parsed, hparsed, hidentity.2.1, hidentity.2.2.1⟩

/-- What handling a message changes. -/
theorem leavesOthers_handle (write : Bytes → Bytes → Except GoError Unit) (topic payload : Bytes)
    (calls : List StoreCall) (now : Time) (db : Db) :
    (handleAckMessage go pg write topic payload calls now db).2 = db ∨
      ∃ parsed, parseDeviceTopic topic = some parsed ∧
        LeavesOthers parsed.tenant parsed.device db
          (handleAckMessage go pg write topic payload calls now db).2 := by
  cases hcheck : checkAck go topic payload with
  | error reason =>
      left
      rw [handleAckMessage, hcheck]
  | ok ack =>
      obtain ⟨parsed, hparsed, htenant, hdevice⟩ := checkAck_identity hcheck
      have hstore := @leavesOthers_storeAck go pg ack ackStoreAttempts calls db
      have hdb : (handleAckMessage go pg write topic payload calls now db).2 =
          (storeAck go pg ack ackStoreAttempts calls db).2 := by
        rw [handleAckMessage, hcheck]
        dsimp only
        cases storeAck go pg ack ackStoreAttempts calls db with
        | mk stored after =>
            cases stored with
            | done => rfl
            | stopped => rfl
            | failed err =>
                dsimp only
                split
                · rfl
                · split <;> rfl
      right
      refine ⟨parsed, hparsed, ?_⟩
      rw [hdb, htenant, hdevice]
      exact hstore

/-- What replaying a dead letter changes. -/
theorem leavesOthers_replayAck (item : DeadLetter) (value : Bytes) (now : Time) (db : Db) :
    committed db (replayAck go pg item value now db) = db ∨
      ∃ parsed, parseDeviceTopic item.sourceTopic = some parsed ∧
        LeavesOthers parsed.tenant parsed.device db
          (committed db (replayAck go pg item value now db)) := by
  cases hreplay : replayAck go pg item value now db with
  | error err => exact Or.inl rfl
  | ok result =>
      right
      have hrun := hreplay
      simp only [replayAck, checkReplayAck, bind_eq_ok, returnIf_eq_ok, Bool.not_eq_true',
        Bool.not_eq_false] at hrun
      obtain ⟨ack, ⟨_, _, _, hidentity, _, _, hack⟩, normalized, _, hstored⟩ := hrun
      cases hack
      rw [ackIdentity] at hidentity
      split at hidentity
      · cases hidentity
      · rename_i parsed hparsed
        simp only [decide_eq_true_eq] at hidentity
        refine ⟨parsed, hparsed, ?_⟩
        rw [hidentity.2.1, hidentity.2.2.1, ← hstored]
        exact leavesOthers_ack ..

/-! ## Runs -/

section Runs

variable {spoken : Bytes → Bytes → Prop}

/-- The dead letters are of messages on topics that are spoken for. -/
structure AckWorld.Spoken (spoken : Bytes → Bytes → Prop) (world : AckWorld) : Prop where
  dlq : ∀ raw ∈ world.dlq, ∃ msg cause now, TopicSpoken spoken msg.topic ∧
    raw = (deadLetterOf msg .commandAck cause now).marshal

/-- Messages are received on topics that are spoken for. -/
def AckAction.SpokenBy (spoken : Bytes → Bytes → Prop) : AckAction → Prop
  | .receive topic _ _ _ _ _ => TopicSpoken spoken topic
  | _ => True

/-- The dead letter of an acknowledgement has its topic. -/
theorem mem_buriedAck {topic payload raw : Bytes} {outcome : AckOutcome} {now : Time}
    {applied : Bool} (h : raw ∈ buriedAck go topic payload outcome now applied) : ∃ ack cause,
      raw = (deadLetterOf (ackMessage topic payload ack) .commandAck cause now).marshal := by
  have hletter : ∀ {cause : GoError}, raw ∈ (ackLetter go topic payload cause now).toList →
      ∃ ack cause, raw =
        (deadLetterOf (ackMessage topic payload ack) .commandAck cause now).marshal := by
    intro cause hraw
    rw [Option.mem_toList, ackLetter] at hraw
    split at hraw
    · cases hraw
    · cases hraw
      exact ⟨_, _, rfl⟩
  unfold buriedAck at h
  split at h
  · exact hletter h
  · split at h
    · exact hletter h
    · cases h
  · cases h

/-- A step keeps the dead letters spoken for. -/
theorem AckWorld.Spoken.step {world : AckWorld} {action : AckAction} (h : world.Spoken spoken)
    (haction : action.SpokenBy spoken) : (world.step go pg action).Spoken spoken := by
  cases action with
  | receive topic payload calls now answer applied =>
      refine ⟨fun raw hraw => ?_⟩
      rw [AckWorld.step] at hraw
      rcases List.mem_append.mp hraw with hraw | hraw
      · exact h.dlq raw hraw
      · obtain ⟨ack, cause, rfl⟩ := mem_buriedAck hraw
        have htopic : TopicSpoken spoken (ackMessage topic payload ack).topic := haction
        exact ⟨_, cause, now, htopic, rfl⟩
  | replay index now =>
      rw [AckWorld.step]
      split
      · exact h
      · exact ⟨h.dlq⟩
  | operate op => exact ⟨h.dlq⟩

/-- What the worker or a replay does to a command no one speaks for. -/
theorem AckWorld.Spoken.step_unspoken {world : AckWorld} {action : AckAction}
    (h : world.Spoken spoken) (haction : action.SpokenBy spoken)
    (hop : ∀ op, action ≠ .operate op) {id : Bytes}
    {row : CommandRow} (hrow : world.db.commands.find? id = some row)
    (hunspoken : ¬ spoken row.tenantID row.deviceID) :
    (world.step go pg action).db.view id = world.db.view id := by
  -- whoever is spoken for is another device
  have hleaves : ∀ {topic : Bytes} {after : Db}, TopicSpoken spoken topic →
      (after = world.db ∨ ∃ parsed, parseDeviceTopic topic = some parsed ∧
        LeavesOthers parsed.tenant parsed.device world.db after) →
      after.view id = world.db.view id := by
    rintro topic after htopic (rfl | ⟨parsed, hparsed, hothers⟩)
    · rfl
    · refine hothers.view id fun found hfound hown => ?_
      obtain rfl : row = found := Option.some.inj (hrow.symm.trans hfound)
      rw [hown.1, hown.2] at hunspoken
      exact hunspoken (htopic.2 parsed hparsed)
  cases action with
  | receive topic payload calls now answer applied =>
      have htopic : TopicSpoken spoken topic := haction
      exact hleaves htopic
        (@leavesOthers_handle go pg (fun _ _ => answer) topic payload calls now world.db)
  | replay index now =>
      rw [AckWorld.step]
      cases hindex : world.dlq[index]? with
      | none => rfl
      | some raw =>
          obtain ⟨msg, cause, buriedAt, htopic, rfl⟩ := h.dlq raw (List.mem_of_getElem? hindex)
          show (replayLetter go pg _ now world.db).view id = world.db.view id
          rw [replayLetter]
          split
          · rfl
          · rename_i item hitem
            have hsource : item.sourceTopic = msg.topic := by
              rw [DeadLetter.unmarshal_marshal hitem]
              show Json.reread msg.topic = msg.topic
              exact reread_of_valid htopic.1
            split
            · rfl
            · rename_i value hvalue
              split
              · refine hleaves htopic ?_
                rw [← hsource]
                exact leavesOthers_replayAck item value now world.db
              · rfl
  | operate op => exact absurd rfl (hop op)

/-- After every run in which messages are received on topics that are spoken for, neither a message
nor a replay changes a command that no one speaks for. -/
theorem acks_spoken (db : Db) {actions : List AckAction}
    (h : ∀ action ∈ actions, action.SpokenBy spoken) {action : AckAction}
    (haction : action.SpokenBy spoken) (hop : ∀ op, action ≠ .operate op) {id : Bytes}
    {row : CommandRow}
    (hrow : (run (AckWorld.step go pg) ⟨db, []⟩ actions).db.commands.find? id = some row)
    (hunspoken : ¬ spoken row.tenantID row.deviceID) :
    ((run (AckWorld.step go pg) ⟨db, []⟩ actions).step go pg action).db.view id =
      (run (AckWorld.step go pg) ⟨db, []⟩ actions).db.view id := by
  have hspoken : (run (AckWorld.step go pg) ⟨db, []⟩ actions).Spoken spoken :=
    run_invariant_along (fun _ action => action.SpokenBy spoken) (AckWorld.Spoken spoken)
      (fun _ _ hworld haction => hworld.step haction) ⟨fun raw hraw => by cases hraw⟩
      (along_of_forall (fun action haction _ => h action haction) _)
  exact hspoken.step_unspoken haction hop hrow hunspoken

end Runs

end Iot.Worker
