import Iot.Execution.Offsets
import Iot.Execution.Run
import Iot.Replay.DeadLetters
import Iot.Worker.Acks

/-!
# Runs of dlq-replay

`dlq-replay` (`cmd/dlq-replay/main.go`) reads the dead-letter topic in a consumer group, replays
the records of the stage it was asked for and commits what it is done with. Runs follow one
another; each starts at the offsets its group has committed and may end at any point.

Offsets are cumulative, so a run may only commit in a group whose other runs want the same records.
`replayGroupID` gives every stage a group of its own, but the group of the stage `all` is also that
of the runs without a stage: a run with `-stage all` can hide every record from those
(`stage_all_hides`). As long as the stage `all` is not used, a record below the offset of a group
has been replayed by a run of that group (`replays_hide_nothing`). The proof is that of a reader of
a log (`Execution.Reader`), one for each selection.
-/

namespace Iot.Replay

open Text Json Contracts Platform Store Data Execution Worker

/-- `replayGroupID`. -/
def replayGroupID (stage : Bytes) : Bytes :=
  if stage = [] then ascii "iot-dlq-replay-all" else ascii "iot-dlq-replay-" ++ stage

/-- Where a run stands. -/
inductive ReplayPoint where
  /-- About to test the limit and fetch. -/
  | fetching
  /-- A record was fetched. -/
  | fetched (msg : Message)
  /-- A record is about to be replayed. -/
  | replaying (msg : Message) (item : DeadLetter) (value : Bytes)
  /-- `commitReplay` is about to be called; `counted` tells whether the record was replayed. -/
  | committing (msg : Message) (dryRun counted : Bool)
  deriving DecidableEq, Repr

/-- A run: its flags, the offsets it reads next and the records it has replayed. -/
structure ReplayRun where
  stage : Bytes
  limit : Int
  dryRun : Bool
  position : Nat → Nat
  replayed : Int
  point : ReplayPoint

/-- The run goes on. -/
def ReplayRun.goto (r : ReplayRun) (point : ReplayPoint) : ReplayRun := { r with point := point }

/-- The run counts a record. -/
def ReplayRun.count (r : ReplayRun) : ReplayRun := { r with replayed := r.replayed + 1 }

/-- The dead-letter topic, the offsets of the consumer groups, what replays write to (PostgreSQL
and Kafka) and the run that is going on. `replays` lists the records that were replayed, each with
the selection of the run. -/
structure Replays where
  log : Nat → List Message
  offsets : Bytes → Nat → Nat
  db : Db
  writes : List (Bytes × Bytes × Bytes)
  run : Option ReplayRun
  replays : List (Bytes × Message)

/-- An empty dead-letter topic and no committed offsets. -/
def Replays.initial (db : Db) : Replays := ⟨fun _ => [], fun _ _ => 0, db, [], none, []⟩

/-- A step of a run with the outcome of the call it makes, or a change from outside. -/
inductive ReplayAction where
  /-- A record is written to the dead-letter topic. -/
  | append (partition : Nat) (key value : Bytes) (time : Time)
  /-- The database changes. -/
  | store (op : Op)
  | start (stage : Bytes) (limit : Int) (dryRun : Bool)
  | fetch (partition : Nat)
  | inspect
  | replay (now : Time) (error : Option GoError) (applied : Bool)
  | commit (ok applied : Bool)
  /-- The run ends: the topic is exhausted, a call failed or the process was stopped. -/
  | stop

variable (go : GoRuntime) (pg : Postgres) (write : Bytes → Bytes → Bytes → Except GoError Unit)
  (dlqTopic telemetryTopic : Bytes)

/-- A record as the run reads it is selected by a stage. -/
def selects (stage : Bytes) (item : DeadLetter) : Bool := stage = [] ∨ item.stage = stage

/-- What a run does with a record up to its first call to the outside. -/
def ReplayRun.inspect (r : ReplayRun) (msg : Message) : ReplayRun :=
  match DeadLetter.unmarshal go msg.value with
  | .error _ => r.goto (.committing msg r.dryRun false)
  | .ok item =>
      if selects r.stage item then
        if r.dryRun then r.count.goto .fetching
        else
          match decode64 item.valueBase64 with
          | none => r.goto (.committing msg false false)
          | some value => r.goto (.replaying msg item value)
      else r.goto .fetching

/-- What replaying a record does: an acknowledgement is stored, any other record is written to
Kafka. `write` is what `WriteMessages` answers to a topic, a key and a value. -/
def Replays.replayItem (s : Replays) (item : DeadLetter) (value : Bytes) (now : Time) :
    Except GoError Replays :=
  if item.stage = Stage.commandAck.text then do
    let (_, db) ← replayAck go pg item value now s.db
    pure { s with db := db }
  else do
    let (topic, payload) ← replayKafkaPayload go telemetryTopic item value
    write topic item.key payload
    pure { s with writes := s.writes ++ [(topic, item.key, payload)] }

/-- The state after a step of a run. -/
def Replays.advance (s : Replays) (r : ReplayRun) (action : ReplayAction) : Replays :=
  match r.point, action with
  | .fetching, .fetch partition =>
      if r.replayed < r.limit then
        match (s.log partition)[r.position partition]? with
        | none => s
        | some msg =>
            { s with run := some { r with
                position := Function.update r.position partition (r.position partition + 1)
                point := .fetched msg } }
      else { s with run := none }
  | .fetched msg, .inspect => { s with run := some (r.inspect go msg) }
  | .replaying msg item value, .replay now error applied =>
      match s.replayItem go pg write telemetryTopic item value now, error with
      | .error _, _ => { s with run := none }
      | .ok after, none =>
          { after with
            run := some (r.goto (.committing msg false true))
            replays := s.replays ++ [(r.stage, msg)] }
      | .ok after, some _ => if applied then { after with run := none } else { s with run := none }
  | .committing msg dryRun counted, .commit ok applied =>
      let next := (if counted then r.count else r).goto .fetching
      if dryRun then { s with run := some next }
      else
        { s with
          offsets := if ok || applied then
              Function.update s.offsets (replayGroupID r.stage)
                (Function.update (s.offsets (replayGroupID r.stage)) msg.address.1
                  (msg.address.2 + 1))
            else s.offsets
          run := if ok then some next else none }
  | _, _ => s

/-- The state after a step. One run goes on at a time. -/
def Replays.step (s : Replays) (action : ReplayAction) : Replays :=
  match action, s.run with
  | .append partition key value time, _ =>
      let offset := (s.log partition).length
      { s with
        log := Function.update s.log partition
          (s.log partition ++ [⟨dlqTopic, partition, offset, key, value, time⟩]) }
  | .store op, _ => { s with db := Store.step go pg s.db op }
  | .start stage limit dryRun, none =>
      { s with
        run := some ⟨stage, limit, dryRun, s.offsets (replayGroupID stage), 0, .fetching⟩ }
  | .stop, _ => { s with run := none }
  | action, some r => s.advance go pg write telemetryTopic r action
  | _, none => s

/-- The stage whose group is also that of the runs without a stage. -/
def stageAll : Bytes := ascii "all"

/-- The stage `all` is used neither by a run that commits nor by a record. -/
def AvoidsAll (action : ReplayAction) : Prop :=
  match action with
  | .start stage _ dryRun => dryRun = true ∨ stage ≠ stageAll
  | .append _ _ value _ => ∀ item, DeadLetter.unmarshal go value = .ok item → item.stage ≠ stageAll
  | _ => True

/-- A selection has been served: if it selects the record and the payload can be decoded, a run
with this selection has replayed it. -/
def Served (replays : List (Bytes × Message)) (stage : Bytes) (msg : Message) : Prop :=
  ∀ item value, DeadLetter.unmarshal go msg.value = .ok item → selects stage item = true →
    decode64 item.valueBase64 = some value → (stage, msg) ∈ replays

variable {go pg write dlqTopic telemetryTopic}

/-- Apart from `all`, different stages have different groups. -/
theorem replayGroupID_inj {stage other : Bytes} (hstage : stage ≠ stageAll)
    (hother : other ≠ stageAll) (h : replayGroupID stage = replayGroupID other) :
    stage = other := by
  have hall : ascii "iot-dlq-replay-all" = ascii "iot-dlq-replay-" ++ stageAll := by decide
  unfold replayGroupID at h
  split at h
  · rename_i hempty
    split at h
    · rename_i hempty'
      rw [hempty, hempty']
    · rw [hall] at h
      exact absurd (List.append_cancel_left h).symm hother
  · split at h
    · rw [hall] at h
      exact absurd (List.append_cancel_left h) hstage
    · exact List.append_cancel_left h

/-- What has been served stays served. -/
theorem served_mono {replays after : List (Bytes × Message)} {stage : Bytes} {msg : Message}
    (hreplays : replays ⊆ after) (h : Served go replays stage msg) : Served go after stage msg :=
  fun item value hitem hselects hvalue => hreplays (h item value hitem hselects hvalue)

/-- The record a run is at. -/
def ReplayPoint.message : ReplayPoint → Option Message
  | .fetching => none
  | .fetched msg | .replaying msg _ _ | .committing msg _ _ => some msg

/-- The group of a selection between two runs. -/
def Replays.idleReader (s : Replays) (stage : Bytes) : Reader Message :=
  ⟨s.log, s.offsets (replayGroupID stage), s.offsets (replayGroupID stage), none⟩

/-- A run as a reader of the dead-letter topic. -/
def Replays.readerOf (s : Replays) (r : ReplayRun) : Reader Message :=
  ⟨s.log, s.offsets (replayGroupID r.stage), r.position, r.point.message.map Message.address⟩

variable (go) in
/-- What a run that commits has done for the record it is at. -/
def Replays.Progress (s : Replays) (r : ReplayRun) : Prop :=
  match r.point with
  | .fetching => True
  | .fetched msg => (s.readerOf r).At Message.address msg
  | .replaying msg item value => (s.readerOf r).At Message.address msg ∧
      DeadLetter.unmarshal go msg.value = .ok item ∧ selects r.stage item = true ∧
      decode64 item.valueBase64 = some value
  | .committing msg dryRun _ => dryRun = false ∧ (s.readerOf r).At Message.address msg ∧
      Served go s.replays r.stage msg

/-- A dry run replays nothing and calls `commitReplay` only as a dry run. -/
def ReplayRun.Harmless (r : ReplayRun) : Prop :=
  match r.point with
  | .replaying _ _ _ => False
  | .committing _ dryRun _ => dryRun = true
  | _ => True

variable (go) in
/-- The invariant of a run that commits. -/
structure Replays.Active (s : Replays) (r : ReplayRun) : Prop where
  stage : r.stage ≠ stageAll
  safe : (s.readerOf r).Safe Message.address (Served go s.replays r.stage)
  progress : s.Progress go r

variable (go) in
/-- The invariant of the whole: every group but that of `all` is safe, and so is the run. -/
structure Replays.Sound (s : Replays) : Prop where
  idle : ∀ stage, stage ≠ stageAll →
    (s.idleReader stage).Safe Message.address (Served go s.replays stage)
  run : ∀ r, s.run = some r → r.dryRun = false → s.Active go r

/-- A run reads the log and the offsets of its group only. -/
theorem active_congr {s after : Replays} {r : ReplayRun} (h : s.Active go r)
    (hlog : after.log = s.log) (hoffsets : after.offsets = s.offsets)
    (hreplays : s.replays ⊆ after.replays) : after.Active go r := by
  have hreader : after.readerOf r = s.readerOf r := by
    simp only [Replays.readerOf, hlog, hoffsets]
  refine ⟨h.stage, ?_, ?_⟩
  · rw [hreader]
    exact h.safe.mono fun _ => served_mono hreplays
  · have hprogress := h.progress
    unfold Replays.Progress at hprogress ⊢
    rw [hreader]
    split at hprogress
    · trivial
    · exact hprogress
    · exact hprogress
    · exact ⟨hprogress.1, hprogress.2.1, served_mono hreplays hprogress.2.2⟩

/-- The groups stay safe while nothing is committed and no record is appended. -/
theorem idle_congr {s after : Replays} (h : s.Sound go) (hlog : after.log = s.log)
    (hoffsets : after.offsets = s.offsets) (hreplays : s.replays ⊆ after.replays)
    (stage : Bytes) (hstage : stage ≠ stageAll) :
    (after.idleReader stage).Safe Message.address (Served go after.replays stage) := by
  have hreader : after.idleReader stage = s.idleReader stage := by
    simp only [Replays.idleReader, hlog, hoffsets]
  rw [hreader]
  exact (h.idle stage hstage).mono fun _ => served_mono hreplays

/-- The end of a run takes nothing from the groups. -/
theorem sound_stop {s after : Replays} (h : s.Sound go) (hlog : after.log = s.log)
    (hoffsets : after.offsets = s.offsets) (hreplays : s.replays ⊆ after.replays)
    (hrun : after.run = none) : after.Sound go :=
  ⟨idle_congr h hlog hoffsets hreplays, by simp [hrun]⟩

/-- A record is appended. -/
theorem sound_append {s : Replays} (h : s.Sound go) (partition : Nat) (key value : Bytes)
    (time : Time) :
    (s.step go pg write dlqTopic telemetryTopic (.append partition key value time)).Sound go := by
  refine ⟨fun stage hstage => safe_append (h.idle stage hstage) rfl, fun r hr hdry => ?_⟩
  have hactive := h.run r hr hdry
  refine ⟨hactive.stage, safe_append hactive.safe rfl, ?_⟩
  have hprogress := hactive.progress
  unfold Replays.Progress at hprogress ⊢
  split at hprogress
  · trivial
  · exact at_append hprogress
  · exact ⟨at_append hprogress.1, hprogress.2⟩
  · exact ⟨hprogress.1, at_append hprogress.2.1, hprogress.2.2⟩

/-- The state a run that goes on leaves is sound if the run is. -/
theorem sound_goto {s : Replays} {r : ReplayRun} (h : s.Sound go)
    (hactive : r.dryRun = false → s.Active go r) : { s with run := some r }.Sound go := by
  refine ⟨idle_congr h rfl rfl (List.Subset.refl _), fun r' hr' hdry => ?_⟩
  cases hr'
  exact active_congr (hactive hdry) rfl rfl (List.Subset.refl _)

/-- A run takes the next record. -/
theorem active_fetch {s : Replays} {r : ReplayRun} {partition : Nat} {msg : Message}
    (h : s.Active go r) (hpoint : r.point = .fetching)
    (hmsg : (s.log partition)[r.position partition]? = some msg) :
    s.Active go { r with
      position := Function.update r.position partition (r.position partition + 1)
      point := .fetched msg } := by
  have hidle : (s.readerOf r).current = none := by
    simp [Replays.readerOf, hpoint, ReplayPoint.message]
  obtain ⟨hsafe, hat⟩ := safe_fetch h.safe hidle hmsg
  have hreader : s.readerOf { r with
      position := Function.update r.position partition (r.position partition + 1)
      point := .fetched msg } = (s.readerOf r).fetch partition := by
    simp [Replays.readerOf, Reader.fetch, ReplayPoint.message,
      h.safe.addressed partition (r.position partition) msg hmsg]
  refine ⟨h.stage, ?_, ?_⟩
  · rw [hreader]
    exact hsafe
  · show (s.readerOf _).At Message.address msg
    rw [hreader]
    exact hat

/-- A run goes on with the record it is at. -/
theorem active_goto {s : Replays} {r : ReplayRun} {msg : Message} {point : ReplayPoint}
    (h : s.Active go r) (hmsg : r.point.message = some msg) (hsame : point.message = some msg)
    (hprogress : s.Progress go (r.goto point)) : s.Active go (r.goto point) := by
  have hreader : s.readerOf (r.goto point) = s.readerOf r := by
    simp only [Replays.readerOf, ReplayRun.goto, hsame, hmsg]
  refine ⟨h.stage, ?_, hprogress⟩
  rw [hreader]
  exact h.safe

/-- A run leaves a record that has been served. -/
theorem active_release {s : Replays} {r : ReplayRun} {msg : Message} (h : s.Active go r)
    (hat : (s.readerOf r).At Message.address msg) (hserved : Served go s.replays r.stage msg) :
    s.Active go (r.goto .fetching) :=
  ⟨h.stage, safe_release h.safe hat hserved, trivial⟩

/-- What a run that commits does with a record it looks at. -/
theorem active_inspect {s : Replays} {r : ReplayRun} {msg : Message} (h : s.Active go r)
    (hpoint : r.point = .fetched msg) (hdry : r.dryRun = false) :
    s.Active go (r.inspect go msg) := by
  have hmsg : r.point.message = some msg := by rw [hpoint]; rfl
  have hat : (s.readerOf r).At Message.address msg := by
    have hprogress := h.progress
    unfold Replays.Progress at hprogress
    rw [hpoint] at hprogress
    exact hprogress
  have hstay : ∀ point : ReplayPoint, point.message = some msg →
      (s.readerOf (r.goto point)).At Message.address msg := by
    intro point hmessage
    have hreader : s.readerOf (r.goto point) = s.readerOf r := by
      simp only [Replays.readerOf, ReplayRun.goto, hmessage, hmsg]
    rw [hreader]
    exact hat
  unfold ReplayRun.inspect
  cases hitem : DeadLetter.unmarshal go msg.value with
  | error err =>
      have hserved : Served go s.replays r.stage msg := by
        intro item value hitem'
        rw [hitem] at hitem'
        cases hitem'
      exact active_goto h hmsg rfl ⟨hdry, hstay _ rfl, hserved⟩
  | ok item =>
      dsimp only
      by_cases hselects : selects r.stage item = true
      · rw [if_pos hselects, if_neg (by simp [hdry])]
        cases hvalue : decode64 item.valueBase64 with
        | none =>
            have hserved : Served go s.replays r.stage msg := by
              intro item' value hitem' _ hvalue'
              rw [hitem] at hitem'
              cases hitem'
              rw [hvalue] at hvalue'
              cases hvalue'
            exact active_goto h hmsg rfl ⟨rfl, hstay _ rfl, hserved⟩
        | some value =>
            exact active_goto h hmsg rfl ⟨hstay _ rfl, hitem, hselects, hvalue⟩
      · -- a record of another stage is left behind without a commit
        rw [if_neg hselects]
        refine active_release h hat ?_
        intro item' value hitem' hselects'
        rw [hitem] at hitem'
        cases hitem'
        exact absurd hselects' hselects

/-- Replaying a record changes neither the topic nor the offsets. -/
theorem replayItem_frame {s after : Replays} {item : DeadLetter} {value : Bytes} {now : Time}
    (h : s.replayItem go pg write telemetryTopic item value now = .ok after) :
    after.log = s.log ∧ after.offsets = s.offsets ∧ after.replays = s.replays := by
  unfold Replays.replayItem at h
  split at h
  · obtain ⟨⟨_, db⟩, _, h⟩ := bind_eq_ok.mp h
    cases h
    exact ⟨rfl, rfl, rfl⟩
  · obtain ⟨⟨topic, payload⟩, _, h⟩ := bind_eq_ok.mp h
    obtain ⟨_, _, h⟩ := bind_eq_ok.mp h
    cases h
    exact ⟨rfl, rfl, rfl⟩

/-- Committing a record that has been served keeps every group safe, since no other selection
shares the group. -/
theorem sound_commit {s : Replays} {r : ReplayRun} {msg : Message} {run : Option ReplayRun}
    (h : s.Sound go) (hactive : s.Active go r)
    (hat : (s.readerOf r).At Message.address msg) (hserved : Served go s.replays r.stage msg)
    (hrun : ∀ r', run = some r' → r'.stage = r.stage ∧ r'.position = r.position ∧
      r'.point = .fetching) :
    { s with
      offsets := Function.update s.offsets (replayGroupID r.stage)
        (Function.update (s.offsets (replayGroupID r.stage)) msg.address.1 (msg.address.2 + 1))
      run := run }.Sound go := by
  have hsafe := safe_commit hactive.safe hat hserved
  refine ⟨fun stage hstage => ?_, fun r' hr' _ => ?_⟩
  · by_cases hsame : stage = r.stage
    · subst hsame
      have hrestart := safe_restart hsafe
      simpa [Replays.idleReader, Replays.readerOf, Reader.restart, Reader.commit] using hrestart
    · have hgroup : replayGroupID stage ≠ replayGroupID r.stage := fun heq =>
        hsame (replayGroupID_inj hstage hactive.stage heq)
      have hidle := h.idle stage hstage
      simpa [Replays.idleReader, Function.update_of_ne hgroup] using hidle
  · obtain ⟨hstage, hposition, hpoint⟩ := hrun r' hr'
    refine ⟨hstage ▸ hactive.stage, ?_, by simp [Replays.Progress, hpoint]⟩
    simpa [Replays.readerOf, Reader.commit, hstage, hposition, hpoint, ReplayPoint.message]
      using hsafe

/-- A step of a run keeps the invariant. -/
theorem advance_sound {s : Replays} {r : ReplayRun} (h : s.Sound go) (hr : s.run = some r)
    (hdry : r.dryRun = false) (action : ReplayAction) :
    (s.advance go pg write telemetryTopic r action).Sound go := by
  have hactive := h.run r hr hdry
  have hprogress := hactive.progress
  unfold Replays.Progress at hprogress
  unfold Replays.advance
  split
  · -- fetch
    rename_i partition hpoint
    split
    · split
      · exact h
      · rename_i msg hmsg
        exact sound_goto h fun _ => active_fetch hactive hpoint hmsg
    · exact sound_stop h rfl rfl (List.Subset.refl _) rfl
  · -- inspect
    rename_i msg hpoint
    exact sound_goto h fun _ => active_inspect hactive hpoint hdry
  · -- replay
    rename_i msg item value now error applied hpoint
    rw [hpoint] at hprogress
    obtain ⟨hat, hitem, hselects, hvalue⟩ := hprogress
    split
    · exact sound_stop h rfl rfl (List.Subset.refl _) rfl
    · rename_i after hafter
      obtain ⟨hlog, hoffsets, _⟩ := replayItem_frame hafter
      have hgrows : s.replays ⊆ s.replays ++ [(r.stage, msg)] := List.subset_append_left _ _
      refine ⟨idle_congr h hlog hoffsets hgrows, fun r' hr' _ => ?_⟩
      cases hr'
      -- the record has been replayed, so nothing about it is left to do
      have hreader : Replays.readerOf { after with
          run := some (r.goto (.committing msg false true))
          replays := s.replays ++ [(r.stage, msg)] } (r.goto (.committing msg false true)) =
          s.readerOf r := by
        simp [Replays.readerOf, ReplayRun.goto, ReplayPoint.message, hlog, hoffsets, hpoint]
      refine ⟨hactive.stage, ?_, rfl, ?_, ?_⟩
      · rw [hreader]
        exact hactive.safe.mono fun _ => served_mono hgrows
      · rw [hreader]
        exact hat
      · intro item' value' _ _ _
        exact List.mem_append_right _ (List.mem_singleton_self _)
    · rename_i after err hafter
      obtain ⟨hlog, hoffsets, hreplays⟩ := replayItem_frame hafter
      split
      · exact sound_stop h hlog hoffsets (hreplays ▸ List.Subset.refl _) rfl
      · exact sound_stop h rfl rfl (List.Subset.refl _) rfl
  · -- commit
    rename_i msg dryRun counted ok applied hpoint
    rw [hpoint] at hprogress
    obtain ⟨rfl, hat, hserved⟩ := hprogress
    have hnext : ∀ r', (if ok then some ((if counted then r.count else r).goto .fetching)
        else none) = some r' → r'.stage = r.stage ∧ r'.position = r.position ∧
          r'.point = .fetching := by
      intro r' hr'
      cases ok with
      | false => cases hr'
      | true =>
          cases hr'
          cases counted <;> exact ⟨rfl, rfl, rfl⟩
    cases hcommit : ok || applied with
    | true => exact sound_commit h hactive hat hserved hnext
    | false =>
        simp only [Bool.or_eq_false_iff] at hcommit
        obtain ⟨rfl, rfl⟩ := hcommit
        exact sound_stop h rfl rfl (List.Subset.refl _) rfl
  · exact h

variable (go pg write telemetryTopic) in
/-- A dry run never replays and never commits, so its steps change nothing the groups see. -/
theorem advance_dry {s : Replays} {r : ReplayRun} (hdry : r.dryRun = true) (hharmless : r.Harmless)
    (action : ReplayAction) :
    ∃ run, s.advance go pg write telemetryTopic r action = { s with run := run } ∧
      ∀ r', run = some r' → s.run = some r' ∨ r'.dryRun = true ∧ r'.Harmless := by
  unfold ReplayRun.Harmless at hharmless
  unfold Replays.advance
  split
  · split
    · split
      · exact ⟨s.run, rfl, fun r' hr' => Or.inl hr'⟩
      · refine ⟨_, rfl, fun r' hr' => Or.inr ?_⟩
        cases hr'
        exact ⟨hdry, trivial⟩
    · exact ⟨none, rfl, by simp⟩
  · rename_i msg hpoint
    refine ⟨_, rfl, fun r' hr' => Or.inr ?_⟩
    cases hr'
    unfold ReplayRun.inspect
    split
    · exact ⟨hdry, hdry⟩
    · split
      · exact ⟨hdry, trivial⟩
      · exact ⟨hdry, trivial⟩
  · rename_i hpoint
    rw [hpoint] at hharmless
    exact hharmless.elim
  · rename_i msg dryRun counted ok applied hpoint
    rw [hpoint] at hharmless
    have htrue : dryRun = true := hharmless
    subst htrue
    refine ⟨_, rfl, fun r' hr' => Or.inr ?_⟩
    cases hr'
    cases counted <;> exact ⟨hdry, trivial⟩
  · exact ⟨s.run, rfl, fun r' hr' => Or.inl hr'⟩

/-- A record looked at leaves the flags of the run as they are. -/
theorem inspect_dryRun (r : ReplayRun) (msg : Message) : (r.inspect go msg).dryRun = r.dryRun := by
  unfold ReplayRun.inspect
  split
  · rfl
  · split
    · split
      · rfl
      · split <;> rfl
    · rfl

variable (go pg write telemetryTopic) in
/-- A step of a run appends nothing to the dead-letter topic and does not change its flags. -/
theorem advance_frame (s : Replays) (r : ReplayRun) (action : ReplayAction) :
    (s.advance go pg write telemetryTopic r action).log = s.log ∧
      ∀ r', (s.advance go pg write telemetryTopic r action).run = some r' →
        s.run = some r' ∨ r'.dryRun = r.dryRun := by
  unfold Replays.advance
  split
  · split
    · split
      · exact ⟨rfl, fun r' hr' => Or.inl hr'⟩
      · refine ⟨rfl, fun r' hr' => Or.inr ?_⟩
        cases hr'
        rfl
    · exact ⟨rfl, by simp⟩
  · refine ⟨rfl, fun r' hr' => Or.inr ?_⟩
    cases hr'
    exact inspect_dryRun r _
  · split
    · exact ⟨rfl, by simp⟩
    · rename_i after hafter
      refine ⟨(replayItem_frame hafter).1, fun r' hr' => Or.inr ?_⟩
      cases hr'
      rfl
    · rename_i after err hafter
      split
      · exact ⟨(replayItem_frame hafter).1, by simp⟩
      · exact ⟨rfl, by simp⟩
  · rename_i msg dryRun counted ok applied hpoint
    have hnext : ((if counted then r.count else r).goto .fetching).dryRun = r.dryRun := by
      cases counted <;> rfl
    cases dryRun with
    | true =>
        refine ⟨rfl, fun r' hr' => Or.inr ?_⟩
        cases hr'
        exact hnext
    | false =>
        refine ⟨rfl, fun r' hr' => Or.inr ?_⟩
        cases ok with
        | false => cases hr'
        | true =>
            cases hr'
            exact hnext
  · exact ⟨rfl, fun r' hr' => Or.inl hr'⟩

/-! ## Whole runs -/

/-- Dry runs are harmless. -/
def Replays.DryHarmless (s : Replays) : Prop :=
  ∀ r, s.run = some r → r.dryRun = true → r.Harmless

variable (go) in
/-- No record has the stage `all`. -/
def Replays.Clean (s : Replays) : Prop :=
  ∀ partition, ∀ msg ∈ s.log partition, ∀ item, DeadLetter.unmarshal go msg.value = .ok item →
    item.stage ≠ stageAll

variable (go pg write dlqTopic telemetryTopic) in
/-- What a step can do. -/
theorem step_cases (s : Replays) (action : ReplayAction) :
    (∃ partition key value time, action = .append partition key value time) ∨
    (∃ db, s.step go pg write dlqTopic telemetryTopic action = { s with db := db }) ∨
    (∃ stage limit dryRun, action = .start stage limit dryRun ∧
      s.step go pg write dlqTopic telemetryTopic action =
        { s with
          run := some ⟨stage, limit, dryRun, s.offsets (replayGroupID stage), 0, .fetching⟩ }) ∨
    s.step go pg write dlqTopic telemetryTopic action = { s with run := none } ∨
    ∃ r, s.run = some r ∧
      s.step go pg write dlqTopic telemetryTopic action =
        s.advance go pg write telemetryTopic r action := by
  unfold Replays.step
  split
  · exact Or.inl ⟨_, _, _, _, rfl⟩
  · exact Or.inr (Or.inl ⟨_, rfl⟩)
  · exact Or.inr (Or.inr (Or.inl ⟨_, _, _, rfl, rfl⟩))
  · exact Or.inr (Or.inr (Or.inr (Or.inl rfl)))
  · rename_i hrun
    exact Or.inr (Or.inr (Or.inr (Or.inr ⟨_, hrun, rfl⟩)))
  · exact Or.inr (Or.inl ⟨s.db, rfl⟩)

variable (go pg write dlqTopic telemetryTopic) in
/-- The log changes when a record is appended to it, and at no other time. -/
theorem step_log (s : Replays) (action : ReplayAction) :
    (∃ partition key value time, action = .append partition key value time) ∨
      (s.step go pg write dlqTopic telemetryTopic action).log = s.log := by
  rcases step_cases go pg write dlqTopic telemetryTopic s action with
    happend | ⟨_, hstep⟩ | ⟨_, _, _, _, hstep⟩ | hstep | ⟨r, _, hstep⟩
  · exact Or.inl happend
  · exact Or.inr (by rw [hstep])
  · exact Or.inr (by rw [hstep])
  · exact Or.inr (by rw [hstep])
  · exact Or.inr (by rw [hstep, (advance_frame go pg write telemetryTopic s r action).1])

variable (go pg write dlqTopic telemetryTopic) in
/-- Every step keeps dry runs harmless, and a step of a dry run commits nothing. -/
theorem step_dry {s : Replays} (h : s.DryHarmless) (action : ReplayAction) :
    (s.step go pg write dlqTopic telemetryTopic action).DryHarmless ∧
      ∀ r, s.run = some r → r.dryRun = true →
        (s.step go pg write dlqTopic telemetryTopic action).offsets = s.offsets := by
  rcases step_cases go pg write dlqTopic telemetryTopic s action with
    ⟨_, _, _, _, rfl⟩ | ⟨_, hstep⟩ | ⟨stage, limit, dryRun, _, hstep⟩ | hstep | ⟨r, hrun, hstep⟩
  · exact ⟨h, fun _ _ _ => rfl⟩
  · rw [hstep]
    exact ⟨h, fun _ _ _ => rfl⟩
  · rw [hstep]
    refine ⟨fun r hr _ => ?_, fun _ _ _ => rfl⟩
    cases hr
    trivial
  · rw [hstep]
    exact ⟨fun _ hr => (by cases hr), fun _ _ _ => rfl⟩
  · rw [hstep]
    refine ⟨fun r' hr' hdry' => ?_, fun r' hr' hdry => ?_⟩
    · rcases (advance_frame go pg write telemetryTopic s r action).2 r' hr' with hsame | hflag
      · exact h r' hsame hdry'
      · have hdry : r.dryRun = true := hflag ▸ hdry'
        obtain ⟨next, heq, hnext⟩ :=
          advance_dry go pg write telemetryTopic (s := s) hdry (h r hrun hdry) action
        rw [heq] at hr'
        rcases hnext r' hr' with hsame | ⟨_, hharmless⟩
        · exact h r' hsame hdry'
        · exact hharmless
    · rw [hrun] at hr'
      cases hr'
      obtain ⟨next, heq, _⟩ := advance_dry go pg write telemetryTopic (s := s) hdry (h r hrun hdry)
        action
      rw [heq]

/-- While the stage `all` is avoided no record has it. -/
theorem step_clean {s : Replays} {action : ReplayAction} (h : s.Clean go)
    (haction : AvoidsAll go action) :
    (s.step go pg write dlqTopic telemetryTopic action).Clean go := by
  rcases step_log go pg write dlqTopic telemetryTopic s action with
    ⟨partition, key, value, time, rfl⟩ | hlog
  · intro other msg hmsg
    by_cases hother : other = partition
    · subst hother
      simp only [Replays.step, Function.update_self, List.mem_append, List.mem_singleton] at hmsg
      rcases hmsg with hmsg | rfl
      · exact h other msg hmsg
      · exact haction
    · simp only [Replays.step, Function.update_of_ne hother] at hmsg
      exact h other msg hmsg
  · rw [Replays.Clean, hlog]
    exact h

/-- While the stage `all` is avoided every step keeps the invariant. -/
theorem step_sound {s : Replays} {action : ReplayAction} (hdry : s.DryHarmless) (h : s.Sound go)
    (haction : AvoidsAll go action) :
    (s.step go pg write dlqTopic telemetryTopic action).Sound go := by
  rcases step_cases go pg write dlqTopic telemetryTopic s action with
    ⟨partition, key, value, time, rfl⟩ | ⟨_, hstep⟩ | ⟨stage, limit, dryRun, rfl, hstep⟩ | hstep |
      ⟨r, hrun, hstep⟩
  · exact sound_append h partition key value time
  · rw [hstep]
    exact ⟨idle_congr h rfl rfl (List.Subset.refl _), fun r hr hcommits =>
      active_congr (h.run r hr hcommits) rfl rfl (List.Subset.refl _)⟩
  · rw [hstep]
    refine sound_goto h fun hcommits => ?_
    have hstage : stage ≠ stageAll := by
      rcases haction with hdryRun | hstage
      · exact absurd (hcommits.symm.trans hdryRun) (by decide)
      · exact hstage
    exact ⟨hstage, h.idle stage hstage, trivial⟩
  · rw [hstep]
    exact sound_stop h rfl rfl (List.Subset.refl _) rfl
  · rw [hstep]
    cases hcommits : r.dryRun with
    | false => exact advance_sound h hrun hcommits action
    | true =>
        obtain ⟨next, heq, hnext⟩ :=
          advance_dry go pg write telemetryTopic (s := s) hcommits (hdry r hrun hcommits) action
        rw [heq]
        refine ⟨idle_congr h rfl rfl (List.Subset.refl _), fun r' hr' hcommits' => ?_⟩
        rcases hnext r' hr' with hsame | ⟨hdry', _⟩
        · exact active_congr (h.run r' hsame hcommits') rfl rfl (List.Subset.refl _)
        · exact absurd (hcommits'.symm.trans hdry') (by decide)

/-- Whatever the dead-letter topic holds, whatever Kafka takes and however the runs end: as long as
the stage `all` is used neither by a run that commits nor by a record, every record below the offset
of the group of a selection that the selection matches and whose payload can be decoded has been
replayed by a run with that selection. No step of a dry run changes an offset. -/
theorem replays_hide_nothing (go : GoRuntime) (pg : Postgres)
    (write : Bytes → Bytes → Bytes → Except GoError Unit) (dlqTopic telemetryTopic : Bytes)
    (db : Db) (actions : List ReplayAction) :
    let s := Execution.run (Replays.step go pg write dlqTopic telemetryTopic) (.initial db) actions
    ((∀ action ∈ actions, AvoidsAll go action) →
      ∀ (stage : Bytes) (partition offset : Nat) (msg : Message),
        (s.log partition)[offset]? = some msg →
        offset < s.offsets (replayGroupID stage) partition → Served go s.replays stage msg) ∧
    ∀ r, s.run = some r → r.dryRun = true → ∀ action,
      (s.step go pg write dlqTopic telemetryTopic action).offsets = s.offsets := by
  intro s
  have hdry : s.DryHarmless :=
    run_invariant Replays.DryHarmless
      (fun _ action h => (step_dry go pg write dlqTopic telemetryTopic h action).1)
      (fun _ hr => (by cases hr)) actions
  refine ⟨fun havoids stage partition offset msg hmsg hlt => ?_, fun r hr hdryRun action =>
    (step_dry go pg write dlqTopic telemetryTopic hdry action).2 r hr hdryRun⟩
  have hinit : (Replays.initial db).DryHarmless ∧ (Replays.initial db).Clean go ∧
      (Replays.initial db).Sound go :=
    ⟨fun _ hr => (by cases hr), fun _ _ hmem => (by cases hmem),
      ⟨fun _ _ => safe_initial, fun _ hr => (by cases hr)⟩⟩
  -- the three invariants together: dry runs, the records and the groups
  have hsound : s.DryHarmless ∧ s.Clean go ∧ s.Sound go :=
    run_invariant_along (fun _ action => AvoidsAll go action)
      (fun state : Replays => state.DryHarmless ∧ state.Clean go ∧ state.Sound go)
      (fun _ action h haction =>
        ⟨(step_dry go pg write dlqTopic telemetryTopic h.1 action).1, step_clean h.2.1 haction,
          step_sound h.1 h.2.2 haction⟩)
      hinit (along_of_forall (fun action haction _ => havoids action haction) _)
  by_cases hstage : stage = stageAll
  · subst hstage
    intro item value hitem hselects _
    have hne := hsound.2.1 partition msg (List.mem_of_getElem? hmsg) item hitem
    exact absurd ((of_decide_eq_true hselects).resolve_left (by decide)) hne
  · exact (hsound.2.2.idle stage hstage).settled partition offset msg hlt hmsg

/-- A dead letter of the telemetry consumer. -/
def storedLetter : Bytes :=
  ascii "\x7b\"sourceTopic\":\"iot.telemetry\",\"valueBase64\":\"e30=\",\"stage\":\"telemetry.decode\"\x7d"

/-- A run with `-stage all` meets that dead letter and then a record that is no JSON. -/
def hidingRun : List ReplayAction :=
  [.append 0 [] storedLetter 0, .append 0 [] (ascii "?") 0, .start stageAll 100 false, .fetch 0,
    .inspect, .fetch 0, .inspect, .commit true true, .stop]

/-- A writer for the topic of the telemetry alone, with the default limit of one MiB. A record with
the header of a replay counts as much as its key, its value and 48 bytes more. -/
def plainWrite (topic key value : Bytes) : Except GoError Unit :=
  if topic = ascii "iot.telemetry" ∧ key.length + value.length + 48 ≤ 1048576 then .ok ()
  else .error (.new "message refused")

/-- The topics are called as they are by default. -/
def plainStep : Replays → ReplayAction → Replays :=
  Replays.step .plain .plain plainWrite (ascii "iot.dlq") (ascii "iot.telemetry")

/-- The dead letter as the run reads it. -/
def storedItem : DeadLetter :=
  ⟨ascii "iot.telemetry", 0, 0, [], ascii "e30=", ascii "telemetry.decode", [], []⟩

theorem unmarshal_storedLetter : DeadLetter.unmarshal .plain storedLetter = .ok storedItem := by
  decide +kernel

/-- The run skips the dead letter, commits the malformed record in the group of the runs without a
stage, and so hides the dead letter from them. -/
theorem stage_all_hides :
    ∃ msg, ((Execution.run plainStep (.initial .empty) hidingRun).log 0)[(0 : Nat)]? = some msg ∧
      0 < (Execution.run plainStep (.initial .empty) hidingRun).offsets (replayGroupID []) 0 ∧
      ¬ Served .plain (Execution.run plainStep (.initial .empty) hidingRun).replays [] msg := by
  have hlog : ((Execution.run plainStep (.initial .empty) hidingRun).log 0)[(0 : Nat)]? =
      some ⟨ascii "iot.dlq", 0, 0, [], storedLetter, 0⟩ := by decide +kernel
  have hreplays : (Execution.run plainStep (.initial .empty) hidingRun).replays = [] := by
    decide +kernel
  refine ⟨_, hlog, by decide +kernel, fun hserved => ?_⟩
  have hmem := hserved storedItem (ascii "\x7b\x7d") unmarshal_storedLetter (by decide)
    (by decide +kernel)
  rw [hreplays] at hmem
  cases hmem

/-- A run without a stage replays the dead letter, and a dry run follows. -/
def servingRun : List ReplayAction :=
  [.append 0 [] storedLetter 0, .start [] 100 false, .fetch 0, .inspect, .replay 0 none true,
    .commit true true, .stop, .start stageAll 100 true]

theorem replays_hide_nothing_serving :
    (∃ msg, ((Execution.run plainStep (.initial .empty) servingRun).log 0)[(0 : Nat)]? = some msg ∧
      0 < (Execution.run plainStep (.initial .empty) servingRun).offsets (replayGroupID []) 0 ∧
      Served .plain (Execution.run plainStep (.initial .empty) servingRun).replays [] msg) ∧
    ∃ r, (Execution.run plainStep (.initial .empty) servingRun).run = some r ∧
      (plainStep (Execution.run plainStep (.initial .empty) servingRun) (.fetch 0)).offsets =
        (Execution.run plainStep (.initial .empty) servingRun).offsets := by
  have hruns := replays_hide_nothing .plain .plain plainWrite (ascii "iot.dlq")
    (ascii "iot.telemetry") .empty servingRun
  rw [show Replays.step .plain .plain plainWrite (ascii "iot.dlq") (ascii "iot.telemetry") =
    plainStep from rfl] at hruns
  obtain ⟨hserved, hdry⟩ := hruns
  have hlog : ((Execution.run plainStep (.initial .empty) servingRun).log 0)[(0 : Nat)]? =
      some ⟨ascii "iot.dlq", 0, 0, [], storedLetter, 0⟩ := by decide +kernel
  have hoffset : 0 < (Execution.run plainStep (.initial .empty) servingRun).offsets
      (replayGroupID []) 0 := by decide +kernel
  have hdryRun : (Execution.run plainStep (.initial .empty) servingRun).run.map ReplayRun.dryRun =
      some true := by decide +kernel
  have havoids : ∀ action ∈ servingRun, AvoidsAll .plain action := by
    intro action haction
    simp only [servingRun, List.mem_cons, List.not_mem_nil, or_false] at haction
    rcases haction with rfl | rfl | rfl | rfl | rfl | rfl | rfl | rfl
    · intro item hitem
      rw [unmarshal_storedLetter] at hitem
      cases hitem
      decide
    · exact Or.inr (by decide)
    · trivial
    · trivial
    · trivial
    · trivial
    · trivial
    · exact Or.inl rfl
  refine ⟨⟨_, hlog, hoffset, hserved havoids [] 0 0 _ hlog hoffset⟩, ?_⟩
  obtain ⟨r, hr, hflag⟩ := Option.map_eq_some_iff.mp hdryRun
  exact ⟨r, hr, hdry r hr hflag (.fetch 0)⟩

end Iot.Replay
