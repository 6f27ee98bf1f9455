import Iot.Replay.Runs

/-!
# A run of dlq-replay over the whole topic

With Kafka and PostgreSQL healthy, a run of `dlq-replay` that is no dry run and has a limit as high
as the number of records takes every record there is (`healthyRun`). It ends early at a record that
can never be replayed: `log.Fatalf` leaves the loop without a commit, so the next run meets the same
record first. A healthy Kafka refuses a record as well, for its size or its topic (`Kafka.Takes`).
`drained_iff_unblocked` says that a run deals with all selected records exactly if it meets no
record of either kind, and `blocked_by_decode` is a topic that is stuck.
-/

namespace Iot.Replay

open Text Json Contracts Platform Store Data Execution Worker

variable (go : GoRuntime) (pg : Postgres) (write : Bytes → Bytes → Bytes → Except GoError Unit)
  (dlqTopic telemetryTopic : Bytes)

/-- The steps a run takes for a record while every call is made and answered. A step that does not
fit where the run stands does nothing. -/
def healthyRecord (entry : Nat × Time) : List ReplayAction :=
  [.fetch entry.1, .inspect, .replay entry.2 none true, .commit true true]

/-- A run while every call is made and answered: the partitions its records come from, in order,
with the time of each, and then the end of the topic. -/
def healthyRun (stage : Bytes) (limit : Int) (schedule : List (Nat × Time)) : List ReplayAction :=
  .start stage limit false :: (schedule.flatMap healthyRecord ++ [.stop])

/-- The limit of a writer that is given none, one MiB. -/
def replayBatchBytes : Nat := 1048576

/-- A healthy Kafka: the topics it has, and what the writer counts for a record besides its key and
its value. -/
structure Kafka where
  hasTopic : Bytes → Bool
  framing : Nat

/-- It takes a record. -/
def Kafka.Takes (kafka : Kafka) (topic key value : Bytes) : Prop :=
  topic ≠ [] ∧ kafka.hasTopic topic = true ∧
    key.length + value.length + kafka.framing ≤ replayBatchBytes

/-- What `WriteMessages` answers is what a healthy Kafka takes. -/
def Kafka.Answers (kafka : Kafka) (write : Bytes → Bytes → Bytes → Except GoError Unit) : Prop :=
  ∀ topic key value, write topic key value = .ok () ↔ kafka.Takes topic key value

/-- The messages of the log know their partition and offset. -/
def Replays.Addressed (s : Replays) : Prop :=
  ∀ (partition index : Nat) (msg : Message), (s.log partition)[index]? = some msg →
    msg.address = (partition, index)

/-- The schedule takes every record after the offsets of the group. -/
def Exhausts (s : Replays) (stage : Bytes) (schedule : List (Nat × Time)) : Prop :=
  ∀ partition, s.offsets (replayGroupID stage) partition +
    (schedule.map Prod.fst).count partition = (s.log partition).length

/-- The record at an index is selected. -/
def SelectedAt (s : Replays) (stage : Bytes) (partition index : Nat) (msg : Message)
    (item : DeadLetter) : Prop :=
  (s.log partition)[index]? = some msg ∧ DeadLetter.unmarshal go msg.value = .ok item ∧
    selects stage item = true

/-- A record can be replayed: there is a payload for Kafka, or the store accepts the result. -/
def CanReplay (s : Replays) (item : DeadLetter) (value : Bytes) : Prop :=
  if item.stage = Stage.commandAck.text then
    ∃ now stored, replayAck go pg item value now s.db = .ok stored
  else ∃ record, replayKafkaPayload go telemetryTopic item value = .ok record

/-- What a run should achieve: of the records after the offsets of its group, it has replayed every
selected one that can be replayed, and the group is past every selected one. -/
structure Drained (before after : Replays) (stage : Bytes) : Prop where
  replayed : ∀ partition index msg item value,
    before.offsets (replayGroupID stage) partition ≤ index →
    SelectedAt go before stage partition index msg item → decode64 item.valueBase64 = some value →
    CanReplay go pg telemetryTopic before item value → (stage, msg) ∈ after.replays
  position : ∀ partition index msg item,
    before.offsets (replayGroupID stage) partition ≤ index →
    SelectedAt go before stage partition index msg item →
    index < after.offsets (replayGroupID stage) partition

/-- The record that is about to be replayed can be, at the time of the step, and its payload is one
that Kafka takes. -/
def Unblocked (kafka : Kafka) (s : Replays) (action : ReplayAction) : Prop :=
  ∀ r msg item value now error applied, s.run = some r → r.point = .replaying msg item value →
    action = .replay now error applied →
    if item.stage = Stage.commandAck.text then
      ∃ stored, replayAck go pg item value now s.db = .ok stored
    else
      ∃ topic payload, replayKafkaPayload go telemetryTopic item value = .ok (topic, payload) ∧
        kafka.Takes topic item.key payload

variable {go pg write dlqTopic telemetryTopic} {kafka : Kafka}

/-- When a record is replayed. -/
theorem replayItem_ok_iff (hkafka : kafka.Answers write) {s : Replays} {item : DeadLetter}
    {value : Bytes} {now : Time} :
    (∃ after, s.replayItem go pg write telemetryTopic item value now = .ok after) ↔
      if item.stage = Stage.commandAck.text then
        ∃ stored, replayAck go pg item value now s.db = .ok stored
      else
        ∃ topic payload, replayKafkaPayload go telemetryTopic item value = .ok (topic, payload) ∧
          kafka.Takes topic item.key payload := by
  unfold Replays.replayItem
  split_ifs
  · simp only [bind_eq_ok]
    constructor
    · rintro ⟨after, stored, hstored, -⟩
      exact ⟨stored, hstored⟩
    · rintro ⟨stored, hstored⟩
      exact ⟨_, stored, hstored, rfl⟩
  · simp only [bind_eq_ok]
    constructor
    · rintro ⟨after, ⟨topic, payload⟩, hplan, ⟨⟩, hwrite, -⟩
      exact ⟨topic, payload, hplan, (hkafka _ _ _).mp hwrite⟩
    · rintro ⟨topic, payload, hplan, htakes⟩
      exact ⟨_, (topic, payload), hplan, (), (hkafka _ _ _).mpr htakes, rfl⟩

/-- Every step keeps the messages addressed, so they are in every state that is reached. -/
theorem step_addressed {s : Replays} (h : s.Addressed) (action : ReplayAction) :
    (s.step go pg write dlqTopic telemetryTopic action).Addressed := by
  rcases step_log go pg write dlqTopic telemetryTopic s action with
    ⟨partition, key, value, time, rfl⟩ | hlog
  · intro other index msg hmsg
    by_cases hother : other = partition
    · subst hother
      simp only [Replays.step, Function.update_self, List.getElem?_append] at hmsg
      split at hmsg
      · exact h other index msg hmsg
      · rename_i hlast
        obtain ⟨hzero, rfl⟩ := List.getElem?_eq_some_iff.mp hmsg
        have hindex : index = (s.log other).length := by
          rw [List.length_singleton] at hzero
          omega
        subst hindex
        simp [Message.address]
    · simp only [Replays.step, Function.update_of_ne hother] at hmsg
      exact h other index msg hmsg
  · rw [Replays.Addressed, hlog]
    exact h

/-! ## One record -/

/-- The offsets after the commit of a record. -/
def Replays.committed (s : Replays) (stage : Bytes) (msg : Message) : Bytes → Nat → Nat :=
  Function.update s.offsets (replayGroupID stage)
    (Function.update (s.offsets (replayGroupID stage)) msg.address.1 (msg.address.2 + 1))

/-- The run with the next record of a partition taken. -/
def ReplayRun.take (r : ReplayRun) (partition : Nat) : ReplayRun :=
  { r with position := Function.update r.position partition (r.position partition + 1) }

@[simp] theorem ReplayRun.goto_goto (r : ReplayRun) (first second : ReplayPoint) :
    (r.goto first).goto second = r.goto second := rfl

/-- A run is past a record: it goes on with the next, and if the record was selected it is
committed and, unless it does not decode, replayed. -/
structure Passes (go : GoRuntime) (s : Replays) (r : ReplayRun) (partition : Nat) (msg : Message)
    (after : Replays) (next : ReplayRun) : Prop where
  log : after.log = s.log
  run : after.run = some next
  next : next = (r.take partition).goto .fetching ∨ next = (r.take partition).count.goto .fetching
  offsets : after.offsets = s.offsets ∨ after.offsets = s.committed r.stage msg
  replays : s.replays ⊆ after.replays
  served : ∀ item, DeadLetter.unmarshal go msg.value = .ok item → selects r.stage item = true →
    after.offsets = s.committed r.stage msg ∧
      ∀ value, decode64 item.valueBase64 = some value → (r.stage, msg) ∈ after.replays

/-- A run has ended at a selected record without a commit. -/
structure Aborts (go : GoRuntime) (s : Replays) (r : ReplayRun) (msg : Message) (after : Replays) :
    Prop where
  run : after.run = none
  offsets : after.offsets = s.offsets
  selected : ∃ item, DeadLetter.unmarshal go msg.value = .ok item ∧ selects r.stage item = true

variable (go pg write dlqTopic telemetryTopic) in
/-- After the first two steps for a record the run has looked at it. -/
theorem run_inspect {s : Replays} {r : ReplayRun} {msg : Message} {partition : Nat}
    (hrun : s.run = some r) (hpoint : r.point = .fetching) (hlimit : r.replayed < r.limit)
    (hmsg : (s.log partition)[r.position partition]? = some msg) :
    (s.step go pg write dlqTopic telemetryTopic (.fetch partition)).step go pg write dlqTopic
        telemetryTopic .inspect =
      { s with run := some (((r.take partition).goto (.fetched msg)).inspect go msg) } := by
  have hfetch : s.step go pg write dlqTopic telemetryTopic (.fetch partition) =
      { s with run := some ((r.take partition).goto (.fetched msg)) } := by
    simp only [Replays.step, hrun, Replays.advance, hpoint, hlimit, if_true, hmsg]
    rfl
  rw [hfetch]
  simp only [Replays.step, Replays.advance, ReplayRun.goto]

/-- Of the steps for a record only the third depends on whether it can be replayed. -/
theorem along_healthyRecord {s : Replays} {entry : Nat × Time} :
    Along (Replays.step go pg write dlqTopic telemetryTopic)
      (Unblocked go pg telemetryTopic kafka) s (healthyRecord entry) ↔
    Unblocked go pg telemetryTopic kafka
      ((s.step go pg write dlqTopic telemetryTopic (.fetch entry.1)).step go pg write dlqTopic
        telemetryTopic .inspect) (.replay entry.2 none true) := by
  simp [Along, healthyRecord, Unblocked]

/-- Only a record that is about to be replayed can block a step. -/
theorem unblocked_of_point {s : Replays} {r : ReplayRun} {action : ReplayAction}
    (hrun : s.run = some r) (hpoint : ∀ msg item value, r.point ≠ .replaying msg item value) :
    Unblocked go pg telemetryTopic kafka s action := by
  intro r' msg item value now error applied hrun' hpoint' _
  rw [hrun] at hrun'
  cases hrun'
  exact absurd hpoint' (hpoint msg item value)

/-- What the third step for a record does where it is about to be replayed. -/
theorem step_replay {s : Replays} {r : ReplayRun} {msg : Message} {item : DeadLetter}
    {value : Bytes} {now : Time} (hrun : s.run = some r)
    (hpoint : r.point = .replaying msg item value) :
    s.step go pg write dlqTopic telemetryTopic (.replay now none true) =
      match s.replayItem go pg write telemetryTopic item value now with
      | .error _ => { s with run := none }
      | .ok after =>
          { after with
            run := some (r.goto (.committing msg false true))
            replays := s.replays ++ [(r.stage, msg)] } := by
  simp only [Replays.step, hrun, Replays.advance, hpoint]
  cases s.replayItem go pg write telemetryTopic item value now <;> rfl

/-- The commit of a record ends the work on it. -/
theorem passes_commit {s after : Replays} {r : ReplayRun} {partition : Nat} {msg : Message}
    {counted : Bool} (hlog : after.log = s.log) (hoffsets : after.offsets = s.offsets)
    (hreplays : s.replays ⊆ after.replays)
    (hrun : after.run = some ((r.take partition).goto (.committing msg false counted)))
    (hserved : ∀ item value, DeadLetter.unmarshal go msg.value = .ok item →
      selects r.stage item = true → decode64 item.valueBase64 = some value →
      (r.stage, msg) ∈ after.replays) :
    ∃ next, Passes go s r partition msg
      (after.step go pg write dlqTopic telemetryTopic (.commit true true)) next := by
  have hcommit : after.step go pg write dlqTopic telemetryTopic (.commit true true) =
      { after with
        offsets := s.committed r.stage msg
        run := some ((if counted then (r.take partition).count else r.take partition).goto
          .fetching) } := by
    simp only [Replays.step, hrun, Replays.advance, ReplayRun.goto, Replays.committed, hoffsets]
    cases counted <;> rfl
  refine ⟨(if counted then (r.take partition).count else r.take partition).goto .fetching, ?_⟩
  rw [hcommit]
  refine ⟨hlog, rfl, ?_, Or.inr rfl, hreplays, fun item hitem hselects =>
    ⟨rfl, fun value hvalue => hserved item value hitem hselects hvalue⟩⟩
  cases counted
  · exact Or.inl rfl
  · exact Or.inr rfl

variable (go pg write dlqTopic telemetryTopic) in
/-- What the steps for a record do: the run is past it, or the record is blocked and the run ends
there. -/
theorem healthyRecord_cases {s : Replays} {r : ReplayRun} {msg : Message} {partition : Nat}
    (hkafka : kafka.Answers write) (now : Time) (hrun : s.run = some r)
    (hpoint : r.point = .fetching) (hlimit : r.replayed < r.limit) (hdry : r.dryRun = false)
    (hmsg : (s.log partition)[r.position partition]? = some msg) :
    (Along (Replays.step go pg write dlqTopic telemetryTopic)
        (Unblocked go pg telemetryTopic kafka) s (healthyRecord (partition, now)) ∧
      ∃ next, Passes go s r partition msg
        (Execution.run (Replays.step go pg write dlqTopic telemetryTopic) s
          (healthyRecord (partition, now))) next) ∨
    (¬ Along (Replays.step go pg write dlqTopic telemetryTopic)
        (Unblocked go pg telemetryTopic kafka) s (healthyRecord (partition, now)) ∧
      Aborts go s r msg (Execution.run (Replays.step go pg write dlqTopic telemetryTopic) s
        (healthyRecord (partition, now)))) := by
  have hinspect := run_inspect go pg write dlqTopic telemetryTopic hrun hpoint hlimit hmsg
  rw [along_healthyRecord, healthyRecord]
  simp only [run_cons, run_nil, hinspect]
  unfold ReplayRun.inspect
  have hcommits : ((r.take partition).goto (.fetched msg)).dryRun = false := hdry
  have hstage : ((r.take partition).goto (.fetched msg)).stage = r.stage := rfl
  simp only [hcommits, hstage, Bool.false_eq_true, if_false, ReplayRun.goto_goto]
  cases hitem : DeadLetter.unmarshal go msg.value with
  | error err =>
      refine Or.inl ⟨unblocked_of_point rfl (by simp [ReplayRun.goto]), ?_⟩
      refine passes_commit rfl rfl (List.Subset.refl _) rfl ?_
      intro item value hitem'
      rw [hitem] at hitem'
      cases hitem'
  | ok item =>
      dsimp only
      by_cases hselects : selects r.stage item = true
      · rw [if_pos hselects]
        cases hvalue : decode64 item.valueBase64 with
        | none =>
            refine Or.inl ⟨unblocked_of_point rfl (by simp [ReplayRun.goto]), ?_⟩
            refine passes_commit rfl rfl (List.Subset.refl _) rfl ?_
            intro item' value hitem' _ hvalue'
            rw [hitem] at hitem'
            cases hitem'
            rw [hvalue] at hvalue'
            cases hvalue'
        | some value =>
            dsimp only
            rw [step_replay rfl rfl]
            cases hreplay : Replays.replayItem go pg write telemetryTopic
                { s with run := some ((r.take partition).goto (.replaying msg item value)) }
                item value now with
            | error err =>
                -- the run is aborted at the record, which stays uncommitted
                refine Or.inr ⟨fun hunblocked => ?_, ?_⟩
                · obtain ⟨after, hafter⟩ := (replayItem_ok_iff hkafka).mpr
                    (hunblocked _ msg item value now none true rfl rfl rfl)
                  exact absurd (hreplay.symm.trans hafter) (by simp)
                · exact ⟨rfl, rfl, item, hitem, hselects⟩
            | ok after =>
                obtain ⟨hlog, hoffsets, hreplays⟩ := replayItem_frame hreplay
                refine Or.inl ⟨?_, passes_commit hlog hoffsets (List.subset_append_left _ _) rfl ?_⟩
                · intro r' msg' item' value' now' error applied hrun' hpoint' haction
                  cases hrun'
                  cases hpoint'
                  cases haction
                  exact (replayItem_ok_iff hkafka).mp ⟨after, hreplay⟩
                · intro _ _ _ _ _
                  exact List.mem_append_right _ (List.mem_singleton_self _)
      · rw [if_neg hselects]
        refine Or.inl ⟨unblocked_of_point rfl (by simp [ReplayRun.goto]),
          (r.take partition).goto .fetching, rfl, rfl, Or.inl rfl, Or.inl rfl,
          List.Subset.refl _, ?_⟩
        intro item' hitem' hselects'
        rw [hitem] at hitem'
        cases hitem'
        exact absurd hselects' hselects

/-! ## The whole topic -/

/-- A run goes on after the records of a schedule: its position is past them, and the selected ones
among them are dealt with. -/
structure Draining (go : GoRuntime) (before : Replays) (stage : Bytes) (limit : Int)
    (taken : List (Nat × Time)) (s : Replays) (r : ReplayRun) : Prop where
  run : s.run = some r
  point : r.point = .fetching
  selection : r.stage = stage
  bound : r.limit = limit
  commits : r.dryRun = false
  replayed : r.replayed ≤ taken.length
  log : s.log = before.log
  position : ∀ partition, r.position partition =
    before.offsets (replayGroupID stage) partition + (taken.map Prod.fst).count partition
  committed : ∀ partition, s.offsets (replayGroupID stage) partition ≤ r.position partition
  handled : ∀ partition index msg item,
    before.offsets (replayGroupID stage) partition ≤ index → index < r.position partition →
    SelectedAt go before stage partition index msg item →
    index < s.offsets (replayGroupID stage) partition ∧
      ∀ value, decode64 item.valueBase64 = some value → (stage, msg) ∈ s.replays

/-- A run has ended and its group is not past a selected record. -/
def Stuck (go : GoRuntime) (before : Replays) (stage : Bytes) (s : Replays) : Prop :=
  s.run = none ∧ ∃ partition index msg item,
    before.offsets (replayGroupID stage) partition ≤ index ∧
    SelectedAt go before stage partition index msg item ∧
    s.offsets (replayGroupID stage) partition ≤ index

/-- The offset of a partition after the commit of a record. -/
theorem committed_apply (s : Replays) (stage : Bytes) {msg : Message} {partition index : Nat}
    (haddress : msg.address = (partition, index)) (other : Nat) :
    s.committed stage msg (replayGroupID stage) other =
      if other = partition then index + 1 else s.offsets (replayGroupID stage) other := by
  simp [Replays.committed, haddress, Function.update_apply]

/-- The position after a record is taken. -/
theorem take_position (r : ReplayRun) (partition other : Nat) :
    (r.take partition).position other =
      if other = partition then r.position partition + 1 else r.position other := by
  simp [ReplayRun.take, Function.update_apply]

/-- A record the run is past is dealt with. -/
theorem draining_passes {before s after : Replays} {stage : Bytes} {limit : Int}
    {taken : List (Nat × Time)} {r next : ReplayRun} {partition : Nat} {msg : Message} (now : Time)
    (h : Draining go before stage limit taken s r) (haddressed : before.Addressed)
    (hmsg : (before.log partition)[r.position partition]? = some msg)
    (hpasses : Passes go s r partition msg after next) :
    Draining go before stage limit (taken ++ [(partition, now)]) after next := by
  have haddress := haddressed partition _ msg hmsg
  have hstage := h.selection
  have hgoes : next.point = .fetching ∧ next.stage = stage ∧ next.limit = limit ∧
      next.dryRun = false ∧ next.replayed ≤ r.replayed + 1 ∧
      next.position = (r.take partition).position := by
    have hsame := And.intro h.selection (And.intro h.bound h.commits)
    rcases hpasses.next with rfl | rfl <;>
      simp [ReplayRun.take, ReplayRun.goto, ReplayRun.count, hsame]
  obtain ⟨hpoint, hselection, hbound, hcommits, hreplayed, hposition⟩ := hgoes
  have hcommitted : ∀ other, after.offsets (replayGroupID stage) other =
        s.offsets (replayGroupID stage) other ∨
      other = partition ∧
        after.offsets (replayGroupID stage) other = r.position partition + 1 := by
    intro other
    rcases hpasses.offsets with heq | heq
    · exact Or.inl (by rw [heq])
    · rw [heq, hstage, committed_apply s stage haddress]
      split
      · exact Or.inr ⟨‹_›, rfl⟩
      · exact Or.inl rfl
  refine ⟨hpasses.run, hpoint, hselection, hbound, hcommits, ?_,
    hpasses.log.trans h.log, ?_, ?_, ?_⟩
  · have hcount := h.replayed
    rw [List.length_append, List.length_singleton]
    omega
  · intro other
    have hcount := h.position
    rw [hposition, take_position, List.map_append, List.count_append]
    split
    · rename_i hother
      subst hother
      simp [hcount]
      omega
    · rename_i hother
      simp [hcount, Ne.symm hother]
  · intro other
    have hle := h.committed other
    rw [hposition, take_position]
    rcases hcommitted other with heq | ⟨rfl, heq⟩
    · split
      · subst_vars
        omega
      · omega
    · rw [if_pos rfl, heq]
  · intro other index msg' item hfrom hbelow hselected
    rw [hposition, take_position] at hbelow
    by_cases hlast : other = partition ∧ index = r.position partition
    · -- the record just taken
      obtain ⟨rfl, rfl⟩ := hlast
      obtain ⟨hmsg', hitem, hselects⟩ := hselected
      rw [hmsg] at hmsg'
      cases hmsg'
      obtain ⟨hoffsets, hserved⟩ := hpasses.served item hitem (by rw [hstage]; exact hselects)
      refine ⟨?_, fun value hvalue => hstage ▸ hserved value hvalue⟩
      rw [hoffsets, hstage, committed_apply s stage haddress, if_pos rfl]
      exact Nat.lt_succ_self _
    · have hearlier : index < r.position other := by
        split at hbelow
        · subst_vars
          omega
        · exact hbelow
      obtain ⟨hoffset, hserved⟩ := h.handled other index msg' item hfrom hearlier hselected
      refine ⟨?_, fun value hvalue => hpasses.replays (hserved value hvalue)⟩
      rcases hcommitted other with heq | ⟨rfl, heq⟩
      · rw [heq]
        exact hoffset
      · rw [heq]
        omega

/-- At a record the run aborts at, the group is stuck. -/
theorem stuck_aborts {before s after : Replays} {stage : Bytes} {limit : Int}
    {taken : List (Nat × Time)} {r : ReplayRun} {partition : Nat} {msg : Message}
    (h : Draining go before stage limit taken s r)
    (hmsg : (before.log partition)[r.position partition]? = some msg)
    (haborts : Aborts go s r msg after) : Stuck go before stage after := by
  obtain ⟨item, hitem, hselects⟩ := haborts.selected
  have hposition := h.position partition
  refine ⟨haborts.run, partition, r.position partition, msg, item, by omega,
    ⟨hmsg, hitem, h.selection ▸ hselects⟩, ?_⟩
  rw [haborts.offsets]
  exact h.committed partition

/-- The steps for further records do nothing once the run has ended. -/
theorem run_ended {s : Replays} (hrun : s.run = none) (schedule : List (Nat × Time)) :
    Execution.run (Replays.step go pg write dlqTopic telemetryTopic) s
      (schedule.flatMap healthyRecord) = s := by
  induction schedule with
  | nil => rfl
  | cons entry rest ih =>
      rw [List.flatMap_cons, Execution.run_append]
      have hentry : Execution.run (Replays.step go pg write dlqTopic telemetryTopic) s
          (healthyRecord entry) = s := by
        simp [healthyRecord, Replays.step, hrun]
      rw [hentry, ih]

variable (go pg write dlqTopic telemetryTopic) in
/-- A run over a schedule either meets no blocked record and is past all of it, or is stuck. -/
theorem drain_cases (hkafka : kafka.Answers write) {before : Replays} {stage : Bytes} {limit : Int}
    (haddressed : before.Addressed) (schedule : List (Nat × Time)) :
    ∀ {taken : List (Nat × Time)} {s : Replays} {r : ReplayRun},
      Draining go before stage limit taken s r →
      (∀ partition, before.offsets (replayGroupID stage) partition +
        ((taken ++ schedule).map Prod.fst).count partition ≤ (before.log partition).length) →
      ((taken ++ schedule).length : Int) ≤ limit →
      (Along (Replays.step go pg write dlqTopic telemetryTopic)
          (Unblocked go pg telemetryTopic kafka) s (schedule.flatMap healthyRecord) ∧
        ∃ last, Draining go before stage limit (taken ++ schedule)
          (Execution.run (Replays.step go pg write dlqTopic telemetryTopic) s
            (schedule.flatMap healthyRecord)) last) ∨
      (¬ Along (Replays.step go pg write dlqTopic telemetryTopic)
          (Unblocked go pg telemetryTopic kafka) s (schedule.flatMap healthyRecord) ∧
        Stuck go before stage (Execution.run (Replays.step go pg write dlqTopic telemetryTopic) s
          (schedule.flatMap healthyRecord))) := by
  induction schedule with
  | nil =>
      intro taken s r h _ _
      exact Or.inl ⟨trivial, r, by simpa using h⟩
  | cons entry rest ih =>
      intro taken s r h hroom hlimit
      obtain ⟨partition, now⟩ := entry
      have hposition := h.position partition
      have hreplayed := h.replayed
      have hbound := h.bound
      have hpartition := hroom partition
      simp only [List.map_append, List.map_cons, List.count_append, List.count_cons_self,
        List.length_append, List.length_cons] at hpartition hlimit
      obtain ⟨msg, hmsg⟩ : ∃ msg, (before.log partition)[r.position partition]? = some msg := by
        have hlt : r.position partition < (before.log partition).length := by omega
        exact ⟨_, List.getElem?_eq_getElem hlt⟩
      have hrecord := healthyRecord_cases go pg write dlqTopic telemetryTopic hkafka now h.run
        h.point (by omega) h.commits (h.log ▸ hmsg)
      rw [List.flatMap_cons, along_append, Execution.run_append]
      rcases hrecord with ⟨halong, next, hpasses⟩ | ⟨hblocked, haborts⟩
      · have hnext := draining_passes now h haddressed hmsg hpasses
        have hrest := ih hnext (by simpa using hroom) (by simp; omega)
        rw [List.append_assoc, List.singleton_append] at hrest
        rcases hrest with ⟨hall, hlast⟩ | ⟨hstuck, hend⟩
        · exact Or.inl ⟨⟨halong, hall⟩, hlast⟩
        · exact Or.inr ⟨fun hboth => hstuck hboth.2, hend⟩
      · have hstuck := stuck_aborts h hmsg haborts
        refine Or.inr ⟨fun hboth => hblocked hboth.1, ?_⟩
        rw [run_ended hstuck.1]
        exact hstuck

/-- Whatever the dead-letter topic holds and whatever its group has committed: a run that takes all
the records after that, while Kafka and PostgreSQL are healthy, replays every selected record that
can be replayed and leaves its group past every selected record exactly if it comes to no record
that cannot be replayed when its turn comes or whose payload Kafka does not take. -/
theorem drained_iff_unblocked (go : GoRuntime) (pg : Postgres) (kafka : Kafka)
    (write : Bytes → Bytes → Bytes → Except GoError Unit) (hkafka : kafka.Answers write)
    (dlqTopic telemetryTopic : Bytes) (before : Replays) (stage : Bytes) (limit : Int)
    (schedule : List (Nat × Time)) (hidle : before.run = none) (haddressed : before.Addressed)
    (hexhausts : Exhausts before stage schedule) (hlimit : (schedule.length : Int) ≤ limit) :
    Drained go pg telemetryTopic before
        (Execution.run (Replays.step go pg write dlqTopic telemetryTopic) before
          (healthyRun stage limit schedule)) stage ↔
      Along (Replays.step go pg write dlqTopic telemetryTopic)
        (Unblocked go pg telemetryTopic kafka) before (healthyRun stage limit schedule) := by
  have hstart : before.step go pg write dlqTopic telemetryTopic (.start stage limit false) =
      { before with
        run := some
          ⟨stage, limit, false, before.offsets (replayGroupID stage), 0, .fetching⟩ } := by
    simp only [Replays.step, hidle]
  have hdraining : Draining go before stage limit []
      (before.step go pg write dlqTopic telemetryTopic (.start stage limit false))
      ⟨stage, limit, false, before.offsets (replayGroupID stage), 0, .fetching⟩ := by
    rw [hstart]
    exact ⟨rfl, rfl, rfl, rfl, rfl, by simp, rfl, by simp, fun _ => le_refl _,
      fun _ _ _ _ hfrom hbelow => absurd hfrom (by simpa using hbelow)⟩
  have hcases := drain_cases go pg write dlqTopic telemetryTopic hkafka haddressed schedule
    hdraining (fun partition => (hexhausts partition).le) hlimit
  have halong : Along (Replays.step go pg write dlqTopic telemetryTopic)
        (Unblocked go pg telemetryTopic kafka) before (healthyRun stage limit schedule) ↔
      Along (Replays.step go pg write dlqTopic telemetryTopic)
        (Unblocked go pg telemetryTopic kafka)
        (before.step go pg write dlqTopic telemetryTopic (.start stage limit false))
        (schedule.flatMap healthyRecord) := by
    simp [healthyRun, Along, along_append, Unblocked, hidle]
  -- the end of the run changes neither the offsets nor what was replayed
  rw [halong, healthyRun, run_cons, Execution.run_append]
  generalize Execution.run (Replays.step go pg write dlqTopic telemetryTopic)
    (before.step go pg write dlqTopic telemetryTopic (.start stage limit false))
    (schedule.flatMap healthyRecord) = s at hcases
  have hstop : Execution.run (Replays.step go pg write dlqTopic telemetryTopic) s [.stop] =
      { s with run := none } := by
    simp [Replays.step]
  rw [hstop]
  rcases hcases with ⟨hunblocked, last, hlast⟩ | ⟨hblocked, hstuck⟩
  · have hall : ∀ partition index msg item,
        before.offsets (replayGroupID stage) partition ≤ index →
        SelectedAt go before stage partition index msg item →
        index < s.offsets (replayGroupID stage) partition ∧
          ∀ value, decode64 item.valueBase64 = some value → (stage, msg) ∈ s.replays := by
      intro partition index msg item hfrom hselected
      refine hlast.handled partition index msg item hfrom ?_ hselected
      rw [hlast.position, List.nil_append, hexhausts partition]
      exact (List.getElem?_eq_some_iff.mp hselected.1).1
    refine iff_of_true ⟨?_, ?_⟩ hunblocked
    · intro partition index msg item value hfrom hselected hvalue _
      exact (hall partition index msg item hfrom hselected).2 value hvalue
    · intro partition index msg item hfrom hselected
      exact (hall partition index msg item hfrom hselected).1
  · refine iff_of_false (fun hdrained => ?_) hblocked
    obtain ⟨_, partition, index, msg, item, hfrom, hselected, hoffset⟩ := hstuck
    exact absurd (hdrained.position partition index msg item hfrom hselected)
      (by simpa using hoffset)

/-- A dead letter of the stage `mqtt.decode`. -/
def rejectedLetter : Bytes :=
  ascii "\x7b\"sourceTopic\":\"iot/t/d/telemetry\",\"valueBase64\":\"e30=\",\"stage\":\"mqtt.decode\"\x7d"

/-- A dead-letter topic with one partition. -/
def topicOf (letters : List Bytes) : Replays :=
  Execution.run plainStep (.initial .empty) (letters.map fun letter => .append 0 [] letter 0)

theorem topicOf_addressed (letters : List Bytes) : (topicOf letters).Addressed :=
  run_invariant Replays.Addressed (fun _ action h => step_addressed h action)
    (fun _ _ _ hmsg => by simp [Replays.initial] at hmsg) _

/-- Letters that are appended to the first partition leave the offsets and the other partitions as
they are. -/
theorem appended_letters (letters : List Bytes) (s : Replays) :
    (Execution.run plainStep s (letters.map fun letter => .append 0 [] letter 0)).offsets =
        s.offsets ∧
      ∀ partition, ((Execution.run plainStep s
          (letters.map fun letter => .append 0 [] letter 0)).log partition).length =
        (s.log partition).length + (List.replicate letters.length 0).count partition := by
  induction letters generalizing s with
  | nil => simp
  | cons letter rest ih =>
      obtain ⟨hoffsets, hlengths⟩ := ih (plainStep s (.append 0 [] letter 0))
      rw [List.map_cons, run_cons]
      refine ⟨hoffsets, fun partition => ?_⟩
      rw [hlengths partition, List.length_cons, List.replicate_succ, List.count_cons]
      cases partition with
      | zero =>
          simp only [plainStep, Replays.step, Function.update_self, List.length_append,
            List.length_singleton, beq_self_eq_true, if_true]
          omega
      | succ other => simp [plainStep, Replays.step]

/-- A schedule with one entry for each letter takes all of them. -/
theorem exhausts_topicOf (letters : List Bytes) (stage : Bytes) {schedule : List (Nat × Time)}
    (h : schedule.map Prod.fst = List.replicate letters.length 0) :
    Exhausts (topicOf letters) stage schedule := by
  intro partition
  obtain ⟨hoffsets, hlengths⟩ := appended_letters letters (.initial .empty)
  rw [topicOf, hoffsets, hlengths partition, h]
  rfl
/-- The Kafka behind `plainWrite`. -/
def plainKafka : Kafka := ⟨fun topic => topic == ascii "iot.telemetry", 48⟩

/-- It answers so. -/
theorem plainKafka_answers : plainKafka.Answers plainWrite := by
  intro topic key value
  have hempty : ascii "iot.telemetry" ≠ [] := by decide
  unfold plainWrite Kafka.Takes plainKafka replayBatchBytes
  split_ifs with h
  · obtain ⟨rfl, hlength⟩ := h
    simp [hempty, hlength]
  · simp only [beq_iff_eq, false_iff]
    rintro ⟨-, htopic, hlength⟩
    exact h ⟨htopic, hlength⟩

/-- A dead letter that can be replayed is. -/
theorem drained_iff_unblocked_stored :
    Drained .plain .plain (ascii "iot.telemetry") (topicOf [storedLetter])
      (Execution.run plainStep (topicOf [storedLetter]) (healthyRun [] 100 [(0, 0)])) [] := by
  refine (drained_iff_unblocked .plain .plain plainKafka plainWrite plainKafka_answers
    (ascii "iot.dlq") (ascii "iot.telemetry") _ [] 100 [(0, 0)] rfl (topicOf_addressed _)
    (exhausts_topicOf _ _ rfl) (by decide)).mpr ?_
  refine ⟨?_, ?_, ?_, ?_, ?_, ?_, trivial⟩
  case refine_4 =>
    intro r msg item value now error applied hrun hpoint _
    have hreads : (Execution.run plainStep (topicOf [storedLetter])
        [.start [] 100 false, .fetch 0, .inspect]).run.map ReplayRun.point =
        some (.replaying ⟨ascii "iot.dlq", 0, 0, [], storedLetter, 0⟩ storedItem
          (ascii "\x7b\x7d")) := by decide +kernel
    have hsame : (Execution.run plainStep (topicOf [storedLetter])
        [.start [] 100 false, .fetch 0, .inspect]).run = some r := hrun
    rw [hsame, Option.map_some, hpoint] at hreads
    cases hreads
    rw [if_neg (by decide)]
    exact ⟨ascii "iot.telemetry", ascii "\x7b\x7d", rfl, by decide, by decide, by decide⟩
  all_goals
    intro _ _ _ _ _ _ _ _ _ haction
    cases haction

/-- A record of the stage `mqtt.decode` in front of one that can be replayed: the run ends at the
first, replays nothing and commits nothing, so every later run ends there as well. -/
theorem blocked_by_decode :
    Exhausts (topicOf [rejectedLetter, storedLetter]) [] [(0, 0), (0, 0)] ∧
    (Execution.run plainStep (topicOf [rejectedLetter, storedLetter])
      (healthyRun [] 100 [(0, 0), (0, 0)])).replays = [] ∧
    ¬ Drained .plain .plain (ascii "iot.telemetry") (topicOf [rejectedLetter, storedLetter])
      (Execution.run plainStep (topicOf [rejectedLetter, storedLetter])
        (healthyRun [] 100 [(0, 0), (0, 0)])) [] := by
  have hoffset : (Execution.run plainStep (topicOf [rejectedLetter, storedLetter])
      (healthyRun [] 100 [(0, 0), (0, 0)])).offsets (replayGroupID []) 0 = 0 := by decide +kernel
  have hitem : DeadLetter.unmarshal .plain rejectedLetter = .ok
      ⟨ascii "iot/t/d/telemetry", 0, 0, [], ascii "e30=", ascii "mqtt.decode", [], []⟩ := by
    decide +kernel
  refine ⟨exhausts_topicOf _ _ rfl, by decide +kernel, fun hdrained => ?_⟩
  have hpast := hdrained.position 0 0 ⟨ascii "iot.dlq", 0, 0, [], rejectedLetter, 0⟩ _
    (Nat.le_refl 0) ⟨rfl, hitem, by decide⟩
  rw [hoffset] at hpast
  exact Nat.lt_irrefl 0 hpast

end Iot.Replay
