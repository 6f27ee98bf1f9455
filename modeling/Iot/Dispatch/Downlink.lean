import Iot.Dispatch.Handover
import Iot.Dispatch.Redelivery

/-!
# One attempt to deliver a command

A dispatcher claims a command, appends it to the command topic and marks it published
(`dispatchPending`). A worker reads the event, looks the command up, fails to hand it to MQTT,
requeues it, writes a dead letter and commits the offset (`consumeCommands` of
`internal/platform/worker.go`). The two run side by side on one database, and the device may
acknowledge the command at any time.

`RequeueCommand` matches only published rows, and the event is visible before the mark. When the
worker requeues before the mark lands the requeue does nothing, the mark then publishes the row,
and nothing is left that would deliver it (`early_requeue_strands`). Runs in which every requeue
finds the row no longer created keep the command in the queue, and among the runs that finish
they are the only ones that do (`failed_downlink_requeued`). The proof maps the states to those of
the handover (`Downlink.stage`) and shows that every action takes a step of it (`simulated`).
-/

namespace Iot.Dispatch

open Text Contracts Platform Store Data Execution

/-- Where the dispatcher is with its attempt. From the claim on it has the command it claimed and
the end of its lease. -/
inductive DispatcherPc where
  | idle
  | claimed (cmd : Command) (expiry : Time)
  | appended (cmd : Command) (expiry : Time)
  | finished (cmd : Command)
  deriving DecidableEq

/-- Where the worker is with an event. -/
inductive WorkerPc where
  | idle
  | lookedUp (cmd : Command)
  | publishFailed (cmd : Command)
  | requeued
  | deadLettered
  | skipped
  deriving DecidableEq

/-- The database, the command topic with the offset its consumer group has committed, the dead
letters, and the two processes. -/
structure Downlink where
  db : Db
  topic : List Command
  committed : Nat
  deadLetters : List Command
  dispatcher : DispatcherPc
  worker : WorkerPc

/-- A database before the attempt. -/
def Downlink.start (db : Db) : Downlink := ⟨db, [], 0, [], .idle, .idle⟩

/-- `commandForDelivery`: the stored command, if it is the one of the event and still to be
delivered. -/
def commandForDelivery (db : Db) (event : Command) : Except GoError (Option Command) :=
  match getCommandContext db event.id with
  | .error err => if err.is .notFound then .ok none else .error err
  | .ok cmd =>
      if cmd.tenantID ≠ event.tenantID ∨ cmd.deviceID ≠ event.deviceID then .ok none
      else if cmd.status = .created ∨ cmd.status = .published then .ok (some cmd)
      else .ok none

/-- One step of the dispatcher, of the worker or of the device. -/
inductive DownlinkAction where
  | claim (now lease : Time) (locked : List Bytes)
  | append
  | mark (now : Time)
  | lookUp
  | publishFails
  | requeue (now : Time)
  | deadLetter
  | commit
  | acknowledge (id tenantID deviceID : Bytes) (input : CommandResult) (appNow : Time)

variable (go : GoRuntime) (pg : Postgres)

/-- The state after a step. Every call succeeds, and the mark comes while the lease runs. -/
def Downlink.step (s : Downlink) (action : DownlinkAction) : Downlink :=
  match action, s.dispatcher, s.worker with
  | .claim now lease locked, .idle, _ =>
      match claimCommandsForDispatch pg now lease 1 locked s.db with
      | ([], db) => { s with db := db }
      | (cmd :: _, db) => { s with db := db, dispatcher := .claimed cmd (now + lease) }
  | .append, .claimed cmd expiry, _ =>
      { s with topic := s.topic ++ [cmd], dispatcher := .appended cmd expiry }
  | .mark now, .appended cmd expiry, _ =>
      if now < expiry then
        { s with
          db := markCommandPublished now cmd.id cmd.dispatchAttempts s.db
          dispatcher := .finished cmd }
      else s
  | .lookUp, _, .idle =>
      match s.topic[s.committed]? with
      | none => s
      | some event =>
          match commandForDelivery s.db event with
          | .error _ => s
          | .ok none => { s with worker := .skipped }
          | .ok (some cmd) => { s with worker := .lookedUp cmd }
  | .publishFails, _, .lookedUp cmd => { s with worker := .publishFailed cmd }
  | .requeue now, _, .publishFailed cmd =>
      { s with
        db := requeueCommand now cmd.id (commandRetryBackoff cmd.dispatchAttempts) s.db
        worker := .requeued }
  | .deadLetter, _, .requeued =>
      { s with
        deadLetters := s.deadLetters ++ (s.topic[s.committed]?).toList
        worker := .deadLettered }
  | .commit, _, .deadLettered | .commit, _, .skipped =>
      { s with committed := s.committed + 1, worker := .idle }
  | .acknowledge id tenantID deviceID input appNow, _, _ =>
      { s with db := Store.step go pg s.db (.ackCommandResult id tenantID deviceID input appNow) }
  | _, _, _ => s

/-- The command of the attempt. -/
def Downlink.command (s : Downlink) : Option Command :=
  match s.dispatcher with
  | .idle => none
  | .claimed cmd _ | .appended cmd _ | .finished cmd => some cmd

/-- Both processes have finished with the attempt. -/
def Downlink.finished (s : Downlink) : Prop :=
  (∃ cmd, s.dispatcher = .finished cmd) ∧ s.worker = .idle ∧ s.committed = s.topic.length

/-- There is an event for the command in the topic that has not been consumed. -/
def Downlink.unconsumed (s : Downlink) (id : Bytes) : Prop :=
  ∃ event ∈ s.topic.drop s.committed, event.id = id

/-- The worker requeues only a command that is no longer in the status the dispatcher's mark
starts from. -/
def RequeueAfterMark (s : Downlink) (action : DownlinkAction) : Prop :=
  match action, s.worker with
  | .requeue _, .publishFailed cmd =>
      ∀ row ∈ s.db.commands.find? cmd.id, row.status ≠ .created
  | _, _ => True

/-- Whether a requeue comes after the mark can be computed. -/
instance : ∀ s action, Decidable (RequeueAfterMark s action)
  | ⟨db, _, _, _, _, .publishFailed cmd⟩, .requeue _ =>
      inferInstanceAs (Decidable (∀ row ∈ db.commands.find? cmd.id, row.status ≠ .created))
  | ⟨_, _, _, _, _, .idle⟩, .requeue _ | ⟨_, _, _, _, _, .lookedUp _⟩, .requeue _
  | ⟨_, _, _, _, _, .requeued⟩, .requeue _ | ⟨_, _, _, _, _, .deadLettered⟩, .requeue _
  | ⟨_, _, _, _, _, .skipped⟩, .requeue _ | _, .claim _ _ _ | _, .append | _, .mark _
  | _, .lookUp | _, .publishFails | _, .deadLetter | _, .commit
  | _, .acknowledge _ _ _ _ _ => .isTrue trivial

/-! ## The model runs the protocol -/

/-- The step of the protocol that an action stands for. -/
def DownlinkAction.event : DownlinkAction → Event
  | .claim _ _ _ => .claim
  | .append => .append
  | .mark _ => .mark
  | .lookUp => .lookUp
  | .publishFails => .publishFails
  | .requeue _ => .requeue
  | .deadLetter => .deadLetter
  | .commit => .commit
  | .acknowledge _ _ _ _ _ => .acknowledge

/-- The stage of a dispatcher. -/
def DispatcherPc.stage : DispatcherPc → DispatcherStage
  | .idle => .idle
  | .claimed _ _ => .claimed
  | .appended _ _ => .appended
  | .finished _ => .finished

/-- The stage of a worker. An idle worker has an event before it or has committed it. -/
def WorkerPc.stage (committed : Nat) : WorkerPc → WorkerStage
  | .idle => if committed = 0 then .waiting else .done
  | .lookedUp _ => .lookedUp
  | .publishFailed _ => .publishFailed
  | .requeued => .requeued
  | .deadLettered => .deadLettered
  | .skipped => .skipped

/-- The phase of a status. -/
def phaseOf : CommandStatus → Phase
  | .created => .queued
  | .published => .published
  | _ => .ended

/-- The phase of the command of the attempt, in the queue before it is claimed. -/
def Downlink.phase (s : Downlink) : Phase :=
  match s.command with
  | none => .queued
  | some cmd => ((s.db.commands.find? cmd.id).map fun row => phaseOf row.status).getD .ended

/-- The state of the protocol that a state is in. -/
def Downlink.stage (s : Downlink) : Stage :=
  ⟨s.dispatcher.stage, s.worker.stage s.committed, s.phase⟩

/-- What the protocol leaves out: the topic holds the event once it is appended, the row is that
of the command and, until the mark, still carries the claim; and the worker works on that
command. -/
structure Downlink.WellFormed (s : Downlink) : Prop where
  topic : s.topic = match s.dispatcher with
    | .appended cmd _ | .finished cmd => [cmd]
    | _ => []
  row : ∀ cmd ∈ s.command, ∃ row, s.db.commands.find? cmd.id = some row ∧
    row.tenantID = cmd.tenantID ∧ row.deviceID = cmd.deviceID
  fence : ∀ cmd expiry, s.dispatcher = .claimed cmd expiry ∨ s.dispatcher = .appended cmd expiry →
    ∀ row, s.db.commands.find? cmd.id = some row → row.status = .created →
      (row.dispatchAttempts : Int) = cmd.dispatchAttempts ∧ row.nextDispatchAt = expiry
  job : ∀ job, s.worker = .lookedUp job ∨ s.worker = .publishFailed job →
    ∀ cmd ∈ s.command, job.id = cmd.id
  offset : s.committed = 0 ∨ s.committed = 1 ∧ s.worker = .idle

/-- The action keeps the state well formed and is a step of the protocol, or changes nothing the
protocol sees. -/
def Simulated (s : Downlink) (action : DownlinkAction) : Prop :=
  (s.step go pg action).WellFormed ∧
    ((s.step go pg action).stage = s.stage ∨
      (s.step go pg action).stage = s.stage.step action.event)

/-- An action that is not possible changes nothing. -/
theorem simulated_of_eq {s : Downlink} {action : DownlinkAction} (h : s.WellFormed)
    (hstep : s.step go pg action = s) : Simulated go pg s action := by
  rw [Simulated, hstep]
  exact ⟨h, Or.inl rfl⟩

/-- The claim. -/
theorem simulated_claim {s : Downlink} (h : s.WellFormed) (hsound : s.stage.Sound)
    (now lease : Time) (locked : List Bytes) : Simulated go pg s (.claim now lease locked) := by
  obtain ⟨db, topic, committed, deadLetters, dispatcher, worker⟩ := s
  cases dispatcher with
  | claimed | appended | finished => exact simulated_of_eq go pg h rfl
  | idle =>
      -- nothing has been appended, so the worker has nothing to work on
      have hworker : worker = .idle := by
        by_contra hbusy
        have := hsound.1
        cases worker <;> simp_all [Downlink.stage, DispatcherPc.stage, WorkerPc.stage]
      subst hworker
      have hclaim := claim_one pg now lease locked db
      cases hresult : claimCommandsForDispatch pg now lease 1 locked db with
      | mk commands after =>
          simp only [hresult] at hclaim
          rcases hclaim with ⟨rfl, _⟩ | ⟨row, _, hclaimable, rfl, hview⟩
          · have hstep : Downlink.step go pg ⟨db, topic, committed, deadLetters, .idle, .idle⟩
                (.claim now lease locked) =
                ⟨after, topic, committed, deadLetters, .idle, .idle⟩ := by
              simp [Downlink.step, hresult]
            rw [Simulated, hstep]
            refine ⟨⟨h.topic, ?_, ?_, ?_, h.offset⟩, Or.inl rfl⟩ <;>
              simp [Downlink.command]
          · have hstep : Downlink.step go pg ⟨db, topic, committed, deadLetters, .idle, .idle⟩
                (.claim now lease locked) =
                ⟨after, topic, committed, deadLetters,
                  .claimed (claimedRow now lease row).command (now + lease), .idle⟩ := by
              simp [Downlink.step, hresult]
            have hrow : after.commands.find? row.id = some (claimedRow now lease row) := by
              have := congrArg View.row (hview row.id)
              simpa using this
            have hstatus := claimable_created hclaimable
            rw [Simulated, hstep]
            refine ⟨⟨h.topic, ?_, ?_, by simp, h.offset⟩, Or.inr ?_⟩
            · rintro cmd hcmd
              cases hcmd
              exact ⟨_, hrow, rfl, rfl⟩
            · rintro cmd expiry hdispatcher other hother _
              simp only [DispatcherPc.claimed.injEq, reduceCtorEq, or_false] at hdispatcher
              obtain ⟨rfl, rfl⟩ := hdispatcher
              rw [show (claimedRow now lease row).command.id = row.id from rfl, hrow] at hother
              cases hother
              exact ⟨rfl, rfl⟩
            · simp [Downlink.stage, DispatcherPc.stage, Downlink.phase, Downlink.command,
                DownlinkAction.event, Stage.step, CommandRow.command, hrow, phaseOf, claimedRow,
                hstatus]

/-- The append. -/
theorem simulated_append {s : Downlink} (h : s.WellFormed) : Simulated go pg s .append := by
  obtain ⟨db, topic, committed, deadLetters, dispatcher, worker⟩ := s
  cases dispatcher with
  | idle | appended | finished => exact simulated_of_eq go pg h rfl
  | claimed cmd expiry =>
      have htopic : topic = [] := h.topic
      subst htopic
      refine ⟨⟨rfl, h.row, ?_, h.job, h.offset⟩, Or.inr rfl⟩
      rintro cmd' expiry' hdispatcher
      refine h.fence cmd' expiry' (Or.inl ?_)
      simp only [Downlink.step, reduceCtorEq, false_or, DispatcherPc.appended.injEq] at hdispatcher
      rw [hdispatcher.1, hdispatcher.2]

/-- The mark. -/
theorem simulated_mark {s : Downlink} (h : s.WellFormed) (now : Time) :
    Simulated go pg s (.mark now) := by
  obtain ⟨db, topic, committed, deadLetters, dispatcher, worker⟩ := s
  cases dispatcher with
  | idle | claimed | finished => exact simulated_of_eq go pg h rfl
  | appended cmd expiry =>
      by_cases hlease : now < expiry
      · obtain ⟨row, hrow, htenant, hdevice⟩ := h.row cmd rfl
        have hstep : Downlink.step go pg
            ⟨db, topic, committed, deadLetters, .appended cmd expiry, worker⟩ (.mark now) =
            ⟨markCommandPublished now cmd.id cmd.dispatchAttempts db, topic, committed,
              deadLetters, .finished cmd, worker⟩ := by
          simp [Downlink.step, hlease]
        have hfind : (markCommandPublished now cmd.id cmd.dispatchAttempts db).commands.find?
            cmd.id = some (if row.status = .created then
              { row with status := .published, updatedAt := now } else row) := by
          rw [markCommandPublished, Db.updateCommands, Table.find?_update, hrow, Option.map_some]
          have hid := Table.key_of_find? hrow
          by_cases hstatus : row.status = .created
          · obtain ⟨hattempts, hnext⟩ := h.fence cmd expiry (Or.inr rfl) row hrow hstatus
            simp [fenced, hid, hstatus, hattempts, hnext, hlease]
          · simp [fenced, hstatus]
        rw [Simulated, hstep]
        refine ⟨⟨h.topic, ?_, by simp, h.job, h.offset⟩, Or.inr ?_⟩
        · rintro other hother
          cases hother
          refine ⟨_, hfind, ?_, ?_⟩ <;> split <;> assumption
        · by_cases hstatus : row.status = .created
          · simp [Downlink.stage, DispatcherPc.stage, Downlink.phase, Downlink.command,
              DownlinkAction.event, Stage.step, hfind, hrow, hstatus, phaseOf]
          · have hphase : phaseOf row.status ≠ .queued := by
              cases hrow' : row.status <;> simp [phaseOf, hrow'] at hstatus ⊢
            simp [Downlink.stage, DispatcherPc.stage, Downlink.phase, Downlink.command,
              DownlinkAction.event, Stage.step, hfind, hrow, hstatus, hphase]
      · refine simulated_of_eq go pg h ?_
        simp [Downlink.step, hlease]

/-- What the worker finds out about the command of the attempt. -/
theorem commandForDelivery_eq {db : Db} {event : Command} {row : CommandRow}
    (hrow : db.commands.find? event.id = some row) (htenant : row.tenantID = event.tenantID)
    (hdevice : row.deviceID = event.deviceID) :
    commandForDelivery db event =
      .ok (if phaseOf row.status = .ended then none else some row.command) := by
  rw [commandForDelivery, getCommandContext, hrow]
  cases hstatus : row.status <;>
    simp [CommandRow.command, htenant, hdevice, hstatus, phaseOf]

/-- The lookup once there is an event. -/
theorem simulated_lookUp_event {db : Db} {deadLetters : List Command} {dispatcher : DispatcherPc}
    {cmd : Command}
    (h : (Downlink.mk db [cmd] 0 deadLetters dispatcher .idle).WellFormed)
    (hcommand : (Downlink.mk db [cmd] 0 deadLetters dispatcher .idle).command = some cmd)
    (hstage : dispatcher.stage = .appended ∨ dispatcher.stage = .finished) :
    Simulated go pg ⟨db, [cmd], 0, deadLetters, dispatcher, .idle⟩ .lookUp := by
  obtain ⟨row, hrow, htenant, hdevice⟩ := h.row cmd hcommand
  have hid := Table.key_of_find? hrow
  have hstep : Downlink.step go pg ⟨db, [cmd], 0, deadLetters, dispatcher, .idle⟩ .lookUp =
      ⟨db, [cmd], 0, deadLetters, dispatcher,
        if phaseOf row.status = .ended then .skipped else .lookedUp row.command⟩ := by
    have hlookup := commandForDelivery_eq hrow htenant hdevice
    cases dispatcher <;> by_cases hended : phaseOf row.status = .ended <;>
      simp [Downlink.step, hlookup, hended]
  have hphase : ∀ worker, (Downlink.mk db [cmd] 0 deadLetters dispatcher worker).phase =
      phaseOf row.status := by
    intro worker
    have hcommand' : (Downlink.mk db [cmd] 0 deadLetters dispatcher worker).command =
        some cmd := hcommand
    simp [Downlink.phase, hcommand', hrow]
  rw [Simulated, hstep]
  refine ⟨⟨h.topic, h.row, h.fence, ?_, Or.inl rfl⟩, Or.inr ?_⟩
  · intro job hjob other hother
    have hother' : cmd = other := Option.some.inj (hcommand.symm.trans hother)
    subst hother'
    by_cases hended : phaseOf row.status = .ended
    · simp [hended] at hjob
    · simp only [hended, if_false, WorkerPc.lookedUp.injEq, reduceCtorEq, or_false] at hjob
      rw [← hjob]
      exact hid
  · simp only [Downlink.stage, hphase]
    rcases hstage with hstage | hstage <;> rw [hstage] <;>
      by_cases hended : phaseOf row.status = .ended <;>
      simp [WorkerPc.stage, DownlinkAction.event, Stage.step, hended]

/-- The lookup. -/
theorem simulated_lookUp {s : Downlink} (h : s.WellFormed) : Simulated go pg s .lookUp := by
  obtain ⟨db, topic, committed, deadLetters, dispatcher, worker⟩ := s
  have htopic := h.topic
  cases worker with
  | lookedUp | publishFailed | requeued | deadLettered | skipped =>
      exact simulated_of_eq go pg h (by cases dispatcher <;> rfl)
  | idle =>
      cases dispatcher with
      | idle | claimed =>
          dsimp only at htopic
          subst htopic
          exact simulated_of_eq go pg h (by simp [Downlink.step])
      | appended cmd expiry =>
          dsimp only at htopic
          subst htopic
          rcases h.offset with rfl | ⟨rfl, _⟩
          · exact simulated_lookUp_event go pg h rfl (Or.inl rfl)
          · exact simulated_of_eq go pg h (by simp [Downlink.step])
      | finished cmd =>
          dsimp only at htopic
          subst htopic
          rcases h.offset with rfl | ⟨rfl, _⟩
          · exact simulated_lookUp_event go pg h rfl (Or.inr rfl)
          · exact simulated_of_eq go pg h (by simp [Downlink.step])

/-- The failed publish. -/
theorem simulated_publishFails {s : Downlink} (h : s.WellFormed) :
    Simulated go pg s .publishFails := by
  obtain ⟨db, topic, committed, deadLetters, dispatcher, worker⟩ := s
  cases worker with
  | idle | publishFailed | requeued | deadLettered | skipped =>
      exact simulated_of_eq go pg h (by cases dispatcher <;> rfl)
  | lookedUp job =>
      have hstep : Downlink.step go pg
          ⟨db, topic, committed, deadLetters, dispatcher, .lookedUp job⟩ .publishFails =
          ⟨db, topic, committed, deadLetters, dispatcher, .publishFailed job⟩ := by
        cases dispatcher <;> rfl
      rw [Simulated, hstep]
      refine ⟨⟨h.topic, h.row, h.fence, ?_, by simpa using h.offset⟩, Or.inr rfl⟩
      rintro other hother
      simp only [reduceCtorEq, false_or, WorkerPc.publishFailed.injEq] at hother
      subst hother
      exact h.job job (Or.inl rfl)

/-- A worker that is about to requeue works on the command of the attempt. -/
theorem job_row {s : Downlink} (h : s.WellFormed) (hsound : s.stage.Sound) {job : Command}
    (hworker : s.worker = .publishFailed job) :
    ∃ cmd row, s.command = some cmd ∧ job.id = cmd.id ∧
      s.db.commands.find? cmd.id = some row := by
  obtain ⟨cmd, hcommand⟩ : ∃ cmd, s.command = some cmd := by
    have hstage := hsound.1 (by simp [Downlink.stage, hworker, WorkerPc.stage])
    unfold Downlink.command
    cases hdispatcher : s.dispatcher <;>
      simp [Downlink.stage, hdispatcher, DispatcherPc.stage] at hstage ⊢
  obtain ⟨row, hrow, _, _⟩ := h.row cmd hcommand
  exact ⟨cmd, row, hcommand, h.job job (Or.inr hworker) cmd hcommand, hrow⟩

/-- The requeue. -/
theorem simulated_requeue {s : Downlink} (h : s.WellFormed) (hsound : s.stage.Sound)
    (now : Time) : Simulated go pg s (.requeue now) := by
  obtain ⟨db, topic, committed, deadLetters, dispatcher, worker⟩ := s
  cases worker with
  | idle | lookedUp | requeued | deadLettered | skipped =>
      exact simulated_of_eq go pg h (by cases dispatcher <;> rfl)
  | publishFailed job =>
      obtain ⟨cmd, row, hcommand, hjob, hrow⟩ := job_row h hsound rfl
      obtain ⟨_, hrow', htenant, hdevice⟩ := h.row cmd hcommand
      cases hrow.symm.trans hrow'
      have hid := Table.key_of_find? hrow
      have hfind : (requeueCommand now job.id (commandRetryBackoff job.dispatchAttempts)
          db).commands.find? cmd.id = some (if row.status = .published then
            requeuedRow now (now + commandRetryBackoff job.dispatchAttempts) row else row) := by
        rw [requeueCommand, Db.updateCommands, Table.find?_update, hrow, Option.map_some, hjob]
        by_cases hstatus : row.status = .published <;> simp [hid, hstatus]
      have hstep : Downlink.step go pg
          ⟨db, topic, committed, deadLetters, dispatcher, .publishFailed job⟩ (.requeue now) =
          ⟨requeueCommand now job.id (commandRetryBackoff job.dispatchAttempts) db, topic,
            committed, deadLetters, dispatcher, .requeued⟩ := by
        cases dispatcher <;> rfl
      rw [Simulated, hstep]
      refine ⟨⟨h.topic, ?_, ?_, by simp, by simpa using h.offset⟩, Or.inr ?_⟩
      · intro other hother
        cases hcommand.symm.trans hother
        refine ⟨_, hfind, ?_, ?_⟩ <;> split <;> assumption
      · intro other expiry hdispatcher found hfound hcreated
        have hother : some cmd = some other := by
          rw [← hcommand]
          rcases hdispatcher with hdispatcher | hdispatcher <;>
            simp only [Downlink.command] at hdispatcher ⊢ <;> rw [hdispatcher]
        cases hother
        -- before the mark the row is not published, so the requeue has not touched it
        have hstatus : row.status ≠ .published := by
          intro hpublished
          have hfinished := hsound.2.1 (by
            simp [Downlink.stage, Downlink.phase, hcommand, hrow, hpublished, phaseOf])
          rcases hdispatcher with hdispatcher | hdispatcher <;>
            simp only at hdispatcher <;>
            simp [Downlink.stage, hdispatcher, DispatcherPc.stage] at hfinished
        rw [if_neg hstatus] at hfind
        cases hfind.symm.trans hfound
        exact h.fence cmd expiry hdispatcher row hrow hcreated
      · have hcommand' : ∀ db' worker', (Downlink.mk db' topic committed deadLetters dispatcher
            worker').command = some cmd := fun _ _ => hcommand
        by_cases hstatus : row.status = .published
        · simp [Downlink.stage, Downlink.phase, hcommand', hfind, hrow, hstatus, phaseOf,
            DownlinkAction.event, Stage.step, WorkerPc.stage, requeuedRow]
        · have hphase : phaseOf row.status ≠ .published := by
            cases hrow' : row.status <;> simp [phaseOf, hrow'] at hstatus ⊢
          simp [Downlink.stage, Downlink.phase, hcommand', hfind, hrow, hstatus, hphase,
            DownlinkAction.event, Stage.step, WorkerPc.stage]

/-- The dead letter. -/
theorem simulated_deadLetter {s : Downlink} (h : s.WellFormed) :
    Simulated go pg s .deadLetter := by
  obtain ⟨db, topic, committed, deadLetters, dispatcher, worker⟩ := s
  cases worker with
  | idle | lookedUp | publishFailed | deadLettered | skipped =>
      exact simulated_of_eq go pg h (by cases dispatcher <;> rfl)
  | requeued =>
      have hstep : Downlink.step go pg
          ⟨db, topic, committed, deadLetters, dispatcher, .requeued⟩ .deadLetter =
          ⟨db, topic, committed, deadLetters ++ (topic[committed]?).toList, dispatcher,
            .deadLettered⟩ := by
        cases dispatcher <;> rfl
      rw [Simulated, hstep]
      exact ⟨⟨h.topic, h.row, h.fence, by simp, by simpa using h.offset⟩, Or.inr rfl⟩

/-- The commit. -/
theorem simulated_commit {s : Downlink} (h : s.WellFormed) : Simulated go pg s .commit := by
  obtain ⟨db, topic, committed, deadLetters, dispatcher, worker⟩ := s
  have hdone : ∀ worker' : WorkerPc, worker' = .deadLettered ∨ worker' = .skipped →
      worker = worker' → Simulated go pg ⟨db, topic, committed, deadLetters, dispatcher, worker⟩
        .commit := by
    intro worker' hworker' hworker
    subst hworker
    have hcommitted : committed = 0 := by
      rcases hworker' with rfl | rfl <;> simpa using h.offset
    subst hcommitted
    have hstep : Downlink.step go pg ⟨db, topic, 0, deadLetters, dispatcher, worker⟩ .commit =
        ⟨db, topic, 1, deadLetters, dispatcher, .idle⟩ := by
      rcases hworker' with rfl | rfl <;> cases dispatcher <;> rfl
    rw [Simulated, hstep]
    refine ⟨⟨h.topic, h.row, h.fence, by simp, by simp⟩, Or.inr ?_⟩
    rcases hworker' with rfl | rfl <;> rfl
  cases worker with
  | idle | lookedUp | publishFailed | requeued =>
      exact simulated_of_eq go pg h (by cases dispatcher <;> rfl)
  | deadLettered => exact hdone .deadLettered (Or.inl rfl) rfl
  | skipped => exact hdone .skipped (Or.inr rfl) rfl

/-- An acknowledgement leaves a row as it is or ends its command. -/
theorem acknowledge_row (db : Db) (id tenantID deviceID : Bytes) (input : CommandResult)
    (now : Time) {key : Bytes} {row : CommandRow} (hrow : db.commands.find? key = some row) :
    ∃ after, (Store.step go pg db (.ackCommandResult id tenantID deviceID input
        now)).commands.find? key = some after ∧
      (after = row ∨ after.tenantID = row.tenantID ∧ after.deviceID = row.deviceID ∧
        phaseOf after.status = .ended) := by
  have hview := view_eq hrow
  rcases step_refines go pg db (.ackCommandResult id tenantID deviceID input now) key with
    hsame | ⟨label, hlabel, htransition⟩
  · exact ⟨row, (congrArg View.row hsame).trans hrow, Or.inl rfl⟩
  · cases hlabel
    rw [hview] at htransition
    generalize hafter : (Store.step go pg db _).view key = after at htransition
    cases htransition with
    | acknowledge hopen hnext hresult =>
        refine ⟨_, congrArg View.row hafter, Or.inr ⟨rfl, rfl, ?_⟩⟩
        rcases hnext with ⟨rfl, _⟩ | ⟨rfl, _⟩ <;> rfl

/-- The acknowledgement. -/
theorem simulated_acknowledge {s : Downlink} (h : s.WellFormed)
    (id tenantID deviceID : Bytes) (input : CommandResult) (now : Time) :
    Simulated go pg s (.acknowledge id tenantID deviceID input now) := by
  have hstep : s.step go pg (.acknowledge id tenantID deviceID input now) =
      { s with
        db := Store.step go pg s.db (.ackCommandResult id tenantID deviceID input now) } := by
    obtain ⟨db, topic, committed, deadLetters, dispatcher, worker⟩ := s
    cases dispatcher <;> cases worker <;> rfl
  rw [Simulated, hstep]
  refine ⟨⟨h.topic, ?_, ?_, h.job, h.offset⟩, ?_⟩
  · intro cmd hcmd
    obtain ⟨row, hrow, htenant, hdevice⟩ := h.row cmd hcmd
    obtain ⟨after, hafter, rfl | ⟨htenant', hdevice', _⟩⟩ :=
      acknowledge_row go pg s.db id tenantID deviceID input now hrow
    · exact ⟨after, hafter, htenant, hdevice⟩
    · exact ⟨after, hafter, htenant'.trans htenant, hdevice'.trans hdevice⟩
  · intro cmd expiry hdispatcher found hfound hcreated
    have hcmd : cmd ∈ s.command := by
      rcases hdispatcher with hdispatcher | hdispatcher <;>
        simp only [Downlink.command] at hdispatcher ⊢ <;> rw [hdispatcher] <;> rfl
    obtain ⟨row, hrow, _, _⟩ := h.row cmd hcmd
    obtain ⟨after, hafter, rfl | ⟨_, _, hended⟩⟩ :=
      acknowledge_row go pg s.db id tenantID deviceID input now hrow
    · cases hafter.symm.trans hfound
      exact h.fence cmd expiry hdispatcher _ hrow hcreated
    · cases hafter.symm.trans hfound
      simp [hcreated, phaseOf] at hended
  · cases hcommand : s.command with
    | none =>
        left
        have hcommand' : ∀ db, ({ s with db := db } : Downlink).command = none := fun _ => hcommand
        simp [Downlink.stage, Downlink.phase, hcommand, hcommand']
    | some cmd =>
        have hcommand' : ∀ db, ({ s with db := db } : Downlink).command = some cmd :=
          fun _ => hcommand
        obtain ⟨row, hrow, _, _⟩ := h.row cmd hcommand
        obtain ⟨after, hafter, rfl | ⟨_, _, hended⟩⟩ :=
          acknowledge_row go pg s.db id tenantID deviceID input now hrow
        · left
          simp [Downlink.stage, Downlink.phase, hcommand, hcommand', hrow, hafter]
        · right
          simp [Downlink.stage, Downlink.phase, hcommand', hafter, hended, DownlinkAction.event,
            Stage.step]

/-- Every action of a well-formed state is a step of the protocol. -/
theorem simulated {s : Downlink} (h : s.WellFormed) (hsound : s.stage.Sound)
    (action : DownlinkAction) : Simulated go pg s action := by
  cases action with
  | claim now lease locked => exact simulated_claim go pg h hsound now lease locked
  | append => exact simulated_append go pg h
  | mark now => exact simulated_mark go pg h now
  | lookUp => exact simulated_lookUp go pg h
  | publishFails => exact simulated_publishFails go pg h
  | requeue now => exact simulated_requeue go pg h hsound now
  | deadLetter => exact simulated_deadLetter go pg h
  | commit => exact simulated_commit go pg h
  | acknowledge id tenantID deviceID input now =>
      exact simulated_acknowledge go pg h id tenantID deviceID input now

/-- The condition on a requeue says that the requeue is not early. -/
theorem requeueAfterMark_iff {s : Downlink} (h : s.WellFormed) (hsound : s.stage.Sound)
    (action : DownlinkAction) :
    RequeueAfterMark s action ↔ ¬ s.stage.early action.event := by
  cases action with
  | claim | append | mark | lookUp | publishFails | deadLetter | commit | acknowledge =>
      simp [RequeueAfterMark, Stage.early, DownlinkAction.event]
  | requeue now =>
      cases hworker : s.worker with
      | publishFailed job =>
          obtain ⟨cmd, row, hcommand, hjob, hrow⟩ := job_row h hsound hworker
          have hphase : s.stage.phase = phaseOf row.status := by
            simp [Downlink.stage, Downlink.phase, hcommand, hrow]
          have hstage : s.stage.worker = .publishFailed := by
            simp [Downlink.stage, hworker, WorkerPc.stage]
          simp only [RequeueAfterMark, hworker, hjob, hrow, Stage.early, DownlinkAction.event,
            hphase, hstage, true_and, Option.mem_some_iff, forall_eq']
          cases row.status <;> simp [phaseOf]
      | idle =>
          have hstage : s.stage.worker ≠ .publishFailed := by
            simp only [Downlink.stage, hworker, WorkerPc.stage]
            split <;> simp
          simp [RequeueAfterMark, hworker, Stage.early, hstage]
      | lookedUp | requeued | deadLettered | skipped =>
          simp [RequeueAfterMark, hworker, Stage.early, Downlink.stage, WorkerPc.stage]

/-! ## Runs -/

/-- A state as the runs of the model reach it. -/
def Downlink.Regular (s : Downlink) : Prop := s.WellFormed ∧ s.stage.Sound

/-- The state before the attempt is regular. -/
theorem start_regular (db : Db) : (Downlink.start db).Regular := by
  refine ⟨⟨rfl, ?_, ?_, ?_, Or.inl rfl⟩, (by decide : Stage.Sound ⟨.idle, .waiting, .queued⟩)⟩ <;>
    simp [Downlink.start, Downlink.command]

/-- Every action keeps a state regular. -/
theorem step_regular {s : Downlink} (h : s.Regular) (action : DownlinkAction) :
    (s.step go pg action).Regular := by
  obtain ⟨hwell, hstage | hstage⟩ := simulated go pg h.1 h.2 action
  · exact ⟨hwell, hstage ▸ h.2⟩
  · exact ⟨hwell, hstage ▸ sound_step _ _ h.2⟩

/-- An action that is not an early requeue keeps `Good`. -/
theorem step_good {s : Downlink} (h : s.Regular) {action : DownlinkAction}
    (hgood : s.stage.Good) (hlate : RequeueAfterMark s action) :
    (s.step go pg action).stage.Good := by
  obtain ⟨_, hstage | hstage⟩ := simulated go pg h.1 h.2 action
  · exact hstage ▸ hgood
  · rw [hstage]
    exact good_step _ _ h.2 hgood ((requeueAfterMark_iff h.1 h.2 action).mp hlate)

/-- A stranded command stays so. -/
theorem step_stranded {s : Downlink} (h : s.Regular) (hstranded : s.stage.Stranded)
    (action : DownlinkAction) : (s.step go pg action).stage.Stranded := by
  obtain ⟨_, hstage | hstage⟩ := simulated go pg h.1 h.2 action
  · exact hstage ▸ hstranded
  · exact hstage ▸ stranded_step _ _ h.2 hstranded

/-- An early requeue strands the command. -/
theorem step_early {s : Downlink} (h : s.Regular) {action : DownlinkAction}
    (hearly : ¬ RequeueAfterMark s action) : (s.step go pg action).stage.Stranded := by
  have hstage := mt (requeueAfterMark_iff h.1 h.2 action).mpr hearly
  obtain ⟨_, hsame | hnext⟩ := simulated go pg h.1 h.2 action
  · -- the worker of an early requeue moves on, so the stage changes
    exfalso
    obtain ⟨db, topic, committed, deadLetters, dispatcher, worker⟩ := s
    cases action <;> cases worker <;> try exact hearly trivial
    cases dispatcher <;>
      cases (congrArg Stage.worker hsame : WorkerStage.requeued = .publishFailed)
  · rw [hnext]
    exact stranded_of_early _ _ h.2 (not_not.mp hstage)

/-- Every run from a database keeps the state regular. -/
theorem run_regular {s : Downlink} (h : s.Regular) (actions : List DownlinkAction) :
    (run (Downlink.step go pg) s actions).Regular :=
  run_invariant Downlink.Regular (fun _ action h => step_regular go pg h action) h actions

/-- After a run without an early requeue the state is good. -/
theorem run_good {s : Downlink} (h : s.Regular) (hgood : s.stage.Good)
    {actions : List DownlinkAction}
    (hlate : Along (Downlink.step go pg) RequeueAfterMark s actions) :
    (run (Downlink.step go pg) s actions).stage.Good := by
  refine (run_invariant_along RequeueAfterMark (fun s : Downlink => s.Regular ∧ s.stage.Good) ?_
    ⟨h, hgood⟩ hlate).2
  intro s action ⟨h, hgood⟩ hlate
  exact ⟨step_regular go pg h action, step_good go pg h hgood hlate⟩

/-- After a run with an early requeue the command is stranded. -/
theorem run_stranded {s : Downlink} (h : s.Regular) {actions : List DownlinkAction}
    (hearly : ¬ Along (Downlink.step go pg) RequeueAfterMark s actions) :
    (run (Downlink.step go pg) s actions).stage.Stranded := by
  induction actions generalizing s with
  | nil => exact absurd trivial hearly
  | cons action rest ih =>
      by_cases hlate : RequeueAfterMark s action
      · exact ih (step_regular go pg h action) fun hrest => hearly ⟨hlate, hrest⟩
      · refine (run_invariant (fun s : Downlink => s.Regular ∧ s.stage.Stranded) ?_
          ⟨step_regular go pg h action, step_early go pg h hlate⟩ rest).2
        intro s action ⟨h, hstranded⟩
        exact ⟨step_regular go pg h action, step_stranded go pg h hstranded action⟩

/-- The stage of a state in which both processes have finished. -/
theorem finished_stage {s : Downlink} (h : s.WellFormed) (hfinished : s.finished) :
    s.stage.dispatcher = .finished ∧ s.stage.worker = .done := by
  obtain ⟨⟨cmd, hdispatcher⟩, hworker, hcommitted⟩ := hfinished
  have htopic : s.topic = [cmd] := by simpa [hdispatcher] using h.topic
  simp [Downlink.stage, hdispatcher, hworker, hcommitted, htopic, DispatcherPc.stage,
    WorkerPc.stage]

/-- The event of a published command that the worker has not passed is still to be consumed. -/
theorem unconsumed_of_published {s : Downlink} (h : s.Regular) (hgood : s.stage.Good)
    {cmd : Command} (hcommand : s.command = some cmd) (hphase : s.stage.phase = .published) :
    s.unconsumed cmd.id := by
  have hdispatcher := h.2.2.1 hphase
  have hpassed : s.stage.worker.passed ≠ true := fun hpassed => (hgood hpassed).1 hphase
  have hcommitted : s.committed = 0 := by
    rcases h.1.offset with hzero | ⟨hone, hworker⟩
    · exact hzero
    · simp [Downlink.stage, hworker, hone, WorkerPc.stage, WorkerStage.passed] at hpassed
  have htopic : s.topic = [cmd] := by
    have htopic := h.1.topic
    cases hpc : s.dispatcher <;>
      simp [Downlink.stage, Downlink.command, hpc, DispatcherPc.stage] at hdispatcher hcommand
    simpa [hpc, hcommand] using htopic
  exact ⟨cmd, by simp [htopic, hcommitted], rfl⟩

/-- A failed delivery goes back to the queue. Along a run whose requeues all come after the mark,
the command is in the queue when both processes have finished with the attempt, unless it was
acknowledged, and it is published only while its event is still to be consumed. Among the finished
runs these are the only ones that leave the command in the queue. -/
theorem failed_downlink_requeued (db : Db) (actions : List DownlinkAction) :
    let s := run (Downlink.step go pg) (.start db) actions
    let late := Along (Downlink.step go pg) RequeueAfterMark (.start db) actions
    (late → ∀ cmd ∈ s.command, ∃ row, s.db.commands.find? cmd.id = some row ∧
      (s.finished → row.status = .created ∨ row.status = .published → row.status = .created) ∧
      (row.status = .published → s.unconsumed cmd.id)) ∧
    (s.finished → ∀ cmd ∈ s.command, ∀ row, s.db.commands.find? cmd.id = some row →
      row.status = .created ∨ row.status = .published → (row.status = .created ↔ late)) := by
  intro s late
  have hregular : s.Regular := run_regular go pg (start_regular db) actions
  have hgood : late → s.stage.Good :=
    run_good go pg (start_regular db) (by intro hpassed; cases hpassed)
  have hphase : ∀ cmd row, s.command = some cmd → s.db.commands.find? cmd.id = some row →
      s.stage.phase = phaseOf row.status := by
    intro cmd row hcommand hrow
    simp [Downlink.stage, Downlink.phase, hcommand, hrow]
  -- a finished run of requeues after the mark has not left the command published
  have hcreated : late → s.finished → ∀ cmd row, s.command = some cmd →
      s.db.commands.find? cmd.id = some row → row.status ≠ .published := by
    intro hlate hfinished cmd row hcommand hrow hpublished
    have hdone := (finished_stage hregular.1 hfinished).2
    exact (hgood hlate (by rw [hdone]; rfl)).1
      (by rw [hphase cmd row hcommand hrow, hpublished]; rfl)
  refine ⟨fun hlate cmd hcommand => ?_, fun hfinished cmd hcommand row hrow hopen => ?_⟩
  · obtain ⟨row, hrow, _, _⟩ := hregular.1.row cmd hcommand
    refine ⟨row, hrow, fun hfinished hopen => ?_, fun hpublished => ?_⟩
    · exact hopen.resolve_right (hcreated hlate hfinished cmd row hcommand hrow)
    · exact unconsumed_of_published hregular (hgood hlate) hcommand
        (by rw [hphase cmd row hcommand hrow, hpublished]; rfl)
  · refine ⟨fun hstatus => ?_, fun hlate => ?_⟩
    · by_contra hearly
      have hstranded := run_stranded go pg (start_regular db) hearly
      have happended := hstranded.2 (by
        rw [show (run (Downlink.step go pg) (.start db) actions).stage.phase =
            s.stage.phase from rfl,
          hphase cmd row hcommand hrow, hstatus]; rfl)
      exact absurd ((finished_stage hregular.1 hfinished).1.symm.trans happended) (by decide)
    · exact hopen.resolve_right (hcreated hlate hfinished cmd row hcommand hrow)

/-- A database with one command in the queue. -/
def queuedDb : Db :=
  run (Store.step .plain .plain) Db.empty
    [.registerDevice (ascii "t") (ascii "d"),
      .createCommandWithKey (ascii "t") (ascii "d") [] [] (.ok (ascii "c")) 0]

/-- The command of `queuedDb` as a dispatcher claims it at time 0 for 100 ns. -/
def claimedCommand : Command :=
  (claimedRow 0 100
    (newCommandRow (ascii "t") (ascii "d") [] (ascii "\x7b\x7d") (ascii "c") 0)).command

/-- The mark lands before the worker reads the event. -/
def lateRequeue : List DownlinkAction :=
  [.claim 0 100 [], .append, .mark 1, .lookUp, .publishFails, .requeue 2, .deadLetter, .commit]

/-- The mark lands after the worker has committed the event. -/
def earlyRequeue : List DownlinkAction :=
  [.claim 0 100 [], .append, .lookUp, .publishFails, .requeue 2, .deadLetter, .commit, .mark 3]

/-- The end of `lateRequeue`. -/
def lateEnd : Downlink := run (Downlink.step .plain .plain) (.start queuedDb) lateRequeue

theorem failed_downlink_requeued_late :
    lateEnd.finished ∧ ∃ row, lateEnd.db.commands.find? claimedCommand.id = some row ∧
      row.status = .created := by
  obtain ⟨hdispatcher, hworker, hcommitted, hopen, halong⟩ :
      lateEnd.dispatcher = .finished claimedCommand ∧ lateEnd.worker = .idle ∧
        lateEnd.committed = lateEnd.topic.length ∧
        (∀ row ∈ lateEnd.db.commands.find? claimedCommand.id,
          row.status = .created ∨ row.status = .published) ∧
        Along (Downlink.step .plain .plain) RequeueAfterMark (.start queuedDb) lateRequeue := by
    decide +kernel
  have hfinished : lateEnd.finished := ⟨⟨_, hdispatcher⟩, hworker, hcommitted⟩
  have hcommand : lateEnd.command = some claimedCommand := by
    simp only [Downlink.command, hdispatcher]
  have hlate := (failed_downlink_requeued .plain .plain queuedDb lateRequeue).1 halong
  rw [show run (Downlink.step .plain .plain) (.start queuedDb) lateRequeue = lateEnd from rfl]
    at hlate
  obtain ⟨row, hrow, hcreated, _⟩ := hlate claimedCommand hcommand
  exact ⟨hfinished, row, hrow, hcreated hfinished (hopen row hrow)⟩

/-- The worker requeues while the command is still created, and the mark then leaves it published
with its only event consumed. -/
theorem early_requeue_strands :
    let s := run (Downlink.step .plain .plain) (.start queuedDb) earlyRequeue
    s.finished ∧ s.command = some claimedCommand ∧ s.deadLetters = [claimedCommand] ∧
      ((s.db.commands.find? claimedCommand.id).map CommandRow.status = some .published) ∧
      ¬ s.unconsumed claimedCommand.id := by
  intro s
  obtain ⟨hdispatcher, hworker, hcommitted, hcommand, hletters, hstatus, htopic⟩ :
      s.dispatcher = .finished claimedCommand ∧ s.worker = .idle ∧
        s.committed = s.topic.length ∧ s.command = some claimedCommand ∧
        s.deadLetters = [claimedCommand] ∧
        (s.db.commands.find? claimedCommand.id).map CommandRow.status = some .published ∧
        s.topic.drop s.committed = [] := by
    decide +kernel
  refine ⟨⟨⟨_, hdispatcher⟩, hworker, hcommitted⟩, hcommand, hletters, hstatus, ?_⟩
  simp [Downlink.unconsumed, htopic]

end Iot.Dispatch
