import Mathlib.Data.Fintype.Basic

/-!
# The handover of a command from the dispatcher to the worker

What matters of an attempt to deliver a command for the fate of the command: how far the
dispatcher and the worker are, and whether the command waits in the queue, is published, or has
left both (`Phase.ended`: sent, acknowledged, failed or timed out). The dispatcher appends the
event before it marks the command, so the worker may overtake the mark. The protocol has finitely
many states, and its invariants are checked on all of them: `Sound` holds in every run, `Good`
until a requeue comes before the mark, and `Stranded` from then on.
-/

namespace Iot.Dispatch

/-- How far the dispatcher is. -/
inductive DispatcherStage where
  | idle
  | claimed
  | appended
  | finished
  deriving DecidableEq

instance : Fintype DispatcherStage :=
  ⟨{.idle, .claimed, .appended, .finished}, fun x => by cases x <;> decide⟩

/-- How far the worker is. -/
inductive WorkerStage where
  | waiting
  | lookedUp
  | publishFailed
  | requeued
  | deadLettered
  | skipped
  | done
  deriving DecidableEq

instance : Fintype WorkerStage :=
  ⟨{.waiting, .lookedUp, .publishFailed, .requeued,
      .deadLettered, .skipped, .done}, fun x => by cases x <;> decide⟩

/-- Where the command is. -/
inductive Phase where
  | queued
  | published
  | ended
  deriving DecidableEq

instance : Fintype Phase :=
  ⟨{.queued, .published, .ended}, fun x => by cases x <;> decide⟩

/-- A state of the protocol. -/
structure Stage where
  dispatcher : DispatcherStage
  worker : WorkerStage
  phase : Phase
  deriving DecidableEq

/-- The steps of the protocol. -/
inductive Event where
  | claim
  | append
  | mark
  | lookUp
  | publishFails
  | requeue
  | deadLetter
  | commit
  | acknowledge
  deriving DecidableEq

instance : Fintype Event :=
  ⟨{.claim, .append, .mark, .lookUp, .publishFails,
      .requeue, .deadLetter, .commit, .acknowledge}, fun x => by cases x <;> decide⟩

/-- The protocol. -/
def Stage.step (stage : Stage) (event : Event) : Stage :=
  match event, stage with
  | .claim, ⟨.idle, w, _⟩ => ⟨.claimed, w, .queued⟩
  | .append, ⟨.claimed, w, p⟩ => ⟨.appended, w, p⟩
  | .mark, ⟨.appended, w, p⟩ => ⟨.finished, w, if p = .queued then .published else p⟩
  | .lookUp, ⟨.appended, .waiting, p⟩ =>
      ⟨.appended, if p = .ended then .skipped else .lookedUp, p⟩
  | .lookUp, ⟨.finished, .waiting, p⟩ =>
      ⟨.finished, if p = .ended then .skipped else .lookedUp, p⟩
  | .publishFails, ⟨d, .lookedUp, p⟩ => ⟨d, .publishFailed, p⟩
  | .requeue, ⟨d, .publishFailed, p⟩ => ⟨d, .requeued, if p = .published then .queued else p⟩
  | .deadLetter, ⟨d, .requeued, p⟩ => ⟨d, .deadLettered, p⟩
  | .commit, ⟨d, .deadLettered, p⟩ => ⟨d, .done, p⟩
  | .commit, ⟨d, .skipped, p⟩ => ⟨d, .done, p⟩
  | .acknowledge, ⟨d, w, _⟩ => ⟨d, w, .ended⟩
  | _, stage => stage

/-- The worker is past its requeue, or has none to make. -/
def WorkerStage.passed : WorkerStage → Bool
  | .waiting | .lookedUp | .publishFailed => false
  | _ => true

/-- What holds in every run: the worker starts after the append, only the mark publishes, and
until the requeue a marked command is not in the queue. -/
def Stage.Sound (stage : Stage) : Prop :=
  (stage.worker ≠ .waiting → stage.dispatcher = .appended ∨ stage.dispatcher = .finished) ∧
    (stage.phase = .published → stage.dispatcher = .finished) ∧
    (stage.worker.passed = false → stage.dispatcher = .finished → stage.phase ≠ .queued)

/-- What holds while no requeue has come before the mark. -/
def Stage.Good (stage : Stage) : Prop :=
  stage.worker.passed = true →
    stage.phase ≠ .published ∧ (stage.phase = .queued → stage.dispatcher = .finished)

/-- What holds once a requeue has come before the mark. -/
def Stage.Stranded (stage : Stage) : Prop :=
  stage.worker.passed = true ∧ (stage.phase = .queued → stage.dispatcher = .appended)

/-- A requeue that comes before the mark. -/
def Stage.early (stage : Stage) (event : Event) : Prop :=
  event = .requeue ∧ stage.worker = .publishFailed ∧ stage.phase = .queued

instance : DecidablePred Stage.Sound := fun _ => inferInstanceAs (Decidable (_ ∧ _ ∧ _))

instance : DecidablePred Stage.Good := fun _ => inferInstanceAs (Decidable (_ → _))

instance : DecidablePred Stage.Stranded := fun _ => inferInstanceAs (Decidable (_ ∧ _))

instance (stage : Stage) (event : Event) : Decidable (stage.early event) :=
  inferInstanceAs (Decidable (_ ∧ _ ∧ _))

/-- A step of the protocol keeps `Sound`. -/
theorem sound_step : ∀ (stage : Stage) (event : Event), stage.Sound →
    (stage.step event).Sound := by
  rintro ⟨dispatcher, worker, phase⟩ event
  revert dispatcher worker phase event
  decide +kernel

/-- A step that is no early requeue keeps `Good`. -/
theorem good_step : ∀ (stage : Stage) (event : Event), stage.Sound → stage.Good →
    ¬ stage.early event → (stage.step event).Good := by
  rintro ⟨dispatcher, worker, phase⟩ event
  revert dispatcher worker phase event
  decide +kernel

/-- An early requeue strands the command. -/
theorem stranded_of_early : ∀ (stage : Stage) (event : Event), stage.Sound →
    stage.early event → (stage.step event).Stranded := by
  rintro ⟨dispatcher, worker, phase⟩ event
  revert dispatcher worker phase event
  decide +kernel

/-- A stranded command stays so. -/
theorem stranded_step : ∀ (stage : Stage) (event : Event), stage.Sound → stage.Stranded →
    (stage.step event).Stranded := by
  rintro ⟨dispatcher, worker, phase⟩ event
  revert dispatcher worker phase event
  decide +kernel

end Iot.Dispatch
