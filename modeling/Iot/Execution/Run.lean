import Mathlib.Data.List.Basic

/-!
# Runs of a step function

A system is a total step function on its states; an action that is not possible in a state leaves
it as it is. `run` takes a list of actions. The rules below reduce a statement about whole runs to
one about single steps: `run_invariant` for what every state satisfies, `run_related` for how
later states relate to earlier ones, and `run_invariant_along` for runs whose steps all meet a
condition (`Along`).
-/

namespace Iot.Execution

variable {State Action : Type} (step : State → Action → State)

/-- The state after a list of actions. -/
def run (state : State) (actions : List Action) : State := actions.foldl step state

@[simp] theorem run_nil (state : State) : run step state [] = state := rfl

@[simp] theorem run_cons (state : State) (action : Action) (rest : List Action) :
    run step state (action :: rest) = run step (step state action) rest := rfl

/-- A run of two lists is a run of the second from where the first ends. -/
theorem run_append (state : State) (first second : List Action) :
    run step state (first ++ second) = run step (run step state first) second :=
  List.foldl_append

/-- Every step of the run from this state meets the condition in the state it is taken in. -/
def Along (condition : State → Action → Prop) : State → List Action → Prop
  | _, [] => True
  | state, action :: rest => condition state action ∧ Along condition (step state action) rest

/-- Whether a run meets a decidable condition can be computed. -/
instance decidableAlong (condition : State → Action → Prop)
    [∀ state action, Decidable (condition state action)] :
    ∀ state actions, Decidable (Along step condition state actions)
  | _, [] => .isTrue trivial
  | state, action :: rest =>
      @instDecidableAnd _ _ _ (decidableAlong condition (step state action) rest)

variable {step}

/-- The condition holds of the steps of a prefix and of the steps after it. -/
theorem along_append {condition : State → Action → Prop} {state : State}
    {first second : List Action} :
    Along step condition state (first ++ second) ↔
      Along step condition state first ∧ Along step condition (run step state first) second := by
  induction first generalizing state with
  | nil => simp [Along]
  | cons action rest ih => simp [Along, ih, and_assoc]

/-- A condition that the actions of a run meet in every state holds along it. -/
theorem along_of_forall {condition : State → Action → Prop} {actions : List Action}
    (h : ∀ action ∈ actions, ∀ state, condition state action) (state : State) :
    Along step condition state actions := by
  induction actions generalizing state with
  | nil => trivial
  | cons action rest ih =>
      exact ⟨h action (by simp) state, ih (fun other hother => h other (by simp [hother])) _⟩

/-- What holds at the start and is kept by every step that meets the condition holds after every
run whose steps all meet it. -/
theorem run_invariant_along (condition : State → Action → Prop) (invariant : State → Prop)
    (hstep : ∀ state action, invariant state → condition state action →
      invariant (step state action))
    {state : State} (hinit : invariant state) {actions : List Action}
    (h : Along step condition state actions) : invariant (run step state actions) := by
  induction actions generalizing state with
  | nil => exact hinit
  | cons action rest ih => exact ih (hstep state action hinit h.1) h.2

/-- What holds at the start and is kept by every step holds after every run. -/
theorem run_invariant (invariant : State → Prop)
    (hstep : ∀ state action, invariant state → invariant (step state action))
    {state : State} (hinit : invariant state) (actions : List Action) :
    invariant (run step state actions) := by
  induction actions generalizing state with
  | nil => exact hinit
  | cons action rest ih => exact ih (hstep state action hinit)

/-- If a step that meets the condition keeps the invariant, and only such a step keeps what is
observed, then that is observed after every step of a run exactly if all of them meet the
condition. -/
theorem forall_take_iff_along (condition : State → Action → Prop)
    (invariant observed : State → Prop) (hobserved : ∀ state, invariant state → observed state)
    (hstep : ∀ state action, invariant state → condition state action →
      invariant (step state action))
    (hneeded : ∀ state action, invariant state → observed (step state action) →
      condition state action)
    {state : State} (hinit : invariant state) (actions : List Action) :
    (∀ k, observed (run step state (actions.take k))) ↔ Along step condition state actions := by
  induction actions generalizing state with
  | nil => simpa [Along] using hobserved state hinit
  | cons action rest ih =>
      constructor
      · intro h
        have hcondition : condition state action := hneeded state action hinit (h 1)
        exact ⟨hcondition, (ih (hstep state action hinit hcondition)).mp fun k => h (k + 1)⟩
      · rintro ⟨hcondition, hrest⟩ k
        cases k with
        | zero => exact hobserved state hinit
        | succ k => exact (ih (hstep state action hinit hcondition)).mpr hrest k

/-- A reflexive and transitive relation that every step from a state with the invariant respects
relates the start of a run to its end. -/
theorem run_related (invariant : State → Prop) (related : State → State → Prop)
    (hstep : ∀ state action, invariant state → invariant (step state action))
    (hrefl : ∀ state, related state state)
    (htrans : ∀ first second third, related first second → related second third →
      related first third)
    (hrelated : ∀ state action, invariant state → related state (step state action))
    {state : State} (hinit : invariant state) (actions : List Action) :
    related state (run step state actions) := by
  induction actions generalizing state with
  | nil => exact hrefl state
  | cons action rest ih =>
      exact htrans _ _ _ (hrelated state action hinit) (ih (hstep state action hinit))

end Iot.Execution
