import Iot.Text.Strings

/-!
# Errors

A Go error is its text and the sentinel errors it wraps, which is all that callers look at:
`errors.Is` tests for a sentinel and `Error()` returns the text. `GoRuntime` collects what the
model takes from the Go library without a table of its own.
-/

namespace Iot

open Text

/-- The sentinel errors that callers test for. -/
inductive Sentinel where
  | invalidEnvelope
  | invalidPayload
  | invalidTopicPart
  | invalidIdempotencyKey
  | invalidCommandTransition
  | invalidDeviceSecret
  | notFound
  | alreadyExists
  | idempotencyConflict
  | acknowledgementConflict
  | duplicateTelemetry
  | invalidPage
  | listItemTooLarge
  | deadlineExceeded
  | canceled
  deriving DecidableEq, Repr

/-- An error value: its text and the sentinels in its chain. -/
structure GoError where
  text : Bytes
  wraps : List Sentinel
  deriving DecidableEq, Repr

namespace GoError

/-- `errors.New`, for an error nothing tests for. -/
def new (text : String) : GoError := ⟨ascii text, []⟩

/-- `errors.Is`. -/
def is (err : GoError) (sentinel : Sentinel) : Bool := err.wraps.contains sentinel

/-- `fmt.Errorf("%w: text", err)`. -/
def wrap (err : GoError) (text : Bytes) : GoError := ⟨err.text ++ ascii ": " ++ text, err.wraps⟩

/-- `fmt.Errorf("text %w", err)`. -/
def label (text : String) (err : GoError) : GoError :=
  ⟨ascii text ++ ascii " " ++ err.text, err.wraps⟩

/-- `fmt.Errorf("%w: %w", outer, inner)`. -/
def join (outer inner : GoError) : GoError :=
  ⟨outer.text ++ ascii ": " ++ inner.text, outer.wraps ++ inner.wraps⟩

end GoError

/-- A computation that may fail succeeds when both of its parts do. -/
theorem bind_eq_ok {α β : Type} {first : Except GoError α} {next : α → Except GoError β}
    {result : β} :
    first >>= next = .ok result ↔ ∃ value, first = .ok value ∧ next value = .ok result := by
  cases first with
  | error err => simp [bind, Except.bind]
  | ok value => simp [bind, Except.bind]

/-- `if condition { return err }`. -/
def returnIf (condition : Prop) [Decidable condition] (err : GoError) : Except GoError Unit :=
  if condition then .error err else .ok ()

@[simp] theorem returnIf_eq_ok {condition : Prop} [Decidable condition] {err : GoError}
    {result : Unit} : returnIf condition err = .ok result ↔ ¬ condition := by
  by_cases h : condition <;> simp [returnIf, h]

/-- A loop of checks passes when each of them does. -/
theorem forM_eq_ok {α : Type} {items : List α} {check : α → Except GoError Unit} :
    items.forM check = .ok () ↔ ∀ item ∈ items, check item = .ok () := by
  induction items with
  | nil => exact ⟨fun _ _ h => (List.not_mem_nil h).elim, fun _ => rfl⟩
  | cons item rest ih =>
      rw [List.forM, bind_eq_ok, List.forall_mem_cons, ← ih]
      constructor
      · rintro ⟨_, h, hrest⟩
        exact ⟨h, hrest⟩
      · rintro ⟨h, hrest⟩
        exact ⟨(), h, hrest⟩

/-- `contracts.ErrInvalidEnvelope`. -/
def errInvalidEnvelope : GoError := ⟨ascii "invalid envelope", [.invalidEnvelope]⟩

/-- `contracts.ErrInvalidPayload`. -/
def errInvalidPayload : GoError := ⟨ascii "invalid payload", [.invalidPayload]⟩

/-- `contracts.ErrInvalidTopicPart`. -/
def errInvalidTopicPart : GoError := ⟨ascii "invalid topic part", [.invalidTopicPart]⟩

/-- `contracts.ErrInvalidCommandTransition`. -/
def errInvalidCommandTransition : GoError :=
  ⟨ascii "invalid command transition", [.invalidCommandTransition]⟩

/-- `platform.ErrNotFound`. -/
def errNotFound : GoError := ⟨ascii "not found", [.notFound]⟩

/-- `platform.ErrIdempotencyConflict`. -/
def errIdempotencyConflict : GoError :=
  ⟨ascii "idempotency key already used for a different device or payload", [.idempotencyConflict]⟩

/-- `platform.ErrAcknowledgementConflict`. -/
def errAcknowledgementConflict : GoError :=
  ⟨ascii "command already has a different execution result", [.acknowledgementConflict]⟩

/-- `platform.errIdentityMismatch`. -/
def errIdentityMismatch : GoError := .new "envelope identity does not match mqtt topic"

/-- What the model takes from the Go library: the table behind `unicode.SimpleFold`, the literal
`strconv.Quote` writes, and the texts `encoding/json` and `time` report for input they cannot
read. -/
structure GoRuntime where
  simpleFold : Nat → Nat
  quoteText : Bytes → Bytes
  syntaxText : Bytes → Bytes
  timeText : Bytes → Bytes

/-- A runtime to evaluate the model with: no letter has another case, and every text stands for
itself. -/
def GoRuntime.plain : GoRuntime := ⟨id, id, id, id⟩

end Iot
