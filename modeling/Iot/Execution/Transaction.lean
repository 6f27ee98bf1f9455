import Mathlib.Tactic.Common

/-!
# Transactions

A program in a transaction works on a copy of the state (`Session.work`) and makes it durable with
`Tx.commit`. Whatever it has not committed when it returns is rolled back (`Tx.transact`). Any
statement may fail instead of being executed. A commit that fails may have been applied all the
same, when it is its confirmation that was lost.

A program is compared with the one whose statements report no faults: it `Prepares` if it commits
nothing, and it `Ends` if it may commit as the last thing it does. What prepares followed by what
ends does end (`Prepares.bind`), and `transact_ends` lists the three ways a transaction can end.
-/

namespace Iot.Execution

variable {State Error α β : Type}

/-- The state as others see it and as the transaction has it. -/
structure Session (State : Type) where
  durable : State
  work : State

/-- How a commit ends. -/
inductive CommitOutcome (Error : Type) where
  | confirmed
  /-- The working copy is not made durable. -/
  | failed (err : Error)
  /-- It is, but the confirmation does not arrive. -/
  | unconfirmed (err : Error)
  deriving DecidableEq, Repr

/-- A program in a transaction. -/
def Tx (State Error α : Type) : Type := Session State → Except Error α × Session State

namespace Tx

/-- Return a value. -/
protected def pure (value : α) : Tx State Error α := fun session => (.ok value, session)

/-- Go on after success. -/
protected def bind (program : Tx State Error α) (next : α → Tx State Error β) :
    Tx State Error β := fun session =>
  match program session with
  | (.ok value, after) => next value after
  | (.error err, after) => (.error err, after)

instance : Monad (Tx State Error) where
  pure := Tx.pure
  bind := Tx.bind

/-- A check that does not use the database. -/
def check (result : Except Error α) : Tx State Error α := fun session => (result, session)

/-- A statement: it reports a fault, or is executed on the working copy. -/
def statement (fault : Option Error) (body : State → Except Error (α × State)) :
    Tx State Error α := fun session =>
  match fault with
  | some err => (.error err, session)
  | none =>
      match body session.work with
      | .error err => (.error err, session)
      | .ok (value, work) => (.ok value, { session with work := work })

/-- Make the working copy durable and confirm it, fail, or be applied without the program learning
of it. -/
def commit (outcome : CommitOutcome Error) : Tx State Error Unit := fun session =>
  match outcome with
  | .confirmed => (.ok (), { session with durable := session.work })
  | .failed err => (.error err, session)
  | .unconfirmed err => (.error err, { session with durable := session.work })

/-- A whole transaction: what the program returns, and the state afterwards. -/
def transact (program : Tx State Error α) (state : State) : Except Error α × State :=
  ((program ⟨state, state⟩).1, (program ⟨state, state⟩).2.durable)

/-! ## Evaluating programs -/

@[simp] theorem pure_apply (value : α) (session : Session State) :
    (pure value : Tx State Error α) session = (.ok value, session) := rfl

theorem bind_ok {program : Tx State Error α} {next : α → Tx State Error β}
    {session after : Session State} {value : α} (h : program session = (.ok value, after)) :
    (program >>= next) session = next value after := by
  show Tx.bind program next session = _
  rw [Tx.bind, h]

theorem bind_error {program : Tx State Error α} {next : α → Tx State Error β}
    {session after : Session State} {err : Error} (h : program session = (.error err, after)) :
    (program >>= next) session = (.error err, after) := by
  show Tx.bind program next session = _
  rw [Tx.bind, h]

@[simp] theorem check_ok_bind (value : α) (next : α → Tx State Error β) (session : Session State) :
    (check (.ok value) >>= next) session = next value session := bind_ok rfl

@[simp] theorem check_error_bind (err : Error) (next : α → Tx State Error β)
    (session : Session State) :
    (check (.error err) >>= next) session = (.error err, session) := bind_error rfl

theorem statement_ok_bind {body : State → Except Error (α × State)} {next : α → Tx State Error β}
    {session : Session State} {value : α} {work : State}
    (h : body session.work = .ok (value, work)) :
    (statement none body >>= next) session = next value { session with work := work } := by
  refine bind_ok ?_
  simp only [statement, h]

theorem statement_error_bind {body : State → Except Error (α × State)}
    {next : α → Tx State Error β} {session : Session State} {err : Error}
    (h : body session.work = .error err) :
    (statement none body >>= next) session = (.error err, session) := by
  refine bind_error ?_
  simp only [statement, h]

theorem commit_bind (next : Unit → Tx State Error β) (session : Session State) :
    (commit .confirmed >>= next) session = next () { session with durable := session.work } :=
  bind_ok rfl

/-! ## Faults -/

/-- The program commits nothing, and unless it fails it does what the other does. -/
def Prepares (program plain : Tx State Error α) : Prop :=
  ∀ session,
    (∃ err after, program session = (.error err, after) ∧ after.durable = session.durable) ∨
    ∃ value after, program session = (.ok value, after) ∧ plain session = (.ok value, after) ∧
      after.durable = session.durable

/-- The program fails without having committed anything, or succeeds as the other does, or fails
after a commit that was applied and not confirmed, where the other succeeds. -/
def Ends (outcome : CommitOutcome Error) (program plain : Tx State Error α) : Prop :=
  ∀ session,
    (∃ err after, program session = (.error err, after) ∧ after.durable = session.durable) ∨
    (∃ value after, program session = (.ok value, after) ∧ plain session = (.ok value, after)) ∨
    ∃ err value after, outcome = .unconfirmed err ∧ program session = (.error err, after) ∧
      plain session = (.ok value, after)

theorem prepares_check (result : Except Error α) :
    Prepares (check result : Tx State Error α) (check result) := by
  intro session
  cases result with
  | error err => exact .inl ⟨err, session, rfl, rfl⟩
  | ok value => exact .inr ⟨value, session, rfl, rfl, rfl⟩

theorem prepares_statement (fault : Option Error) (body : State → Except Error (α × State)) :
    Prepares (statement fault body) (statement none body) := by
  intro session
  cases fault with
  | some err => exact .inl ⟨err, session, rfl, rfl⟩
  | none =>
      cases hbody : body session.work with
      | error err => exact .inl ⟨err, session, by simp only [statement, hbody], rfl⟩
      | ok result =>
          obtain ⟨value, work⟩ := result
          have hstatement : statement none body session =
              (.ok value, { session with work := work }) := by
            simp only [statement, hbody]
          exact .inr ⟨value, _, hstatement, hstatement, rfl⟩

/-- What commits nothing may end a transaction. -/
theorem Prepares.ends {program plain : Tx State Error α} (h : Prepares program plain)
    (outcome : CommitOutcome Error) : Ends outcome program plain := by
  intro session
  obtain hfailed | ⟨value, after, hprogram, hplain, -⟩ := h session
  · exact .inl hfailed
  · exact .inr (.inl ⟨value, after, hprogram, hplain⟩)

/-- The commit is the last thing that can fail. -/
theorem ends_commit (outcome : CommitOutcome Error) (value : α) :
    Ends outcome (do commit outcome; pure value : Tx State Error α)
      (do commit .confirmed; pure value) := by
  intro session
  cases outcome with
  | confirmed => exact .inr (.inl ⟨value, _, rfl, rfl⟩)
  | failed err => exact .inl ⟨err, session, rfl, rfl⟩
  | unconfirmed err => exact .inr (.inr ⟨err, value, _, rfl, rfl, rfl⟩)

/-- What commits nothing is followed by what ends the transaction. -/
theorem Prepares.bind {outcome : CommitOutcome Error} {program plain : Tx State Error α}
    {next continued : α → Tx State Error β} (h : Prepares program plain)
    (hnext : ∀ value, Ends outcome (next value) (continued value)) :
    Ends outcome (program >>= next) (plain >>= continued) := by
  intro session
  obtain ⟨err, after, hprogram, hdurable⟩ | ⟨value, after, hprogram, hplain, hdurable⟩ := h session
  · exact .inl ⟨err, after, bind_error hprogram, hdurable⟩
  · rw [bind_ok hprogram, bind_ok hplain]
    obtain ⟨err, last, hlast, hsame⟩ | hends := hnext value after
    · exact .inl ⟨err, last, hlast, hsame.trans hdurable⟩
    · exact .inr hends

/-- How a transaction ends: it fails and leaves the state as it was, or it succeeds as it does
without faults, or it fails although its commit was applied, and leaves the state as it does without
faults. -/
theorem transact_ends {outcome : CommitOutcome Error} {program plain : Tx State Error α}
    (h : Ends outcome program plain) (state : State) :
    (∃ err, program.transact state = (.error err, state)) ∨
    (∃ value after, program.transact state = (.ok value, after) ∧
      plain.transact state = (.ok value, after)) ∨
    ∃ err value after, outcome = .unconfirmed err ∧ program.transact state = (.error err, after) ∧
      plain.transact state = (.ok value, after) := by
  simp only [transact]
  obtain ⟨err, after, hprogram, hdurable⟩ | ⟨value, after, hprogram, hplain⟩ |
    ⟨err, value, after, houtcome, hprogram, hplain⟩ := h ⟨state, state⟩
  · exact .inl ⟨err, by rw [hprogram, hdurable]⟩
  · exact .inr (.inl ⟨value, after.durable, by rw [hprogram], by rw [hplain]⟩)
  · exact .inr (.inr ⟨err, value, after.durable, houtcome, by rw [hprogram], by rw [hplain]⟩)

end Tx

end Iot.Execution
