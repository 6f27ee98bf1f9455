import Iot.Execution.Run
import Iot.Store.Lifecycle

/-!
# Dispatchers at work

Any number of dispatchers share the store with the workers, the devices and the recovery scans.
A dispatcher in `dispatchPending` (`internal/platform/command_dispatcher.go`) claims one command,
writes it to Kafka and then calls `MarkCommandPublished` or, when the write failed,
`RescheduleCommand`, both with the claimed attempt; between the two anything may happen, and it
may never get to the second call. Every database call is one step.

`System` records who holds a claim (`held`), all claims ever made (`history`, the newest first)
and the claims on which a completion took effect (`completed`). Seen from one command
(`System.focus`), a step does one of four things (`FocusStep`); `step_focus` says so, and every
invariant of the system is derived from it.
-/

namespace Iot.Dispatch

open Text Contracts Platform Store Data Execution

/-- A claim: who made it, on which command, as which attempt, when and for how long. -/
structure Claim where
  dispatcher : Nat
  id : Bytes
  attempt : Int
  claimedAt : Time
  lease : Time
  deriving DecidableEq, Repr

/-- When the lease of a claim ends. -/
def Claim.expiry (claim : Claim) : Time := claim.claimedAt + claim.lease

/-- The tables, the last time the database told, and the claims. -/
structure System where
  db : Db
  clock : Time
  held : List Claim
  history : List Claim
  completed : List Claim

/-- The empty schema at a time, and no dispatcher at work. -/
def System.initial (clock : Time) : System := ⟨.empty, clock, [], [], []⟩

/-- `commandRetryBackoff`. -/
def commandRetryBackoff (attempt : Int) : Time := second * (1 <<< (min attempt.toNat 6) : Nat)

/-- One step of the system. Times called `now` are the database's clock; an acknowledgement, an
expiry scan and a new command carry the clock of the process that sends them. -/
inductive Action where
  | claim (dispatcher : Nat) (now lease : Time) (locked : List Bytes)
  | complete (dispatcher : Nat) (now : Time) (written : Bool)
  | abandon (dispatcher : Nat)
  | recoverRequeue (now staleBefore : Time) (locked : List Bytes)
  | recoverFail (now staleBefore : Time) (locked : List Bytes)
  | expire (appNow grace : Time) (locked : List Bytes)
  | markSent (now : Time) (id : Bytes) (deadline : Time)
  | requeue (now : Time) (id : Bytes) (retryAfter : Time)
  | acknowledge (id tenantID deviceID : Bytes) (input : CommandResult) (appNow : Time)
  | create (tenantID deviceID key payload : Bytes) (newID : Except GoError Bytes) (appNow : Time)
  | registerDevice (tenantID deviceID : Bytes)

/-- The time of the database at which a step is taken, where it depends on it. -/
def Action.dbTime : Action → Option Time
  | .claim _ now _ _ | .complete _ now _ | .recoverRequeue now _ _ | .recoverFail now _ _
  | .markSent now _ _ | .requeue now _ _ => some now
  | _ => none

/-- The operation of a step that no dispatcher takes in `dispatchPending`. The scans recover with
`maxDispatchAttempts`. -/
def Action.op : Action → Option Op
  | .claim _ _ _ _ | .complete _ _ _ | .abandon _ => none
  | .recoverRequeue now staleBefore locked =>
      some (.recoverStaleRequeue now staleBefore maxDispatchAttempts locked)
  | .recoverFail now staleBefore locked =>
      some (.recoverStaleFail now staleBefore maxDispatchAttempts locked)
  | .expire appNow grace locked => some (.expireCommands appNow grace locked)
  | .markSent now id deadline => some (.markCommandSent now id deadline)
  | .requeue now id retryAfter => some (.requeueCommand now id retryAfter)
  | .acknowledge id tenantID deviceID input appNow =>
      some (.ackCommandResult id tenantID deviceID input appNow)
  | .create tenantID deviceID key payload newID appNow =>
      some (.createCommandWithKey tenantID deviceID key payload newID appNow)
  | .registerDevice tenantID deviceID => some (.registerDevice tenantID deviceID)

/-- The claim a dispatcher holds. -/
def System.holding (sys : System) (dispatcher : Nat) : Option Claim :=
  sys.held.find? fun claim => claim.dispatcher = dispatcher

/-- The claims held once a dispatcher has let go of its own. -/
def System.released (sys : System) (dispatcher : Nat) : List Claim :=
  sys.held.filter fun claim => claim.dispatcher ≠ dispatcher

/-- The call that ends a claim: `MarkCommandPublished` when the command was written to Kafka, and
`RescheduleCommand` otherwise. -/
def completion (now : Time) (claim : Claim) (written : Bool) : Op :=
  if written then .markCommandPublished now claim.id claim.attempt
  else .rescheduleCommand now claim.id claim.attempt (commandRetryBackoff claim.attempt)

/-- The call that ends a claim changes the row. -/
def System.effective (sys : System) (now : Time) (claim : Claim) : Bool :=
  (sys.db.commands.find? claim.id).any (fenced now claim.id claim.attempt)

variable (go : GoRuntime) (pg : Postgres)

/-- The system after a step. A dispatcher that holds a claim does not claim, and one that holds
none has nothing to complete. -/
def System.step (sys : System) (action : Action) : System :=
  match action with
  | .claim dispatcher now lease locked =>
      if (sys.holding dispatcher).isSome then sys
      else
        match claimCommandsForDispatch pg now lease 1 locked sys.db with
        | ([], db) => { sys with db := db, clock := now }
        | (cmd :: _, db) =>
            let claim : Claim := ⟨dispatcher, cmd.id, cmd.dispatchAttempts, now, lease⟩
            { db := db, clock := now, held := claim :: sys.held
              history := claim :: sys.history, completed := sys.completed }
  | .complete dispatcher now written =>
      match sys.holding dispatcher with
      | none => sys
      | some claim =>
          { db := Store.step go pg sys.db (completion now claim written)
            clock := now
            held := sys.released dispatcher
            history := sys.history
            completed :=
              if sys.effective now claim then claim :: sys.completed else sys.completed }
  | .abandon dispatcher => { sys with held := sys.released dispatcher }
  | action =>
      match action.op with
      | none => sys
      | some op =>
          { sys with db := Store.step go pg sys.db op, clock := action.dbTime.getD sys.clock }

/-- The system seen from one command. -/
structure Focus where
  view : View
  clock : Time
  held : List Claim
  claims : List Claim
  completed : List Claim

/-- What the system holds about one command. -/
def System.focus (sys : System) (id : Bytes) : Focus where
  view := sys.db.view id
  clock := sys.clock
  held := sys.held.filter fun claim => claim.id = id
  claims := sys.history.filter fun claim => claim.id = id
  completed := sys.completed.filter fun claim => claim.id = id

/-- Before the first step there is nothing about any command. -/
theorem initial_focus (clock : Time) (id : Bytes) :
    (System.initial clock).focus id = ⟨⟨none, [], []⟩, clock, [], [], []⟩ := rfl

/-- A transition that is no part of `dispatchPending`. -/
def Label.isForeign : Label → Bool
  | .claim _ _ | .publish _ _ | .reschedule _ _ _ => false
  | _ => true

/-- What a step can do to one command. -/
inductive FocusStep (id : Bytes) : Focus → Focus → Prop where
  /-- Nothing, except that dispatchers may let go of claims. -/
  | idle {view : View} {clock clock' : Time} {held held' claims completed : List Claim}
      (hheld : held'.Sublist held) :
      FocusStep id ⟨view, clock, held, claims, completed⟩ ⟨view, clock', held', claims, completed⟩
  /-- A dispatcher claims the command. -/
  | claim {row : CommandRow} {acks : List AckRow} {log : List CommandEvent} {clock : Time}
      {held claims completed : List Claim} {now : Time} {claim : Claim}
      (h : claimable now row)
      (hclaim : claim.id = id ∧ claim.attempt = row.dispatchAttempts + 1 ∧ claim.claimedAt = now) :
      FocusStep id ⟨⟨some row, acks, log⟩, clock, held, claims, completed⟩
        ⟨⟨some (claimedRow now claim.lease row), acks, log⟩, now, claim :: held, claim :: claims,
          completed⟩
  /-- A dispatcher completes a claim it holds, with effect. -/
  | complete {row : CommandRow} {acks : List AckRow} {log : List CommandEvent} {after : View}
      {clock now : Time} {held held' claims completed : List Claim} {claim : Claim} {label : Label}
      (hholds : claim ∈ held) (hheld : held'.Sublist held) (hgone : claim ∉ held')
      (h : fenced now id claim.attempt row)
      (hlabel : label = .publish now claim.attempt ∨
        ∃ retryAfter, label = .reschedule now retryAfter claim.attempt)
      (htransition : Transition label ⟨some row, acks, log⟩ after) :
      FocusStep id ⟨⟨some row, acks, log⟩, clock, held, claims, completed⟩
        ⟨after, now, held', claims, claim :: completed⟩
  /-- Somebody else changes the command. -/
  | foreign {view after : View} {clock clock' : Time} {held claims completed : List Claim}
      {label : Label} (hforeign : Label.isForeign label)
      (htransition : Transition label view after) :
      FocusStep id ⟨view, clock, held, claims, completed⟩ ⟨after, clock', held, claims, completed⟩

/-- Only dispatchers claim, publish and reschedule. -/
theorem op_label_foreign {action : Action} {op : Op} {label : Label} (hop : action.op = some op)
    (hlabel : op.label = some label) : Label.isForeign label := by
  cases action <;> simp only [Action.op, Option.some.injEq, reduceCtorEq] at hop <;> subst hop <;>
    simp only [Op.label, Option.some.injEq, reduceCtorEq] at hlabel <;> subst hlabel <;> rfl

/-- The row after a call that ends a claim with effect. -/
def completedRow (now : Time) (claim : Claim) (written : Bool) (row : CommandRow) : CommandRow :=
  if written then { row with status := .published, updatedAt := now }
  else { row with nextDispatchAt := now + commandRetryBackoff claim.attempt, updatedAt := now }

/-- What a call that ends a claim does to a command. -/
theorem completion_view (db : Db) (now : Time) (claim : Claim) (written : Bool) (id : Bytes) :
    (Store.step go pg db (completion now claim written)).view id =
      (db.view id).update (fenced now claim.id claim.attempt) (completedRow now claim written)
        (if written then some .published else none) := by
  cases written with
  | true => exact view_updateCommands db _ _ _ _ id
  | false => exact view_updateCommands db _ _ _ _ id

/-- A call that ends a claim leaves every other command alone. -/
theorem completion_other (db : Db) (now : Time) (claim : Claim) (written : Bool) {id : Bytes}
    (hid : claim.id ≠ id) : (Store.step go pg db (completion now claim written)).view id =
      db.view id := by
  rw [completion_view]
  rcases update_cases (db.view id) (fenced now claim.id claim.attempt)
    (completedRow now claim written) (if written then some .published else none) with
    hsame | ⟨row, hrow, hfenced, _⟩
  · exact hsame
  · exact absurd ((fenced_id hfenced).symm.trans (Table.key_of_find? hrow)) hid

/-- A call that ends a claim without effect leaves its command alone too. -/
theorem completion_ineffective (sys : System) (now : Time) (claim : Claim) (written : Bool)
    (h : sys.effective now claim = false) :
    (Store.step go pg sys.db (completion now claim written)).view claim.id =
      sys.db.view claim.id := by
  rw [completion_view]
  cases hrow : sys.db.commands.find? claim.id with
  | none => simp [View.update, hrow]
  | some row =>
      have hfenced : fenced now claim.id claim.attempt row = false := by
        simpa [System.effective, hrow] using h
      simp [View.update, hrow, hfenced]

/-- A call that ends a claim with effect finds the row fenced and publishes or reschedules it. -/
theorem completion_effective (sys : System) (now : Time) (claim : Claim) (written : Bool)
    (h : sys.effective now claim = true) :
    ∃ row label, sys.db.commands.find? claim.id = some row ∧
      fenced now claim.id claim.attempt row ∧
      (label = .publish now claim.attempt ∨
        ∃ retryAfter, label = .reschedule now retryAfter claim.attempt) ∧
      Transition label (sys.db.view claim.id)
        ((Store.step go pg sys.db (completion now claim written)).view claim.id) := by
  rw [System.effective, Option.any_eq_true] at h
  obtain ⟨row, hrow, hfenced⟩ := h
  have hown : fenced now row.id claim.attempt row := by rwa [fenced_id hfenced]
  rw [completion_view, view_eq hrow]
  cases written with
  | true =>
      refine ⟨row, _, hrow, hfenced, Or.inl rfl, ?_⟩
      simpa [View.update, hfenced, completedRow] using Transition.publish hown
  | false =>
      refine ⟨row, .reschedule now (commandRetryBackoff claim.attempt) claim.attempt, hrow,
        hfenced, Or.inr ⟨_, rfl⟩, ?_⟩
      simpa [View.update, hfenced, completedRow] using Transition.reschedule hown

/-- A dispatcher's claim is one of those held. -/
theorem holding_mem {sys : System} {dispatcher : Nat} {claim : Claim}
    (h : sys.holding dispatcher = some claim) : claim ∈ sys.held ∧ claim.dispatcher = dispatcher :=
  ⟨List.mem_of_find?_eq_some h, by simpa using List.find?_some h⟩

/-- Letting go of a claim keeps the others. -/
theorem released_sublist (sys : System) (dispatcher : Nat) (id : Bytes) :
    ((sys.released dispatcher).filter fun claim => claim.id = id).Sublist
      (sys.held.filter fun claim => claim.id = id) :=
  List.Sublist.filter _ List.filter_sublist

/-- A claiming step, seen from one command. -/
theorem step_claim_focus (sys : System) (dispatcher : Nat) (now lease : Time)
    (locked : List Bytes) (id : Bytes) :
    FocusStep id (sys.focus id)
      ((sys.step go pg (.claim dispatcher now lease locked)).focus id) := by
  simp only [System.step]
  split
  · exact .idle (List.Sublist.refl _)
  have hclaim := claim_one pg now lease locked sys.db
  cases hresult : claimCommandsForDispatch pg now lease 1 locked sys.db with
  | mk commands db =>
      simp only [hresult] at hclaim
      rcases hclaim with ⟨rfl, hview⟩ | ⟨row, hrow, hclaimable, rfl, hview⟩
      · simp only [System.focus, hview]
        exact .idle (List.Sublist.refl _)
      · simp only [System.focus, hview, CommandRow.command, claimedRow_id, List.filter_cons]
        by_cases hid : row.id = id
        · subst hid
          rw [view_eq hrow]
          simp only [if_true, decide_true]
          exact @FocusStep.claim _ row _ _ _ _ _ _ now
            ⟨dispatcher, row.id, (row.dispatchAttempts + 1 : Nat), now, lease⟩ hclaimable
            ⟨rfl, Int.natCast_succ row.dispatchAttempts, rfl⟩
        · simp only [hid, if_false, decide_false, Bool.false_eq_true]
          exact .idle (List.Sublist.refl _)

/-- A completing step, seen from one command. -/
theorem step_complete_focus (sys : System) (dispatcher : Nat) (now : Time) (written : Bool)
    (id : Bytes) :
    FocusStep id (sys.focus id)
      ((sys.step go pg (.complete dispatcher now written)).focus id) := by
  simp only [System.step]
  cases hholding : sys.holding dispatcher with
  | none => exact .idle (List.Sublist.refl _)
  | some claim =>
      obtain ⟨hmem, hdispatcher⟩ := holding_mem hholding
      have hsublist := released_sublist sys dispatcher id
      by_cases hid : claim.id = id
      · cases heffective : sys.effective now claim with
        | false =>
            subst hid
            simp only [System.focus, completion_ineffective go pg sys now claim written heffective,
              heffective, if_false, Bool.false_eq_true]
            exact .idle hsublist
        | true =>
            obtain ⟨row, label, hrow, hfenced, hlabel, htransition⟩ :=
              completion_effective go pg sys now claim written heffective
            subst hid
            rw [view_eq hrow] at htransition
            simp only [System.focus, heffective, if_true, List.filter_cons, decide_true]
            rw [view_eq hrow]
            refine .complete ?_ hsublist ?_ hfenced hlabel htransition
            · simpa using hmem
            · simp [System.released, hdispatcher]
      · have hcompleted : ((if sys.effective now claim then claim :: sys.completed
            else sys.completed).filter fun other => other.id = id) =
            sys.completed.filter fun other => other.id = id := by
          cases sys.effective now claim <;> simp [hid]
        simp only [System.focus, completion_other go pg sys.db now claim written hid, hcompleted]
        exact .idle hsublist

/-- Every step does one of the four things to a command. -/
theorem step_focus (sys : System) (action : Action) (id : Bytes) :
    FocusStep id (sys.focus id) ((sys.step go pg action).focus id) := by
  have hforeign : ∀ op, action.op = some op → FocusStep id (sys.focus id)
      (System.focus { sys with
        db := Store.step go pg sys.db op, clock := action.dbTime.getD sys.clock } id) := by
    intro op hop
    rcases step_refines go pg sys.db op id with hsame | ⟨label, hlabel, htransition⟩
    · simp only [System.focus, hsame]
      exact .idle (List.Sublist.refl _)
    · exact .foreign (op_label_foreign hop hlabel) htransition
  cases action with
  | claim dispatcher now lease locked =>
      exact step_claim_focus go pg sys dispatcher now lease locked id
  | complete dispatcher now written =>
      exact step_complete_focus go pg sys dispatcher now written id
  | abandon dispatcher => exact .idle (released_sublist sys dispatcher id)
  | _ => exact hforeign _ rfl

end Iot.Dispatch
