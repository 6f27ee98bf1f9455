import Iot.Dispatch.System
import Iot.Store.RowInvariant

/-!
# Redelivery is bounded and no command gets stuck

The audit log of a command counts what happened to it. `View.Logged` bounds the events of the
lifecycle by its status, and `Focus.Counted` ties attempts, claims and published events together:
every claim is completed at most once, so there are no more published events than claims.

`Repair` lists the four statements that act on a command nobody else takes care of. Once its times
have passed, exactly one of them applies to a command that has not ended (`repair_unique`), and
each of them lowers the command's `rank`, so rounds of scans and claims end every command
(`rounds_end`).
-/

namespace Iot.Dispatch

open Text Contracts Platform Store Data Execution

/-- The status of a command that exists. -/
def viewStatus (view : View) : Option CommandStatus := view.row.map CommandRow.status

/-- The attempts of a command, none before it exists. -/
def attempts (view : View) : Nat := (view.row.map CommandRow.dispatchAttempts).getD 0

/-- The command waits for its delivery. -/
def undelivered (view : View) : Prop :=
  viewStatus view = some .created ∨ viewStatus view = some .published

instance (view : View) : Decidable (undelivered view) := inferInstanceAs (Decidable (_ ∨ _))

/-- The command has not ended. -/
def unfinished (view : View) : Prop := undelivered view ∨ viewStatus view = some .sent

instance (view : View) : Decidable (unfinished view) := inferInstanceAs (Decidable (_ ∨ _))

/-- The events of the lifecycle, bounded by the status. -/
structure Logged (view : View) : Prop where
  requeued : view.log.count .requeued + (if viewStatus view = some .published then 1 else 0) ≤
    view.log.count .published
  delivered : view.log.count .delivered + (if undelivered view then 1 else 0) ≤ 1
  ended : view.log.countP CommandEvent.terminal + (if unfinished view then 1 else 0) ≤ 1

/-- The status of a row that can be claimed or completed. -/
theorem claimable_created {now : Time} {row : CommandRow} (h : claimable now row) :
    row.status = .created := by
  simp only [claimable, Bool.and_eq_true, beq_iff_eq] at h
  exact h.1.1

/-- A fenced row waits for the completion of its claim. -/
theorem fenced_created {now : Time} {id : Bytes} {attempt : Int} {row : CommandRow}
    (h : fenced now id attempt row) :
    row.status = .created ∧ (row.dispatchAttempts : Int) = attempt ∧ now < row.nextDispatchAt := by
  simp only [fenced, Bool.and_eq_true, beq_iff_eq, decide_eq_true_eq] at h
  exact ⟨h.1.1.2, h.1.2, h.2⟩

/-- Every transition keeps the events bounded. -/
theorem transition_logged {label : Label} {view after : View} (h : Transition label view after)
    (hlogged : Logged view) : Logged after := by
  obtain ⟨hrequeued, hdelivered, hended⟩ := hlogged
  cases h with
  | create hstatus =>
      constructor <;>
        simp [viewStatus, undelivered, unfinished, hstatus, CommandEvent.terminal]
  | claim h =>
      have hstatus := claimable_created h
      constructor <;>
        simp_all [viewStatus, undelivered, unfinished, claimedRow]
  | publish h =>
      have hstatus := (fenced_created h).1
      constructor <;>
        simp_all [viewStatus, undelivered, unfinished, CommandEvent.terminal, List.count_append,
          List.countP_append]
  | reschedule h =>
      have hstatus := (fenced_created h).1
      constructor <;>
        simp_all [viewStatus, undelivered, unfinished]
  | deliver h =>
      rcases h with h | h <;> constructor <;>
        simp_all [viewStatus, undelivered, unfinished, CommandEvent.terminal, List.count_append,
          List.countP_append]
      omega
  | requeue h =>
      constructor <;>
        simp_all [viewStatus, undelivered, unfinished, CommandEvent.terminal, List.count_append,
          List.countP_append, requeuedRow]
  | expire h =>
      simp only [expirable, Bool.and_eq_true, beq_iff_eq] at h
      constructor <;>
        simp_all [viewStatus, undelivered, unfinished, CommandEvent.terminal, List.count_append,
          List.countP_append, endedRow]
  | exhaust h =>
      simp only [exhausted, Bool.and_eq_true, Bool.or_eq_true, beq_iff_eq] at h
      rcases h.2 with h | h <;> constructor <;>
        simp_all [viewStatus, undelivered, unfinished, CommandEvent.terminal, List.count_append,
          List.countP_append, endedRow]
      omega
  | @acknowledge row acks log now next event result ack hopen hnext hresult =>
      cases hstatus : row.status <;> simp [hstatus, CommandStatus.terminal] at hopen <;>
        rcases hnext with ⟨rfl, rfl⟩ | ⟨rfl, rfl⟩ <;> constructor <;>
        simp_all [viewStatus, undelivered, unfinished, CommandEvent.terminal, List.count_append,
          List.countP_append] <;> omega

/-- Attempts, claims and published events of a command fit together. -/
structure Counted (focus : Focus) : Prop where
  valid : focus.view.Valid
  logged : Logged focus.view
  claimed : focus.claims.length = attempts focus.view
  bounded : attempts focus.view ≤ maxDispatchAttempts
  published : focus.view.log.count .published + focus.held.length ≤ attempts focus.view

/-- Nobody but a dispatcher changes the attempts of a command or publishes it. -/
theorem foreign_attempts {label : Label} {view after : View} (h : Transition label view after)
    (hforeign : Label.isForeign label) :
    attempts after = attempts view ∧
      after.log.count .published = view.log.count .published := by
  cases h with
  | create hstatus hattempts => simp [attempts, hattempts]
  | claim h | publish h | reschedule h => simp [Label.isForeign] at hforeign
  | deliver h | requeue h | expire h | exhaust h =>
      simp [attempts, List.count_append, requeuedRow, endedRow]
  | acknowledge hopen hnext hresult =>
      rcases hnext with ⟨_, rfl⟩ | ⟨_, rfl⟩ <;> simp [attempts, List.count_append]

/-- A completion publishes at most once and keeps the attempts. -/
theorem completion_attempts {label : Label} {view after : View} {now : Time} {attempt : Int}
    (h : Transition label view after)
    (hlabel : label = .publish now attempt ∨
      ∃ retryAfter, label = .reschedule now retryAfter attempt) :
    attempts after = attempts view ∧
      after.log.count .published ≤ view.log.count .published + 1 := by
  rcases hlabel with rfl | ⟨retryAfter, rfl⟩
  · cases h with
    | publish h => simp [attempts, List.count_append]
  · cases h with
    | reschedule h => simp [attempts]

/-- A claim that is let go of shortens the list of claims held. -/
theorem length_lt_of_gone {held held' : List Claim} {claim : Claim} (hholds : claim ∈ held)
    (hheld : held'.Sublist held) (hgone : claim ∉ held') : held'.length + 1 ≤ held.length := by
  rcases Nat.lt_or_ge held'.length held.length with hlt | hge
  · exact hlt
  · rw [hheld.eq_of_length_le hge] at hgone
    exact absurd hholds hgone

/-- Every step keeps the counts. -/
theorem focus_counted {id : Bytes} {focus after : Focus} (h : FocusStep id focus after)
    (hcounted : Counted focus) : Counted after := by
  obtain ⟨hvalid, hlogged, hclaimed, hbounded, hpublished⟩ := hcounted
  cases h with
  | idle hheld =>
      have hlength := hheld.length_le
      exact ⟨hvalid, hlogged, hclaimed, hbounded, by dsimp only at hpublished ⊢; omega⟩
  | @claim row acks log clock held claims completed now claim h hclaim =>
      have htransition : Transition (.claim now claim.lease) ⟨some row, acks, log⟩ _ := .claim h
      have hlimit : row.dispatchAttempts < maxDispatchAttempts := by
        simp only [claimable, Bool.and_eq_true, decide_eq_true_eq] at h
        exact h.2
      simp only [attempts, Option.map_some, Option.getD_some] at hclaimed hbounded hpublished
      refine ⟨transition_valid htransition hvalid, transition_logged htransition hlogged, ?_, ?_,
        ?_⟩
      · simp [attempts, claimedRow, hclaimed]
      · simpa [attempts, claimedRow] using Nat.succ_le_of_lt hlimit
      · simp only [attempts, claimedRow, Option.map_some, Option.getD_some, List.length_cons]
        omega
  | complete hholds hheld hgone hfenced hlabel htransition =>
      obtain ⟨hattempts, hcount⟩ := completion_attempts htransition hlabel
      have hlength := length_lt_of_gone hholds hheld hgone
      refine ⟨transition_valid htransition hvalid, transition_logged htransition hlogged, ?_, ?_,
        ?_⟩
      · rw [hattempts]
        exact hclaimed
      · rw [hattempts]
        exact hbounded
      · rw [hattempts]
        dsimp only at hpublished hcount ⊢
        omega
  | foreign hforeign htransition =>
      obtain ⟨hattempts, hcount⟩ := foreign_attempts htransition hforeign
      refine ⟨transition_valid htransition hvalid, transition_logged htransition hlogged, ?_, ?_,
        ?_⟩
      · rw [hattempts]
        exact hclaimed
      · rw [hattempts]
        exact hbounded
      · rw [hattempts, hcount]
        exact hpublished

/-- The counts hold in every state a system reaches. -/
theorem run_counted (go : GoRuntime) (pg : Postgres) (clock : Time) (actions : List Action)
    (id : Bytes) :
    Counted ((run (System.step go pg) (.initial clock) actions).focus id) := by
  refine run_invariant (fun sys : System => ∀ id, Counted (sys.focus id)) ?_ ?_ actions id
  · intro sys action h id
    exact focus_counted (step_focus go pg sys action id) (h id)
  · intro id
    rw [initial_focus]
    refine ⟨?_, ⟨?_, ?_, ?_⟩, ?_, ?_, ?_⟩
    · intro row hrow
      simp at hrow
    all_goals simp [viewStatus, undelivered, unfinished, attempts]

/-- The statements that act on a command nobody else takes care of. -/
inductive Repair where
  | claim
  | requeue
  | fail
  | expire
  deriving DecidableEq, Repr

/-- The statement selects the row, at a time of the database and of the process that scans. -/
def Repair.enabled (dbNow appNow timeout grace : Time) (row : CommandRow) : Repair → Bool
  | .claim => claimable dbNow row
  | .requeue => requeueable (appNow - timeout) maxDispatchAttempts row
  | .fail => exhausted dbNow (appNow - timeout) maxDispatchAttempts row
  | .expire => expirable appNow grace row

/-- The times a command waits for have passed: its next dispatch, the timeout since its last
change, and its deadline or, without one, the grace since its last change. -/
def Overdue (dbNow appNow timeout grace : Time) (row : CommandRow) : Prop :=
  row.nextDispatchAt ≤ dbNow ∧ row.updatedAt + timeout ≤ appNow ∧
    (∀ deadline ∈ row.deadlineAt, deadline ≤ appNow) ∧
    (row.deadlineAt = none → row.updatedAt + grace ≤ appNow)

instance (dbNow appNow timeout grace : Time) (row : CommandRow) :
    Decidable (Overdue dbNow appNow timeout grace row) :=
  inferInstanceAs (Decidable (_ ∧ _ ∧ _ ∧ _))

/-- The repair that is due for a command that has not ended. -/
def due (row : CommandRow) : Repair :=
  if row.status = .sent then .expire
  else if row.dispatchAttempts ≥ maxDispatchAttempts then .fail
  else if row.status = .published then .requeue
  else .claim

/-- An overdue command that has not ended is selected by the statement that is due, and by no
other. -/
theorem enabled_iff_due {dbNow appNow timeout grace : Time} {row : CommandRow}
    (hopen : row.status.terminal = false) (hsent : row.status = .sent → row.deadlineAt.isSome)
    (hoverdue : Overdue dbNow appNow timeout grace row) (repair : Repair) :
    repair.enabled dbNow appNow timeout grace row ↔ repair = due row := by
  obtain ⟨hdispatch, hupdated, hdeadlines, _⟩ := hoverdue
  have hstale : row.updatedAt ≤ appNow - timeout := Int.le_sub_right_of_add_le hupdated
  cases hstatus : row.status with
  | created | published =>
      rcases Nat.lt_or_ge row.dispatchAttempts maxDispatchAttempts with hleft | hnone
      · have hnot : ¬ maxDispatchAttempts ≤ row.dispatchAttempts := by omega
        cases repair <;>
          simp [Repair.enabled, due, claimable, requeueable, exhausted, expirable, hstatus, hstale,
            hdispatch, hleft, hnot]
      · have hnot : ¬ row.dispatchAttempts < maxDispatchAttempts := by omega
        cases repair <;>
          simp [Repair.enabled, due, claimable, requeueable, exhausted, expirable, hstatus, hstale,
            hdispatch, hnone, hnot]
  | sent =>
      obtain ⟨deadline, hdeadline⟩ := Option.isSome_iff_exists.mp (hsent hstatus)
      have hpast := hdeadlines deadline hdeadline
      cases repair <;>
        simp [Repair.enabled, due, claimable, requeueable, exhausted, expirable, hstatus,
          hdeadline, hpast]
  | acked | failed | timeout => simp [hstatus, CommandStatus.terminal] at hopen

/-- Exactly one repair applies to an overdue command that has not ended. -/
theorem repair_unique {dbNow appNow timeout grace : Time} {row : CommandRow}
    (hopen : row.status.terminal = false) (hsent : row.status = .sent → row.deadlineAt.isSome)
    (hoverdue : Overdue dbNow appNow timeout grace row) :
    ∃! repair : Repair, repair.enabled dbNow appNow timeout grace row := by
  refine ⟨due row, (enabled_iff_due hopen hsent hoverdue _).mpr rfl, ?_⟩
  intro other hother
  exact (enabled_iff_due hopen hsent hoverdue other).mp hother

/-- How many repairs a command can still need. -/
def rank (row : CommandRow) : Nat :=
  match row.status with
  | .created => 2 * (maxDispatchAttempts - row.dispatchAttempts) + 1
  | .published => 2 * (maxDispatchAttempts - row.dispatchAttempts) + 2
  | .sent => 1
  | _ => 0

/-- A command without rank has ended. -/
theorem terminal_of_rank {row : CommandRow} (h : rank row = 0) : row.status.terminal := by
  cases hstatus : row.status <;> simp [rank, hstatus] at h <;> rfl

/-- A command that has ended has no rank. -/
theorem rank_of_terminal {row : CommandRow} (h : row.status.terminal) : rank row = 0 := by
  cases hstatus : row.status <;> simp [hstatus, CommandStatus.terminal] at h <;>
    simp [rank, hstatus]

/-- A claim uses up an attempt. -/
theorem rank_claimed {now lease : Time} {row : CommandRow} (h : claimable now row) :
    rank (claimedRow now lease row) < rank row := by
  have hstatus := claimable_created h
  simp only [claimable, Bool.and_eq_true, decide_eq_true_eq] at h
  have hlimit := h.2
  simp only [rank, claimedRow, hstatus]
  omega

/-- A requeued command is one step nearer to its end. -/
theorem rank_requeued {now next staleBefore : Time} {maxAttempts : Int} {row : CommandRow}
    (h : requeueable staleBefore maxAttempts row) : rank (requeuedRow now next row) < rank row := by
  simp only [requeueable, Bool.and_eq_true, beq_iff_eq] at h
  simp [rank, requeuedRow, h.1.1]

/-- A command that ends loses its rank. -/
theorem rank_ended {now : Time} {status : CommandStatus} {row : CommandRow}
    (hstatus : status.terminal) (hopen : row.status.terminal = false) :
    rank (endedRow status now row) < rank row := by
  have hzero : rank (endedRow status now row) = 0 := by
    cases status <;> simp [CommandStatus.terminal] at hstatus <;> rfl
  rw [hzero]
  cases hrow : row.status <;> simp [rank, hrow, CommandStatus.terminal] at hopen ⊢

/-- A row that a scan ends has not ended before. -/
theorem expirable_open {now grace : Time} {row : CommandRow} (h : expirable now grace row) :
    row.status.terminal = false := by
  simp only [expirable, Bool.and_eq_true, beq_iff_eq] at h
  simp [h.1, CommandStatus.terminal]

/-- A row without attempts left that a scan ends has not ended before. -/
theorem exhausted_open {now staleBefore : Time} {maxAttempts : Int} {row : CommandRow}
    (h : exhausted now staleBefore maxAttempts row) : row.status.terminal = false := by
  simp only [exhausted, Bool.and_eq_true, Bool.or_eq_true, beq_iff_eq] at h
  rcases h.2 with h | h <;> simp [h.1, CommandStatus.terminal]

/-- The repairs all commands together can still need. -/
def totalRank (db : Db) : Nat := db.commands.total rank

section Rounds

variable (go : GoRuntime) (pg : Postgres) (timeout grace lease : Time)

/-- The operation of a repair, when no row is locked. A dispatcher claims one command at a time. -/
def Repair.op (dbNow appNow : Time) : Repair → Op
  | .claim => .claimCommandsForDispatch dbNow lease 1 []
  | .requeue => .recoverStaleRequeue dbNow (appNow - timeout) maxDispatchAttempts []
  | .fail => .recoverStaleFail dbNow (appNow - timeout) maxDispatchAttempts []
  | .expire => .expireCommands appNow grace []

/-- The tables after a repair. -/
def Repair.apply (dbNow appNow : Time) (db : Db) (repair : Repair) : Db :=
  Store.step go pg db (repair.op timeout grace lease dbNow appNow)

/-- A round: `scanCommands` and then one claim of `dispatchPending`. -/
def round (db : Db) (times : Time × Time) : Db :=
  run (Repair.apply go pg timeout grace lease times.1 times.2) db [.requeue, .fail, .expire, .claim]

/-- A statement that selects by a predicate and lowers the rank of what it selects. -/
theorem selected_rank (db : Db) (where? : CommandRow → Bool) (set : CommandRow → CommandRow)
    (hset : ∀ row, (set row).id = row.id) (event : Option CommandEvent) {limit : Nat}
    (hlimit : 0 < limit) (hrank : ∀ row, where? row → rank (set row) < rank row) :
    let after := db.updateCommands
      (fun row => (selectForUpdate pg db where? limit []).contains row.id) set hset event
    ((∃ row ∈ db.commands.rows, where? row) → totalRank after < totalRank db) ∧
      ((∀ row ∈ db.commands.rows, where? row = false) → after.commands = db.commands) := by
  have hselected : ∀ row ∈ db.commands.rows,
      (selectForUpdate pg db where? limit []).contains row.id → where? row := by
    intro row hrow h
    exact selected_where pg ((db.commands.find?_eq_some_iff row.id row).mpr ⟨hrow, rfl⟩) h
  refine ⟨?_, ?_⟩
  · rintro ⟨row, hrow, hwhere⟩
    have hne : db.commands.select (fun row => where? row && !([] : List Bytes).contains row.id)
        (createdBefore pg) limit ≠ [] :=
      Table.select_ne_nil hlimit hrow (by simpa using hwhere)
    obtain ⟨first, hfirst⟩ := List.exists_mem_of_ne_nil _ hne
    refine Table.total_update_lt _ _ _ hset _ (fun other hother h => hrank other
      (hselected other hother h)) (Table.mem_of_mem_select hfirst).1 ?_
    rw [List.contains_iff_mem]
    exact List.mem_map_of_mem hfirst
  · intro hnone
    refine Table.update_eq_self _ _ _ hset fun row hrow => ?_
    cases h : (selectForUpdate pg db where? limit []).contains row.id with
    | false => rfl
    | true => simpa [hnone row hrow] using hselected row hrow h

/-- A repair lowers the total rank if some row needs it, and changes no row otherwise. -/
theorem apply_rank (dbNow appNow : Time) (db : Db) (repair : Repair) :
    ((∃ row ∈ db.commands.rows, repair.enabled dbNow appNow timeout grace row) →
      totalRank (repair.apply go pg timeout grace lease dbNow appNow db) < totalRank db) ∧
    ((∀ row ∈ db.commands.rows, repair.enabled dbNow appNow timeout grace row = false) →
      (repair.apply go pg timeout grace lease dbNow appNow db).commands = db.commands) := by
  cases repair with
  | claim =>
      exact selected_rank pg db (claimable dbNow) (claimedRow dbNow lease) _ none (by decide)
        fun row h => rank_claimed h
  | requeue =>
      exact selected_rank pg db _ (requeuedRow dbNow dbNow) _ (some .requeued) (by decide)
        fun row h => rank_requeued h
  | fail =>
      exact selected_rank pg db _ (endedRow .failed dbNow) _ (some .failed) (by decide)
        fun row h => rank_ended rfl (exhausted_open h)
  | expire =>
      exact selected_rank pg db _ (endedRow .timeout appNow) _ (some .timeout) (by decide)
        fun row h => rank_ended rfl (expirable_open h)

/-- A run of repairs of which one is needed lowers the total rank. -/
theorem repairs_rank (dbNow appNow : Time) (db : Db) (repairs : List Repair) :
    totalRank (run (Repair.apply go pg timeout grace lease dbNow appNow) db repairs) ≤
        totalRank db ∧
      ((∃ repair ∈ repairs, ∃ row ∈ db.commands.rows,
        repair.enabled dbNow appNow timeout grace row) →
        totalRank (run (Repair.apply go pg timeout grace lease dbNow appNow) db repairs) <
          totalRank db) := by
  induction repairs generalizing db with
  | nil => simp
  | cons repair rest ih =>
      obtain ⟨hle, hlt⟩ := ih (repair.apply go pg timeout grace lease dbNow appNow db)
      obtain ⟨hneeded, hidle⟩ := apply_rank go pg timeout grace lease dbNow appNow db repair
      rw [run_cons]
      by_cases henabled : ∃ row ∈ db.commands.rows, repair.enabled dbNow appNow timeout grace row
      · have hfirst := hneeded henabled
        exact ⟨by omega, fun _ => by omega⟩
      · -- the repair changes no row, so the rest of the run sees the same rows
        have hsame := hidle fun row hrow => by
          by_contra hrepair
          exact henabled ⟨row, hrow, by simpa using hrepair⟩
        have hrank : totalRank (repair.apply go pg timeout grace lease dbNow appNow db) =
            totalRank db := by rw [totalRank, hsame, totalRank]
        refine ⟨by omega, ?_⟩
        rintro ⟨other, hother, row, hrow, hrepair⟩
        rw [List.mem_cons] at hother
        rcases hother with rfl | hother
        · exact absurd ⟨row, hrow, hrepair⟩ henabled
        · rw [← hrank]
          exact hlt ⟨other, hother, row, by rwa [hsame], hrepair⟩

/-- Every command that has not ended is overdue. -/
def Late (timeout grace : Time) (db : Db) (times : Time × Time) : Prop :=
  ∀ row ∈ db.commands.rows, row.status.terminal = false →
    Overdue times.1 times.2 timeout grace row

instance (timeout grace : Time) (db : Db) (times : Time × Time) :
    Decidable (Late timeout grace db times) :=
  inferInstanceAs (Decidable (∀ row ∈ db.commands.rows, _))

/-- A late round lowers the total rank until nothing is left to do. -/
theorem round_rank {db : Db} {times : Time × Time} (hvalid : ∀ id, (db.view id).Valid)
    (hlate : Late timeout grace db times) (hopen : ∃ row ∈ db.commands.rows,
      row.status.terminal = false) :
    totalRank (round go pg timeout grace lease db times) < totalRank db := by
  obtain ⟨row, hrow, hstatus⟩ := hopen
  refine (repairs_rank go pg timeout grace lease times.1 times.2 db _).2
    ⟨due row, ?_, row, hrow, ?_⟩
  · cases due row <;> simp
  · have hfind := (db.commands.find?_eq_some_iff row.id row).mpr ⟨hrow, rfl⟩
    have hsent : row.status = .sent → row.deadlineAt.isSome := fun hsent =>
      ((hvalid row.id row hfind).delivered (Or.inl hsent)).1
    exact (enabled_iff_due hstatus hsent (hlate row hrow hstatus) _).mpr rfl

/-- Late rounds end every command, in at most as many rounds as the total rank. -/
theorem rounds_end {db : Db} (hvalid : ∀ id, (db.view id).Valid) (rounds : List (Time × Time))
    (hlate : Along (round go pg timeout grace lease) (Late timeout grace) db rounds)
    (hlength : totalRank db ≤ rounds.length) :
    ∀ row ∈ (run (round go pg timeout grace lease) db rounds).commands.rows,
      row.status.terminal := by
  induction rounds generalizing db with
  | nil =>
      intro row hrow
      have hzero : totalRank db = 0 := by simpa using hlength
      have hrank := List.sum_eq_zero_iff.mp hzero (rank row) (List.mem_map_of_mem hrow)
      exact terminal_of_rank hrank
  | cons times rest ih =>
      rw [run_cons]
      have hkept : ∀ id, ((round go pg timeout grace lease db times).view id).Valid :=
        run_invariant (fun db : Db => ∀ id, (db.view id).Valid)
          (fun db repair h => step_valid go pg db _ h) hvalid _
      refine ih hkept hlate.2 ?_
      by_cases hopen : ∃ row ∈ db.commands.rows, row.status.terminal = false
      · have hlt := round_rank go pg timeout grace lease hvalid hlate.1 hopen
        simp only [List.length_cons] at hlength
        omega
      · have hzero : totalRank db = 0 := by
          refine List.sum_eq_zero fun value hvalue => ?_
          obtain ⟨row, hrow, rfl⟩ := List.mem_map.mp hvalue
          refine rank_of_terminal ?_
          by_contra hterminal
          exact hopen ⟨row, hrow, by simpa using hterminal⟩
        have hle := (repairs_rank go pg timeout grace lease times.1 times.2 db
          [.requeue, .fail, .expire, .claim]).1
        rw [round]
        omega

end Rounds

/-- In every state a system reaches, a command has been claimed as often as its attempts say and
at most `maxDispatchAttempts` times; it was published no more often than that, requeued no more
often than published, delivered at most once and ended at most once. While it has not ended,
exactly one repair applies to it once it is overdue, and late rounds of scans and claims alone
end every command. -/
theorem bounded_redelivery (go : GoRuntime) (pg : Postgres) (clock : Time)
    (actions : List Action) (id : Bytes) (row : CommandRow)
    (h : (run (System.step go pg) (.initial clock) actions).db.commands.find? id = some row) :
    let sys := run (System.step go pg) (.initial clock) actions
    let log := (sys.db.view id).log
    (row.dispatchAttempts = (sys.history.filter fun claim => claim.id = id).length ∧
      row.dispatchAttempts ≤ maxDispatchAttempts) ∧
    log.count .published ≤ maxDispatchAttempts ∧
    log.count .requeued ≤ log.count .published ∧
    log.count .delivered ≤ 1 ∧
    log.countP CommandEvent.terminal ≤ 1 ∧
    (∀ dbNow appNow timeout grace, row.status.terminal = false →
      Overdue dbNow appNow timeout grace row →
      ∃! repair : Repair, repair.enabled dbNow appNow timeout grace row) ∧
    (∀ timeout grace lease rounds,
      Along (round go pg timeout grace lease) (Late timeout grace) sys.db rounds →
      totalRank sys.db ≤ rounds.length →
      ∀ other ∈ (run (round go pg timeout grace lease) sys.db rounds).commands.rows,
        other.status.terminal) := by
  intro sys log
  have hcounted := run_counted go pg clock actions
  obtain ⟨hvalid, hlogged, hclaimed, hbounded, hpublished⟩ := hcounted id
  have hattempts : attempts (sys.focus id).view = row.dispatchAttempts := by
    simp [attempts, System.focus, sys, h]
  rw [hattempts] at hclaimed hbounded hpublished
  have hrequeued := hlogged.requeued
  have hdelivered := hlogged.delivered
  have hended := hlogged.ended
  refine ⟨⟨hclaimed.symm, hbounded⟩, ?_, ?_, ?_, ?_, ?_, ?_⟩
  · exact (Nat.le_of_add_right_le hpublished).trans hbounded
  · exact Nat.le_of_add_right_le hrequeued
  · exact Nat.le_of_add_right_le hdelivered
  · exact Nat.le_of_add_right_le hended
  · intro dbNow appNow timeout grace hopen hoverdue
    refine repair_unique hopen (fun hsent => ?_) hoverdue
    exact ((hvalid row h).delivered (Or.inl hsent)).1
  · intro timeout grace lease rounds hlate hlength
    exact rounds_end go pg timeout grace lease (fun other => (hcounted other).valid) rounds hlate
      hlength

/-- A command that a dispatcher claimed and published, and that nobody has delivered. -/
def publishedRun : List Action :=
  [.registerDevice (ascii "t") (ascii "d"),
    .create (ascii "t") (ascii "d") [] [] (.ok (ascii "c")) 0,
    .claim 0 10 30 [],
    .complete 0 20 true]

/-- The row at the end of `publishedRun`. -/
def publishedRow : CommandRow :=
  { newCommandRow (ascii "t") (ascii "d") [] (ascii "\x7b\x7d") (ascii "c") 0 with
    status := .published, dispatchAttempts := 1, nextDispatchAt := 40, updatedAt := 20 }

theorem bounded_redelivery_published :
    (run (System.step .plain .plain) (.initial 0) publishedRun).db.commands.find? (ascii "c") =
      some publishedRow ∧
    (∃! repair : Repair, repair.enabled 90 90 50 50 publishedRow) ∧
    ∀ other ∈ (run (round .plain .plain 50 50 30)
        (run (System.step .plain .plain) (.initial 0) publishedRun).db
        ((List.range 20).map fun n => (100 * (n + 1), 100 * (n + 1)))).commands.rows,
      other.status.terminal := by
  have hrow : (run (System.step .plain .plain) (.initial 0) publishedRun).db.commands.find?
      (ascii "c") = some publishedRow := by decide +kernel
  obtain ⟨_, _, _, _, _, hunique, hrounds⟩ :=
    bounded_redelivery .plain .plain 0 publishedRun (ascii "c") publishedRow hrow
  refine ⟨hrow, hunique 90 90 50 50 rfl (by decide), hrounds 50 50 30 _ ?_ ?_⟩
  · decide +kernel
  · decide +kernel

end Iot.Dispatch
