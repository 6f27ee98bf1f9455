import Iot.Store.Commands

/-!
# The lifecycle of one command

The tables seen from one command are its row, its acknowledgements and its audit log (`View`).
`Transition` is the lifecycle: what may happen to a command, whatever the other commands do.
`step_refines` connects it to the store: every operation leaves the view of a command as it is or
takes the one transition of its lifecycle that the operation stands for.
-/

namespace Iot.Store

open Text Contracts Platform Data

/-- What the tables hold about one command. -/
structure View where
  row : Option CommandRow
  acks : List AckRow
  log : List CommandEvent

/-- The view of a command id. -/
def Db.view (db : Db) (id : Bytes) : View where
  row := db.commands.find? id
  acks := db.acks.filter fun ack => ack.commandID = id
  log := (db.events.filter fun event => event.commandID = id).map EventRow.eventType

/-- What a statement does to the view of one command. -/
def View.update (view : View) (where? : CommandRow → Bool) (set : CommandRow → CommandRow)
    (event : Option CommandEvent) : View :=
  match view.row with
  | none => view
  | some row =>
      if where? row then ⟨some (set row), view.acks, view.log ++ event.toList⟩ else view

/-- A view with its row written out. -/
theorem view_eq {db : Db} {id : Bytes} {row : Option CommandRow}
    (h : db.commands.find? id = row) : db.view id = ⟨row, (db.view id).acks, (db.view id).log⟩ := by
  subst h
  rfl

@[simp] theorem view_row (db : Db) (id : Bytes) : (db.view id).row = db.commands.find? id := rfl

/-- A command that does not exist has neither acknowledgements nor events. -/
theorem view_absent (db : Db) (id : Bytes) (h : db.commands.find? id = none) :
    db.view id = ⟨none, [], []⟩ := by
  have hacks : (db.acks.filter fun ack => ack.commandID = id) = [] := by
    rw [List.filter_eq_nil_iff]
    intro ack hack hid
    have hfound := db.acksReference ack hack
    simp_all
  have hevents : (db.events.filter fun event => event.commandID = id) = [] := by
    rw [List.filter_eq_nil_iff]
    intro event hevent hid
    have hfound := db.eventsReference event hevent
    simp_all
  simp [Db.view, h, hacks, hevents]

/-- The events a statement writes for one id. -/
theorem events_of_id (table : Table CommandRow.id) (where? : CommandRow → Bool)
    (event : Option CommandEvent) (id : Bytes) :
    (((table.rows.filter where?).flatMap fun row =>
        event.toList.map fun e => EventRow.mk row.id e).filter
          fun e => e.commandID = id).map EventRow.eventType =
      ((table.find? id).toList.filter where?).flatMap fun _ => event.toList := by
  rw [← table.filter_key id]
  induction table.rows with
  | nil => rfl
  | cons row rest ih =>
      cases event with
      | none =>
          have hnil : ∀ rows : List CommandRow, (rows.flatMap fun _ => ([] : List EventRow)) = [] :=
            fun rows => by simp
          simp [hnil]
      | some e =>
          by_cases hwhere : where? row <;> by_cases hid : row.id = id <;> simp_all

/-- A statement acts on each command by itself. -/
theorem view_updateCommands (db : Db) (where? : CommandRow → Bool) (set : CommandRow → CommandRow)
    (hset : ∀ row, (set row).id = row.id) (event : Option CommandEvent) (id : Bytes) :
    (db.updateCommands where? set hset event).view id =
      (db.view id).update where? set event := by
  have hevents := events_of_id db.commands where? event id
  cases hrow : db.commands.find? id with
  | none =>
      simp only [hrow] at hevents
      simp [Db.view, Db.updateCommands, View.update, Table.find?_update, hrow, hevents]
  | some row =>
      simp only [hrow] at hevents
      by_cases hwhere : where? row
      · simp [Db.view, Db.updateCommands, View.update, Table.find?_update, hrow, hevents, hwhere]
      · simp [Db.view, Db.updateCommands, View.update, Table.find?_update, hrow, hevents, hwhere]

/-- The view after a new command. -/
theorem view_insertCommand (db : Db) (row : CommandRow) (h : db.commands.find? row.id = none)
    (id : Bytes) :
    (db.insertCommand row h).view id =
      if row.id = id then ⟨some row, [], [.created]⟩ else db.view id := by
  by_cases hid : row.id = id
  · subst hid
    have habsent := view_absent db row.id h
    simp only [Db.view, View.mk.injEq] at habsent
    simp [Db.view, Db.insertCommand, Table.find?_insert, habsent]
  · simp [Db.view, Db.insertCommand, Table.find?_insert, hid]

/-- The view after an acknowledgement row. -/
theorem view_insertAck (db : Db) (ack : AckRow) (h : (db.commands.find? ack.commandID).isSome)
    (id : Bytes) :
    (db.insertAck ack h).view id =
      { db.view id with
        acks := (db.view id).acks ++ if ack.commandID = id then [ack] else [] } := by
  by_cases hid : ack.commandID = id <;> simp [Db.view, Db.insertAck, hid]

/-- A statement leaves a view as it is, or changes its row and adds its event. -/
theorem update_cases (view : View) (where? : CommandRow → Bool) (set : CommandRow → CommandRow)
    (event : Option CommandEvent) :
    view.update where? set event = view ∨
      ∃ row, view.row = some row ∧ where? row ∧
        view.update where? set event = ⟨some (set row), view.acks, view.log ++ event.toList⟩ := by
  cases hrow : view.row with
  | none => exact Or.inl (by simp [View.update, hrow])
  | some row =>
      by_cases hwhere : where? row
      · exact Or.inr ⟨row, rfl, hwhere, by simp [View.update, hrow, hwhere]⟩
      · exact Or.inl (by simp [View.update, hrow, hwhere])

/-- What happens to a command in one transition, with the times it depends on. -/
inductive Label where
  | create
  | claim (now lease : Time)
  | publish (now : Time) (attempt : Int)
  | reschedule (now retryAfter : Time) (attempt : Int)
  | deliver (now deadline : Time)
  | requeue (now next : Time)
  | expire (now grace : Time)
  | exhaust (now staleBefore : Time) (maxAttempts : Int)
  | acknowledge (now : Time)

/-- The lifecycle of a command. -/
inductive Transition : Label → View → View → Prop where
  /-- The command is created. -/
  | create {row : CommandRow} (hstatus : row.status = .created)
      (hattempts : row.dispatchAttempts = 0) (hdeadline : row.deadlineAt = none)
      (hresult : row.result = none) :
      Transition .create ⟨none, [], []⟩ ⟨some row, [], [.created]⟩
  /-- A dispatcher claims it. -/
  | claim {row : CommandRow} {acks : List AckRow} {log : List CommandEvent} {now lease : Time}
      (h : claimable now row) :
      Transition (.claim now lease) ⟨some row, acks, log⟩
        ⟨some (claimedRow now lease row), acks, log⟩
  /-- The holder of the last claim completes it in time. -/
  | publish {row : CommandRow} {acks : List AckRow} {log : List CommandEvent} {now : Time}
      {attempt : Int} (h : fenced now row.id attempt row) :
      Transition (.publish now attempt) ⟨some row, acks, log⟩
        ⟨some { row with status := .published, updatedAt := now }, acks, log ++ [.published]⟩
  /-- The holder of the last claim gives it back in time. -/
  | reschedule {row : CommandRow} {acks : List AckRow} {log : List CommandEvent}
      {now retryAfter : Time} {attempt : Int} (h : fenced now row.id attempt row) :
      Transition (.reschedule now retryAfter attempt) ⟨some row, acks, log⟩
        ⟨some { row with nextDispatchAt := now + retryAfter, updatedAt := now }, acks, log⟩
  /-- It has been delivered to the device. -/
  | deliver {row : CommandRow} {acks : List AckRow} {log : List CommandEvent}
      {now deadline : Time} (h : row.status = .created ∨ row.status = .published) :
      Transition (.deliver now deadline) ⟨some row, acks, log⟩
        ⟨some { row with status := .sent, deadlineAt := some deadline, updatedAt := now }, acks,
          log ++ [.delivered]⟩
  /-- It goes back to the queue. -/
  | requeue {row : CommandRow} {acks : List AckRow} {log : List CommandEvent} {now next : Time}
      (h : row.status = .published) :
      Transition (.requeue now next) ⟨some row, acks, log⟩
        ⟨some (requeuedRow now next row), acks, log ++ [.requeued]⟩
  /-- The device did not answer in time. -/
  | expire {row : CommandRow} {acks : List AckRow} {log : List CommandEvent} {now grace : Time}
      (h : expirable now grace row) :
      Transition (.expire now grace) ⟨some row, acks, log⟩
        ⟨some (endedRow .timeout now row), acks, log ++ [.timeout]⟩
  /-- No attempts are left. -/
  | exhaust {row : CommandRow} {acks : List AckRow} {log : List CommandEvent}
      {now staleBefore : Time} {maxAttempts : Int} (h : exhausted now staleBefore maxAttempts row) :
      Transition (.exhaust now staleBefore maxAttempts) ⟨some row, acks, log⟩
        ⟨some (endedRow .failed now row), acks, log ++ [.failed]⟩
  /-- The device reports its result. -/
  | acknowledge {row : CommandRow} {acks : List AckRow} {log : List CommandEvent} {now : Time}
      {next : CommandStatus} {event : CommandEvent} {result : CommandResult} {ack : AckRow}
      (hopen : row.status.terminal = false)
      (hnext : next = .acked ∧ event = .acked ∨ next = .failed ∧ event = .failed)
      (hresult : next.text = result.status) :
      Transition (.acknowledge now) ⟨some row, acks, log⟩
        ⟨some { row with status := next, updatedAt := now, result := some result }, acks ++ [ack],
          log ++ [event]⟩

/-- The transition an operation may take. -/
def Op.label : Op → Option Label
  | .registerDevice _ _ => none
  | .createCommandWithKey _ _ _ _ _ _ => some .create
  | .claimCommandsForDispatch now lease _ _ => some (.claim now lease)
  | .markCommandPublished now _ attempt => some (.publish now attempt)
  | .rescheduleCommand now _ attempt retryAfter => some (.reschedule now retryAfter attempt)
  | .markCommandSent now _ deadline => some (.deliver now deadline)
  | .requeueCommand now _ retryAfter => some (.requeue now (now + retryAfter))
  | .expireCommands now grace _ => some (.expire now grace)
  | .recoverStaleRequeue now _ _ _ => some (.requeue now now)
  | .recoverStaleFail now staleBefore maxAttempts _ => some (.exhaust now staleBefore maxAttempts)
  | .ackCommandResult _ _ _ _ now => some (.acknowledge now)

/-- Nothing happens, or one transition with the label. -/
def Refines (label : Option Label) (view after : View) : Prop :=
  after = view ∨ ∃ l, label = some l ∧ Transition l view after

/-- The view after a statement whose predicate allows a transition of the lifecycle. -/
theorem update_refines (label : Label) (view : View) (where? : CommandRow → Bool)
    (set : CommandRow → CommandRow) (event : Option CommandEvent)
    (h : ∀ row, view.row = some row → where? row →
      Transition label ⟨some row, view.acks, view.log⟩
        ⟨some (set row), view.acks, view.log ++ event.toList⟩) :
    Refines (some label) view (view.update where? set event) := by
  rcases update_cases view where? set event with hsame | ⟨row, hrow, hwhere, hview⟩
  · exact Or.inl hsame
  · right
    refine ⟨label, rfl, ?_⟩
    rw [hview]
    have htransition := h row hrow hwhere
    rwa [← hrow] at htransition

variable {go : GoRuntime} {pg : Postgres}

/-- What creating a command does to the tables. -/
theorem create_cases {tenantID deviceID key payload : Bytes} {newID : Except GoError Bytes}
    {now : Time} {db after : Db} {cmd : Command}
    (h : createCommandWithKey go pg tenantID deviceID key payload newID now db =
      .ok (cmd, after)) :
    after = db ∨ ∃ normalized id, newID = .ok id ∧
      validateCommandInput go tenantID deviceID normalized = .ok () ∧
      ∃ hnew : db.commands.find?
        (newCommandRow tenantID deviceID key normalized id now).id = none,
      after = db.insertCommand (newCommandRow tenantID deviceID key normalized id now) hnew := by
  simp only [createCommandWithKey, bind_eq_ok] at h
  obtain ⟨_, _, _, _, _, _, normalized, _, _, haccepted, id, hid, h⟩ := h
  cases howner : keyOwner db tenantID key with
  | some owner =>
      simp only [howner] at h
      split at h
      · left
        cases h
        rfl
      · cases h
  | none =>
      simp only [howner] at h
      split at h
      · right
        cases h
        exact ⟨normalized, id, hid, haccepted, ‹_›, rfl⟩
      · cases h

/-- A normalized result is the input with its payload filled in, and is `acked` or `failed`. -/
theorem normalize_status {input normalized : CommandResult}
    (h : normalizeCommandResult go input = .ok normalized) :
    normalized = { input with payload := orEmptyObject input.payload } ∧
      (input.status = CommandStatus.acked.text ∨ input.status = CommandStatus.failed.text) := by
  simp only [normalizeCommandResult, bind_eq_ok, returnIf_eq_ok] at h
  obtain ⟨_, hstatus, _, _, _, _, _, _, _, _, _, _, _, _, h⟩ := h
  cases h
  exact ⟨rfl, by tauto⟩

/-- The event a device reports, and the status it leads to from any open one. -/
theorem advance_acknowledged {status next : CommandStatus} {event : CommandEvent} {text : Bytes}
    (htext : text = CommandStatus.acked.text ∨ text = CommandStatus.failed.text)
    (hevent : commandEvent? text = some event) (h : advanceCommandStatus status event = .ok next) :
    (next = .acked ∧ event = .acked ∨ next = .failed ∧ event = .failed) ∧ next.text = text := by
  rcases htext with rfl | rfl
  · obtain rfl : event = .acked := Option.some.inj (hevent.symm.trans (by decide))
    cases status <;> simp_all [advanceCommandStatus]
  · obtain rfl : event = .failed := Option.some.inj (hevent.symm.trans (by decide))
    cases status <;> simp_all [advanceCommandStatus]

/-- What an acknowledgement does to the tables. -/
theorem ack_cases {id tenantID deviceID : Bytes} {input : CommandResult} {now : Time}
    {db after : Db} {cmd : Command}
    (h : ackCommandResult go pg id tenantID deviceID input now db = .ok (cmd, after)) :
    after = db ∨ ∃ row, ∃ hrow : db.commands.find? row.id = some row, ∃ next event result,
      row.status.terminal = false ∧
      (next = .acked ∧ event = .acked ∨ next = .failed ∧ event = .failed) ∧
      next.text = result.status ∧ after = db.acknowledge row hrow next event result now := by
  simp only [ackCommandResult, bind_eq_ok] at h
  obtain ⟨_, _, _, _, normalized, hnormalized, _, _, h⟩ := h
  obtain ⟨rfl, hstatus⟩ := normalize_status hnormalized
  split at h
  · cases h
  next row hfind =>
  split at h
  · cases h
  have hrow : db.commands.find? row.id = some row := by
    rw [Table.key_of_find? hfind]
    exact hfind
  unfold acknowledgeRow at h
  split at h
  · left
    split at h
    · cases h
      rfl
    · simp only [bind_eq_ok] at h
      obtain ⟨_, _, h⟩ := h
      split at h
      · cases h
        rfl
      · cases h
  next hopen =>
  right
  split at h
  · cases h
  next event hevent =>
  simp only [bind_eq_ok, storedResult] at h
  obtain ⟨next, hnext, result, ⟨payload, _, hresult⟩, h⟩ := h
  obtain ⟨hcase, htext⟩ := advance_acknowledged hstatus hevent hnext
  cases hresult
  cases h
  exact ⟨row, hrow, next, event, { input with payload := payload }, by simpa using hopen, hcase,
    htext, rfl⟩

/-- The view after an acknowledgement. -/
theorem view_acknowledge (db : Db) (row : CommandRow) (h : db.commands.find? row.id = some row)
    (next : CommandStatus) (event : CommandEvent) (result : CommandResult) (now : Time)
    (id : Bytes) :
    (db.acknowledge row h next event result now).view id =
      if row.id = id then
        ⟨some { row with status := next, updatedAt := now, result := some result },
          (db.view id).acks ++ [⟨row.id, row.tenantID, row.deviceID, result.status, result, now⟩],
          (db.view id).log ++ [event]⟩
      else db.view id := by
  rw [Db.acknowledge, view_updateCommands, view_insertAck]
  by_cases hid : row.id = id
  · subst hid
    simp [View.update, h]
  · rw [if_neg hid, if_neg hid, List.append_nil]
    cases hfind : db.commands.find? id with
    | none => simpa [View.update, hfind] using (view_eq hfind).symm
    | some other =>
        have hother : ¬ other.id = row.id := by
          rw [Table.key_of_find? hfind]
          exact fun heq => hid heq.symm
        simpa [View.update, hfind, hother] using (view_eq hfind).symm

/-- A batch update changes only rows that satisfy its predicate. -/
theorem selected_where (pg : Postgres) {db : Db} {where? : CommandRow → Bool} {limit : Nat}
    {locked : List Bytes} {id : Bytes} {row : CommandRow} (hrow : db.commands.find? id = some row)
    (h : (selectForUpdate pg db where? limit locked).contains row.id) : where? row := by
  have hmem := ((db.commands.find?_eq_some_iff id row).mp hrow).1
  rw [List.contains_iff_mem] at h
  have hselected := Table.where_of_key_mem_select hmem h
  simp only [Bool.and_eq_true] at hselected
  exact hselected.1

variable (go pg)

/-- A sweep takes a transition of the lifecycle of each command it changes. -/
theorem batch_refines (label : Label) (db : Db) (where? : CommandRow → Bool)
    (set : CommandRow → CommandRow) (hset : ∀ row, (set row).id = row.id) (event : CommandEvent)
    (locked : List Bytes) (id : Bytes)
    (h : ∀ row acks log, where? row →
      Transition label ⟨some row, acks, log⟩ ⟨some (set row), acks, log ++ [event]⟩) :
    Refines (some label) (db.view id)
      ((updateCommandBatch pg where? set hset event locked db).view id) := by
  rw [updateCommandBatch, view_updateCommands]
  exact update_refines _ _ _ _ _ fun row hrow hselected =>
    h row _ _ (selected_where pg hrow hselected)

/-- A claim of at most one command finds none and changes nothing, or claims one row that was
claimable and returns it. -/
theorem claim_one (now lease : Time) (locked : List Bytes) (db : Db) :
    ((claimCommandsForDispatch pg now lease 1 locked db).1 = [] ∧
      ∀ id, (claimCommandsForDispatch pg now lease 1 locked db).2.view id = db.view id) ∨
    ∃ row, db.commands.find? row.id = some row ∧ claimable now row ∧
      (claimCommandsForDispatch pg now lease 1 locked db).1 =
        [(claimedRow now lease row).command] ∧
      ∀ id, (claimCommandsForDispatch pg now lease 1 locked db).2.view id =
        if row.id = id then
          ⟨some (claimedRow now lease row), (db.view id).acks, (db.view id).log⟩
        else db.view id := by
  have hlimit : ¬ (1 : Int) < 1 := by omega
  simp only [claimCommandsForDispatch, if_neg hlimit]
  cases hselect : db.commands.select (fun row => claimable now row && !locked.contains row.id)
      (createdBefore pg) (1 : Int).toNat with
  | nil =>
      have hids : selectForUpdate pg db (claimable now) (1 : Int).toNat locked = [] := by
        rw [selectForUpdate, hselect]
        rfl
      left
      rw [hids]
      refine ⟨by simp, fun id => ?_⟩
      rw [view_updateCommands]
      cases hrow : db.commands.find? id <;> simp [View.update, hrow]
  | cons row rest =>
      -- at most one row is taken, so the ids claimed are that row's id
      have hrest : rest = [] := by
        have hlength : (row :: rest).length ≤ 1 := by
          rw [← hselect]
          exact List.length_take_le _ _
        simpa using hlength
      subst hrest
      obtain ⟨hmem, hwhere⟩ : row ∈ db.commands.rows ∧ _ :=
        Table.mem_of_mem_select (hselect ▸ List.mem_singleton_self row)
      have hfind := (db.commands.find?_eq_some_iff row.id row).mpr ⟨hmem, rfl⟩
      have hids : (fun other : CommandRow =>
          (selectForUpdate pg db (claimable now) (1 : Int).toNat locked).contains other.id) =
          fun other => decide (other.id = row.id) := by
        rw [selectForUpdate, hselect]
        funext other
        simp
      right
      simp only [Bool.and_eq_true] at hwhere
      refine ⟨row, hfind, hwhere.1, ?_, fun id => ?_⟩
      · rw [hids, Table.filter_key, hfind]
        rfl
      · rw [view_updateCommands, hids]
        by_cases hid : row.id = id
        · subst hid
          simp [View.update, hfind]
        · cases hother : db.commands.find? id with
          | none => simp [View.update, hother, hid]
          | some other =>
              have hne : ¬ other.id = row.id := by
                rw [Table.key_of_find? hother]
                exact fun heq => hid heq.symm
              simp [View.update, hother, hid, hne]

/-- A fenced row has the id it is looked up by. -/
theorem fenced_id {now : Time} {id : Bytes} {attempt : Int} {row : CommandRow}
    (h : fenced now id attempt row) : row.id = id := by
  simp only [fenced, Bool.and_eq_true, beq_iff_eq] at h
  exact h.1.1.1

/-- Every operation leaves a command as it is or takes one transition of its lifecycle. -/
theorem step_refines (db : Db) (op : Op) (id : Bytes) :
    Refines op.label (db.view id) ((step go pg db op).view id) := by
  cases op with
  | registerDevice tenantID deviceID => exact Or.inl rfl
  | createCommandWithKey tenantID deviceID key payload newID now =>
      simp only [step]
      cases hresult : createCommandWithKey go pg tenantID deviceID key payload newID now db with
      | error err => exact Or.inl rfl
      | ok value =>
          obtain ⟨cmd, after⟩ := value
          simp only [committed]
          rcases create_cases hresult with rfl | ⟨normalized, newId, _, _, hnew, rfl⟩
          · exact Or.inl rfl
          · rw [view_insertCommand]
            split
            · next hid =>
              subst hid
              rw [view_absent db _ hnew]
              exact Or.inr ⟨_, rfl, .create rfl rfl rfl rfl⟩
            · exact Or.inl rfl
  | claimCommandsForDispatch now lease limit locked =>
      simp only [step, claimCommandsForDispatch]
      split
      · exact Or.inl rfl
      · dsimp only
        rw [view_updateCommands]
        refine update_refines _ _ _ _ _ fun row hrow hselected => ?_
        rw [Option.toList_none, List.append_nil]
        exact .claim (selected_where pg hrow hselected)
  | markCommandPublished now commandID attempt =>
      simp only [step, markCommandPublished, view_updateCommands]
      refine update_refines _ _ _ _ _ fun row hrow hfenced => ?_
      obtain rfl := fenced_id hfenced
      exact .publish hfenced
  | rescheduleCommand now commandID attempt retryAfter =>
      simp only [step, rescheduleCommand, view_updateCommands]
      refine update_refines _ _ _ _ _ fun row hrow hfenced => ?_
      obtain rfl := fenced_id hfenced
      rw [Option.toList_none, List.append_nil]
      exact .reschedule hfenced
  | markCommandSent now commandID deadline =>
      simp only [step, markCommandSent, view_updateCommands]
      refine update_refines _ _ _ _ _ fun row hrow hwhere => ?_
      simp only [Bool.and_eq_true, Bool.or_eq_true, beq_iff_eq] at hwhere
      exact .deliver hwhere.2
  | requeueCommand now commandID retryAfter =>
      simp only [step, requeueCommand, view_updateCommands]
      refine update_refines _ _ _ _ _ fun row hrow hwhere => ?_
      simp only [Bool.and_eq_true, beq_iff_eq] at hwhere
      exact .requeue hwhere.2
  | expireCommands now grace locked =>
      exact batch_refines pg _ db _ _ _ _ locked id fun row acks log h => .expire h
  | recoverStaleRequeue now staleBefore maxAttempts locked =>
      refine batch_refines pg _ db _ _ _ _ locked id fun row acks log h => .requeue ?_
      simp only [requeueable, Bool.and_eq_true, beq_iff_eq] at h
      exact h.1.1
  | recoverStaleFail now staleBefore maxAttempts locked =>
      exact batch_refines pg _ db _ _ _ _ locked id fun row acks log h => .exhaust h
  | ackCommandResult commandID tenantID deviceID input now =>
      simp only [step]
      cases hresult : ackCommandResult go pg commandID tenantID deviceID input now db with
      | error err => exact Or.inl rfl
      | ok value =>
          obtain ⟨cmd, after⟩ := value
          simp only [committed]
          rcases ack_cases hresult with
            rfl | ⟨row, hrow, next, event, result, hopen, hnext, htext, rfl⟩
          · exact Or.inl rfl
          · rw [view_acknowledge]
            split
            · next hid =>
              subst hid
              right
              refine ⟨_, rfl, ?_⟩
              rw [view_eq hrow]
              exact .acknowledge hopen hnext htext
            · exact Or.inl rfl

end Iot.Store
