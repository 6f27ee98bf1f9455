import Iot.Store.RowInvariant

/-!
# The audit log of a command

`command_events` is an event log: `replay` computes from the events of a command the status it
ends in, and `legalFrom` checks that each event is a legal step from the status before it.
`transition_log` says which event a transition of the lifecycle writes, and everything else
follows from it: the log of every reachable command is legal and replays to its status
(`run_logged`), and an operation writes an event exactly for the commands whose status it changes
(`step_log`).
-/

namespace Iot.Store

open Text Contracts Platform Data Execution

/-- The status an event leads to. -/
def leadsTo : CommandEvent → CommandStatus
  | .created => .created
  | .published => .published
  | .delivered => .sent
  | .requeued => .created
  | .acked => .acked
  | .failed => .failed
  | .timeout => .timeout

/-- The steps of the lifecycle, with no status before the command is created. -/
def legal : Option CommandStatus → CommandEvent → Bool
  | none, event => event == .created
  | some _, .created => false
  | some status, .published => status == .created
  | some status, .delivered => status == .created || status == .published
  | some status, .requeued => status == .published
  | some status, .timeout => status == .sent
  | some status, .acked => !status.terminal
  | some status, .failed => !status.terminal

/-- The status after a log. -/
def replay : Option CommandStatus → List CommandEvent → Option CommandStatus
  | status, [] => status
  | _, event :: rest => replay (some (leadsTo event)) rest

/-- Every event of a log is a legal step from the status the events before it give. -/
def legalFrom : Option CommandStatus → List CommandEvent → Bool
  | _, [] => true
  | status, event :: rest => legal status event && legalFrom (some (leadsTo event)) rest

/-- The status after one more event. -/
theorem replay_append (status : Option CommandStatus) (log : List CommandEvent)
    (event : CommandEvent) : replay status (log ++ [event]) = some (leadsTo event) := by
  induction log generalizing status with
  | nil => rfl
  | cons first rest ih => exact ih (some (leadsTo first))

/-- A log with one more event. -/
theorem legalFrom_append (status : Option CommandStatus) (log : List CommandEvent)
    (event : CommandEvent) :
    legalFrom status (log ++ [event]) =
      (legalFrom status log && legal (replay status log) event) := by
  induction log generalizing status with
  | nil => simp [legalFrom, replay]
  | cons first rest ih => simp [legalFrom, replay, ih, Bool.and_assoc]

/-- A legal step changes the status. -/
theorem ne_of_legal {status : Option CommandStatus} {event : CommandEvent}
    (h : legal status event) : status ≠ some (leadsTo event) := by
  cases status with
  | none => simp
  | some status => cases status <;> cases event <;> simp_all [legal, leadsTo,
      CommandStatus.terminal]

/-- Only the first event of a legal log creates the command. -/
theorem created_of_legal {log : List CommandEvent} (h : legalFrom none log) (hne : log ≠ []) :
    ∃ rest, log = .created :: rest ∧ .created ∉ rest := by
  have hlater : ∀ (rest : List CommandEvent) (status : CommandStatus),
      legalFrom (some status) rest → .created ∉ rest := by
    intro rest
    induction rest with
    | nil => simp
    | cons event rest ih =>
        intro status hlegal hmem
        rw [legalFrom, Bool.and_eq_true] at hlegal
        rcases List.mem_cons.mp hmem with rfl | hmem
        · simp [legal] at hlegal
        · exact ih _ hlegal.2 hmem
  cases log with
  | nil => exact absurd rfl hne
  | cons event rest =>
      rw [legalFrom, Bool.and_eq_true] at h
      obtain rfl : event = .created := by simpa [legal] using h.1
      exact ⟨rest, rfl, hlater rest _ h.2⟩

/-! ## What a transition writes -/

/-- The status of a command, if it exists. -/
def View.status? (view : View) : Option CommandStatus := view.row.map CommandRow.status

/-- The log and the status stay, or one legal event leads to the new status. -/
def Logs (view after : View) : Prop :=
  (after.log = view.log ∧ after.status? = view.status?) ∨
    ∃ event, after.log = view.log ++ [event] ∧ legal view.status? event ∧
      after.status? = some (leadsTo event)

/-- The event a transition writes. -/
theorem transition_log {label : Label} {view after : View} (h : Transition label view after) :
    Logs view after := by
  cases h with
  | create hstatus => exact Or.inr ⟨.created, rfl, rfl, congrArg some hstatus⟩
  | claim | reschedule => exact Or.inl ⟨rfl, rfl⟩
  | publish h =>
      simp only [fenced, Bool.and_eq_true, beq_iff_eq] at h
      exact Or.inr ⟨.published, rfl, by simp [View.status?, legal, h.1.1.2], rfl⟩
  | deliver h =>
      refine Or.inr ⟨.delivered, rfl, ?_, rfl⟩
      rcases h with h | h <;> simp [View.status?, legal, h]
  | requeue h => exact Or.inr ⟨.requeued, rfl, by simp [View.status?, legal, h], rfl⟩
  | expire h =>
      simp only [expirable, Bool.and_eq_true, beq_iff_eq] at h
      exact Or.inr ⟨.timeout, rfl, by simp [View.status?, legal, h.1], rfl⟩
  | exhaust h =>
      simp only [exhausted, Bool.and_eq_true, Bool.or_eq_true, beq_iff_eq] at h
      refine Or.inr ⟨.failed, rfl, ?_, rfl⟩
      rcases h.2 with h | h <;> simp [View.status?, legal, h.1, CommandStatus.terminal]
  | acknowledge hopen hnext =>
      rcases hnext with ⟨rfl, rfl⟩ | ⟨rfl, rfl⟩
      · exact Or.inr ⟨.acked, rfl, by simp [View.status?, legal, hopen], rfl⟩
      · exact Or.inr ⟨.failed, rfl, by simp [View.status?, legal, hopen], rfl⟩

/-- What is written is written for a change of the status. -/
theorem Logs.changed {view after : View} (h : Logs view after) :
    after.log ≠ view.log ↔ after.status? ≠ view.status? := by
  rcases h with ⟨hlog, hstatus⟩ | ⟨event, hlog, hlegal, hstatus⟩
  · rw [hlog, hstatus]
    exact iff_of_false (fun hne => hne rfl) fun hne => hne rfl
  · rw [hlog, hstatus]
    exact iff_of_true (by simp) fun heq => ne_of_legal hlegal heq.symm

/-- The log of a command is legal and gives its status. -/
structure View.Logged (view : View) : Prop where
  legal : legalFrom none view.log
  status : replay none view.log = view.status?

/-- One more event keeps the log in step with the status. -/
theorem Logs.logged {view after : View} (h : Logs view after) (hlogged : view.Logged) :
    after.Logged := by
  rcases h with ⟨hlog, hstatus⟩ | ⟨event, hlog, hlegal, hstatus⟩
  · exact ⟨hlog ▸ hlogged.legal, by rw [hlog, hstatus]; exact hlogged.status⟩
  · refine ⟨?_, ?_⟩
    · rw [hlog, legalFrom_append, Bool.and_eq_true, hlogged.status]
      exact ⟨hlogged.legal, hlegal⟩
    · rw [hlog, replay_append, hstatus]

/-! ## Runs -/

variable (go : GoRuntime) (pg : Postgres)

/-- What an operation writes to the log of a command. -/
theorem step_log (db : Db) (op : Op) (id : Bytes) :
    Logs (db.view id) ((step go pg db op).view id) := by
  rcases step_refines go pg db op id with hsame | ⟨label, _, htransition⟩
  · rw [hsame]
    exact Or.inl ⟨rfl, rfl⟩
  · exact transition_log htransition

/-- The log of every command of every run is legal and gives its status. -/
theorem run_logged (ops : List Op) (id : Bytes) :
    ((run (step go pg) Db.empty ops).view id).Logged :=
  run_invariant (fun db : Db => ∀ id, (db.view id).Logged)
    (fun db op h id => (step_log go pg db op id).logged (h id)) (fun _ => ⟨rfl, rfl⟩) ops id

/-- A statement without an event leaves the log as it is. -/
theorem events_updateCommands_none (db : Db) (where? : CommandRow → Bool)
    (set : CommandRow → CommandRow) (hset : ∀ row, (set row).id = row.id) :
    (db.updateCommands where? set hset none).events = db.events := by
  simp [Db.updateCommands]

/-- Events are only ever added. -/
theorem step_events (db : Db) (op : Op) :
    ∃ added, (step go pg db op).events = db.events ++ added := by
  cases op with
  | registerDevice => exact ⟨[], (List.append_nil _).symm⟩
  | createCommandWithKey tenantID deviceID key payload newID now =>
      simp only [step]
      cases hresult : createCommandWithKey go pg tenantID deviceID key payload newID now db with
      | error err => exact ⟨[], (List.append_nil _).symm⟩
      | ok value =>
          obtain ⟨cmd, after⟩ := value
          rcases create_cases hresult with rfl | ⟨normalized, id, _, _, hnew, rfl⟩
          · exact ⟨[], (List.append_nil _).symm⟩
          · exact ⟨_, rfl⟩
  | claimCommandsForDispatch =>
      simp only [step, claimCommandsForDispatch]
      split
      · exact ⟨[], (List.append_nil _).symm⟩
      · exact ⟨_, rfl⟩
  | ackCommandResult id tenantID deviceID input now =>
      simp only [step]
      cases hresult : ackCommandResult go pg id tenantID deviceID input now db with
      | error err => exact ⟨[], (List.append_nil _).symm⟩
      | ok value =>
          obtain ⟨cmd, after⟩ := value
          rcases ack_cases hresult with rfl | ⟨row, hrow, next, event, result, _, _, _, rfl⟩
          · exact ⟨[], (List.append_nil _).symm⟩
          · exact ⟨_, rfl⟩
  | markCommandPublished | rescheduleCommand | markCommandSent | requeueCommand
  | expireCommands | recoverStaleRequeue | recoverStaleFail => exact ⟨_, rfl⟩

/-- An operation that changes no status writes no event. -/
theorem events_of_unchanged {db : Db} {op : Op}
    (h : ∀ id, ((step go pg db op).view id).status? = (db.view id).status?) :
    (step go pg db op).events = db.events := by
  obtain ⟨added, hadded⟩ := step_events go pg db op
  have hnone : added = [] := by
    refine List.eq_nil_iff_forall_not_mem.mpr fun event hevent => ?_
    -- the log of the command it belongs to would have grown
    have hlog : ((step go pg db op).view event.commandID).log = (db.view event.commandID).log :=
      not_not.mp fun hne => (step_log go pg db op event.commandID).changed.mp hne (h _)
    unfold Db.view at hlog
    rw [hadded, List.filter_append, List.map_append] at hlog
    have hmem : event ∈ added.filter fun other => other.commandID = event.commandID := by
      simpa using hevent
    have hempty := List.map_eq_nil_iff.mp (List.append_right_eq_self.mp hlog)
    rw [hempty] at hmem
    cases hmem
  rw [hadded, hnone, List.append_nil]

/-- **The audit log determines the status.** After every run from the empty schema the events of a
command begin with the only event that creates it, are legal step by step, and replay to the
stored status. An operation adds at most one event to a command, and one exactly when it changes
the status; one that changes no status, a claim or a reschedule adds none. -/
theorem audit_log_determines_status (go : GoRuntime) (pg : Postgres) (ops : List Op) :
    let db := run (step go pg) Db.empty ops
    (∀ id row, db.commands.find? id = some row →
      (∃ rest, (db.view id).log = .created :: rest ∧ .created ∉ rest) ∧
        replay none (db.view id).log = some row.status ∧ legalFrom none (db.view id).log) ∧
    (∀ op id,
      (((step go pg db op).view id).log = (db.view id).log ∨
        ∃ event, ((step go pg db op).view id).log = (db.view id).log ++ [event]) ∧
      (((step go pg db op).view id).log ≠ (db.view id).log ↔
        ((step go pg db op).view id).status? ≠ (db.view id).status?)) ∧
    (∀ op, (∀ id, ((step go pg db op).view id).status? = (db.view id).status?) →
      (step go pg db op).events = db.events) ∧
    (∀ now lease limit locked,
      (step go pg db (.claimCommandsForDispatch now lease limit locked)).events = db.events) ∧
    ∀ now id attempt retryAfter,
      (step go pg db (.rescheduleCommand now id attempt retryAfter)).events = db.events := by
  intro db
  refine ⟨?_, ?_, fun op => events_of_unchanged go pg, ?_, ?_⟩
  · intro id row hrow
    have hlogged := run_logged go pg ops id
    have hstatus : (db.view id).status? = some row.status := by
      rw [View.status?, view_row, hrow]
      rfl
    have hreplay : replay none (db.view id).log = some row.status := hlogged.status.trans hstatus
    refine ⟨created_of_legal hlogged.legal fun hnil => ?_, hreplay, hlogged.legal⟩
    rw [hnil] at hreplay
    cases hreplay
  · intro op id
    have hlogs := step_log go pg db op id
    refine ⟨?_, hlogs.changed⟩
    rcases hlogs with ⟨hlog, _⟩ | ⟨event, hlog, _⟩
    · exact Or.inl hlog
    · exact Or.inr ⟨event, hlog⟩
  · intro now lease limit locked
    simp only [step, claimCommandsForDispatch]
    split
    · rfl
    · exact events_updateCommands_none _ _ _ _
  · intro now id attempt retryAfter
    exact events_updateCommands_none _ _ _ _

/-- The log of the command that was created and acknowledged. -/
theorem audit_log_determines_status_acked :
    ((run (step .plain .plain) Db.empty ackedRun).view (ascii "c")).log = [.created, .acked] ∧
      replay none ((run (step .plain .plain) Db.empty ackedRun).view (ascii "c")).log =
        some .acked := by
  have hrow : (run (step .plain .plain) Db.empty ackedRun).commands.find? (ascii "c") =
      some ackedRow := by decide +kernel
  exact ⟨by decide +kernel,
    ((audit_log_determines_status .plain .plain ackedRun).1 (ascii "c") ackedRow hrow).2.1⟩

end Iot.Store
