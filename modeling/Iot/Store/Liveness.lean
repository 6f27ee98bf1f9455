import Iot.Data.Latest
import Iot.Execution.Run
import Iot.Store.DeviceState

/-!
# Liveness is a summary of the telemetry

The state of a device is the summary of its telemetry rows (`Data.IsLatest`), whatever transactions
ran and in whatever order they were committed (`device_liveness`). What the rows are after a number
of records depends on their order only through records of the same key, so for records with
different message ids the receive time of the last does not depend on it (`times_run`).
-/

namespace Iot.Store

open Text Contracts Platform Data Execution

variable {go : GoRuntime} {pg : Postgres}

/-! ## The summary -/

/-- The receive times and message ids of the telemetry rows of a device. -/
def readings (db : TelemetryDb) (key : Bytes × Bytes) : Set (Time × Bytes) :=
  { reading | ∃ row ∈ db.records.rows, deviceOf row = key ∧
    reading = (row.receivedAt, row.msgID) }

/-- The invariant of the tables: devices and their states belong together, telemetry is that of
devices, and each state is the summary of the telemetry of its device. -/
structure DeviceDb.Sound (db : DeviceDb) : Prop where
  owned : ∀ key state, db.states.find? key = some state → key ∈ db.telemetry.devices
  registered : ∀ key ∈ db.telemetry.devices, ∃ state, db.states.find? key = some state
  located : ∀ row ∈ db.telemetry.records.rows, deviceOf row ∈ db.telemetry.devices
  summary : ∀ key state, db.states.find? key = some state →
    ∃ latest, IsLatest latest (readings db.telemetry key) ∧
      state.lastSeenAt = latest.map Prod.fst ∧ state.lastMsgID = latest.map Prod.snd

/-- States stay, and neither their times of the last record nor their update times decrease. -/
def StatesGrow (before after : DeviceDb) : Prop :=
  ∀ key state, before.states.find? key = some state →
    ∃ state', after.states.find? key = some state' ∧ state.updatedAt ≤ state'.updatedAt ∧
      ∀ seen, state.lastSeenAt = some seen → ∃ seen', state'.lastSeenAt = some seen' ∧ seen ≤ seen'

theorem statesGrow_refl (db : DeviceDb) : StatesGrow db db :=
  fun _ state h => ⟨state, h, le_refl _, fun seen hseen => ⟨seen, hseen, le_refl _⟩⟩

theorem statesGrow_trans {first second third : DeviceDb} (h : StatesGrow first second)
    (hnext : StatesGrow second third) : StatesGrow first third := by
  intro key state hstate
  obtain ⟨state', hstate', hupdated, hseen⟩ := h key state hstate
  obtain ⟨state'', hstate'', hupdated', hseen'⟩ := hnext key state' hstate'
  refine ⟨state'', hstate'', hupdated.trans hupdated', fun seen hfirst => ?_⟩
  obtain ⟨seen', hsecond, hle⟩ := hseen seen hfirst
  obtain ⟨seen'', hthird, hle'⟩ := hseen' seen' hsecond
  exact ⟨seen'', hthird, hle.trans hle'⟩

/-- The readings after a row is added. -/
theorem readings_inserted {rec first : TelemetryRecord} {db after : TelemetryDb}
    (h : restoreTelemetry go pg rec db = .ok (.inserted first after)) (key : Bytes × Bytes) :
    readings after key =
      if deviceOf rec = key then insert (rec.receivedAt, rec.msgID) (readings db key)
      else readings db key := by
  obtain ⟨_, column, hnew, _, rfl⟩ := restoreTelemetry_inserted h
  ext reading
  have hrows : ∀ row, row ∈ (db.records.insert (storedRow rec column) hnew).rows ↔
      row ∈ db.records.rows ∨ row = storedRow rec column := by
    intro row
    simp [Table.insert]
  simp only [readings, Set.mem_ofPred_eq, hrows]
  split
  · rename_i hkey
    constructor
    · rintro ⟨row, hrow | rfl, hdevice, rfl⟩
      · exact Set.mem_insert_of_mem _ ⟨row, hrow, hdevice, rfl⟩
      · exact Set.mem_insert _ _
    · intro hmem
      rcases Set.mem_insert_iff.mp hmem with rfl | ⟨row, hrow, hdevice, rfl⟩
      · exact ⟨storedRow rec column, Or.inr rfl, hkey, rfl⟩
      · exact ⟨row, Or.inl hrow, hdevice, rfl⟩
  · rename_i hkey
    constructor
    · rintro ⟨row, hrow | rfl, hdevice, rfl⟩
      · exact ⟨row, hrow, hdevice, rfl⟩
      · exact absurd hdevice hkey
    · rintro ⟨row, hrow, hdevice, rfl⟩
      exact ⟨row, Or.inl hrow, hdevice, rfl⟩

/-- The update of a state is `adopt`. -/
theorem adopt_state {state : DeviceState} {latest : Option (Time × Bytes)}
    (hseen : state.lastSeenAt = latest.map Prod.fst) (hmsg : state.lastMsgID = latest.map Prod.snd)
    (rec : TelemetryRecord) (now : Time) :
    (if isLater rec.receivedAt state then seenState rec now state else state).lastSeenAt =
        (adopt latest (rec.receivedAt, rec.msgID)).map Prod.fst ∧
      (if isLater rec.receivedAt state then seenState rec now state else state).lastMsgID =
        (adopt latest (rec.receivedAt, rec.msgID)).map Prod.snd := by
  cases latest with
  | none =>
      have hlater : isLater rec.receivedAt state = true := by simp [isLater, hseen]
      rw [if_pos hlater]
      exact ⟨rfl, rfl⟩
  | some old =>
      have hlater : isLater rec.receivedAt state = decide (old.1 < rec.receivedAt) := by
        simp [isLater, hseen]
      rw [hlater]
      unfold adopt
      dsimp only
      by_cases hlt : old.1 < rec.receivedAt
      · simp [hlt, seenState]
      · simp [hlt, hseen, hmsg]

/-- A device is created. -/
theorem sound_createDevice {hash : Bytes → Except GoError Bytes} {device : NewDevice} {now : Time}
    {db after : DeviceDb} (h : db.Sound) (hcreate : createDevice hash device now db = .ok after) :
    after.Sound ∧ StatesGrow db after := by
  obtain ⟨hnew, rfl⟩ := createDevice_cases hcreate
  have hnone : db.states.find? (device.tenantID, device.deviceID) = none := by
    cases hstate : db.states.find? (device.tenantID, device.deviceID) with
    | none => rfl
    | some state => exact absurd (h.owned _ state hstate) hnew
  have hfind := find?_createState now hnone
  refine ⟨⟨fun key state hstate => ?_, fun key hkey => ?_, fun row hrow => ?_,
    fun key state hstate => ?_⟩, fun key state hstate => ?_⟩
  · rw [hfind] at hstate
    split at hstate
    · rename_i hkey
      exact hkey ▸ List.mem_cons_self
    · exact List.mem_cons_of_mem _ (h.owned key state hstate)
  · simp only [hfind]
    split
    · exact ⟨_, rfl⟩
    · rename_i hother
      rcases List.mem_cons.mp hkey with rfl | hkey
      · exact absurd rfl hother
      · exact h.registered key hkey
  · exact List.mem_cons_of_mem _ (h.located row hrow)
  · rw [hfind] at hstate
    split at hstate
    · rename_i hkey
      cases hstate
      -- a device that was not registered has no telemetry
      refine ⟨none, ⟨iff_of_true rfl fun reading hreading => ?_, by simp, by simp⟩, rfl, rfl⟩
      obtain ⟨row, hrow, hdevice, _⟩ := hreading
      exact hnew (hkey ▸ hdevice ▸ h.located row hrow)
    · exact h.summary key state hstate
  · refine ⟨state, ?_, le_refl _, fun seen hseen => ⟨seen, hseen, le_refl _⟩⟩
    rw [hfind, if_neg]
    · exact hstate
    · rintro rfl
      rw [hnone] at hstate
      cases hstate

/-- Storing a record registers no device. -/
theorem devices_inserted {rec first : TelemetryRecord} {db after : TelemetryDb}
    (h : restoreTelemetry go pg rec db = .ok (.inserted first after)) :
    after.devices = db.devices := by
  obtain ⟨_, _, _, _, rfl⟩ := restoreTelemetry_inserted h
  rfl

/-- A record is stored. -/
theorem sound_restore {rec : TelemetryRecord} {now : Time} {db after : DeviceDb} (h : db.Sound)
    (hrestore : restoreAndObserve go pg rec now db = .ok after) :
    after.Sound ∧ StatesGrow db after := by
  rcases restoreAndObserve_cases hrestore with ⟨rfl, _⟩ | ⟨first, telemetry, hinsert, rfl⟩
  · exact ⟨h, statesGrow_refl _⟩
  have hdevice := restoreTelemetry_device hinsert
  obtain ⟨old, hold⟩ := h.registered _ hdevice
  have hfind := find?_observeState now hold
  have hreadings := readings_inserted hinsert
  have hdevices := devices_inserted hinsert
  refine ⟨⟨fun key state hstate => ?_, fun key hkey => ?_, fun row hrow => ?_,
    fun key state hstate => ?_⟩, fun key state hstate => ?_⟩
  · rw [hfind] at hstate
    rw [hdevices]
    split at hstate
    · rename_i hkey
      exact hkey ▸ hdevice
    · exact h.owned key state hstate
  · simp only [hfind]
    split
    · exact ⟨_, rfl⟩
    · exact h.registered key (hdevices ▸ hkey)
  · obtain ⟨_, column, hnew, _, rfl⟩ := restoreTelemetry_inserted hinsert
    rcases List.mem_append.mp hrow with hrow | hrow
    · exact h.located row hrow
    · cases List.mem_singleton.mp hrow
      exact hdevice
  · simp only [hreadings]
    rw [hfind] at hstate
    split at hstate
    · rename_i hkey
      cases hstate
      subst hkey
      obtain ⟨latest, hlatest, hseen, hmsg⟩ := h.summary _ old hold
      rw [if_pos rfl]
      exact ⟨_, isLatest_adopt hlatest _, adopt_state hseen hmsg rec now⟩
    · rename_i hkey
      rw [if_neg hkey]
      exact h.summary key state hstate
  · simp only [hfind]
    split
    · rename_i hkey
      subst hkey
      rw [hold] at hstate
      cases hstate
      obtain ⟨latest, _, hseen, hmsg⟩ := h.summary _ _ hold
      refine ⟨_, rfl, ?_, fun seen hold' => ?_⟩
      · split
        · exact le_max_left _ _
        · exact le_refl _
      · rw [(adopt_state hseen hmsg rec now).1]
        rw [hseen] at hold'
        obtain ⟨reading, hreading, rfl⟩ := Option.map_eq_some_iff.mp hold'
        obtain ⟨next, hnext, hle⟩ := adopt_mono hreading (rec.receivedAt, rec.msgID)
        exact ⟨next.1, by rw [hnext]; rfl, hle⟩
    · exact ⟨state, hstate, le_refl _, fun seen hseen => ⟨seen, hseen, le_refl _⟩⟩

variable (go pg) in
/-- Every transaction keeps the invariant, and no time decreases. -/
theorem sound_step {db : DeviceDb} (h : db.Sound) (action : DeviceAction) :
    (db.step go pg action).Sound ∧ StatesGrow db (db.step go pg action) := by
  rcases device_step_cases go pg db action with ⟨_, heq⟩ | ⟨hash, device, now, hcreate⟩ |
    ⟨rec, now, hrestore⟩
  · rw [heq]
    exact ⟨⟨h.owned, h.registered, h.located, h.summary⟩, statesGrow_refl _⟩
  · exact sound_createDevice h hcreate
  · exact sound_restore h hrestore

theorem sound_empty : DeviceDb.empty.Sound :=
  ⟨fun _ _ h => (by cases h), fun _ h => (by cases h), fun _ h => (by cases h),
    fun _ _ h => (by cases h)⟩

/-! ## The order of arrival -/

/-- The receive times of the rows. -/
def times (db : TelemetryDb) (key : TelemetryKey) : Option Time :=
  (db.records.find? key).map TelemetryRecord.receivedAt

/-- A record passes the checks, which depend on the registered devices only. -/
def storable (go : GoRuntime) (pg : Postgres) (devices : List (Bytes × Bytes))
    (rec : TelemetryRecord) : Bool :=
  (restoreTelemetry go pg rec ⟨devices, .empty⟩).toOption.isSome

/-- The receive times after a record: that of a new key is added. -/
def addTime (go : GoRuntime) (pg : Postgres) (devices : List (Bytes × Bytes))
    (seen : TelemetryKey → Option Time) (rec : TelemetryRecord) : TelemetryKey → Option Time :=
  fun key => if telemetryKey rec = key ∧ seen key = none ∧ storable go pg devices rec then
    some rec.receivedAt else seen key

/-- The checks of a record. -/
theorem restoreTelemetry_ok_iff {rec : TelemetryRecord} {db : TelemetryDb} :
    (∃ restored, restoreTelemetry go pg rec db = .ok restored) ↔
      validateTelemetryPayload rec.payload = .ok () ∧ rec.receivedAt ≠ zeroTime ∧
      requireDevice db.devices rec.tenantID rec.deviceID = .ok () ∧
      (∃ normalized, pg.jsonb rec.payload = .ok normalized ∧
        validateTelemetryPayload normalized = .ok ()) ∧
      ∃ column, StoredText go pg rec.payload column := by
  constructor
  · rintro ⟨restored, h⟩
    simp only [restoreTelemetry, bind_eq_ok, returnIf_eq_ok] at h
    obtain ⟨⟨⟩, hpayload, ⟨⟩, htime, ⟨⟩, hdevice, normalized, hjsonb, ⟨⟩, hnormalized, value,
      hvalue, column, hcolumn, _⟩ := h
    exact ⟨hpayload, htime, hdevice, ⟨normalized, hjsonb, hnormalized⟩, column, value, hvalue,
      hcolumn⟩
  · rintro ⟨hpayload, htime, hdevice, ⟨normalized, hjsonb, hnormalized⟩, column, value, hvalue,
      hcolumn⟩
    cases hresult : restoreTelemetry go pg rec db with
    | ok restored => exact ⟨restored, rfl⟩
    | error err =>
        simp only [restoreTelemetry, hpayload, returnIf, htime, hdevice, hjsonb, hnormalized,
          hvalue, hcolumn, if_false, bind, Except.bind] at hresult
        split at hresult <;> cases hresult

/-- The checks do not look at the stored telemetry. -/
theorem storable_iff {rec : TelemetryRecord} {db : TelemetryDb} :
    storable go pg db.devices rec = true ↔
      ∃ restored, restoreTelemetry go pg rec db = .ok restored := by
  rw [restoreTelemetry_ok_iff, storable, Option.isSome_iff_exists]
  have hsome : (∃ restored, (restoreTelemetry go pg rec ⟨db.devices, .empty⟩).toOption =
      some restored) ↔
        ∃ restored, restoreTelemetry go pg rec ⟨db.devices, .empty⟩ = .ok restored := by
    cases restoreTelemetry go pg rec ⟨db.devices, .empty⟩ <;> simp [Except.toOption]
  rw [hsome, restoreTelemetry_ok_iff]

variable (go pg) in
/-- The receive times and the devices after a record. -/
theorem times_restore (db : DeviceDb) (rec : TelemetryRecord) (now : Time) :
    times (db.step go pg (.restore rec now)).telemetry =
        addTime go pg db.telemetry.devices (times db.telemetry) rec ∧
      (db.step go pg (.restore rec now)).telemetry.devices = db.telemetry.devices := by
  have hnone : ∀ key, times db.telemetry key = none ↔ db.telemetry.records.find? key = none := by
    intro key
    simp [times]
  have hstays : storable go pg db.telemetry.devices rec = false ∨
      db.telemetry.records.find? (telemetryKey rec) ≠ none →
      addTime go pg db.telemetry.devices (times db.telemetry) rec = times db.telemetry := by
    intro hskip
    funext key
    unfold addTime
    rw [if_neg]
    rintro ⟨rfl, hnew, hstorable⟩
    rcases hskip with hskip | hskip
    · rw [hskip] at hstorable
      cases hstorable
    · exact hskip ((hnone _).mp hnew)
  simp only [DeviceDb.step]
  split
  · rename_i after hafter
    rcases restoreAndObserve_cases hafter with ⟨rfl, stored, hstored⟩ |
      ⟨first, telemetry, hinsert, rfl⟩
    · exact ⟨(hstays (Or.inr (by simp [hstored]))).symm, rfl⟩
    · have hstorable := storable_iff.mpr ⟨_, hinsert⟩
      refine ⟨funext fun key => ?_, devices_inserted hinsert⟩
      obtain ⟨column, _, hnew, hfind⟩ := find?_inserted hinsert key
      unfold times addTime
      dsimp only
      rw [hfind]
      by_cases hkey : telemetryKey rec = key
      · subst hkey
        rw [if_pos rfl, if_pos ⟨rfl, by simp [hnew], hstorable⟩]
        rfl
      · rw [if_neg hkey, if_neg (fun h => hkey h.1)]
  · rename_i err hafter
    refine ⟨(hstays ?_).symm, rfl⟩
    by_cases hdup : db.telemetry.records.find? (telemetryKey rec) = none
    · left
      by_contra hstorable
      obtain ⟨restored, hrestore⟩ := storable_iff.mp (Bool.eq_true_of_not_eq_false hstorable)
      unfold restoreAndObserve at hafter
      rw [hrestore] at hafter
      cases restored <;> cases hafter
    · exact Or.inr hdup

/-- The transactions that store a number of records, each with the time it reads. -/
def restoreAll (records : List (TelemetryRecord × Time)) : List DeviceAction :=
  records.map fun entry => .restore entry.1 entry.2

variable (go pg) in
/-- The receive times and the devices after a number of records. -/
theorem times_run (db : DeviceDb) (records : List (TelemetryRecord × Time)) :
    times (Execution.run (DeviceDb.step go pg) db (restoreAll records)).telemetry =
        (records.map Prod.fst).foldl (addTime go pg db.telemetry.devices) (times db.telemetry) ∧
      (Execution.run (DeviceDb.step go pg) db (restoreAll records)).telemetry.devices =
        db.telemetry.devices := by
  induction records generalizing db with
  | nil => exact ⟨rfl, rfl⟩
  | cons entry rest ih =>
      obtain ⟨htimes, hdevices⟩ := times_restore go pg db entry.1 entry.2
      obtain ⟨htimes', hdevices'⟩ := ih (db.step go pg (.restore entry.1 entry.2))
      rw [hdevices, htimes] at htimes'
      exact ⟨htimes', hdevices'.trans hdevices⟩

/-- Records of different keys can be exchanged. -/
theorem addTime_comm {devices : List (Bytes × Bytes)} {rec other : TelemetryRecord}
    (hkey : telemetryKey rec ≠ telemetryKey other) (seen : TelemetryKey → Option Time) :
    addTime go pg devices (addTime go pg devices seen rec) other =
      addTime go pg devices (addTime go pg devices seen other) rec := by
  funext key
  unfold addTime
  by_cases hfirst : telemetryKey rec = key
  · have hsecond : telemetryKey other ≠ key := fun h => hkey (hfirst.trans h.symm)
    simp [hfirst, hsecond]
  · simp [hfirst]

/-- The readings are those of the receive times. -/
theorem readings_eq (db : TelemetryDb) (key : Bytes × Bytes) :
    readings db key = { reading | times db (reading.2, key) = some reading.1 } := by
  ext reading
  simp only [readings, times, Set.mem_ofPred_eq, Option.map_eq_some_iff]
  constructor
  · rintro ⟨row, hrow, rfl, rfl⟩
    exact ⟨row, (Table.find?_eq_some_iff _ _ _).mpr ⟨hrow, rfl⟩, rfl⟩
  · rintro ⟨row, hrow, hreceived⟩
    obtain ⟨hmem, hkey⟩ := (Table.find?_eq_some_iff _ _ _).mp hrow
    obtain ⟨hmsg, hdevice⟩ := Prod.ext_iff.mp hkey
    exact ⟨row, hmem, hdevice, Prod.ext hreceived.symm hmsg.symm⟩

/-! ## Whole runs -/

/-- The time a device was last seen, if it has a row. -/
def DeviceDb.lastSeen (db : DeviceDb) (key : Bytes × Bytes) : Option (Option Time) :=
  (db.states.find? key).map DeviceState.lastSeenAt

/-- A state summarises the telemetry of its device: it has a time exactly if there is a row, the
time is the latest receive time, and the message id is that of a row with that time. -/
structure Summarises (telemetry : TelemetryDb) (key : Bytes × Bytes) (state : DeviceState) :
    Prop where
  unseen : state.lastSeenAt = none ↔ ∀ row ∈ telemetry.records.rows, deviceOf row ≠ key
  latest : ∀ seen, state.lastSeenAt = some seen → ∀ row ∈ telemetry.records.rows,
    deviceOf row = key → row.receivedAt ≤ seen
  named : ∀ seen, state.lastSeenAt = some seen → ∃ row ∈ telemetry.records.rows,
    deviceOf row = key ∧ row.receivedAt = seen ∧ state.lastMsgID = some row.msgID

theorem summarises_of_sound {db : DeviceDb} (h : db.Sound) {key : Bytes × Bytes}
    {state : DeviceState} (hstate : db.states.find? key = some state) :
    Summarises db.telemetry key state := by
  obtain ⟨latest, hlatest, hseen, hmsg⟩ := h.summary key state hstate
  refine ⟨?_, fun seen hsome row hrow hdevice => ?_, fun seen hsome => ?_⟩
  · rw [hseen, Option.map_eq_none_iff, hlatest.none_iff]
    constructor
    · intro hnone row hrow hdevice
      exact hnone (row.receivedAt, row.msgID) ⟨row, hrow, hdevice, rfl⟩
    · rintro hnone reading ⟨row, hrow, hdevice, _⟩
      exact hnone row hrow hdevice
  · rw [hseen] at hsome
    obtain ⟨reading, hreading, rfl⟩ := Option.map_eq_some_iff.mp hsome
    exact hlatest.le reading hreading (row.receivedAt, row.msgID) ⟨row, hrow, hdevice, rfl⟩
  · rw [hseen] at hsome
    obtain ⟨reading, hreading, rfl⟩ := Option.map_eq_some_iff.mp hsome
    obtain ⟨row, hrow, hdevice, rfl⟩ := hlatest.mem reading hreading
    exact ⟨row, hrow, hdevice, rfl, by rw [hmsg, hreading]; rfl⟩

variable (go pg) in
/-- A record whose key is there changes nothing. -/
theorem step_duplicate {db : DeviceDb} {rec stored : TelemetryRecord}
    (h : db.telemetry.records.find? (telemetryKey rec) = some stored) (now : Time) :
    db.step go pg (.restore rec now) = db := by
  simp only [DeviceDb.step]
  split
  · rename_i after hafter
    rcases restoreAndObserve_cases hafter with ⟨rfl, _⟩ | ⟨first, telemetry, hinsert, _⟩
    · rfl
    · obtain ⟨_, _, hnew, _⟩ := find?_inserted hinsert (telemetryKey rec)
      rw [h] at hnew
      cases hnew
  · rfl

/-- Tables with the same devices and receive times were last seen at the same times. -/
theorem lastSeen_eq {db other : DeviceDb} (h : db.Sound) (hother : other.Sound)
    (hdevices : db.telemetry.devices = other.telemetry.devices)
    (htimes : times db.telemetry = times other.telemetry) (key : Bytes × Bytes) :
    db.lastSeen key = other.lastSeen key := by
  unfold DeviceDb.lastSeen
  cases hstate : db.states.find? key with
  | none =>
      cases hstate' : other.states.find? key with
      | none => rfl
      | some state =>
          obtain ⟨_, hfound⟩ := h.registered key (hdevices ▸ hother.owned key state hstate')
          exact absurd (hstate.symm.trans hfound) (by simp)
  | some state =>
      obtain ⟨state', hstate'⟩ := hother.registered key (hdevices ▸ h.owned key state hstate)
      obtain ⟨latest, hlatest, hseen, _⟩ := h.summary key state hstate
      obtain ⟨latest', hlatest', hseen', _⟩ := hother.summary key state' hstate'
      rw [readings_eq, htimes, ← readings_eq] at hlatest
      rw [hstate', Option.map_some, Option.map_some, hseen, hseen',
        isLatest_time_eq hlatest hlatest']

variable (go pg) in
/-- What a number of records leave does not depend on their order if their message ids differ. -/
theorem lastSeen_perm {db : DeviceDb} (h : db.Sound)
    {first second : List (TelemetryRecord × Time)}
    (hperm : (first.map Prod.fst).Perm (second.map Prod.fst))
    (hdistinct : ((first.map Prod.fst).map TelemetryRecord.msgID).Nodup) (key : Bytes × Bytes) :
    (Execution.run (DeviceDb.step go pg) db (restoreAll first)).lastSeen key =
      (Execution.run (DeviceDb.step go pg) db (restoreAll second)).lastSeen key := by
  have hsound : ∀ actions, (Execution.run (DeviceDb.step go pg) db actions).Sound :=
    run_invariant DeviceDb.Sound (fun _ action hdb => (sound_step go pg hdb action).1) h
  obtain ⟨htimes, hdevices⟩ := times_run go pg db first
  obtain ⟨htimes', hdevices'⟩ := times_run go pg db second
  refine lastSeen_eq (hsound _) (hsound _) (hdevices.trans hdevices'.symm) ?_ key
  rw [htimes, htimes']
  -- two different records of the list have different message ids, and so different keys
  refine hperm.foldl_eq' (fun rec hrec other hother seen => ?_) _
  by_cases hkey : telemetryKey rec = telemetryKey other
  · have hsame : rec = other :=
      List.inj_on_of_nodup_map hdistinct hrec hother (congrArg Prod.fst hkey)
    rw [hsame]
  · exact addTime_comm hkey seen

/-- For every run of transactions that create devices and store telemetry, committed in any order:
every registered device has a state, which summarises its telemetry; the times of the states never
decrease; a record whose key is there changes nothing; and records with different message ids leave
the same times in whatever order they are stored. -/
theorem device_liveness (go : GoRuntime) (pg : Postgres) (actions more : List DeviceAction) :
    let db := Execution.run (DeviceDb.step go pg) .empty actions
    (∀ key ∈ db.telemetry.devices, ∃ state, db.states.find? key = some state) ∧
    (∀ key state, db.states.find? key = some state → Summarises db.telemetry key state) ∧
    StatesGrow db (Execution.run (DeviceDb.step go pg) db more) ∧
    (∀ rec stored now, db.telemetry.records.find? (telemetryKey rec) = some stored →
      db.step go pg (.restore rec now) = db) ∧
    (∀ env stored receivedAt now,
      db.telemetry.records.find? (env.msgID, env.tenantID, env.deviceID) = some stored →
      db.step go pg (.record env receivedAt now) = db) ∧
    ∀ first second : List (TelemetryRecord × Time),
      (first.map Prod.fst).Perm (second.map Prod.fst) →
      ((first.map Prod.fst).map TelemetryRecord.msgID).Nodup →
      ∀ key, (Execution.run (DeviceDb.step go pg) db (restoreAll first)).lastSeen key =
        (Execution.run (DeviceDb.step go pg) db (restoreAll second)).lastSeen key := by
  intro db
  have hsound : db.Sound :=
    run_invariant DeviceDb.Sound (fun _ action h => (sound_step go pg h action).1) sound_empty
      actions
  have hgrow : StatesGrow db (Execution.run (DeviceDb.step go pg) db more) :=
    run_related DeviceDb.Sound StatesGrow (fun _ action h => (sound_step go pg h action).1)
      statesGrow_refl (fun _ _ _ => statesGrow_trans)
      (fun _ action h => (sound_step go pg h action).2) hsound more
  refine ⟨hsound.registered, fun key state hstate => summarises_of_sound hsound hstate, hgrow,
    fun rec stored now hstored => step_duplicate go pg hstored now, ?_,
    fun first second hperm hdistinct key => lastSeen_perm go pg hsound hperm hdistinct key⟩
  intro env stored receivedAt now hstored
  have hkey : db.telemetry.records.find? (telemetryKey (.ofEnvelope env receivedAt)) =
      some stored := hstored
  exact step_duplicate go pg hkey now

/-- A device of a tenant. -/
def plainDevice : NewDevice := ⟨ascii "t", ascii "d", ascii "p", ascii "s"⟩

/-- A record of the device. -/
def plainReading (msgID : String) (receivedAt : Time) : TelemetryRecord :=
  ⟨ascii msgID, ascii "t", ascii "d", 1, ascii "temp", ascii "v1", ascii "\x7b\x7d", false,
    receivedAt⟩

/-- A device is created and sends two records, the later of which is stored first. -/
def twoReadings : List DeviceAction :=
  [.createTenant (ascii "t"), .createDevice plainDevice .ok 1,
    .restore (plainReading "b" 5) 6, .restore (plainReading "a" 3) 7]

/-- The device was last seen at the later time; a record of a known message changes nothing, and the
order of two more records does not matter. -/
theorem device_liveness_plain :
    let db := Execution.run (DeviceDb.step .plain .plain) .empty twoReadings
    (∃ state, db.states.find? (ascii "t", ascii "d") = some state ∧ state.lastSeenAt = some 5 ∧
      Summarises db.telemetry (ascii "t", ascii "d") state) ∧
    db.step .plain .plain (.restore (plainReading "a" 9) 8) = db ∧
    (Execution.run (DeviceDb.step .plain .plain) db
        (restoreAll [(plainReading "c" 8, 9), (plainReading "d" 7, 10)])).lastSeen
          (ascii "t", ascii "d") =
      (Execution.run (DeviceDb.step .plain .plain) db
        (restoreAll [(plainReading "d" 7, 9), (plainReading "c" 8, 10)])).lastSeen
          (ascii "t", ascii "d") := by
  obtain ⟨_, hsummary, _, hduplicate, _, horder⟩ :=
    device_liveness .plain .plain twoReadings []
  have hseen : ((Execution.run (DeviceDb.step .plain .plain) .empty twoReadings).states.find?
      (ascii "t", ascii "d")).map DeviceState.lastSeenAt = some (some 5) := by decide +kernel
  obtain ⟨state, hstate, hfive⟩ := Option.map_eq_some_iff.mp hseen
  have hstored : ((Execution.run (DeviceDb.step .plain .plain) .empty
      twoReadings).telemetry.records.find? (telemetryKey (plainReading "a" 9))).isSome = true := by
    decide +kernel
  obtain ⟨stored, hstored⟩ := Option.isSome_iff_exists.mp hstored
  exact ⟨⟨state, hstate, hfive, hsummary _ state hstate⟩, hduplicate _ stored 8 hstored,
    horder [(plainReading "c" 8, 9), (plainReading "d" 7, 10)]
      [(plainReading "d" 7, 9), (plainReading "c" 8, 10)] (List.Perm.swap _ _ _) (by decide) _⟩

end Iot.Store
