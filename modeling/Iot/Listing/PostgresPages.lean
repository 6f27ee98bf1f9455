import Iot.Data.Keyset
import Iot.Listing.Pages
import Iot.Store.Telemetry
import Iot.Text.Order

/-!
# The lists of PostgreSQL

`ListTenantsPageContext`, `ListDevicesPageContext`, `ListCommandsPageContext` and
`ListTelemetryPageContext` of `internal/platform/postgres_store.go`. Each asks for the rows after
its cursor, in the order of their keys, and fills a page with them.

Reading a list from the empty cursor returns every matching row once, in the order asked for:
`telemetry_pages_exact`, `command_pages_exact`, `device_pages_exact` and `tenant_pages_exact`. A
command created at the zero time is the exception: its cursor stands for no cursor at all
(`command_pages_endless`).
-/

namespace Iot.Listing

open Text Json Contracts Platform Store Data

variable (go : GoRuntime) (pg : Postgres)

/-! ## The functions -/

/-- The sort of a normalized request. -/
def PageRequest.asc (page : PageRequest) : Bool := page.sort == ascii "asc"

/-- `time.UnixMilli`. -/
def ofUnixMilli (ms : Int) : Time := ms * 1000000

/-- The key telemetry is listed by. -/
def telemetryRowKey (rec : TelemetryRecord) : Int × Bytes := (rec.ts, rec.msgID)

/-- The `WHERE` of the telemetry list, apart from the cursor. -/
def telemetryWhere (page : PageRequest) (rec : TelemetryRecord) : Bool :=
  rec.tenantID == page.tenantID && rec.deviceID == page.deviceID &&
    (!page.hasStartTime || decide (unixMilli page.startTime.instant ≤ rec.ts)) &&
    (!page.hasEndTime || decide (rec.ts < unixMilli page.endTime.instant)) &&
    (page.type.isEmpty || rec.type == page.type)

/-- The columns of a record that are listed. -/
def TelemetryRecord.listed (rec : TelemetryRecord) : TelemetryRecord :=
  { rec with tdengineWritten := false }

/-- The records of the table as the list reads them. -/
def scannedRecords (db : TelemetryDb) : List TelemetryRecord :=
  db.records.rows.map TelemetryRecord.listed

/-- `ListTelemetryPageContext`. -/
def listTelemetryPage (db : TelemetryDb) (page : PageRequest) :
    Except GoError (List TelemetryRecord × Bytes) := do
  let page ← normalizeListRequest page .telemetry
  let (afterAt, afterID) ← decodePageCursor go page .telemetry
  let matching := (scannedRecords db).filter fun rec =>
    telemetryWhere page rec && (page.cursor.isEmpty ||
      keyAfter pg.textLe page.asc (unixMilli afterAt, afterID) (telemetryRowKey rec))
  let rows := (sortRows pg.textLe page.asc telemetryRowKey matching).take (page.size + 1).toNat
  fillPage telemetryListBytes
    (fun last => encodePageCursor page .telemetry (ofUnixMilli last.ts) last.msgID)
    page.size 0 [] rows

/-- The key commands are listed by. -/
def commandRowKey (cmd : Command) : Int × Bytes := (cmd.createdAt, cmd.id)

/-- The `WHERE` of the command list, apart from the cursor. -/
def commandWhere (page : PageRequest) (cmd : Command) : Bool :=
  cmd.tenantID == page.tenantID && (page.deviceID.isEmpty || cmd.deviceID == page.deviceID) &&
    (page.status.isEmpty || cmd.status.text == page.status) &&
    (!page.hasStartTime || decide (page.startTime.instant ≤ cmd.createdAt)) &&
    (!page.hasEndTime || decide (cmd.createdAt < page.endTime.instant))

/-- The commands of the table as `scanCommandRow` reads them. -/
def scannedCommands (db : Db) : List Command := db.commands.rows.map CommandRow.command

/-- `ListCommandsPageContext`. `nullTime` makes the zero time `NULL`, which turns the condition on
the cursor off. -/
def listCommandsPage (db : Db) (page : PageRequest) : Except GoError (List Command × Bytes) := do
  let page ← normalizeListRequest page .commands
  let (createdAt, id) ← decodePageCursor go page .commands
  let matching := (scannedCommands db).filter fun cmd =>
    commandWhere page cmd && (decide (createdAt = zeroTime) ||
      keyAfter pg.textLe page.asc (createdAt, id) (commandRowKey cmd))
  let rows := (sortRows pg.textLe page.asc commandRowKey matching).take (page.size + 1).toNat
  fillPage (commandListBytes go)
    (fun last => encodePageCursor page .commands last.createdAt last.id) page.size 0 [] rows

/-- The key of a device. -/
def Device.key (d : Device) : Bytes × Bytes := (d.tenantID, d.deviceID)

/-- The columns of a device that are listed. -/
def Device.listed (d : Device) : Device := { d with secret := [] }

/-- `ListDevicesPageContext`. -/
def listDevicesPage (devices : Table Device.key) (page : PageRequest) :
    Except GoError (List Device × Bytes) := do
  let page ← normalizeListRequest page .devices
  let (afterTenant, afterDevice) ← decodeDeviceCursor page.cursor
  returnIf (afterTenant ≠ [] ∧ afterTenant ≠ page.tenantID) errInvalidCursor
  let matching := (devices.rows.map Device.listed).filter fun d =>
    d.tenantID == page.tenantID && !pg.textLe d.deviceID afterDevice
  let rows := (matching.mergeSort fun d other => pg.textLe d.deviceID other.deviceID).take
    (page.size + 1).toNat
  fillPage deviceListBytes (fun last => encodeDeviceCursor last.tenantID last.deviceID)
    page.size 0 [] rows

/-- The tenant a cursor names. -/
def tenantAfter (parts : List Bytes) : Bytes :=
  match parts with
  | [only] => only
  | _ => []

/-- `ListTenantsPageContext`. -/
def listTenantsPage (tenants : Table Tenant.id) (page : PageRequest) :
    Except GoError (List Tenant × Bytes) := do
  let page ← normalizePageRequest page.size page.cursor
  let parts ← decodeCursor page.cursor 1
  let rows := tenants.select (fun t => !pg.textLe t.id (tenantAfter parts))
    (fun t other => pg.textLe t.id other.id) (page.size + 1).toNat
  fillPage tenantListBytes (fun last => encodeCursor [last.id]) page.size 0 [] rows

variable {go pg}

/-! ## What the lists return -/

/-- A time lies within the bounds of a request, the upper one excluded. -/
def PageRequest.InBounds (page : PageRequest) (time : Time) : Prop :=
  (page.hasStartTime → page.startTime.instant ≤ time) ∧
  (page.hasEndTime → time < page.endTime.instant)

/-- The records a request is for. -/
structure TelemetryMatches (page : PageRequest) (rec : TelemetryRecord) : Prop where
  tenant : rec.tenantID = page.tenantID
  device : rec.deviceID = page.deviceID
  type : page.type = [] ∨ rec.type = page.type
  bounds : page.InBounds (ofUnixMilli rec.ts)

/-- The commands a request is for. -/
structure CommandMatches (page : PageRequest) (cmd : Command) : Prop where
  tenant : cmd.tenantID = page.tenantID
  device : page.deviceID = [] ∨ cmd.deviceID = page.deviceID
  status : page.status = [] ∨ cmd.status.text = page.status
  bounds : page.InBounds cmd.createdAt

/-- A cursor does not depend on the page it was issued with. -/
theorem encodePageCursor_at (page : PageRequest) (kind : ListKind) (size : Int) (cursor : Bytes)
    (time : Time) (id : Bytes) :
    encodePageCursor (page.at size cursor) kind time id = encodePageCursor page kind time id := by
  unfold encodePageCursor
  rw [cursorScope_at]

/-- The cursor of a listable row is read back from a request for the same list. -/
theorem Listable.decode {kind : ListKind} {time : Time} {id : Bytes} (h : Listable kind time id)
    (page : PageRequest) (size : Int) :
    (encodePageCursor page kind time id).length ≤ maxCursorBytes ∧
    decodePageCursor go (page.at size (encodePageCursor page kind time id)) kind =
      .ok (time, id) := by
  obtain ⟨text, htext⟩ := Option.isSome_iff_exists.mp
    (rfc3339Nano_isSome (t := time) ⟨by have := h.year.1; omega, h.year.2⟩)
  refine ⟨length_encodePageCursor htext (storageID_iff.mp h.id).2.1, ?_⟩
  have hdecode := @decodePageCursor_encodePageCursor go page page kind time id text htext h.id
    rfl size
  have hprecise : unsupportedPrecision kind time = false := h.precise
  rwa [hprecise, if_neg Bool.false_ne_true] at hdecode

/-- The empty cursor has no row. -/
theorem decodePageCursor_nil (page : PageRequest) (kind : ListKind) (size : Int) :
    decodePageCursor go (page.at size []) kind = .ok (zeroTime, []) := by
  unfold decodePageCursor
  exact if_pos rfl

/-- A bound with no more than milliseconds is compared alike in milliseconds. -/
theorem unixMilli_bounds {bound : Time} (h : nanosecond bound % 1000000 = 0) (ms : Int) :
    (unixMilli bound ≤ ms ↔ bound ≤ ofUnixMilli ms) ∧
    (ms < unixMilli bound ↔ ofUnixMilli ms < bound) := by
  have hcount : ∀ b m : Int, b % 1000000 = 0 →
      (b / 1000000 ≤ m ↔ b ≤ m * 1000000) ∧ (m < b / 1000000 ↔ m * 1000000 < b) := by
    intro b m hb
    omega
  rw [nanosecond, Int.emod_emod_of_dvd bound (by decide)] at h
  exact hcount bound ms h

/-- A bound that is accepted has no more than milliseconds. -/
theorem milliseconds_of_supported {stamp : Stamp} (h : unsupportedStamp stamp = false) :
    nanosecond stamp.instant % 1000000 = 0 := by
  by_cases hzero : stamp.instant = zeroTime
  · rw [hzero]
    decide
  · simp only [unsupportedStamp, Stamp.isZero, hzero, decide_false, Bool.not_false, Bool.true_and,
      Bool.or_eq_false_iff, decide_eq_false_iff_not, not_not] at h
    exact h.2

/-- The bounds of an accepted request have no more than milliseconds. -/
theorem Accepts.milliseconds {page normalized : PageRequest} {kind : ListKind}
    (h : Accepts page kind normalized) :
    nanosecond normalized.startTime.instant % 1000000 = 0 ∧
    nanosecond normalized.endTime.instant % 1000000 = 0 := by
  simp only [Accepts, normalizeListRequest, bind_eq_ok] at h
  obtain ⟨n, hn, _, _, _, _, _, _, _, _, _, hstamps, _, _, _, _, hpage⟩ := h
  rw [← Except.ok.inj hpage]
  simp only [List.any_cons, List.any_nil, Bool.or_false, Bool.or_eq_true, returnIf_eq_ok, not_or,
    Bool.not_eq_true] at hstamps
  exact ⟨milliseconds_of_supported hstamps.1, milliseconds_of_supported hstamps.2⟩

/-- What the `WHERE` of the telemetry list selects. -/
theorem telemetryWhere_iff {page normalized : PageRequest}
    (h : Accepts page .telemetry normalized) (rec : TelemetryRecord) :
    telemetryWhere normalized rec = true ↔ TelemetryMatches normalized rec := by
  obtain ⟨hstart, hend⟩ := h.milliseconds
  simp only [telemetryWhere, Bool.and_eq_true, Bool.or_eq_true, beq_iff_eq, Bool.not_eq_true',
    decide_eq_true_eq, List.isEmpty_iff, (unixMilli_bounds hstart _).1,
    (unixMilli_bounds hend _).2]
  constructor
  · rintro ⟨⟨⟨⟨htenant, hdevice⟩, hfrom⟩, hto⟩, htype⟩
    refine ⟨htenant, hdevice, htype, fun hhas => ?_, fun hhas => ?_⟩
    · exact hfrom.resolve_left (by simp [hhas])
    · exact hto.resolve_left (by simp [hhas])
  · intro hmatch
    refine ⟨⟨⟨⟨hmatch.tenant, hmatch.device⟩, ?_⟩, ?_⟩, hmatch.type⟩
    · cases hhas : normalized.hasStartTime
      · exact .inl rfl
      · exact .inr (hmatch.bounds.1 hhas)
    · cases hhas : normalized.hasEndTime
      · exact .inl rfl
      · exact .inr (hmatch.bounds.2 hhas)

/-- One request for a page of telemetry. -/
theorem listTelemetryPage_serves {page normalized : PageRequest}
    (h : Accepts page .telemetry normalized) {db : TelemetryDb} {size : Int}
    (hsize : 1 ≤ size ∧ size ≤ 100) {cursor : Bytes} (hcursor : cursor.length ≤ maxCursorBytes)
    {after : Time × Bytes}
    (hdecode : decodePageCursor go (normalized.at size cursor) .telemetry = .ok after) :
    Serves telemetryListBytes listContentBytes errListItemTooLarge
      (fun rec => encodePageCursor normalized .telemetry (ofUnixMilli rec.ts) rec.msgID) []
      size.toNat (sortRows pg.textLe normalized.asc telemetryRowKey ((scannedRecords db).filter
        fun rec => telemetryWhere normalized rec && (cursor.isEmpty ||
          keyAfter pg.textLe normalized.asc (unixMilli after.1, after.2) (telemetryRowKey rec))))
      (listTelemetryPage go pg db (page.at size cursor)) := by
  have hlist := listTelemetryPage.eq_1 go pg db (page.at size cursor)
  rw [h.at hsize.1 hsize.2 hcursor] at hlist
  simp only [bind, Except.bind, hdecode, encodePageCursor_at] at hlist
  rw [hlist]
  exact fillPage_take_serves hsize.1 _

/-- The keys of a table differ, so its rows do. -/
theorem nodup_rows {Row Key : Type} {key : Row → Key} (table : Table key) : table.rows.Nodup :=
  List.Nodup.of_map key table.nodup

/-- The records that are read have different keys. -/
theorem nodup_scannedRecords (db : TelemetryDb) : ((scannedRecords db).map telemetryKey).Nodup := by
  have hkeys : (scannedRecords db).map telemetryKey = db.records.rows.map telemetryKey := by
    rw [scannedRecords, List.map_map]
    rfl
  rw [hkeys]
  exact db.records.nodup

section Telemetry

variable {page normalized : PageRequest} (h : Accepts page .telemetry normalized) {db : TelemetryDb}
  (hrows : ∀ rec ∈ scannedRecords db, Listable .telemetry (ofUnixMilli rec.ts) rec.msgID)
  {sizes : Nat → Int} (hsizes : ∀ number, 1 ≤ sizes number ∧ sizes number ≤ 100)

include h hrows hsizes

/-- Telemetry is listed by device time and id. -/
theorem telemetry_keyset :
    Keyset pg.textLe normalized.asc telemetryRowKey (scannedRecords db) (telemetryWhere normalized)
      (fun rec => encodePageCursor normalized .telemetry (ofUnixMilli rec.ts) rec.msgID) []
      telemetryListBytes listContentBytes errListItemTooLarge (fun number => (sizes number).toNat)
      (fun number cursor => listTelemetryPage go pg db (page.at (sizes number) cursor)) := by
  have hnodup := nodup_scannedRecords db
  refine ⟨List.Nodup.of_map _ hnodup, fun rec hrec other hother hmatch hmatch' hkey => ?_,
    fun rec _ => encodePageCursor_ne_nil normalized .telemetry (ofUnixMilli rec.ts) rec.msgID,
    fun number => ?_, fun rec hrec _ number => ?_⟩
  · have hrec' := (telemetryWhere_iff h rec).mp hmatch
    have hother' := (telemetryWhere_iff h other).mp hmatch'
    refine List.inj_on_of_nodup_map hnodup hrec hother ?_
    rw [telemetryKey, telemetryKey, hrec'.tenant, hrec'.device, hother'.tenant, hother'.device,
      (Prod.mk.inj hkey).2]
  · have hserves := @listTelemetryPage_serves go pg _ _ h db _ (hsizes number) [] (by decide) _
      (decodePageCursor_nil ..)
    simpa only [List.isEmpty_nil, Bool.true_or, Bool.and_true] using hserves
  · obtain ⟨hlength, hdecode⟩ := @Listable.decode go _ _ _ (hrows rec hrec) normalized
      (sizes number)
    have hserves := @listTelemetryPage_serves go pg _ _ h db _ (hsizes number) _ hlength _ hdecode
    have hmillis : unixMilli (ofUnixMilli rec.ts) = rec.ts := Int.mul_ediv_cancel _ (by decide)
    have hcursor : (encodePageCursor normalized .telemetry (ofUnixMilli rec.ts) rec.msgID).isEmpty =
        false := by
      simpa using encodePageCursor_ne_nil normalized .telemetry (ofUnixMilli rec.ts) rec.msgID
    simp only [hcursor, Bool.false_or, hmillis] at hserves
    exact hserves

/-- Telemetry is read back page by page as it is stored, whatever sizes the pages have: every record
that matches once, in the order of device time and id. -/
theorem telemetry_pages_exact (hpg : Linear pg.textLe) :
    ∃ listed, Lists (scannedRecords db) (TelemetryMatches normalized)
        (fun rec other => KeyBefore pg.textLe normalized.asc (telemetryRowKey rec)
          (telemetryRowKey other)) listed ∧
      ReadsExactly (fun number cursor => listTelemetryPage go pg db (page.at (sizes number) cursor))
        [] telemetryListBytes listContentBytes errListItemTooLarge
        (fun number => (sizes number).toNat) listed :=
  (telemetry_keyset h hrows hsizes).lists hpg fun rec _ => telemetryWhere_iff h rec

end Telemetry

/-- A database that orders texts byte by byte. -/
def bytewise : Postgres := ⟨.ok, fun value other => value == other, stringLe⟩

/-- The order of such a database. -/
theorem linear_bytewise : Linear bytewise.textLe :=
  ⟨stringLe_trans, stringLe_total, stringLe_antisymm⟩

/-- A record of one device. -/
def sampleRecord (id : String) (ts : Int) : TelemetryRecord :=
  ⟨ascii id, ascii "acme", ascii "pump", ts, ascii "report", ascii "1", ascii "\x7b\x7d", false, 8⟩

/-- Three records, two of them of the same millisecond. -/
def threeRecords : TelemetryDb :=
  ⟨[], ⟨[sampleRecord "a" 5, sampleRecord "b" 5, sampleRecord "c" 7], by decide⟩⟩

/-- The telemetry of the device, the newest first. -/
def newestReadings : PageRequest :=
  { PageRequest.zero with tenantID := ascii "acme", deviceID := ascii "pump", sort := ascii "desc" }

theorem accepts_newestReadings : Accepts newestReadings .telemetry (newestReadings.at 1 []) := by
  rw [Accepts]
  rfl

theorem listable_threeRecords : ∀ rec ∈ scannedRecords threeRecords,
    Listable .telemetry (ofUnixMilli rec.ts) rec.msgID := by
  intro rec hrec
  have hstored : (validateStorageField "id" (ascii "a") 64).isOk ∧
      (validateStorageField "id" (ascii "b") 64).isOk ∧
      (validateStorageField "id" (ascii "c") 64).isOk := by decide +kernel
  simp only [scannedRecords, threeRecords, List.map_cons, List.map_nil, List.mem_cons,
    List.not_mem_nil, or_false] at hrec
  obtain rfl | rfl | rfl := hrec
  · exact ⟨by decide, by unfold Precise; decide, hstored.1⟩
  · exact ⟨by decide, by unfold Precise; decide, hstored.2.1⟩
  · exact ⟨by decide, by unfold Precise; decide, hstored.2.2⟩

/-- They are read one by one. -/
theorem telemetry_pages_exact_ones :
    ∃ listed, Lists (scannedRecords threeRecords) (TelemetryMatches (newestReadings.at 1 []))
        (fun rec other => KeyBefore bytewise.textLe false (telemetryRowKey rec)
          (telemetryRowKey other)) listed ∧
      ReadsExactly (fun _ cursor => listTelemetryPage GoRuntime.plain bytewise threeRecords
        (newestReadings.at 1 cursor))
        [] telemetryListBytes listContentBytes errListItemTooLarge (fun _ => 1) listed := by
  have hsize : 1 ≤ (1 : Int) ∧ (1 : Int) ≤ 100 := by decide
  exact telemetry_pages_exact accepts_newestReadings listable_threeRecords (fun _ => hsize)
    linear_bytewise

/-! ## Commands -/

/-- What the `WHERE` of the command list selects. -/
theorem commandWhere_iff (page : PageRequest) (cmd : Command) :
    commandWhere page cmd = true ↔ CommandMatches page cmd := by
  simp only [commandWhere, Bool.and_eq_true, Bool.or_eq_true, beq_iff_eq, Bool.not_eq_true',
    decide_eq_true_eq, List.isEmpty_iff]
  constructor
  · rintro ⟨⟨⟨⟨htenant, hdevice⟩, hstatus⟩, hfrom⟩, hto⟩
    refine ⟨htenant, hdevice, hstatus, fun hhas => ?_, fun hhas => ?_⟩
    · exact hfrom.resolve_left (by simp [hhas])
    · exact hto.resolve_left (by simp [hhas])
  · intro hmatch
    refine ⟨⟨⟨⟨hmatch.tenant, hmatch.device⟩, hmatch.status⟩, ?_⟩, ?_⟩
    · cases hhas : page.hasStartTime
      · exact .inl rfl
      · exact .inr (hmatch.bounds.1 hhas)
    · cases hhas : page.hasEndTime
      · exact .inl rfl
      · exact .inr (hmatch.bounds.2 hhas)

/-- The commands that are read have different ids. -/
theorem nodup_scannedCommands (db : Db) : ((scannedCommands db).map Command.id).Nodup := by
  have hids : (scannedCommands db).map Command.id = db.commands.rows.map CommandRow.id := by
    rw [scannedCommands, List.map_map]
    rfl
  rw [hids]
  exact db.commands.nodup

/-- The commands after a row, or all of them when the row is of the zero time. -/
def commandsAfter (pg : Postgres) (db : Db) (page : PageRequest) (after : Time × Bytes) :
    List Command :=
  sortRows pg.textLe page.asc commandRowKey ((scannedCommands db).filter fun cmd =>
    commandWhere page cmd && (decide (after.1 = zeroTime) ||
      keyAfter pg.textLe page.asc after (commandRowKey cmd)))

/-- One request for a page of commands. -/
theorem listCommandsPage_eq {page normalized : PageRequest}
    (h : Accepts page .commands normalized) {db : Db} {size : Int}
    (hsize : 1 ≤ size ∧ size ≤ 100) {cursor : Bytes} (hcursor : cursor.length ≤ maxCursorBytes)
    {after : Time × Bytes}
    (hdecode : decodePageCursor go (normalized.at size cursor) .commands = .ok after) :
    listCommandsPage go pg db (page.at size cursor) = fillPage (commandListBytes go)
      (fun cmd => encodePageCursor normalized .commands cmd.createdAt cmd.id) size 0 []
      ((commandsAfter pg db normalized after).take (size + 1).toNat) := by
  have hlist := listCommandsPage.eq_1 go pg db (page.at size cursor)
  rw [h.at hsize.1 hsize.2 hcursor] at hlist
  simp only [bind, Except.bind, hdecode, encodePageCursor_at] at hlist
  exact hlist

section Commands

variable {page normalized : PageRequest} (h : Accepts page .commands normalized) {db : Db}
  (hrows : ∀ cmd ∈ scannedCommands db,
    Listable .commands cmd.createdAt cmd.id ∧ cmd.createdAt ≠ zeroTime)
  {sizes : Nat → Int} (hsizes : ∀ number, 1 ≤ sizes number ∧ sizes number ≤ 100)

include h hrows hsizes

/-- Commands are listed by their time and id, unless one was created at the zero time. -/
theorem command_keyset :
    Keyset pg.textLe normalized.asc commandRowKey (scannedCommands db) (commandWhere normalized)
      (fun cmd => encodePageCursor normalized .commands cmd.createdAt cmd.id) []
      (commandListBytes go) listContentBytes errListItemTooLarge
      (fun number => (sizes number).toNat)
      (fun number cursor => listCommandsPage go pg db (page.at (sizes number) cursor)) := by
  have hnodup := nodup_scannedCommands db
  refine ⟨List.Nodup.of_map _ hnodup, fun cmd hcmd other hother _ _ hkey => ?_,
    fun cmd _ => encodePageCursor_ne_nil normalized .commands cmd.createdAt cmd.id,
    fun number => ?_, fun cmd hcmd _ number => ?_⟩
  · exact List.inj_on_of_nodup_map hnodup hcmd hother (Prod.mk.inj hkey).2
  · have hall : commandsAfter pg db normalized (zeroTime, []) = sortRows pg.textLe normalized.asc
        commandRowKey ((scannedCommands db).filter (commandWhere normalized)) := by
      simp only [commandsAfter, decide_true, Bool.true_or, Bool.and_true]
    rw [listCommandsPage_eq h (hsizes number) (by decide) (decodePageCursor_nil ..), hall]
    exact fillPage_take_serves (hsizes number).1 _
  · obtain ⟨hlistable, hzero⟩ := hrows cmd hcmd
    obtain ⟨hlength, hdecode⟩ := @Listable.decode go _ _ _ hlistable normalized (sizes number)
    rw [listCommandsPage_eq h (hsizes number) hlength hdecode, commandsAfter,
      decide_eq_false hzero]
    exact fillPage_take_serves (hsizes number).1 _

/-- Commands are read back page by page as they are stored, whatever sizes the pages have, unless
one was created at the zero time. -/
theorem command_pages_exact (hpg : Linear pg.textLe) :
    ∃ listed, Lists (scannedCommands db) (CommandMatches normalized)
        (fun cmd other => KeyBefore pg.textLe normalized.asc (commandRowKey cmd)
          (commandRowKey other)) listed ∧
      ReadsExactly (fun number cursor => listCommandsPage go pg db (page.at (sizes number) cursor))
        [] (commandListBytes go) listContentBytes errListItemTooLarge
        (fun number => (sizes number).toNat) listed :=
  (command_keyset h hrows hsizes).lists hpg fun cmd _ => commandWhere_iff normalized cmd

end Commands

/-- A command of one tenant. -/
def sampleRow (id : String) (createdAt : Time) : CommandRow :=
  ⟨ascii id, ascii "acme", ascii "pump", .created, ascii "1", createdAt, 0, none, createdAt,
    createdAt, none, none⟩

/-- Two commands created at one time. -/
def twoCommands (createdAt : Time) : Db :=
  ⟨[], ⟨[sampleRow "a" createdAt, sampleRow "b" createdAt],
    show [ascii "a", ascii "b"].Nodup by decide⟩, [], [], by simp, by simp⟩

/-- The oldest commands of the tenant first. -/
def oldestFirst : PageRequest :=
  { PageRequest.zero with tenantID := ascii "acme", sort := ascii "asc" }

theorem accepts_oldestFirst : Accepts oldestFirst .commands (oldestFirst.at 1 []) := by
  rw [Accepts]
  rfl

/-- Two commands of 1970 are read one by one. -/
theorem command_pages_exact_ones :
    ∃ listed, Lists (scannedCommands (twoCommands 0)) (CommandMatches (oldestFirst.at 1 []))
        (fun cmd other => KeyBefore bytewise.textLe true (commandRowKey cmd) (commandRowKey other))
        listed ∧
      ReadsExactly (fun _ cursor => listCommandsPage GoRuntime.plain bytewise (twoCommands 0)
        (oldestFirst.at 1 cursor))
        [] (commandListBytes GoRuntime.plain) listContentBytes errListItemTooLarge (fun _ => 1)
        listed := by
  have hstored : (validateStorageField "id" (ascii "a") 64).isOk ∧
      (validateStorageField "id" (ascii "b") 64).isOk := by decide +kernel
  have hcommands : ∀ cmd ∈ scannedCommands (twoCommands 0),
      Listable .commands cmd.createdAt cmd.id ∧ cmd.createdAt ≠ zeroTime := by
    intro cmd hcmd
    simp only [scannedCommands, twoCommands, List.map_cons, List.map_nil, List.mem_cons,
      List.not_mem_nil, or_false] at hcmd
    obtain rfl | rfl := hcmd
    · exact ⟨⟨by decide, by unfold Precise; decide, hstored.1⟩, by decide⟩
    · exact ⟨⟨by decide, by unfold Precise; decide, hstored.2⟩, by decide⟩
  have hsize : 1 ≤ (1 : Int) ∧ (1 : Int) ≤ 100 := by decide
  exact command_pages_exact accepts_oldestFirst hcommands (fun _ => hsize) linear_bytewise

/-- A page that ends at a command created at the zero time is followed by itself: the cursor of the
next page turns the condition on the cursor off, and reading never ends. -/
theorem command_pages_endless {page normalized : PageRequest}
    (h : Accepts page .commands normalized) {db : Db} {size : Int} (hsize : 1 ≤ size ∧ size ≤ 100)
    {rows : List Command} {next : Bytes}
    (hfirst : listCommandsPage go pg db (page.at size []) = .ok (rows, next)) (hnext : next ≠ [])
    (hlast : ∀ cmd ∈ rows.getLast?, cmd.createdAt = zeroTime ∧ StorageID cmd.id)
    (requests : Nat) :
    (follow (fun _ cursor => listCommandsPage go pg db (page.at size cursor)) [] requests 0 []).2 =
      .unfinished := by
  have hempty := @listCommandsPage_eq go pg _ _ h db _ hsize [] (by decide) _
    (decodePageCursor_nil ..)
  -- the cursor is that of the last row
  obtain ⟨cmd, -, hcmd, hcursor⟩ : ∃ cmd ∈ commandsAfter pg db normalized (zeroTime, []),
      rows.getLast? = some cmd ∧
        next = encodePageCursor normalized .commands cmd.createdAt cmd.id := by
    have hserves := @fillPage_take_serves Command (commandListBytes go)
      (fun cmd => encodePageCursor normalized .commands cmd.createdAt cmd.id) _ hsize.1
      (commandsAfter pg db normalized (zeroTime, []))
    rw [← hempty, hfirst] at hserves
    exact hserves.cursor_eq hnext
  obtain ⟨hzero, hid⟩ := hlast cmd hcmd
  have hlistable : Listable .commands zeroTime cmd.id :=
    ⟨by decide, show unsupportedPrecision .commands zeroTime = false by decide, hid⟩
  rw [hzero] at hcursor
  obtain ⟨hlength, hdecode⟩ := @Listable.decode go _ _ _ hlistable normalized size
  rw [← hcursor] at hlength hdecode
  have hagain : listCommandsPage go pg db (page.at size next) = .ok (rows, next) := by
    rw [← hfirst, hempty, listCommandsPage_eq h hsize hlength hdecode]
    simp only [commandsAfter, decide_true, Bool.true_or]
  refine @follow_unfinished _ _ _ _ _ _ (fun cursor => cursor = [] ∨ cursor = next) ?_ requests 0 []
    (.inl rfl)
  rintro cursor (rfl | rfl) number
  · exact ⟨rows, next, hfirst, hnext, .inr rfl⟩
  · exact ⟨rows, cursor, hagain, hnext, .inr rfl⟩

/-- Two commands of the zero time are not read with a thousand requests. -/
theorem command_pages_endless_ones :
    (follow (fun _ cursor => listCommandsPage GoRuntime.plain bytewise (twoCommands zeroTime)
      (oldestFirst.at 1 cursor)) [] 1000 0 []).2 = .unfinished := by
  have hsize : 1 ≤ (1 : Int) ∧ (1 : Int) ≤ 100 := by decide
  have hsorted :
      commandsAfter bytewise (twoCommands zeroTime) (oldestFirst.at 1 []) (zeroTime, []) =
      [(sampleRow "a" zeroTime).command, (sampleRow "b" zeroTime).command] := by
    have hfilter : ((scannedCommands (twoCommands zeroTime)).filter fun cmd =>
        commandWhere (oldestFirst.at 1 []) cmd && (decide (zeroTime = zeroTime) ||
          keyAfter bytewise.textLe (oldestFirst.at 1 []).asc (zeroTime, []) (commandRowKey cmd))) =
        [(sampleRow "a" zeroTime).command, (sampleRow "b" zeroTime).command] := by decide
    rw [commandsAfter, hfilter]
    refine List.mergeSort_of_pairwise ?_
    decide
  have hfirst := @listCommandsPage_eq GoRuntime.plain bytewise _ _ accepts_oldestFirst
    (twoCommands zeroTime) 1 hsize [] (by decide) _ (decodePageCursor_nil ..)
  rw [hsorted] at hfirst
  have hstored : (validateStorageField "id" (ascii "a") 64).isOk := by decide +kernel
  have hpage : listCommandsPage GoRuntime.plain bytewise (twoCommands zeroTime)
      (oldestFirst.at 1 []) = .ok ([(sampleRow "a" zeroTime).command],
        encodePageCursor (oldestFirst.at 1 []) .commands zeroTime (ascii "a")) := by
    have hfits : commandListBytes GoRuntime.plain (sampleRow "a" zeroTime).command ≤
        listContentBytes := by decide
    rw [hfirst, show ((1 : Int) + 1).toNat = 2 from rfl]
    exact fillPage_one hfits
  refine command_pages_endless accepts_oldestFirst hsize hpage
    (encodePageCursor_ne_nil _ _ _ _) ?_ 1000
  intro cmd hcmd
  cases hcmd
  exact ⟨rfl, hstored⟩

/-! ## Devices and tenants -/

/-- The order of ids alone. -/
theorem orderBy_ids (le : Bytes → Bytes → Bool) (id other : Bytes) :
    orderBy le true (0, id) (0, other) = le id other := by
  simp [orderBy, keyLe]

/-- The ids after another. -/
theorem keyAfter_ids (le : Bytes → Bytes → Bool) (id other : Bytes) :
    keyAfter le true (0, id) (0, other) = !le other id := by
  rw [keyAfter_eq, orderBy_ids]

/-- Every id that can be stored comes after the empty text. -/
theorem StorageID.after_nil (hpg : Linear pg.textLe) (hnil : ∀ text, pg.textLe [] text = true)
    {id : Bytes} (h : StorageID id) : pg.textLe id [] = false := by
  rw [← Bool.not_eq_true]
  intro hle
  exact (storageID_iff.mp h).1 (hpg.antisymm _ _ hle (hnil id))

/-- A cursor of ids is short enough. -/
theorem length_encodeCursor {parts : List Bytes} (hcount : parts.length ≤ 2)
    (h : ∀ part ∈ parts, StorageID part) : (encodeCursor parts).length ≤ maxCursorBytes := by
  have hlength : ∀ part ∈ parts, part.length ≤ 64 := fun part hpart =>
    (storageID_iff.mp (h part hpart)).2.1
  have hjoined : ([0x00].intercalate parts).length ≤ 129 := by
    match parts, hcount with
    | [], _ => decide
    | [first], _ =>
        have := hlength first (by simp)
        simp only [List.intercalate_singleton]
        omega
    | [first, second], _ =>
        have := hlength first (by simp)
        have := hlength second (by simp)
        simp only [List.intercalate_cons_cons, List.intercalate_singleton, List.length_append,
          List.length_singleton]
        omega
  have hencoded := length_encodeRawURL_le ([0x00].intercalate parts)
  rw [encodeCursor, maxCursorBytes]
  omega

/-- The keys of the devices that are listed. -/
theorem nodup_listed (devices : Table Device.key) :
    ((devices.rows.map Device.listed).map Device.key).Nodup := by
  have hkeys : (devices.rows.map Device.listed).map Device.key = devices.rows.map Device.key := by
    rw [List.map_map]
    rfl
  rw [hkeys]
  exact devices.nodup

/-- One request for a page of devices. -/
theorem listDevicesPage_serves {page normalized : PageRequest}
    (h : Accepts page .devices normalized) {devices : Table Device.key} {size : Int}
    (hsize : 1 ≤ size ∧ size ≤ 100) {cursor : Bytes} (hcursor : cursor.length ≤ maxCursorBytes)
    {afterTenant afterDevice : Bytes}
    (hdecode : decodeDeviceCursor cursor = .ok (afterTenant, afterDevice))
    (htenant : afterTenant = [] ∨ afterTenant = normalized.tenantID) :
    Serves deviceListBytes listContentBytes errListItemTooLarge
      (fun d => encodeDeviceCursor d.tenantID d.deviceID) [] size.toNat
      (sortRows pg.textLe true (fun d : Device => (0, d.deviceID))
        ((devices.rows.map Device.listed).filter fun d =>
          d.tenantID == normalized.tenantID && !pg.textLe d.deviceID afterDevice))
      (listDevicesPage pg devices (page.at size cursor)) := by
  have hsame : ¬ (afterTenant ≠ [] ∧ afterTenant ≠ (normalized.at size cursor).tenantID) :=
    fun hother => htenant.elim hother.1 hother.2
  have hlist := listDevicesPage.eq_1 pg devices (page.at size cursor)
  rw [h.at hsize.1 hsize.2 hcursor] at hlist
  have hdecode' : decodeDeviceCursor (normalized.at size cursor).cursor =
      .ok (afterTenant, afterDevice) := hdecode
  simp only [bind, Except.bind, hdecode', returnIf, if_neg hsame] at hlist
  rw [hlist]
  simp only [sortRows, orderBy_ids]
  exact fillPage_take_serves hsize.1 _

/-- The devices of a tenant are read back page by page, whatever sizes the pages have and without
their secrets. The cursor before the first row is the empty text, which the database has to order
first. -/
theorem device_pages_exact (hpg : Linear pg.textLe) (hnil : ∀ text, pg.textLe [] text = true)
    {page normalized : PageRequest} (h : Accepts page .devices normalized)
    {devices : Table Device.key}
    (hrows : ∀ d ∈ devices.rows, StorageID d.tenantID ∧ StorageID d.deviceID)
    {sizes : Nat → Int} (hsizes : ∀ number, 1 ≤ sizes number ∧ sizes number ≤ 100) :
    ∃ listed, Lists (devices.rows.map Device.listed)
        (fun d => d.tenantID = normalized.tenantID)
        (fun d other => KeyBefore pg.textLe true (0, d.deviceID) (0, other.deviceID)) listed ∧
      ReadsExactly (fun number cursor => listDevicesPage pg devices (page.at (sizes number) cursor))
        [] deviceListBytes listContentBytes errListItemTooLarge
        (fun number => (sizes number).toNat) listed := by
  have hnodup := nodup_listed devices
  have hstored : ∀ d ∈ devices.rows.map Device.listed,
      StorageID d.tenantID ∧ StorageID d.deviceID := by
    intro d hd
    obtain ⟨row, hrow, rfl⟩ := List.mem_map.mp hd
    exact hrows row hrow
  have hparts : ∀ d ∈ devices.rows.map Device.listed,
      ∀ part ∈ [d.tenantID, d.deviceID], StorageID part := by
    intro d hd
    simpa using hstored d hd
  suffices hkeyset : Keyset pg.textLe true (fun d : Device => (0, d.deviceID))
      (devices.rows.map Device.listed) (fun d => d.tenantID == normalized.tenantID)
      (fun d => encodeDeviceCursor d.tenantID d.deviceID) [] deviceListBytes listContentBytes
      errListItemTooLarge (fun number => (sizes number).toNat)
      (fun number cursor => listDevicesPage pg devices (page.at (sizes number) cursor)) from
    hkeyset.lists hpg fun d _ => beq_iff_eq
  refine ⟨List.Nodup.of_map _ hnodup, fun d hd other hother hmatch hmatch' hkey => ?_,
    fun d hd => ?_, fun number => ?_, fun d hd hmatch number => ?_⟩
  · refine List.inj_on_of_nodup_map hnodup hd hother ?_
    rw [Device.key, Device.key, beq_iff_eq.mp hmatch, beq_iff_eq.mp hmatch', (Prod.mk.inj hkey).2]
  · exact (decodeCursor_encodeCursor (by simp) (hparts d hd)).2
  · have hserves := @listDevicesPage_serves pg _ _ h devices _ (hsizes number) [] (by decide)
      [] [] rfl (.inl rfl)
    have hall : ((devices.rows.map Device.listed).filter fun d =>
        d.tenantID == normalized.tenantID && !pg.textLe d.deviceID []) =
        (devices.rows.map Device.listed).filter fun d => d.tenantID == normalized.tenantID := by
      refine List.filter_congr fun d hd => ?_
      rw [(hstored d hd).2.after_nil hpg hnil, Bool.not_false, Bool.and_true]
    rwa [hall] at hserves
  · have hdecode : decodeDeviceCursor (encodeDeviceCursor d.tenantID d.deviceID) =
        .ok (d.tenantID, d.deviceID) := by
      have hread := (decodeCursor_encodeCursor (by simp) (hparts d hd)).1
      simp only [List.length_cons, List.length_nil] at hread
      rw [decodeDeviceCursor, encodeDeviceCursor, hread]
    have hshort : (encodeDeviceCursor d.tenantID d.deviceID).length ≤ maxCursorBytes :=
      length_encodeCursor (by simp) (hparts d hd)
    have hserves := @listDevicesPage_serves pg _ _ h devices _ (hsizes number) _ hshort _ _
      hdecode (.inr (beq_iff_eq.mp hmatch))
    simpa only [keyAfter_ids] using hserves

/-- Two devices with secrets. -/
def twoDevices : Table Device.key :=
  ⟨[⟨ascii "acme", ascii "pump", ascii "p1", ascii "secret", 0⟩,
    ⟨ascii "acme", ascii "valve", ascii "p1", ascii "secret", 0⟩], by decide⟩

/-- They are read one by one. -/
theorem device_pages_exact_ones :
    ∃ listed, Lists (twoDevices.rows.map Device.listed) (fun d => d.tenantID = ascii "acme")
        (fun d other => KeyBefore bytewise.textLe true (0, d.deviceID) (0, other.deviceID)) listed ∧
      ReadsExactly (fun _ cursor => listDevicesPage bytewise twoDevices (oldestFirst.at 1 cursor))
        [] deviceListBytes listContentBytes errListItemTooLarge (fun _ => 1) listed := by
  have haccepts : Accepts oldestFirst .devices (oldestFirst.at 1 []) := by
    rw [Accepts]
    rfl
  have hstored : (validateStorageField "id" (ascii "acme") 64).isOk ∧
      (validateStorageField "id" (ascii "pump") 64).isOk ∧
      (validateStorageField "id" (ascii "valve") 64).isOk := by decide +kernel
  have hdevices : ∀ d ∈ twoDevices.rows, StorageID d.tenantID ∧ StorageID d.deviceID := by
    intro d hd
    simp only [twoDevices, List.mem_cons, List.not_mem_nil, or_false] at hd
    obtain rfl | rfl := hd
    · exact ⟨hstored.1, hstored.2.1⟩
    · exact ⟨hstored.1, hstored.2.2⟩
  have hsize : 1 ≤ (1 : Int) ∧ (1 : Int) ≤ 100 := by decide
  exact device_pages_exact linear_bytewise (fun _ => rfl) haccepts hdevices fun _ => hsize

/-- One request for a page of tenants. -/
theorem listTenantsPage_serves {tenants : Table Tenant.id} {page : PageRequest} {size : Int}
    (hsize : 1 ≤ size ∧ size ≤ 100) {cursor : Bytes} (hcursor : cursor.length ≤ maxCursorBytes)
    {parts : List Bytes} (hdecode : decodeCursor cursor 1 = .ok parts) :
    Serves tenantListBytes listContentBytes errListItemTooLarge
      (fun t => encodeCursor [t.id]) [] size.toNat
      (sortRows pg.textLe true (fun t : Tenant => (0, t.id))
        (tenants.rows.filter fun t => !pg.textLe t.id (tenantAfter parts)))
      (listTenantsPage pg tenants (page.at size cursor)) := by
  have hlist := listTenantsPage.eq_1 pg tenants (page.at size cursor)
  have hnormal : normalizePageRequest (page.at size cursor).size (page.at size cursor).cursor =
      .ok (PageRequest.zero.at size cursor) := normalizePageRequest_ok hsize.1 hsize.2 hcursor
  have hdecode' : decodeCursor (PageRequest.zero.at size cursor).cursor 1 = .ok parts := hdecode
  rw [hnormal] at hlist
  simp only [bind, Except.bind, hdecode'] at hlist
  rw [hlist]
  simp only [sortRows, orderBy_ids]
  exact fillPage_take_serves hsize.1 _

/-- The tenants are read back page by page, whatever sizes the pages have. -/
theorem tenant_pages_exact (hpg : Linear pg.textLe) (hnil : ∀ text, pg.textLe [] text = true)
    {tenants : Table Tenant.id} (hrows : ∀ t ∈ tenants.rows, StorageID t.id) {page : PageRequest}
    {sizes : Nat → Int} (hsizes : ∀ number, 1 ≤ sizes number ∧ sizes number ≤ 100) :
    ∃ listed, Lists tenants.rows (fun _ => True)
        (fun t other => KeyBefore pg.textLe true (0, t.id) (0, other.id)) listed ∧
      ReadsExactly (fun number cursor => listTenantsPage pg tenants (page.at (sizes number) cursor))
        [] tenantListBytes listContentBytes errListItemTooLarge
        (fun number => (sizes number).toNat) listed := by
  have hparts : ∀ t ∈ tenants.rows, ∀ part ∈ [t.id], StorageID part := by
    intro t ht
    simpa using hrows t ht
  suffices hkeyset : Keyset pg.textLe true (fun t : Tenant => (0, t.id)) tenants.rows
      (fun _ => true) (fun t => encodeCursor [t.id]) [] tenantListBytes listContentBytes
      errListItemTooLarge (fun number => (sizes number).toNat)
      (fun number cursor => listTenantsPage pg tenants (page.at (sizes number) cursor)) from
    hkeyset.lists hpg fun t _ => by simp
  refine ⟨nodup_rows tenants,
    fun t ht other hother _ _ hkey => tenants.eq_of_key ht hother (Prod.mk.inj hkey).2,
    fun t ht => (decodeCursor_encodeCursor (by simp) (hparts t ht)).2,
    fun number => ?_, fun t ht _ number => ?_⟩
  · have hserves := @listTenantsPage_serves pg tenants page _ (hsizes number) [] (by decide)
      [] rfl
    have hall : (tenants.rows.filter fun t => !pg.textLe t.id (tenantAfter [])) =
        tenants.rows.filter fun _ => true := by
      refine List.filter_congr fun t ht => ?_
      rw [show tenantAfter [] = [] from rfl, (hrows t ht).after_nil hpg hnil, Bool.not_false]
    rwa [hall] at hserves
  · have hread := (decodeCursor_encodeCursor (by simp) (hparts t ht)).1
    have hserves := @listTenantsPage_serves pg tenants page _ (hsizes number) _
      (length_encodeCursor (by simp) (hparts t ht)) _ hread
    have hone : tenantAfter [t.id] = t.id := rfl
    simpa only [keyAfter_ids, Bool.true_and, hone] using hserves

/-- Two tenants. -/
def twoTenants : Table Tenant.id :=
  ⟨[⟨ascii "acme", ascii "Acme"⟩, ⟨ascii "other", ascii "Other"⟩], by decide⟩

/-- They are read one by one. -/
theorem tenant_pages_exact_ones :
    ∃ listed, Lists twoTenants.rows (fun _ => True)
        (fun t other => KeyBefore bytewise.textLe true (0, t.id) (0, other.id)) listed ∧
      ReadsExactly (fun _ cursor => listTenantsPage bytewise twoTenants (oldestFirst.at 1 cursor))
        [] tenantListBytes listContentBytes errListItemTooLarge (fun _ => 1) listed := by
  have hstored : (validateStorageField "id" (ascii "acme") 64).isOk ∧
      (validateStorageField "id" (ascii "other") 64).isOk := by decide +kernel
  have htenants : ∀ t ∈ twoTenants.rows, StorageID t.id := by
    intro t ht
    simp only [twoTenants, List.mem_cons, List.not_mem_nil, or_false] at ht
    obtain rfl | rfl := ht
    · exact hstored.1
    · exact hstored.2
  have hsize : 1 ≤ (1 : Int) ∧ (1 : Int) ≤ 100 := by decide
  exact tenant_pages_exact linear_bytewise (fun _ => rfl) htenants fun _ => hsize

end Iot.Listing
