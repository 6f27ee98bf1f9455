import Iot.Listing.PostgresPages
import Iot.Store.Memory

/-!
# The lists of the store in memory

`memoryPage` and the list functions of `internal/platform/memory_pages.go`. They use the cursors of
PostgreSQL, whose columns have no more than microseconds; the clock in memory may have nanoseconds.

`memory_commands_like_postgres` and `memory_telemetry_like_postgres` say when the two stores are
read alike. `memory_cursor_refused_iff` says what happens otherwise: the cursor of a page is refused
exactly when its last command was created between two microseconds.
-/

namespace Iot.Listing

open Text Json Contracts Platform Store Data Execution

variable {Row : Type}

/-! ## The functions -/

/-- `a < b` for strings. -/
def stringLt (a b : Bytes) : Bool := !stringLe b a

/-- The comparison `memoryPage` sorts with. -/
def memoryLess (page : PageRequest) (key : Row → Time × Bytes) (a b : Row) : Bool :=
  if (key a).1 = (key b).1 then
    if page.sort = ascii "asc" then stringLt (key a).2 (key b).2
    else stringLt (key b).2 (key a).2
  else if page.sort = ascii "asc" then decide ((key a).1 < (key b).1)
  else decide ((key b).1 < (key a).1)

/-- The rows `memoryPage` skips. -/
def skipsRow (page : PageRequest) (cursor : Time × Bytes) (key : Time × Bytes) : Bool :=
  let before := decide (key.1 < cursor.1) || (decide (key.1 = cursor.1) && stringLt key.2 cursor.2)
  let after := decide (cursor.1 < key.1) || (decide (key.1 = cursor.1) && stringLt cursor.2 key.2)
  page.cursor ≠ [] &&
    ((page.sort == ascii "asc" && !after) || (page.sort == ascii "desc" && !before))

/-- `memoryPage`. -/
def memoryPage (go : GoRuntime) (page : PageRequest) (kind : ListKind) (rows : List Row)
    (key : Row → Time × Bytes) (size : Row → Nat) : Except GoError (List Row × Bytes) := do
  let cursor ← decodePageCursor go page kind
  let sorted := rows.mergeSort fun a b => !memoryLess page key b a
  fillPage size (fun row => encodePageCursor page kind (key row).1 (key row).2) page.size 0 []
    (sorted.filter fun row => !skipsRow page cursor (key row))

/-- The commands `ListCommandsPageContext` skips. -/
def skipsCommand (page : PageRequest) (c : Command) : Bool :=
  c.tenantID != page.tenantID || (!page.deviceID.isEmpty && c.deviceID != page.deviceID) ||
    (!page.status.isEmpty && c.status.text != page.status) ||
    (page.hasStartTime && decide (c.createdAt < page.startTime.instant)) ||
    (page.hasEndTime && !decide (c.createdAt < page.endTime.instant))

/-- `ListCommandsPageContext` in memory. -/
def memoryCommandsPage (go : GoRuntime) (s : MemoryStore) (page : PageRequest) :
    Except GoError (List Command × Bytes) := do
  let page ← normalizeListRequest page .commands
  memoryPage go page .commands (s.commands.rows.filter fun c => !skipsCommand page c) commandRowKey
    (commandListBytes go)

/-- The records `ListTelemetryPageContext` skips. -/
def skipsRecord (page : PageRequest) (rec : TelemetryRecord) : Bool :=
  (!page.type.isEmpty && rec.type != page.type) ||
    (page.hasStartTime && decide (ofUnixMilli rec.ts < page.startTime.instant)) ||
    (page.hasEndTime && !decide (ofUnixMilli rec.ts < page.endTime.instant))

/-- The key of a record in memory. -/
def recordTimeKey (rec : TelemetryRecord) : Time × Bytes := (ofUnixMilli rec.ts, rec.msgID)

/-- `ListTelemetryPageContext` in memory. -/
def memoryTelemetryPage (go : GoRuntime) (s : MemoryStore) (page : PageRequest) :
    Except GoError (List TelemetryRecord × Bytes) := do
  let page ← normalizeListRequest page .telemetry
  memoryPage go page .telemetry
    ((s.listTelemetry page.tenantID page.deviceID).filter fun rec => !skipsRecord page rec)
    recordTimeKey telemetryListBytes

variable {go : GoRuntime}

/-! ## The order -/

/-- The comparison picks the rows after another. -/
theorem memoryLess_eq (page : PageRequest) (key : Row → Time × Bytes) (a b : Row) :
    memoryLess page key a b = keyAfter stringLe page.asc (key a) (key b) := by
  unfold memoryLess keyAfter keyLt stringLt PageRequest.asc
  by_cases hasc : page.sort = ascii "asc"
  · by_cases htime : (key a).1 = (key b).1
    · simp [hasc, htime]
    · simp [hasc, htime]
  · by_cases htime : (key a).1 = (key b).1
    · simp [hasc, htime]
    · have htime' : ¬ (key b).1 = (key a).1 := fun h => htime h.symm
      simp [hasc, htime, htime']

/-- The rows that are sorted with it. -/
theorem mergeSort_memoryLess (page : PageRequest) (key : Row → Time × Bytes) (rows : List Row) :
    rows.mergeSort (fun a b => !memoryLess page key b a) =
      sortRows stringLe page.asc key rows := by
  simp only [sortRows, memoryLess_eq, keyAfter_eq, Bool.not_not]

/-- The sort of a request that was accepted. -/
theorem Accepts.sort {page normalized : PageRequest} {kind : ListKind}
    (h : Accepts page kind normalized) :
    normalized.sort = ascii "asc" ∨ normalized.sort = ascii "desc" := by
  have hfields := h.fields
  simp only [Accepts, normalizeListRequest, bind_eq_ok, returnIf_eq_ok] at h
  obtain ⟨_, _, _, _, _, _, _, hsort, _⟩ := h
  rw [hfields]
  by_contra hneither
  rw [not_or] at hneither
  exact hsort hneither

/-- The rows that are not skipped are those after the cursor. -/
theorem skipsRow_eq {page : PageRequest}
    (hsort : page.sort = ascii "asc" ∨ page.sort = ascii "desc") (cursor key : Time × Bytes) :
    (!skipsRow page cursor key) =
      (page.cursor.isEmpty || keyAfter stringLe page.asc cursor key) := by
  have hcursor : page.cursor.isEmpty = !decide (page.cursor ≠ []) := by
    cases page.cursor <;> simp
  have hdiffer : (ascii "desc" == ascii "asc") = false := by decide
  have hdiffer' : (ascii "asc" == ascii "desc") = false := by decide
  unfold skipsRow keyAfter keyLt stringLt PageRequest.asc
  rw [hcursor]
  obtain hasc | hdesc := hsort
  · by_cases htime : key.1 = cursor.1
    · simp [hasc, hdiffer', htime]
    · have hbeq : (cursor.1 == key.1) = false := beq_false_of_ne fun h => htime h.symm
      simp [hasc, hdiffer', htime, hbeq]
  · by_cases htime : key.1 = cursor.1
    · simp [hdesc, hdiffer, htime]
    · have hbeq : (key.1 == cursor.1) = false := beq_false_of_ne htime
      simp [hdesc, hdiffer, htime, hbeq]

/-- What the list of commands keeps. -/
theorem skipsCommand_eq (page : PageRequest) (c : Command) :
    (!skipsCommand page c) = commandWhere page c := by
  have hnot : ∀ a b : Time, decide (a < b) = !decide (b ≤ a) := by
    intro a b
    by_cases h : b ≤ a
    · simp [h, Int.not_lt.mpr h]
    · simp [h, Int.not_le.mp h]
  unfold skipsCommand commandWhere
  simp only [bne, Bool.not_or, Bool.not_and, Bool.not_not, hnot, Bool.and_assoc]

/-! ## Reading -/

/-- One request in memory. -/
theorem memoryPage_serves {page normalized : PageRequest} {kind : ListKind}
    (h : Accepts page kind normalized) {rows : List Row} {key : Row → Time × Bytes}
    {weight : Row → Nat} {size : Int} (hsize : 1 ≤ size) {cursor : Bytes} {after : Time × Bytes}
    (hdecode : decodePageCursor go (normalized.at size cursor) kind = .ok after) :
    Serves weight listContentBytes errListItemTooLarge
      (fun row => encodePageCursor normalized kind (key row).1 (key row).2) [] size.toNat
      ((sortRows stringLe normalized.asc key rows).filter fun row =>
        cursor.isEmpty || keyAfter stringLe normalized.asc after (key row))
      (memoryPage go (normalized.at size cursor) kind rows key weight) := by
  have hasc : (normalized.at size cursor).asc = normalized.asc := rfl
  have hpage := memoryPage.eq_1 go (normalized.at size cursor) kind rows key weight
  simp only [hdecode, bind, Except.bind, encodePageCursor_at, mergeSort_memoryLess, hasc,
    @skipsRow_eq (normalized.at size cursor) h.sort] at hpage
  rw [hpage]
  exact fillPage_serves hsize _

/-- Rows in memory with different keys are listed by them if their cursors can be read back. -/
theorem memory_keyset {page normalized : PageRequest} {kind : ListKind}
    (h : Accepts page kind normalized) {table : List Row} (hnodup : table.Nodup)
    {matching : Row → Bool} {key : Row → Time × Bytes}
    (hkey : ∀ row ∈ table, ∀ other ∈ table, matching row → matching other → key row = key other →
      row = other)
    (hrows : ∀ row ∈ table, matching row → Listable kind (key row).1 (key row).2)
    {weight : Row → Nat} {sizes : Nat → Int}
    (hsizes : ∀ number, 1 ≤ sizes number ∧ sizes number ≤ 100)
    {fetch : Nat → Bytes → Except GoError (List Row × Bytes)}
    (hfetch : ∀ number cursor, cursor.length ≤ maxCursorBytes → fetch number cursor =
      memoryPage go (normalized.at (sizes number) cursor) kind (table.filter matching) key weight) :
    Keyset stringLe normalized.asc key table matching
      (fun row => encodePageCursor normalized kind (key row).1 (key row).2) [] weight
      listContentBytes errListItemTooLarge (fun number => (sizes number).toNat) fetch := by
  refine ⟨hnodup, hkey,
    fun row _ => encodePageCursor_ne_nil normalized kind (key row).1 (key row).2,
    fun number => ?_, fun row hrow hmatch number => ?_⟩
  · have hserves := @memoryPage_serves Row go page normalized kind h (table.filter matching) key
      weight _ (hsizes number).1 [] _ (decodePageCursor_nil ..)
    rw [hfetch number [] (by decide)]
    simpa only [List.isEmpty_nil, Bool.true_or, List.filter_true] using hserves
  · obtain ⟨hlength, hdecode⟩ := @Listable.decode go _ _ _ (hrows row hrow hmatch) normalized
      (sizes number)
    have hserves := @memoryPage_serves Row go page normalized kind h (table.filter matching) key
      weight _ (hsizes number).1 _ _ hdecode
    have hcursor : (encodePageCursor normalized kind (key row).1 (key row).2).isEmpty = false := by
      simpa using encodePageCursor_ne_nil normalized kind (key row).1 (key row).2
    rw [hfetch number _ hlength]
    simp only [hcursor, Bool.false_or] at hserves
    have hle : Linear stringLe := linear_bytewise
    rwa [filter_sortRows hle hkey]

/-! ## Commands -/

/-- The clocks of the calls that create commands. -/
def Clocked (condition : Time → Prop) : MemoryOp → Prop
  | .createCommandWithKey _ _ _ _ now _ => condition now
  | _ => True

/-- The commands of a store were created at times of the clock. -/
theorem createdAt_run {Value : Type} [DecidableEq Value] {decodeAny : Bytes → Except GoError Value}
    {condition : Time → Prop} (ttl : Time) {ops : List MemoryOp}
    (hops : ∀ op ∈ ops, Clocked condition op) :
    ∀ id cmd, (run (MemoryStore.step go decodeAny) (newMemoryStore ttl) ops).commands.find? id =
      some cmd → condition cmd.createdAt := by
  refine run_invariant_along (fun _ op => Clocked condition op)
    (fun (s : MemoryStore) => ∀ id cmd, s.commands.find? id = some cmd →
      condition cmd.createdAt) ?_ ?_
    (along_of_forall (fun op hop _ => hops op hop) _)
  · intro s op hs hop id cmd hcmd
    have hchange := @MemoryStore.step_commands go Value _ decodeAny s op
    generalize MemoryStore.step go decodeAny s op = next at hchange hcmd
    cases hchange with
    | kept hcommands => exact hs id cmd (hcommands ▸ hcmd)
    | @created tenantID deviceID key payload now later new hholder hnew =>
        have hcmd' : (s.commands.put new).find? id = some cmd := hcmd
        rw [Table.find?_put] at hcmd'
        split_ifs at hcmd' with hsame
        · obtain rfl := Option.some.inj hcmd'
          rw [hnew]
          exact hop
        · exact hs id cmd hcmd'
    | @advanced _ before status now result hfind _ _ _ =>
        have hcmd' : (s.commands.put _).find? id = some cmd := hcmd
        rw [Table.find?_put] at hcmd'
        split_ifs at hcmd' with hsame
        · obtain rfl := Option.some.inj hcmd'
          exact hs _ before hfind
        · exact hs id cmd hcmd'
  · intro id cmd hcmd
    cases hcmd

/-- The id of a command can be stored. -/
theorem storageID_numberedID {n : Nat} (h : n ≤ 9223372036854775807) :
    StorageID (numberedID n) := by
  have hlength : (decimal n).length ≤ 20 := length_decimal_le (by omega) (by omega)
  have hdigit : ∀ b : UInt8, isDigit b = true → 0x20 ≤ b ∧ b < 0x7F := by
    intro b hb
    simp only [isDigit, Bool.and_eq_true, decide_eq_true_eq] at hb
    exact ⟨UInt8.le_trans (by decide) hb.1, UInt8.lt_of_le_of_lt hb.2 (by decide)⟩
  have hprintable : ∀ b ∈ numberedID n, 0x20 ≤ b ∧ b < 0x7F := by
    intro b hb
    rw [numberedID, List.mem_append] at hb
    obtain hb | hb := hb
    · have hall : (ascii "cmd-").all (fun b => decide (0x20 ≤ b ∧ b < 0x7F)) = true := by decide
      exact of_decide_eq_true (List.all_eq_true.mp hall b hb)
    · rw [decimal_eq, if_neg (by omega), List.nil_append] at hb
      exact hdigit b (List.all_eq_true.mp (digits_eq_cons _).1 b hb)
  have hascii : ∀ b ∈ numberedID n, b < 0x80 := fun b hb =>
    UInt8.lt_trans (hprintable b hb).2 (by decide)
  refine storageID_iff.mpr ⟨?_, ?_, utf8Valid_ascii hascii, ?_⟩
  · rw [numberedID]
    simp [show ascii "cmd-" = [0x63, 0x6D, 0x64, 0x2D] from rfl]
  · rw [numberedID, List.length_append, show (ascii "cmd-").length = 4 from rfl]
    omega
  · rw [decode_ascii hascii, List.any_map, List.any_eq_false]
    intro b hb
    obtain ⟨hlow, hhigh⟩ := hprintable b hb
    rw [UInt8.le_iff_toNat_le] at hlow
    rw [UInt8.lt_iff_toNat_lt] at hhigh
    have hlow' : 32 ≤ b.toNat := hlow
    have hhigh' : b.toNat < 127 := hhigh
    have hcontrol : Rune.isControl (.one b) = false := by
      simp only [Rune.isControl, Rune.code, Bool.or_eq_false_iff, Bool.and_eq_false_iff]
      exact ⟨decide_eq_false (by omega), .inl (decide_eq_false (by omega))⟩
    simp [hcontrol]

section Stores

variable {pg : Postgres} {page normalized : PageRequest} {sizes : Nat → Int}

/-- The commands of a store that was reached: they were created at times of the clock and their ids
can be stored. -/
theorem commands_run {Value : Type} [DecidableEq Value] {decodeAny : Bytes → Except GoError Value}
    {condition : Time → Prop} (ttl : Time) {ops : List MemoryOp}
    (hops : ∀ op ∈ ops, Clocked condition op) {s : MemoryStore}
    (hs : s = run (MemoryStore.step go decodeAny) (newMemoryStore ttl) ops)
    (hseq : s.commandSeq ≤ 9223372036854775807) :
    ∀ cmd ∈ s.commands.rows, condition cmd.createdAt ∧ StorageID cmd.id := by
  intro cmd hcmd
  have hfind := (s.commands.find?_eq_some_iff cmd.id cmd).mpr ⟨hcmd, rfl⟩
  have hsound : s.Sound := by
    rw [hs]
    exact (MemoryStore.run_keeps (MemoryStore.sound_new ttl) ops).1
  obtain ⟨n, hn, hid⟩ := hsound.numbered cmd.id cmd hfind
  refine ⟨?_, ?_⟩
  · rw [hs] at hfind
    exact createdAt_run ttl hops cmd.id cmd hfind
  · rw [hid]
    exact storageID_numberedID (hn.trans hseq)

/-- One request for a page of commands in memory. -/
theorem memoryCommandsPage_eq (h : Accepts page .commands normalized) (s : MemoryStore) {size : Int}
    (hsize : 1 ≤ size ∧ size ≤ 100) {cursor : Bytes} (hcursor : cursor.length ≤ maxCursorBytes) :
    memoryCommandsPage go s (page.at size cursor) =
      memoryPage go (normalized.at size cursor) .commands
        (s.commands.rows.filter (commandWhere normalized)) commandRowKey (commandListBytes go) := by
  have hpage := memoryCommandsPage.eq_1 go s (page.at size cursor)
  rw [h.at hsize.1 hsize.2 hcursor] at hpage
  simp only [skipsCommand_eq] at hpage
  exact hpage

/-- The lists of commands of the two stores are read alike when they hold the same commands, whose
ids PostgreSQL orders as Go does, and the clock in memory has no more than microseconds. -/
theorem memory_commands_like_postgres {Value : Type} [DecidableEq Value]
    {decodeAny : Bytes → Except GoError Value} (hpg : pg.textLe = stringLe)
    (h : Accepts page .commands normalized) (ttl : Time) {ops : List MemoryOp}
    (hops : ∀ op ∈ ops, Clocked (fun t => (1 ≤ yearOf t ∧ yearOf t ≤ 9999) ∧
      Precise .commands t ∧ t ≠ zeroTime) op) {s : MemoryStore}
    (hs : s = run (MemoryStore.step go decodeAny) (newMemoryStore ttl) ops)
    (hseq : s.commandSeq ≤ 9223372036854775807) {db : Db}
    (hdb : ∀ cmd, cmd ∈ scannedCommands db ↔ cmd ∈ s.commands.rows)
    (hsizes : ∀ number, 1 ≤ sizes number ∧ sizes number ≤ 100) :
    ∃ listed, Lists s.commands.rows (CommandMatches normalized)
        (fun cmd other => KeyBefore stringLe normalized.asc (commandRowKey cmd)
          (commandRowKey other)) listed ∧
      ReadsExactly (fun number cursor => memoryCommandsPage go s (page.at (sizes number) cursor)) []
        (commandListBytes go) listContentBytes errListItemTooLarge
        (fun number => (sizes number).toNat) listed ∧
      ReadsExactly (fun number cursor => listCommandsPage go pg db (page.at (sizes number) cursor))
        [] (commandListBytes go) listContentBytes errListItemTooLarge
        (fun number => (sizes number).toNat) listed := by
  have hle : Linear stringLe := linear_bytewise
  have hrun := @commands_run go Value _ decodeAny _ ttl ops hops s hs hseq
  have hrows : ∀ cmd ∈ s.commands.rows, Listable .commands cmd.createdAt cmd.id := fun cmd hcmd =>
    ⟨(hrun cmd hcmd).1.1, (hrun cmd hcmd).1.2.1, (hrun cmd hcmd).2⟩
  have hkeyset := @memory_keyset Command go page normalized .commands h
    s.commands.rows (nodup_rows s.commands) (commandWhere normalized) commandRowKey
    (fun cmd hcmd other hother _ _ hkey => s.commands.eq_of_key hcmd hother (Prod.mk.inj hkey).2)
    (fun cmd hcmd _ => hrows cmd hcmd) (commandListBytes go) sizes hsizes
    (fun number cursor => memoryCommandsPage go s (page.at (sizes number) cursor))
    (fun number _ hcursor => memoryCommandsPage_eq h s (hsizes number) hcursor)
  obtain ⟨listed, hlists, hreads⟩ :=
    hkeyset.lists hle fun cmd _ => commandWhere_iff normalized cmd
  have hkeyset' := @command_keyset go pg page normalized h db
    (fun cmd hcmd => ⟨hrows cmd ((hdb cmd).mp hcmd), (hrun cmd ((hdb cmd).mp hcmd)).1.2.2⟩)
    sizes hsizes
  rw [hpg] at hkeyset'
  obtain ⟨listed', hlists', hreads'⟩ :=
    hkeyset'.lists hle fun cmd _ => commandWhere_iff normalized cmd
  have hsame : listed = listed' := hlists.unique hle hlists' fun cmd => by rw [hdb]
  exact ⟨listed, hlists, hreads, hsame ▸ hreads'⟩

/-- Two commands of one device, created at the times given. -/
def twoCalls (first second : Time) : List MemoryOp :=
  MemoryStore.onePump ++ [.createCommandWithKey (ascii "acme") (ascii "pump") [] [] first first,
    .createCommandWithKey (ascii "acme") (ascii "pump") [] [] second second]

/-- The store after them. -/
def callStore (first second : Time) : MemoryStore :=
  run (MemoryStore.step GoRuntime.plain Except.ok) (newMemoryStore 60) (twoCalls first second)

/-- A row of PostgreSQL with such a command. -/
def callRow (id : String) (createdAt : Time) : CommandRow :=
  ⟨ascii id, ascii "acme", ascii "pump", .published, ascii "\x7b\x7d", createdAt, 0, none,
    createdAt, createdAt, none, none⟩

theorem clocked_twoCalls {condition : Time → Prop} {first second : Time} (hfirst : condition first)
    (hsecond : condition second) : ∀ op ∈ twoCalls first second, Clocked condition op := by
  intro op hop
  simp only [twoCalls, MemoryStore.onePump, List.mem_append, List.mem_cons, List.not_mem_nil,
    or_false] at hop
  obtain (rfl | rfl) | rfl | rfl := hop
  · exact trivial
  · exact trivial
  · exact hfirst
  · exact hsecond

/-- The commands of two microseconds are read one by one from both stores. -/
theorem memory_commands_like_postgres_ones : ∃ listed,
    Lists (callStore 2000 5000).commands.rows (CommandMatches (oldestFirst.at 1 []))
      (fun cmd other => KeyBefore stringLe true (commandRowKey cmd) (commandRowKey other)) listed ∧
    ReadsExactly (fun _ cursor => memoryCommandsPage GoRuntime.plain (callStore 2000 5000)
        (oldestFirst.at 1 cursor)) []
      (commandListBytes GoRuntime.plain) listContentBytes errListItemTooLarge (fun _ => 1) listed ∧
    ReadsExactly (fun _ cursor => listCommandsPage GoRuntime.plain bytewise
        ⟨[], ⟨[callRow "cmd-1" 2000, callRow "cmd-2" 5000],
          show [ascii "cmd-1", ascii "cmd-2"].Nodup by decide⟩, [], [], by simp, by simp⟩
        (oldestFirst.at 1 cursor)) []
      (commandListBytes GoRuntime.plain) listContentBytes errListItemTooLarge (fun _ => 1)
      listed := by
  have hrows : (callStore 2000 5000).commands.rows =
      [(callRow "cmd-1" 2000).command, (callRow "cmd-2" 5000).command] := by decide +kernel
  have hseq : (callStore 2000 5000).commandSeq ≤ 9223372036854775807 := by decide +kernel
  have hsize : 1 ≤ (1 : Int) ∧ (1 : Int) ≤ 100 := by decide
  refine @memory_commands_like_postgres GoRuntime.plain bytewise oldestFirst (oldestFirst.at 1 [])
    (fun _ => 1) Bytes _ Except.ok rfl accepts_oldestFirst 60 (twoCalls 2000 5000)
    (clocked_twoCalls ⟨by decide, by unfold Precise; decide, by decide⟩
      ⟨by decide, by unfold Precise; decide, by decide⟩) (callStore 2000 5000) rfl hseq _
    (fun cmd => ?_) fun _ => hsize
  rw [hrows]
  rfl

/-- The cursor of a page in memory is refused exactly when the last command of the page was created
between two microseconds, which no command in PostgreSQL is. -/
theorem memory_cursor_refused_iff {Value : Type} [DecidableEq Value]
    {decodeAny : Bytes → Except GoError Value} (h : Accepts page .commands normalized) (ttl : Time)
    {ops : List MemoryOp}
    (hops : ∀ op ∈ ops, Clocked (fun t => 1 ≤ yearOf t ∧ yearOf t ≤ 9999) op) {s : MemoryStore}
    (hs : s = run (MemoryStore.step go decodeAny) (newMemoryStore ttl) ops)
    (hseq : s.commandSeq ≤ 9223372036854775807) {size size' : Int} (hsize : 1 ≤ size ∧ size ≤ 100)
    (hsize' : 1 ≤ size' ∧ size' ≤ 100) {cursor next : Bytes} {rows : List Command}
    (hcursor : cursor.length ≤ maxCursorBytes)
    (hpage : memoryCommandsPage go s (page.at size cursor) = .ok (rows, next)) (hnext : next ≠ []) :
    memoryCommandsPage go s (page.at size' next) = .error errInvalidCursor ↔
      ∃ last ∈ rows.getLast?, nanosecond last.createdAt % 1000 ≠ 0 := by
  rw [memoryCommandsPage_eq h s hsize hcursor] at hpage
  have hdecoded := hpage
  simp only [memoryPage, bind_eq_ok] at hdecoded
  obtain ⟨after, hafter, -⟩ := hdecoded
  -- the cursor is that of the last command, which the store holds
  have hserves := @memoryPage_serves Command go page normalized .commands h
    (s.commands.rows.filter (commandWhere normalized)) commandRowKey (commandListBytes go) size
    hsize.1 cursor after hafter
  rw [hpage] at hserves
  obtain ⟨last, hmem, hlast, hencoded⟩ := hserves.cursor_eq hnext
  have hrow : last ∈ s.commands.rows := by
    rw [List.mem_filter, sortRows, List.mem_mergeSort, List.mem_filter] at hmem
    exact hmem.1.1
  obtain ⟨hyear, hid⟩ := @commands_run go Value _ decodeAny _ ttl ops hops s hs hseq last hrow
  obtain ⟨text, htext⟩ := Option.isSome_iff_exists.mp
    (rfc3339Nano_isSome (t := last.createdAt) ⟨by have := hyear.1; omega, hyear.2⟩)
  have hlength : next.length ≤ maxCursorBytes := by
    rw [hencoded]
    exact length_encodePageCursor htext (storageID_iff.mp hid).2.1
  have hdecode := @decodePageCursor_encodePageCursor go normalized normalized .commands
    last.createdAt last.id text htext hid rfl size'
  rw [show encodePageCursor normalized .commands last.createdAt last.id = next from hencoded.symm]
    at hdecode
  have hprecision : unsupportedPrecision .commands last.createdAt =
      decide (nanosecond last.createdAt % 1000 ≠ 0) := rfl
  rw [memoryCommandsPage_eq h s hsize' hlength, hlast]
  by_cases hbetween : nanosecond last.createdAt % 1000 ≠ 0
  · rw [hprecision, decide_eq_true hbetween, if_pos rfl] at hdecode
    refine iff_of_true ?_ ⟨last, rfl, hbetween⟩
    rw [memoryPage, hdecode]
    rfl
  · rw [hprecision, decide_eq_false hbetween, if_neg Bool.false_ne_true] at hdecode
    refine iff_of_false (fun herr => ?_) ?_
    · have hagain := @memoryPage_serves Command go page normalized .commands h
        (s.commands.rows.filter (commandWhere normalized)) commandRowKey (commandListBytes go) size'
        hsize'.1 next _ hdecode
      rw [herr] at hagain
      exact absurd hagain.error_eq (by decide)
    · rintro ⟨other, hother, hsub⟩
      exact hbetween (Option.some.inj hother ▸ hsub)

/-- Two commands that were created at two and five nanoseconds cannot be read one by one. -/
theorem memory_cursor_refused_iff_nanoseconds : ∃ rows next,
    memoryCommandsPage GoRuntime.plain (callStore 2 5) (oldestFirst.at 1 []) = .ok (rows, next) ∧
    memoryCommandsPage GoRuntime.plain (callStore 2 5) (oldestFirst.at 1 next) =
      .error errInvalidCursor := by
  have hrows : (callStore 2 5).commands.rows =
      [(callRow "cmd-1" 2).command, (callRow "cmd-2" 5).command] := by decide +kernel
  have hseq : (callStore 2 5).commandSeq ≤ 9223372036854775807 := by decide +kernel
  have hsize : 1 ≤ (1 : Int) ∧ (1 : Int) ≤ 100 := by decide
  have hfits : commandListBytes GoRuntime.plain (callRow "cmd-1" 2).command ≤ listContentBytes := by
    decide
  have hfilter : (callStore 2 5).commands.rows.filter (commandWhere (oldestFirst.at 1 [])) =
      [(callRow "cmd-1" 2).command, (callRow "cmd-2" 5).command] := by
    rw [hrows]
    decide
  have hsorted : [(callRow "cmd-1" 2).command, (callRow "cmd-2" 5).command].mergeSort
      (fun a b => !memoryLess ((oldestFirst.at 1 []).at 1 []) commandRowKey b a) =
      [(callRow "cmd-1" 2).command, (callRow "cmd-2" 5).command] := by
    refine List.mergeSort_of_pairwise ?_
    decide
  have hpage : memoryCommandsPage GoRuntime.plain (callStore 2 5) (oldestFirst.at 1 []) =
      .ok ([(callRow "cmd-1" 2).command],
        encodePageCursor (oldestFirst.at 1 []) .commands 2 (ascii "cmd-1")) := by
    have hall : [(callRow "cmd-1" 2).command, (callRow "cmd-2" 5).command].filter (fun cmd =>
        !skipsRow ((oldestFirst.at 1 []).at 1 []) (zeroTime, []) (commandRowKey cmd)) =
        [(callRow "cmd-1" 2).command, (callRow "cmd-2" 5).command] := by decide
    have hempty := memoryPage.eq_1 GoRuntime.plain ((oldestFirst.at 1 []).at 1 []) .commands
      [(callRow "cmd-1" 2).command, (callRow "cmd-2" 5).command] commandRowKey
      (commandListBytes GoRuntime.plain)
    rw [decodePageCursor_nil] at hempty
    rw [memoryCommandsPage_eq accepts_oldestFirst _ hsize (by decide), hfilter, hempty]
    simp only [bind, Except.bind, hsorted, hall]
    exact fillPage_one hfits
  refine ⟨_, _, hpage, ?_⟩
  refine (memory_cursor_refused_iff accepts_oldestFirst 60
    (clocked_twoCalls (by decide) (by decide)) rfl hseq hsize hsize (by decide) hpage
    (encodePageCursor_ne_nil _ _ _ _)).mpr ⟨(callRow "cmd-1" 2).command, rfl, by decide⟩

/-- The tenant of a request that was accepted. -/
theorem Accepts.tenant {kind : ListKind} (h : Accepts page kind normalized) :
    isValidTenantID normalized.tenantID := by
  have hfields := h.fields
  simp only [Accepts, normalizeListRequest, bind_eq_ok, returnIf_eq_ok, Bool.not_eq_true',
    Bool.not_eq_false] at h
  obtain ⟨_, _, _, htenant, _⟩ := h
  rw [hfields]
  exact htenant

/-- Devices are told apart by their keys in the maps. -/
theorem deviceKey_inj {tenant device tenant' device' : Bytes} (h : isValidTenantID tenant)
    (h' : isValidTenantID tenant') (hkey : deviceKey tenant device = deviceKey tenant' device') :
    tenant = tenant' ∧ device = device' := by
  have hcolon : ∀ tenant device : Bytes, deviceKey tenant device = tenant ++ 0x3A :: device := by
    intro tenant device
    rw [deviceKey, show ascii ":" = [0x3A] from rfl, List.append_assoc, List.singleton_append]
  rw [hcolon, hcolon] at hkey
  have hcut := @cut_append tenant device 0x3A (isValidTenantID_iff.mp h).2
  rw [hkey, cut_append (isValidTenantID_iff.mp h').2] at hcut
  exact ⟨(Prod.mk.inj hcut).1.symm, (Prod.mk.inj (Prod.mk.inj hcut).2).1.symm⟩

/-- What the list of telemetry keeps. -/
theorem skipsRecord_iff (h : Accepts page .telemetry normalized) {rec : TelemetryRecord}
    (hvalid : isValidTenantID rec.tenantID) :
    (!skipsRecord normalized rec &&
      recordKey rec == deviceKey normalized.tenantID normalized.deviceID) = true ↔
      TelemetryMatches normalized rec := by
  simp only [skipsRecord, bne, Bool.not_or, Bool.not_and, Bool.not_not, Bool.and_eq_true,
    Bool.or_eq_true, beq_iff_eq, List.isEmpty_iff, Bool.not_eq_true', decide_eq_false_iff_not,
    decide_eq_true_eq]
  constructor
  · rintro ⟨⟨⟨htype, hfrom⟩, hto⟩, hkey⟩
    obtain ⟨htenant, hdevice⟩ := deviceKey_inj hvalid h.tenant hkey
    refine ⟨htenant, hdevice, htype, fun hhas => ?_, fun hhas => ?_⟩
    · exact Int.not_lt.mp (hfrom.resolve_left (by simp [hhas]))
    · exact hto.resolve_left (by simp [hhas])
  · intro hmatch
    refine ⟨⟨⟨hmatch.type, ?_⟩, ?_⟩, ?_⟩
    · cases hhas : normalized.hasStartTime
      · exact .inl rfl
      · exact .inr (Int.not_lt.mpr (hmatch.bounds.1 hhas))
    · cases hhas : normalized.hasEndTime
      · exact .inl rfl
      · exact .inr (hmatch.bounds.2 hhas)
    · rw [recordKey, hmatch.tenant, hmatch.device]

/-- The order of the times of records is that of their milliseconds. -/
theorem orderBy_recordTimeKey (asc : Bool) (rec other : TelemetryRecord) :
    orderBy stringLe asc (recordTimeKey rec) (recordTimeKey other) =
      orderBy stringLe asc (telemetryRowKey rec) (telemetryRowKey other) := by
  have hlt : ∀ a b : Int, a * 1000000 < b * 1000000 ↔ a < b := fun a b => by omega
  have heq : ∀ a b : Int, a * 1000000 = b * 1000000 ↔ a = b := fun a b => by omega
  have hkey : ∀ rec other : TelemetryRecord,
      keyLe stringLe (recordTimeKey rec) (recordTimeKey other) =
      keyLe stringLe (telemetryRowKey rec) (telemetryRowKey other) := by
    intro rec other
    rw [Bool.eq_iff_iff]
    simp only [keyLe, Bool.or_eq_true, decide_eq_true_eq, Bool.and_eq_true, beq_iff_eq]
    exact or_congr (hlt _ _) (and_congr_left' (heq _ _))
  cases asc
  · exact hkey other rec
  · exact hkey rec other

/-- The lists of telemetry of the two stores are read alike when they hold the same records, apart
from the mark, no record was stored twice, and the records are such that they can be listed: tenants
that are valid, device times in the years 1 to 9999 and ids that can be stored. -/
theorem memory_telemetry_like_postgres (hpg : pg.textLe = stringLe)
    (h : Accepts page .telemetry normalized) {s : MemoryStore}
    (hrows : ∀ rec ∈ s.telemetry, isValidTenantID rec.tenantID ∧
      Listable .telemetry (ofUnixMilli rec.ts) rec.msgID)
    (honce : (s.telemetry.map telemetryKey).Nodup) {db : TelemetryDb}
    (hdb : ∀ rec, rec ∈ scannedRecords db ↔ rec ∈ s.telemetry)
    (hsizes : ∀ number, 1 ≤ sizes number ∧ sizes number ≤ 100) :
    ∃ listed, Lists s.telemetry (TelemetryMatches normalized)
        (fun rec other => KeyBefore stringLe normalized.asc (telemetryRowKey rec)
          (telemetryRowKey other)) listed ∧
      ReadsExactly (fun number cursor => memoryTelemetryPage go s (page.at (sizes number) cursor))
        [] telemetryListBytes listContentBytes errListItemTooLarge
        (fun number => (sizes number).toNat) listed ∧
      ReadsExactly (fun number cursor => listTelemetryPage go pg db (page.at (sizes number) cursor))
        [] telemetryListBytes listContentBytes errListItemTooLarge
        (fun number => (sizes number).toNat) listed := by
  have hle : Linear stringLe := linear_bytewise
  have hkeyset := @memory_keyset TelemetryRecord go page normalized .telemetry h
    s.telemetry (List.Nodup.of_map _ honce)
    (fun rec => !skipsRecord normalized rec &&
      recordKey rec == deviceKey normalized.tenantID normalized.deviceID)
    recordTimeKey (by
      intro rec hrec other hother hmatch hmatch' hkey
      have hrec' := (skipsRecord_iff h (hrows rec hrec).1).mp hmatch
      have hother' := (skipsRecord_iff h (hrows other hother).1).mp hmatch'
      refine List.inj_on_of_nodup_map honce hrec hother ?_
      rw [telemetryKey, telemetryKey, hrec'.tenant, hrec'.device, hother'.tenant, hother'.device,
        (Prod.mk.inj hkey).2])
    (fun rec hrec _ => (hrows rec hrec).2) telemetryListBytes sizes hsizes
    (fun number cursor => memoryTelemetryPage go s (page.at (sizes number) cursor)) (by
      intro number cursor hcursor
      have hpage := memoryTelemetryPage.eq_1 go s (page.at (sizes number) cursor)
      rw [h.at (hsizes number).1 (hsizes number).2 hcursor] at hpage
      simp only [MemoryStore.listTelemetry, List.filter_filter] at hpage
      exact hpage)
  obtain ⟨listed, hlists, hreads⟩ :=
    hkeyset.lists hle fun rec hrec => skipsRecord_iff h (hrows rec hrec).1
  have hlists' : Lists s.telemetry (TelemetryMatches normalized) (fun rec other =>
      KeyBefore stringLe normalized.asc (telemetryRowKey rec) (telemetryRowKey other)) listed := by
    refine ⟨hlists.mem, hlists.order.imp fun hbefore => ⟨?_, ?_⟩⟩
    · rw [← orderBy_recordTimeKey]
      exact hbefore.1
    · intro heq
      refine hbefore.2 ?_
      rw [recordTimeKey, recordTimeKey, (Prod.mk.inj heq).1, (Prod.mk.inj heq).2]
  have hkeyset' := @telemetry_keyset go pg page normalized h db
    (fun rec hrec => (hrows rec ((hdb rec).mp hrec)).2) sizes hsizes
  rw [hpg] at hkeyset'
  obtain ⟨other, hlistsPg, hreadsPg⟩ := hkeyset'.lists hle fun rec _ => telemetryWhere_iff h rec
  have hsame : listed = other := hlists'.unique hle hlistsPg fun rec => by rw [hdb]
  exact ⟨listed, hlists', hreads, hsame ▸ hreadsPg⟩

/-- Three readings of one device. -/
def threeReadings : List MemoryOp :=
  MemoryStore.onePump ++ [.restoreTelemetry (sampleRecord "a" 5),
    .restoreTelemetry (sampleRecord "b" 5), .restoreTelemetry (sampleRecord "c" 7)]

/-- The store after them. -/
def readingStore : MemoryStore :=
  run (MemoryStore.step GoRuntime.plain Except.ok) (newMemoryStore 60) threeReadings

/-- The rows of PostgreSQL after them, of which one was written to TDengine. -/
def readingRows : TelemetryDb :=
  ⟨[], ⟨[sampleRecord "a" 5, markedRow (sampleRecord "b" 5), sampleRecord "c" 7], by decide⟩⟩

/-- They are read one by one from both stores. -/
theorem memory_telemetry_like_postgres_ones : ∃ listed,
    Lists readingStore.telemetry (TelemetryMatches (newestReadings.at 1 []))
      (fun rec other => KeyBefore stringLe false (telemetryRowKey rec) (telemetryRowKey other))
      listed ∧
    ReadsExactly (fun _ cursor => memoryTelemetryPage GoRuntime.plain readingStore
        (newestReadings.at 1 cursor)) []
      telemetryListBytes listContentBytes errListItemTooLarge (fun _ => 1) listed ∧
    ReadsExactly (fun _ cursor => listTelemetryPage GoRuntime.plain bytewise readingRows
        (newestReadings.at 1 cursor)) []
      telemetryListBytes listContentBytes errListItemTooLarge (fun _ => 1) listed := by
  have hsize : 1 ≤ (1 : Int) ∧ (1 : Int) ≤ 100 := by decide
  have hstore : readingStore.telemetry = scannedRecords threeRecords := by decide +kernel
  have hvalid : ∀ rec ∈ readingStore.telemetry, isValidTenantID rec.tenantID := by decide +kernel
  refine memory_telemetry_like_postgres rfl accepts_newestReadings
    (fun rec hrec => ⟨hvalid rec hrec, listable_threeRecords rec (hstore ▸ hrec)⟩)
    (by decide +kernel) (fun rec => ?_) fun _ => hsize
  rw [hstore]
  rfl

end Stores

end Iot.Listing
