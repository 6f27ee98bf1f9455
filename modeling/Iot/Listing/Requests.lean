import Iot.Contracts.Topics
import Iot.Json.Lengths
import Iot.Platform.Records
import Iot.Text.Base64Url
import Iot.Text.Sha256

/-!
# List requests and their cursors

A list request asks for one page of a table (`internal/platform/pagination.go`, `list_filters.go`).
The cursor of the next page names the last row of this one. Tenants and devices have a cursor of
their ids (`encodeCursor`); telemetry and commands have one that also carries the time of the row
and a hash of the filter it was issued for (`encodePageCursor`).

Every cursor issued is read back as what it was made of: `decodeCursor_encodeCursor`,
`decodePageCursor_encodePageCursor`.
-/

namespace Iot.Listing

open Text Json Contracts Platform

/-- A `time.Time`: an instant, and the offset of its zone from UTC in seconds. -/
structure Stamp where
  instant : Time
  offset : Int
  deriving DecidableEq, Repr

/-- The zero `time.Time`. -/
def Stamp.zero : Stamp := ⟨zeroTime, 0⟩

/-- `Time.IsZero`. -/
def Stamp.isZero (stamp : Stamp) : Bool := stamp.instant = zeroTime

/-- The year in UTC. -/
def yearOf (t : Time) : Int := (civil (t / second / 86400)).year

/-- `Time.Year`, in the zone of the stamp. -/
def Stamp.year (stamp : Stamp) : Int := yearOf (stamp.instant + stamp.offset * second)

/-- `Time.Nanosecond`. -/
def nanosecond (t : Time) : Int := t % second

/-- `Time.UnixMilli`. -/
def unixMilli (t : Time) : Int := t / 1000000

/-- `PageRequest`. -/
structure PageRequest where
  size : Int
  cursor : Bytes
  tenantID : Bytes
  deviceID : Bytes
  startTime : Stamp
  hasStartTime : Bool
  endTime : Stamp
  hasEndTime : Bool
  type : Bytes
  status : Bytes
  sort : Bytes
  deriving DecidableEq, Repr

/-- The zero value. -/
def PageRequest.zero : PageRequest := ⟨0, [], [], [], .zero, false, .zero, false, [], [], []⟩

/-- The request for another page of the same list. -/
def PageRequest.at (page : PageRequest) (size : Int) (cursor : Bytes) : PageRequest :=
  { page with size := size, cursor := cursor }

/-- What is listed, where the source tells it by a text. -/
inductive ListKind where
  | devices
  | telemetry
  | commands
  deriving DecidableEq, Repr

/-- The text of a kind. -/
def ListKind.text : ListKind → Bytes
  | .devices => ascii "devices"
  | .telemetry => ascii "telemetry"
  | .commands => ascii "commands"

/-- `ErrInvalidPage`. -/
def errInvalidPage : GoError := ⟨ascii "invalid pagination", [.invalidPage]⟩

/-- `errInvalidCursor`. -/
def errInvalidCursor : GoError := errInvalidPage.wrap (ascii "invalid cursor")

/-- `defaultPageSize`. -/
def defaultPageSize : Int := 50

/-- `maxPageSize`. -/
def maxPageSize : Int := 100

/-- The longest cursor that is looked at. -/
def maxCursorBytes : Nat := 4096

/-- `NormalizePageRequest`. -/
def normalizePageRequest (size : Int) (cursor : Bytes) : Except GoError PageRequest := do
  returnIf (cursor.length > maxCursorBytes) errInvalidCursor
  let size := if size = 0 then defaultPageSize else size
  returnIf (size < 1 ∨ size > maxPageSize)
    (errInvalidPage.wrap (ascii "pageSize must be between 1 and " ++ decimal maxPageSize))
  pure (PageRequest.zero.at size cursor)

/-- The statuses a list of commands may be restricted to. -/
def isCommandStatus (status : Bytes) : Bool :=
  [CommandStatus.created, .published, .sent, .acked, .failed, .timeout].any (·.text == status)

/-- A time bound that is set lies in the supported years and has no more than milliseconds. -/
def unsupportedStamp (stamp : Stamp) : Bool :=
  !stamp.isZero && (decide (stamp.year < 1) || decide (stamp.year > 9999) ||
    decide (nanosecond stamp.instant % 1000000 ≠ 0))

/-- `NormalizeListRequest`. -/
def normalizeListRequest (page : PageRequest) (kind : ListKind) : Except GoError PageRequest := do
  let n ← normalizePageRequest page.size page.cursor
  let page := { page with size := n.size }
  returnIf (!isValidTenantID page.tenantID)
    (errInvalidPage.wrap (ascii "valid tenantId is required"))
  returnIf ((kind = .telemetry ∨ page.deviceID ≠ []) ∧
      !(validateDeviceIdentity page.tenantID page.deviceID).isOk)
    (errInvalidPage.wrap (ascii "invalid deviceId"))
  let page := { page with sort := if page.sort = [] then ascii "desc" else page.sort }
  returnIf (page.sort ≠ ascii "asc" ∧ page.sort ≠ ascii "desc")
    (errInvalidPage.wrap (ascii "sort must be asc or desc"))
  let page :=
    { page with
      hasStartTime := page.hasStartTime || !page.startTime.isZero
      hasEndTime := page.hasEndTime || !page.endTime.isZero }
  returnIf (page.hasStartTime ∧ page.hasEndTime ∧ ¬ page.startTime.instant < page.endTime.instant)
    (errInvalidPage.wrap (ascii "startTime must be earlier than endTime"))
  returnIf ([page.startTime, page.endTime].any unsupportedStamp)
    (errInvalidPage.wrap (ascii "timestamp outside supported range"))
  returnIf (page.type ≠ [] ∧ !(validateStorageField "type" page.type 64).isOk)
    (errInvalidPage.wrap (ascii "invalid telemetry type"))
  returnIf (page.status ≠ [] ∧ !isCommandStatus page.status)
    (errInvalidPage.wrap (ascii "invalid command status"))
  pure page

/-! ## Cursors of ids -/

/-- `encodeCursor`. -/
def encodeCursor (parts : List Bytes) : Bytes := encodeRawURL ([0x00].intercalate parts)

/-- `decodeCursor`. The empty cursor has no parts. -/
def decodeCursor (cursor : Bytes) (count : Nat) : Except GoError (List Bytes) :=
  if cursor = [] then .ok []
  else
    match decodeRawURL cursor with
    | none => .error errInvalidCursor
    | some decoded =>
        let parts := decoded.splitOn 0x00
        if !utf8Valid decoded ∨ parts.length ≠ count ∨ parts.contains [] then
          .error errInvalidCursor
        else .ok parts

/-- `encodeDeviceCursor`. -/
def encodeDeviceCursor (tenantID deviceID : Bytes) : Bytes := encodeCursor [tenantID, deviceID]

/-- `decodeDeviceCursor`. -/
def decodeDeviceCursor (cursor : Bytes) : Except GoError (Bytes × Bytes) :=
  match decodeCursor cursor 2 with
  | .ok [tenantID, deviceID] => .ok (tenantID, deviceID)
  | .ok _ => .ok ([], [])
  | .error err => .error err

/-! ## Cursors with a time -/

/-- `listCursor`. -/
structure ListCursor where
  version : Int
  scope : Bytes
  time : Bytes
  id : Bytes
  deriving DecidableEq, Repr

/-- The zero value. -/
def ListCursor.zero : ListCursor := ⟨0, [], [], []⟩

/-- The members of a cursor in JSON. -/
def ListCursor.members (c : ListCursor) : List (String × List Tok) :=
  [("v", intTok c.version), ("scope", strTok c.scope), ("time", strTok c.time), ("id", strTok c.id)]

/-- The fields of a cursor in JSON. -/
def ListCursor.fields : List (RecordField ListCursor) :=
  [intField "listCursor.v" "v" "int" fun v c => { c with version := v },
    strField "listCursor.scope" "scope" "string" fun v c => { c with scope := v },
    strField "listCursor.time" "time" "string" fun v c => { c with time := v },
    strField "listCursor.id" "id" "string" fun v c => { c with id := v }]

variable (go : GoRuntime)

/-- The JSON of a request and its kind, with the times in UTC. -/
def scopeJSON (page : PageRequest) (kind : ListKind) : Except GoError Bytes := do
  let startTime ← timeValue page.startTime.instant
  let endTime ← timeValue page.endTime.instant
  pure (Json.text (object
    [("Kind", strTok kind.text),
      ("Page", object
        [("Size", intTok page.size), ("Cursor", strTok page.cursor),
          ("TenantID", strTok page.tenantID), ("DeviceID", strTok page.deviceID),
          ("StartTime", startTime), ("HasStartTime", boolTok page.hasStartTime),
          ("EndTime", endTime), ("HasEndTime", boolTok page.hasEndTime),
          ("Type", strTok page.type), ("Status", strTok page.status),
          ("Sort", strTok page.sort)])]))

/-- `cursorScope`: what the request lists, apart from the page. The error of `json.Marshal` is
dropped, which leaves no text to hash. -/
def cursorScope (page : PageRequest) (kind : ListKind) : Bytes :=
  sha256Hex ((scopeJSON (page.at 0 []) kind).toOption.getD [])

/-- `encodePageCursor`. -/
def encodePageCursor (page : PageRequest) (kind : ListKind) (time : Time) (id : Bytes) : Bytes :=
  encodeRawURL (Json.text (object
    (ListCursor.members ⟨1, cursorScope page kind, formatRFC3339Nano time, id⟩)))

/-- The precision of the times a kind of list is ordered by. -/
def unsupportedPrecision (kind : ListKind) (time : Time) : Bool :=
  (kind = .telemetry && decide (nanosecond time % 1000000 ≠ 0)) ||
    (kind = .commands && decide (nanosecond time % 1000 ≠ 0))

/-- `decodePageCursor`: the time and the id of the row the cursor names. -/
def decodePageCursor (page : PageRequest) (kind : ListKind) : Except GoError (Time × Bytes) :=
  if page.cursor = [] then .ok (zeroTime, [])
  else if page.cursor.length > maxCursorBytes then .error errInvalidCursor
  else
    match decodeRawURL page.cursor with
    | none => .error errInvalidCursor
    | some raw =>
        match unmarshal go ListCursor.fields "platform.listCursor" .zero raw with
        | .error _ => .error errInvalidCursor
        | .ok c =>
            if c.version ≠ 1 ∨ c.scope ≠ cursorScope page kind ∨ c.id = [] then
              .error errInvalidCursor
            else if !(validateStorageField "cursor id" c.id 64).isOk then .error errInvalidCursor
            else
              match parseRFC3339 c.time with
              | none => .error errInvalidCursor
              | some stamp =>
                  if unsupportedPrecision kind stamp then .error errInvalidCursor
                  else .ok (stamp, c.id)

/-! ## What is accepted -/

/-- Ids that the tables hold: `ValidateStorageField` with 64 bytes accepts them. -/
def StorageID (id : Bytes) : Prop := (validateStorageField "id" id 64).isOk

variable {go}

/-- What such an id is. -/
theorem storageID_iff {id : Bytes} : StorageID id ↔
    id ≠ [] ∧ id.length ≤ 64 ∧ utf8Valid id ∧ (decode id).any Rune.isControl = false := by
  rw [StorageID, ← @validateStorageField_eq_ok "id"]
  cases validateStorageField "id" id 64 <;> simp [Except.isOk, Except.toBool]

/-- No such id holds a zero byte. -/
theorem StorageID.zero_not_mem {id : Bytes} (h : StorageID id) : 0x00 ∉ id := by
  obtain ⟨_, _, hvalid, hcontrol⟩ := storageID_iff.mp h
  intro hzero
  rw [List.any_eq_false] at hcontrol
  exact hcontrol _ (mem_decode_of_ascii hvalid hzero (by decide)) (by decide)

/-- `NormalizePageRequest` accepts the sizes from 1 to 100 with a cursor that is not too long. -/
theorem normalizePageRequest_ok {size : Int} {cursor : Bytes} (h1 : 1 ≤ size) (h100 : size ≤ 100)
    (hcursor : cursor.length ≤ maxCursorBytes) :
    normalizePageRequest size cursor = .ok (PageRequest.zero.at size cursor) := by
  have hzero : size ≠ 0 := by omega
  have hrange : ¬ (size < 1 ∨ size > maxPageSize) := by
    rw [maxPageSize]
    omega
  simp only [normalizePageRequest, bind_eq_ok, returnIf_eq_ok, if_neg hzero]
  exact ⟨(), Nat.not_lt.mpr hcursor, (), hrange, rfl⟩

/-- The filter of a request is accepted, whatever page of the list it asks for. -/
def Accepts (page : PageRequest) (kind : ListKind) (normalized : PageRequest) : Prop :=
  normalizeListRequest (page.at 1 []) kind = .ok normalized

/-- The request for any page of an accepted list is accepted. -/
theorem Accepts.at {page normalized : PageRequest} {kind : ListKind}
    (h : Accepts page kind normalized) {size : Int} {cursor : Bytes} (h1 : 1 ≤ size)
    (h100 : size ≤ 100) (hcursor : cursor.length ≤ maxCursorBytes) :
    normalizeListRequest (page.at size cursor) kind = .ok (normalized.at size cursor) := by
  simp only [Accepts, normalizeListRequest, PageRequest.at, bind_eq_ok] at h ⊢
  obtain ⟨n, hn, _, htenant, _, hdevice, _, hsort, _, htimes, _, hstamps, _, htype, _, hstatus,
    hpage⟩ := h
  refine ⟨_, normalizePageRequest_ok h1 h100 hcursor, (), htenant, (), hdevice, (), hsort, (),
    htimes, (), hstamps, (), htype, (), hstatus, ?_⟩
  rw [← Except.ok.inj hpage]
  rfl

/-- What an accepted request lists: the defaults are filled in and the rest stays as it is. -/
theorem Accepts.fields {page normalized : PageRequest} {kind : ListKind}
    (h : Accepts page kind normalized) : normalized =
      { page with
        size := 1
        cursor := []
        sort := if page.sort = [] then ascii "desc" else page.sort
        hasStartTime := page.hasStartTime || !page.startTime.isZero
        hasEndTime := page.hasEndTime || !page.endTime.isZero } := by
  simp only [Accepts, normalizeListRequest, PageRequest.at, bind_eq_ok] at h
  obtain ⟨n, hn, _, _, _, _, _, _, _, _, _, _, _, _, _, _, hpage⟩ := h
  rw [normalizePageRequest_ok (by decide) (by decide) (by decide)] at hn
  rw [← Except.ok.inj hpage, ← Except.ok.inj hn]
  rfl

/-! ## Cursors are read back -/

/-- Parts joined by zero bytes are valid when each of them is. -/
theorem utf8Valid_intercalate {parts : List Bytes} (h : ∀ part ∈ parts, utf8Valid part) :
    utf8Valid ([0x00].intercalate parts) := by
  induction parts with
  | nil => rfl
  | cons part rest ih =>
      have hpart := h part (List.mem_cons_self ..)
      cases rest with
      | nil => simpa [List.intercalate] using hpart
      | cons next rest =>
          have hrest := ih fun other hother => h other (List.mem_cons_of_mem _ hother)
          rw [List.intercalate_cons_cons]
          exact utf8Valid_append (utf8Valid_append hpart (by decide)) hrest

/-- A cursor of ids is read back. -/
theorem decodeCursor_encodeCursor {parts : List Bytes} (hparts : parts ≠ [])
    (h : ∀ part ∈ parts, StorageID part) :
    decodeCursor (encodeCursor parts) parts.length = .ok parts ∧ encodeCursor parts ≠ [] := by
  have hsplit : ([0x00].intercalate parts).splitOn 0x00 = parts :=
    List.splitOn_intercalate 0x00 (fun part hpart => (h part hpart).zero_not_mem) hparts
  have hvalid : utf8Valid ([0x00].intercalate parts) :=
    utf8Valid_intercalate fun part hpart => (storageID_iff.mp (h part hpart)).2.2.1
  have hnonempty : [] ∉ parts := fun hmem => (storageID_iff.mp (h [] hmem)).1 rfl
  have hne : encodeCursor parts ≠ [] := by
    refine encodeRawURL_ne_nil ?_
    intro hnil
    rw [hnil, List.splitOn_nil] at hsplit
    exact hnonempty (by rw [← hsplit]; simp)
  refine ⟨?_, hne⟩
  rw [decodeCursor, if_neg hne, encodeCursor, decodeRawURL_encodeRawURL]
  simp [hsplit, hvalid, hnonempty]

/-- The cursor a page is asked for with. -/
theorem at_cursor (page : PageRequest) (size : Int) (cursor : Bytes) :
    (page.at size cursor).cursor = cursor := rfl

/-- The scope of a cursor does not depend on the page. -/
theorem cursorScope_at (page : PageRequest) (kind : ListKind) (size : Int) (cursor : Bytes) :
    cursorScope (page.at size cursor) kind = cursorScope page kind := by
  have hpage : (page.at size cursor).at 0 [] = page.at 0 [] := rfl
  unfold cursorScope
  rw [hpage]

/-- A scope is made of ASCII characters. -/
theorem cursorScope_ascii (page : PageRequest) (kind : ListKind) :
    (cursorScope page kind).length = 64 ∧ ∀ b ∈ cursorScope page kind, b < 0x80 :=
  ⟨length_sha256Hex _, fun _ hb => sha256Hex_ascii hb⟩

/-- The text of an object is not empty. -/
theorem text_object_ne_nil (members : List (String × List Tok)) :
    Json.text (object members) ≠ [] := by
  have hbrace : ∃ rest, object members = .lbrace :: rest := by
    cases members with
    | nil => exact ⟨_, rfl⟩
    | cons first rest => exact ⟨_, rfl⟩
  obtain ⟨rest, hrest⟩ := hbrace
  rw [hrest, text_cons]
  exact List.cons_ne_nil _ _

/-- The members of a cursor can be written. -/
theorem ListCursor.writable_members (c : ListCursor) : WritableMembers 0 c.members :=
  writableMembers_cons (by decide) (writable_intTok _) <|
  writableMembers_cons (by decide) (writable_strTok _) <|
  writableMembers_cons (by decide) (writable_strTok _) <|
  writableMembers_cons (by decide) (writable_strTok _) writableMembers_nil

/-- A cursor made of valid texts is read back. -/
theorem ListCursor.unmarshal_text {c : ListCursor} (hversion : isInt64 c.version)
    (hscope : utf8Valid c.scope) (htime : utf8Valid c.time) (hid : utf8Valid c.id) :
    unmarshal go ListCursor.fields "platform.listCursor" .zero (Json.text (object c.members)) =
      .ok c := by
  have hdocument : isDocument maxNestingDepth (object c.members) :=
    isDocument_mono (writable_object c.writable_members).document (by decide)
  rw [unmarshal_object c.writable_members, if_pos hdocument, ListCursor.members,
    storeMembers_int "v" rfl, if_pos hversion, storeMembers_str "scope" rfl,
    storeMembers_str "time" rfl, storeMembers_str "id" rfl, reread_of_valid hscope,
    reread_of_valid htime, reread_of_valid hid]
  rfl

/-- A cursor with a time is short enough to be looked at. -/
theorem length_encodePageCursor {page : PageRequest} {kind : ListKind} {time : Time} {id : Bytes}
    {text : Bytes} (htime : rfc3339Nano time = some text) (hid : id.length ≤ 64) :
    (encodePageCursor page kind time id).length ≤ maxCursorBytes := by
  have hscope := quotedLength_le (cursorScope page kind)
  rw [(cursorScope_ascii page kind).1] at hscope
  have htext : (formatRFC3339Nano time).length ≤ 30 := by
    rw [formatRFC3339Nano, htime]
    exact length_rfc3339Nano_le htime
  have hstamp := quotedLength_le (formatRFC3339Nano time)
  have hquoted := quotedLength_le id
  have hdecimal : (Json.text (intTok 1)).length = 1 := by decide
  have hencode : (encodePageCursor page kind time id).length ≤ 2 * (Json.text (object
      (ListCursor.members ⟨1, cursorScope page kind, formatRFC3339Nano time, id⟩))).length :=
    length_encodeRawURL_le _
  rw [ListCursor.members, length_object] at hencode
  simp only [List.map_cons, List.map_nil, List.sum_cons, List.sum_nil, memberLength,
    length_strTok, hdecimal, show (ascii "v").length = 1 from rfl,
    show (ascii "scope").length = 5 from rfl, show (ascii "time").length = 4 from rfl,
    show (ascii "id").length = 2 from rfl] at hencode
  rw [maxCursorBytes]
  omega

/-- The precision a list is ordered by, of a time. -/
def Precise (kind : ListKind) (time : Time) : Prop := unsupportedPrecision kind time = false

/-- Rows whose cursor can be read back: a time of the years 1 to 9999 with the precision of the
kind, and an id that can be stored. -/
structure Listable (kind : ListKind) (time : Time) (id : Bytes) : Prop where
  year : 1 ≤ yearOf time ∧ yearOf time ≤ 9999
  precise : Precise kind time
  id : StorageID id

/-- A cursor that has the scope of the request, a time and an id is refused only for the precision
of the time. -/
theorem decodePageCursor_eq {request : PageRequest} {kind : ListKind} {c : ListCursor}
    {time : Time} (hcursor : request.cursor = encodeRawURL (Json.text (object c.members)))
    (hlength : request.cursor.length ≤ maxCursorBytes) (hversion : c.version = 1)
    (hscope : c.scope = cursorScope request kind) (hid : StorageID c.id)
    (htime : parseRFC3339 c.time = some time) (hvalid : utf8Valid c.time) :
    decodePageCursor go request kind =
      if unsupportedPrecision kind time then .error errInvalidCursor else .ok (time, c.id) := by
  have hne : request.cursor ≠ [] := by
    rw [hcursor]
    exact encodeRawURL_ne_nil (text_object_ne_nil _)
  have hread : decodeRawURL request.cursor = some (Json.text (object c.members)) := by
    rw [hcursor, decodeRawURL_encodeRawURL]
  have hunmarshal := @ListCursor.unmarshal_text go c (by rw [hversion]; decide)
    (by rw [hscope]; exact utf8Valid_ascii (cursorScope_ascii request kind).2) hvalid
    (storageID_iff.mp hid).2.2.1
  have hmatch : ¬ (c.version ≠ 1 ∨ c.scope ≠ cursorScope request kind ∨ c.id = []) := by
    simp [hversion, hscope, (storageID_iff.mp hid).1]
  have hstored : (validateStorageField "cursor id" c.id 64).isOk = true := by
    rw [(@validateStorageField_eq_ok "cursor id" c.id 64).mpr (storageID_iff.mp hid)]
    rfl
  simp only [decodePageCursor, if_neg hne, if_neg (Nat.not_lt.mpr hlength), hread, hunmarshal,
    if_neg hmatch, hstored, htime, Bool.not_true, Bool.false_eq_true, if_false]

/-- A cursor issued for a list is accepted for any other page of the list and names the row it
was made of, if the time of the row has the precision of the list. -/
theorem decodePageCursor_encodePageCursor {page other : PageRequest} {kind : ListKind} {time : Time}
    {id text : Bytes} (htime : rfc3339Nano time = some text) (hid : StorageID id)
    (hscope : cursorScope page kind = cursorScope other kind) (size : Int) :
    decodePageCursor go (other.at size (encodePageCursor page kind time id)) kind =
      if unsupportedPrecision kind time then .error errInvalidCursor else .ok (time, id) := by
  have hformat : formatRFC3339Nano time = text := by rw [formatRFC3339Nano, htime]; rfl
  have hcursor : (other.at size (encodePageCursor page kind time id)).cursor =
      encodeRawURL (Json.text (object (ListCursor.members
        ⟨1, cursorScope page kind, formatRFC3339Nano time, id⟩))) := by
    rw [at_cursor, encodePageCursor]
  have hshort : (other.at size (encodePageCursor page kind time id)).cursor.length ≤
      maxCursorBytes := by
    rw [at_cursor]
    exact length_encodePageCursor htime (storageID_iff.mp hid).2.1
  have hsame : cursorScope page kind =
      cursorScope (other.at size (encodePageCursor page kind time id)) kind := by
    rw [cursorScope_at, hscope]
  have hread : parseRFC3339 (formatRFC3339Nano time) = some time := by
    rw [hformat, parseRFC3339_rfc3339Nano htime]
  have hvalid : utf8Valid (formatRFC3339Nano time) := by
    rw [hformat]
    exact utf8Valid_ascii (ascii_of_plain (rfc3339Nano_plain htime))
  exact decodePageCursor_eq hcursor hshort rfl hsame hid hread hvalid

/-- A time of the years 1 to 9999 can be written. -/
theorem rfc3339Nano_isSome {t : Time} (h : 0 ≤ yearOf t ∧ yearOf t ≤ 9999) :
    (rfc3339Nano t).isSome := by
  have hdate : 0 ≤ (civil (t / second / 86400)).year ∧ (civil (t / second / 86400)).year ≤ 9999 := h
  simp only [rfc3339Nano, if_pos hdate, Option.isSome_some]

/-- A cursor with a time is not the empty one. -/
theorem encodePageCursor_ne_nil (page : PageRequest) (kind : ListKind) (time : Time) (id : Bytes) :
    encodePageCursor page kind time id ≠ [] := encodeRawURL_ne_nil (text_object_ne_nil _)

end Iot.Listing
