import Iot.Contracts.Identity
import Iot.Core.GetCommand
import Iot.Http.Parameters
import Iot.Listing.Requests

/-!
# What a cursor is bound to

`listPageFromRPC` (`internal/core/service.go`) makes a list request of the arguments of a call and
normalizes it; the store normalizes it again. The scope of a cursor is a hash of the JSON of the
normalized request without its page. `scopeJSON_injective` reads the request back from that JSON,
and `cursors_bound` says for which requests a cursor is accepted: those for the same list.
-/

namespace Iot.Listing

open Text Json Contracts Platform Iot.Core

/-! ## Requests of a call -/

/-- What is taken from `timestamppb`: `New`, `CheckValid` and `AsTime`. -/
structure Timestamppb where
  new : Time → Timestamp
  checkValid : Timestamp → Bool
  asTime : Timestamp → Time

/-- Timestamps to evaluate the model with: seconds and nanoseconds since 1970, of the years 1 to
9999. -/
def Timestamppb.plain : Timestamppb where
  new t := ⟨t / second, t % second⟩
  checkValid ts := decide (-62135596800 ≤ ts.seconds) && decide (ts.seconds ≤ 253402300799) &&
    decide (0 ≤ ts.nanos) && decide (ts.nanos < 1000000000)
  asTime ts := ts.seconds * second + ts.nanos

/-- The arguments of `listPageFromRPC` but for the kind. -/
structure ListArgs where
  size : Int
  cursor : Bytes
  tenant : Bytes
  device : Bytes
  start : Option Timestamp
  finish : Option Timestamp
  sort : Bytes
  kindFilter : Bytes
  state : Bytes
  deriving DecidableEq, Repr

variable (pb : Timestamppb)

/-- A bound of the times: the zero time if it is missing, and whether it is there. -/
def timeBound (bound : Option Timestamp) : Except GoError (Stamp × Bool) :=
  match bound with
  | none => .ok (.zero, false)
  | some ts => if pb.checkValid ts then .ok (⟨pb.asTime ts, 0⟩, true) else .error errInvalidPage

/-- `listPageFromRPC`. -/
def listPageFromRPC (args : ListArgs) (kind : ListKind) : Except GoError PageRequest := do
  let (startTime, hasStartTime) ← timeBound pb args.start
  let (endTime, hasEndTime) ← timeBound pb args.finish
  normalizeListRequest
    ⟨args.size, args.cursor, args.tenant, args.device, startTime, hasStartTime, endTime,
      hasEndTime, args.kindFilter, args.state, args.sort⟩ kind

/-! ## Normalized requests -/

/-- The order that an omitted sort stands for. -/
def effectiveSort (sort : Bytes) : Bytes := if sort = [] then ascii "desc" else sort

/-- A request with its defaults. -/
def PageRequest.filled (page : PageRequest) : PageRequest :=
  { page with
    size := if page.size = 0 then defaultPageSize else page.size
    sort := effectiveSort page.sort
    hasStartTime := page.hasStartTime || !page.startTime.isZero
    hasEndTime := page.hasEndTime || !page.endTime.isZero }

/-- What `NormalizeListRequest` checks once the defaults are filled in. -/
structure PageRequest.Checked (page : PageRequest) (kind : ListKind) : Prop where
  cursor : page.cursor.length ≤ maxCursorBytes
  size : 1 ≤ page.size ∧ page.size ≤ maxPageSize
  tenant : isValidTenantID page.tenantID
  device : kind = .telemetry ∨ page.deviceID ≠ [] →
    validateDeviceIdentity page.tenantID page.deviceID = .ok ()
  sort : page.sort = ascii "asc" ∨ page.sort = ascii "desc"
  order : page.hasStartTime → page.hasEndTime → page.startTime.instant < page.endTime.instant
  startTime : unsupportedStamp page.startTime = false
  endTime : unsupportedStamp page.endTime = false
  type : page.type ≠ [] → validateStorageField "type" page.type 64 = .ok ()
  status : page.status ≠ [] → isCommandStatus page.status

/-- Which requests are accepted, and what becomes of them. -/
theorem normalizeListRequest_eq_ok {page normalized : PageRequest} {kind : ListKind} :
    normalizeListRequest page kind = .ok normalized ↔
      normalized = page.filled ∧ page.filled.Checked kind := by
  have hisOk : ∀ check : Except GoError Unit, check.isOk = true ↔ check = .ok () := by
    rintro (_ | ⟨⟩) <;> simp [Except.isOk, Except.toBool]
  simp only [normalizeListRequest, normalizePageRequest, bind_eq_ok, returnIf_eq_ok, not_and,
    Bool.not_eq_true', Bool.not_eq_true, Bool.not_eq_false, hisOk, List.any_cons, List.any_nil,
    Bool.or_false, Bool.or_eq_false_iff, not_or, gt_iff_lt, Nat.not_lt, not_not]
  constructor
  · rintro ⟨n, ⟨-, hcursor, -, hsize, hn⟩, -, htenant, -, hdevice, -, hsort, -, horder, -, hstamps,
      -, htype, -, hstatus, hpage⟩
    cases hn
    cases hpage
    exact ⟨rfl, hcursor, ⟨Int.not_lt.mp hsize.1, Int.not_lt.mp hsize.2⟩, htenant, hdevice,
      Decidable.or_iff_not_imp_left.mpr hsort, horder, hstamps.1, hstamps.2, htype, hstatus⟩
  · rintro ⟨rfl, h⟩
    exact ⟨_, ⟨(), h.cursor, (), ⟨Int.not_lt.mpr h.size.1, Int.not_lt.mpr h.size.2⟩, rfl⟩, (),
      h.tenant, (), h.device, (), Decidable.or_iff_not_imp_left.mp h.sort, (), h.order, (),
      ⟨h.startTime, h.endTime⟩, (), h.type, (), h.status, rfl⟩

/-- The defaults are filled in once. -/
theorem PageRequest.filled_filled (page : PageRequest) : page.filled.filled = page.filled := by
  have hsize : page.filled.size ≠ 0 := by
    simp only [PageRequest.filled, defaultPageSize]
    split_ifs with h
    · decide
    · exact h
  have hsort : page.filled.sort ≠ [] := by
    simp only [PageRequest.filled, effectiveSort]
    split_ifs with h
    · decide
    · exact h
  have hhas : ∀ a b : Bool, ((a || b) || b) = (a || b) := by decide
  rw [PageRequest.filled, if_neg hsize, effectiveSort, if_neg hsort]
  simp only [PageRequest.filled, hhas]

/-- A request that was normalized is normalized by the store to itself. -/
theorem normalizeListRequest_again {page normalized : PageRequest} {kind : ListKind}
    (h : normalizeListRequest page kind = .ok normalized) :
    normalizeListRequest normalized kind = .ok normalized := by
  obtain ⟨rfl, hchecked⟩ := normalizeListRequest_eq_ok.mp h
  refine normalizeListRequest_eq_ok.mpr ⟨?_, ?_⟩
  · rw [PageRequest.filled_filled]
  · rwa [PageRequest.filled_filled]

/-- What `listPageFromRPC` makes of its arguments. -/
def ListArgs.page (args : ListArgs) : PageRequest where
  size := if args.size = 0 then defaultPageSize else args.size
  cursor := args.cursor
  tenantID := args.tenant
  deviceID := args.device
  startTime := ⟨(args.start.map pb.asTime).getD zeroTime, 0⟩
  hasStartTime := args.start.isSome
  endTime := ⟨(args.finish.map pb.asTime).getD zeroTime, 0⟩
  hasEndTime := args.finish.isSome
  type := args.kindFilter
  status := args.state
  sort := effectiveSort args.sort

variable {pb}

/-- The accepted calls. A bound that is missing is the zero time, so that none is added for it. -/
theorem listPageFromRPC_ok {args : ListArgs} {kind : ListKind} {page : PageRequest}
    (h : listPageFromRPC pb args kind = .ok page) :
    page = args.page pb ∧ (args.page pb).Checked kind := by
  have hbound : ∀ {bound : Option Timestamp} {result : Stamp × Bool},
      timeBound pb bound = .ok result →
      result = (⟨(bound.map pb.asTime).getD zeroTime, 0⟩, bound.isSome) := by
    intro bound result hresult
    cases bound with
    | none => cases hresult; rfl
    | some ts =>
        rw [timeBound] at hresult
        split_ifs at hresult
        cases hresult
        rfl
  simp only [listPageFromRPC, bind_eq_ok] at h
  obtain ⟨start, hstart, finish, hfinish, hpage⟩ := h
  rw [hbound hstart, hbound hfinish] at hpage
  obtain ⟨rfl, hchecked⟩ := normalizeListRequest_eq_ok.mp hpage
  have hfilled : PageRequest.filled ⟨args.size, args.cursor, args.tenant, args.device,
      ⟨(args.start.map pb.asTime).getD zeroTime, 0⟩, args.start.isSome,
      ⟨(args.finish.map pb.asTime).getD zeroTime, 0⟩, args.finish.isSome, args.kindFilter,
      args.state, args.sort⟩ = args.page pb := by
    rw [PageRequest.filled, ListArgs.page]
    cases args.start <;> cases args.finish <;> simp [Stamp.isZero]
  rw [hfilled] at hchecked ⊢
  exact ⟨rfl, hchecked⟩

/-! ## The JSON of a scope -/

/-- What can be written in JSON and read back: texts that are valid, and times with four digits for
the year. -/
structure PageRequest.Legible (page : PageRequest) : Prop where
  tenant : utf8Valid page.tenantID
  device : utf8Valid page.deviceID
  type : utf8Valid page.type
  status : utf8Valid page.status
  sort : utf8Valid page.sort
  startTime : (rfc3339Nano page.startTime.instant).isSome
  endTime : (rfc3339Nano page.endTime.instant).isSome

/-- A bound in UTC that is supported can be written. -/
theorem supported_isSome {t : Time} (h : unsupportedStamp ⟨t, 0⟩ = false) :
    (rfc3339Nano t).isSome := by
  by_cases hzero : t = zeroTime
  · subst hzero
    decide
  · simp only [unsupportedStamp, Stamp.isZero, Stamp.year, hzero, decide_false, Bool.not_false,
      Bool.true_and, Bool.or_eq_false_iff, decide_eq_false_iff_not, Int.zero_mul, Int.add_zero] at h
    refine rfc3339Nano_isSome ⟨?_, ?_⟩
    · omega
    · omega

/-- The statuses a list may be restricted to are texts. -/
theorem utf8Valid_of_isCommandStatus {status : Bytes} (h : isCommandStatus status) :
    utf8Valid status := by
  obtain ⟨known, -, hknown⟩ := List.any_eq_true.mp h
  rw [← beq_iff_eq.mp hknown]
  cases known <;> decide +kernel

/-- The request of an accepted call can be written. -/
theorem PageRequest.Checked.legible {args : ListArgs} {kind : ListKind}
    (h : (args.page pb).Checked kind) : (args.page pb).Legible where
  tenant := by
    obtain ⟨hpart, -⟩ := isValidTenantID_iff.mp h.tenant
    exact utf8Valid_of_isValidTopicPart hpart
  device := by
    by_cases hempty : (args.page pb).deviceID = []
    · rw [hempty]
      rfl
    · have hdevice := (Http.validateDeviceIdentity_eq_ok.mp (h.device (.inr hempty))).2
      exact utf8Valid_of_isValidTopicPart hdevice
  type := by
    by_cases hempty : (args.page pb).type = []
    · rw [hempty]
      rfl
    · exact (validateStorageField_eq_ok.mp (h.type hempty)).2.2.1
  status := by
    by_cases hempty : (args.page pb).status = []
    · rw [hempty]
      rfl
    · exact utf8Valid_of_isCommandStatus (h.status hempty)
  sort := by
    obtain hs | hs := h.sort <;> rw [hs] <;> decide +kernel
  startTime := supported_isSome h.startTime
  endTime := supported_isSome h.endTime

/-- The members of the request in the JSON of a scope. -/
def PageRequest.members (page : PageRequest) (startTime endTime : List Tok) :
    List (String × List Tok) :=
  [("Size", intTok page.size), ("Cursor", strTok page.cursor),
    ("TenantID", strTok page.tenantID), ("DeviceID", strTok page.deviceID),
    ("StartTime", startTime), ("HasStartTime", boolTok page.hasStartTime),
    ("EndTime", endTime), ("HasEndTime", boolTok page.hasEndTime),
    ("Type", strTok page.type), ("Status", strTok page.status), ("Sort", strTok page.sort)]

/-- The tokens of a scope. -/
def scopeToks (page : PageRequest) (kind : ListKind) (startTime endTime : List Tok) : List Tok :=
  object [("Kind", strTok kind.text), ("Page", object (page.members startTime endTime))]

/-- A time is written in JSON or not. -/
theorem timeValue_eq_ok {t : Time} {toks : List Tok} :
    timeValue t = .ok toks ↔ timeToks t = some toks := by
  unfold timeValue
  cases timeToks t <;> simp

/-- The JSON of a scope. -/
theorem scopeJSON_eq_ok {page : PageRequest} {kind : ListKind} {json : Bytes} :
    scopeJSON page kind = .ok json ↔ ∃ startTime endTime,
      timeToks page.startTime.instant = some startTime ∧
      timeToks page.endTime.instant = some endTime ∧
      json = Json.text (scopeToks page kind startTime endTime) := by
  simp only [scopeJSON, bind_eq_ok, timeValue_eq_ok]
  constructor
  · rintro ⟨startTime, hstart, endTime, hend, hjson⟩
    exact ⟨startTime, endTime, hstart, hend, (Except.ok.inj hjson).symm⟩
  · rintro ⟨startTime, endTime, hstart, hend, rfl⟩
    exact ⟨startTime, hstart, endTime, hend, rfl⟩

/-- A truth value can be written. -/
theorem writable_boolTok {limit : Nat} (b : Bool) : Writable limit (boolTok b) := by
  cases b <;> exact writable_singleton rfl ⟨trivial, trivial⟩

section Scopes

variable {page : PageRequest} {startTime endTime : List Tok}

/-- The members of a request can be written. -/
theorem PageRequest.writable_members (hstart : timeToks page.startTime.instant = some startTime)
    (hend : timeToks page.endTime.instant = some endTime) :
    WritableMembers 0 (page.members startTime endTime) :=
  writableMembers_cons (by decide) (writable_intTok _) <|
  writableMembers_cons (by decide) (writable_strTok _) <|
  writableMembers_cons (by decide) (writable_strTok _) <|
  writableMembers_cons (by decide) (writable_strTok _) <|
  writableMembers_cons (by decide) (writable_timeToks hstart) <|
  writableMembers_cons (by decide) (writable_boolTok _) <|
  writableMembers_cons (by decide) (writable_timeToks hend) <|
  writableMembers_cons (by decide) (writable_boolTok _) <|
  writableMembers_cons (by decide) (writable_strTok _) <|
  writableMembers_cons (by decide) (writable_strTok _) <|
  writableMembers_cons (by decide) (writable_strTok _) writableMembers_nil

/-- The members of a scope can be written. -/
theorem writable_scope (kind : ListKind) (hstart : timeToks page.startTime.instant = some startTime)
    (hend : timeToks page.endTime.instant = some endTime) :
    WritableMembers 1 [("Kind", strTok kind.text),
      ("Page", object (page.members startTime endTime))] :=
  writableMembers_cons (by decide) (writable_strTok _) <|
  writableMembers_cons (by decide) (writable_object (PageRequest.writable_members hstart hend))
    writableMembers_nil

end Scopes

/-! ## Reading a scope back -/

/-- Texts are told apart by their tokens. -/
theorem strTok_injective {s other : Bytes} (h : utf8Valid s) (hother : utf8Valid other)
    (htoks : strTok s = strTok other) : s = other := by
  have hquote : quote s = quote other := by
    simpa only [strTok, List.cons.injEq, Tok.str.injEq, and_true] using htoks
  rw [← unquote_quote h, hquote, unquote_quote hother]

/-- Truth values are told apart by their tokens. -/
theorem boolTok_injective {b other : Bool} (h : boolTok b = boolTok other) : b = other := by
  cases b <;> cases other <;> first | rfl | cases h

/-- Times are told apart by their tokens. -/
theorem timeToks_injective {t other : Time} {toks : List Tok} (h : timeToks t = some toks)
    (hother : timeToks other = some toks) : t = other := by
  simp only [timeToks, Option.map_eq_some_iff] at h hother
  obtain ⟨s, hs, rfl⟩ := h
  obtain ⟨s', hs', htoks⟩ := hother
  have heq : s' = s := by
    simp only [plainTok, List.cons.injEq, Tok.str.injEq, and_true] at htoks
    exact List.map_injective_iff.mpr (fun b b' hb => by simpa using hb) htoks
  have hparse := parseRFC3339_rfc3339Nano hs
  rw [← heq, parseRFC3339_rfc3339Nano hs'] at hparse
  exact (Option.some.inj hparse).symm

/-- Kinds are told apart by their texts. -/
theorem ListKind.text_injective {kind other : ListKind} (h : kind.text = other.text) :
    kind = other := by
  revert h
  cases kind <;> cases other <;> decide

/-- Requests for the same list: they differ in the page at most. -/
structure SameScope (page other : PageRequest) : Prop where
  tenantID : page.tenantID = other.tenantID
  deviceID : page.deviceID = other.deviceID
  startTime : page.startTime.instant = other.startTime.instant
  hasStartTime : page.hasStartTime = other.hasStartTime
  endTime : page.endTime.instant = other.endTime.instant
  hasEndTime : page.hasEndTime = other.hasEndTime
  type : page.type = other.type
  status : page.status = other.status
  sort : page.sort = other.sort

/-- What a scope is the hash of. -/
def scopeText (page : PageRequest) (kind : ListKind) : Bytes :=
  (scopeJSON (page.at 0 []) kind).toOption.getD []

/-- The text of the scope of a legible request. -/
theorem PageRequest.Legible.scopeText_eq {page : PageRequest} (h : page.Legible) (kind : ListKind) :
    ∃ startTime endTime, timeToks page.startTime.instant = some startTime ∧
      timeToks page.endTime.instant = some endTime ∧
      scopeText page kind = Json.text (scopeToks (page.at 0 []) kind startTime endTime) := by
  have htoks : ∀ {t : Time}, (rfc3339Nano t).isSome → ∃ toks, timeToks t = some toks := by
    intro t ht
    obtain ⟨text, htext⟩ := Option.isSome_iff_exists.mp ht
    exact ⟨_, by rw [timeToks, htext]; rfl⟩
  obtain ⟨startTime, hstart⟩ := htoks h.startTime
  obtain ⟨endTime, hend⟩ := htoks h.endTime
  have hjson := (@scopeJSON_eq_ok (page.at 0 []) kind _).mpr ⟨startTime, endTime, hstart, hend, rfl⟩
  exact ⟨startTime, endTime, hstart, hend, by rw [scopeText, hjson]; rfl⟩

/-- Legible requests with one text are of the same kind and for the same list. -/
theorem scopeText_injective {page other : PageRequest} {kind kind' : ListKind} (h : page.Legible)
    (hother : other.Legible) (htext : scopeText page kind = scopeText other kind') :
    kind = kind' ∧ SameScope page other := by
  obtain ⟨startTime, endTime, hstart, hend, hpage⟩ := h.scopeText_eq kind
  obtain ⟨startTime', endTime', hstart', hend', hpage'⟩ := hother.scopeText_eq kind'
  have hwrite := @writable_scope (page.at 0 []) startTime endTime kind hstart hend
  have hwrite' := @writable_scope (other.at 0 []) startTime' endTime' kind' hstart' hend'
  rw [hpage, hpage'] at htext
  -- the outer object, and then the one of the request
  have houter := values_of_object hwrite hwrite'
    (Json.text_injective (writable_object hwrite) (writable_object hwrite') htext)
  simp only [List.map_cons, List.map_nil, List.cons.injEq, and_true] at houter
  have hinner := values_of_object (@PageRequest.writable_members (page.at 0 []) _ _ hstart hend)
    (@PageRequest.writable_members (other.at 0 []) _ _ hstart' hend') houter.2
  simp only [PageRequest.members, PageRequest.at, List.map_cons, List.map_nil, List.cons.injEq,
    and_true, true_and] at hinner
  obtain ⟨htenant, hdevice, rfl, hhasStart, rfl, hhasEnd, htype, hstatus, hsort⟩ := hinner
  have hkind : ∀ k : ListKind, utf8Valid k.text := by
    intro k
    cases k <;> decide +kernel
  exact ⟨ListKind.text_injective (strTok_injective (hkind _) (hkind _) houter.1),
    strTok_injective h.tenant hother.tenant htenant,
    strTok_injective h.device hother.device hdevice, timeToks_injective hstart hstart',
    boolTok_injective hhasStart, timeToks_injective hend hend', boolTok_injective hhasEnd,
    strTok_injective h.type hother.type htype, strTok_injective h.status hother.status hstatus,
    strTok_injective h.sort hother.sort hsort⟩

/-- Requests for the same list have one text. -/
theorem SameScope.scopeText_eq {page other : PageRequest} (h : SameScope page other)
    (kind : ListKind) : scopeText page kind = scopeText other kind := by
  simp only [scopeText, scopeJSON, PageRequest.at, h.tenantID, h.deviceID, h.startTime,
    h.hasStartTime, h.endTime, h.hasEndTime, h.type, h.status, h.sort]

/-! ## Cursors of calls -/

/-- Calls that ask for pages of the same list. -/
structure ListArgs.SameList (pb : Timestamppb) (args other : ListArgs) : Prop where
  tenant : args.tenant = other.tenant
  device : args.device = other.device
  start : args.start.map pb.asTime = other.start.map pb.asTime
  finish : args.finish.map pb.asTime = other.finish.map pb.asTime
  kindFilter : args.kindFilter = other.kindFilter
  state : args.state = other.state
  sort : effectiveSort args.sort = effectiveSort other.sort

/-- The requests of such calls are for the same list, and only theirs. -/
theorem ListArgs.sameScope_iff {args other : ListArgs} :
    SameScope (args.page pb) (other.page pb) ↔ args.SameList pb other := by
  -- a bound is its instant and whether it is there
  have hbound : ∀ {a b : Option Time},
      a.getD zeroTime = b.getD zeroTime → a.isSome = b.isSome → a = b := by
    intro a b hinstant hpresence
    cases a <;> cases b <;> simp_all
  constructor
  · intro h
    refine ⟨h.tenantID, h.deviceID, hbound h.startTime ?_, hbound h.endTime ?_, h.type, h.status,
      h.sort⟩
    · simpa only [ListArgs.page, Option.isSome_map] using h.hasStartTime
    · simpa only [ListArgs.page, Option.isSome_map] using h.hasEndTime
  · intro h
    refine ⟨h.tenant, h.device, ?_, ?_, ?_, ?_, h.kindFilter, h.state, h.sort⟩
    · simp only [ListArgs.page, h.start]
    · simpa only [ListArgs.page, Option.isSome_map] using congrArg Option.isSome h.start
    · simp only [ListArgs.page, h.finish]
    · simpa only [ListArgs.page, Option.isSome_map] using congrArg Option.isSome h.finish

/-- An accepted call is accepted with any other cursor that is short enough. -/
theorem listPageFromRPC_cursor {args : ListArgs} {kind : ListKind} {page : PageRequest}
    (h : listPageFromRPC pb args kind = .ok page) {cursor : Bytes}
    (hcursor : cursor.length ≤ maxCursorBytes) :
    listPageFromRPC pb { args with cursor := cursor } kind = .ok (page.at page.size cursor) := by
  simp only [listPageFromRPC, bind_eq_ok] at h ⊢
  obtain ⟨start, hstart, finish, hfinish, hpage⟩ := h
  obtain ⟨rfl, hchecked⟩ := normalizeListRequest_eq_ok.mp hpage
  exact ⟨start, hstart, finish, hfinish,
    normalizeListRequest_eq_ok.mpr ⟨rfl, { hchecked with cursor := hcursor }⟩⟩

variable {go : GoRuntime}

/-- A cursor that is accepted has the scope of the request. -/
theorem scope_of_decodePageCursor {request : PageRequest} {kind : ListKind} {c : ListCursor}
    {row : Time × Bytes} (hcursor : request.cursor = encodeRawURL (Json.text (object c.members)))
    (hversion : isInt64 c.version) (hscope : utf8Valid c.scope) (htime : utf8Valid c.time)
    (hid : utf8Valid c.id) (h : decodePageCursor go request kind = .ok row) :
    c.scope = cursorScope request kind := by
  have hne : request.cursor ≠ [] := by
    rw [hcursor]
    exact encodeRawURL_ne_nil (text_object_ne_nil _)
  have hread : decodeRawURL request.cursor = some (Json.text (object c.members)) := by
    rw [hcursor, decodeRawURL_encodeRawURL]
  have hunmarshal := @ListCursor.unmarshal_text go c hversion hscope htime hid
  simp only [decodePageCursor, if_neg hne, hread, hunmarshal] at h
  split_ifs at h with hlong hmatch
  rw [not_or, not_or, not_not, not_not] at hmatch
  exact hmatch.2.1

/-- The cursor of a row that can be listed is short, and it is accepted for the pages of the list it
was issued for and for those of no other. It then names the row that it was made of. -/
theorem cursors_bound {args other : ListArgs} {kind kind' : ListKind} {page page' : PageRequest}
    {time : Time} {id : Bytes} (h : listPageFromRPC pb args kind = .ok page)
    (hother : listPageFromRPC pb other kind' = .ok page')
    (hrow : Listable kind time id)
    (hfree : sha256Hex (scopeText page kind) = sha256Hex (scopeText page' kind') →
      scopeText page kind = scopeText page' kind') :
    normalizeListRequest page kind = .ok page ∧
    (encodePageCursor page kind time id).length ≤ maxCursorBytes ∧
    ∃ request,
      listPageFromRPC pb { other with cursor := encodePageCursor page kind time id } kind' =
        .ok request ∧
      normalizeListRequest request kind' = .ok request ∧
      ((∃ row, decodePageCursor go request kind' = .ok row) ↔
        kind = kind' ∧ args.SameList pb other) ∧
      ∀ row, decodePageCursor go request kind' = .ok row → row = (time, id) := by
  obtain ⟨hyear, hprecise, hid⟩ := hrow
  obtain ⟨text, htext⟩ := Option.isSome_iff_exists.mp
    (rfc3339Nano_isSome (t := time) ⟨by omega, hyear.2⟩)
  have hshort : (encodePageCursor page kind time id).length ≤ maxCursorBytes :=
    length_encodePageCursor htext (storageID_iff.mp hid).2.1
  have hrequest := listPageFromRPC_cursor hother hshort
  have hnormal : ∀ {args : ListArgs} {kind : ListKind} {page : PageRequest},
      listPageFromRPC pb args kind = .ok page → normalizeListRequest page kind = .ok page := by
    intro args kind page hpage
    simp only [listPageFromRPC, bind_eq_ok] at hpage
    obtain ⟨_, _, _, _, hpage⟩ := hpage
    exact normalizeListRequest_again hpage
  obtain ⟨rfl, hchecked⟩ := listPageFromRPC_ok h
  obtain ⟨rfl, hchecked'⟩ := listPageFromRPC_ok hother
  have hformat : formatRFC3339Nano time = text := by rw [formatRFC3339Nano, htext]; rfl
  have hvalid : utf8Valid (formatRFC3339Nano time) := by
    rw [hformat]
    exact utf8Valid_ascii (ascii_of_plain (rfc3339Nano_plain htext))
  -- the scope of the cursor is that of the request only for the same list
  have honly : ∀ row, decodePageCursor go ((other.page pb).at (other.page pb).size
      (encodePageCursor (args.page pb) kind time id)) kind' = .ok row →
      kind = kind' ∧ args.SameList pb other := by
    intro row hrow
    have hscope := @scope_of_decodePageCursor go
      ((other.page pb).at (other.page pb).size (encodePageCursor (args.page pb) kind time id)) kind'
      ⟨1, cursorScope (args.page pb) kind, formatRFC3339Nano time, id⟩ row rfl
      (show isInt64 1 by decide) (utf8Valid_ascii (cursorScope_ascii _ _).2) hvalid
      (storageID_iff.mp hid).2.2.1 hrow
    rw [cursorScope_at] at hscope
    obtain ⟨hkind, hsame⟩ := scopeText_injective hchecked.legible hchecked'.legible (hfree hscope)
    exact ⟨hkind, ListArgs.sameScope_iff.mp hsame⟩
  have hdecode : kind = kind' ∧ args.SameList pb other →
      decodePageCursor go ((other.page pb).at (other.page pb).size
        (encodePageCursor (args.page pb) kind time id)) kind' = .ok (time, id) := by
    rintro ⟨rfl, hsame⟩
    have hscope : cursorScope (args.page pb) kind = cursorScope (other.page pb) kind :=
      congrArg sha256Hex ((ListArgs.sameScope_iff.mpr hsame).scopeText_eq kind)
    have hread := @decodePageCursor_encodePageCursor go _ _ kind time id text htext hid hscope
      (other.page pb).size
    rw [Precise] at hprecise
    rwa [hprecise, if_neg Bool.false_ne_true] at hread
  refine ⟨hnormal h, hshort, _, hrequest, hnormal hrequest, ⟨?_, ?_⟩, ?_⟩
  · rintro ⟨row, hrow⟩
    exact honly row hrow
  · intro hsame
    exact ⟨_, hdecode hsame⟩
  · intro row hrow
    rw [hdecode (honly row hrow)] at hrow
    exact (Except.ok.inj hrow).symm

/-- A call for the telemetry of a device since 1970. -/
def sinceEpoch (size : Int) (sort : Bytes) : ListArgs :=
  ⟨size, [], ascii "acme", ascii "pump", some ⟨0, 0⟩, none, sort, [], []⟩

/-- The second page of a list may have another size, and its order may be spelled out. -/
theorem cursors_bound_spelling : ∃ page request,
    listPageFromRPC .plain (sinceEpoch 10 []) .telemetry = .ok page ∧
    listPageFromRPC .plain { sinceEpoch 0 (ascii "desc") with
      cursor := encodePageCursor page .telemetry second (ascii "m1") } .telemetry = .ok request ∧
    decodePageCursor GoRuntime.plain request .telemetry = .ok (second, ascii "m1") := by
  have hfirst : listPageFromRPC .plain (sinceEpoch 10 []) .telemetry =
      .ok ((sinceEpoch 10 []).page .plain) := by rfl
  have hsecond : listPageFromRPC .plain (sinceEpoch 0 (ascii "desc")) .telemetry =
      .ok ((sinceEpoch 0 (ascii "desc")).page .plain) := by rfl
  have hsame : (sinceEpoch 10 []).SameList .plain (sinceEpoch 0 (ascii "desc")) :=
    ⟨rfl, rfl, rfl, rfl, rfl, rfl, rfl⟩
  have hprecise : unsupportedPrecision .telemetry second = false := by decide
  have hid : (validateStorageField "id" (ascii "m1") 64).isOk := by decide +kernel
  obtain ⟨-, -, request, hrequest, -, haccepted, hrow⟩ := @cursors_bound .plain .plain _ _ _ _ _ _
    second (ascii "m1") hfirst hsecond ⟨by decide, hprecise, hid⟩ (fun _ => rfl)
  obtain ⟨row, hdecode⟩ := haccepted.mpr ⟨rfl, hsame⟩
  exact ⟨_, request, hfirst, hrequest, by rw [hdecode, hrow row hdecode]⟩

end Iot.Listing
