import Iot.Contracts.Payload
import Iot.Platform.Records

/-!
# What fits into a Kafka record

`PublishTelemetry` marshals the record of an accepted envelope and writes it with a limit of
`businessBatchBytes`; the worker decodes it and `RestoreTelemetryContext` checks the payload
again. `ValidateTelemetryPayload` bounds the payload as it was sent and as PostgreSQL will print
it, not as `json.Marshal` writes it: `json.Marshal` keeps `\u` escapes, which PostgreSQL does not,
and escapes `<`, `>` and `&`, which the sender need not. `accepted_telemetry_fits` says exactly
which payloads get through.
-/

namespace Iot.Platform

open Text Json Contracts

variable {go : GoRuntime}

/-- The payload leaves a level of nesting for the record around it. -/
def LeavesLevel (payload : Bytes) : Prop := (parseWithin (maxNestingDepth - 1) payload).isSome

instance (payload : Bytes) : Decidable (LeavesLevel payload) :=
  inferInstanceAs (Decidable (_ = true))

/-- The payload is at most `MaxTelemetryPayloadBytes` long once it is written again, and leaves a
level of nesting for the record around it. -/
def FitsRecord (payload : Bytes) : Prop :=
  compactLength payload ≤ maxTelemetryPayloadBytes ∧ LeavesLevel payload

instance (payload : Bytes) : Decidable (FitsRecord payload) :=
  inferInstanceAs (Decidable (_ ∧ _))

/-- What is known of a payload that was accepted. -/
theorem parse_of_accepted {payload : Bytes} (h : validateTelemetryPayload payload = .ok ()) :
    payload ≠ [] ∧ ∃ lexemes, parse payload = some lexemes := by
  obtain ⟨_, _, lexemes, hparse, _⟩ :=
    validateJSONBBudget_eq_ok.mp (validateTelemetryPayload_eq_ok.mp h).2
  refine ⟨?_, lexemes, hparse⟩
  rintro rfl
  rw [show parse [] = none from rfl] at hparse
  cases hparse

/-- The text of a payload as it stands in the record, if it leaves a level for the record. -/
theorem rawToks_eq_some {payload : Bytes} {lexemes : List Lexeme} (hne : payload ≠ [])
    (hparse : parse payload = some lexemes) {toks : List Tok} :
    rawToks 1 payload = some toks ↔
      LeavesLevel payload ∧ toks = lexemes.map fun l => escapeTok l.tok := by
  have hlex := (parse_eq_some.mp hparse).1
  rw [rawToks, if_neg hne, LeavesLevel]
  simp only [parseWithin, hlex, Option.bind_eq_bind, Option.bind_some]
  split_ifs with hdocument
  · simp [eq_comm]
  · simp

namespace TelemetryRecord

/-- The length of a record in JSON. -/
theorem length_members (rec : TelemetryRecord) (payload receivedAt : List Tok) :
    (text (object (rec.members payload receivedAt))).length =
      quotedLength rec.msgID + quotedLength rec.tenantID + quotedLength rec.deviceID +
        quotedLength rec.type + quotedLength rec.version + (decimal rec.ts).length +
        (text payload).length + (text receivedAt).length + 94 := by
  have hint : (text (intTok rec.ts)).length = (decimal rec.ts).length := by
    simp [intTok, Tok.bytes, Tok.runes]
  rw [members, length_object]
  simp only [List.map_cons, List.map_nil, List.sum_cons, List.sum_nil, memberLength,
    length_strTok, hint]
  have hnames : (ascii "msgId").length = 5 ∧ (ascii "tenantId").length = 8 ∧
      (ascii "deviceId").length = 8 ∧ (ascii "ts").length = 2 ∧ (ascii "type").length = 4 ∧
      (ascii "version").length = 7 ∧ (ascii "payload").length = 7 ∧
      (ascii "receivedAt").length = 10 := by decide
  obtain ⟨h1, h2, h3, h4, h5, h6, h7, h8⟩ := hnames
  rw [h1, h2, h3, h4, h5, h6, h7, h8]
  omega

/-- The fields of an accepted envelope leave the payload `MaxTelemetryPayloadBytes`. -/
theorem length_le_businessBatchBytes {env : Envelope} {receivedAt : Time}
    {payload stamp : List Tok} (hfields : validateTelemetryFields env = .ok ())
    (hts : isInt64 env.ts) (htime : zonedValue 0 receivedAt = .ok stamp)
    (hpayload : (text payload).length ≤ maxTelemetryPayloadBytes) :
    (text (object ((ofEnvelope env receivedAt).members payload stamp))).length ≤
      businessBatchBytes := by
  have hfields := (validateTelemetryFields_eq_ok.mp hfields).1
  simp only [telemetryFields, List.forall_mem_cons, validateStorageField_eq_ok,
    telemetryFieldMaxBytes, telemetryVersionMaxBytes] at hfields
  obtain ⟨⟨_, hmsg, _⟩, ⟨_, htenant, _⟩, ⟨_, hdevice, _⟩, ⟨_, htype, _⟩, ⟨_, hversion, _⟩, _⟩ :=
    hfields
  have hstamp : (text stamp).length ≤ 32 := by
    obtain ⟨s, hs, _, rfl⟩ := zonedValue_eq_ok.mp htime
    rw [rfc3339NanoAt_zero] at hs
    have hs := length_rfc3339Nano_le hs
    rw [length_plainTok]
    omega
  have hdecimal := length_decimal_le hts.1 hts.2
  have hquoted := fun s : Bytes => quotedLength_le s
  have h1 := hquoted env.msgID
  have h2 := hquoted env.tenantID
  have h3 := hquoted env.deviceID
  have h4 := hquoted env.type
  have h5 := hquoted env.version
  rw [show maxTelemetryPayloadBytes = 1044480 from rfl] at hpayload
  rw [length_members, show businessBatchBytes = 1048576 from rfl]
  simp only [ofEnvelope]
  omega

end TelemetryRecord

/-! ## Payloads that mix escapes and plain characters -/

/-- A literal that repeats the escape of `A` and a plain `<`. -/
def mixedItems : Nat → List StrItem
  | 0 => []
  | n + 1 => .uni 0x30 0x30 0x34 0x31 :: .raw (.one 0x3C) :: mixedItems n

/-- What the literal stands for. -/
def mixedText : Nat → Bytes
  | 0 => []
  | n + 1 => 0x41 :: 0x3C :: mixedText n

/-- An object with such a literal. -/
def mixedPayload (n : Nat) : List Tok := object [("a", [.str (mixedItems n)])]

/-- An envelope with such a payload. -/
def mixedEnvelope (n : Nat) : Envelope where
  msgID := ascii "m"
  tenantID := ascii "t"
  deviceID := ascii "d"
  ts := 1700000000000
  type := ascii "x"
  version := ascii "1"
  traceID := []
  productID := []
  region := []
  seq := 0
  payload := text (mixedPayload n)

theorem mixedItems_plain (n : Nat) : ∀ item ∈ mixedItems n, item.Plain := by
  induction n with
  | zero => simp [mixedItems]
  | succ n ih =>
      simp only [mixedItems, List.forall_mem_cons]
      refine ⟨plain_uni (by decide) (by decide) (by decide) (by decide), ⟨?_, ?_⟩, ih⟩
      · simp only [StrItem.Printable]
        decide
      · decide

theorem unquote_mixedItems (n : Nat) : unquote (mixedItems n) = mixedText n := by
  induction n with
  | zero => simp [mixedItems, mixedText, unquote]
  | succ n ih =>
      rw [mixedItems, unquote_uni (by decide), unquote, ih]
      rfl

theorem paired_mixedItems (n : Nat) : paired (mixedItems n) := by
  induction n with
  | zero => rfl
  | succ n ih =>
      rw [mixedItems, paired_uni (by decide)]
      simpa only [paired] using ih

theorem mixedText_bytes (n : Nat) : ∀ b ∈ mixedText n, b = 0x41 ∨ b = 0x3C := by
  induction n with
  | zero => simp [mixedText]
  | succ n ih => simpa [mixedText] using ih

/-- PostgreSQL's text of the literal is charged seven bytes a repetition. -/
theorem quotedLength_mixedText (n : Nat) : quotedLength (mixedText n) = 7 * n := by
  have hascii : ∀ b ∈ mixedText n, b < 0x80 := by
    intro b hb
    rcases mixedText_bytes n b hb with rfl | rfl <;> decide
  rw [quotedLength, decode_ascii hascii]
  clear hascii
  induction n with
  | zero => rfl
  | succ n ih =>
      simp only [mixedText, List.map_cons, List.sum_cons, ih]
      rw [show quoteWidth (.one 0x41) = 1 by decide, show quoteWidth (.one 0x3C) = 6 by decide]
      omega

/-- The literal itself has seven bytes a repetition, and twelve once it is HTML-safe. -/
theorem widths_mixedItems (n : Nat) :
    ((mixedItems n).map StrItem.width).sum = 7 * n ∧
      ((mixedItems n).map fun item => item.width + htmlGrowth item).sum = 12 * n := by
  induction n with
  | zero => exact ⟨rfl, rfl⟩
  | succ n ih =>
      simp only [mixedItems, List.map_cons, List.sum_cons, ih]
      rw [show (StrItem.raw (.one 0x3C)).width = 1 by decide,
        show htmlGrowth (.raw (.one 0x3C)) = 5 by decide,
        show htmlGrowth (.uni 0x30 0x30 0x34 0x31) = 0 from rfl]
      simp only [StrItem.width]
      omega

/-- Such a payload can be written. -/
theorem writable_mixedPayload (n : Nat) : Writable 1 (mixedPayload n) :=
  writable_object <| writableMembers_cons (by decide)
    (writable_singleton rfl (printable_of_plain (mixedItems_plain n))) writableMembers_nil

/-- A short enough payload of this kind is accepted. -/
theorem validateTelemetryPayload_mixed {n : Nat} (h : 7 * n + 15 ≤ maxTelemetryPayloadBytes) :
    validateTelemetryPayload (text (mixedPayload n)) = .ok () := by
  have hwritable := writable_mixedPayload n
  have hname : (marshalString (unquote (nameItems "a"))).length = 3 := by decide
  have hvalue : (marshalString (mixedText n)).length = 7 * n + 2 := by
    have hlength := length_strTok (mixedText n)
    rw [quotedLength_mixedText] at hlength
    simpa [strTok, marshalString] using hlength
  have hzero : (mixedText n).contains 0 = false := by
    rw [List.contains_eq_mem, decide_eq_false_iff_not]
    intro hmem
    rcases mixedText_bytes n 0 hmem with h0 | h0 <;> exact absurd h0 (by decide)
  have hlength : (text (mixedPayload n)).length = 7 * n + 8 := by
    rw [mixedPayload, length_object]
    simp only [memberLength, text_cons, text_nil, List.append_nil, length_str,
      (widths_mixedItems n).1, List.map_nil, List.sum_nil]
    rw [show (ascii "a").length = 1 from rfl]
    omega
  refine (validateTelemetryPayload_text
    ⟨isDocument_mono hwritable.document (by decide), hwritable.printable⟩ ?_ rfl).mpr
    ⟨by rw [hlength]; omega, ?_, ?_⟩
  · intro tok htok
    simp only [mixedPayload, object, memberToks, List.flatMap_nil, List.append_nil,
      List.cons_append, List.nil_append, List.mem_cons, List.not_mem_nil, or_false] at htok
    rcases htok with rfl | rfl | rfl | rfl | rfl
    · decide
    · decide
    · decide
    · simp only [Tok.runes, List.forall_mem_append, List.forall_mem_flatMap]
      exact ⟨⟨by decide, fun item hitem => (mixedItems_plain n item hitem).2⟩, by decide⟩
    · decide
  · simp only [mixedPayload, object, memberToks, List.flatMap_nil, List.append_nil,
      List.cons_append, List.nil_append, List.all_cons, tokPaired, paired_mixedItems, List.all_nil,
      Bool.and_true, Bool.true_and]
    decide
  · have hreported : reported (mixedPayload n) =
        [.lbrace, .str (nameItems "a"), .str (mixedItems n), .rbrace] := by
      simp [mixedPayload, object, memberToks, reported]
    have hcontains : (unquote (nameItems "a")).contains 0 = false := by decide
    rw [hreported]
    simp only [chargeTokens, tokenCost, unquote_mixedItems, hzero, hcontains, hname, hvalue,
      Bool.false_eq_true, if_false, bind, Except.bind]
    rw [if_neg (by omega), if_neg (by omega), if_neg (by omega), if_neg (by omega)]

/-- The payload grows when it is written again. -/
theorem compactLength_mixed (n : Nat) : compactLength (text (mixedPayload n)) = 12 * n + 8 := by
  have hwritable := writable_mixedPayload n
  have hparse : parse (text (mixedPayload n)) = some ((mixedPayload n).map bare) := by
    rw [parse_text hwritable, if_pos (isDocument_mono hwritable.document (by decide))]
  rw [compactLength, (parse_eq_some.mp hparse).1, Option.getD_some, List.map_map]
  simp only [mixedPayload, object, memberToks, List.flatMap_nil, List.append_nil,
    List.cons_append, List.nil_append, List.map_cons, List.map_nil, List.sum_cons, List.sum_nil,
    Function.comp_apply, bare, safeLength, (widths_mixedItems n).2]
  rw [show ((nameItems "a").map fun item => item.width + htmlGrowth item).sum = 1 by decide,
    show Tok.lbrace.bytes.length = 1 from rfl, show Tok.rbrace.bytes.length = 1 from rfl,
    show Tok.colon.bytes.length = 1 from rfl]
  omega

/-- Such a payload is nested one level deep. -/
theorem leavesLevel_mixed (n : Nat) : LeavesLevel (text (mixedPayload n)) := by
  have hwritable := writable_mixedPayload n
  have hdocument := isDocument_mono hwritable.document (show 1 ≤ maxNestingDepth - 1 by decide)
  have hlex := lex_text (fun tok htok => (hwritable.printable tok htok).1)
    (fun tok htok => (hwritable.printable tok htok).2) (separated_of_document hdocument)
  rw [LeavesLevel, parseWithin, hlex]
  simp only [Option.bind_eq_bind, Option.bind_some, map_tok_bare, hdocument, if_true,
    Option.isSome_some]

/-! ## Which payloads get through -/

/-- The record of an accepted payload can be marshalled when its time can be written and its payload
leaves a level for the record. -/
theorem exists_marshal {env : Envelope} (h : validateTelemetryPayload env.payload = .ok ())
    (receivedAt : Time) :
    (∃ value, (TelemetryRecord.ofEnvelope env receivedAt).marshal go = .ok value) ↔
      (rfc3339Nano receivedAt).isSome ∧ LeavesLevel env.payload := by
  obtain ⟨hne, lexemes, hparse⟩ := parse_of_accepted h
  have hraw : ∀ toks, rawToks 1 (TelemetryRecord.ofEnvelope env receivedAt).payload = some toks ↔
      LeavesLevel env.payload ∧ toks = lexemes.map fun l => escapeTok l.tok :=
    fun _ => rawToks_eq_some hne hparse
  rw [← zonedValue_zero_isOk]
  simp only [TelemetryRecord.marshal, TelemetryRecord.marshalAt_eq_ok, hraw]
  constructor
  · rintro ⟨_, _, stamp, ⟨hlevel, _⟩, hstamp, _⟩
    exact ⟨⟨stamp, hstamp⟩, hlevel⟩
  · rintro ⟨⟨stamp, hstamp⟩, hlevel⟩
    exact ⟨_, _, stamp, ⟨hlevel, rfl⟩, hstamp, rfl⟩

/-- What is known of the value marshalled for an accepted payload: its length, when it is read,
and when the payload read from it is accepted. -/
theorem marshal_accepted {env : Envelope} (h : validateTelemetryPayload env.payload = .ok ())
    {receivedAt : Time} {value : Bytes}
    (hvalue : (TelemetryRecord.ofEnvelope env receivedAt).marshal go = .ok value) :
    compactLength env.payload ≤ value.length ∧
      (validateTelemetryFields env = .ok () → isInt64 env.ts →
        compactLength env.payload ≤ maxTelemetryPayloadBytes → value.length ≤ businessBatchBytes) ∧
      ((∃ rec, TelemetryRecord.unmarshal go value = .ok rec) ↔ isInt64 env.ts) ∧
      ∀ rec, TelemetryRecord.unmarshal go value = .ok rec →
        (validateTelemetryPayload rec.payload = .ok () ↔
          compactLength env.payload ≤ maxTelemetryPayloadBytes) := by
  obtain ⟨hne, lexemes, hparse⟩ := parse_of_accepted h
  obtain ⟨hlength, haccept⟩ := validateTelemetryPayload_compact h hparse
  obtain ⟨payload, stamp, hpayload, htime, rfl⟩ := TelemetryRecord.marshalAt_eq_ok.mp hvalue
  obtain ⟨_, rfl⟩ := (rawToks_eq_some hne hparse).mp hpayload
  simp only [TelemetryRecord.unmarshal_marshal_eq rfl hpayload htime]
  refine ⟨?_, ?_, ?_, ?_⟩
  · rw [TelemetryRecord.length_members, ← hlength, compact]
    omega
  · intro hfields hts hcompact
    exact TelemetryRecord.length_le_businessBatchBytes hfields hts htime (hlength.trans_le hcompact)
  · constructor
    · rintro ⟨_, hts, _⟩
      exact hts
    · intro hts
      exact ⟨_, hts, rfl⟩
  · rintro rec ⟨_, rfl⟩
    exact haccept

/-- The record of an accepted envelope can be marshalled exactly when the clock shows a year that
JSON can write and the payload is nested at most 9999 deep, one level less than is accepted. It is
then at most `businessBatchBytes` long, is read by the worker and its payload is accepted again
exactly when the payload is at most `MaxTelemetryPayloadBytes` long once it is written again. So,
whenever the year can be written, telemetry gets through exactly when its payload fits a record. -/
theorem accepted_telemetry_fits (go : GoRuntime) (env : Envelope) (now receivedAt : Time)
    (hvalid : validateEnvelopeAt env now = .ok ()) (hts : isInt64 env.ts) :
    ((∃ value, (TelemetryRecord.ofEnvelope env receivedAt).marshal go = .ok value) ↔
      (rfc3339Nano receivedAt).isSome ∧ LeavesLevel env.payload) ∧
    (∀ value, (TelemetryRecord.ofEnvelope env receivedAt).marshal go = .ok value →
      ((value.length ≤ businessBatchBytes ∧
          ∃ rec, TelemetryRecord.unmarshal go value = .ok rec ∧
            validateTelemetryPayload rec.payload = .ok ()) ↔
        compactLength env.payload ≤ maxTelemetryPayloadBytes)) ∧
    ((rfc3339Nano receivedAt).isSome →
      ((∃ value, (TelemetryRecord.ofEnvelope env receivedAt).marshal go = .ok value ∧
          value.length ≤ businessBatchBytes ∧
          ∃ rec, TelemetryRecord.unmarshal go value = .ok rec ∧
            validateTelemetryPayload rec.payload = .ok ()) ↔
        FitsRecord env.payload)) := by
  obtain ⟨hpayload, _, hfields, _⟩ := validateEnvelopeAt_eq_ok.mp hvalid
  have hmarshal := @exists_marshal go env hpayload receivedAt
  have hthrough : ∀ value, (TelemetryRecord.ofEnvelope env receivedAt).marshal go = .ok value →
      ((value.length ≤ businessBatchBytes ∧
          ∃ rec, TelemetryRecord.unmarshal go value = .ok rec ∧
            validateTelemetryPayload rec.payload = .ok ()) ↔
        compactLength env.payload ≤ maxTelemetryPayloadBytes) := by
    intro value hvalue
    obtain ⟨_, hfits, hread, haccept⟩ := marshal_accepted hpayload hvalue
    constructor
    · rintro ⟨_, rec, hrec, hagain⟩
      exact (haccept rec hrec).mp hagain
    · intro hcompact
      obtain ⟨rec, hrec⟩ := hread.mpr hts
      exact ⟨hfits hfields hts hcompact, rec, hrec, (haccept rec hrec).mpr hcompact⟩
  refine ⟨hmarshal, hthrough, fun hclock => ?_⟩
  constructor
  · rintro ⟨value, hvalue, hread⟩
    exact ⟨(hthrough value hvalue).mp hread, (hmarshal.mp ⟨value, hvalue⟩).2⟩
  · rintro ⟨hcompact, hlevel⟩
    obtain ⟨value, hvalue⟩ := hmarshal.mpr ⟨hclock, hlevel⟩
    exact ⟨value, hvalue, (hthrough value hvalue).mpr hcompact⟩

/-- A short payload gets through. -/
theorem accepted_telemetry_fits_short :
    validateEnvelopeAt (mixedEnvelope 1) 1700000000000000000 = .ok () ∧
      isInt64 (mixedEnvelope 1).ts ∧ FitsRecord (mixedEnvelope 1).payload ∧
      ∃ value, (TelemetryRecord.ofEnvelope (mixedEnvelope 1) 1700000000000000000).marshal .plain =
          .ok value ∧ value.length ≤ businessBatchBytes ∧
        ∃ rec, TelemetryRecord.unmarshal .plain value = .ok rec ∧
          validateTelemetryPayload rec.payload = .ok () := by
  have hvalid : validateEnvelopeAt (mixedEnvelope 1) 1700000000000000000 = .ok () ∧
      isInt64 (mixedEnvelope 1).ts ∧ FitsRecord (mixedEnvelope 1).payload ∧
      (rfc3339Nano 1700000000000000000).isSome := by decide +kernel
  obtain ⟨hvalid, hts, hfits, hclock⟩ := hvalid
  obtain ⟨_, _, hiff⟩ := accepted_telemetry_fits .plain (mixedEnvelope 1) 1700000000000000000
    1700000000000000000 hvalid hts
  exact ⟨hvalid, hts, hfits, (hiff hclock).mpr hfits⟩

/-- A payload of about one million bytes is accepted, but the value marshalled for it is longer
than a Kafka record may be, and the payload in it is not accepted again. -/
theorem accepted_telemetry_too_long :
    validateEnvelopeAt (mixedEnvelope 149000) 1700000000000000000 = .ok () ∧
      ∃ value, (TelemetryRecord.ofEnvelope (mixedEnvelope 149000) 1700000000000000000).marshal
          .plain = .ok value ∧ businessBatchBytes < value.length ∧
        ∀ rec, TelemetryRecord.unmarshal .plain value = .ok rec →
          validateTelemetryPayload rec.payload ≠ .ok () := by
  have hpayload : validateTelemetryPayload (mixedEnvelope 149000).payload = .ok () :=
    validateTelemetryPayload_mixed (by decide)
  have hfields : validateTelemetryFields (mixedEnvelope 149000) = .ok () ∧
      0 < (mixedEnvelope 149000).ts ∧ minEnvelopeTsMillis ≤ (mixedEnvelope 149000).ts ∧
      (mixedEnvelope 149000).ts ≤ unixMilli (1700000000000000000 + maxEnvelopeClockSkew) ∧
      (rfc3339Nano 1700000000000000000).isSome := by decide +kernel
  obtain ⟨hfields, hpos, hmin, hmax, hclock⟩ := hfields
  obtain ⟨value, hvalue⟩ := (exists_marshal hpayload 1700000000000000000).mpr
    ⟨hclock, leavesLevel_mixed 149000⟩
  obtain ⟨hlength, _, _, haccept⟩ := marshal_accepted hpayload hvalue
  have hcompact : compactLength (mixedEnvelope 149000).payload = 12 * 149000 + 8 :=
    compactLength_mixed 149000
  rw [hcompact] at hlength
  refine ⟨validateEnvelopeAt_eq_ok.mpr ⟨hpayload, hpos, hfields, hmin, hmax⟩, value, hvalue, ?_, ?_⟩
  · rw [show businessBatchBytes = 1048576 from rfl]
    omega
  · intro rec hrec hagain
    have hle := (haccept rec hrec).mp hagain
    rw [hcompact] at hle
    exact absurd hle (by decide)

end Iot.Platform
