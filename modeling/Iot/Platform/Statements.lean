import Iot.Platform.TDengine
import Iot.Sql.Lexer

/-!
# The statements of the TDengine writer

Read with the rules of `Iot.Sql.Lexer`, a statement that `writeRecord` executes is one insert: the
texts of the record are the contents of its string literals, whatever characters they have, and
nothing of them is read as another token (`record_statement_parses`).
-/

namespace Iot.Platform

open Text Json Contracts Sql

/-! ## Literals -/

/-- A character as `escapeTD` writes it. -/
def escapeChar (b : UInt8) : Bytes :=
  if b = 0x5C then [0x5C, 0x5C] else if b = 0x27 then [0x27, 0x27] else [b]

/-- The two passes of `escapeTD` do not meet: each character is escaped by itself. -/
theorem escapeTD_eq (text : Bytes) : escapeTD text = text.flatMap escapeChar := by
  rw [escapeTD, replaceByte, replaceByte, List.flatMap_assoc]
  congr 1
  funext b
  by_cases hslash : b = 0x5C
  · subst hslash
    rfl
  · rw [if_neg hslash, List.flatMap_singleton, escapeChar, if_neg hslash]

/-- The lexer reads an escaped text up to the quote after it, and as the text. -/
theorem lexQuoted_escapeTD (text : Bytes) {after : Bytes} (hafter : after.head? ≠ some 0x27) :
    lexQuoted (escapeTD text ++ 0x27 :: after) = some (text, after) := by
  rw [escapeTD_eq]
  induction text with
  | nil => exact lexQuoted_end hafter
  | cons b rest ih =>
      rw [List.flatMap_cons, List.append_assoc]
      -- a backslash and a quote are doubled; any other character stands for itself
      by_cases hslash : b = 0x5C
      · subst hslash
        show lexQuoted (0x5C :: 0x5C :: (rest.flatMap escapeChar ++ 0x27 :: after)) = _
        rw [lexQuoted, ih]
        rfl
      by_cases hquote : b = 0x27
      · subst hquote
        show lexQuoted (0x27 :: 0x27 :: (rest.flatMap escapeChar ++ 0x27 :: after)) = _
        rw [lexQuoted, ih]
        rfl
      · rw [escapeChar, if_neg hslash, if_neg hquote, List.singleton_append]
        exact lexQuoted_plain hslash hquote ih

/-- Text without quotes and backslashes is not changed. -/
theorem escapeTD_eq_self {text : Bytes} (h : text.all fun b => b != 0x5C && b != 0x27) :
    escapeTD text = text := by
  rw [escapeTD_eq]
  induction text with
  | nil => rfl
  | cons b rest ih =>
      simp only [List.all_cons, Bool.and_eq_true, bne_iff_ne, ne_eq] at h
      rw [List.flatMap_cons, ih (by simpa using h.2), escapeChar, if_neg h.1.1, if_neg h.1.2]
      rfl

/-- A text in quotes, and what follows. -/
theorem lexes_escapeTD (text : Bytes) {b : UInt8} {after : Bytes} {tokens : List Token}
    (hb : b ≠ 0x27) (h : Lexes (b :: after) tokens) :
    Lexes (0x27 :: (escapeTD text ++ 0x27 :: b :: after)) (.str text :: tokens) := by
  have hquoted : lexQuoted (escapeTD text ++ [0x27] ++ b :: after) = some (text, b :: after) := by
    rw [List.append_assoc]
    exact lexQuoted_escapeTD text (by simpa using hb)
  have hstr := lexes_str hquoted h
  rwa [List.cons_append, List.append_assoc] at hstr

/-! ## The statement -/

/-- The name of a device's subtable, in its database. -/
def TDengineWriter.childName (w : TDengineWriter) (tenantID deviceID : Bytes) : Bytes :=
  w.table ++ 0x5F :: (sha256Hex (tenantID ++ [0x00] ++ deviceID)).take 24

/-- The tokens of a statement. -/
def TDengineWriter.statementTokens (w : TDengineWriter) (rec : TelemetryRecord) : List Token :=
  [.word (ascii "INSERT"), .word (ascii "INTO"),
    .word w.database, .dot, .word (w.childName rec.tenantID rec.deviceID),
    .word (ascii "USING"), .word w.database, .dot, .word w.table,
    .word (ascii "TAGS"), .lparen, .str rec.tenantID, .comma, .str rec.deviceID, .rparen,
    .word (ascii "VALUES"), .lparen, .num rec.ts, .comma, .str rec.msgID, .comma,
    .str rec.type, .comma, .str rec.version, .comma, .str (sha256Hex rec.payload), .comma,
    .num rec.payload.length, .rparen]

/-- What a statement says. -/
def TDengineWriter.insertOf (w : TDengineWriter) (rec : TelemetryRecord) : Insert where
  table := (w.database, w.childName rec.tenantID rec.deviceID)
  stable := (w.database, w.table)
  tags := [.str rec.tenantID, .str rec.deviceID]
  values := [.num rec.ts, .str rec.msgID, .str rec.type, .str rec.version,
    .str (sha256Hex rec.payload), .num rec.payload.length]

/-- The statement in pieces, one for each token. -/
theorem insertStatement_eq (w : TDengineWriter) (rec : TelemetryRecord) :
    w.insertStatement rec =
      ascii "INSERT" ++ 0x20 :: (ascii "INTO" ++ 0x20 :: (w.database ++ 0x2E ::
      (w.childName rec.tenantID rec.deviceID ++ 0x20 :: (ascii "USING" ++ 0x20 ::
      (w.database ++ 0x2E :: (w.table ++ 0x20 :: (ascii "TAGS" ++ 0x20 :: 0x28 ::
      0x27 :: (escapeTD rec.tenantID ++ 0x27 :: 0x2C :: 0x20 ::
      0x27 :: (escapeTD rec.deviceID ++ 0x27 :: 0x29 :: 0x20 :: (ascii "VALUES" ++ 0x20 :: 0x28 ::
      (decimal rec.ts ++ 0x2C :: 0x20 ::
      0x27 :: (escapeTD rec.msgID ++ 0x27 :: 0x2C :: 0x20 ::
      0x27 :: (escapeTD rec.type ++ 0x27 :: 0x2C :: 0x20 ::
      0x27 :: (escapeTD rec.version ++ 0x27 :: 0x2C :: 0x20 ::
      0x27 :: (escapeTD (sha256Hex rec.payload) ++ 0x27 :: 0x2C :: 0x20 ::
      (decimal rec.payload.length ++ [0x29])))))))))))))))) := by
  have hhash : escapeTD (sha256Hex rec.payload) = sha256Hex rec.payload :=
    escapeTD_eq_self (sha256Hex_all (by decide) _)
  rw [hhash, TDengineWriter.insertStatement, TDengineWriter.insertHead, payloadColumns,
    TDengineWriter.childTable, TDengineWriter.stable, TDengineWriter.childName,
    show ascii "INSERT INTO " = ascii "INSERT" ++ 0x20 :: (ascii "INTO" ++ [0x20]) from rfl,
    show ascii " USING " = 0x20 :: (ascii "USING" ++ [0x20]) from rfl,
    show ascii " TAGS ('" = 0x20 :: (ascii "TAGS" ++ [0x20, 0x28, 0x27]) from rfl,
    show ascii "', '" = [0x27, 0x2C, 0x20, 0x27] from rfl,
    show ascii "') VALUES (" = 0x27 :: 0x29 :: 0x20 :: (ascii "VALUES" ++ [0x20, 0x28]) from rfl,
    show ascii ", '" = [0x2C, 0x20, 0x27] from rfl, show ascii "', " = [0x27, 0x2C, 0x20] from rfl,
    show ascii "." = [0x2E] from rfl, show ascii "_" = [0x5F] from rfl,
    show ascii ")" = [0x29] from rfl]
  simp only [List.append_assoc, List.cons_append, List.nil_append]

/-- The name of a subtable is a word. -/
theorem isWord_childName {w : TDengineWriter} (h : isWord w.table) (tenantID deviceID : Bytes) :
    isWord (w.childName tenantID deviceID) := by
  have hhash : (sha256Hex (tenantID ++ [0x00] ++ deviceID)).all isWordChar :=
    sha256Hex_all (by decide) _
  have htake : ((sha256Hex (tenantID ++ [0x00] ++ deviceID)).take 24).all isWordChar :=
    List.all_eq_true.mpr fun b hb => List.all_eq_true.mp hhash b (List.mem_of_mem_take hb)
  rw [TDengineWriter.childName]
  cases htable : w.table with
  | nil =>
      rw [htable] at h
      cases h
  | cons b rest =>
      rw [htable, isWord, Bool.and_eq_true] at h
      rw [List.cons_append, isWord, h.1, List.all_append, h.2, List.all_cons, htake]
      rfl

/-- The lexer reads a statement as its tokens. -/
theorem lexes_insertStatement {w : TDengineWriter} (hdatabase : isWord w.database)
    (htable : isWord w.table) (rec : TelemetryRecord) :
    Lexes (w.insertStatement rec) (w.statementTokens rec) := by
  have hchild := isWord_childName htable rec.tenantID rec.deviceID
  have hquote : (0x2C : UInt8) ≠ 0x27 := by decide
  rw [insertStatement_eq]
  refine lexes_word (by decide) (ends_cons rfl) (lexes_blank ?_)
  refine lexes_word (by decide) (ends_cons rfl) (lexes_blank ?_)
  refine lexes_word hdatabase (ends_cons rfl) (lexes_punctuation rfl ?_)
  refine lexes_word hchild (ends_cons rfl) (lexes_blank ?_)
  refine lexes_word (by decide) (ends_cons rfl) (lexes_blank ?_)
  refine lexes_word hdatabase (ends_cons rfl) (lexes_punctuation rfl ?_)
  refine lexes_word htable (ends_cons rfl) (lexes_blank ?_)
  refine lexes_word (by decide) (ends_cons rfl) (lexes_blank (lexes_punctuation rfl ?_))
  refine lexes_escapeTD _ hquote (lexes_punctuation rfl (lexes_blank ?_))
  refine lexes_escapeTD _ (by decide) (lexes_punctuation rfl (lexes_blank ?_))
  refine lexes_word (by decide) (ends_cons rfl) (lexes_blank (lexes_punctuation rfl ?_))
  refine lexes_decimal _ (ends_cons rfl) (lexes_punctuation rfl (lexes_blank ?_))
  refine lexes_escapeTD _ hquote (lexes_punctuation rfl (lexes_blank ?_))
  refine lexes_escapeTD _ hquote (lexes_punctuation rfl (lexes_blank ?_))
  refine lexes_escapeTD _ hquote (lexes_punctuation rfl (lexes_blank ?_))
  refine lexes_escapeTD _ hquote (lexes_punctuation rfl (lexes_blank ?_))
  exact lexes_decimal _ (ends_cons rfl) (lexes_punctuation rfl lexes_nil)

/-- The tokens of a statement are one insert. -/
theorem parseInsert_statementTokens (w : TDengineWriter) (rec : TelemetryRecord) :
    parseInsert (w.statementTokens rec) = some (w.insertOf rec) := by
  rfl

/-- A text between quotes is read up to the last of them, and as the text, if no quote follows. The
statement of a record that passes the checks, with words as names of database and table, is
therefore one insert of the record's fields: each text is one string literal, and none adds a token
or ends one. -/
theorem record_statement_parses :
    (∀ text after : Bytes, after.head? ≠ some 0x27 →
      lexToken (0x27 :: (escapeTD text ++ 0x27 :: after)) = some (.str text, after)) ∧
    ∀ (w : TDengineWriter) (rec : TelemetryRecord), isWord w.database → isWord w.table →
      validateTelemetryFields
        ⟨rec.msgID, rec.tenantID, rec.deviceID, 0, rec.type, rec.version, [], [], [], 0, []⟩ =
          .ok () →
      ∃ statement, w.prepare rec = .ok statement ∧
        Sql.lex statement = some (w.statementTokens rec) ∧
        parseInsert (w.statementTokens rec) = some (w.insertOf rec) := by
  refine ⟨fun text after hafter => ?_, fun w rec hdatabase htable hvalid => ?_⟩
  · have hquoted : lexQuoted (escapeTD text ++ [0x27] ++ after) = some (text, after) := by
      rw [List.append_assoc]
      exact lexQuoted_escapeTD text hafter
    have hstr := lexToken_str hquoted
    rwa [List.cons_append, List.append_assoc] at hstr
  · refine ⟨w.insertStatement rec, ?_, (lexes_insertStatement hdatabase htable rec).lex_eq,
      parseInsert_statementTokens w rec⟩
    rw [TDengineWriter.prepare, hvalid]

/-- A record whose version has a backslash, a quote and the end of a statement. -/
def quotingRecord : TelemetryRecord :=
  ⟨ascii "m", ascii "t", ascii "d", -5, ascii "temp", ascii "\\'); DROP", ascii "1", false,
    zeroTime⟩

/-- The end of the statement stays in its literal. -/
theorem record_statement_parses_quotes :
    ∃ statement,
      TDengineWriter.prepare ⟨ascii "iot", ascii "telemetry"⟩ quotingRecord = .ok statement ∧
      Sql.lex statement =
        some (TDengineWriter.statementTokens ⟨ascii "iot", ascii "telemetry"⟩ quotingRecord) := by
  obtain ⟨statement, hprepare, hlex, -⟩ := record_statement_parses.2
    ⟨ascii "iot", ascii "telemetry"⟩ quotingRecord (by decide) (by decide)
    (by decide +kernel)
  exact ⟨statement, hprepare, hlex⟩

end Iot.Platform
