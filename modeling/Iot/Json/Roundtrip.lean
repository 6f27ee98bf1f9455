import Iot.Json.Documents
import Iot.Json.Numbers
import Iot.Json.Quoting
import Iot.Text.TimeRoundtrip

/-!
# Objects survive being written

`parse_object` reads the text of an object whose members can be written (`Writable`), and
`decodeObject_object` stores its members in a record. The values that `json.Marshal` writes are
writable: strings, integers, timestamps and raw values.
-/

namespace Iot.Json

open Text

/-- The tokens of a value that can be written and read back. -/
structure Writable (limit : Nat) (toks : List Tok) : Prop where
  document : isDocument limit toks
  printable : ∀ tok ∈ toks, tok.Printable ∧ tok.Clean

/-- A single token that is a value can be written below any limit. -/
theorem writable_singleton {limit : Nat} {tok : Tok} (hdocument : isDocument 0 [tok])
    (h : tok.Printable ∧ tok.Clean) : Writable limit [tok] :=
  ⟨isDocument_mono hdocument (Nat.zero_le limit), by simpa using h⟩

/-! ## Values -/

/-- A string can be written. -/
theorem writable_strTok {limit : Nat} (s : Bytes) : Writable limit (strTok s) :=
  writable_singleton rfl (quote_printable s)

/-- An integer can be written. -/
theorem writable_intTok {limit : Nat} (value : Int) : Writable limit (intTok value) :=
  writable_singleton rfl (intTok_printable value)

/-- Characters that need no escape. -/
def isPlainChar (b : UInt8) : Bool := 0x20 ≤ b && b < 0x7F && b != 0x22 && b != 0x5C

/-- Characters that need no escape are ASCII. -/
theorem ascii_of_plain {s : Bytes} (h : s.all isPlainChar) : ∀ b ∈ s, b < 0x80 := by
  intro b hb
  have hplain := List.all_eq_true.mp h b hb
  simp only [isPlainChar, Bool.and_eq_true, decide_eq_true_eq, UInt8.lt_iff_toNat_lt,
    UInt8.le_iff_toNat_le] at hplain ⊢
  simp at hplain ⊢
  omega

/-- A literal of characters that need no escape can be written. -/
theorem plain_ascii {s : Bytes} (h : s.all isPlainChar) :
    (Tok.str (s.map fun b => .raw (.one b))).Printable ∧
      (Tok.str (s.map fun b => .raw (.one b))).Clean := by
  refine printable_of_plain fun item hitem => ?_
  obtain ⟨b, hb, rfl⟩ := List.mem_map.mp hitem
  have hplain := List.all_eq_true.mp h b hb
  simp only [isPlainChar, Bool.and_eq_true, decide_eq_true_eq, bne_iff_ne] at hplain
  refine ⟨⟨hplain.1.1.1, hplain.1.2, hplain.2⟩, ?_⟩
  simpa [StrItem.runes, Rune.WellFormed] using ascii_of_plain h b hb

/-- Such a literal stands for its characters. -/
theorem unquote_ascii (s : Bytes) : unquote (s.map fun b => .raw (.one b)) = s := by
  induction s with
  | nil => simp [unquote]
  | cons b rest ih => rw [List.map_cons, unquote, ih]; rfl

/-- A member name stands for its characters. -/
theorem unquote_nameItems (name : String) : unquote (nameItems name) = ascii name :=
  unquote_ascii _

/-- A digit needs no escape. -/
theorem isPlainChar_digit (n : Int) : isPlainChar (digit n) := by
  have hall : ∀ m : Fin 10, isPlainChar (0x30 + m.val).toUInt8 := by decide
  exact hall ⟨n.toNat % 10, Nat.mod_lt _ (by decide)⟩

/-- The characters of a timestamp need no escape. -/
theorem rfc3339Nano_plain {t : Time} {s : Bytes} (h : rfc3339Nano t = some s) :
    s.all isPlainChar := by
  have hfraction : ∀ nanos, (fraction nanos).all isPlainChar := by
    intro nanos
    rw [fraction]
    split_ifs
    · rfl
    · obtain ⟨k, hk⟩ := trailing_zeros (pad9 nanos)
      have hall : (pad9 nanos).all isPlainChar := by simp [pad9, isPlainChar_digit]
      rw [hk, List.all_append, Bool.and_eq_true] at hall
      rw [List.all_cons, hall.1]
      decide
  simp only [rfc3339Nano] at h
  split_ifs at h
  cases h
  simp only [List.all_append, hfraction, pad4, pad2, List.all_cons, List.all_nil,
    isPlainChar_digit]
  decide

/-- So do those of a timestamp at an offset. -/
theorem rfc3339NanoAt_plain {offset : Int} {t : Time} {s : Bytes}
    (h : rfc3339NanoAt offset t = some s) : s.all isPlainChar := by
  obtain ⟨clock, hclock, rfl⟩ := Option.map_eq_some_iff.mp h
  have hclock := rfc3339Nano_plain hclock
  rw [List.all_append, Bool.and_eq_true]
  constructor
  · rw [List.all_eq_true] at hclock ⊢
    exact fun b hb => hclock b (List.dropLast_subset clock hb)
  · have hpad : ∀ n, (pad2 n).all isPlainChar := fun n => by simp [pad2, isPlainChar_digit]
    rw [zoneSuffix]
    dsimp only
    split_ifs
    · decide
    all_goals
      simp only [List.all_append, hpad]
      decide

/-- A text that needs no escape can be written. -/
theorem writable_plainTok {limit : Nat} {s : Bytes} (h : s.all isPlainChar) :
    Writable limit (plainTok s) := writable_singleton rfl (plain_ascii h)

/-- A timestamp can be written. -/
theorem writable_timeToks {limit : Nat} {t : Time} {toks : List Tok}
    (h : timeToks t = some toks) : Writable limit toks := by
  simp only [timeToks, Option.map_eq_some_iff] at h
  obtain ⟨s, hs, rfl⟩ := h
  exact writable_plainTok (rfc3339Nano_plain hs)

/-- The scanner does not look into strings. -/
theorem run_escape (limit : Nat) (state : State) (toks : List Tok) :
    state.run limit (toks.map escapeTok) = state.run limit toks := by
  induction toks generalizing state with
  | nil => rfl
  | cons tok rest ih =>
      have hstep : state.step limit (escapeTok tok) = state.step limit tok := by
        obtain ⟨stack, mode⟩ := state
        cases tok <;> rfl
      simp only [List.map_cons, State.run, hstep, ih]

/-- HTML-safe tokens are a document when the tokens are. -/
theorem isDocument_escape (limit : Nat) (toks : List Tok) :
    isDocument limit (toks.map escapeTok) = isDocument limit toks := by
  rw [isDocument, isDocument, run_escape]

/-- A document that was read can be written again, made HTML-safe. -/
theorem writable_escape {limit : Nat} {raw : Bytes} {lexemes : List Lexeme}
    (h : parseWithin limit raw = some lexemes) :
    Writable limit (lexemes.map fun l => escapeTok l.tok) := by
  simp only [parseWithin, Option.bind_eq_bind, Option.bind_eq_some_iff] at h
  obtain ⟨lexemes', hlex, hdocument⟩ := h
  split_ifs at hdocument with hdoc
  cases hdocument
  have hmap : (lexemes.map fun l => escapeTok l.tok) = (lexemes.map Lexeme.tok).map escapeTok := by
    rw [List.map_map]
    rfl
  refine ⟨by rw [hmap, isDocument_escape]; exact hdoc, fun tok htok => ?_⟩
  obtain ⟨l, hl, rfl⟩ := List.mem_map.mp htok
  exact escapeTok_printable ((lex_sound hlex).2 l hl).2 (lex_clean hlex l hl)

/-- A raw value can be written and leaves room for the objects around it. -/
theorem writable_rawToks {depth : Nat} {raw : Bytes} {toks : List Tok}
    (h : rawToks depth raw = some toks) : Writable (maxNestingDepth - depth) toks := by
  simp only [rawToks] at h
  split_ifs at h
  · cases h
    have hnul : (Tok.word .nul).Printable ∧ (Tok.word .nul).Clean := ⟨trivial, trivial⟩
    exact writable_singleton rfl hnul
  · obtain ⟨lexemes, hparse, rfl⟩ := Option.map_eq_some_iff.mp h
    exact writable_escape hparse

/-! ## Objects -/

/-- Members whose values can be written, under names that need no escapes. -/
def WritableMembers (limit : Nat) (members : List (String × List Tok)) : Prop :=
  ∀ m ∈ members, (ascii m.1).all isPlainChar ∧ Writable limit m.2

variable {limit : Nat} {members : List (String × List Tok)}

theorem writableMembers_nil : WritableMembers limit [] := by
  intro m hm
  cases hm

/-- One member more. -/
theorem writableMembers_cons {name : String} {value : List Tok}
    (hname : (ascii name).all isPlainChar) (hvalue : Writable limit value)
    (hrest : WritableMembers limit members) : WritableMembers limit ((name, value) :: members) := by
  intro m hm
  rcases List.mem_cons.mp hm with rfl | hm
  · exact ⟨hname, hvalue⟩
  · exact hrest m hm

/-- An object can be written. -/
theorem writable_object (h : WritableMembers limit members) :
    Writable (limit + 1) (object members) := by
  refine ⟨isDocument_object fun m hm => (h m hm).2.document, fun tok htok => ?_⟩
  have hmember : ∀ m ∈ members, ∀ tok ∈ memberToks m, tok.Printable ∧ tok.Clean := by
    intro m hm tok htok
    rcases List.mem_cons.mp htok with rfl | htok
    · exact plain_ascii (h m hm).1
    rcases List.mem_cons.mp htok with rfl | htok
    · exact ⟨trivial, trivial⟩
    · exact (h m hm).2.printable tok htok
  cases members with
  | nil =>
      simp only [object, List.mem_cons, List.not_mem_nil, or_false] at htok
      rcases htok with rfl | rfl <;> exact ⟨trivial, trivial⟩
  | cons first rest =>
      simp only [object, List.mem_append, List.mem_cons, List.mem_flatMap, List.not_mem_nil,
        or_false] at htok
      rcases htok with ((rfl | htok) | ⟨m, hm, rfl | htok⟩) | rfl
      · exact ⟨trivial, trivial⟩
      · exact hmember first (by simp) tok htok
      · exact ⟨trivial, trivial⟩
      · exact hmember m (by simp [hm]) tok htok
      · exact ⟨trivial, trivial⟩

/-- Reading what was written gives the tokens written, unless they are nested too deeply. -/
theorem parse_text {toks : List Tok} (h : Writable limit toks) :
    parse (text toks) = if isDocument maxNestingDepth toks then some (toks.map bare) else none := by
  have hlex : lex (text toks) = some (toks.map bare) :=
    lex_text (fun tok htok => (h.printable tok htok).1) (fun tok htok => (h.printable tok htok).2)
      (separated_of_document h.document)
  simp only [parse, parseWithin, hlex, map_tok_bare, Option.bind_eq_bind, Option.bind_some]

/-- What can be written is told apart by its text. -/
theorem text_injective {toks other : List Tok} (h : Writable limit toks)
    (hother : Writable limit other) (htext : text toks = text other) : toks = other := by
  have hlex : ∀ {toks : List Tok}, Writable limit toks →
      lex (text toks) = some (toks.map bare) := fun hw =>
    lex_text (fun tok htok => (hw.printable tok htok).1)
      (fun tok htok => (hw.printable tok htok).2) (separated_of_document hw.document)
  have hbare : toks.map bare = other.map bare := by
    refine Option.some.inj ?_
    rw [← hlex h, htext, hlex hother]
  rw [← map_tok_bare toks, hbare, map_tok_bare]

/-- An object has the values of its members in their order. -/
theorem values_of_object {others : List (String × List Tok)} (h : WritableMembers limit members)
    (hother : WritableMembers limit others) (hobject : object members = object others) :
    members.map Prod.snd = others.map Prod.snd := by
  have hread : readMembers members = readMembers others := by
    rw [← members_object fun m hm => (h m hm).2.document, hobject,
      members_object fun m hm => (hother m hm).2.document]
  have hvalues : ∀ ms : List (String × List Tok),
      (readMembers ms).map (fun m => m.value.map Lexeme.tok) = ms.map Prod.snd := by
    intro ms
    rw [readMembers, List.map_map]
    exact List.map_congr_left fun m _ => map_tok_bare m.2
  rw [← hvalues members, hread, hvalues others]

variable {α : Type}

/-- Reading an object that was written stores its members one after another. -/
theorem decodeObject_object (h : WritableMembers limit members) (fold : Bytes → Bytes)
    (fields : List (RecordField α)) (unknown : Option (Bytes → Bytes)) (typeName : String)
    (zero : α) :
    decodeObject fold fields unknown typeName zero ((object members).map bare) =
      (do
        let (record, saved) ← storeMembers fold fields unknown (readMembers members) zero none
        match saved with
        | none => .ok record
        | some message => .error message) := by
  have hbrace : ∃ rest, (object members).map bare = ⟨[], .lbrace⟩ :: rest := by
    cases members with
    | nil => exact ⟨_, rfl⟩
    | cons first rest => exact ⟨_, rfl⟩
  obtain ⟨rest, hrest⟩ := hbrace
  rw [← members_object fun m hm => (h m hm).2.document, hrest]
  rfl

/-- A member is stored in the field that has its name. -/
theorem storeMembers_cons {fold : Bytes → Bytes} {fields : List (RecordField α)}
    {unknown : Option (Bytes → Bytes)} {name : String} {value : List Tok}
    {field : RecordField α} (hfield : (fields.find? fun f => f.name = ascii name) = some field)
    {rest : List (String × List Tok)} {record : α} {saved : Option Bytes} :
    storeMembers fold fields unknown (readMembers ((name, value) :: rest)) record saved =
      match field.store (value.map bare) record with
      | .ok next => storeMembers fold fields unknown (readMembers rest) next saved
      | .soft message =>
          storeMembers fold fields unknown (readMembers rest) record (saved.or (some message))
      | .hard message => .error message := by
  have hfind : findField fold fields (unquote (nameItems name)) = some field := by
    rw [unquote_nameItems, findField, hfield]
    rfl
  change storeMembers fold fields unknown (⟨nameItems name, value.map bare⟩ :: readMembers rest)
    record saved = _
  cases hstore : field.store (value.map bare) record <;> simp only [storeMembers, hfind, hstore]

/-- What holds of a record and is kept by every field holds of what is stored. -/
theorem storeMembers_invariant {fold : Bytes → Bytes} {fields : List (RecordField α)}
    {unknown : Option (Bytes → Bytes)} {members : List Member} (inv : α → Prop)
    (hstore : ∀ field ∈ fields, ∀ member ∈ members, ∀ record next, inv record →
      field.store member.value record = .ok next → inv next)
    {record : α} {saved : Option Bytes} {result : α × Option Bytes} (hrecord : inv record)
    (h : storeMembers fold fields unknown members record saved = .ok result) : inv result.1 := by
  induction members generalizing record saved with
  | nil =>
      cases h
      exact hrecord
  | cons member rest ih =>
      have hrest := fun field hfield other hother =>
        hstore field hfield other (List.mem_cons_of_mem member hother)
      rw [storeMembers] at h
      split at h
      · exact ih hrest hrecord h
      · rename_i field hfind
        split at h
        · rename_i next hnext
          exact ih hrest (hstore field (mem_of_findField hfind) member (by simp) record next hrecord
            hnext) h
        · exact ih hrest hrecord h
        · cases h

/-- The same for a whole document. -/
theorem decodeObject_invariant {fold : Bytes → Bytes} {fields : List (RecordField α)}
    {unknown : Option (Bytes → Bytes)} {typeName : String} {doc : List Lexeme} (inv : α → Prop)
    (hstore : ∀ field ∈ fields, ∀ member ∈ Json.members doc, ∀ record next, inv record →
      field.store member.value record = .ok next → inv next)
    {zero record : α} (hzero : inv zero)
    (h : decodeObject fold fields unknown typeName zero doc = .ok record) : inv record := by
  unfold decodeObject at h
  split at h
  · cases h
    exact hzero
  · generalize hstored : storeMembers fold fields unknown _ zero none = stored at h
    rcases stored with message | ⟨last, _ | message⟩
    · cases h
    · cases h
      exact storeMembers_invariant inv hstore hzero hstored
    · cases h
  · cases h

/-- A string field keeps the record or sets the field. -/
theorem strField_store {path name goType : String} {set : Bytes → α → α} {value : List Lexeme}
    {record next : α} (h : (strField path name goType set).store value record = .ok next) :
    next = record ∨ ∃ s, next = set s record := by
  simp only [strField] at h
  split at h
  · cases h
    exact .inr ⟨_, rfl⟩
  · cases h
    exact .inl rfl
  · cases h

/-! ## Fields -/

/-- What a string is read as once it was written. -/
def reread (s : Bytes) : Bytes := unquote (quote s)

/-- A valid string is read as it was written. -/
theorem reread_of_valid {s : Bytes} (h : utf8Valid s) : reread s = s := unquote_quote h

/-- An integer of 64 bits. -/
def isInt64 (n : Int) : Prop := -9223372036854775808 ≤ n ∧ n ≤ 9223372036854775807

instance (n : Int) : Decidable (isInt64 n) :=
  inferInstanceAs (Decidable (-9223372036854775808 ≤ n ∧ n ≤ 9223372036854775807))

section Fields

variable {fold : Bytes → Bytes} {fields : List (RecordField α)} {unknown : Option (Bytes → Bytes)}
  {rest : List (String × List Tok)} {record : α} {saved : Option Bytes} (name : String)

/-- A string field stores what the literal written stands for. -/
theorem storeMembers_str {path goType : String} {set : Bytes → α → α} {s : Bytes}
    (hfield : (fields.find? fun f => f.name = ascii name) = some (strField path name goType set)) :
    storeMembers fold fields unknown (readMembers ((name, strTok s) :: rest)) record saved =
      storeMembers fold fields unknown (readMembers rest) (set (reread s) record) saved := by
  rw [storeMembers_cons hfield]
  rfl

/-- An integer field stores an integer of 64 bits. -/
theorem storeMembers_int {path goType : String} {set : Int → α → α} {n : Int}
    (hfield : (fields.find? fun f => f.name = ascii name) = some (intField path name goType set)) :
    storeMembers fold fields unknown (readMembers ((name, intTok n) :: rest)) record saved =
      if isInt64 n then
        storeMembers fold fields unknown (readMembers rest) (set n record) saved
      else
        storeMembers fold fields unknown (readMembers rest) record
          (saved.or (some (typeError (ascii "number " ++ decimal n) path goType))) := by
  rw [storeMembers_cons hfield]
  simp only [intField, intTok, List.map_cons, List.map_nil, bare, intLiteral_decimal]
  by_cases h : isInt64 n
  · rw [if_pos h]
    rw [isInt64] at h
    rw [if_pos h]
  · rw [if_neg h]
    rw [isInt64] at h
    rw [if_neg h]

/-- A raw field stores the text of the value. -/
theorem storeMembers_raw {set : Bytes → α → α} {toks : List Tok}
    (hfield : (fields.find? fun f => f.name = ascii name) = some (rawField name set)) :
    storeMembers fold fields unknown (readMembers ((name, toks) :: rest)) record saved =
      storeMembers fold fields unknown (readMembers rest) (set (text toks) record) saved := by
  rw [storeMembers_cons hfield, ← slice_bare]
  rfl

/-- A time field stores the instant of a timestamp. -/
theorem storeMembers_time {message : Bytes → Bytes} {set : Time → α → α} {t : Time} {s : Bytes}
    (h : parseRFC3339 s = some t)
    (hfield : (fields.find? fun f => f.name = ascii name) = some (timeField name message set)) :
    storeMembers fold fields unknown (readMembers ((name, plainTok s) :: rest)) record saved =
      storeMembers fold fields unknown (readMembers rest) (set t record) saved := by
  have hflat : flat ((s.map fun b => StrItem.raw (.one b)).flatMap StrItem.runes) = s := by
    clear h
    induction s with
    | nil => rfl
    | cons b rest ih =>
        simp only [List.map_cons, List.flatMap_cons, flat, List.flatMap_append] at ih ⊢
        rw [ih]
        rfl
  rw [storeMembers_cons hfield]
  simp only [timeField, plainTok, List.map_cons, List.map_nil, bare, hflat, h]

end Fields

end Iot.Json
