import Iot.Contracts.Validation
import Iot.Json.Lengths
import Iot.Json.Roundtrip

/-!
# What payloads are accepted

`validateTelemetryPayload_eq_ok` says what `ValidateTelemetryPayload` accepts in terms of the
tokens of the payload: the scan for surrogates, which works on bytes, finds nothing exactly when
every surrogate escape of a string is half of a pair (`scanSurrogates_lex`). None of the checks
but the one on the length changes its mind when the payload is written again by `json.Marshal`
(`validateTelemetryPayload_compact`).
-/

namespace Iot.Contracts

open Text Json

/-! ## Surrogate escapes -/

/-- Every surrogate escape of a literal is half of a pair. -/
def paired : List StrItem → Bool
  | [] => true
  | .uni a b c d :: .uni a' b' c' d' :: rest =>
      if isHighSurrogate (hex4 a b c d) then isLowSurrogate (hex4 a' b' c' d') && paired rest
      else !isLowSurrogate (hex4 a b c d) && paired (.uni a' b' c' d' :: rest)
  | .uni a b c d :: rest => !isSurrogate (hex4 a b c d) && paired rest
  | _ :: rest => paired rest

/-- Every surrogate escape of a token is half of a pair. -/
def tokPaired : Tok → Bool
  | .str items => paired items
  | _ => true

/-- A surrogate is the first or the second half of a pair. -/
theorem isSurrogate_eq (u : Nat) : isSurrogate u = (isHighSurrogate u || isLowSurrogate u) := by
  rw [Bool.eq_iff_iff]
  simp only [isSurrogate, isHighSurrogate, isLowSurrogate, Bool.and_eq_true, Bool.or_eq_true,
    decide_eq_true_eq]
  omega

/-- An escape that is no surrogate does not matter. -/
theorem paired_uni {a b c d : UInt8} (h : isSurrogate (hex4 a b c d) = false)
    (rest : List StrItem) : paired (.uni a b c d :: rest) = paired rest := by
  have hhalves := h
  rw [isSurrogate_eq, Bool.or_eq_false_iff] at hhalves
  rw [paired.eq_def]
  split <;> simp_all

/-- A surrogate escape in front of what is no second half is not paired. -/
theorem paired_uni_cons {a b c d : UInt8} {item : StrItem}
    (h : ∀ a' b' c' d', item = .uni a' b' c' d' → isLowSurrogate (hex4 a' b' c' d') = false)
    (rest : List StrItem) :
    paired (.uni a b c d :: item :: rest) =
      (!isSurrogate (hex4 a b c d) && paired (item :: rest)) := by
  cases item with
  | raw rune => simp only [paired]
  | esc e => simp only [paired]
  | uni a' b' c' d' =>
      rw [isSurrogate_eq]
      cases hhigh : isHighSurrogate (hex4 a b c d) <;> simp [paired, hhigh, h a' b' c' d' rfl]

/-- Making a literal HTML-safe keeps its surrogates paired. -/
theorem paired_escape (items : List StrItem) : paired (items.map escapeItem) = paired items := by
  fun_induction paired items with
  | case1 => rfl
  | case2 a b c d a' b' c' d' rest hhigh ih => simp [escapeItem, paired, hhigh, ih]
  | case3 a b c d a' b' c' d' rest hhigh ih =>
      rw [List.map_cons, show escapeItem (.uni a' b' c' d') = .uni a' b' c' d' from rfl] at ih
      simp [escapeItem, paired, hhigh, ih]
  | case4 a b c d rest hrest ih =>
      cases rest with
      | nil => simp [escapeItem, paired]
      | cons item rest =>
          rw [List.map_cons] at ih ⊢
          rw [List.map_cons, show escapeItem (.uni a b c d) = .uni a b c d from rfl,
            paired_uni_cons, ih]
          intro a' b' c' d' hitem
          rcases escapeItem_cases item with hsame | ⟨_, _, _, _, _, _, _, huni, _, _, _, hlow, _⟩
          · exact absurd (hsame.symm.trans hitem) (hrest a' b' c' d' rest ∘ congrArg (· :: rest))
          · cases huni.symm.trans hitem
            exact hlow
  | case5 item rest hpair huni ih =>
      rcases escapeItem_cases item with hsame | ⟨_, a, b, c, d, _, _, hescape, _, _, hhigh, hlow, _⟩
      · rw [List.map_cons, hsame, ← ih]
        cases item with
        | uni a b c d => exact absurd rfl (huni a b c d)
        | raw | esc => simp only [paired]
      · rw [List.map_cons, hescape, paired_uni (by rw [isSurrogate_eq, hhigh, hlow]; rfl), ih]

/-! ## The scan -/

/-- What the scan does with one byte. The equation Lean derives for the nested matches is slow; with
the bytes the matches look at in sight both sides are the same. -/
theorem scanSurrogates_cons (inString : Bool) (b : UInt8) (rest : Bytes) :
    scanSurrogates inString (b :: rest) =
      if !inString then scanSurrogates (b == 0x22) rest
      else if b = 0x22 then scanSurrogates false rest
      else if b = 0x5C then
        match rest with
        | [] => .panic
        | c :: rest =>
            if c = 0x75 then
              match rest with
              | h0 :: h1 :: h2 :: h3 :: rest =>
                  let u := (parseHex4 h0 h1 h2 h3).getD 0
                  if isHighSurrogate u then
                    match rest with
                    | b0 :: b1 :: l0 :: l1 :: l2 :: l3 :: rest =>
                        if b0 = 0x5C ∧ b1 = 0x75 then
                          match parseHex4 l0 l1 l2 l3 with
                          | some low =>
                              if isLowSurrogate low then scanSurrogates true rest else .invalid
                          | none => .invalid
                        else .invalid
                    | _ => .invalid
                  else if isLowSurrogate u then .invalid
                  else scanSurrogates true rest
              | _ => .panic
            else scanSurrogates true rest
      else scanSurrogates true rest := by
  rcases rest with _ | ⟨c, _ | ⟨h0, _ | ⟨h1, _ | ⟨h2, _ | ⟨h3, rest⟩⟩⟩⟩⟩
  · rfl
  · rfl
  · rfl
  · rfl
  · rfl
  · rcases rest with _ | ⟨b0, _ | ⟨b1, _ | ⟨l0, _ | ⟨l1, _ | ⟨l2, _ | ⟨l3, rest⟩⟩⟩⟩⟩⟩ <;> rfl

/-- Between strings the scan looks for a quote. -/
theorem scanSurrogates_false (b : UInt8) (rest : Bytes) :
    scanSurrogates false (b :: rest) = scanSurrogates (b == 0x22) rest := by
  rw [scanSurrogates_cons, if_pos (by decide)]

/-- In a string the scan looks for its end and for escapes. -/
theorem scanSurrogates_quote (rest : Bytes) :
    scanSurrogates true (0x22 :: rest) = scanSurrogates false rest := by
  rw [scanSurrogates_cons, if_neg (by decide), if_pos rfl]

/-- Between strings the scan waits for a quote. -/
theorem scanSurrogates_outside {bytes : Bytes} (h : 0x22 ∉ bytes) (rest : Bytes) :
    scanSurrogates false (bytes ++ rest) = scanSurrogates false rest := by
  induction bytes with
  | nil => rfl
  | cons b bytes ih =>
      rw [List.mem_cons, not_or] at h
      have hb : (b == 0x22) = false := by simpa using Ne.symm h.1
      rw [List.cons_append, scanSurrogates_false, hb]
      exact ih h.2

/-- In a string the scan passes over what is no quote and no backslash. -/
theorem scanSurrogates_inside {bytes : Bytes} (h : ∀ b ∈ bytes, b ≠ 0x22 ∧ b ≠ 0x5C)
    (rest : Bytes) : scanSurrogates true (bytes ++ rest) = scanSurrogates true rest := by
  induction bytes with
  | nil => rfl
  | cons b bytes ih =>
      have hb := h b (by simp)
      rw [List.cons_append, scanSurrogates_cons, if_neg (by decide), if_neg hb.1, if_neg hb.2]
      exact ih fun c hc => h c (by simp [hc])

/-- In a string the scan passes over a one-letter escape. -/
theorem scanSurrogates_esc {c : UInt8} (h : c ≠ 0x75) (rest : Bytes) :
    scanSurrogates true (0x5C :: c :: rest) = scanSurrogates true rest := by
  rw [scanSurrogates_cons, if_neg (by decide), if_neg (by decide), if_pos rfl]
  simp only [h, if_false]

section Escapes

variable {a b c d : UInt8} (h : (StrItem.uni a b c d).Printable)

include h

/-- The digits of an escape are read. -/
theorem parseHex4_of_printable : parseHex4 a b c d = some (hex4 a b c d) := by
  obtain ⟨ha, hb, hc, hd⟩ := h
  simp [parseHex4, ha, hb, hc, hd]

/-- An escape that starts no pair. -/
theorem scanSurrogates_uni (hhigh : isHighSurrogate (hex4 a b c d) = false) (rest : Bytes) :
    scanSurrogates true (0x5C :: 0x75 :: a :: b :: c :: d :: rest) =
      if isLowSurrogate (hex4 a b c d) then .invalid else scanSurrogates true rest := by
  rw [scanSurrogates_cons]
  simp [parseHex4_of_printable h, hhigh]

/-- An escape that starts a pair, and the escape behind it. -/
theorem scanSurrogates_pair (hhigh : isHighSurrogate (hex4 a b c d)) {a' b' c' d' : UInt8}
    (h' : (StrItem.uni a' b' c' d').Printable) (rest : Bytes) :
    scanSurrogates true
        (0x5C :: 0x75 :: a :: b :: c :: d :: 0x5C :: 0x75 :: a' :: b' :: c' :: d' :: rest) =
      if isLowSurrogate (hex4 a' b' c' d') then scanSurrogates true rest else .invalid := by
  rw [scanSurrogates_cons]
  simp [parseHex4_of_printable h, parseHex4_of_printable h', hhigh]

/-- An escape that starts a pair, with no escape behind it. -/
theorem scanSurrogates_high (hhigh : isHighSurrogate (hex4 a b c d)) {rest : Bytes}
    (hrest : ∀ more, rest ≠ 0x5C :: 0x75 :: more) :
    scanSurrogates true (0x5C :: 0x75 :: a :: b :: c :: d :: rest) = .invalid := by
  rw [scanSurrogates_cons]
  simp only [Bool.not_true, Bool.false_eq_true, if_false, if_true, parseHex4_of_printable h,
    Option.getD_some, hhigh, show (0x5C : UInt8) ≠ 0x22 by decide]
  split
  · rw [if_neg]
    rintro ⟨rfl, rfl⟩
    exact hrest _ rfl
  · rfl

end Escapes

/-- The bytes of a well-formed rune that is not ASCII. -/
theorem bytes_of_wellFormed {rune : Rune} (h : rune.WellFormed) :
    (∃ b, rune = .one b) ∨ ∀ b ∈ rune.bytes, 0x80 ≤ b := by
  cases rune with
  | one b => exact Or.inl ⟨b, rfl⟩
  | bad b => cases h
  | two | three | four =>
      right
      simp only [Rune.WellFormed, lead2, lead3, lead4, isCont, Bool.and_eq_true, Bool.or_eq_true,
        decide_eq_true_eq, beq_iff_eq, bne_iff_ne, UInt8.le_iff_toNat_le, ← UInt8.toNat_inj,
        Rune.bytes, List.forall_mem_cons, List.not_mem_nil] at h ⊢
      simp at h ⊢
      omega

/-- A rune of a literal does not end it and starts no escape. -/
theorem bytes_of_plain {rune : Rune} (h : (StrItem.raw rune).Plain) :
    ∀ b ∈ rune.bytes, b ≠ 0x22 ∧ b ≠ 0x5C := by
  rcases bytes_of_wellFormed (h.2 rune (by simp [StrItem.runes])) with ⟨b, rfl⟩ | hbytes
  · intro c hc
    rw [Rune.bytes, List.mem_singleton] at hc
    subst hc
    exact h.1.2
  · intro b hb
    have hle := hbytes b hb
    constructor <;> rintro rfl <;> exact absurd hle (by decide)

/-- The text of the elements of a literal. -/
def itemsText (items : List StrItem) : Bytes := flat (items.flatMap StrItem.runes)

@[simp] theorem itemsText_cons (item : StrItem) (rest : List StrItem) :
    itemsText (item :: rest) = flat item.runes ++ itemsText rest := by
  rw [itemsText, List.flatMap_cons, flat_append, itemsText]

/-- Only a `\\u` escape is written with a backslash and a `u`. -/
theorem itemsText_ne_uni {items : List StrItem} (h : ∀ item ∈ items, item.Plain)
    (huni : ∀ a b c d rest, items ≠ .uni a b c d :: rest) (more rest : Bytes) :
    itemsText items ++ 0x22 :: rest ≠ 0x5C :: 0x75 :: more := by
  cases items with
  | nil => simp [itemsText]
  | cons item items =>
      have hitem := h item (by simp)
      rw [itemsText_cons]
      cases item with
      | uni a b c d => exact absurd rfl (huni a b c d items)
      | esc c =>
          intro heq
          have hc : c = 0x75 := by
            simp only [StrItem.runes, flat_ones, List.cons_append, List.cons.injEq] at heq
            exact heq.2.1
          have hescape := hitem.1
          rw [hc, StrItem.Printable] at hescape
          exact absurd hescape (by decide)
      | raw rune =>
          intro heq
          have hbytes := bytes_of_plain hitem
          obtain ⟨b, more, hrune⟩ := List.exists_cons_of_ne_nil rune.bytes_ne_nil
          rw [hrune] at hbytes
          simp only [StrItem.runes, flat_cons, flat_nil, hrune, List.cons_append,
            List.cons.injEq] at heq
          exact (hbytes b (by simp)).2 heq.1

/-- The scan of a string finds its unpaired surrogates. -/
theorem scanSurrogates_items {items : List StrItem} (h : ∀ item ∈ items, item.Plain)
    (rest : Bytes) :
    scanSurrogates true (itemsText items ++ 0x22 :: rest) =
      if paired items then scanSurrogates false rest else .invalid := by
  fun_induction paired items with
  | case1 => exact scanSurrogates_quote rest
  | case2 a b c d a' b' c' d' more hhigh ih =>
      have hfirst := h (.uni a b c d) (by simp)
      have hsecond := h (.uni a' b' c' d') (by simp)
      simp only [itemsText_cons, StrItem.runes, flat_ones, List.cons_append, List.nil_append]
      rw [scanSurrogates_pair hfirst.1 hhigh hsecond.1,
        ih fun item hitem => h item (by simp [hitem])]
      cases isLowSurrogate (hex4 a' b' c' d') <;> simp
  | case3 a b c d a' b' c' d' more hhigh ih =>
      have hfirst := h (.uni a b c d) (by simp)
      rw [itemsText_cons]
      simp only [StrItem.runes, flat_ones, List.cons_append, List.nil_append]
      rw [scanSurrogates_uni hfirst.1 (by simpa using hhigh),
        ih fun item hitem => h item (by rw [List.mem_cons]; exact Or.inr hitem)]
      cases isLowSurrogate (hex4 a b c d) <;> simp
  | case4 a b c d more hmore ih =>
      have hfirst := h (.uni a b c d) (by simp)
      have hrest : ∀ item ∈ more, item.Plain := fun item hitem => h item (by simp [hitem])
      rw [itemsText_cons]
      simp only [StrItem.runes, flat_ones, List.cons_append, List.nil_append]
      rw [isSurrogate_eq]
      cases hhigh : isHighSurrogate (hex4 a b c d) with
      | true => simpa using scanSurrogates_high hfirst.1 hhigh fun bytes =>
          itemsText_ne_uni hrest hmore bytes rest
      | false =>
          rw [scanSurrogates_uni hfirst.1 hhigh, ih hrest]
          cases isLowSurrogate (hex4 a b c d) <;> simp
  | case5 item more hpair huni ih =>
      have hitem := h item (by simp)
      rw [itemsText_cons, List.append_assoc]
      rw [← ih fun other hother => h other (by simp [hother])]
      cases item with
      | uni a b c d => exact absurd rfl (huni a b c d)
      | raw rune =>
          rw [show flat (StrItem.raw rune).runes = rune.bytes by simp [StrItem.runes]]
          exact scanSurrogates_inside (bytes_of_plain hitem) _
      | esc c =>
          rw [StrItem.runes, flat_ones]
          refine scanSurrogates_esc ?_ _
          rintro rfl
          exact absurd hitem.1 (by rw [StrItem.Printable]; decide)

/-- The scan of a token. -/
theorem scanSurrogates_tok {tok : Tok} (h : tok.Printable)
    (hwell : ∀ rune ∈ tok.runes, rune.WellFormed) (rest : Bytes) :
    scanSurrogates false (tok.bytes ++ rest) =
      if tokPaired tok then scanSurrogates false rest else .invalid := by
  cases tok with
  | lbrace | rbrace | lbrack | rbrack | colon | comma =>
      exact scanSurrogates_outside (by decide) rest
  | word w => exact scanSurrogates_outside (by cases w <;> decide) rest
  | num literal =>
      rw [Tok.bytes, Tok.runes, flat_ones]
      refine scanSurrogates_outside (fun hquote => ?_) rest
      have hchar := List.all_eq_true.mp (isNumber_chars h).1 _ hquote
      exact absurd hchar (by decide)
  | str items =>
      have hplain : ∀ item ∈ items, item.Plain := by
        refine fun item hitem => ⟨h item hitem, fun rune hrune => hwell rune ?_⟩
        simp only [Tok.runes, List.mem_append, List.mem_flatMap]
        exact Or.inl (Or.inr ⟨item, hitem, hrune⟩)
      have hbytes : (Tok.str items).bytes ++ rest = 0x22 :: (itemsText items ++ 0x22 :: rest) := by
        simp [Tok.bytes, Tok.runes, itemsText, Rune.bytes]
      rw [hbytes, scanSurrogates_false]
      exact scanSurrogates_items hplain rest

/-- White space holds no quote. -/
theorem quote_not_space {space : Bytes} (h : space.all isSpace) : 0x22 ∉ space := by
  intro hquote
  exact absurd (List.all_eq_true.mp h _ hquote) (by decide)

/-- The scan of a run of lexemes. -/
theorem scanSurrogates_lexemes {lexemes : List Lexeme} (h : ∀ l ∈ lexemes, l.Sound)
    (hwell : ∀ rune ∈ lexemes.flatMap Lexeme.runes, rune.WellFormed) (rest : Bytes) :
    scanSurrogates false (flat (lexemes.flatMap Lexeme.runes) ++ rest) =
      if lexemes.all (fun l => tokPaired l.tok) then scanSurrogates false rest else .invalid := by
  induction lexemes with
  | nil => rfl
  | cons l more ih =>
      have hl := h l (by simp)
      rw [List.flatMap_cons] at hwell
      have htok : ∀ rune ∈ l.tok.runes, rune.WellFormed := fun rune hrune =>
        hwell rune (by simp [Lexeme.runes, hrune])
      have hmore := ih (fun other hother => h other (by simp [hother]))
        fun rune hrune => hwell rune (List.mem_append_right _ hrune)
      rw [List.flatMap_cons, flat_append, Lexeme.runes, flat_append, flat_ones, List.append_assoc,
        List.append_assoc, scanSurrogates_outside (quote_not_space hl.1)]
      rw [show flat l.tok.runes = l.tok.bytes from rfl, scanSurrogates_tok hl.2 htok, hmore,
        List.all_cons]
      cases tokPaired l.tok <;> simp

/-- The scan of a text that was cut into tokens. -/
theorem scanSurrogates_lex {raw : Bytes} {lexemes : List Lexeme} (h : lex raw = some lexemes)
    (hvalid : utf8Valid raw) :
    scanSurrogates false raw =
      if lexemes.all (fun l => tokPaired l.tok) then .clean else .invalid := by
  obtain ⟨⟨tail, hraw, htail⟩, hsound⟩ := lex_sound h
  rw [utf8Valid, hraw, List.all_append, Bool.and_eq_true, List.all_eq_true] at hvalid
  have hend : scanSurrogates false tail = .clean := by
    rw [← List.append_nil tail, scanSurrogates_outside (quote_not_space htail)]
    rfl
  rw [← decode_flat raw, hraw, flat_append, flat_ones, scanSurrogates_lexemes hsound hvalid.1, hend]

/-! ## The first byte -/

/-- A digit is no white space. -/
theorem isSpace_digit {b : UInt8} (h : isDigit b) : (Rune.one b).isSpace = false := by
  have hlow : 48 ≤ b.toNat ∧ b.toNat ≤ 57 := by
    simpa [isDigit, UInt8.le_iff_toNat_le] using h
  have hall : ∀ n : Fin 10, (Rune.one (48 + n.val).toUInt8).isSpace = false := by decide
  have hb : b = (48 + (b.toNat - 48)).toUInt8 := by
    rw [Nat.add_sub_cancel' hlow.1]
    exact b.ofNat_toNat.symm
  rw [hb]
  exact hall ⟨b.toNat - 48, by omega⟩

/-- A token starts with an ASCII character that is no white space, an opening brace with itself. -/
theorem runes_eq_cons {tok : Tok} (h : tok.Printable) :
    ∃ b more, tok.runes = .one b :: more ∧ (Rune.one b).isSpace = false ∧
      (b = 0x7B ↔ tok = .lbrace) := by
  cases tok with
  | lbrace | rbrace | lbrack | rbrack | colon | comma => exact ⟨_, _, rfl, by decide, by decide⟩
  | str items => exact ⟨0x22, _, rfl, by decide, by simp⟩
  | word w => cases w <;> exact ⟨_, _, rfl, by decide, by simp; decide⟩
  | num literal =>
      obtain ⟨b, more, rfl, hb⟩ := (isNumber_chars h).2
      refine ⟨b, ones more, rfl, ?_, ?_⟩
      · rcases hb with rfl | hb
        · decide
        · exact isSpace_digit hb
      · refine ⟨?_, by simp⟩
        rintro rfl
        exact absurd hb (by decide)

/-- White space of JSON is white space. -/
theorem isSpace_one {b : UInt8} (h : isSpace b) : (Rune.one b).isSpace := by
  simp only [isSpace, Bool.or_eq_true, beq_iff_eq] at h
  rcases h with ((rfl | rfl) | rfl) | rfl <;> decide

/-- Trimming the end keeps a first element that is not trimmed. -/
theorem head_dropWhile_reverse {α : Type} (p : α → Bool) {first : α} (h : p first = false)
    (rest : List α) :
    ∃ more, ((first :: rest).reverse.dropWhile p).reverse = first :: more := by
  rw [List.reverse_cons, List.dropWhile_append]
  split_ifs
  · exact ⟨[], by simp [h]⟩
  · exact ⟨(rest.reverse.dropWhile p).reverse, by simp⟩

/-- A text starts like an object when its first token is an opening brace. -/
theorem startsObject_lex {raw : Bytes} {l : Lexeme} {rest : List Lexeme}
    (h : lex raw = some (l :: rest)) : startsObject raw ↔ l.tok = .lbrace := by
  obtain ⟨⟨tail, hraw, _⟩, hsound⟩ := lex_sound h
  obtain ⟨hspace, hprintable⟩ := hsound l (by simp)
  obtain ⟨b, more, hrunes, hb, hbrace⟩ := runes_eq_cons hprintable
  have hdrop : (decode raw).dropWhile Rune.isSpace =
      .one b :: (more ++ (rest.flatMap Lexeme.runes ++ ones tail)) := by
    rw [hraw, List.flatMap_cons, Lexeme.runes, hrunes, List.append_assoc, List.append_assoc,
      List.dropWhile_append_of_pos]
    · simp [hb]
    · intro rune hrune
      obtain ⟨c, hc, rfl⟩ := List.mem_map.mp hrune
      exact isSpace_one (List.all_eq_true.mp hspace c hc)
  obtain ⟨trimmed, htrimmed⟩ := head_dropWhile_reverse Rune.isSpace hb
    (more ++ (rest.flatMap Lexeme.runes ++ ones tail))
  rw [startsObject, trimSpace, hdrop, htrimmed, flat_cons, ← hbrace]
  simp [Rune.bytes]

/-! ## The checks -/

/-- A text is a document when it can be cut into tokens and these are one. -/
theorem parse_eq_some {raw : Bytes} {lexemes : List Lexeme} :
    parse raw = some lexemes ↔
      lex raw = some lexemes ∧ isDocument maxNestingDepth (lexemes.map Lexeme.tok) := by
  simp only [parse, parseWithin, Option.bind_eq_bind, Option.bind_eq_some_iff]
  constructor
  · rintro ⟨lexemes', hlex, hdocument⟩
    split_ifs at hdocument with hdoc
    cases hdocument
    exact ⟨hlex, hdoc⟩
  · rintro ⟨hlex, hdoc⟩
    exact ⟨lexemes, hlex, if_pos hdoc⟩

/-- What `validateJSONBBudget` accepts. The scan never runs past the end of a valid text. -/
theorem validateJSONBBudget_eq_ok {raw : Bytes} {limit : Nat} :
    validateJSONBBudget raw limit = .ok () ↔
      raw.length ≤ limit ∧ utf8Valid raw ∧ ∃ lexemes, parse raw = some lexemes ∧
        lexemes.all (fun l => tokPaired l.tok) ∧
        chargeTokens limit (reported (lexemes.map Lexeme.tok)) 0 = .ok () := by
  rw [validateJSONBBudget]
  split_ifs with hlength hvalid
  · simp [Nat.not_le.mpr hlength]
  · simp only [Bool.not_eq_true'] at hvalid
    simp [hvalid]
  · simp only [Bool.not_eq_true', Bool.not_eq_false] at hvalid
    simp only [Nat.not_lt.mp hlength, hvalid, true_and]
    cases hparse : parse raw with
    | none => simp
    | some lexemes =>
        simp only [scanSurrogates_lex (parse_eq_some.mp hparse).1 hvalid, Option.some.injEq,
          exists_eq_left']
        cases lexemes.all (fun l => tokPaired l.tok) <;> simp

/-- What `ValidateTelemetryPayload` accepts. -/
theorem validateTelemetryPayload_eq_ok {raw : Bytes} :
    validateTelemetryPayload raw = .ok () ↔
      startsObject raw ∧ validateJSONBBudget raw maxTelemetryPayloadBytes = .ok () := by
  rw [validateTelemetryPayload]
  constructor
  · intro h
    split_ifs at h with hcheck
    simp only [Bool.or_eq_true, Bool.not_eq_true', not_or, Bool.not_eq_false] at hcheck
    refine ⟨hcheck.1.1, ?_⟩
    cases hbudget : validateJSONBBudget raw maxTelemetryPayloadBytes with
    | ok => rfl
    | error err => simp [hbudget] at h
  · rintro ⟨hobject, hbudget⟩
    obtain ⟨_, hvalid, lexemes, hparse, _⟩ := validateJSONBBudget_eq_ok.mp hbudget
    simp [hobject, hvalid, valid, hparse, hbudget]

/-- What `ValidateTelemetryPayload` accepts of texts that were written token by token. -/
theorem validateTelemetryPayload_text {toks : List Tok} (h : Writable maxNestingDepth toks)
    (hwell : ∀ tok ∈ toks, ∀ rune ∈ tok.runes, rune.WellFormed)
    (hbrace : toks.head? = some .lbrace) :
    validateTelemetryPayload (text toks) = .ok () ↔
      (text toks).length ≤ maxTelemetryPayloadBytes ∧ toks.all tokPaired ∧
        chargeTokens maxTelemetryPayloadBytes (reported toks) 0 = .ok () := by
  have hparse : parse (text toks) = some (toks.map bare) := by
    rw [parse_text h, if_pos h.document]
  have hvalid : utf8Valid (text toks) := by
    have htext : text toks = flat (toks.flatMap Tok.runes) := List.flatMap_assoc.symm
    rw [htext]
    refine utf8Valid_flat _ fun rune hrune => ?_
    obtain ⟨tok, htok, hrune⟩ := List.mem_flatMap.mp hrune
    exact hwell tok htok rune hrune
  have hobject : startsObject (text toks) := by
    obtain ⟨rest, rfl⟩ := List.head?_eq_some_iff.mp hbrace
    exact (startsObject_lex (parse_eq_some.mp hparse).1).mpr rfl
  have hall : (toks.map bare).all (fun l => tokPaired l.tok) = toks.all tokPaired := by
    rw [List.all_map]
    rfl
  simp only [validateTelemetryPayload_eq_ok, validateJSONBBudget_eq_ok, hobject, hvalid, hparse,
    true_and, Option.some.injEq, exists_eq_left', hall, map_tok_bare]

/-! ## Payloads written again -/

/-- A token costs the same once it is HTML-safe. -/
theorem tokenCost_escape (tok : Tok) : tokenCost (escapeTok tok) = tokenCost tok := by
  cases tok with
  | str items => simp only [escapeTok, tokenCost, unquote_escape]
  | lbrace | rbrace | lbrack | rbrack | colon | comma | num | word => rfl

/-- HTML-safe tokens cost the same. -/
theorem chargeTokens_escape (limit : Nat) (toks : List Tok) (used : Nat) :
    chargeTokens limit (reported (toks.map escapeTok)) used =
      chargeTokens limit (reported toks) used := by
  have hreported : reported (toks.map escapeTok) = (reported toks).map escapeTok := by
    rw [reported, List.filter_map, reported]
    congr 2
    funext tok
    cases tok <;> simp [escapeTok]
  rw [hreported]
  induction reported toks generalizing used with
  | nil => rfl
  | cons tok rest ih => simp only [List.map_cons, chargeTokens, tokenCost_escape, ih]

/-- HTML-safe tokens are paired when the tokens are. -/
theorem tokPaired_escape (tok : Tok) : tokPaired (escapeTok tok) = tokPaired tok := by
  cases tok with
  | str items => exact paired_escape items
  | lbrace | rbrace | lbrack | rbrack | colon | comma | num | word => rfl

/-- An HTML-safe token is written with well-formed runes when the token is. -/
theorem wellFormed_escape {tok : Tok} (h : ∀ rune ∈ tok.runes, rune.WellFormed) :
    ∀ rune ∈ (escapeTok tok).runes, rune.WellFormed := by
  cases tok with
  | lbrace | rbrace | lbrack | rbrack | colon | comma | num | word => exact h
  | str items =>
      simp only [escapeTok, Tok.runes, List.forall_mem_append, List.forall_mem_flatMap] at h ⊢
      refine ⟨⟨h.1.1, fun item hitem => ?_⟩, h.2⟩
      obtain ⟨original, horiginal, rfl⟩ := List.mem_map.mp hitem
      rcases escapeItem_cases original with hsame | ⟨_, _, _, _, _, _, _, huni, hplain, _⟩
      · rw [hsame]
        exact h.1.2 original horiginal
      · rw [huni]
        exact hplain.2

/-- The length of a payload once `json.Marshal` has written it again: white space between tokens
dropped, five bytes more for each `<`, `>` and `&`, three for each U+2028 and U+2029. -/
def compactLength (raw : Bytes) : Nat :=
  ((lex raw).getD []).map (fun l => safeLength l.tok) |>.sum

/-- The text `json.Marshal` writes for a payload that was accepted is accepted again exactly when
it is not too long. -/
theorem validateTelemetryPayload_compact {raw : Bytes} {lexemes : List Lexeme}
    (hraw : validateTelemetryPayload raw = .ok ()) (hparse : parse raw = some lexemes) :
    (compact lexemes).length = compactLength raw ∧
      (validateTelemetryPayload (compact lexemes) = .ok () ↔
        compactLength raw ≤ maxTelemetryPayloadBytes) := by
  obtain ⟨hobject, hbudget⟩ := validateTelemetryPayload_eq_ok.mp hraw
  obtain ⟨_, hvalid, lexemes', hparse', hpaired, hcharge⟩ := validateJSONBBudget_eq_ok.mp hbudget
  cases hparse.symm.trans hparse'
  obtain ⟨hlex, hdocument⟩ := parse_eq_some.mp hparse
  have hmap : (lexemes.map fun l => escapeTok l.tok) = (lexemes.map Lexeme.tok).map escapeTok := by
    rw [List.map_map]
    rfl
  have hlength : (compact lexemes).length = compactLength raw := by
    rw [compact, hmap, length_text_escape, compactLength, hlex, Option.getD_some, List.map_map]
    rfl
  refine ⟨hlength, ?_⟩
  have hbrace : (lexemes.map fun l => escapeTok l.tok).head? = some .lbrace := by
    cases lexemes with
    | nil => cases hdocument
    | cons l rest => simp [(startsObject_lex hlex).mp hobject, escapeTok]
  have hwell : ∀ tok ∈ lexemes.map fun l => escapeTok l.tok, ∀ rune ∈ tok.runes,
      rune.WellFormed := by
    intro tok htok
    obtain ⟨l, hl, rfl⟩ := List.mem_map.mp htok
    refine wellFormed_escape fun rune hrune => ?_
    obtain ⟨⟨tail, hdecode, _⟩, _⟩ := lex_sound hlex
    rw [utf8Valid, hdecode, List.all_append, Bool.and_eq_true, List.all_eq_true] at hvalid
    exact hvalid.1 rune (List.mem_flatMap.mpr ⟨l, hl, by simp [Lexeme.runes, hrune]⟩)
  have hpaired' : (lexemes.map fun l => escapeTok l.tok).all tokPaired := by
    rw [List.all_map]
    simpa [tokPaired_escape] using hpaired
  rw [← hlength, compact, validateTelemetryPayload_text (writable_escape hparse) hwell hbrace]
  rw [hmap] at hpaired' ⊢
  simp only [hpaired', chargeTokens_escape, hcharge, and_true]

end Iot.Contracts
