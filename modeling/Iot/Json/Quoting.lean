import Iot.Json.Printing
import Iot.Json.Strings

/-!
# Strings survive being written

`json.Marshal` writes a string so that reading it gives the string back (`unquote_quote`), and
making a literal HTML-safe does not change what it stands for (`unquote_escape`). Both kinds of
literal can be printed and are read back (`quote_printable`, `escape_clean`).
-/

namespace Iot.Json

open Text

/-! ## Escapes -/

/-- A hexadecimal digit stands for its value. -/
theorem hexValue_hexDigit {n : Nat} (h : n < 16) : hexValue (hexDigit n) = n := by
  have hall : ∀ m : Fin 16, hexValue (hexDigit m) = m := by decide
  exact hall ⟨n, h⟩

/-- What is written as a hexadecimal digit is one. -/
theorem isHex_hexDigit {n : Nat} (h : n < 16) : isHex (hexDigit n) := by
  have hall : ∀ m : Fin 16, isHex (hexDigit m) := by decide
  exact hall ⟨n, h⟩

/-- An escape that is no surrogate stands for its code point, whatever follows. -/
theorem unquote_uni {a b c d : UInt8} (h : isHighSurrogate (hex4 a b c d) = false)
    (rest : List StrItem) :
    unquote (.uni a b c d :: rest) = encodeRune (hex4 a b c d) ++ unquote rest := by
  rw [unquote.eq_def]
  split <;> simp_all

/-- An escape not followed by the second half of a surrogate pair stands for its code point. -/
theorem unquote_uni_cons {a b c d : UInt8} {item : StrItem}
    (h : ∀ a' b' c' d', item = .uni a' b' c' d' → isLowSurrogate (hex4 a' b' c' d') = false)
    (rest : List StrItem) :
    unquote (.uni a b c d :: item :: rest) =
      encodeRune (hex4 a b c d) ++ unquote (item :: rest) := by
  cases item with
  | raw rune => simp only [unquote]
  | esc e => simp only [unquote]
  | uni a' b' c' d' => simp [unquote, h a' b' c' d' rfl]

/-- The value of the escape of an ASCII byte. -/
theorem hex4_hexEscape {b : UInt8} (h : b < 0x80) :
    hex4 0x30 0x30 (hexDigit (b.toNat / 16)) (hexDigit (b.toNat % 16)) = b.toNat := by
  have hb : b.toNat < 128 := by simpa [UInt8.lt_iff_toNat_lt] using h
  have h0 : hexValue 0x30 = 0 := by decide
  rw [hex4, hexValue_hexDigit (by omega), hexValue_hexDigit (by omega), h0]
  omega

/-- The UTF-8 form of an ASCII byte. -/
theorem encodeRune_ascii {b : UInt8} (h : b < 0x80) : encodeRune b.toNat = [b] := by
  have hb : b.toNat < 128 := by simpa [UInt8.lt_iff_toNat_lt] using h
  simp [encodeRune, hb]

/-- The escape of an ASCII byte stands for the byte. -/
theorem unquote_hexEscape {b : UInt8} (h : b < 0x80) (rest : List StrItem) :
    unquote (hexEscape b :: rest) = b :: unquote rest := by
  have hb : b.toNat < 128 := by simpa [UInt8.lt_iff_toNat_lt] using h
  rw [hexEscape, unquote_uni, hex4_hexEscape h, encodeRune_ascii h, List.singleton_append]
  rw [hex4_hexEscape h]
  simp [isHighSurrogate]
  omega

/-! ## Quoting -/

/-- A rune that was read is well formed or a byte that starts no sequence. -/
theorem decode_wellFormed (text : Bytes) :
    ∀ rune ∈ decode text, rune.WellFormed ∨ ∃ b, rune = .bad b := by
  fun_induction decode text <;> simp_all [Rune.WellFormed]

/-- The literal element of a well-formed rune stands for it. -/
theorem unquote_quoteRune {rune : Rune} (h : rune.WellFormed) (rest : List StrItem) :
    unquote (quoteRune rune :: rest) = rune.bytes ++ unquote rest := by
  cases rune with
  | bad b => simp [Rune.WellFormed] at h
  | two | four => rfl
  | one b =>
      have hb : b < 0x80 := by simpa [Rune.WellFormed] using h
      simp only [quoteRune]
      split_ifs with hquote h8 hc ha hd h9 hescape
      · rcases hquote with rfl | rfl <;> rfl
      all_goals first
        | exact unquote_hexEscape hb rest
        | (subst_vars; rfl)
  | three b0 b1 b2 =>
      simp only [quoteRune]
      split_ifs with hseparator
      · obtain ⟨rfl, rfl, rfl | rfl⟩ := hseparator
        · rw [unquote_uni (by decide)]
          rfl
        · rw [unquote_uni (by decide)]
          rfl
      · rfl

/-- Reading what `json.Marshal` writes for a valid string gives the string. -/
theorem unquote_quote {s : Bytes} (h : utf8Valid s) : unquote (quote s) = s := by
  have hrunes : ∀ runes : List Rune, (∀ rune ∈ runes, rune.WellFormed) →
      unquote (runes.map quoteRune) = flat runes := by
    intro runes hruns
    induction runes with
    | nil => simp [unquote]
    | cons rune rest ih =>
        rw [List.map_cons, unquote_quoteRune (hruns rune (by simp)), flat_cons,
          ih fun other hother => hruns other (by simp [hother])]
  rw [utf8Valid, List.all_eq_true] at h
  rw [quote, hrunes _ h, decode_flat]

/-- An element that can be printed and consists of well-formed runes. -/
def StrItem.Plain (item : StrItem) : Prop :=
  item.Printable ∧ ∀ rune ∈ item.runes, rune.WellFormed

/-- Hexadecimal digits are ASCII. -/
theorem isHex_lt {b : UInt8} (h : isHex b) : b < 0x80 := by
  simp only [isHex, isDigit, Bool.or_eq_true, Bool.and_eq_true, decide_eq_true_eq,
    UInt8.le_iff_toNat_le, UInt8.lt_iff_toNat_lt] at h ⊢
  simp at h ⊢
  omega

/-- A `\u` escape is plain. -/
theorem plain_uni {a b c d : UInt8} (ha : isHex a) (hb : isHex b) (hc : isHex c) (hd : isHex d) :
    (StrItem.uni a b c d).Plain := by
  refine ⟨⟨ha, hb, hc, hd⟩, ?_⟩
  simp [StrItem.runes, Rune.WellFormed, isHex_lt ha, isHex_lt hb, isHex_lt hc, isHex_lt hd]

/-- The escape of a byte is plain. -/
theorem plain_hexEscape (b : UInt8) : (hexEscape b).Plain := by
  have hb : b.toNat < 256 := b.toNat_lt
  exact plain_uni (by decide) (by decide) (isHex_hexDigit (by omega)) (isHex_hexDigit (by omega))

/-- The literal element of a rune that was read is plain. -/
theorem plain_quoteRune {rune : Rune} (h : rune.WellFormed ∨ ∃ b, rune = .bad b) :
    (quoteRune rune).Plain := by
  cases rune with
  | bad b =>
      refine ⟨trivial, fun rune hrune => ?_⟩
      cases List.mem_singleton.mp hrune
      decide
  | two b0 b1 | four b0 b1 b2 b3 =>
      simpa [quoteRune, StrItem.Plain, StrItem.Printable, StrItem.runes] using h
  | one b =>
      simp only [quoteRune]
      split_ifs with hquote h8 hc ha hd h9 hescape
      · rcases hquote with rfl | rfl <;> exact ⟨by simp only [StrItem.Printable]; decide, by decide⟩
      · exact ⟨by simp only [StrItem.Printable]; decide, by decide⟩
      · exact ⟨by simp only [StrItem.Printable]; decide, by decide⟩
      · exact ⟨by simp only [StrItem.Printable]; decide, by decide⟩
      · exact ⟨by simp only [StrItem.Printable]; decide, by decide⟩
      · exact ⟨by simp only [StrItem.Printable]; decide, by decide⟩
      · exact plain_hexEscape b
      · rw [not_or] at hquote hescape
        exact ⟨⟨UInt8.not_lt.mp hescape.1, hquote⟩, by simpa [StrItem.runes] using h⟩
  | three b0 b1 b2 =>
      simp only [quoteRune]
      split_ifs with hseparator
      · exact plain_uni (by decide) (by decide) (by decide) (isHex_hexDigit (by omega))
      · simpa [StrItem.Plain, StrItem.Printable, StrItem.runes] using h

/-- A literal of plain elements can be printed and is read back. -/
theorem printable_of_plain {items : List StrItem} (h : ∀ item ∈ items, item.Plain) :
    (Tok.str items).Printable ∧ (Tok.str items).Clean := by
  refine ⟨fun item hitem => (h item hitem).1, clean_of_wellFormed ?_⟩
  intro rune hrune
  obtain ⟨item, hitem, hrune⟩ := List.mem_flatMap.mp hrune
  exact (h item hitem).2 rune hrune

/-- What `json.Marshal` writes for a string can be printed and is read back. -/
theorem quote_printable (s : Bytes) :
    (Tok.str (quote s)).Printable ∧ (Tok.str (quote s)).Clean := by
  refine printable_of_plain fun item hitem => ?_
  obtain ⟨rune, hrune, rfl⟩ := List.mem_map.mp hitem
  exact plain_quoteRune (decode_wellFormed s rune hrune)

/-! ## HTML-safe literals -/

/-- The runes HTML-safe output escapes. -/
def isHtmlRune : Rune → Bool
  | .one b => isHtmlChar b
  | .three b0 b1 b2 => b0 == 0xE2 && b1 == 0x80 && (b2 == 0xA8 || b2 == 0xA9)
  | _ => false

/-- An element changes only if it is a rune to be escaped; then the escape stands for the rune and
is no half of a surrogate pair. -/
theorem escapeItem_cases (item : StrItem) :
    escapeItem item = item ∨ ∃ rune a b c d, item = .raw rune ∧ rune.WellFormed ∧
      escapeItem item = .uni a b c d ∧ (StrItem.uni a b c d).Plain ∧
      encodeRune (hex4 a b c d) = rune.bytes ∧ isHighSurrogate (hex4 a b c d) = false ∧
      isLowSurrogate (hex4 a b c d) = false ∧ isHtmlRune rune := by
  cases item with
  | esc | uni => exact Or.inl rfl
  | raw rune =>
      cases rune with
      | two | four | bad => exact Or.inl rfl
      | one b =>
          by_cases hb : isHtmlChar b
          · right
            have hcases : b = 0x3C ∨ b = 0x3E ∨ b = 0x26 := by
              simpa [isHtmlChar, or_assoc] using hb
            refine ⟨_, _, _, _, _, rfl, ?_, by simp only [escapeItem, hb]; rfl,
              plain_hexEscape b, ?_⟩
            all_goals rcases hcases with rfl | rfl | rfl <;> decide
          · left
            simp [escapeItem, hb]
      | three b0 b1 b2 =>
          by_cases hb : b0 = 0xE2 ∧ b1 = 0x80 ∧ (b2 = 0xA8 ∨ b2 = 0xA9)
          · right
            obtain ⟨rfl, rfl, rfl | rfl⟩ := hb
            · exact ⟨_, _, _, _, _, rfl, by decide, rfl,
                plain_uni (by decide) (by decide) (by decide) (by decide), by decide⟩
            · exact ⟨_, _, _, _, _, rfl, by decide, rfl,
                plain_uni (by decide) (by decide) (by decide) (by decide), by decide⟩
          · left
            simp [escapeItem, hb]

/-- A well-formed rune in a literal stands for itself. -/
theorem rawBytes_of_wellFormed {rune : Rune} (h : rune.WellFormed) :
    rawBytes rune = rune.bytes := by
  cases rune with
  | bad b => simp [Rune.WellFormed] at h
  | one | two | three | four => rfl

/-- Making a literal HTML-safe does not change what it stands for. -/
theorem unquote_escape (items : List StrItem) : unquote (items.map escapeItem) = unquote items := by
  fun_induction unquote items with
  | case1 => simp [unquote]
  | case2 rune rest ih =>
      rw [List.map_cons]
      rcases escapeItem_cases (.raw rune) with hsame | ⟨_, a, b, c, d, heq, hrune, huni, _, hbytes,
        hhigh, _, _⟩
      · rw [hsame, unquote, ih]
      · cases heq
        rw [huni, unquote_uni hhigh, ih, hbytes, rawBytes_of_wellFormed hrune]
  | case3 c rest ih => simp [escapeItem, unquote, ih]
  | case4 a b c d a' b' c' d' rest hpair ih =>
      simp only [Bool.and_eq_true] at hpair
      simp [escapeItem, unquote, hpair, ih]
  | case5 a b c d a' b' c' d' rest hpair ih =>
      rw [List.map_cons, show escapeItem (.uni a' b' c' d') = .uni a' b' c' d' from rfl] at ih
      simp only [List.map_cons, escapeItem, unquote, hpair]
      simpa using ih
  | case6 a b c d rest hrest ih =>
      cases rest with
      | nil => simp [escapeItem, unquote]
      | cons item rest =>
          rw [List.map_cons] at ih ⊢
          rw [List.map_cons, show escapeItem (.uni a b c d) = .uni a b c d from rfl,
            unquote_uni_cons, ih]
          intro a' b' c' d' hitem
          rcases escapeItem_cases item with hsame | ⟨_, _, _, _, _, _, _, huni, _, _, _, hlow, _⟩
          · exact absurd (hsame.symm.trans hitem) (hrest a' b' c' d' rest ∘ congrArg (· :: rest))
          · cases huni.symm.trans hitem
            exact hlow

/-- Making a literal HTML-safe keeps it printable. -/
theorem escape_printable {items : List StrItem} (h : ∀ item ∈ items, item.Printable) :
    ∀ item ∈ items.map escapeItem, item.Printable := by
  intro item hitem
  obtain ⟨original, horiginal, rfl⟩ := List.mem_map.mp hitem
  rcases escapeItem_cases original with hsame | ⟨_, _, _, _, _, _, _, huni, hplain, _⟩
  · rw [hsame]
    exact h original horiginal
  · rw [huni]
    exact hplain.1

/-- Making a literal HTML-safe keeps it readable, with whatever runes stand in front. -/
theorem escape_clean_append {items : List StrItem} (left : List Rune)
    (h : Text.Clean (left ++ items.flatMap StrItem.runes)) :
    Text.Clean (left ++ (items.map escapeItem).flatMap StrItem.runes) := by
  induction items generalizing left with
  | nil => exact h
  | cons item rest ih =>
      rw [List.flatMap_cons] at h
      rw [List.map_cons, List.flatMap_cons]
      rcases escapeItem_cases item with hsame | ⟨rune, a, b, c, d, rfl, hrune, huni, hplain, _⟩
      · rw [hsame, ← List.append_assoc]
        exact ih (left ++ item.runes) (by rwa [List.append_assoc])
      · -- the rune and its escape both cut what stands before from what follows
        obtain ⟨hleft, hright⟩ := (clean_append_cons hrune).mp h
        have hascii : ∀ byte ∈ [0x75, a, b, c, d], byte < 0x80 := by
          have := hplain.1
          simp [isHex_lt this.1, isHex_lt this.2.1, isHex_lt this.2.2.1, isHex_lt this.2.2.2]
        rw [huni, StrItem.runes, ones_cons, List.cons_append,
          clean_append_cons (by decide), clean_ones_append hascii]
        exact ⟨hleft, ih [] hright⟩

/-- An HTML-safe token can be printed and is read back. -/
theorem escapeTok_printable {tok : Tok} (h : tok.Printable) (hclean : tok.Clean) :
    (escapeTok tok).Printable ∧ (escapeTok tok).Clean := by
  cases tok with
  | str items => exact ⟨escape_printable h, escape_clean_append [] hclean⟩
  | lbrace | rbrace | lbrack | rbrack | colon | comma | num | word => exact ⟨h, hclean⟩

end Iot.Json
