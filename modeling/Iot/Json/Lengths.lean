import Iot.Json.Numbers
import Iot.Json.Quoting
import Iot.Text.TimeRoundtrip

/-!
# The length of JSON texts

How many bytes `json.Marshal` writes: for a string, rune by rune (`length_strTok`), for an object,
member by member (`length_object`), and for a literal made HTML-safe, compared with the literal
itself (`length_escapeTok`).
-/

namespace Iot.Json

open Text

@[simp] theorem text_nil : text [] = [] := rfl

@[simp] theorem text_cons (tok : Tok) (rest : List Tok) :
    text (tok :: rest) = tok.bytes ++ text rest := rfl

@[simp] theorem text_append (left right : List Tok) :
    text (left ++ right) = text left ++ text right := List.flatMap_append

/-! ## Strings -/

/-- The bytes an element of a string literal is written with. -/
def StrItem.width : StrItem → Nat
  | .raw rune => rune.bytes.length
  | .esc _ => 2
  | .uni _ _ _ _ => 6

/-- A string literal is as long as its elements and the two quotes. -/
theorem length_str (items : List StrItem) :
    (Tok.str items).bytes.length = (items.map StrItem.width).sum + 2 := by
  have hitems : (flat (items.flatMap StrItem.runes)).length = (items.map StrItem.width).sum := by
    induction items with
    | nil => rfl
    | cons item rest ih =>
        rw [List.flatMap_cons, flat_append, List.length_append, ih, List.map_cons, List.sum_cons]
        cases item <;> simp [StrItem.runes, StrItem.width, Rune.bytes]
  rw [Tok.bytes, Tok.runes, flat_append, flat_append, List.length_append, List.length_append,
    hitems, flat_ones]
  simp only [List.length_singleton]
  omega

/-- The bytes `json.Marshal` writes for one rune of a string. -/
def quoteWidth : Rune → Nat
  | .one b =>
      if [0x22, 0x5C, 0x08, 0x0C, 0x0A, 0x0D, 0x09].contains b then 2
      else if b < 0x20 ∨ isHtmlChar b then 6
      else 1
  | .two _ _ => 2
  | .three b0 b1 b2 => if b0 = 0xE2 ∧ b1 = 0x80 ∧ (b2 = 0xA8 ∨ b2 = 0xA9) then 6 else 3
  | .four _ _ _ _ => 4
  | .bad _ => 3

/-- The bytes `json.Marshal` writes between the quotes of a string. -/
def quotedLength (s : Bytes) : Nat := ((decode s).map quoteWidth).sum

/-- The element written for a rune has the width of the rune. -/
theorem width_quoteRune (rune : Rune) : (quoteRune rune).width = quoteWidth rune := by
  cases rune with
  | two | four | bad => rfl
  | one b =>
      simp only [quoteRune, quoteWidth, List.contains_cons, List.contains_nil, Bool.or_false,
        Bool.or_eq_true, beq_iff_eq]
      split_ifs <;> simp_all [StrItem.width, hexEscape, Rune.bytes]
  | three b0 b1 b2 =>
      simp only [quoteRune, quoteWidth]
      split_ifs <;> rfl

/-- The length of a string that was written. -/
theorem length_strTok (s : Bytes) : (text (strTok s)).length = quotedLength s + 2 := by
  have hwidth : StrItem.width ∘ quoteRune = quoteWidth := funext width_quoteRune
  rw [strTok, text_cons, text_nil, List.append_nil, length_str, quote, List.map_map, hwidth,
    quotedLength]

/-- The length of a text that needed no escape. -/
theorem length_plainTok (s : Bytes) : (text (plainTok s)).length = s.length + 2 := by
  have hwidth : ((s.map fun b => StrItem.raw (.one b)).map StrItem.width).sum = s.length := by
    rw [List.map_map]
    simp [Function.comp_def, StrItem.width, Rune.bytes]
  rw [plainTok, text_cons, text_nil, List.append_nil, length_str, hwidth]

/-- A rune is written with at most six bytes for each byte. -/
theorem quoteWidth_le (rune : Rune) : quoteWidth rune ≤ 6 * rune.bytes.length := by
  cases rune with
  | two | four | bad => simp [quoteWidth, Rune.bytes]
  | one | three =>
      simp only [quoteWidth, Rune.bytes, List.length_cons, List.length_nil]
      split_ifs <;> omega

/-- A string is written with at most six bytes for each byte. -/
theorem quotedLength_le (s : Bytes) : quotedLength s ≤ 6 * s.length := by
  have hrunes : ∀ runes : List Rune, (runes.map quoteWidth).sum ≤ 6 * (flat runes).length := by
    intro runes
    induction runes with
    | nil => simp
    | cons rune rest ih =>
        rw [List.map_cons, List.sum_cons, flat_cons, List.length_append]
        have hrune := quoteWidth_le rune
        omega
  rw [quotedLength]
  have h := hrunes (decode s)
  rwa [decode_flat] at h

/-- Characters that need no escape are written as they are. -/
theorem quotedLength_plain {s : Bytes}
    (h : ∀ b ∈ s, b < 0x80 ∧ quoteWidth (.one b) = 1) : quotedLength s = s.length := by
  rw [quotedLength, decode_ascii fun b hb => (h b hb).1]
  induction s with
  | nil => rfl
  | cons b rest ih =>
      rw [List.map_cons, List.map_cons, List.sum_cons, (h b (by simp)).2,
        ih fun c hc => h c (by simp [hc]), List.length_cons, Nat.add_comm]

/-- The same for characters that were checked one by one. -/
theorem quotedLength_of_all {s : Bytes}
    (h : s.all fun b => b < 0x80 && quoteWidth (.one b) == 1) : quotedLength s = s.length :=
  quotedLength_plain fun b hb => by simpa using List.all_eq_true.mp h b hb

/-! ## HTML-safe literals -/

/-- The bytes an element grows by when it is made HTML-safe. -/
def htmlGrowth : StrItem → Nat
  | .raw (.one b) => if isHtmlChar b then 5 else 0
  | .raw (.three b0 b1 b2) => if b0 = 0xE2 ∧ b1 = 0x80 ∧ (b2 = 0xA8 ∨ b2 = 0xA9) then 3 else 0
  | _ => 0

/-- The length of a token written HTML-safe. -/
def safeLength : Tok → Nat
  | .str items => (items.map fun item => item.width + htmlGrowth item).sum + 2
  | tok => tok.bytes.length

/-- The width of an element made HTML-safe. -/
theorem width_escapeItem (item : StrItem) :
    (escapeItem item).width = item.width + htmlGrowth item := by
  rcases item with (b | _ | ⟨b0, b1, b2⟩ | _ | _) | _ | _
  case raw.one =>
    simp only [escapeItem, htmlGrowth]
    split_ifs <;> rfl
  case raw.three =>
    simp only [escapeItem, htmlGrowth]
    split_ifs <;> rfl
  all_goals rfl

/-- The length of a token made HTML-safe. -/
theorem length_escapeTok (tok : Tok) : (escapeTok tok).bytes.length = safeLength tok := by
  cases tok with
  | str items =>
      have hwidth : StrItem.width ∘ escapeItem = fun item => item.width + htmlGrowth item :=
        funext width_escapeItem
      rw [escapeTok, length_str, List.map_map, hwidth, safeLength]
  | lbrace | rbrace | lbrack | rbrack | colon | comma | num | word => rfl

/-- The length of tokens made HTML-safe. -/
theorem length_text_escape (toks : List Tok) :
    (text (toks.map escapeTok)).length = (toks.map safeLength).sum := by
  induction toks with
  | nil => rfl
  | cons tok rest ih =>
      rw [List.map_cons, text_cons, List.length_append, ih, length_escapeTok, List.map_cons,
        List.sum_cons]

/-! ## Numbers and times -/

/-- The number of digits of a number. -/
theorem length_digits_le {n k : Nat} (h : n < Nat.pow 10 (k + 1)) :
    (digits n).length ≤ k + 1 := by
  induction k generalizing n with
  | zero =>
      rw [digits_of_lt h]
      simp
  | succ k ih =>
      by_cases hn : n < 10
      · rw [digits_of_lt hn]
        simp
      · have hdiv : n / 10 < Nat.pow 10 (k + 1) := by
          rw [Nat.div_lt_iff_lt_mul (by decide)]
          exact h
        rw [digits_of_le (not_lt.mp hn), List.length_append,
          digits_of_lt (Nat.mod_lt n (by decide)), List.length_singleton]
        exact Nat.add_le_add_right (ih hdiv) 1

/-- A number that reaches a power of ten has more digits than its exponent. -/
theorem lt_length_digits {n k : Nat} (h : Nat.pow 10 k ≤ n) : k < (digits n).length := by
  have hpositive : ∀ m, 0 < (digits m).length := by
    intro m
    obtain ⟨_, c, rest, hcons, _⟩ := digits_eq_cons m
    rw [hcons]
    exact Nat.succ_pos _
  induction k generalizing n with
  | zero => exact hpositive n
  | succ k ih =>
      have hpow : Nat.pow 10 (k + 1) = Nat.pow 10 k * 10 := rfl
      have hpos : 0 < Nat.pow 10 k := Nat.pow_pos (by decide)
      have hdiv : Nat.pow 10 k ≤ n / 10 := by omega
      have hrest := hpositive (n % 10)
      have hdigits := ih hdiv
      rw [digits_of_le (by omega), List.length_append]
      omega

/-- An integer of 64 bits has at most twenty characters. -/
theorem length_decimal_le {n : Int} (h0 : -9223372036854775808 ≤ n)
    (h1 : n ≤ 9223372036854775807) : (decimal n).length ≤ 20 := by
  have hdigits : (digits n.natAbs).length ≤ 18 + 1 := length_digits_le (by
    rw [show Nat.pow 10 (18 + 1) = 10000000000000000000 from rfl]
    omega)
  rw [decimal_eq]
  split_ifs
  · exact Nat.add_le_add_right hdigits 1
  · exact hdigits.trans (by decide)

/-- A timestamp has at most thirty characters. -/
theorem length_rfc3339Nano_le {t : Time} {s : Bytes} (h : rfc3339Nano t = some s) :
    s.length ≤ 30 := by
  have hfraction : (fraction (t % second)).length ≤ 10 := by
    rw [fraction]
    split_ifs
    · exact Nat.zero_le 10
    · have hdrop := ((pad9 (t % second)).reverse.dropWhile_suffix (· == 0x30)).length_le
      rw [List.length_reverse] at hdrop
      rw [List.length_cons, List.length_reverse]
      exact Nat.add_le_add_right hdrop 1
  simp only [rfc3339Nano] at h
  split_ifs at h
  cases h
  simp only [List.length_append, pad4, pad2, List.length_cons, List.length_nil]
  have hascii : ∀ c : Fin 5, (ascii (["-", "T", ":", "Z", ""].get c)).length ≤ 1 := by decide
  have h0 := hascii 0
  have h1 := hascii 1
  have h2 := hascii 2
  have h3 := hascii 3
  simp only [List.get] at h0 h1 h2 h3
  omega

/-! ## Objects -/

/-- The bytes of one member: its name in quotes, a colon, its value and what follows it. -/
def memberLength (member : String × List Tok) : Nat :=
  (ascii member.1).length + (text member.2).length + 4

/-- A member without what follows it. -/
theorem length_memberToks (member : String × List Tok) :
    (text (memberToks member)).length + 1 = memberLength member := by
  have hname : ((nameItems member.1).map StrItem.width).sum = (ascii member.1).length := by
    rw [nameItems, List.map_map]
    induction ascii member.1 with
    | nil => rfl
    | cons b rest ih =>
        rw [List.map_cons, List.sum_cons, ih, List.length_cons, Nat.add_comm]
        rfl
  rw [memberToks, text_cons, text_cons, List.length_append, List.length_append, length_str, hname,
    memberLength, show Tok.colon.bytes.length = 1 from rfl]
  omega

/-- An object is as long as its members and the opening brace. -/
theorem length_object (first : String × List Tok) (rest : List (String × List Tok)) :
    (text (object (first :: rest))).length =
      1 + memberLength first + (rest.map memberLength).sum := by
  have hrest : (text (rest.flatMap fun m => .comma :: memberToks m)).length =
      (rest.map memberLength).sum := by
    induction rest with
    | nil => rfl
    | cons member rest ih =>
        rw [List.flatMap_cons, text_append, List.length_append, ih, List.map_cons, List.sum_cons,
          ← length_memberToks, text_cons, List.length_append,
          show Tok.comma.bytes.length = 1 from rfl, Nat.add_comm 1]
  rw [object, text_append, List.length_append, text_append, List.length_append, hrest,
    ← length_memberToks first, text_cons, List.length_append,
    show Tok.lbrace.bytes.length = 1 from rfl,
    show (text [Tok.rbrace]).length = 1 from rfl]
  omega

end Iot.Json
