import Iot.Json.Numbers

/-!
# Insert statements

A lexer for statements made of words, numbers, string literals and punctuation, and a parser for
one `INSERT INTO … USING … TAGS (…) VALUES (…)`. In a string literal a backslash escapes the next
character and two quotes are one. `Lexes` is the lexer with as many steps as there are tokens; its
rules read a statement piece by piece (`lexes_token`, `lexes_blank`).
-/

namespace Iot.Sql

open Text Json

/-- The tokens. -/
inductive Token where
  | word (text : Bytes)
  | str (text : Bytes)
  | num (value : Int)
  | dot
  | comma
  | lparen
  | rparen
  deriving DecidableEq, Repr

/-- The rest of a string literal after its opening quote: what it denotes and what follows it. -/
def lexQuoted : Bytes → Option (Bytes × Bytes)
  | [] => none
  | [0x5C] => none
  | 0x5C :: b :: rest => (lexQuoted rest).map fun (text, after) => (b :: text, after)
  | 0x27 :: 0x27 :: rest => (lexQuoted rest).map fun (text, after) => (0x27 :: text, after)
  | 0x27 :: rest => some ([], rest)
  | b :: rest => (lexQuoted rest).map fun (text, after) => (b :: text, after)

/-- A character that starts a word. -/
def isWordStart (b : UInt8) : Bool :=
  (0x41 ≤ b && b ≤ 0x5A) || (0x61 ≤ b && b ≤ 0x7A) || b == 0x5F

/-- A character of a word. -/
def isWordChar (b : UInt8) : Bool := isWordStart b || isDigit b

/-- The digits at the head of a text, as a number. -/
def lexDigits (text : Bytes) : Option (Nat × Bytes) :=
  if text.takeWhile isDigit = [] then none
  else some (digitsValue (text.takeWhile isDigit), text.dropWhile isDigit)

/-- The punctuation of a character. -/
def punctuation (b : UInt8) : Option Token :=
  if b = 0x28 then some .lparen
  else if b = 0x29 then some .rparen
  else if b = 0x2C then some .comma
  else if b = 0x2E then some .dot
  else none

/-- The token at the head of a text that does not start with a blank. -/
def lexToken : Bytes → Option (Token × Bytes)
  | [] => none
  | b :: rest =>
      if isDigit b then (lexDigits (b :: rest)).map fun (value, after) => (.num value, after)
      else if isWordStart b then
        some (.word ((b :: rest).takeWhile isWordChar), (b :: rest).dropWhile isWordChar)
      else if b = 0x27 then (lexQuoted rest).map fun (text, after) => (.str text, after)
      else if b = 0x2D then
        (lexDigits rest).map fun (value, after) => (.num (-value), after)
      else (punctuation b).map fun token => (token, rest)

/-- The tokens of a text, in at most so many steps. -/
def lexFrom : Nat → Bytes → Option (List Token)
  | 0, _ => none
  | fuel + 1, text =>
      match text.dropWhile (· == 0x20) with
      | [] => some []
      | b :: rest => do
          let (token, after) ← lexToken (b :: rest)
          let tokens ← lexFrom fuel after
          pure (token :: tokens)

/-- The tokens of a text. Each token takes a character at least. -/
def lex (text : Bytes) : Option (List Token) := lexFrom (text.length + 1) text

/-! ## The parser -/

/-- A literal. -/
inductive Literal where
  | str (text : Bytes)
  | num (value : Int)
  deriving DecidableEq, Repr

/-- The literal of a token. -/
def Token.literal? : Token → Option Literal
  | .str text => some (.str text)
  | .num value => some (.num value)
  | _ => none

/-- Literals with commas between them, up to the closing bracket. -/
def parseItems : List Token → Option (List Literal × List Token)
  | first :: .comma :: rest => do
      let literal ← first.literal?
      let (literals, after) ← parseItems rest
      pure (literal :: literals, after)
  | first :: .rparen :: rest => do
      let literal ← first.literal?
      pure ([literal], rest)
  | _ => none

/-- Literals in brackets. -/
def parseRow : List Token → Option (List Literal × List Token)
  | .lparen :: rest => parseItems rest
  | _ => none

/-- An insert statement: the table and the super table, each in its database, the tags and the one
row. -/
structure Insert where
  table : Bytes × Bytes
  stable : Bytes × Bytes
  tags : List Literal
  values : List Literal
  deriving DecidableEq, Repr

/-- The statement that the tokens are, if they are one insert statement and nothing else. -/
def parseInsert : List Token → Option Insert
  | .word insert :: .word into :: .word database :: .dot :: .word table :: .word usingWord ::
      .word stableDatabase :: .dot :: .word stable :: .word tags :: rest => do
      guard (insert = ascii "INSERT" ∧ into = ascii "INTO" ∧ usingWord = ascii "USING" ∧
        tags = ascii "TAGS")
      match ← parseRow rest with
      | (tagRow, .word values :: rest) =>
          guard (values = ascii "VALUES")
          match ← parseRow rest with
          | (valueRow, []) =>
              pure ⟨(database, table), (stableDatabase, stable), tagRow, valueRow⟩
          | _ => none
      | _ => none
  | _ => none

/-! ## Reading a statement piece by piece -/

/-- A string literal leaves less than it was given. -/
theorem lexQuoted_length {text denoted after : Bytes} (h : lexQuoted text = some (denoted, after)) :
    after.length < text.length := by
  fun_induction lexQuoted text generalizing denoted with
  | case1 | case2 => cases h
  | case3 b rest ih | case4 rest ih =>
      obtain ⟨⟨inner, rest'⟩, hinner, heq⟩ := Option.map_eq_some_iff.mp h
      cases heq
      have := ih hinner
      simp only [List.length_cons]
      omega
  | case5 rest => cases h; simp
  | case6 b rest _ _ _ _ ih =>
      obtain ⟨⟨inner, rest'⟩, hinner, heq⟩ := Option.map_eq_some_iff.mp h
      cases heq
      have := ih hinner
      simp only [List.length_cons]
      omega

/-- Digits leave less than they were given. -/
theorem lexDigits_length {text after : Bytes} {value : Nat}
    (h : lexDigits text = some (value, after)) : after.length < text.length := by
  rw [lexDigits] at h
  split_ifs at h with hnone
  cases h
  have happend := congrArg List.length (List.takeWhile_append_dropWhile (p := isDigit) (l := text))
  have hpos := List.length_pos_of_ne_nil hnone
  rw [List.length_append] at happend
  omega

/-- A token leaves less than it was given. -/
theorem lexToken_length {text after : Bytes} {token : Token}
    (h : lexToken text = some (token, after)) : after.length < text.length := by
  obtain _ | ⟨b, rest⟩ := text
  · cases h
  rw [lexToken] at h
  split_ifs at h with hdigit hstart hquote hminus
  · obtain ⟨⟨value, rest'⟩, hdigits, heq⟩ := Option.map_eq_some_iff.mp h
    cases heq
    exact lexDigits_length hdigits
  · cases h
    have hword : isWordChar b := by simp [isWordChar, hstart]
    have hlength := List.length_dropWhile_le isWordChar rest
    simp only [List.dropWhile_cons, hword, if_true, List.length_cons]
    omega
  · obtain ⟨⟨denoted, rest'⟩, hquoted, heq⟩ := Option.map_eq_some_iff.mp h
    cases heq
    exact Nat.lt_succ_of_lt (lexQuoted_length hquoted)
  · obtain ⟨⟨value, rest'⟩, hdigits, heq⟩ := Option.map_eq_some_iff.mp h
    cases heq
    exact Nat.lt_succ_of_lt (lexDigits_length hdigits)
  · obtain ⟨token', -, heq⟩ := Option.map_eq_some_iff.mp h
    cases heq
    exact Nat.lt_succ_self _

/-- The tokens of a text are at most as many as its characters. -/
theorem length_lexFrom {fuel : Nat} {text : Bytes} {tokens : List Token}
    (h : lexFrom fuel text = some tokens) : tokens.length ≤ text.length := by
  induction fuel generalizing text tokens with
  | zero => cases h
  | succ fuel ih =>
      have hblank := List.length_dropWhile_le (· == 0x20) text
      rw [lexFrom] at h
      split at h
      · cases h
        simp
      next b rest heq =>
        simp only [Option.bind_eq_bind, Option.bind_eq_some_iff] at h
        obtain ⟨⟨token, after⟩, htoken, rest', hrest, heq'⟩ := h
        cases heq'
        have hafter := lexToken_length htoken
        have hle : rest'.length ≤ after.length := ih hrest
        rw [heq] at hblank
        simp only [List.length_cons] at hafter hblank ⊢
        omega

/-- The text has these tokens, in as many steps. -/
def Lexes (text : Bytes) (tokens : List Token) : Prop :=
  ∀ fuel, tokens.length < fuel → lexFrom fuel text = some tokens

/-- A text that has tokens is read by the lexer. -/
theorem Lexes.lex_eq {text : Bytes} {tokens : List Token} (h : Lexes text tokens) :
    lex text = some tokens := by
  refine h _ ?_
  have := length_lexFrom (h (tokens.length + 1) (Nat.lt_succ_self _))
  omega

theorem lexes_nil : Lexes [] [] := by
  intro fuel hfuel
  obtain ⟨fuel, rfl⟩ := Nat.exists_eq_succ_of_ne_zero (Nat.ne_of_gt hfuel)
  rfl

/-- A blank is skipped. -/
theorem lexes_blank {text : Bytes} {tokens : List Token} (h : Lexes text tokens) :
    Lexes (0x20 :: text) tokens := by
  intro fuel hfuel
  rw [← h fuel hfuel]
  cases fuel with
  | zero => rfl
  | succ fuel => simp [lexFrom]

/-- A token and what follows it. -/
theorem lexes_token {piece after : Bytes} {token : Token} {tokens : List Token}
    (htoken : lexToken (piece ++ after) = some (token, after)) (hafter : Lexes after tokens)
    (hblank : piece.head? ≠ some 0x20) (hne : piece ≠ []) :
    Lexes (piece ++ after) (token :: tokens) := by
  intro fuel hfuel
  obtain ⟨fuel, rfl⟩ := Nat.exists_eq_succ_of_ne_zero (Nat.ne_of_gt (Nat.lt_of_le_of_lt
    (Nat.zero_le _) hfuel))
  obtain ⟨b, rest, rfl⟩ := List.exists_cons_of_ne_nil hne
  have hb : (b == 0x20) = false := by simpa using hblank
  have hdrop : (b :: rest ++ after).dropWhile (· == 0x20) = b :: (rest ++ after) := by
    rw [List.cons_append, List.dropWhile_cons, hb]
    rfl
  rw [List.cons_append] at htoken
  rw [lexFrom, hdrop]
  simp only [htoken, Option.bind_eq_bind, Option.bind_some]
  rw [hafter fuel (by simp only [List.length_cons] at hfuel; omega)]
  rfl

/-! ## Pieces -/

/-- What follows does not continue a run of such characters. -/
def Ends (continues : UInt8 → Bool) (after : Bytes) : Prop :=
  ∀ b ∈ after.head?, continues b = false

/-- A run of characters is read up to its end. -/
theorem takeWhile_run {continues : UInt8 → Bool} {run after : Bytes} (h : run.all continues)
    (hafter : Ends continues after) :
    (run ++ after).takeWhile continues = run ∧ (run ++ after).dropWhile continues = after := by
  have hrun : ∀ b ∈ run, continues b = true := List.all_eq_true.mp h
  rw [List.takeWhile_append_of_pos hrun, List.dropWhile_append_of_pos hrun]
  cases after with
  | nil => simp
  | cons b rest =>
      have hb : continues b = false := hafter b (by simp)
      simp [hb]

/-- A closing quote that no quote follows ends a literal. -/
theorem lexQuoted_end {after : Bytes} (hafter : after.head? ≠ some 0x27) :
    lexQuoted (0x27 :: after) = some ([], after) := by
  obtain _ | ⟨b, rest⟩ := after
  · rfl
  · have hb : b ≠ 0x27 := by simpa using hafter
    rw [lexQuoted]
    exact fun _ heq => hb (List.cons.inj heq).1

/-- A character that is no quote and no backslash stands for itself in a literal. -/
theorem lexQuoted_plain {b : UInt8} {rest denoted after : Bytes} (hslash : b ≠ 0x5C)
    (hquote : b ≠ 0x27) (h : lexQuoted rest = some (denoted, after)) :
    lexQuoted (b :: rest) = some (b :: denoted, after) := by
  rw [lexQuoted, h]
  · rfl
  · exact fun heq _ => hslash heq
  · exact fun _ _ heq _ => hslash heq
  · exact fun _ heq _ => hquote heq
  · exact hquote

/-- A word. -/
def isWord : Bytes → Bool
  | [] => false
  | b :: rest => isWordStart b && rest.all isWordChar

/-- A character that starts a word is no digit. -/
theorem isDigit_of_isWordStart {b : UInt8} (h : isWordStart b) : isDigit b = false := by
  have hall : (List.range 256).all fun n =>
      !isWordStart n.toUInt8 || !isDigit n.toUInt8 := by decide +kernel
  have hb := List.all_eq_true.mp hall b.toNat (List.mem_range.mpr b.toNat_lt)
  rw [show b.toNat.toUInt8 = b from UInt8.ofNat_toNat] at hb
  simpa [h] using hb

/-- A word is read up to its end. -/
theorem lexToken_word {word after : Bytes} (hword : isWord word) (hafter : Ends isWordChar after) :
    lexToken (word ++ after) = some (.word word, after) := by
  obtain _ | ⟨b, rest⟩ := word
  · cases hword
  simp only [isWord, Bool.and_eq_true] at hword
  have hdigit := isDigit_of_isWordStart hword.1
  have hall : (b :: rest).all isWordChar := by simp [isWordChar, hword.1, hword.2]
  obtain ⟨htake, hdrop⟩ := takeWhile_run hall hafter
  rw [List.cons_append] at htake hdrop ⊢
  rw [lexToken, if_neg (by simp [hdigit]), if_pos hword.1, htake, hdrop]

/-- Digits are read up to their end. -/
theorem lexDigits_digits (n : Nat) {after : Bytes} (hafter : Ends isDigit after) :
    lexDigits (digits n ++ after) = some (n, after) := by
  obtain ⟨hall, c, rest, hcons, -⟩ := digits_eq_cons n
  obtain ⟨htake, hdrop⟩ := takeWhile_run hall hafter
  rw [lexDigits, htake, hdrop, if_neg (by simp [hcons]), digitsValue_digits]

/-- A number is read up to its end. -/
theorem lexToken_decimal (value : Int) {after : Bytes} (hafter : Ends isDigit after) :
    lexToken (decimal value ++ after) = some (.num value, after) := by
  rw [decimal_eq]
  by_cases hneg : value < 0
  · rw [if_pos hneg, List.singleton_append, List.cons_append, lexToken,
      if_neg (by decide), if_neg (by decide), if_neg (by decide), if_pos rfl,
      lexDigits_digits _ hafter]
    simp only [Option.map_some, Option.some.injEq, Prod.mk.injEq, Token.num.injEq, and_true]
    omega
  · obtain ⟨hall, c, rest, hcons, -⟩ := digits_eq_cons value.natAbs
    have hc : isDigit c := List.all_eq_true.mp hall c (by simp [hcons])
    have hdigits := lexDigits_digits value.natAbs hafter
    rw [if_neg hneg, List.nil_append]
    rw [hcons, List.cons_append] at hdigits ⊢
    rw [lexToken, if_pos hc, hdigits]
    simp only [Option.map_some, Option.some.injEq, Prod.mk.injEq, Token.num.injEq, and_true]
    omega

/-- A string literal is read as its text. -/
theorem lexToken_str {quoted denoted after : Bytes}
    (h : lexQuoted (quoted ++ after) = some (denoted, after)) :
    lexToken (0x27 :: quoted ++ after) = some (.str denoted, after) := by
  rw [List.cons_append, lexToken, if_neg (by decide), if_neg (by decide), if_pos rfl, h]
  rfl

/-! ## Statements -/

section

variable {after : Bytes} {tokens : List Token}

/-- What follows starts with a character that does not continue the run. -/
theorem ends_cons {continues : UInt8 → Bool} {b : UInt8} (h : continues b = false) :
    Ends continues (b :: after) := by
  intro c hc
  cases hc
  exact h

/-- A word and what follows it. -/
theorem lexes_word {word : Bytes} (hword : isWord word) (hends : Ends isWordChar after)
    (hafter : Lexes after tokens) : Lexes (word ++ after) (.word word :: tokens) := by
  refine lexes_token (lexToken_word hword hends) hafter ?_ ?_
  · rintro hblank
    obtain _ | ⟨b, rest⟩ := word
    · cases hblank
    cases hblank
    simp [isWord, show isWordStart 0x20 = false from rfl] at hword
  · rintro rfl
    cases hword

/-- A number and what follows it. -/
theorem lexes_decimal (value : Int) (hends : Ends isDigit after) (hafter : Lexes after tokens) :
    Lexes (decimal value ++ after) (.num value :: tokens) := by
  obtain ⟨hall, c, rest, hcons, -⟩ := digits_eq_cons value.natAbs
  have hc : isDigit c := List.all_eq_true.mp hall c (by simp [hcons])
  refine lexes_token (lexToken_decimal value hends) hafter ?_ ?_
  · rw [decimal_eq, hcons]
    split_ifs
    · simp
    · rintro heq
      cases heq
      cases hc
  · rw [decimal_eq, hcons]
    simp

/-- A string literal and what follows it. -/
theorem lexes_str {quoted denoted : Bytes}
    (h : lexQuoted (quoted ++ after) = some (denoted, after)) (hafter : Lexes after tokens) :
    Lexes (0x27 :: quoted ++ after) (.str denoted :: tokens) :=
  lexes_token (lexToken_str h) hafter (by simp) (by simp)

/-- A character of punctuation and what follows it. -/
theorem lexes_punctuation {b : UInt8} {token : Token} (h : punctuation b = some token)
    (hafter : Lexes after tokens) : Lexes (b :: after) (token :: tokens) := by
  have hb : b = 0x28 ∨ b = 0x29 ∨ b = 0x2C ∨ b = 0x2E := by
    rw [punctuation] at h
    split_ifs at h <;> simp_all
  have hplain : isDigit b = false ∧ isWordStart b = false ∧ b ≠ 0x27 ∧ b ≠ 0x2D ∧ b ≠ 0x20 := by
    obtain rfl | rfl | rfl | rfl := hb <;> decide
  obtain ⟨hdigit, hstart, hquote, hminus, hblank⟩ := hplain
  show Lexes ([b] ++ after) _
  refine lexes_token ?_ hafter (by simpa using hblank) (by simp)
  rw [List.singleton_append, lexToken, if_neg (by simp [hdigit]), if_neg (by simp [hstart]),
    if_neg hquote, if_neg hminus, h]
  rfl

end

end Iot.Sql
