import Mathlib.Data.List.Chain
import Mathlib.Data.List.TakeWhile
import Iot.Json.Grammar

/-!
# The lexer reads what is printed

`lex_sound` says what a text is made of that the lexer accepts: lexemes, each with its white
space, and white space at the end. `lex_text` is the converse for tokens written without white
space: they are read back, provided no two of them run into each other. In a document they never
do (`separated_of_document`).
-/

namespace Iot.Json

open Text

/-- An element that may stand in a string literal. -/
def StrItem.Printable : StrItem → Prop
  | .raw (.one b) => 0x20 ≤ b ∧ b ≠ 0x22 ∧ b ≠ 0x5C
  | .raw _ => True
  | .esc c => isEscape c
  | .uni h0 h1 h2 h3 => isHex h0 ∧ isHex h1 ∧ isHex h2 ∧ isHex h3

/-- A token that can be written and read. -/
def Tok.Printable : Tok → Prop
  | .str items => ∀ item ∈ items, item.Printable
  | .num literal => isNumber literal
  | _ => True

/-- The runes of a lexeme. -/
def Lexeme.runes (l : Lexeme) : List Rune := ones l.space ++ l.tok.runes

/-- A lexeme as the lexer produces it. -/
def Lexeme.Sound (l : Lexeme) : Prop := l.space.all isSpace ∧ l.tok.Printable

/-! ## What the lexer accepts -/

/-- The runes of the token a lexer state is in. -/
def Scan.runes : Scan → List Rune
  | .out space => ones space
  | .str space items => ones space ++ ones [0x22] ++ items.flatMap StrItem.runes
  | .esc space items => ones space ++ ones [0x22] ++ items.flatMap StrItem.runes ++ ones [0x5C]
  | .uni space items digits =>
      ones space ++ ones [0x22] ++ items.flatMap StrItem.runes ++ ones (0x5C :: 0x75 :: digits)
  | .num space literal => ones space ++ ones literal
  | .word space letters => ones space ++ ones letters

/-- What is known of the token a lexer state is in. -/
def Scan.Sound : Scan → Prop
  | .out space | .num space _ | .word space _ => space.all isSpace
  | .str space items | .esc space items => space.all isSpace ∧ ∀ item ∈ items, item.Printable
  | .uni space items digits =>
      space.all isSpace ∧ (∀ item ∈ items, item.Printable) ∧ digits.all isHex ∧ digits.length ≤ 3

@[simp] theorem ones_nil : ones [] = [] := rfl

@[simp] theorem flat_ones (s : Bytes) : flat (ones s) = s := by
  rw [flat, ones, List.flatMap_map]
  exact List.flatMap_singleton' s

@[simp] theorem ones_cons (b : UInt8) (rest : Bytes) : ones (b :: rest) = .one b :: ones rest := rfl

@[simp] theorem ones_append (left right : Bytes) : ones (left ++ right) = ones left ++ ones right :=
  List.map_append

/-- Between tokens a rune is white space, a whole token or the start of one. -/
theorem start_sound {space : Bytes} {rune : Rune} {done : List Lexeme} {next : Scan}
    (h : Scan.start space rune = some (done, next)) :
    ones space ++ [rune] = done.flatMap Lexeme.runes ++ next.runes ∧
      (space.all isSpace → (∀ l ∈ done, l.Sound) ∧ next.Sound) := by
  cases rune with
  | two | three | four | bad => simp [Scan.start] at h
  | one b =>
      simp only [Scan.start] at h
      split_ifs at h with hspace <;> cases h
      · refine ⟨by simp [Scan.runes], fun hsound => ⟨by simp, ?_⟩⟩
        simp only [Scan.Sound, List.all_append, hsound, Bool.true_and]
        simpa using hspace
      all_goals simp [Lexeme.runes, Scan.runes, Tok.runes, Scan.Sound, Lexeme.Sound,
        Tok.Printable, *]

/-- A finished run of number characters or letters is a token. -/
theorem close_sound {scan : Scan} {done : List Lexeme} (h : scan.close = some done) :
    (∃ space, scan = .out space ∧ done = []) ∨
      scan.runes = done.flatMap Lexeme.runes ∧ (scan.Sound → ∀ l ∈ done, l.Sound) := by
  cases scan with
  | str | esc | uni => simp [Scan.close] at h
  | out space =>
      left
      simp only [Scan.close, Option.some.injEq] at h
      exact ⟨space, rfl, h.symm⟩
  | num space literal =>
      right
      simp only [Scan.close] at h
      split_ifs at h with hnumber
      cases h
      simp [Scan.runes, Lexeme.runes, Tok.runes, Scan.Sound, Lexeme.Sound, Tok.Printable, hnumber]
  | word space letters =>
      right
      simp only [Scan.close, Option.map_eq_some_iff] at h
      obtain ⟨w, hword, rfl⟩ := h
      have hletters : letters = w.bytes := by
        simp only [word?] at hword
        split_ifs at hword <;> cases hword <;> assumption
      simp [Scan.runes, Lexeme.runes, Tok.runes, Scan.Sound, Lexeme.Sound, Tok.Printable, hletters]

/-- A step moves one rune from the text to the lexemes and the new state. -/
theorem step_sound {scan : Scan} {rune : Rune} {done : List Lexeme} {next : Scan}
    (h : scan.step rune = some (done, next)) :
    scan.runes ++ [rune] = done.flatMap Lexeme.runes ++ next.runes ∧
      (scan.Sound → (∀ l ∈ done, l.Sound) ∧ next.Sound) := by
  -- a run that ends here is closed and the rune starts the next token
  have hend : ∀ opened, scan.close = some opened → (∀ space, scan ≠ .out space) →
      ∀ more, Scan.start [] rune = some (more, next) → done = opened ++ more →
      scan.runes ++ [rune] = done.flatMap Lexeme.runes ++ next.runes ∧
        (scan.Sound → (∀ l ∈ done, l.Sound) ∧ next.Sound) := by
    intro opened hclose hout more hstart hdone
    obtain ⟨space, hspace, _⟩ | ⟨hrunes, hsound⟩ := close_sound hclose
    · exact absurd hspace (hout space)
    · obtain ⟨hstart, hnext⟩ := start_sound hstart
      simp only [ones_nil, List.nil_append] at hstart
      subst hdone
      refine ⟨by rw [hrunes, hstart, List.flatMap_append, List.append_assoc], fun h => ?_⟩
      refine ⟨fun l hl => ?_, (hnext rfl).2⟩
      rcases List.mem_append.mp hl with hl | hl
      · exact hsound h l hl
      · exact (hnext rfl).1 l hl
  cases scan with
  | out space => exact start_sound h
  | str space items =>
      cases rune with
      | one b =>
          simp only [Scan.step] at h
          split_ifs at h with hquote hescape hcontrol <;> cases h
          · simp_all [Scan.runes, Lexeme.runes, Tok.runes, Scan.Sound, Lexeme.Sound,
              Tok.Printable]
          · simp_all [Scan.runes, Scan.Sound]
          · have hitem : (StrItem.raw (.one b)).Printable :=
              ⟨UInt8.not_lt.mp hcontrol, hquote, hescape⟩
            simp_all [Scan.runes, StrItem.runes, Scan.Sound, or_imp]
      | two | three | four | bad =>
          simp only [Scan.step, Option.some.injEq, Prod.mk.injEq] at h
          obtain ⟨rfl, rfl⟩ := h
          simp_all [Scan.runes, StrItem.runes, Scan.Sound, or_imp, StrItem.Printable]
  | esc space items =>
      cases rune with
      | one b =>
          simp only [Scan.step] at h
          split_ifs at h with hu hescape <;> cases h
          · simp_all [Scan.runes, Scan.Sound]
          · simp_all [Scan.runes, StrItem.runes, Scan.Sound, or_imp,
              StrItem.Printable]
      | two | three | four | bad => simp [Scan.step] at h
  | uni space items digits =>
      cases rune with
      | one b =>
          simp only [Scan.step] at h
          split_ifs at h with hhex
          split at h <;> cases h
          · simp_all [Scan.runes, StrItem.runes, Scan.Sound, or_imp,
              StrItem.Printable]
          · next hdigits =>
            have hlength : digits.length ≠ 3 := by
              intro hlength
              obtain ⟨h0, h1, h2, rfl⟩ := List.length_eq_three.mp hlength
              exact hdigits h0 h1 h2 rfl
            refine ⟨by simp [Scan.runes], fun hsound => ?_⟩
            obtain ⟨hspace, hitems, hall, hle⟩ := hsound
            refine ⟨by simp, hspace, hitems, by simp [hall, hhex], ?_⟩
            rw [List.length_append, List.length_singleton]
            omega
      | two | three | four | bad => simp [Scan.step] at h
  | num space literal =>
      cases rune with
      | one b =>
          simp only [Scan.step] at h
          split_ifs at h with hchar
          · cases h
            simp [Scan.runes, Scan.Sound]
          · simp only [Option.bind_eq_bind, Option.bind_eq_some_iff, Prod.exists, Option.pure_def,
              Option.some.injEq, Prod.mk.injEq] at h
            obtain ⟨opened, hclose, more, _, hstart, rfl, rfl⟩ := h
            exact hend opened hclose (by simp) more hstart rfl
      | two | three | four | bad => simp [Scan.step] at h
  | word space letters =>
      cases rune with
      | one b =>
          simp only [Scan.step] at h
          split_ifs at h with hchar
          · cases h
            simp [Scan.runes, Scan.Sound]
          · simp only [Option.bind_eq_bind, Option.bind_eq_some_iff, Prod.exists, Option.pure_def,
              Option.some.injEq, Prod.mk.injEq] at h
            obtain ⟨opened, hclose, more, _, hstart, rfl, rfl⟩ := h
            exact hend opened hclose (by simp) more hstart rfl
      | two | three | four | bad => simp [Scan.step] at h

/-- What is read from a lexer state on. -/
theorem lexFrom_sound {scan : Scan} {runes : List Rune} {lexemes : List Lexeme}
    (h : lexFrom scan runes = some lexemes) (hsound : scan.Sound) :
    (∃ tail, scan.runes ++ runes = lexemes.flatMap Lexeme.runes ++ ones tail ∧
      tail.all isSpace) ∧ ∀ l ∈ lexemes, l.Sound := by
  induction runes generalizing scan lexemes with
  | nil =>
      obtain ⟨space, rfl, rfl⟩ | ⟨hrunes, hdone⟩ := close_sound h
      · exact ⟨⟨space, by simp [Scan.runes], hsound⟩, by simp⟩
      · exact ⟨⟨[], by simp [hrunes], rfl⟩, hdone hsound⟩
  | cons rune rest ih =>
      simp only [lexFrom, Option.bind_eq_bind, Option.bind_eq_some_iff, Prod.exists,
        Option.pure_def, Option.some.injEq] at h
      obtain ⟨done, next, hstep, more, hmore, rfl⟩ := h
      obtain ⟨hrunes, hstep⟩ := step_sound hstep
      obtain ⟨hdone, hnext⟩ := hstep hsound
      obtain ⟨⟨tail, htail, hspace⟩, hlexemes⟩ := ih hmore hnext
      refine ⟨⟨tail, ?_, hspace⟩, fun l hl => ?_⟩
      · rw [← List.singleton_append, ← List.append_assoc, hrunes, List.append_assoc, htail,
          List.flatMap_append, List.append_assoc]
      · rcases List.mem_append.mp hl with hl | hl
        · exact hdone l hl
        · exact hlexemes l hl

/-- A text that the lexer accepts is made of its lexemes and white space at the end. -/
theorem lex_sound {raw : Bytes} {lexemes : List Lexeme} (h : lex raw = some lexemes) :
    (∃ tail, decode raw = lexemes.flatMap Lexeme.runes ++ ones tail ∧ tail.all isSpace) ∧
      ∀ l ∈ lexemes, l.Sound := by
  simpa [Scan.runes] using @lexFrom_sound (.out []) _ _ h rfl

/-! ## What is printed is read back -/

/-- A number or a word, which ends only where the next token starts. -/
def Tok.openEnded : Tok → Bool
  | .num _ | .word _ => true
  | _ => false

/-- No two tokens run into each other. -/
def Separated (toks : List Tok) : Prop :=
  toks.IsChain fun tok next => ¬ (tok.openEnded ∧ next.openEnded)

/-- What follows ends a number or a word. -/
def Delimited (runes : List Rune) : Prop :=
  ∀ rune ∈ runes.head?, ∃ b, rune = .one b ∧ isNumChar b = false ∧ isLower b = false

/-- Put a lexeme in front of what is read. -/
def prepend (l : Lexeme) (more : Option (List Lexeme)) : Option (List Lexeme) := more.map (l :: ·)

/-- A step that finishes nothing. -/
theorem lexFrom_silent {scan next : Scan} {rune : Rune} (h : scan.step rune = some ([], next))
    (rest : List Rune) : lexFrom scan (rune :: rest) = lexFrom next rest := by
  simp [lexFrom, h]

/-- One element of a string literal is read. -/
theorem lexFrom_item {item : StrItem} (h : item.Printable) (space : Bytes) (items : List StrItem)
    (rest : List Rune) :
    lexFrom (.str space items) (item.runes ++ rest) =
      lexFrom (.str space (items ++ [item])) rest := by
  cases item with
  | raw rune =>
      cases rune with
      | one b =>
          obtain ⟨hcontrol, hquote, hescape⟩ := h
          rw [StrItem.runes, List.singleton_append]
          refine lexFrom_silent ?_ rest
          simp [Scan.step, hquote, hescape, UInt8.not_lt.mpr hcontrol]
      | two | three | four | bad => exact lexFrom_silent rfl rest
  | esc c =>
      have hescape : isEscape c := h
      have hc : c ≠ 0x75 := by
        rintro rfl
        exact absurd hescape (by decide)
      simp [StrItem.runes, lexFrom, Scan.step, hc, hescape]
  | uni h0 h1 h2 h3 =>
      obtain ⟨hh0, hh1, hh2, hh3⟩ := h
      simp [StrItem.runes, lexFrom, Scan.step, hh0, hh1, hh2, hh3]

/-- The rest of a string literal is read. -/
theorem lexFrom_items {items : List StrItem} (h : ∀ item ∈ items, item.Printable) (space : Bytes)
    (before : List StrItem) (rest : List Rune) :
    lexFrom (.str space before) (items.flatMap StrItem.runes ++ .one 0x22 :: rest) =
      prepend ⟨space, .str (before ++ items)⟩ (lexFrom (.out []) rest) := by
  induction items generalizing before with
  | nil =>
      have hstep : Scan.step (.str space before) (.one 0x22) =
          some ([⟨space, .str before⟩], .out []) := rfl
      cases hrest : lexFrom (.out []) rest <;> simp [lexFrom, hstep, hrest, prepend]
  | cons item items ih =>
      rw [List.flatMap_cons, List.append_assoc, lexFrom_item (h item (by simp)),
        ih fun other hother => h other (by simp [hother]), List.append_assoc,
        List.singleton_append]

/-- A number goes on while there are number characters. -/
theorem lexFrom_numChars {more : Bytes} (h : more.all isNumChar) (space literal : Bytes)
    (rest : List Rune) :
    lexFrom (.num space literal) (ones more ++ rest) =
      lexFrom (.num space (literal ++ more)) rest := by
  induction more generalizing literal with
  | nil => simp
  | cons b more ih =>
      simp only [List.all_cons, Bool.and_eq_true] at h
      have hstep : Scan.step (.num space literal) (.one b) =
          some ([], .num space (literal ++ [b])) := by simp [Scan.step, h.1]
      rw [ones_cons, List.cons_append, lexFrom_silent hstep, ih h.2, List.append_assoc,
        List.singleton_append]

/-- A word goes on while there are letters. -/
theorem lexFrom_letters {more : Bytes} (h : more.all isLower) (space letters : Bytes)
    (rest : List Rune) :
    lexFrom (.word space letters) (ones more ++ rest) =
      lexFrom (.word space (letters ++ more)) rest := by
  induction more generalizing letters with
  | nil => simp
  | cons b more ih =>
      simp only [List.all_cons, Bool.and_eq_true] at h
      have hstep : Scan.step (.word space letters) (.one b) =
          some ([], .word space (letters ++ [b])) := by simp [Scan.step, h.1]
      rw [ones_cons, List.cons_append, lexFrom_silent hstep, ih h.2, List.append_assoc,
        List.singleton_append]

/-- A number or a word ends where what follows cannot go on with it. -/
theorem lexFrom_close {scan : Scan} {l : Lexeme} (hclose : scan.close = some [l])
    (hscan : (∃ space literal, scan = .num space literal) ∨
      ∃ space letters, scan = .word space letters)
    {rest : List Rune} (hrest : Delimited rest) :
    lexFrom scan rest = prepend l (lexFrom (.out []) rest) := by
  cases rest with
  | nil => exact hclose
  | cons rune rest =>
      obtain ⟨b, rfl, hnum, hlower⟩ := hrest rune rfl
      have hstep : scan.step (.one b) =
          (Scan.start [] (.one b)).map fun result => (l :: result.1, result.2) := by
        rcases hscan with ⟨space, literal, rfl⟩ | ⟨space, letters, rfl⟩ <;>
          cases hstart : Scan.start [] (.one b) <;>
          simp [Scan.step, hnum, hlower, hclose, hstart]
      have hout : Scan.step (.out []) (.one b) = Scan.start [] (.one b) := rfl
      cases hstart : Scan.start [] (.one b) with
      | none => simp [lexFrom, hstep, hout, hstart, prepend]
      | some result =>
          cases hmore : lexFrom result.2 rest <;>
            simp [lexFrom, hstep, hout, hstart, hmore, prepend]

/-- Digits may stand in a number. -/
theorem isNumChar_of_isDigit {b : UInt8} (h : isDigit b) : isNumChar b := by
  simp [isNumChar, h]

/-- A run of digits is made of number characters. -/
theorem isDigits_chars {s : Bytes} (h : isDigits s) : s.all isNumChar := by
  simp only [isDigits, Bool.and_eq_true, List.all_eq_true] at h ⊢
  exact fun b hb => isNumChar_of_isDigit (h.2 b hb)

/-- An exponent is made of number characters. -/
theorem isExponent_chars {s : Bytes} (h : isExponent s) : s.all isNumChar := by
  unfold isExponent at h
  split at h
  · simpa [isNumChar] using isDigits_chars h
  · simpa [isNumChar] using isDigits_chars h
  · exact isDigits_chars h

/-- Leading digits do not matter for what a text is made of. -/
theorem all_numChar_of_dropWhile {s : Bytes} (h : (s.dropWhile isDigit).all isNumChar) :
    s.all isNumChar := by
  rw [← List.takeWhile_append_dropWhile (p := isDigit) (l := s), List.all_append, h, Bool.and_true,
    List.all_eq_true]
  intro b hb
  exact isNumChar_of_isDigit (List.mem_takeWhile_imp hb)

/-- What follows the integer digits is made of number characters. -/
theorem isNumTail_chars {s : Bytes} (h : isNumTail s) : s.all isNumChar := by
  have hexponent : ∀ c rest, ((c == 0x65 || c == 0x45) && isExponent rest) = true →
      (c :: rest).all isNumChar := by
    intro c rest hs
    simp only [Bool.and_eq_true] at hs
    rw [List.all_cons, isExponent_chars hs.2, Bool.and_true]
    simp only [isNumChar]
    grind
  unfold isNumTail at h
  split at h
  · rename_i rest
    simp only [Bool.and_eq_true] at h
    rw [List.all_cons]
    refine Bool.and_eq_true_iff.mpr ⟨rfl, all_numChar_of_dropWhile ?_⟩
    cases hdrop : rest.dropWhile isDigit with
    | nil => rfl
    | cons c more =>
        rw [hdrop] at h
        exact hexponent c more h.2
  · cases s with
    | nil => rfl
    | cons c rest => exact hexponent c rest h

/-- A number without its sign starts with a digit. -/
theorem isUnsigned_chars {s : Bytes} (h : isUnsigned s) :
    s.all isNumChar ∧ ∃ b more, s = b :: more ∧ isDigit b := by
  unfold isUnsigned at h
  split at h
  · cases h
  · exact ⟨by simpa [isNumChar, isDigit] using isNumTail_chars h, _, _, rfl, by decide⟩
  · simp only [Bool.and_eq_true] at h
    refine ⟨?_, _, _, rfl, h.1⟩
    rw [List.all_cons, isNumChar_of_isDigit h.1, all_numChar_of_dropWhile (isNumTail_chars h.2)]
    rfl

/-- A number starts with a minus sign or a digit. -/
theorem isNumber_chars {s : Bytes} (h : isNumber s) :
    s.all isNumChar ∧ ∃ b more, s = b :: more ∧ (b = 0x2D ∨ isDigit b) := by
  unfold isNumber at h
  split at h
  · exact ⟨by simpa [isNumChar] using (isUnsigned_chars h).1, _, _, rfl, Or.inl rfl⟩
  · obtain ⟨hall, b, more, rfl, hb⟩ := isUnsigned_chars h
    exact ⟨hall, b, more, rfl, Or.inr hb⟩

/-- A minus sign or a digit starts a number. -/
theorem start_num (space : Bytes) {b : UInt8} (h : b = 0x2D ∨ isDigit b) :
    Scan.start space (.one b) = some ([], .num space [b]) := by
  have hb : isSpace b = false ∧ b ≠ 0x7B ∧ b ≠ 0x7D ∧ b ≠ 0x5B ∧ b ≠ 0x5D ∧ b ≠ 0x3A ∧
      b ≠ 0x2C ∧ b ≠ 0x22 := by
    simp only [isDigit, isSpace, Bool.and_eq_true, decide_eq_true_eq, UInt8.le_iff_toNat_le,
      ← UInt8.toNat_inj, Bool.or_eq_false_iff, beq_eq_false_iff_ne, ne_eq] at h ⊢
    simp at h ⊢
    omega
  simp [Scan.start, hb, h]

/-- A token is read, whatever follows it. A number or a word must be followed by something that
ends it. -/
theorem lexFrom_tok {tok : Tok} (h : tok.Printable) {rest : List Rune}
    (hrest : tok.openEnded → Delimited rest) (space : Bytes) :
    lexFrom (.out space) (tok.runes ++ rest) = prepend ⟨space, tok⟩ (lexFrom (.out []) rest) := by
  cases tok with
  | lbrace | rbrace | lbrack | rbrack | colon | comma =>
      cases hmore : lexFrom (.out []) rest <;>
        simp [Tok.runes, lexFrom, Scan.step, Scan.start, isSpace, hmore, prepend]
  | str items =>
      have hstart : Scan.step (.out space) (.one 0x22) = some ([], .str space []) := rfl
      simp only [Tok.runes, ones_cons, ones_nil, List.nil_append, List.cons_append,
        List.append_assoc]
      rw [lexFrom_silent hstart, lexFrom_items h, List.nil_append]
  | num literal =>
      obtain ⟨hall, b, more, rfl, hb⟩ := isNumber_chars h
      simp only [List.all_cons, Bool.and_eq_true] at hall
      have hnumber : isNumber (b :: more) := h
      have hstart : Scan.step (.out space) (.one b) = some ([], .num space [b]) :=
        start_num space hb
      have hclose : Scan.close (.num space (b :: more)) = some [⟨space, .num (b :: more)⟩] := by
        rw [Scan.close, if_pos hnumber]
      rw [Tok.runes, ones_cons, List.cons_append, lexFrom_silent hstart,
        lexFrom_numChars hall.2, List.singleton_append,
        lexFrom_close hclose (Or.inl ⟨_, _, rfl⟩) (hrest rfl)]
  | word w =>
      have hword : ∃ b more, w.bytes = b :: more ∧ more.all isLower ∧
          Scan.step (.out space) (.one b) = some ([], .word space [b]) ∧
          Scan.close (.word space w.bytes) = some [⟨space, .word w⟩] := by
        cases w <;> exact ⟨_, _, rfl, by decide, rfl, rfl⟩
      obtain ⟨b, more, hbytes, hall, hstart, hclose⟩ := hword
      rw [Tok.runes, hbytes, ones_cons, List.cons_append, lexFrom_silent hstart,
        lexFrom_letters hall, List.singleton_append, ← hbytes,
        lexFrom_close hclose (Or.inr ⟨_, _, rfl⟩) (hrest rfl)]

/-- A token that is no number and no word ends one. -/
theorem delimited_runes {tok : Tok} (h : ¬ tok.openEnded) (rest : List Rune) :
    Delimited (tok.runes ++ rest) := by
  intro rune hrune
  cases tok with
  | num | word => simp [Tok.openEnded] at h
  | lbrace | rbrace | lbrack | rbrack | colon | comma | str =>
      cases hrune
      exact ⟨_, rfl, by decide, by decide⟩

/-- White space ends a number or a word. -/
theorem delimited_space {b : UInt8} (h : isSpace b) (rest : List Rune) :
    Delimited (.one b :: rest) := by
  intro rune hrune
  cases hrune
  simp only [isSpace, Bool.or_eq_true, beq_iff_eq] at h
  refine ⟨b, rfl, ?_⟩
  rcases h with ((rfl | rfl) | rfl) | rfl <;> decide

/-- White space between tokens is kept. -/
theorem lexFrom_space {more : Bytes} (h : more.all isSpace) (space : Bytes) (rest : List Rune) :
    lexFrom (.out space) (ones more ++ rest) = lexFrom (.out (space ++ more)) rest := by
  induction more generalizing space with
  | nil => simp
  | cons b more ih =>
      simp only [List.all_cons, Bool.and_eq_true] at h
      have hstep : Scan.step (.out space) (.one b) = some ([], .out (space ++ [b])) := by
        simp [Scan.step, Scan.start, h.1]
      rw [ones_cons, List.cons_append, lexFrom_silent hstep, ih h.2, List.append_assoc,
        List.singleton_append]

/-- Lexemes whose tokens do not run into each other are read back. -/
theorem lexFrom_lexemes {lexemes : List Lexeme} (h : ∀ l ∈ lexemes, l.Sound)
    (hsep : Separated (lexemes.map Lexeme.tok)) :
    lexFrom (.out []) (lexemes.flatMap Lexeme.runes) = some lexemes := by
  induction lexemes with
  | nil => rfl
  | cons l rest ih =>
      have hrest : l.tok.openEnded → Delimited (rest.flatMap Lexeme.runes) := by
        intro hopen
        cases rest with
        | nil => simp [Delimited]
        | cons next rest =>
            have hnext : ¬ next.tok.openEnded := fun hnext =>
              (List.isChain_cons_cons.mp hsep).1 ⟨hopen, hnext⟩
            have hsound := (h next (by simp)).1
            rw [List.flatMap_cons, Lexeme.runes]
            cases hspace : next.space with
            | nil =>
                rw [ones_nil, List.nil_append]
                exact delimited_runes hnext _
            | cons b more =>
                rw [hspace, List.all_cons, Bool.and_eq_true] at hsound
                exact delimited_space hsound.1 _
      obtain ⟨hspace, hprintable⟩ := h l (by simp)
      rw [List.flatMap_cons, Lexeme.runes, List.append_assoc, lexFrom_space hspace,
        List.nil_append, lexFrom_tok hprintable hrest,
        ih (fun other hother => h other (by simp [hother])) hsep.tail]
      rfl

/-- The strings of a token are read back as they are. -/
def Tok.Clean : Tok → Prop
  | .str items => Text.Clean (items.flatMap StrItem.runes)
  | _ => True

/-- ASCII bytes in front of runes do not matter for whether these are read back. -/
theorem clean_ones_append {ascii : Bytes} (h : ∀ b ∈ ascii, b < 0x80) (rest : List Rune) :
    Text.Clean (ones ascii ++ rest) ↔ Text.Clean rest := by
  induction ascii with
  | nil => rfl
  | cons b ascii ih =>
      have hb : (Rune.one b).WellFormed := by simpa [Rune.WellFormed] using h b (by simp)
      have hcons := @clean_append_cons [] (ones ascii ++ rest) (.one b) hb
      rw [List.nil_append] at hcons
      rw [ones_cons, List.cons_append, hcons, ih fun c hc => h c (by simp [hc])]
      exact and_iff_right rfl

/-- Number characters are ASCII. -/
theorem isNumChar_lt {b : UInt8} (h : isNumChar b) : b < 0x80 := by
  simp only [isNumChar, isDigit, Bool.or_eq_true, Bool.and_eq_true, decide_eq_true_eq,
    UInt8.le_iff_toNat_le, UInt8.lt_iff_toNat_lt, beq_iff_eq, ← UInt8.toNat_inj] at h ⊢
  simp at h ⊢
  omega

/-- A token in front of runes is read back with them. -/
theorem clean_tok_append {tok : Tok} (h : tok.Printable) (rest : List Rune) :
    Text.Clean (tok.runes ++ rest) ↔ tok.Clean ∧ Text.Clean rest := by
  cases tok with
  | lbrace | rbrace | lbrack | rbrack | colon | comma =>
      simp only [Tok.runes, Tok.Clean, true_and]
      exact clean_ones_append (ascii_of_all (by decide)) rest
  | str items =>
      simp only [Tok.runes, Tok.Clean, List.append_assoc]
      rw [clean_ones_append (ascii_of_all (by decide))]
      exact clean_append_cons (by decide)
  | num literal =>
      simp only [Tok.runes, Tok.Clean, true_and]
      refine clean_ones_append (fun b hb => ?_) rest
      exact isNumChar_lt (List.all_eq_true.mp (isNumber_chars h).1 b hb)
  | word w =>
      simp only [Tok.runes, Tok.Clean, true_and]
      refine clean_ones_append (ascii_of_all ?_) rest
      cases w <;> decide

/-- White space is ASCII. -/
theorem isSpace_lt {b : UInt8} (h : isSpace b) : b < 0x80 := by
  simp only [isSpace, Bool.or_eq_true, beq_iff_eq] at h
  rcases h with ((rfl | rfl) | rfl) | rfl <;> decide

/-- A lexeme in front of runes is read back with them. -/
theorem clean_lexeme_append {l : Lexeme} (h : l.Sound) (rest : List Rune) :
    Text.Clean (l.runes ++ rest) ↔ l.tok.Clean ∧ Text.Clean rest := by
  have hspace : ∀ b ∈ l.space, b < 0x80 := fun b hb => isSpace_lt (List.all_eq_true.mp h.1 b hb)
  rw [Lexeme.runes, List.append_assoc, clean_ones_append hspace, clean_tok_append h.2]

/-- Lexemes are read back when their strings are. -/
theorem clean_lexemes {lexemes : List Lexeme} (h : ∀ l ∈ lexemes, l.Sound)
    (hclean : ∀ l ∈ lexemes, l.tok.Clean) : Text.Clean (lexemes.flatMap Lexeme.runes) := by
  induction lexemes with
  | nil => rfl
  | cons l rest ih =>
      rw [List.flatMap_cons, clean_lexeme_append (h l (by simp))]
      exact ⟨hclean l (by simp), ih (fun other hother => h other (by simp [hother]))
        fun other hother => hclean other (by simp [hother])⟩

/-- The strings of a text that was read are read back. -/
theorem lex_clean {raw : Bytes} {lexemes : List Lexeme} (h : lex raw = some lexemes) :
    ∀ l ∈ lexemes, l.tok.Clean := by
  obtain ⟨⟨tail, hraw, _⟩, hsound⟩ := lex_sound h
  have hclean : Text.Clean (lexemes.flatMap Lexeme.runes ++ ones tail) := hraw ▸ clean_decode raw
  clear h hraw
  induction lexemes with
  | nil => simp
  | cons l rest ih =>
      rw [List.flatMap_cons, List.append_assoc, clean_lexeme_append (hsound l (by simp))] at hclean
      simp only [List.mem_cons, forall_eq_or_imp]
      exact ⟨hclean.1, ih (fun other hother => hsound other (by simp [hother])) hclean.2⟩

/-- A run of lexemes without the white space in front of the first. -/
def trimHead : List Lexeme → List Lexeme
  | [] => []
  | first :: rest => ⟨[], first.tok⟩ :: rest

theorem map_tok_trimHead (lexemes : List Lexeme) :
    (trimHead lexemes).map Lexeme.tok = lexemes.map Lexeme.tok := by
  cases lexemes <;> rfl

theorem slice_eq (lexemes : List Lexeme) :
    slice lexemes = flat ((trimHead lexemes).flatMap Lexeme.runes) := by
  have hrunes : ∀ rest : List Lexeme, (rest.flatMap fun l => l.space ++ l.tok.bytes) =
      flat (rest.flatMap Lexeme.runes) := by
    intro rest
    induction rest with
    | nil => rfl
    | cons l rest ih =>
        rw [List.flatMap_cons, List.flatMap_cons, flat_append, ih, Lexeme.runes, flat_append,
          flat_ones]
        rfl
  cases lexemes with
  | nil => rfl
  | cons first rest =>
      rw [slice, trimHead, List.flatMap_cons, flat_append, hrunes]
      rfl

/-- A run of lexemes is read back from its text. -/
theorem lex_slice {lexemes : List Lexeme} (h : ∀ l ∈ lexemes, l.Sound)
    (hclean : ∀ l ∈ lexemes, l.tok.Clean) (hsep : Separated (lexemes.map Lexeme.tok)) :
    lex (slice lexemes) = some (trimHead lexemes) := by
  have htrim : ∀ l ∈ trimHead lexemes, l.Sound ∧ l.tok.Clean := by
    intro l hl
    cases lexemes with
    | nil => cases hl
    | cons first rest =>
        rcases List.mem_cons.mp hl with rfl | hl
        · exact ⟨⟨rfl, (h first (by simp)).2⟩, hclean first (by simp)⟩
        · exact ⟨h l (by simp [hl]), hclean l (by simp [hl])⟩
  have hread : Text.Clean ((trimHead lexemes).flatMap Lexeme.runes) :=
    clean_lexemes (fun l hl => (htrim l hl).1) fun l hl => (htrim l hl).2
  rw [lex, slice_eq, hread, lexFrom_lexemes fun l hl => (htrim l hl).1]
  rwa [map_tok_trimHead]

/-- A token without white space in front of it. -/
def bare (tok : Tok) : Lexeme := ⟨[], tok⟩

/-- The text of bare tokens. -/
theorem slice_bare (toks : List Tok) : slice (toks.map bare) = text toks := by
  cases toks with
  | nil => rfl
  | cons tok rest =>
      rw [List.map_cons, slice, text, List.flatMap_cons, List.flatMap_map]
      rfl

theorem map_tok_bare (toks : List Tok) : (toks.map bare).map Lexeme.tok = toks := by
  simp [bare, Function.comp_def]

/-- Tokens written without white space are read back. -/
theorem lex_text {toks : List Tok} (h : ∀ tok ∈ toks, tok.Printable)
    (hclean : ∀ tok ∈ toks, tok.Clean) (hsep : Separated toks) :
    lex (text toks) = some (toks.map bare) := by
  rw [← slice_bare, lex_slice ?_ ?_ (by rwa [map_tok_bare])]
  · cases toks <;> rfl
  · intro l hl
    obtain ⟨tok, htok, rfl⟩ := List.mem_map.mp hl
    exact ⟨rfl, h tok htok⟩
  · intro l hl
    obtain ⟨tok, htok, rfl⟩ := List.mem_map.mp hl
    exact hclean tok htok

end Iot.Json
