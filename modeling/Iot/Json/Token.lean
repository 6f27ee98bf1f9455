import Iot.Text.Strings

/-!
# Tokens of a JSON text

`lex` cuts a text into tokens and keeps the white space in front of each, so the text of any
run of tokens can be written out again (`Lexeme.text`). The lexer is a machine that reads one
rune at a time. Strings keep their escapes as written, numbers their literal: what they stand
for is computed from the token (`unquote`), never by the lexer.

A number is the longest run of characters a number may contain, and a word the longest run of
lower-case letters. A text in which such a run is not a number or a word is not JSON, so this
accepts the same texts as a scanner that stops inside the run.
-/

namespace Iot.Json

open Text

/-- One element of a string literal: a rune as it stands, a one-letter escape, or a `\u`
escape with its four digits. -/
inductive StrItem where
  | raw (rune : Rune)
  | esc (c : UInt8)
  | uni (h0 h1 h2 h3 : UInt8)
  deriving DecidableEq, Repr

/-- The words of JSON. -/
inductive Word where
  | tru
  | fls
  | nul
  deriving DecidableEq, Repr

/-- A JSON token. -/
inductive Tok where
  | lbrace
  | rbrace
  | lbrack
  | rbrack
  | colon
  | comma
  | str (items : List StrItem)
  | num (literal : Bytes)
  | word (w : Word)
  deriving DecidableEq, Repr

/-- A token together with the white space in front of it. -/
structure Lexeme where
  space : Bytes
  tok : Tok
  deriving DecidableEq, Repr

/-- The text of a word. -/
def Word.bytes : Word → Bytes
  | .tru => ascii "true"
  | .fls => ascii "false"
  | .nul => ascii "null"

/-- The runes of an ASCII text. -/
def ones (text : Bytes) : List Rune := text.map .one

/-- The runes a string element is written with. -/
def StrItem.runes : StrItem → List Rune
  | .raw rune => [rune]
  | .esc c => ones [0x5C, c]
  | .uni h0 h1 h2 h3 => ones [0x5C, 0x75, h0, h1, h2, h3]

/-- The runes a token is written with. -/
def Tok.runes : Tok → List Rune
  | .lbrace => ones [0x7B]
  | .rbrace => ones [0x7D]
  | .lbrack => ones [0x5B]
  | .rbrack => ones [0x5D]
  | .colon => ones [0x3A]
  | .comma => ones [0x2C]
  | .str items => ones [0x22] ++ items.flatMap StrItem.runes ++ ones [0x22]
  | .num literal => ones literal
  | .word w => ones w.bytes

/-- The text of a token. -/
def Tok.bytes (tok : Tok) : Bytes := flat tok.runes

/-- The text of tokens written without white space. -/
def text (toks : List Tok) : Bytes := toks.flatMap Tok.bytes

/-- The text of a run of lexemes, without the white space in front of the first. -/
def slice : List Lexeme → Bytes
  | [] => []
  | first :: rest => first.tok.bytes ++ rest.flatMap fun l => l.space ++ l.tok.bytes

/-- White space between tokens. -/
def isSpace (b : UInt8) : Bool := b == 0x20 || b == 0x09 || b == 0x0A || b == 0x0D

/-- A decimal digit. -/
def isDigit (b : UInt8) : Bool := 0x30 ≤ b && b ≤ 0x39

/-- A hexadecimal digit. -/
def isHex (b : UInt8) : Bool :=
  isDigit b || (0x61 ≤ b && b ≤ 0x66) || (0x41 ≤ b && b ≤ 0x46)

/-- A character that may stand in a number. -/
def isNumChar (b : UInt8) : Bool :=
  isDigit b || b == 0x2B || b == 0x2D || b == 0x2E || b == 0x65 || b == 0x45

/-- A lower-case letter. -/
def isLower (b : UInt8) : Bool := 0x61 ≤ b && b ≤ 0x7A

/-- The letters a one-letter escape may have. -/
def isEscape (b : UInt8) : Bool := [0x22, 0x5C, 0x2F, 0x62, 0x66, 0x6E, 0x72, 0x74].contains b

/-- One digit or more. -/
def isDigits (s : Bytes) : Bool := !s.isEmpty && s.all isDigit

/-- An exponent without its letter: an optional sign, then digits. -/
def isExponent : Bytes → Bool
  | 0x2B :: digits => isDigits digits
  | 0x2D :: digits => isDigits digits
  | digits => isDigits digits

/-- What may follow the integer digits of a number: a fraction and an exponent, both optional. -/
def isNumTail (s : Bytes) : Bool :=
  let exponent : Bytes → Bool := fun s =>
    match s with
    | [] => true
    | c :: rest => (c == 0x65 || c == 0x45) && isExponent rest
  match s with
  | 0x2E :: rest => isDigits (rest.takeWhile isDigit) && exponent (rest.dropWhile isDigit)
  | s => exponent s

/-- A JSON number without its sign: no superfluous leading zero. -/
def isUnsigned : Bytes → Bool
  | [] => false
  | 0x30 :: rest => isNumTail rest
  | c :: rest => isDigit c && isNumTail (rest.dropWhile isDigit)

/-- A JSON number. -/
def isNumber : Bytes → Bool
  | 0x2D :: rest => isUnsigned rest
  | s => isUnsigned s

/-- The word a run of letters spells. -/
def word? (s : Bytes) : Option Word :=
  if s = Word.bytes .tru then some .tru
  else if s = Word.bytes .fls then some .fls
  else if s = Word.bytes .nul then some .nul
  else none

/-- What the lexer has read of the current token, after the white space in front of it. -/
inductive Scan where
  | out (space : Bytes)
  | str (space : Bytes) (items : List StrItem)
  | esc (space : Bytes) (items : List StrItem)
  | uni (space : Bytes) (items : List StrItem) (digits : Bytes)
  | num (space literal : Bytes)
  | word (space letters : Bytes)
  deriving DecidableEq, Repr

/-- Read one rune between tokens. -/
def Scan.start (space : Bytes) : Rune → Option (List Lexeme × Scan)
  | .one b =>
      if isSpace b then some ([], .out (space ++ [b]))
      else if b = 0x7B then some ([⟨space, .lbrace⟩], .out [])
      else if b = 0x7D then some ([⟨space, .rbrace⟩], .out [])
      else if b = 0x5B then some ([⟨space, .lbrack⟩], .out [])
      else if b = 0x5D then some ([⟨space, .rbrack⟩], .out [])
      else if b = 0x3A then some ([⟨space, .colon⟩], .out [])
      else if b = 0x2C then some ([⟨space, .comma⟩], .out [])
      else if b = 0x22 then some ([], .str space [])
      else if b = 0x2D ∨ isDigit b then some ([], .num space [b])
      else if isLower b then some ([], .word space [b])
      else none
  | _ => none

/-- The lexeme of a finished run of number characters or letters. -/
def Scan.close : Scan → Option (List Lexeme)
  | .out _ => some []
  | .num space literal => if isNumber literal then some [⟨space, .num literal⟩] else none
  | .word space letters => (word? letters).map fun w => [⟨space, .word w⟩]
  | _ => none

/-- Read one rune. A number or a word ends at the first character that cannot continue it, and
that character then starts the next token. -/
def Scan.step (scan : Scan) (rune : Rune) : Option (List Lexeme × Scan) :=
  match scan with
  | .out space => Scan.start space rune
  | .str space items =>
      match rune with
      | .one b =>
          if b = 0x22 then some ([⟨space, .str items⟩], .out [])
          else if b = 0x5C then some ([], .esc space items)
          else if b < 0x20 then none
          else some ([], .str space (items ++ [.raw rune]))
      | _ => some ([], .str space (items ++ [.raw rune]))
  | .esc space items =>
      match rune with
      | .one b =>
          if b = 0x75 then some ([], .uni space items [])
          else if isEscape b then some ([], .str space (items ++ [.esc b]))
          else none
      | _ => none
  | .uni space items digits =>
      match rune with
      | .one b =>
          if isHex b then
            match digits with
            | [h0, h1, h2] => some ([], .str space (items ++ [.uni h0 h1 h2 b]))
            | _ => some ([], .uni space items (digits ++ [b]))
          else none
      | _ => none
  | .num space literal =>
      match rune with
      | .one b =>
          if isNumChar b then some ([], .num space (literal ++ [b]))
          else do
            let done ← scan.close
            let (opened, next) ← Scan.start [] rune
            pure (done ++ opened, next)
      | _ => none
  | .word space letters =>
      match rune with
      | .one b =>
          if isLower b then some ([], .word space (letters ++ [b]))
          else do
            let done ← scan.close
            let (opened, next) ← Scan.start [] rune
            pure (done ++ opened, next)
      | _ => none

/-- Read a text from a lexer state to its end. -/
def lexFrom (scan : Scan) : List Rune → Option (List Lexeme)
  | [] => scan.close
  | rune :: rest => do
      let (done, next) ← scan.step rune
      let more ← lexFrom next rest
      pure (done ++ more)

/-- The tokens of a text. -/
def lex (raw : Bytes) : Option (List Lexeme) := lexFrom (.out []) (decode raw)

end Iot.Json
