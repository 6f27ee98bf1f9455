import Iot.Json.Token

/-!
# What string literals stand for

`unquote` gives the bytes a literal stands for and `quote` the literal `json.Marshal` writes for
a byte string: control characters, quotes and backslashes escaped, `<`, `>`, `&` and the line
separators U+2028 and U+2029 escaped as `SetEscapeHTML` asks, and the three bytes of U+FFFD for
each byte that is not UTF-8.
-/

namespace Iot.Json

open Text

/-- The value of a hexadecimal digit. -/
def hexValue (b : UInt8) : Nat :=
  if isDigit b then b.toNat - 0x30
  else if 0x61 ≤ b then b.toNat - 0x61 + 10
  else b.toNat - 0x41 + 10

/-- The value of four hexadecimal digits. -/
def hex4 (h0 h1 h2 h3 : UInt8) : Nat :=
  ((hexValue h0 * 16 + hexValue h1) * 16 + hexValue h2) * 16 + hexValue h3

/-- A UTF-16 surrogate. -/
def isSurrogate (u : Nat) : Bool := 0xD800 ≤ u && u ≤ 0xDFFF

/-- The first half of a surrogate pair. -/
def isHighSurrogate (u : Nat) : Bool := 0xD800 ≤ u && u ≤ 0xDBFF

/-- The second half of a surrogate pair. -/
def isLowSurrogate (u : Nat) : Bool := 0xDC00 ≤ u && u ≤ 0xDFFF

/-- The code point of a surrogate pair. -/
def pairCode (high low : Nat) : Nat := 0x10000 + (high - 0xD800) * 1024 + (low - 0xDC00)

/-- The byte a one-letter escape stands for. -/
def escapeByte (c : UInt8) : UInt8 :=
  if c = 0x62 then 0x08
  else if c = 0x66 then 0x0C
  else if c = 0x6E then 0x0A
  else if c = 0x72 then 0x0D
  else if c = 0x74 then 0x09
  else c

/-- The bytes of a rune in a literal; a byte that is not UTF-8 is read as U+FFFD. -/
def rawBytes : Rune → Bytes
  | .bad _ => replacement
  | rune => rune.bytes

/-- The bytes a string literal stands for. A surrogate escape that is not followed by its other
half is read as U+FFFD. -/
def unquote : List StrItem → Bytes
  | [] => []
  | .raw rune :: rest => rawBytes rune ++ unquote rest
  | .esc c :: rest => escapeByte c :: unquote rest
  | .uni a b c d :: .uni a' b' c' d' :: rest =>
      if isHighSurrogate (hex4 a b c d) && isLowSurrogate (hex4 a' b' c' d') then
        encodeRune (pairCode (hex4 a b c d) (hex4 a' b' c' d')) ++ unquote rest
      else encodeRune (hex4 a b c d) ++ unquote (.uni a' b' c' d' :: rest)
  | .uni a b c d :: rest => encodeRune (hex4 a b c d) ++ unquote rest

/-- A lower-case hexadecimal digit. -/
def hexDigit (n : Nat) : UInt8 := if n < 10 then (0x30 + n).toUInt8 else (0x61 + (n - 10)).toUInt8

/-- The `\u00XX` escape of an ASCII byte. -/
def hexEscape (b : UInt8) : StrItem :=
  .uni 0x30 0x30 (hexDigit (b.toNat / 16)) (hexDigit (b.toNat % 16))

/-- The characters `json.Marshal` escapes so that the text can stand in HTML. -/
def isHtmlChar (b : UInt8) : Bool := b == 0x3C || b == 0x3E || b == 0x26

/-- The element `json.Marshal` writes for one rune of a string. -/
def quoteRune : Rune → StrItem
  | .one b =>
      if b = 0x22 ∨ b = 0x5C then .esc b
      else if b = 0x08 then .esc 0x62
      else if b = 0x0C then .esc 0x66
      else if b = 0x0A then .esc 0x6E
      else if b = 0x0D then .esc 0x72
      else if b = 0x09 then .esc 0x74
      else if b < 0x20 ∨ isHtmlChar b then hexEscape b
      else .raw (.one b)
  | .three b0 b1 b2 =>
      if b0 = 0xE2 ∧ b1 = 0x80 ∧ (b2 = 0xA8 ∨ b2 = 0xA9) then
        .uni 0x32 0x30 0x32 (hexDigit (b2.toNat % 16))
      else .raw (.three b0 b1 b2)
  | .bad _ => .raw (.three 0xEF 0xBF 0xBD)
  | rune => .raw rune

/-- The string literal `json.Marshal` writes. -/
def quote (s : Bytes) : List StrItem := (decode s).map quoteRune

/-- The escapes `json.Compact` adds to a literal it copies into HTML-safe output: only `<`, `>`,
`&` and the line separators change. -/
def escapeItem : StrItem → StrItem
  | .raw (.one b) => if isHtmlChar b then hexEscape b else .raw (.one b)
  | .raw (.three b0 b1 b2) =>
      if b0 = 0xE2 ∧ b1 = 0x80 ∧ (b2 = 0xA8 ∨ b2 = 0xA9) then
        .uni 0x32 0x30 0x32 (hexDigit (b2.toNat % 16))
      else .raw (.three b0 b1 b2)
  | item => item

/-- A token as HTML-safe output has it. -/
def escapeTok : Tok → Tok
  | .str items => .str (items.map escapeItem)
  | tok => tok

/-- The text `json.Marshal` writes for a raw value it is handed: white space between tokens
dropped, strings made HTML-safe. -/
def compact (lexemes : List Lexeme) : Bytes := text (lexemes.map fun l => escapeTok l.tok)

end Iot.Json
