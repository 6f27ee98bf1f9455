import Iot.Text.Utf8

/-!
# String operations of the Go library

`strings.TrimSpace`, `unicode.IsControl` and their relatives, over byte strings. They look at a
string rune by rune, as the library does, so a byte that is not UTF-8 counts as the replacement
character.
-/

namespace Iot.Text

/-- `unicode.IsControl`: the control characters all lie in Latin-1. -/
def Rune.isControl (rune : Rune) : Bool :=
  rune.code < 0x20 || (0x7F ≤ rune.code && rune.code < 0xA0)

/-- `unicode.IsSpace`. -/
def Rune.isSpace (rune : Rune) : Bool :=
  (0x09 ≤ rune.code && rune.code ≤ 0x0D) || (0x2000 ≤ rune.code && rune.code ≤ 0x200A) ||
    [0x20, 0x85, 0xA0, 0x1680, 0x2028, 0x2029, 0x202F, 0x205F, 0x3000].contains rune.code

/-- `strings.TrimSpace`: drop the space runes at both ends. -/
def trimSpace (text : Bytes) : Bytes :=
  flat ((((decode text).dropWhile Rune.isSpace).reverse.dropWhile Rune.isSpace).reverse)

/-- `strings.ContainsAny` for a set of ASCII bytes. -/
def containsAny (text chars : Bytes) : Bool := text.any chars.contains

/-- `strings.Cut`: what stands before and after the first separator byte. -/
def cut (text : Bytes) (separator : UInt8) : Bytes × Bytes × Bool :=
  (text.takeWhile (· ≠ separator), (text.dropWhile (· ≠ separator)).drop 1,
    text.contains separator)

/-- The bytes of U+FFFD, which the library writes for what it cannot read. -/
def replacement : Bytes := [0xEF, 0xBF, 0xBD]

/-- `utf8.AppendRune`: the UTF-8 bytes of a code point. Surrogates and values past U+10FFFF are
written as U+FFFD. -/
def encodeRune (code : Nat) : Bytes :=
  if code < 0x80 then [code.toUInt8]
  else if code < 0x800 then [(0xC0 + code / 64).toUInt8, (0x80 + code % 64).toUInt8]
  else if 0xD800 ≤ code ∧ code < 0xE000 then replacement
  else if code < 0x10000 then
    [(0xE0 + code / 4096).toUInt8, (0x80 + code / 64 % 64).toUInt8, (0x80 + code % 64).toUInt8]
  else if code < 0x110000 then
    [(0xF0 + code / 262144).toUInt8, (0x80 + code / 4096 % 64).toUInt8,
      (0x80 + code / 64 % 64).toUInt8, (0x80 + code % 64).toUInt8]
  else replacement

/-- `strconv.Itoa`: the decimal digits of a number, after a minus sign when it is negative. -/
def decimal (value : Int) : Bytes :=
  (if value < 0 then ascii "-" else []) ++
    (Nat.toDigits 10 value.natAbs).map fun c => c.toNat.toUInt8

/-- The value of a run of decimal digits. -/
def digitsValue (s : Bytes) : Nat := s.foldl (fun n b => n * 10 + (b.toNat - 0x30)) 0

/-- `strconv.Atoi`: an optional sign and decimal digits, of 64 bits. -/
def atoi (text : Bytes) : Option Int :=
  let (negative, digits) :=
    match text with
    | 0x2D :: digits => (true, digits)
    | 0x2B :: digits => (false, digits)
    | digits => (false, digits)
  let value : Int := if negative then -(digitsValue digits : Int) else digitsValue digits
  if digits ≠ [] ∧ digits.all (fun b => 0x30 ≤ b && b ≤ 0x39) ∧
      -9223372036854775808 ≤ value ∧ value ≤ 9223372036854775807 then some value
  else none

end Iot.Text
