import Iot.Text.Strings

/-!
# Instants and their RFC 3339 text

An instant is a number of nanoseconds since 1970-01-01T00:00:00Z. `rfc3339Nano` writes it in UTC
as `time.Time` does in JSON and `rfc3339NanoAt` at an offset. `parseZoned` reads a text as
`time.Parse` does, which is less strict than RFC 3339, and keeps the offset the text was written
with; `parseRFC3339` is the instant alone.
-/

namespace Iot.Text

/-- An instant, or a length of time, in nanoseconds. -/
abbrev Time := Int

/-- One second. -/
def second : Time := 1000000000

/-- A day of the proleptic Gregorian calendar. -/
structure Date where
  year : Int
  month : Int
  day : Int
  deriving DecidableEq, Repr

/-- A leap year. -/
def isLeap (year : Int) : Bool := year % 4 == 0 && (year % 100 != 0 || year % 400 == 0)

/-- The number of days of a month. -/
def daysIn (year month : Int) : Int :=
  if month = 2 then (if isLeap year then 29 else 28)
  else if month = 4 ∨ month = 6 ∨ month = 9 ∨ month = 11 then 30
  else 31

/-- The year, counted from March, and the day of that year that lie `days` after 1970-01-01. As
in `time.Time` the days are split into cycles of 400, 100, 4 and single years; the last of the
shorter cycles may be a day longer than the others. -/
def toMarch (days : Int) : Int × Int :=
  let z := days + 719468
  let era := z / 146097
  let doe := z % 146097
  let century := min 3 (doe / 36524)
  let doc := doe - 36524 * century
  let quad := doc / 1461
  let doq := doc - 1461 * quad
  let year := min 3 (doq / 365)
  (400 * era + 100 * century + 4 * quad + year, doq - 365 * year)

/-- The number of days from 1970-01-01 to a day of a year counted from March. -/
def fromMarch (year doy : Int) : Int :=
  let yoe := year % 400
  year / 400 * 146097 + (yoe * 365 + yoe / 4 - yoe / 100 + doy) - 719468

/-- The calendar day that lies `days` after 1970-01-01. -/
def civil (days : Int) : Date :=
  let (year, doy) := toMarch days
  let mp := (5 * doy + 2) / 153
  let day := doy - (153 * mp + 2) / 5 + 1
  if mp < 10 then ⟨year, mp + 3, day⟩ else ⟨year + 1, mp - 9, day⟩

/-- The number of days from 1970-01-01 to a calendar day. -/
def daysFromCivil (date : Date) : Int :=
  let year := if date.month ≤ 2 then date.year - 1 else date.year
  let mp := if date.month ≤ 2 then date.month + 9 else date.month - 3
  fromMarch year ((153 * mp + 2) / 5 + date.day - 1)

/-- The digit character of a number below ten. -/
def digit (n : Int) : UInt8 := (0x30 + n.toNat % 10).toUInt8

/-- Two decimal digits. -/
def pad2 (n : Int) : Bytes := [digit (n / 10), digit n]

/-- Four decimal digits. -/
def pad4 (n : Int) : Bytes := [digit (n / 1000), digit (n / 100), digit (n / 10), digit n]

/-- Nine decimal digits. -/
def pad9 (n : Int) : Bytes :=
  [digit (n / 100000000), digit (n / 10000000), digit (n / 1000000), digit (n / 100000),
    digit (n / 10000), digit (n / 1000), digit (n / 100), digit (n / 10), digit n]

/-- The fraction of a second, without trailing zeros and empty when there is none. -/
def fraction (nanos : Int) : Bytes :=
  if nanos = 0 then []
  else 0x2E :: ((pad9 nanos).reverse.dropWhile (· == 0x30)).reverse

/-- `time.RFC3339Nano` in UTC. A year that does not have four digits is an error in JSON. -/
def rfc3339Nano (t : Time) : Option Bytes :=
  let seconds := t / second
  let date := civil (seconds / 86400)
  let clock := seconds % 86400
  if 0 ≤ date.year ∧ date.year ≤ 9999 then
    some (pad4 date.year ++ ascii "-" ++ pad2 date.month ++ ascii "-" ++ pad2 date.day ++
      ascii "T" ++ pad2 (clock / 3600) ++ ascii ":" ++ pad2 (clock / 60 % 60) ++ ascii ":" ++
      pad2 (clock % 60) ++ fraction (t % second) ++ ascii "Z")
  else none

/-- The end of a timestamp at an offset from UTC in seconds, of which the minutes are written. -/
def zoneSuffix (offset : Int) : Bytes :=
  if offset = 0 then ascii "Z"
  else
    let zone := offset.tdiv 60
    ascii (if zone < 0 then "-" else "+") ++ pad2 (zone.natAbs / 60) ++ ascii ":" ++
      pad2 (zone.natAbs % 60)

/-- `time.RFC3339Nano` at an offset: the local clock, then the offset. -/
def rfc3339NanoAt (offset : Int) (t : Time) : Option Bytes :=
  (rfc3339Nano (t + offset * second)).map fun clock => clock.dropLast ++ zoneSuffix offset

/-- A run of exactly `count` decimal digits at the head of a text. -/
def takeDigits (count : Nat) (s : Bytes) : Option (Int × Bytes) :=
  if (s.take count).length = count ∧ (s.take count).all (fun b => 0x30 ≤ b && b ≤ 0x39) then
    some (digitsValue (s.take count), s.drop count)
  else none

/-- One given byte at the head of a text. -/
def takeByte (b : UInt8) : Bytes → Option Bytes
  | c :: rest => if c = b then some rest else none
  | [] => none

/-- A number of one or two decimal digits at the head of a text. -/
def takeNumber (s : Bytes) : Option (Int × Bytes) := (takeDigits 2 s).or (takeDigits 1 s)

/-- An optional fraction of a second, after a period or a comma; digits past the ninth are
dropped. -/
def takeFraction : Bytes → Option (Int × Bytes)
  | [] => some (0, [])
  | mark :: rest =>
      if mark = 0x2E ∨ mark = 0x2C then
        let digits := rest.takeWhile (fun b => 0x30 ≤ b && b ≤ 0x39)
        if digits.isEmpty then none
        else some (digitsValue ((digits ++ List.replicate 9 0x30).take 9),
          rest.dropWhile (fun b => 0x30 ≤ b && b ≤ 0x39))
      else some (0, mark :: rest)

/-- A numeric offset at the end of a timestamp, in seconds. Offsets of 24 hours and of 60 minutes
are written by some and are read. -/
def takeNumericOffset : Bytes → Option Int
  | sign :: rest => do
      let (hours, rest) ← takeDigits 2 rest
      let rest ← takeByte 0x3A rest
      let (minutes, rest) ← takeDigits 2 rest
      if rest = [] ∧ hours ≤ 24 ∧ minutes ≤ 60 then
        if sign = 0x2B then some (hours * 3600 + minutes * 60)
        else if sign = 0x2D then some (-(hours * 3600 + minutes * 60))
        else none
      else none
  | [] => none

/-- The offset at the end of a timestamp, in seconds. -/
def takeOffset (s : Bytes) : Option Int := if s = [0x5A] then some 0 else takeNumericOffset s

/-- `time.Parse` for `time.RFC3339` and `time.RFC3339Nano`, which read the same texts: the instant
and the offset of its zone. The hour may have one digit. -/
def parseZoned (s : Bytes) : Option (Time × Int) := do
  let (year, s) ← takeDigits 4 s
  let s ← takeByte 0x2D s
  let (month, s) ← takeDigits 2 s
  let s ← takeByte 0x2D s
  let (day, s) ← takeDigits 2 s
  let s ← takeByte 0x54 s
  let (hour, s) ← takeNumber s
  let s ← takeByte 0x3A s
  let (minute, s) ← takeDigits 2 s
  let s ← takeByte 0x3A s
  let (secs, s) ← takeDigits 2 s
  let (nanos, s) ← takeFraction s
  let offset ← takeOffset s
  if 1 ≤ month ∧ month ≤ 12 ∧ 1 ≤ day ∧ day ≤ daysIn year month ∧
      hour ≤ 23 ∧ minute ≤ 59 ∧ secs ≤ 59 then
    some ((daysFromCivil ⟨year, month, day⟩ * 86400 + hour * 3600 + minute * 60 + secs - offset)
      * second + nanos, offset)
  else none

/-- The instant of a timestamp. -/
def parseRFC3339 (s : Bytes) : Option Time := (parseZoned s).map Prod.fst

/-- The zero `time.Time`, 0001-01-01T00:00:00Z. -/
def zeroTime : Time := -62135596800 * second

example : rfc3339Nano zeroTime = some (ascii "0001-01-01T00:00:00Z") := by decide

example : rfc3339Nano 1709164799120000000 = some (ascii "2024-02-28T23:59:59.12Z") := by decide

example : parseZoned (ascii "2024-02-29T8:00:00,5+08:00") = some (1709164800500000000, 28800) := by
  decide

end Iot.Text
