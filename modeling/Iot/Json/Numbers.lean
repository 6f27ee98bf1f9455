import Iot.Json.Object
import Iot.Json.Printing

/-!
# Integers survive being written

`decimal` writes an integer as a JSON number (`decimal_printable`) that reads as the integer
(`intLiteral_decimal`).
-/

namespace Iot.Json

open Text

/-- The decimal digits of a natural number. -/
def digits (n : Nat) : Bytes := (Nat.toDigits 10 n).map fun c => c.toNat.toUInt8

/-- The digit of a number below ten. -/
theorem digits_of_lt {n : Nat} (h : n < 10) : digits n = [(0x30 + n).toUInt8] := by
  have hall : ∀ m : Fin 10, digits m = [(0x30 + m.val).toUInt8] := by decide
  exact hall ⟨n, h⟩

/-- The last digit of a larger number is that of its remainder. -/
theorem digits_of_le {n : Nat} (h : 10 ≤ n) : digits n = digits (n / 10) ++ digits (n % 10) := by
  rw [digits, Nat.toDigits_of_base_le (by decide) h, List.map_append, digits, digits,
    Nat.toDigits_of_lt_base (Nat.mod_lt n (by decide)), List.map_singleton]

/-- The value of digits is read from the left. -/
theorem digitsValue_append_singleton (s : Bytes) (b : UInt8) :
    digitsValue (s ++ [b]) = digitsValue s * 10 + (b.toNat - 0x30) := by
  rw [digitsValue, List.foldl_append]
  rfl

/-- A digit below ten as a byte. -/
theorem toNat_digit {n : Nat} (h : n < 10) : (0x30 + n).toUInt8.toNat = 0x30 + n := by
  have hall : ∀ m : Fin 10, (0x30 + m.val).toUInt8.toNat = 0x30 + m.val := by decide
  exact hall ⟨n, h⟩

/-- The digits of a number have its value. -/
theorem digitsValue_digits (n : Nat) : digitsValue (digits n) = n := by
  induction n using Nat.strongRecOn with
  | ind n ih =>
      by_cases h : n < 10
      · rw [digits_of_lt h]
        have hvalue := digitsValue_append_singleton [] (0x30 + n).toUInt8
        rw [List.nil_append, toNat_digit h] at hvalue
        rw [hvalue, show digitsValue [] = 0 from rfl]
        omega
      · have hmod : n % 10 < 10 := Nat.mod_lt n (by decide)
        rw [digits_of_le (not_lt.mp h), digits_of_lt hmod, digitsValue_append_singleton,
          ih (n / 10) (by omega), toNat_digit hmod]
        omega

/-- The digits of a number are digits, and a leading zero stands alone. -/
theorem digits_eq_cons (n : Nat) :
    (digits n).all isDigit ∧ ∃ c rest, digits n = c :: rest ∧ (c = 0x30 → rest = []) ∧
      (0 < n → c ≠ 0x30) := by
  induction n using Nat.strongRecOn with
  | ind n ih =>
      have hdigit : ∀ m : Fin 10, isDigit (0x30 + m.val).toUInt8 ∧
          (0 < m.val → (0x30 + m.val).toUInt8 ≠ 0x30) := by decide
      by_cases h : n < 10
      · obtain ⟨hall, hzero⟩ := hdigit ⟨n, h⟩
        rw [digits_of_lt h]
        exact ⟨by rw [List.all_cons, hall]; rfl, _, [], rfl, fun _ => rfl, hzero⟩
      · have hmod : n % 10 < 10 := Nat.mod_lt n (by decide)
        obtain ⟨hall, c, rest, hcons, _, hzero⟩ := ih (n / 10) (by omega)
        rw [digits_of_le (not_lt.mp h), digits_of_lt hmod, hcons]
        rw [hcons] at hall
        refine ⟨?_, c, _, rfl, fun hc => absurd hc (hzero (by omega)), fun _ => hzero (by omega)⟩
        rw [List.all_append, hall, List.all_cons, (hdigit ⟨n % 10, hmod⟩).1]
        rfl

/-- The digits of a number are a number without a sign. -/
theorem isUnsigned_digits (n : Nat) : isUnsigned (digits n) := by
  obtain ⟨hall, c, rest, hcons, hzero, _⟩ := digits_eq_cons n
  rw [hcons] at hall ⊢
  simp only [List.all_cons, Bool.and_eq_true] at hall
  unfold isUnsigned
  split
  · contradiction
  · next _ heq =>
    cases heq
    rw [hzero rfl]
    rfl
  · next heq =>
    cases heq
    have hdrop : rest.dropWhile isDigit = [] := by
      rw [List.dropWhile_eq_nil_iff]
      exact fun b hb => List.all_eq_true.mp hall.2 b hb
    rw [hall.1, hdrop]
    rfl

/-- The digits of a number are one digit or more. -/
theorem isDigits_digits (n : Nat) : isDigits (digits n) := by
  obtain ⟨hall, c, rest, hcons, _⟩ := digits_eq_cons n
  rw [isDigits, hall, hcons]
  rfl

/-- The text of an integer is the digits of its size, after a minus sign when it is negative. -/
theorem decimal_eq (value : Int) :
    decimal value = (if value < 0 then [0x2D] else []) ++ digits value.natAbs := by
  rw [decimal, digits]
  split <;> rfl

/-- Digits do not start with a minus sign. -/
theorem digits_ne_minus (n : Nat) (rest : Bytes) : digits n ≠ 0x2D :: rest := by
  intro h
  have hall := (digits_eq_cons n).1
  rw [h] at hall
  exact absurd (List.all_eq_true.mp hall 0x2D (by simp)) (by decide)

/-- The text of an integer is a JSON number. -/
theorem isNumber_decimal (value : Int) : isNumber (decimal value) := by
  rw [decimal_eq]
  split
  · exact isUnsigned_digits _
  · rw [List.nil_append]
    unfold isNumber
    split
    · next _ heq => exact absurd heq (digits_ne_minus _ _)
    · exact isUnsigned_digits _

/-- The text of an integer reads as the integer. -/
theorem intLiteral_decimal (value : Int) : intLiteral (decimal value) = some value := by
  rw [decimal_eq]
  split
  · next hnegative =>
    rw [List.singleton_append, intLiteral, if_pos (isDigits_digits _), digitsValue_digits]
    congr 1
    omega
  · next hpositive =>
    rw [List.nil_append]
    unfold intLiteral
    split
    · next _ heq => exact absurd heq (digits_ne_minus _ _)
    · rw [if_pos (isDigits_digits _), digitsValue_digits]
      congr 1
      omega

/-- The token of an integer can be printed and is read back. -/
theorem intTok_printable (value : Int) :
    (Tok.num (decimal value)).Printable ∧ (Tok.num (decimal value)).Clean :=
  ⟨isNumber_decimal value, trivial⟩

/-- Decimal notation tells numbers apart. -/
theorem decimal_injective {value other : Int} (h : decimal value = decimal other) :
    value = other := by
  have hvalue := intLiteral_decimal value
  rw [h, intLiteral_decimal other] at hvalue
  exact (Option.some.inj hvalue).symm

end Iot.Json
