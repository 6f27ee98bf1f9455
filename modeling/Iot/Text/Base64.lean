import Iot.Text.Strings

/-!
# Base64

The standard encoding with padding. `decode64` reads it as `encoding/base64` does: line breaks
are skipped, and nothing may follow the padding.
-/

namespace Iot.Text

/-- The character of a sextet. -/
def sextetChar (n : Nat) : UInt8 :=
  if n < 26 then (0x41 + n).toUInt8
  else if n < 52 then (0x61 + (n - 26)).toUInt8
  else if n < 62 then (0x30 + (n - 52)).toUInt8
  else if n = 62 then 0x2B
  else 0x2F

/-- The sextet of a character. -/
def charSextet (c : UInt8) : Option Nat :=
  if 0x41 ≤ c ∧ c ≤ 0x5A then some (c.toNat - 0x41)
  else if 0x61 ≤ c ∧ c ≤ 0x7A then some (c.toNat - 0x61 + 26)
  else if 0x30 ≤ c ∧ c ≤ 0x39 then some (c.toNat - 0x30 + 52)
  else if c = 0x2B then some 62
  else if c = 0x2F then some 63
  else none

/-- The four characters of the sextets of three bytes. -/
def quantum (a b c : Nat) : Bytes :=
  [sextetChar (a / 4), sextetChar (a % 4 * 16 + b / 16), sextetChar (b % 16 * 4 + c / 64),
    sextetChar (c % 64)]

/-- `StdEncoding.EncodeToString`. -/
def encode64 : Bytes → Bytes
  | [] => []
  | [a] => (quantum a.toNat 0 0).take 2 ++ [0x3D, 0x3D]
  | [a, b] => (quantum a.toNat b.toNat 0).take 3 ++ [0x3D]
  | a :: b :: c :: rest => quantum a.toNat b.toNat c.toNat ++ encode64 rest

/-- Read quanta of four characters. -/
def decodeQuanta : Bytes → Option Bytes
  | [] => some []
  | c0 :: c1 :: c2 :: c3 :: rest => do
      let s0 ← charSextet c0
      let s1 ← charSextet c1
      let first := (s0 * 4 + s1 / 16).toUInt8
      if c2 = 0x3D then
        if c3 = 0x3D ∧ rest = [] then some [first] else none
      else do
        let s2 ← charSextet c2
        let second := (s1 % 16 * 16 + s2 / 4).toUInt8
        if c3 = 0x3D then
          if rest = [] then some [first, second] else none
        else do
          let s3 ← charSextet c3
          let more ← decodeQuanta rest
          some (first :: second :: (s2 % 4 * 64 + s3).toUInt8 :: more)
  | _ => none

/-- `StdEncoding.DecodeString`. -/
def decode64 (s : Bytes) : Option Bytes :=
  decodeQuanta (s.filter fun c => c ≠ 0x0A ∧ c ≠ 0x0D)

/-- What the character of a sextet is: it stands for the sextet, and it is a letter, a digit, a
plus or a slash. -/
theorem sextetChar_spec {n : Nat} (h : n < 64) :
    charSextet (sextetChar n) = some n ∧ sextetChar n ≠ 0x3D ∧ sextetChar n ≠ 0x0A ∧
      sextetChar n ≠ 0x0D := by
  have hall : ∀ m : Fin 64, charSextet (sextetChar m) = some m.val ∧ sextetChar m ≠ 0x3D ∧
      sextetChar m ≠ 0x0A ∧ sextetChar m ≠ 0x0D := by decide
  exact hall ⟨n, h⟩

/-- The characters of an encoding: those of sextets, and padding. -/
theorem mem_encode64 {v : Bytes} {c : UInt8} (h : c ∈ encode64 v) :
    (∃ n < 64, c = sextetChar n) ∨ c = 0x3D := by
  have hquantum : ∀ {a b d : Nat}, a < 256 → b < 256 → d < 256 →
      ∀ {c : UInt8}, c ∈ quantum a b d → ∃ n < 64, c = sextetChar n := by
    intro a b d ha hb hd c hc
    simp only [quantum, List.mem_cons, List.not_mem_nil, or_false] at hc
    rcases hc with rfl | rfl | rfl | rfl
    · exact ⟨_, by omega, rfl⟩
    · exact ⟨_, by omega, rfl⟩
    · exact ⟨_, by omega, rfl⟩
    · exact ⟨_, by omega, rfl⟩
  fun_induction encode64 v with
  | case1 => simp at h
  | case2 a =>
      rw [List.mem_append] at h
      rcases h with h | h
      · exact Or.inl (hquantum a.toNat_lt (by decide) (by decide) (List.mem_of_mem_take h))
      · exact Or.inr (by simpa using h)
  | case3 a b =>
      rw [List.mem_append] at h
      rcases h with h | h
      · exact Or.inl (hquantum a.toNat_lt b.toNat_lt (by decide) (List.mem_of_mem_take h))
      · exact Or.inr (by simpa using h)
  | case4 a b c rest ih =>
      rw [List.mem_append] at h
      rcases h with h | h
      · exact Or.inl (hquantum a.toNat_lt b.toNat_lt c.toNat_lt h)
      · exact ih h

/-- An encoding is ASCII. -/
theorem encode64_ascii {v : Bytes} {c : UInt8} (h : c ∈ encode64 v) : c < 0x80 := by
  rcases mem_encode64 h with ⟨n, hn, rfl⟩ | rfl
  · have hall : ∀ m : Fin 64, sextetChar m < 0x80 := by decide
    exact hall ⟨n, hn⟩
  · decide

/-- A byte is put together again from its two parts. -/
theorem toUInt8_eq {b : UInt8} {n : Nat} (h : n = b.toNat) : n.toUInt8 = b := by
  subst h
  simp

/-- Reading an encoding gives the bytes encoded. -/
theorem decodeQuanta_encode64 (v : Bytes) : decodeQuanta (encode64 v) = some v := by
  fun_induction encode64 v with
  | case1 => rfl
  | case2 a =>
      have ha := a.toNat_lt
      have h0 := sextetChar_spec (n := a.toNat / 4) (by omega)
      have h1 := sextetChar_spec (n := a.toNat % 4 * 16 + 0 / 16) (by omega)
      simp only [quantum, List.take, List.cons_append, List.nil_append, decodeQuanta, h0.1, h1.1,
        Option.bind_eq_bind, Option.bind_some, true_and, if_true]
      rw [toUInt8_eq (b := a) (by omega)]
  | case3 a b =>
      have ha := a.toNat_lt
      have hb := b.toNat_lt
      have h0 := sextetChar_spec (n := a.toNat / 4) (by omega)
      have h1 := sextetChar_spec (n := a.toNat % 4 * 16 + b.toNat / 16) (by omega)
      have h2 := sextetChar_spec (n := b.toNat % 16 * 4 + 0 / 64) (by omega)
      simp only [quantum, List.take, List.cons_append, List.nil_append, decodeQuanta, h0.1, h1.1,
        h2.1, h2.2.1, Option.bind_eq_bind, Option.bind_some, if_true, if_false]
      rw [toUInt8_eq (b := a) (by omega), toUInt8_eq (b := b) (by omega)]
  | case4 a b c rest ih =>
      have ha := a.toNat_lt
      have hb := b.toNat_lt
      have hc := c.toNat_lt
      have h0 := sextetChar_spec (n := a.toNat / 4) (by omega)
      have h1 := sextetChar_spec (n := a.toNat % 4 * 16 + b.toNat / 16) (by omega)
      have h2 := sextetChar_spec (n := b.toNat % 16 * 4 + c.toNat / 64) (by omega)
      have h3 := sextetChar_spec (n := c.toNat % 64) (by omega)
      simp only [quantum, List.cons_append, List.nil_append, decodeQuanta, h0.1, h1.1, h2.1,
        h2.2.1, h3.1, h3.2.1, ih, Option.bind_eq_bind, Option.bind_some, if_false]
      rw [toUInt8_eq (b := a) (by omega), toUInt8_eq (b := b) (by omega),
        toUInt8_eq (b := c) (by omega)]

/-- An encoding holds no line breaks, so it is read as it stands. -/
theorem decode64_encode64 (v : Bytes) : decode64 (encode64 v) = some v := by
  have hfilter : (encode64 v).filter (fun c => c ≠ 0x0A ∧ c ≠ 0x0D) = encode64 v := by
    rw [List.filter_eq_self]
    intro c hc
    rcases mem_encode64 hc with ⟨n, hn, rfl⟩ | rfl
    · exact decide_eq_true (sextetChar_spec hn).2.2
    · rfl
  rw [decode64, hfilter, decodeQuanta_encode64]

end Iot.Text
