import Iot.Text.Base64
import Mathlib.Data.List.Nodup

/-!
# Strict base64

Base64 without padding over any alphabet, as `base64.NewEncoding(…).WithPadding(NoPadding).Strict()`
reads and writes it: line breaks are skipped, and the bits that the last character has over are
zero. A text of the alphabet is read as some bytes exactly if it is their encoding
(`decodeStrict_eq_some_iff`).
-/

namespace Iot.Text

/-- An alphabet: a character for each sextet, none of them a line break. -/
structure Alphabet where
  chars : Bytes
  length_chars : chars.length = 64
  nodup : chars.Nodup
  plain : 0x0A ∉ chars ∧ 0x0D ∉ chars

namespace Alphabet

variable (alphabet : Alphabet)

/-- The character of a sextet. -/
def char (n : Nat) : UInt8 := alphabet.chars.getD n 0

/-- The sextet of a character. -/
def sextet (c : UInt8) : Option Nat := alphabet.chars.findIdx? (· == c)

/-- `EncodeToString`. -/
def encode : Bytes → Bytes
  | [] => []
  | [a] => [alphabet.char (a.toNat / 4), alphabet.char (a.toNat % 4 * 16)]
  | [a, b] =>
      [alphabet.char (a.toNat / 4), alphabet.char (a.toNat % 4 * 16 + b.toNat / 16),
        alphabet.char (b.toNat % 16 * 4)]
  | a :: b :: c :: rest =>
      alphabet.char (a.toNat / 4) :: alphabet.char (a.toNat % 4 * 16 + b.toNat / 16) ::
        alphabet.char (b.toNat % 16 * 4 + c.toNat / 64) :: alphabet.char (c.toNat % 64) ::
        encode rest

/-- Read quanta of four characters. A last quantum of two or three has bits over. -/
def decodeQuanta : Bytes → Option Bytes
  | [] => some []
  | [_] => none
  | [c0, c1] => do
      let s0 ← alphabet.sextet c0
      let s1 ← alphabet.sextet c1
      if s1 % 16 = 0 then some [(s0 * 4 + s1 / 16).toUInt8] else none
  | [c0, c1, c2] => do
      let s0 ← alphabet.sextet c0
      let s1 ← alphabet.sextet c1
      let s2 ← alphabet.sextet c2
      if s2 % 4 = 0 then
        some [(s0 * 4 + s1 / 16).toUInt8, (s1 % 16 * 16 + s2 / 4).toUInt8]
      else none
  | c0 :: c1 :: c2 :: c3 :: rest => do
      let s0 ← alphabet.sextet c0
      let s1 ← alphabet.sextet c1
      let s2 ← alphabet.sextet c2
      let s3 ← alphabet.sextet c3
      let more ← decodeQuanta rest
      some ((s0 * 4 + s1 / 16).toUInt8 :: (s1 % 16 * 16 + s2 / 4).toUInt8 ::
        (s2 % 4 * 64 + s3).toUInt8 :: more)

/-- `DecodeString`. -/
def decodeStrict (s : Bytes) : Option Bytes :=
  alphabet.decodeQuanta (s.filter fun c => c ≠ 0x0A ∧ c ≠ 0x0D)

variable {alphabet}

/-- A character stands for the sextet it is the character of. -/
theorem sextet_eq_some_iff {c : UInt8} {n : Nat} :
    alphabet.sextet c = some n ↔ n < 64 ∧ alphabet.char n = c := by
  rw [sextet, List.findIdx?_eq_some_iff_getElem, char]
  constructor
  · rintro ⟨hn, hc, -⟩
    rw [alphabet.length_chars] at hn
    exact ⟨hn, by simpa [List.getD_eq_getElem?_getD, alphabet.length_chars, hn] using hc⟩
  · rintro ⟨hn, rfl⟩
    have hn' : n < alphabet.chars.length := by rwa [alphabet.length_chars]
    refine ⟨hn', by simp [List.getD_eq_getElem?_getD, hn'], fun j hj hc => ?_⟩
    have heq : alphabet.chars[j] = alphabet.chars[n] := by
      simpa [List.getD_eq_getElem?_getD, hn'] using hc
    exact absurd (alphabet.nodup.getElem_inj_iff.mp heq) (Nat.ne_of_lt hj)

/-- Reading quanta inverts the encoding. -/
theorem decodeQuanta_encode (v : Bytes) : alphabet.decodeQuanta (alphabet.encode v) = some v := by
  have hchar : ∀ n < 64, alphabet.sextet (alphabet.char n) = some n :=
    fun n hn => sextet_eq_some_iff.mpr ⟨hn, rfl⟩
  fun_induction encode alphabet v with
  | case1 => rfl
  | case2 a =>
      have ha := a.toNat_lt
      simp only [decodeQuanta, hchar (a.toNat / 4) (by omega),
        hchar (a.toNat % 4 * 16) (by omega), Option.bind_eq_bind, Option.bind_some]
      rw [if_pos (by omega), toUInt8_eq (b := a) (by omega)]
  | case3 a b =>
      have ha := a.toNat_lt
      have hb := b.toNat_lt
      simp only [decodeQuanta, hchar (a.toNat / 4) (by omega),
        hchar (a.toNat % 4 * 16 + b.toNat / 16) (by omega), hchar (b.toNat % 16 * 4) (by omega),
        Option.bind_eq_bind, Option.bind_some]
      rw [if_pos (by omega), toUInt8_eq (b := a) (by omega), toUInt8_eq (b := b) (by omega)]
  | case4 a b c rest ih =>
      have ha := a.toNat_lt
      have hb := b.toNat_lt
      have hc := c.toNat_lt
      simp only [decodeQuanta, hchar (a.toNat / 4) (by omega),
        hchar (a.toNat % 4 * 16 + b.toNat / 16) (by omega),
        hchar (b.toNat % 16 * 4 + c.toNat / 64) (by omega), hchar (c.toNat % 64) (by omega), ih,
        Option.bind_eq_bind, Option.bind_some]
      rw [toUInt8_eq (b := a) (by omega), toUInt8_eq (b := b) (by omega),
        toUInt8_eq (b := c) (by omega)]

/-- What is read is encoded as it was written: each character comes from the bits it gave. -/
theorem encode_of_decodeQuanta {s v : Bytes} (h : alphabet.decodeQuanta s = some v) :
    alphabet.encode v = s := by
  have hnat : ∀ n < 256, n.toUInt8.toNat = n := fun n hn => by simp; omega
  fun_induction decodeQuanta alphabet s generalizing v with
  | case1 => cases h; rfl
  | case2 => cases h
  | case3 c0 c1 =>
      simp only [Option.bind_eq_bind, Option.bind_eq_some_iff, sextet_eq_some_iff,
        Option.ite_none_right_eq_some] at h
      obtain ⟨s0, ⟨h0, rfl⟩, s1, ⟨h1, rfl⟩, hzero, heq⟩ := h
      cases heq
      rw [encode, hnat _ (by omega), show (s0 * 4 + s1 / 16) / 4 = s0 by omega,
        show (s0 * 4 + s1 / 16) % 4 * 16 = s1 by omega]
  | case4 c0 c1 c2 =>
      simp only [Option.bind_eq_bind, Option.bind_eq_some_iff, sextet_eq_some_iff,
        Option.ite_none_right_eq_some] at h
      obtain ⟨s0, ⟨h0, rfl⟩, s1, ⟨h1, rfl⟩, s2, ⟨h2, rfl⟩, hzero, heq⟩ := h
      cases heq
      rw [encode, hnat _ (by omega), hnat _ (by omega),
        show (s0 * 4 + s1 / 16) / 4 = s0 by omega,
        show (s0 * 4 + s1 / 16) % 4 * 16 + (s1 % 16 * 16 + s2 / 4) / 16 = s1 by omega,
        show (s1 % 16 * 16 + s2 / 4) % 16 * 4 = s2 by omega]
  | case5 c0 c1 c2 c3 rest ih =>
      simp only [Option.bind_eq_bind, Option.bind_eq_some_iff, sextet_eq_some_iff] at h
      obtain ⟨s0, ⟨h0, rfl⟩, s1, ⟨h1, rfl⟩, s2, ⟨h2, rfl⟩, s3, ⟨h3, rfl⟩, more, hmore, heq⟩ := h
      cases heq
      rw [encode, ih hmore, hnat _ (by omega), hnat _ (by omega), hnat _ (by omega),
        show (s0 * 4 + s1 / 16) / 4 = s0 by omega,
        show (s0 * 4 + s1 / 16) % 4 * 16 + (s1 % 16 * 16 + s2 / 4) / 16 = s1 by omega,
        show (s1 % 16 * 16 + s2 / 4) % 16 * 4 + (s2 % 4 * 64 + s3) / 64 = s2 by omega,
        show (s2 % 4 * 64 + s3) % 64 = s3 by omega]

/-- The characters of an encoding are of the alphabet. -/
theorem mem_encode {v : Bytes} {c : UInt8} (h : c ∈ alphabet.encode v) : c ∈ alphabet.chars := by
  have hchar : ∀ n < 64, alphabet.char n ∈ alphabet.chars := by
    intro n hn
    have hn' : n < alphabet.chars.length := by rwa [alphabet.length_chars]
    simp [char, List.getD_eq_getElem?_getD, hn']
  fun_induction encode alphabet v with
  | case1 => cases h
  | case2 a =>
      have ha := a.toNat_lt
      simp only [List.mem_cons, List.not_mem_nil, or_false] at h
      rcases h with rfl | rfl
      all_goals exact hchar _ (by omega)
  | case3 a b =>
      have ha := a.toNat_lt
      have hb := b.toNat_lt
      simp only [List.mem_cons, List.not_mem_nil, or_false] at h
      rcases h with rfl | rfl | rfl
      all_goals exact hchar _ (by omega)
  | case4 a b d rest ih =>
      have ha := a.toNat_lt
      have hb := b.toNat_lt
      have hd := d.toNat_lt
      simp only [List.mem_cons] at h
      rcases h with rfl | rfl | rfl | rfl | h
      · exact hchar _ (by omega)
      · exact hchar _ (by omega)
      · exact hchar _ (by omega)
      · exact hchar _ (by omega)
      · exact ih h

/-- A text of the alphabet is read as some bytes exactly if it is their encoding. -/
theorem decodeStrict_eq_some_iff {s v : Bytes} (hs : ∀ c ∈ s, c ∈ alphabet.chars) :
    alphabet.decodeStrict s = some v ↔ alphabet.encode v = s := by
  have hfilter : s.filter (fun c => c ≠ 0x0A ∧ c ≠ 0x0D) = s := by
    rw [List.filter_eq_self]
    intro c hc
    have hplain := alphabet.plain
    refine decide_eq_true ⟨?_, ?_⟩
    · rintro rfl
      exact hplain.1 (hs _ hc)
    · rintro rfl
      exact hplain.2 (hs _ hc)
  rw [decodeStrict, hfilter]
  constructor
  · exact encode_of_decodeQuanta
  · rintro rfl
    exact decodeQuanta_encode v

/-- Four characters for every three bytes; one byte over takes two, and two take three. -/
theorem length_encode (v : Bytes) : (alphabet.encode v).length = (4 * v.length + 2) / 3 := by
  fun_induction encode alphabet v with
  | case1 | case2 | case3 => simp
  | case4 a b c rest ih =>
      simp only [List.length_cons, ih]
      omega

end Alphabet

end Iot.Text
