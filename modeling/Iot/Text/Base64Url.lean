import Iot.Text.Base64

/-!
# Base64 for URLs

`base64.RawURLEncoding`: the alphabet ends in a hyphen and an underscore, and there is no padding.
-/

namespace Iot.Text

/-- The character of a sextet in the alphabet for URLs. -/
def urlChar (n : Nat) : UInt8 :=
  if n = 62 then 0x2D else if n = 63 then 0x5F else sextetChar n

/-- The sextet of a character of the alphabet for URLs. -/
def urlSextet (c : UInt8) : Option Nat :=
  if c = 0x2D then some 62
  else if c = 0x5F then some 63
  else if c = 0x2B ∨ c = 0x2F then none
  else charSextet c

/-- `RawURLEncoding.EncodeToString`. -/
def encodeRawURL : Bytes → Bytes
  | [] => []
  | [a] => [urlChar (a.toNat / 4), urlChar (a.toNat % 4 * 16)]
  | [a, b] =>
      [urlChar (a.toNat / 4), urlChar (a.toNat % 4 * 16 + b.toNat / 16),
        urlChar (b.toNat % 16 * 4)]
  | a :: b :: c :: rest =>
      urlChar (a.toNat / 4) :: urlChar (a.toNat % 4 * 16 + b.toNat / 16) ::
        urlChar (b.toNat % 16 * 4 + c.toNat / 64) :: urlChar (c.toNat % 64) :: encodeRawURL rest

/-- Read quanta of four characters; the last may be of two or three. -/
def decodeRawQuanta : Bytes → Option Bytes
  | [] => some []
  | [_] => none
  | [c0, c1] => do
      let s0 ← urlSextet c0
      let s1 ← urlSextet c1
      some [(s0 * 4 + s1 / 16).toUInt8]
  | [c0, c1, c2] => do
      let s0 ← urlSextet c0
      let s1 ← urlSextet c1
      let s2 ← urlSextet c2
      some [(s0 * 4 + s1 / 16).toUInt8, (s1 % 16 * 16 + s2 / 4).toUInt8]
  | c0 :: c1 :: c2 :: c3 :: rest => do
      let s0 ← urlSextet c0
      let s1 ← urlSextet c1
      let s2 ← urlSextet c2
      let s3 ← urlSextet c3
      let more ← decodeRawQuanta rest
      some ((s0 * 4 + s1 / 16).toUInt8 :: (s1 % 16 * 16 + s2 / 4).toUInt8 ::
        (s2 % 4 * 64 + s3).toUInt8 :: more)

/-- `RawURLEncoding.DecodeString`. -/
def decodeRawURL (s : Bytes) : Option Bytes :=
  decodeRawQuanta (s.filter fun c => c ≠ 0x0A ∧ c ≠ 0x0D)

/-- What the character of a sextet is: it stands for the sextet and is no line break. -/
theorem urlChar_spec {n : Nat} (h : n < 64) :
    urlSextet (urlChar n) = some n ∧ urlChar n ≠ 0x0A ∧ urlChar n ≠ 0x0D := by
  have hall : ∀ m : Fin 64, urlSextet (urlChar m) = some m.val ∧ urlChar m ≠ 0x0A ∧
      urlChar m ≠ 0x0D := by decide
  exact hall ⟨n, h⟩

/-- The characters of an encoding are those of sextets. -/
theorem mem_encodeRawURL {v : Bytes} {c : UInt8} (h : c ∈ encodeRawURL v) :
    ∃ n < 64, c = urlChar n := by
  fun_induction encodeRawURL v with
  | case1 => cases h
  | case2 a =>
      have ha := a.toNat_lt
      simp only [List.mem_cons, List.not_mem_nil, or_false] at h
      rcases h with rfl | rfl
      · exact ⟨_, by omega, rfl⟩
      · exact ⟨_, by omega, rfl⟩
  | case3 a b =>
      have ha := a.toNat_lt
      have hb := b.toNat_lt
      simp only [List.mem_cons, List.not_mem_nil, or_false] at h
      rcases h with rfl | rfl | rfl
      · exact ⟨_, by omega, rfl⟩
      · exact ⟨_, by omega, rfl⟩
      · exact ⟨_, by omega, rfl⟩
  | case4 a b d rest ih =>
      have ha := a.toNat_lt
      have hb := b.toNat_lt
      have hd := d.toNat_lt
      simp only [List.mem_cons] at h
      rcases h with rfl | rfl | rfl | rfl | h
      · exact ⟨_, by omega, rfl⟩
      · exact ⟨_, by omega, rfl⟩
      · exact ⟨_, by omega, rfl⟩
      · exact ⟨_, by omega, rfl⟩
      · exact ih h

/-- Reading an encoding gives the bytes encoded. -/
theorem decodeRawQuanta_encodeRawURL (v : Bytes) : decodeRawQuanta (encodeRawURL v) = some v := by
  fun_induction encodeRawURL v with
  | case1 => rfl
  | case2 a =>
      have ha := a.toNat_lt
      have h0 := urlChar_spec (n := a.toNat / 4) (by omega)
      have h1 := urlChar_spec (n := a.toNat % 4 * 16) (by omega)
      simp only [decodeRawQuanta, h0.1, h1.1, Option.bind_eq_bind, Option.bind_some]
      rw [toUInt8_eq (b := a) (by omega)]
  | case3 a b =>
      have ha := a.toNat_lt
      have hb := b.toNat_lt
      have h0 := urlChar_spec (n := a.toNat / 4) (by omega)
      have h1 := urlChar_spec (n := a.toNat % 4 * 16 + b.toNat / 16) (by omega)
      have h2 := urlChar_spec (n := b.toNat % 16 * 4) (by omega)
      simp only [decodeRawQuanta, h0.1, h1.1, h2.1, Option.bind_eq_bind, Option.bind_some]
      rw [toUInt8_eq (b := a) (by omega), toUInt8_eq (b := b) (by omega)]
  | case4 a b c rest ih =>
      have ha := a.toNat_lt
      have hb := b.toNat_lt
      have hc := c.toNat_lt
      have h0 := urlChar_spec (n := a.toNat / 4) (by omega)
      have h1 := urlChar_spec (n := a.toNat % 4 * 16 + b.toNat / 16) (by omega)
      have h2 := urlChar_spec (n := b.toNat % 16 * 4 + c.toNat / 64) (by omega)
      have h3 := urlChar_spec (n := c.toNat % 64) (by omega)
      simp only [decodeRawQuanta, h0.1, h1.1, h2.1, h3.1, ih, Option.bind_eq_bind,
        Option.bind_some]
      rw [toUInt8_eq (b := a) (by omega), toUInt8_eq (b := b) (by omega),
        toUInt8_eq (b := c) (by omega)]

/-- An encoding holds no line breaks, so it is read as it stands. -/
theorem decodeRawURL_encodeRawURL (v : Bytes) : decodeRawURL (encodeRawURL v) = some v := by
  have hfilter : (encodeRawURL v).filter (fun c => c ≠ 0x0A ∧ c ≠ 0x0D) = encodeRawURL v := by
    rw [List.filter_eq_self]
    intro c hc
    obtain ⟨n, hn, rfl⟩ := mem_encodeRawURL hc
    exact decide_eq_true (urlChar_spec hn).2
  rw [decodeRawURL, hfilter, decodeRawQuanta_encodeRawURL]

/-- An encoding is at most twice as long as what it encodes. -/
theorem length_encodeRawURL_le (v : Bytes) : (encodeRawURL v).length ≤ 2 * v.length := by
  fun_induction encodeRawURL v with
  | case1 => exact Nat.le_refl _
  | case2 a => exact Nat.le_refl _
  | case3 a b => simp
  | case4 a b c rest ih =>
      simp only [List.length_cons]
      omega

/-- Only nothing is encoded as nothing. -/
theorem encodeRawURL_ne_nil {v : Bytes} (h : v ≠ []) : encodeRawURL v ≠ [] := by
  fun_cases encodeRawURL v with
  | case1 => exact absurd rfl h
  | case2 | case3 | case4 => simp

end Iot.Text
