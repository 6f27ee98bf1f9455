import Mathlib.Data.List.Basic

/-!
# Byte strings and their UTF-8 reading

A string is a list of bytes. `decode` reads it as Go's `range` loop and `utf8.DecodeRune` do:
one rune for each well-formed sequence and one `bad` rune for each byte that starts none. A rune
keeps the bytes it was read from, so `decode` loses nothing (`decode_flat`), and a list of
well-formed runes is read back as it was written (`decode_flat_runes`).
-/

namespace Iot.Text

/-- A byte string. -/
abbrev Bytes := List UInt8

/-- The bytes of an ASCII literal. -/
def ascii (literal : String) : Bytes :=
  literal.toList.map fun c => c.toNat.toUInt8

/-- One unit of text: a well-formed sequence of one to four bytes, or a byte that starts none. -/
inductive Rune where
  | one (b0 : UInt8)
  | two (b0 b1 : UInt8)
  | three (b0 b1 b2 : UInt8)
  | four (b0 b1 b2 b3 : UInt8)
  | bad (b0 : UInt8)
  deriving DecidableEq, Repr

/-- The bytes a rune was read from. -/
def Rune.bytes : Rune → Bytes
  | .one b0 => [b0]
  | .two b0 b1 => [b0, b1]
  | .three b0 b1 b2 => [b0, b1, b2]
  | .four b0 b1 b2 b3 => [b0, b1, b2, b3]
  | .bad b0 => [b0]

/-- The code point of a rune; a bad byte reads as the replacement character. -/
def Rune.code : Rune → Nat
  | .one b0 => b0.toNat
  | .two b0 b1 => (b0.toNat % 32) * 64 + b1.toNat % 64
  | .three b0 b1 b2 => (b0.toNat % 16) * 4096 + (b1.toNat % 64) * 64 + b2.toNat % 64
  | .four b0 b1 b2 b3 =>
      (b0.toNat % 8) * 262144 + (b1.toNat % 64) * 4096 + (b2.toNat % 64) * 64 + b3.toNat % 64
  | .bad _ => 0xFFFD

/-- A continuation byte. -/
def isCont (b : UInt8) : Bool := 0x80 ≤ b && b ≤ 0xBF

/-- The first byte of a two-byte sequence. -/
def lead2 (b0 : UInt8) : Bool := 0xC2 ≤ b0 && b0 ≤ 0xDF

/-- The first two bytes of a three-byte sequence: no overlong form and no surrogate. -/
def lead3 (b0 b1 : UInt8) : Bool :=
  (b0 == 0xE0 && 0xA0 ≤ b1 && b1 ≤ 0xBF) ||
  (0xE1 ≤ b0 && b0 ≤ 0xEF && b0 != 0xED && isCont b1) ||
  (b0 == 0xED && 0x80 ≤ b1 && b1 ≤ 0x9F)

/-- The first two bytes of a four-byte sequence: no overlong form, nothing past U+10FFFF. -/
def lead4 (b0 b1 : UInt8) : Bool :=
  (b0 == 0xF0 && 0x90 ≤ b1 && b1 ≤ 0xBF) ||
  (0xF1 ≤ b0 && b0 ≤ 0xF3 && isCont b1) ||
  (b0 == 0xF4 && 0x80 ≤ b1 && b1 ≤ 0x8F)

/-- Read a byte string rune by rune. -/
def decode : Bytes → List Rune
  | [] => []
  | b0 :: rest =>
      if b0 < 0x80 then .one b0 :: decode rest
      else
        match rest with
        | [] => [.bad b0]
        | b1 :: rest1 =>
            if lead2 b0 && isCont b1 then .two b0 b1 :: decode rest1
            else
              match rest1 with
              | [] => .bad b0 :: decode [b1]
              | b2 :: rest2 =>
                  if lead3 b0 b1 && isCont b2 then .three b0 b1 b2 :: decode rest2
                  else
                    match rest2 with
                    | [] => .bad b0 :: decode [b1, b2]
                    | b3 :: rest3 =>
                        if lead4 b0 b1 && isCont b2 && isCont b3 then
                          .four b0 b1 b2 b3 :: decode rest3
                        else .bad b0 :: decode (b1 :: b2 :: b3 :: rest3)

/-- The rune's bytes are the sequence its constructor names. -/
def Rune.WellFormed : Rune → Bool
  | .one b0 => b0 < 0x80
  | .two b0 b1 => lead2 b0 && isCont b1
  | .three b0 b1 b2 => lead3 b0 b1 && isCont b2
  | .four b0 b1 b2 b3 => lead4 b0 b1 && isCont b2 && isCont b3
  | .bad _ => false

/-- The text of a list of runes. -/
def flat (runes : List Rune) : Bytes := runes.flatMap Rune.bytes

@[simp] theorem flat_nil : flat [] = [] := rfl

@[simp] theorem flat_cons (rune : Rune) (rest : List Rune) :
    flat (rune :: rest) = rune.bytes ++ flat rest := rfl

@[simp] theorem flat_append (left right : List Rune) :
    flat (left ++ right) = flat left ++ flat right := List.flatMap_append

/-- Reading keeps every byte. -/
theorem decode_flat (text : Bytes) : flat (decode text) = text := by
  fun_induction decode text <;> simp_all [Rune.bytes]

/-- A well-formed rune in front of a text is the first rune read. -/
theorem decode_rune (rune : Rune) (h : rune.WellFormed) (rest : Bytes) :
    decode (rune.bytes ++ rest) = rune :: decode rest := by
  cases rune with
  | one b0 =>
      have h0 : b0 < 0x80 := by simpa [Rune.WellFormed] using h
      rw [Rune.bytes, List.singleton_append, decode.eq_def]
      simp [h0]
  | two b0 b1 =>
      have h0 : ¬ b0 < 0x80 := by
        simp [Rune.WellFormed, lead2, UInt8.le_iff_toNat_le] at h ⊢
        omega
      rw [Rune.WellFormed] at h
      rw [decode.eq_def]
      simp [Rune.bytes, h0, h]
  | three b0 b1 b2 =>
      have h0 : ¬ b0 < 0x80 ∧ lead2 b0 = false := by
        simp [Rune.WellFormed, lead2, lead3, UInt8.le_iff_toNat_le, ← UInt8.toNat_inj] at h ⊢
        omega
      rw [Rune.WellFormed] at h
      rw [decode.eq_def]
      simp [Rune.bytes, h0, h]
  | four b0 b1 b2 b3 =>
      have h0 : ¬ b0 < 0x80 ∧ lead2 b0 = false ∧ lead3 b0 b1 = false := by
        simp [Rune.WellFormed, lead2, lead3, lead4, UInt8.le_iff_toNat_le,
          ← UInt8.toNat_inj] at h ⊢
        omega
      rw [Rune.WellFormed] at h
      rw [decode.eq_def]
      simp [Rune.bytes, h0, h]
  | bad b0 => simp [Rune.WellFormed] at h

/-- Well-formed runes in front of a text are read back one by one. -/
theorem decode_flat_append (runes : List Rune) (h : ∀ rune ∈ runes, rune.WellFormed)
    (rest : Bytes) : decode (flat runes ++ rest) = runes ++ decode rest := by
  induction runes with
  | nil => rfl
  | cons rune runes ih =>
      rw [flat_cons, List.append_assoc, decode_rune rune (h rune (by simp)),
        ih (fun r hr => h r (by simp [hr])), List.cons_append]

/-- Writing well-formed runes and reading the text gives the runes. -/
theorem decode_flat_runes (runes : List Rune) (h : ∀ rune ∈ runes, rune.WellFormed) :
    decode (flat runes) = runes := by
  have happend := decode_flat_append runes h []
  rw [List.append_nil] at happend
  rw [happend]
  simp [decode]

/-- The second byte of a three-byte sequence is a continuation byte. -/
theorem isCont_of_lead3 {b0 b1 : UInt8} (h : lead3 b0 b1) : isCont b1 := by
  simp only [lead3, isCont, Bool.or_eq_true, Bool.and_eq_true, decide_eq_true_eq,
    UInt8.le_iff_toNat_le] at h ⊢
  simp at h ⊢
  omega

/-- The second byte of a four-byte sequence is a continuation byte. -/
theorem isCont_of_lead4 {b0 b1 : UInt8} (h : lead4 b0 b1) : isCont b1 := by
  simp only [lead4, isCont, Bool.or_eq_true, Bool.and_eq_true, decide_eq_true_eq,
    UInt8.le_iff_toNat_le] at h ⊢
  simp at h ⊢
  omega

/-- A byte that is no continuation byte ends whatever sequence stands in front of it. -/
theorem decode_cut (left : Bytes) (c : UInt8) (hc : isCont c = false) (right : Bytes) :
    decode (left ++ c :: right) = decode left ++ decode (c :: right) := by
  have hlead3 : ∀ b, lead3 b c = false := fun b => by
    by_contra h
    simp [isCont_of_lead3 (by simpa using h)] at hc
  have hlead4 : ∀ b, lead4 b c = false := fun b => by
    by_contra h
    simp [isCont_of_lead4 (by simpa using h)] at hc
  fun_induction decode left with
  | case1 => rfl
  | case2 b0 rest h0 ih =>
      rw [List.cons_append, decode.eq_def]
      simp [h0, ih]
  | case3 b0 h0 =>
      rw [List.cons_append, decode.eq_def]
      simp only [h0, List.nil_append, hc]
      rcases right with _ | ⟨d, _ | ⟨e, right⟩⟩ <;> simp [hlead3, hlead4]
  | case4 b0 h0 b1 rest1 h1 ih =>
      rw [List.cons_append, List.cons_append, decode.eq_def]
      simp [h0, h1, ih]
  | case5 b0 h0 b1 h1 ih =>
      rw [List.cons_append, decode.eq_def]
      simp only [h0, h1, List.cons_append, List.nil_append] at ih ⊢
      cases right <;> simp [hc, ih]
  | case6 b0 h0 b1 h1 b2 rest2 h2 ih =>
      rw [List.cons_append, decode.eq_def]
      simp [h0, h1, h2, ih]
  | case7 b0 h0 b1 h1 b2 h2 ih =>
      rw [List.cons_append, decode.eq_def]
      simp only [h0, h1, h2, List.cons_append, List.nil_append] at ih ⊢
      simp [hc, ih]
  | case8 b0 h0 b1 h1 b2 h2 b3 rest3 h3 ih =>
      rw [List.cons_append, decode.eq_def]
      simp [h0, h1, h2, h3, ih]
  | case9 b0 h0 b1 h1 b2 h2 b3 rest3 h3 ih =>
      rw [List.cons_append, decode.eq_def]
      simp only [h0, h1, h2, h3, List.cons_append] at ih ⊢
      simp [ih]

/-! ## Runes that are read back -/

/-- The text of the runes is read as these runes. -/
def Clean (runes : List Rune) : Prop := decode (flat runes) = runes

/-- What was read from a text is read back. -/
theorem clean_decode (text : Bytes) : Clean (decode text) := by
  rw [Clean, decode_flat]

/-- Well-formed runes are read back. -/
theorem clean_of_wellFormed {runes : List Rune} (h : ∀ rune ∈ runes, rune.WellFormed) :
    Clean runes := decode_flat_runes runes h

/-- No rune is empty. -/
theorem Rune.bytes_ne_nil (rune : Rune) : rune.bytes ≠ [] := by
  cases rune <;> simp [Rune.bytes]

/-- A well-formed rune does not start with a continuation byte. -/
theorem Rune.bytes_eq_cons {rune : Rune} (h : rune.WellFormed) :
    ∃ c rest, rune.bytes = c :: rest ∧ isCont c = false := by
  cases rune with
  | bad b0 => simp [Rune.WellFormed] at h
  | one b0 | two b0 b1 | three b0 b1 b2 | four b0 b1 b2 b3 =>
      refine ⟨b0, _, rfl, ?_⟩
      simp [Rune.WellFormed, lead2, lead3, lead4, isCont, UInt8.le_iff_toNat_le,
        UInt8.lt_iff_toNat_lt, ← UInt8.toNat_inj] at h ⊢
      omega

/-- A well-formed rune ends whatever sequence stands in front of it. -/
theorem decode_append_rune (left : Bytes) {rune : Rune} (h : rune.WellFormed) (right : Bytes) :
    decode (left ++ (rune.bytes ++ right)) = decode left ++ rune :: decode right := by
  obtain ⟨c, rest, hbytes, hc⟩ := Rune.bytes_eq_cons h
  rw [hbytes, List.cons_append, decode_cut left c hc, ← List.cons_append, ← hbytes,
    decode_rune rune h]

/-- Only the empty list of runes has no text. -/
theorem flat_eq_nil {runes : List Rune} : flat runes = [] ↔ runes = [] := by
  cases runes with
  | nil => simp
  | cons rune rest => simp [rune.bytes_ne_nil]

/-- Where two lists of runes agree, parts with the same text are the same. -/
theorem append_inj_of_flat {left left' right right' : List Rune}
    (h : left ++ right = left' ++ right') (hflat : flat left = flat left') :
    left = left' ∧ right = right' := by
  rcases List.append_eq_append_iff.mp h with ⟨more, rfl, rfl⟩ | ⟨more, rfl, rfl⟩
  · have hmore : more = [] := by simpa [flat_eq_nil] using hflat
    simp [hmore]
  · have hmore : more = [] := by simpa [flat_eq_nil] using hflat
    simp [hmore]

/-- Runes around a well-formed one are read back when both sides are. -/
theorem clean_append_cons {left right : List Rune} {rune : Rune} (h : rune.WellFormed) :
    Clean (left ++ rune :: right) ↔ Clean left ∧ Clean right := by
  rw [Clean, flat_append, flat_cons, decode_append_rune _ h]
  constructor
  · intro hclean
    obtain ⟨hleft, hright⟩ := append_inj_of_flat hclean (decode_flat _)
    exact ⟨hleft, (List.cons.inj hright).2⟩
  · rintro ⟨hleft, hright⟩
    rw [hleft, hright]

/-- `utf8.Valid`: every byte belongs to a well-formed sequence. -/
def utf8Valid (text : Bytes) : Bool := (decode text).all Rune.WellFormed

/-- A valid text in front of another is read as if it stood alone. -/
theorem decode_append (left right : Bytes) (h : utf8Valid left) :
    decode (left ++ right) = decode left ++ decode right := by
  rw [utf8Valid, List.all_eq_true] at h
  have happend := decode_flat_append (decode left) h right
  rwa [decode_flat] at happend

/-- Well-formed runes write a valid text. -/
theorem utf8Valid_flat (runes : List Rune) (h : ∀ rune ∈ runes, rune.WellFormed) :
    utf8Valid (flat runes) := by
  rw [utf8Valid, decode_flat_runes runes h, List.all_eq_true]
  exact h

/-- An ASCII byte of a valid text is a rune of its own. -/
theorem mem_decode_of_ascii {text : Bytes} (h : utf8Valid text) {b : UInt8} (hb : b ∈ text)
    (hascii : b < 0x80) : Rune.one b ∈ decode text := by
  rw [← decode_flat text, flat, List.mem_flatMap] at hb
  obtain ⟨rune, hrune, hb⟩ := hb
  have hwell : rune.WellFormed := List.all_eq_true.mp h rune hrune
  cases rune with
  | one b0 =>
      rw [Rune.bytes, List.mem_singleton] at hb
      rwa [hb]
  | bad b0 => simp [Rune.WellFormed] at hwell
  | two b0 b1 | three b0 b1 b2 | four b0 b1 b2 b3 =>
      simp [Rune.WellFormed, Rune.bytes, lead2, lead3, lead4, isCont, UInt8.le_iff_toNat_le,
        UInt8.lt_iff_toNat_lt, ← UInt8.toNat_inj] at hwell hb hascii
      omega

/-- The bytes of a text are ASCII when a pass over it finds no other. -/
theorem ascii_of_all {text : Bytes} (h : text.all (· < 0x80)) : ∀ b ∈ text, b < 0x80 := by
  intro b hb
  exact of_decide_eq_true (List.all_eq_true.mp h b hb)

/-- ASCII text is read byte by byte. -/
theorem decode_ascii {text : Bytes} (h : ∀ b ∈ text, b < 0x80) : decode text = text.map .one := by
  have hflat : flat (text.map .one) = text := by
    rw [flat, List.flatMap_map]
    exact List.flatMap_singleton' text
  have hwell : ∀ rune ∈ text.map Rune.one, rune.WellFormed := by
    intro rune hrune
    obtain ⟨b, hb, rfl⟩ := List.mem_map.mp hrune
    exact decide_eq_true (h b hb)
  calc decode text = decode (flat (text.map .one)) := by rw [hflat]
    _ = text.map .one := decode_flat_runes _ hwell

/-- ASCII text is valid. -/
theorem utf8Valid_ascii {text : Bytes} (h : ∀ b ∈ text, b < 0x80) : utf8Valid text := by
  rw [utf8Valid, decode_ascii h, List.all_map, List.all_eq_true]
  intro b hb
  exact decide_eq_true (h b hb)

/-- What is read is well-formed sequences and single bytes that start none. -/
theorem wellFormed_of_mem_decode {text : Bytes} {rune : Rune} (h : rune ∈ decode text) :
    rune.WellFormed ∨ ∃ b, rune = .bad b := by
  fun_induction decode text with
  | case1 => cases h
  | case3 => exact .inr ⟨_, by simpa using h⟩
  | case2 b0 rest h0 ih | case4 b0 h0 b1 rest h0 ih | case6 b0 _ b1 _ b2 rest h0 ih
  | case8 b0 _ b1 _ b2 _ b3 rest h0 ih =>
      rcases List.mem_cons.mp h with rfl | h
      · exact .inl (by simpa [Rune.WellFormed] using h0)
      · exact ih h
  | case5 b0 _ b1 _ ih | case7 b0 _ b1 _ b2 _ ih | case9 b0 _ b1 _ b2 _ b3 rest _ ih =>
      rcases List.mem_cons.mp h with rfl | h
      · exact .inr ⟨b0, rfl⟩
      · exact ih h

/-- A text whose code points are all below 128 is ASCII. -/
theorem ascii_of_code {text : Bytes} (h : ∀ rune ∈ decode text, rune.code < 0x80) :
    ∀ b ∈ text, b < 0x80 := by
  intro b hb
  rw [← decode_flat text, flat, List.mem_flatMap] at hb
  obtain ⟨rune, hrune, hb⟩ := hb
  have hcode := h rune hrune
  obtain hwell | ⟨b0, rfl⟩ := wellFormed_of_mem_decode hrune
  · cases rune with
    | bad b0 => simp [Rune.WellFormed] at hwell
    | one b0 =>
        rw [Rune.bytes, List.mem_singleton] at hb
        simpa [hb, Rune.WellFormed] using hwell
    | two b0 b1 | three b0 b1 b2 | four b0 b1 b2 b3 =>
        -- the smallest code point of a longer sequence is 128
        exfalso
        simp [Rune.WellFormed, Rune.code, lead2, lead3, lead4, isCont, UInt8.le_iff_toNat_le,
          ← UInt8.toNat_inj] at hwell hcode
        omega
  · simp [Rune.code] at hcode

end Iot.Text
