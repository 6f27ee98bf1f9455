import Iot.Json.Numbers
import Iot.Text.Base64Strict

/-!
# Encodings of bcrypt

`validBcryptEncoding` (`internal/platform/mqtt_auth.go`) decides whether a stored hash is kept when
the secret it was made from is erased. `validBcryptEncoding_iff` says which texts it accepts: those
of the format, with a cost that `strconv.Atoi` reads as 4 to 31. That is the canonical encoding
(`CanonicalBcrypt`), and one more: `Atoi` also reads a plus sign (`SignedBcrypt`).
-/

namespace Iot.Platform

open Text Json

/-- The alphabet of bcrypt. -/
def bcryptAlphabet : Alphabet where
  chars := ascii "./ABCDEFGHIJKLMNOPQRSTUVWXYZabcdefghijklmnopqrstuvwxyz0123456789"
  length_chars := by decide
  nodup := by decide
  plain := by decide

/-- Where salt and digest start, by the prefix of the hash. -/
def bcryptOffset (hash : Bytes) : Option Nat :=
  if (ascii "$2a$").isPrefixOf hash || (ascii "$2b$").isPrefixOf hash ||
      (ascii "$2y$").isPrefixOf hash then some 7
  else if (ascii "$2$").isPrefixOf hash then some 6
  else none

/-- The cost of two characters. -/
def costOf (text : Bytes) : Option Int :=
  (atoi text).bind fun cost => if 4 ≤ cost ∧ cost ≤ 31 then some cost else none

/-- `bcrypt.Cost` of a hash with such a prefix: the two characters after it. A version has a letter
or none. -/
def bcryptCost (hash : Bytes) : Option Int :=
  costOf ((hash.drop (if hash[2]? = some 0x24 then 3 else 4)).take 2)

/-- `strings.ContainsRune(alphabet, c)` for every rune of a text. -/
def inBcryptAlphabet (text : Bytes) : Bool :=
  (decode text).all fun rune => bcryptAlphabet.chars.any fun b => b.toNat == rune.code

/-- `validBcryptEncoding`. -/
def validBcryptEncoding (hash : Bytes) : Bool :=
  match bcryptOffset hash with
  | none => false
  | some offset =>
      if hash.length ≠ offset + 53 ∨ hash[offset - 1]? ≠ some 0x24 then false
      else if (bcryptCost hash).isNone then false
      else if !inBcryptAlphabet (hash.drop offset) then false
      else
        match bcryptAlphabet.decodeStrict ((hash.drop offset).take 22) with
        | none => false
        | some salt =>
            if salt.length ≠ 16 then false
            else
              match bcryptAlphabet.decodeStrict (hash.drop (offset + 22)) with
              | none => false
              | some digest => digest.length == 23

/-! ## The format -/

/-- The prefixes. -/
def bcryptVersions : List Bytes := [ascii "$2$", ascii "$2a$", ascii "$2b$", ascii "$2y$"]

/-- A version, a cost, and salt and digest in their canonical encoding. -/
def BcryptLayout (cost hash : Bytes) : Prop :=
  ∃ version ∈ bcryptVersions, ∃ salt digest : Bytes, salt.length = 16 ∧ digest.length = 23 ∧
    hash = version ++ (cost ++ 0x24 ::
      (bcryptAlphabet.encode salt ++ bcryptAlphabet.encode digest))

/-- The canonical encoding: the cost is two digits and from 4 to 31. -/
def CanonicalBcrypt (hash : Bytes) : Prop :=
  ∃ cost, cost.length = 2 ∧ cost.all isDigit ∧ 4 ≤ digitsValue cost ∧ digitsValue cost ≤ 31 ∧
    BcryptLayout cost hash

/-- The encoding with a plus sign in front of a cost of one digit. -/
def SignedBcrypt (hash : Bytes) : Prop :=
  ∃ digit, isDigit digit ∧ 4 ≤ digitsValue [digit] ∧ BcryptLayout [0x2B, digit] hash

/-! ## What is accepted -/

/-- The text after the version passes the checks. -/
def validAfterVersion (rest : Bytes) : Prop :=
  rest.length = 56 ∧ rest[2]? = some 0x24 ∧ (costOf (rest.take 2)).isSome ∧
    inBcryptAlphabet (rest.drop 3) ∧
    (∃ salt, bcryptAlphabet.decodeStrict ((rest.drop 3).take 22) = some salt ∧ salt.length = 16) ∧
    ∃ digest, bcryptAlphabet.decodeStrict (rest.drop 25) = some digest ∧ digest.length = 23

/-- The checks do not depend on the version. -/
theorem validBcryptEncoding_version {version : Bytes} (hversion : version ∈ bcryptVersions)
    (rest : Bytes) :
    validBcryptEncoding (version ++ rest) = true ↔ validAfterVersion rest := by
  have hoffset : bcryptOffset (version ++ rest) = some (version.length + 3) := by
    simp only [bcryptVersions, List.mem_cons, List.not_mem_nil, or_false] at hversion
    obtain rfl | rfl | rfl | rfl := hversion <;> rfl
  have hcost : bcryptCost (version ++ rest) = costOf (rest.take 2) := by
    simp only [bcryptVersions, List.mem_cons, List.not_mem_nil, or_false] at hversion
    obtain rfl | rfl | rfl | rfl := hversion <;> rfl
  have hdrop : ∀ n, (version ++ rest).drop (version.length + n) = rest.drop n := fun n => by
    rw [List.drop_append, List.drop_of_length_le (by omega), List.nil_append,
      Nat.add_sub_cancel_left]
  have hdollar : (version ++ rest)[version.length + 3 - 1]? = rest[2]? := by
    rw [List.getElem?_append_right (by omega)]
    congr 1
    omega
  have hlength : (version ++ rest).length = version.length + (3 + 53) ↔ rest.length = 56 := by
    rw [List.length_append]
    omega
  rw [validBcryptEncoding, hoffset, validAfterVersion]
  simp only [hcost, hdollar, hdrop, Nat.add_assoc, ne_eq, hlength]
  generalize rest[2]? = mark
  by_cases h56 : rest.length = 56
  swap
  · simp [h56]
  by_cases hmark : mark = some 0x24
  swap
  · simp [hmark]
  rw [if_neg (by simp [h56, hmark])]
  cases hvalue : costOf (rest.take 2) with
  | none => simp
  | some cost =>
      rw [Option.isNone_some, if_neg (by simp)]
      cases halphabet : inBcryptAlphabet (rest.drop 3) with
      | false => simp
      | true =>
          cases hsalt : bcryptAlphabet.decodeStrict ((rest.drop 3).take 22) with
          | none => simp
          | some salt =>
              cases hdigest : bcryptAlphabet.decodeStrict (rest.drop 25) <;> simp [h56, hmark]

/-- Only a text with a version is accepted. -/
theorem exists_version {hash : Bytes} (h : validBcryptEncoding hash = true) :
    ∃ version ∈ bcryptVersions, ∃ rest, hash = version ++ rest := by
  have hstarts : ∃ version ∈ bcryptVersions, version.isPrefixOf hash := by
    cases hoffset : bcryptOffset hash with
    | none => simp [validBcryptEncoding, hoffset] at h
    | some offset =>
        rw [bcryptOffset] at hoffset
        split_ifs at hoffset with hletter hplain
        · simp only [Bool.or_eq_true] at hletter
          obtain (ha | hb) | hy := hletter
          · exact ⟨_, by simp [bcryptVersions], ha⟩
          · exact ⟨_, by simp [bcryptVersions], hb⟩
          · exact ⟨_, by simp [bcryptVersions], hy⟩
        · exact ⟨_, by simp [bcryptVersions], hplain⟩
  obtain ⟨version, hversion, hstarts⟩ := hstarts
  obtain ⟨rest, hrest⟩ := List.isPrefixOf_iff_prefix.mp hstarts
  exact ⟨version, hversion, rest, hrest.symm⟩

/-- The runes of a text are in the alphabet exactly if its bytes are. -/
theorem inBcryptAlphabet_iff {text : Bytes} :
    inBcryptAlphabet text = true ↔ ∀ b ∈ text, b ∈ bcryptAlphabet.chars := by
  have hascii : ∀ b ∈ bcryptAlphabet.chars, b < 0x80 := ascii_of_all (by decide)
  -- text of either kind is ASCII, and then its runes are its bytes
  have hbytes : (∀ b ∈ text, b < 0x80) →
      (inBcryptAlphabet text = true ↔ ∀ b ∈ text, b ∈ bcryptAlphabet.chars) := by
    intro h
    rw [inBcryptAlphabet, decode_ascii h, List.all_map, List.all_eq_true]
    refine forall₂_congr fun b _ => ?_
    simp [Rune.code, UInt8.toNat_inj]
  constructor
  · intro h
    refine (hbytes (ascii_of_code fun rune hrune => ?_)).mp h
    rw [inBcryptAlphabet, List.all_eq_true] at h
    obtain ⟨b, hb, heq⟩ := List.any_eq_true.mp (h rune hrune)
    rw [← beq_iff_eq.mp heq]
    exact UInt8.lt_iff_toNat_lt.mp (hascii b hb)
  · intro h
    exact (hbytes fun b hb => hascii b (h b hb)).mpr h

/-- What passes the checks after the version: a cost, and salt and digest in their encoding. -/
theorem validAfterVersion_iff {rest : Bytes} :
    validAfterVersion rest ↔ ∃ cost salt digest : Bytes, cost.length = 2 ∧ (costOf cost).isSome ∧
      salt.length = 16 ∧ digest.length = 23 ∧
      rest = cost ++ 0x24 :: (bcryptAlphabet.encode salt ++ bcryptAlphabet.encode digest) := by
  constructor
  · rintro ⟨hlength, hmark, hcost, halphabet, ⟨salt, hsalt, hsaltLength⟩, digest, hdigest,
      hdigestLength⟩
    have hchars := inBcryptAlphabet_iff.mp halphabet
    rw [Alphabet.decodeStrict_eq_some_iff fun c hc => hchars c (List.mem_of_mem_take hc)] at hsalt
    rw [show rest.drop 25 = (rest.drop 3).drop 22 by rw [List.drop_drop]] at hdigest
    rw [Alphabet.decodeStrict_eq_some_iff fun c hc => hchars c (List.mem_of_mem_drop hc)]
      at hdigest
    refine ⟨rest.take 2, salt, digest, by simp [hlength], hcost, hsaltLength, hdigestLength, ?_⟩
    have hdrop : rest.drop 2 = 0x24 :: rest.drop 3 := by
      obtain ⟨hlt, hmark⟩ := List.getElem?_eq_some_iff.mp hmark
      rw [List.drop_eq_getElem_cons hlt, hmark]
    rw [hsalt, hdigest, List.take_append_drop, ← hdrop, List.take_append_drop]
  · rintro ⟨cost, salt, digest, hlength, hcost, hsalt, hdigest, rfl⟩
    obtain ⟨tens, ones, rfl⟩ := List.length_eq_two.mp hlength
    have hsaltLength : (bcryptAlphabet.encode salt).length = 22 := by
      rw [Alphabet.length_encode, hsalt]
    have hdigestLength : (bcryptAlphabet.encode digest).length = 31 := by
      rw [Alphabet.length_encode, hdigest]
    have hchars : ∀ b ∈ bcryptAlphabet.encode salt ++ bcryptAlphabet.encode digest,
        b ∈ bcryptAlphabet.chars := fun b hb =>
      (List.mem_append.mp hb).elim Alphabet.mem_encode Alphabet.mem_encode
    refine ⟨by simp [hsaltLength, hdigestLength], rfl, hcost, inBcryptAlphabet_iff.mpr hchars,
      ⟨salt, ?_, hsalt⟩, digest, ?_, hdigest⟩
    · show bcryptAlphabet.decodeStrict ((bcryptAlphabet.encode salt ++ _).take 22) = _
      rw [List.take_left' hsaltLength,
        Alphabet.decodeStrict_eq_some_iff fun _ => Alphabet.mem_encode]
    · show bcryptAlphabet.decodeStrict ((bcryptAlphabet.encode salt ++ _).drop 22) = _
      rw [List.drop_left' hsaltLength,
        Alphabet.decodeStrict_eq_some_iff fun _ => Alphabet.mem_encode]

/-- A text is accepted exactly if it has the format and `Atoi` reads its cost as 4 to 31. -/
theorem validBcryptEncoding_iff {hash : Bytes} :
    validBcryptEncoding hash = true ↔
      ∃ cost : Bytes, cost.length = 2 ∧ (costOf cost).isSome ∧ BcryptLayout cost hash := by
  constructor
  · intro h
    obtain ⟨version, hversion, rest, rfl⟩ := exists_version h
    rw [validBcryptEncoding_version hversion, validAfterVersion_iff] at h
    obtain ⟨cost, salt, digest, hlength, hcost, hsalt, hdigest, rfl⟩ := h
    exact ⟨cost, hlength, hcost, version, hversion, salt, digest, hsalt, hdigest, rfl⟩
  · rintro ⟨cost, hlength, hcost, version, hversion, salt, digest, hsalt, hdigest, rfl⟩
    rw [validBcryptEncoding_version hversion, validAfterVersion_iff]
    exact ⟨cost, salt, digest, hlength, hcost, hsalt, hdigest, rfl⟩

/-- A cost without a minus sign: digits, after a plus sign or none. -/
theorem costOf_digits {text digits : Bytes}
    (h : text = 0x2B :: digits ∨ text = digits ∧ ∀ sign ∈ text.head?, sign ≠ 0x2D ∧ sign ≠ 0x2B) :
    (costOf text).isSome ↔
      digits ≠ [] ∧ digits.all isDigit ∧ 4 ≤ digitsValue digits ∧ digitsValue digits ≤ 31 := by
  have hatoi : atoi text =
      if digits ≠ [] ∧ digits.all isDigit ∧ -9223372036854775808 ≤ (digitsValue digits : Int) ∧
        (digitsValue digits : Int) ≤ 9223372036854775807 then some (digitsValue digits : Int)
      else none := by
    obtain rfl | ⟨rfl, hsign⟩ := h
    · rfl
    · rw [atoi]
      · rfl
      · rintro tail rfl
        exact (hsign _ rfl).1 rfl
      · rintro tail rfl
        exact (hsign _ rfl).2 rfl
  rw [costOf, hatoi]
  by_cases hdigits : digits ≠ [] ∧ digits.all isDigit ∧ digitsValue digits ≤ 9223372036854775807
  · rw [if_pos ⟨hdigits.1, hdigits.2.1, by omega, by omega⟩, Option.bind_some]
    by_cases hrange : 4 ≤ digitsValue digits ∧ digitsValue digits ≤ 31
    · rw [if_pos ⟨by omega, by omega⟩]
      exact ⟨fun _ => ⟨hdigits.1, hdigits.2.1, hrange⟩, fun _ => rfl⟩
    · rw [if_neg (by omega)]
      exact ⟨fun h => (by cases h), fun h => absurd h.2.2 hrange⟩
  · rw [if_neg fun h => hdigits ⟨h.1, h.2.1, by omega⟩]
    exact ⟨fun h => (by cases h), fun h => absurd ⟨h.1, h.2.1, by omega⟩ hdigits⟩

/-- `Atoi` reads two characters as a cost if they are two digits, or a plus sign and a digit. -/
theorem costOf_isSome_iff {cost : Bytes} (hlength : cost.length = 2) :
    (costOf cost).isSome ↔
      (cost.all isDigit ∧ 4 ≤ digitsValue cost ∧ digitsValue cost ≤ 31) ∨
      ∃ digit, cost = [0x2B, digit] ∧ isDigit digit ∧ 4 ≤ digitsValue [digit] := by
  obtain ⟨tens, ones, rfl⟩ := List.length_eq_two.mp hlength
  by_cases hplus : tens = 0x2B
  · subst hplus
    have hones : isDigit ones → digitsValue [ones] ≤ 9 := by
      simp only [isDigit, Bool.and_eq_true, decide_eq_true_eq, UInt8.le_iff_toNat_le, digitsValue]
      simp
    rw [costOf_digits (.inl rfl)]
    constructor
    · rintro ⟨-, hdigit, h4, -⟩
      exact .inr ⟨ones, rfl, by simpa using hdigit, h4⟩
    · rintro (⟨hall, -⟩ | ⟨digit, heq, hdigit, h4⟩)
      · cases hall
      · cases heq
        have := hones hdigit
        exact ⟨by simp, by simpa using hdigit, h4, by omega⟩
  have hnot : ∀ digit, [tens, ones] ≠ [0x2B, digit] := fun digit heq => hplus (List.cons.inj heq).1
  by_cases hminus : tens = 0x2D
  · -- a negative number is no cost
    subst hminus
    constructor
    · intro h
      obtain ⟨value, hvalue⟩ := Option.isSome_iff_exists.mp h
      simp only [costOf, atoi, if_true, Option.bind_eq_some_iff,
        Option.ite_none_right_eq_some, Option.some.injEq] at hvalue
      obtain ⟨cost, ⟨-, rfl⟩, ⟨h4, -⟩, -⟩ := hvalue
      omega
    · rintro (⟨hall, -⟩ | ⟨digit, heq, -⟩)
      · cases hall
      · exact absurd heq (hnot digit)
  · rw [costOf_digits (.inr ⟨rfl, by simp [hminus, hplus]⟩)]
    constructor
    · rintro ⟨-, h⟩
      exact .inl h
    · rintro (h | ⟨digit, heq, -⟩)
      · exact ⟨by simp, h⟩
      · exact absurd heq (hnot digit)

/-- The cost of an encoding can be read off. -/
theorem BcryptLayout.cost_unique {cost other hash : Bytes} (h : BcryptLayout cost hash)
    (h' : BcryptLayout other hash) (hlength : cost.length = 2) (hlength' : other.length = 2) :
    cost = other := by
  obtain ⟨version, -, salt, digest, hsalt, hdigest, rfl⟩ := h
  obtain ⟨version', -, salt', digest', hsalt', hdigest', heq⟩ := h'
  have hrest :
      (cost ++ 0x24 :: (bcryptAlphabet.encode salt ++ bcryptAlphabet.encode digest)).length =
      (other ++ 0x24 :: (bcryptAlphabet.encode salt' ++ bcryptAlphabet.encode digest')).length := by
    simp only [List.length_append, List.length_cons, Alphabet.length_encode, hlength, hlength',
      hsalt, hdigest, hsalt', hdigest']
  obtain ⟨-, heq⟩ := List.append_inj' heq hrest
  exact (List.append_inj heq (hlength.trans hlength'.symm)).1

/-- What is accepted is the canonical encoding, or that with a plus sign. -/
theorem validBcryptEncoding_cases {hash : Bytes} :
    validBcryptEncoding hash = true ↔ CanonicalBcrypt hash ∨ SignedBcrypt hash := by
  rw [validBcryptEncoding_iff]
  constructor
  · rintro ⟨cost, hlength, hcost, hlayout⟩
    obtain ⟨hall, h4, h31⟩ | ⟨digit, rfl, hdigit, h4⟩ := (costOf_isSome_iff hlength).mp hcost
    · exact .inl ⟨cost, hlength, hall, h4, h31, hlayout⟩
    · exact .inr ⟨digit, hdigit, h4, hlayout⟩
  · rintro (⟨cost, hlength, hall, h4, h31, hlayout⟩ | ⟨digit, hdigit, h4, hlayout⟩)
    · exact ⟨cost, hlength, (costOf_isSome_iff hlength).mpr (.inl ⟨hall, h4, h31⟩), hlayout⟩
    · exact ⟨[0x2B, digit], rfl, (costOf_isSome_iff rfl).mpr (.inr ⟨digit, rfl, hdigit, h4⟩),
        hlayout⟩

/-- With a plus sign an encoding is not canonical. -/
theorem SignedBcrypt.not_canonical {hash : Bytes} (h : SignedBcrypt hash) :
    ¬ CanonicalBcrypt hash := by
  rintro ⟨cost, hlength, hall, -, -, hlayout⟩
  obtain ⟨digit, -, -, hsigned⟩ := h
  rw [hlayout.cost_unique hsigned hlength rfl] at hall
  cases hall

end Iot.Platform
