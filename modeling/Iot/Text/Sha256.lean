import Iot.Text.Strings

/-!
# SHA-256

The hash function of FIPS 180-4 as `crypto/sha256` computes it, and its digest in lower-case
hexadecimal. Words are natural numbers below 2³². Only the shape of the digest is used: 64
hexadecimal digits (`length_sha256Hex`, `sha256Hex_ascii`).
-/

namespace Iot.Text

/-- A number cut to 32 bits. -/
def word (n : Nat) : Nat := n % 4294967296

/-- A word rotated to the right. -/
def rotr (n x : Nat) : Nat := word ((x >>> n) ||| (x <<< (32 - n)))

/-- The constants of the 64 rounds. -/
def roundConstants : List Nat :=
  [0x428a2f98, 0x71374491, 0xb5c0fbcf, 0xe9b5dba5, 0x3956c25b, 0x59f111f1,
    0x923f82a4, 0xab1c5ed5, 0xd807aa98, 0x12835b01, 0x243185be, 0x550c7dc3,
    0x72be5d74, 0x80deb1fe, 0x9bdc06a7, 0xc19bf174, 0xe49b69c1, 0xefbe4786,
    0x0fc19dc6, 0x240ca1cc, 0x2de92c6f, 0x4a7484aa, 0x5cb0a9dc, 0x76f988da,
    0x983e5152, 0xa831c66d, 0xb00327c8, 0xbf597fc7, 0xc6e00bf3, 0xd5a79147,
    0x06ca6351, 0x14292967, 0x27b70a85, 0x2e1b2138, 0x4d2c6dfc, 0x53380d13,
    0x650a7354, 0x766a0abb, 0x81c2c92e, 0x92722c85, 0xa2bfe8a1, 0xa81a664b,
    0xc24b8b70, 0xc76c51a3, 0xd192e819, 0xd6990624, 0xf40e3585, 0x106aa070,
    0x19a4c116, 0x1e376c08, 0x2748774c, 0x34b0bcb5, 0x391c0cb3, 0x4ed8aa4a,
    0x5b9cca4f, 0x682e6ff3, 0x748f82ee, 0x78a5636f, 0x84c87814, 0x8cc70208,
    0x90befffa, 0xa4506ceb, 0xbef9a3f7, 0xc67178f2]

/-- The eight words of the hash. -/
structure HashState where
  a : Nat
  b : Nat
  c : Nat
  d : Nat
  e : Nat
  f : Nat
  g : Nat
  h : Nat
  deriving DecidableEq, Repr

/-- The hash before the first block. -/
def HashState.initial : HashState :=
  ⟨0x6a09e667, 0xbb67ae85, 0x3c6ef372, 0xa54ff53a,
    0x510e527f, 0x9b05688c, 0x1f83d9ab, 0x5be0cd19⟩

/-- One round with its constant and its word of the schedule. -/
def HashState.round (s : HashState) (step : Nat × Nat) : HashState :=
  let big1 := rotr 6 s.e ^^^ rotr 11 s.e ^^^ rotr 25 s.e
  let choice := (s.e &&& s.f) ^^^ ((4294967295 - s.e) &&& s.g)
  let t1 := s.h + big1 + choice + step.1 + step.2
  let big0 := rotr 2 s.a ^^^ rotr 13 s.a ^^^ rotr 22 s.a
  let majority := (s.a &&& s.b) ^^^ (s.a &&& s.c) ^^^ (s.b &&& s.c)
  ⟨word (t1 + big0 + majority), s.a, s.b, s.c, word (s.d + t1), s.e, s.f, s.g⟩

/-- The message schedule: each further word comes from the sixteen before it. -/
def schedule : Nat → List Nat → List Nat
  | 0, window => window
  | left + 1, window =>
      let small0 := fun x => rotr 7 x ^^^ rotr 18 x ^^^ (x >>> 3)
      let small1 := fun x => rotr 17 x ^^^ rotr 19 x ^^^ (x >>> 10)
      let next := word (small1 (window.getD 14 0) + window.getD 9 0 + small0 (window.getD 1 0) +
        window.getD 0 0)
      window.headD 0 :: schedule left (window.tail ++ [next])

/-- The hash after a block of sixteen words. -/
def HashState.compress (s : HashState) (block : List Nat) : HashState :=
  let after := (roundConstants.zip (schedule 48 block)).foldl HashState.round s
  ⟨word (s.a + after.a), word (s.b + after.b), word (s.c + after.c), word (s.d + after.d),
    word (s.e + after.e), word (s.f + after.f), word (s.g + after.g), word (s.h + after.h)⟩

/-- The hash after a number of blocks. -/
def HashState.compressAll : Nat → List Nat → HashState → HashState
  | 0, _, s => s
  | blocks + 1, words, s => compressAll blocks (words.drop 16) (s.compress (words.take 16))

/-- The bytes of a number of eight bytes. -/
def bytesOf64 (n : Nat) : Bytes :=
  [56, 48, 40, 32, 24, 16, 8, 0].map fun shift => (n >>> shift).toUInt8

/-- The message with a one bit, zeros and its length in bits, a whole number of blocks. -/
def padMessage (message : Bytes) : Bytes :=
  message ++ 0x80 :: List.replicate ((119 - message.length % 64) % 64) 0 ++
    bytesOf64 (8 * message.length)

/-- Words of four bytes. -/
def wordsOf : Bytes → List Nat
  | b0 :: b1 :: b2 :: b3 :: rest =>
      (b0.toNat * 16777216 + b1.toNat * 65536 + b2.toNat * 256 + b3.toNat) :: wordsOf rest
  | _ => []

/-- `sha256.Sum256`. -/
def sha256 (message : Bytes) : HashState :=
  let padded := padMessage message
  HashState.compressAll (padded.length / 64) (wordsOf padded) .initial

/-- A hexadecimal digit. -/
def hexChar (n : Nat) : UInt8 := if n < 10 then (0x30 + n).toUInt8 else (0x57 + n).toUInt8

/-- The eight hexadecimal digits of a word. -/
def hexWord (n : Nat) : Bytes :=
  [28, 24, 20, 16, 12, 8, 4, 0].map fun shift => hexChar ((n >>> shift) % 16)

/-- The digest in hexadecimal, as the verb `%x` prints it. -/
def sha256Hex (message : Bytes) : Bytes :=
  let s := sha256 message
  [s.a, s.b, s.c, s.d, s.e, s.f, s.g, s.h].flatMap hexWord

/-- A digest has 64 digits. -/
theorem length_sha256Hex (message : Bytes) : (sha256Hex message).length = 64 := by
  simp [sha256Hex, hexWord]

/-- What holds of the hexadecimal digits holds of every character of a digest. -/
theorem sha256Hex_all {p : UInt8 → Bool} (h : ∀ m : Fin 16, p (hexChar m)) (message : Bytes) :
    (sha256Hex message).all p := by
  rw [List.all_eq_true]
  intro c hc
  simp only [sha256Hex, List.mem_flatMap] at hc
  obtain ⟨w, _, hc⟩ := hc
  simp only [hexWord, List.mem_map] at hc
  obtain ⟨shift, _, rfl⟩ := hc
  exact h ⟨_, Nat.mod_lt _ (by decide)⟩

/-- A digest is made of hexadecimal digits, which are ASCII. -/
theorem sha256Hex_ascii {message : Bytes} {c : UInt8} (h : c ∈ sha256Hex message) : c < 0x80 := by
  have hall : (sha256Hex message).all (· < 0x80) := sha256Hex_all (by decide) message
  exact of_decide_eq_true (List.all_eq_true.mp hall c h)

example : sha256Hex (ascii "abc") =
    ascii "ba7816bf8f01cfea414140de5dae2223b00361a396177a9cb410ff61f20015ad" := by
  decide +kernel

end Iot.Text
