import Iot.Contracts.Errors
import Iot.Json.Object

/-!
# The JSONB budget

`validateJSONBBudget` (`internal/contracts/jsonb.go`) bounds the text PostgreSQL will write for a
JSON value before PostgreSQL expands it. The scan for unpaired surrogate escapes works on the
bytes of the text and is modelled on them, with the outcome `panic` where the code would index
past the end. The token loop works on the tokens of the text, which is valid JSON by then.
-/

namespace Iot.Contracts

open Text Json

/-- `MaxJSONBBytes`, one MiB. -/
def maxJSONBBytes : Nat := 1048576

/-- `MaxTelemetryPayloadBytes`. -/
def maxTelemetryPayloadBytes : Nat := maxJSONBBytes - 4096

/-- How the surrogate scan ends. -/
inductive ScanOutcome where
  | clean
  | invalid
  | panic
  deriving DecidableEq, Repr

/-- `strconv.ParseUint(digits, 16, 16)` on four bytes. -/
def parseHex4 (h0 h1 h2 h3 : UInt8) : Option Nat :=
  if isHex h0 && isHex h1 && isHex h2 && isHex h3 then some (hex4 h0 h1 h2 h3) else none

/-- The scan for unpaired surrogates, from the rest of the text on and with `inString` telling
the inner loop from the outer one. A failed `ParseUint` of the first half counts as zero. -/
def scanSurrogates (inString : Bool) : Bytes → ScanOutcome
  | [] => .clean
  | b :: rest =>
      if !inString then scanSurrogates (b == 0x22) rest
      else if b = 0x22 then scanSurrogates false rest
      else if b = 0x5C then
        match rest with
        | [] => .panic
        | c :: rest =>
            if c = 0x75 then
              match rest with
              | h0 :: h1 :: h2 :: h3 :: rest =>
                  let u := (parseHex4 h0 h1 h2 h3).getD 0
                  if isHighSurrogate u then
                    match rest with
                    | b0 :: b1 :: l0 :: l1 :: l2 :: l3 :: rest =>
                        if b0 = 0x5C ∧ b1 = 0x75 then
                          match parseHex4 l0 l1 l2 l3 with
                          | some low =>
                              if isLowSurrogate low then scanSurrogates true rest else .invalid
                          | none => .invalid
                        else .invalid
                    | _ => .invalid
                  else if isLowSurrogate u then .invalid
                  else scanSurrogates true rest
              | _ => .panic
            else scanSurrogates true rest
      else scanSurrogates true rest

/-- `strconv.ParseInt(s, 10, 32)`. -/
def parseInt32 (s : Bytes) : Option Int :=
  let value : Option Int :=
    match s with
    | 0x2B :: digits => if isDigits digits then some (digitsValue digits : Int) else none
    | s => intLiteral s
  value.filter fun n => -2147483648 ≤ n ∧ n ≤ 2147483647

/-- The parts of a number literal that the budget looks at. -/
structure NumberParts where
  negative : Bool
  integer : Bytes
  fraction : Bytes
  exponent : Int
  deriving DecidableEq, Repr

/-- Split a number literal. An exponent that does not fit 32 bits is an error. -/
def splitNumber (literal : Bytes) : Option NumberParts :=
  let negative := literal.head? == some 0x2D
  let number := if negative then literal.drop 1 else literal
  let isExp : UInt8 → Bool := fun b => b == 0x65 || b == 0x45
  let mantissa := number.takeWhile fun b => !isExp b
  let (integer, fraction, _) := cut mantissa 0x2E
  if number.any isExp then
    (parseInt32 ((number.dropWhile fun b => !isExp b).drop 1)).map
      fun exp => ⟨negative, integer, fraction, exp⟩
  else some ⟨negative, integer, fraction, 0⟩

/-- PostgreSQL cannot represent the number: too many digits before or after the point. -/
def NumberParts.outOfRange (n : NumberParts) : Bool :=
  let leading := ((n.integer ++ n.fraction).takeWhile (· == 0x30)).length
  (n.integer.length : Int) - leading + n.exponent > 131072 ||
    (n.fraction.length : Int) - n.exponent > 16383 ||
    n.exponent > 131072 || n.exponent < -16383 - (n.integer.length : Int)

/-- The bytes of the number in plain decimal notation. -/
def NumberParts.expanded (n : NumberParts) : Int :=
  let integerBytes := max 1 ((n.integer.length : Int) + n.exponent)
  let fractionBytes := max 0 ((n.fraction.length : Int) - n.exponent)
  integerBytes + fractionBytes + (if fractionBytes > 0 then 1 else 0) +
    (if n.negative then 1 else 0)

/-- The bytes `json.Marshal` writes for a string. -/
def marshalString (s : Bytes) : Bytes := (Tok.str (quote s)).bytes

/-- What a token adds to the budget, over the two bytes every token is charged. Colons and commas
are not reported by `Decoder.Token`. -/
def tokenCost : Tok → Except GoError Nat
  | .str items =>
      let value := unquote items
      if value.contains 0 then .error errInvalidPayload
      else .ok (marshalString value).length
  | .num literal =>
      match splitNumber literal with
      | none => .error errInvalidPayload
      | some n =>
          if n.outOfRange then .error (errInvalidPayload.wrap (ascii "numeric range exceeded"))
          else .ok n.expanded.toNat
  | .word _ => .ok 5
  | _ => .ok 1

/-- The tokens `Decoder.Token` reports. -/
def reported (toks : List Tok) : List Tok := toks.filter fun t => t ≠ .colon ∧ t ≠ .comma

/-- The token loop, with the bytes used so far. -/
def chargeTokens (limit : Nat) : List Tok → Nat → Except GoError Unit
  | [], _ => .ok ()
  | tok :: rest, used => do
      let cost ← tokenCost tok
      if used + 2 + cost > limit then
        .error (errInvalidPayload.wrap
          (ascii "expanded JSONB payload exceeds " ++ decimal limit ++ ascii " bytes"))
      else chargeTokens limit rest (used + 2 + cost)

/-- `validateJSONBBudget`. An index past the end of the text stops the program, which is reported
as an error of its own. -/
def validateJSONBBudget (raw : Bytes) (limit : Nat) : Except GoError Unit :=
  if raw.length > limit then
    .error (errInvalidPayload.wrap
      (ascii "JSONB payload exceeds " ++ decimal limit ++ ascii " bytes"))
  else if !utf8Valid raw then .error errInvalidPayload
  else
    match parse raw with
    | none => .error errInvalidPayload
    | some lexemes =>
        match scanSurrogates false raw with
        | .invalid => .error errInvalidPayload
        | .panic => .error (.new "index out of range")
        | .clean => chargeTokens limit (reported (lexemes.map Lexeme.tok)) 0

/-- `ValidateJSONB`. -/
def validateJSONB (raw : Bytes) : Except GoError Unit := validateJSONBBudget raw maxJSONBBytes

end Iot.Contracts
