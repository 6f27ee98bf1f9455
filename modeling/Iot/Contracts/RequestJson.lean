import Iot.Contracts.Jsonb

/-!
# Request bodies

`DecodeRequestJSON` (`internal/contracts/request_json.go`) accepts one JSON object without
ambiguous member names. `validateUniqueJSON` walks the tokens of the document recursively; every
call of the model spends one unit of `fuel`, and no token is looked at by more than two calls.

`encoding/json` folds member names to the smallest rune of each orbit, as `foldJSONField` does,
so one definition serves both.
-/

namespace Iot.Contracts

open Text Json

variable (go : GoRuntime)

/-- The loop over the orbit of a rune in `foldJSONField`. -/
def smallestFold (start : Nat) : Nat → Nat → Nat → Nat
  | 0, _, smallest => smallest
  | fuel + 1, next, smallest =>
      if next = start then smallest
      else smallestFold start fuel (go.simpleFold next) (if next < smallest then next else smallest)

/-- The number of code points, which no orbit exceeds. -/
def codePoints : Nat := 0x110000

/-- `foldJSONField`: each rune is replaced by the smallest of its `unicode.SimpleFold` orbit. -/
def foldJSONField (name : Bytes) : Bytes :=
  ((decode name).map fun rune =>
    encodeRune (smallestFold go rune.code codePoints (go.simpleFold rune.code) rune.code)).flatten

/-- The deepest level `validateUniqueJSON` descends to. -/
def maxUniqueDepth : Nat := 128

mutual

/-- The closure `value` of `validateUniqueJSON`: read one value and return the tokens after it. -/
def uniqueValue (foldRoot : Bool) : Nat → Nat → List Tok → Except GoError (List Tok)
  | 0, _, _ => .error (.new "EOF")
  | fuel + 1, depth, toks =>
      if depth > maxUniqueDepth then .error (.new "JSON nesting exceeds 128 levels")
      else
        match toks with
        | [] => .error (.new "EOF")
        | .lbrace :: rest => uniqueMembers foldRoot fuel depth [] rest
        | .lbrack :: rest => uniqueElements foldRoot fuel depth rest
        | .rbrace :: _ | .rbrack :: _ => .error (.new "invalid JSON delimiter")
        | _ :: rest => .ok rest

/-- The members of an object, with the names seen so far. -/
def uniqueMembers (foldRoot : Bool) :
    Nat → Nat → List Bytes → List Tok → Except GoError (List Tok)
  | 0, _, _, _ => .error (.new "EOF")
  | fuel + 1, depth, seen, toks =>
      match toks with
      | .rbrace :: rest => .ok rest
      | .str items :: rest =>
          let name := unquote items
          let name := if depth = 0 ∧ foldRoot then foldJSONField go name else name
          if seen.contains name then .error (.new "duplicate JSON field")
          else do
            let rest ← uniqueValue foldRoot fuel (depth + 1) rest
            uniqueMembers foldRoot fuel depth (name :: seen) rest
      | _ => .error (.new "EOF")

/-- The elements of an array. -/
def uniqueElements (foldRoot : Bool) : Nat → Nat → List Tok → Except GoError (List Tok)
  | 0, _, _ => .error (.new "EOF")
  | fuel + 1, depth, toks =>
      match toks with
      | .rbrack :: rest => .ok rest
      | toks => do
          let rest ← uniqueValue foldRoot fuel (depth + 1) toks
          uniqueElements foldRoot fuel depth rest

end

/-- `validateUniqueJSON`. A token reader knows no nesting limit of its own. For a text that is no
document the walk stops at the first fault, and `syntaxText` stands for what it reports there. -/
def validateUniqueJSON (raw : Bytes) (foldRoot : Bool) : Except GoError Unit :=
  match lex raw with
  | none => .error ⟨go.syntaxText raw, []⟩
  | some lexemes =>
      let toks := lexemes.map Lexeme.tok
      if isDocument toks.length toks then do
        let rest ← uniqueValue go foldRoot (2 * toks.length + 1) 0 (reported toks)
        if rest = [] then .ok ()
        else .error (.new "request body must contain exactly one JSON value")
      else .error ⟨go.syntaxText raw, []⟩

/-- The first byte of a text once white space is trimmed is an opening brace. -/
def startsObject (raw : Bytes) : Bool := (trimSpace raw).head? == some 0x7B

/-- The message for a member no field takes. -/
def unknownField (name : Bytes) : Bytes := ascii "json: unknown field " ++ go.quoteText name

/-- `DecodeRequestJSON` into a record given by its fields. The reader's limit of one byte more
than `MaxJSONBBytes` leaves exactly the texts that are not too long. -/
def decodeRequestJSON {α : Type} (fields : List (RecordField α)) (typeName : String) (zero : α)
    (raw : Bytes) : Except GoError α := do
  returnIf (raw.length > maxJSONBBytes)
    ⟨ascii "request body exceeds " ++ decimal maxJSONBBytes ++ ascii " bytes", []⟩
  returnIf (!utf8Valid raw) (.new "request body must contain valid UTF-8")
  validateUniqueJSON go raw true
  returnIf (!startsObject raw) (.new "request body must be a JSON object")
  validateJSONB raw
  match parse raw with
  | none => throw ⟨go.syntaxText raw, []⟩
  | some doc =>
      match decodeObject (foldJSONField go) fields (some (unknownField go)) typeName zero doc with
      | .ok value => pure value
      | .error message => throw ⟨message, []⟩

/-- `json.Unmarshal` into a record given by its fields. -/
def unmarshal {α : Type} (fields : List (RecordField α)) (typeName : String) (zero : α)
    (raw : Bytes) : Except GoError α :=
  match parse raw with
  | none => .error ⟨go.syntaxText raw, []⟩
  | some doc =>
      match decodeObject (foldJSONField go) fields none typeName zero doc with
      | .ok value => .ok value
      | .error message => .error ⟨message, []⟩

end Iot.Contracts
