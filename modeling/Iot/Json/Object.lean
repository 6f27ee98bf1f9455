import Iot.Json.Grammar
import Iot.Json.Strings
import Iot.Text.Time

/-!
# Writing and reading objects

`object` writes an object member by member, as `json.Marshal` does for a struct.
`decodeObject` reads one into a record given by its fields, as `json.Unmarshal` does: members
are taken in order, a member is bound to the field of its name or else to the first field whose
name folds to the same text, a `null` leaves a plain field as it is, and a value of the wrong
type is reported after the rest of the object has been read.
-/

namespace Iot.Json

open Text

/-- The literal of a member name that needs no escapes. -/
def nameItems (name : String) : List StrItem := (ascii name).map fun b => .raw (.one b)

/-- The tokens of one member. -/
def memberToks (member : String × List Tok) : List Tok :=
  .str (nameItems member.1) :: .colon :: member.2

/-- The tokens of an object. -/
def object : List (String × List Tok) → List Tok
  | [] => [.lbrace, .rbrace]
  | first :: rest =>
      .lbrace :: memberToks first ++ rest.flatMap (fun m => .comma :: memberToks m) ++ [.rbrace]

/-- The token of a string value. -/
def strTok (s : Bytes) : List Tok := [.str (quote s)]

/-- The token of an integer value. -/
def intTok (n : Int) : List Tok := [.num (decimal n)]

/-- The token of a boolean value. -/
def boolTok (b : Bool) : List Tok := [.word (if b then .tru else .fls)]

/-- The tokens of a raw value that stands inside `depth` objects, or `null` when there is none. A
raw value that is not JSON, or that is nested too deeply together with the objects around it, makes
the whole call fail. -/
def rawToks (depth : Nat) (raw : Bytes) : Option (List Tok) :=
  if raw = [] then some [.word .nul]
  else (parseWithin (maxNestingDepth - depth) raw).map fun lexemes =>
    lexemes.map fun l => escapeTok l.tok

/-- The token of a text that needs no escape. -/
def plainTok (s : Bytes) : List Tok := [.str (s.map fun b => .raw (.one b))]

/-- The token of a timestamp. -/
def timeToks (t : Time) : Option (List Tok) := (rfc3339Nano t).map plainTok

/-- How storing a value in a field ended. A `soft` error is reported once the rest of the object
has been read, a `hard` one at once. -/
inductive Stored (α : Type) where
  | ok (value : α)
  | soft (message : Bytes)
  | hard (message : Bytes)

/-- A field of a record: its name in JSON and how a value is stored in it. -/
structure RecordField (α : Type) where
  name : Bytes
  store : List Lexeme → α → Stored α

/-- What `encoding/json` calls the type of a value. -/
def kindOf : List Lexeme → Bytes
  | ⟨_, .lbrace⟩ :: _ => ascii "object"
  | ⟨_, .lbrack⟩ :: _ => ascii "array"
  | ⟨_, .str _⟩ :: _ => ascii "string"
  | ⟨_, .num _⟩ :: _ => ascii "number"
  | ⟨_, .word _⟩ :: _ => ascii "bool"
  | _ => []

/-- The message of `json.UnmarshalTypeError` for a field. -/
def typeError (value : Bytes) (path goType : String) : Bytes :=
  ascii "json: cannot unmarshal " ++ value ++ ascii " into Go struct field " ++ ascii path ++
    ascii " of type " ++ ascii goType

/-- The value of a decimal integer literal, if it is one. -/
def intLiteral (literal : Bytes) : Option Int :=
  match literal with
  | 0x2D :: digits => if isDigits digits then some (-(digitsValue digits : Int)) else none
  | digits => if isDigits digits then some (digitsValue digits : Int) else none

variable {α : Type}

/-- A field of type `string`. -/
def strField (path name goType : String) (set : Bytes → α → α) : RecordField α where
  name := ascii name
  store value record :=
    match value with
    | [⟨_, .str items⟩] => .ok (set (unquote items) record)
    | [⟨_, .word .nul⟩] => .ok record
    | value => .soft (typeError (kindOf value) path goType)

/-- A field of type `int64` or `int`. A number that is not an integer of 64 bits is quoted in the
message. -/
def intField (path name goType : String) (set : Int → α → α) : RecordField α where
  name := ascii name
  store value record :=
    match value with
    | [⟨_, .num literal⟩] =>
        match intLiteral literal with
        | some n =>
            if -9223372036854775808 ≤ n ∧ n ≤ 9223372036854775807 then .ok (set n record)
            else .soft (typeError (ascii "number " ++ literal) path goType)
        | none => .soft (typeError (ascii "number " ++ literal) path goType)
    | [⟨_, .word .nul⟩] => .ok record
    | value => .soft (typeError (kindOf value) path goType)

/-- A field of type `json.RawMessage`: the text of the value as it stands. -/
def rawField (name : String) (set : Bytes → α → α) : RecordField α where
  name := ascii name
  store value record := .ok (set (slice value) record)

/-- A field of type `time.Time`. The literal is read without its escapes being resolved;
`message` is what `time` reports for a text that is not a timestamp. -/
def timeField (name : String) (message : Bytes → Bytes) (set : Time → α → α) : RecordField α where
  name := ascii name
  store value record :=
    match value with
    | [⟨_, .word .nul⟩] => .ok record
    | [⟨_, .str items⟩] =>
        match parseRFC3339 (flat (items.flatMap StrItem.runes)) with
        | some t => .ok (set t record)
        | none => .hard (message (slice value))
    | _ => .hard (ascii "Time.UnmarshalJSON: input is not a JSON string")

/-- The field a member is bound to. -/
def findField (fold : Bytes → Bytes) (fields : List (RecordField α)) (name : Bytes) :
    Option (RecordField α) :=
  (fields.find? fun f => f.name = name).or (fields.find? fun f => fold f.name = fold name)

/-- A field that is found is one of the fields. -/
theorem mem_of_findField {fold : Bytes → Bytes} {fields : List (RecordField α)}
    {name : Bytes} {field : RecordField α}
    (h : findField fold fields name = some field) : field ∈ fields := by
  obtain hexact | ⟨_, hfolded⟩ := Option.or_eq_some_iff.mp h
  · exact List.mem_of_find?_eq_some hexact
  · exact List.mem_of_find?_eq_some hfolded

/-- Store the members of an object one after another, with the first soft error so far.
`unknown` is the message for a member no field takes, when such members are errors. -/
def storeMembers (fold : Bytes → Bytes) (fields : List (RecordField α))
    (unknown : Option (Bytes → Bytes)) :
    List Member → α → Option Bytes → Except Bytes (α × Option Bytes)
  | [], record, saved => .ok (record, saved)
  | member :: rest, record, saved =>
      match findField fold fields (unquote member.name) with
      | none =>
          storeMembers fold fields unknown rest record
            (saved.or (unknown.map fun message => message (unquote member.name)))
      | some field =>
          match field.store member.value record with
          | .ok next => storeMembers fold fields unknown rest next saved
          | .soft message => storeMembers fold fields unknown rest record (saved.or (some message))
          | .hard message => .error message

/-- Read a document into a record. `typeName` names the record in messages. -/
def decodeObject (fold : Bytes → Bytes) (fields : List (RecordField α))
    (unknown : Option (Bytes → Bytes)) (typeName : String) (zero : α)
    (doc : List Lexeme) : Except Bytes α :=
  match doc with
  | [⟨_, .word .nul⟩] => .ok zero
  | ⟨_, .lbrace⟩ :: _ => do
      let (record, saved) ← storeMembers fold fields unknown (members doc) zero none
      match saved with
      | none => .ok record
      | some message => .error message
  | doc =>
      .error (ascii "json: cannot unmarshal " ++ kindOf doc ++ ascii " into Go value of type " ++
        ascii typeName)

/-- A field that is a pointer to a record. `null` clears it, an object is stored in the record it
points to or in a new one. -/
def pointerField {β : Type} (path name goType : String) (fold : Bytes → Bytes)
    (fields : List (RecordField β)) (zero : β) (get : α → Option β) (set : Option β → α → α) :
    RecordField α where
  name := ascii name
  store value record :=
    match value with
    | [⟨_, .word .nul⟩] => .ok (set none record)
    | ⟨_, .lbrace⟩ :: _ =>
        match storeMembers fold fields none (members value) ((get record).getD zero) none with
        | .ok (inner, none) => .ok (set (some inner) record)
        | .ok (_, some message) => .soft message
        | .error message => .hard message
    | value => .soft (typeError (kindOf value) path goType)

end Iot.Json
