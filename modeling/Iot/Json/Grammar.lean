import Iot.Json.Token

/-!
# The grammar of JSON documents

`State.step` is the pushdown machine of a JSON scanner: a stack of open objects and arrays and
what may come next. A document is valid when the machine reads its tokens and ends after one
value (`isDocument`). The machine takes the nesting limit as an argument: `json.Valid` and
`json.Unmarshal` allow `maxNestingDepth` levels, a token reader any number.

`takeValue` cuts one value off a run of tokens and `members` lists the members of an object,
both by counting brackets.
-/

namespace Iot.Json

open Text

/-- An open object, before the colon of a member or in its value, or an open array. -/
inductive Frame where
  | objectKey
  | objectValue
  | array
  deriving DecidableEq, Repr

/-- What the next token must be. -/
inductive Mode where
  /-- A value. -/
  | value
  /-- A value, or the end of an array just opened. -/
  | valueOrEnd
  /-- A member name. -/
  | key
  /-- A member name, or the end of an object just opened. -/
  | keyOrEnd
  /-- What may follow a value or a member name. -/
  | after
  deriving DecidableEq, Repr

/-- A state of the scanner. -/
structure State where
  stack : List Frame
  mode : Mode
  deriving DecidableEq, Repr

/-- The nesting limit of `encoding/json`. -/
def maxNestingDepth : Nat := 10000

/-- Open an object or an array below the nesting limit. -/
def State.push (limit : Nat) (state : State) (frame : Frame) (mode : Mode) : Option State :=
  if state.stack.length < limit then some ⟨frame :: state.stack, mode⟩ else none

/-- Read the first token of a value. -/
def State.open (limit : Nat) (state : State) : Tok → Option State
  | .lbrace => state.push limit .objectKey .keyOrEnd
  | .lbrack => state.push limit .array .valueOrEnd
  | .str _ | .num _ | .word _ => some ⟨state.stack, .after⟩
  | _ => none

/-- Close the innermost object or array. -/
def State.pop (state : State) : Option State :=
  match state.stack with
  | [] => none
  | _ :: rest => some ⟨rest, .after⟩

/-- Read a member name. -/
def State.name (state : State) : Tok → Option State
  | .str _ => some ⟨state.stack, .after⟩
  | _ => none

/-- Read what follows a value or a member name. -/
def State.goOn (state : State) (tok : Tok) : Option State :=
  match state.stack with
  | [] => none
  | .objectKey :: rest => if tok = .colon then some ⟨.objectValue :: rest, .value⟩ else none
  | .objectValue :: rest =>
      if tok = .comma then some ⟨.objectKey :: rest, .key⟩
      else if tok = .rbrace then state.pop
      else none
  | .array :: rest =>
      if tok = .comma then some ⟨.array :: rest, .value⟩
      else if tok = .rbrack then state.pop
      else none

/-- Read one token. -/
def State.step (limit : Nat) (state : State) (tok : Tok) : Option State :=
  match state.mode with
  | .value => state.open limit tok
  | .valueOrEnd => if tok = .rbrack then state.pop else state.open limit tok
  | .key => state.name tok
  | .keyOrEnd => if tok = .rbrace then state.pop else state.name tok
  | .after => state.goOn tok

/-- Read a run of tokens. -/
def State.run (limit : Nat) (state : State) : List Tok → Option State
  | [] => some state
  | tok :: rest => do
      let next ← state.step limit tok
      next.run limit rest

/-- The machine before the first token. -/
def State.initial : State := ⟨[], .value⟩

/-- The machine after exactly one value. -/
def State.final : State := ⟨[], .after⟩

/-- The tokens form one value with at most `limit` levels of nesting. -/
def isDocument (limit : Nat) (toks : List Tok) : Bool :=
  State.initial.run limit toks == some State.final

/-- The tokens of a document with at most `limit` levels of nesting. -/
def parseWithin (limit : Nat) (raw : Bytes) : Option (List Lexeme) := do
  let lexemes ← lex raw
  if isDocument limit (lexemes.map Lexeme.tok) then some lexemes else none

/-- The tokens of a document that `json.Unmarshal` reads. -/
def parse (raw : Bytes) : Option (List Lexeme) := parseWithin maxNestingDepth raw

/-- `json.Valid`. -/
def valid (raw : Bytes) : Bool := (parse raw).isSome

/-- The number of open brackets after a token. -/
def depthAfter (depth : Nat) : Tok → Nat
  | .lbrace | .lbrack => depth + 1
  | .rbrace | .rbrack => depth - 1
  | _ => depth

/-- Cut a run of lexemes where the brackets open at its start are closed again. -/
def takeUntilClosed (depth : Nat) : List Lexeme → List Lexeme × List Lexeme
  | [] => ([], [])
  | first :: rest =>
      if depthAfter depth first.tok = 0 then ([first], rest)
      else
        let (value, more) := takeUntilClosed (depthAfter depth first.tok) rest
        (first :: value, more)

/-- Cut the first value off a run of lexemes. -/
def takeValue (lexemes : List Lexeme) : List Lexeme × List Lexeme := takeUntilClosed 0 lexemes

/-- A member of an object: its name as written and the lexemes of its value. -/
structure Member where
  name : List StrItem
  value : List Lexeme
  deriving DecidableEq, Repr

/-- The members in a run of lexemes that starts at a member name. At most `fuel` members. -/
def membersFrom : Nat → List Lexeme → List Member
  | fuel + 1, ⟨_, .str name⟩ :: ⟨_, .colon⟩ :: rest =>
      let (value, more) := takeValue rest
      ⟨name, value⟩ ::
        match more with
        | ⟨_, .comma⟩ :: next => membersFrom fuel next
        | _ => []
  | _, _ => []

/-- The members of a document that is an object, in the order written. -/
def members : List Lexeme → List Member
  | ⟨_, .lbrace⟩ :: rest => membersFrom rest.length rest
  | _ => []

end Iot.Json
