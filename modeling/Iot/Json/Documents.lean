import Iot.Json.Object
import Iot.Json.Printing

/-!
# Documents put together from values

How the scanner runs over a value inside a larger document (`run_value`), that an object of
values is a document with one more level of nesting (`isDocument_object`), and that cutting such
an object into members gives the values back (`members_object`).
-/

namespace Iot.Json

open Text

/-! ## Runs of the scanner -/

/-- The scanner reads two runs of tokens one after the other. -/
theorem run_append (limit : Nat) (state : State) (first second : List Tok) :
    state.run limit (first ++ second) =
      (state.run limit first).bind fun next => next.run limit second := by
  induction first generalizing state with
  | nil => rfl
  | cons tok rest ih =>
      cases hstep : state.step limit tok <;> simp [State.run, hstep, ih]

/-- The moves of the scanner. -/
inductive Move (limit : Nat) : State → Tok → State → Prop where
  | scalar {stack : List Frame} {mode : Mode} {tok : Tok}
      (hmode : mode = .value ∨ mode = .valueOrEnd)
      (htok : (∃ items, tok = .str items) ∨ (∃ literal, tok = .num literal) ∨ ∃ w, tok = .word w) :
      Move limit ⟨stack, mode⟩ tok ⟨stack, .after⟩
  | openObject {stack : List Frame} {mode : Mode} (hmode : mode = .value ∨ mode = .valueOrEnd)
      (hlimit : stack.length < limit) :
      Move limit ⟨stack, mode⟩ .lbrace ⟨.objectKey :: stack, .keyOrEnd⟩
  | openArray {stack : List Frame} {mode : Mode} (hmode : mode = .value ∨ mode = .valueOrEnd)
      (hlimit : stack.length < limit) :
      Move limit ⟨stack, mode⟩ .lbrack ⟨.array :: stack, .valueOrEnd⟩
  | name {stack : List Frame} {mode : Mode} {items : List StrItem}
      (hmode : mode = .key ∨ mode = .keyOrEnd) :
      Move limit ⟨stack, mode⟩ (.str items) ⟨stack, .after⟩
  | colon {rest : List Frame} :
      Move limit ⟨.objectKey :: rest, .after⟩ .colon ⟨.objectValue :: rest, .value⟩
  | member {rest : List Frame} :
      Move limit ⟨.objectValue :: rest, .after⟩ .comma ⟨.objectKey :: rest, .key⟩
  | element {rest : List Frame} :
      Move limit ⟨.array :: rest, .after⟩ .comma ⟨.array :: rest, .value⟩
  | closeObject {frame : Frame} {rest : List Frame} {mode : Mode}
      (hmode : mode = .keyOrEnd ∨ mode = .after ∧ frame = .objectValue) :
      Move limit ⟨frame :: rest, mode⟩ .rbrace ⟨rest, .after⟩
  | closeArray {frame : Frame} {rest : List Frame} {mode : Mode}
      (hmode : mode = .valueOrEnd ∨ mode = .after ∧ frame = .array) :
      Move limit ⟨frame :: rest, mode⟩ .rbrack ⟨rest, .after⟩

/-- The scanner makes exactly these moves. -/
theorem step_iff {limit : Nat} {state : State} {tok : Tok} {next : State} :
    state.step limit tok = some next ↔ Move limit state tok next := by
  constructor
  · intro h
    obtain ⟨stack, mode⟩ := state
    cases mode with
    | value =>
        cases tok <;> simp [State.step, State.open, State.push] at h
        case lbrace => obtain ⟨hlimit, rfl⟩ := h; exact .openObject (by simp) hlimit
        case lbrack => obtain ⟨hlimit, rfl⟩ := h; exact .openArray (by simp) hlimit
        all_goals subst h; exact .scalar (by simp) (by simp)
    | valueOrEnd =>
        cases tok <;> simp [State.step, State.open, State.push] at h
        case lbrace => obtain ⟨hlimit, rfl⟩ := h; exact .openObject (by simp) hlimit
        case lbrack => obtain ⟨hlimit, rfl⟩ := h; exact .openArray (by simp) hlimit
        case rbrack =>
          cases stack <;> simp [State.pop] at h
          subst h; exact .closeArray (by simp)
        all_goals subst h; exact .scalar (by simp) (by simp)
    | key =>
        cases tok <;> simp [State.step, State.name] at h
        subst h; exact .name (by simp)
    | keyOrEnd =>
        cases tok <;> simp [State.step, State.name] at h
        case rbrace =>
          cases stack <;> simp [State.pop] at h
          subst h; exact .closeObject (by simp)
        subst h; exact .name (by simp)
    | after =>
        rcases stack with _ | ⟨_ | _ | _, rest⟩ <;>
          cases tok <;> simp [State.step, State.goOn, State.pop] at h <;> subst h
        · exact .colon
        · exact .closeObject (by simp)
        · exact .member
        · exact .closeArray (by simp)
        · exact .element
  · intro h
    cases h with
    | scalar hmode htok =>
        rcases hmode with rfl | rfl <;> rcases htok with ⟨_, rfl⟩ | ⟨_, rfl⟩ | ⟨_, rfl⟩ <;> rfl
    | openObject hmode hlimit | openArray hmode hlimit =>
        rcases hmode with rfl | rfl <;> simp [State.step, State.open, State.push, hlimit]
    | name hmode => rcases hmode with rfl | rfl <;> rfl
    | colon | member | element => rfl
    | closeObject hmode | closeArray hmode => rcases hmode with rfl | ⟨rfl, rfl⟩ <;> rfl

/-- A run makes one move and goes on. -/
theorem run_cons_iff {limit : Nat} {state : State} {tok : Tok} {rest : List Tok} {last : State} :
    state.run limit (tok :: rest) = some last ↔
      ∃ next, Move limit state tok next ∧ next.run limit rest = some last := by
  simp only [State.run, Option.bind_eq_bind, Option.bind_eq_some_iff, step_iff]

/-- A move is possible above other open brackets as well, with the limit raised by them. -/
theorem Move.lift {limit : Nat} {state next : State} {tok : Tok} (h : Move limit state tok next)
    (base : List Frame) :
    Move (limit + base.length) ⟨state.stack ++ base, state.mode⟩ tok
      ⟨next.stack ++ base, next.mode⟩ := by
  cases h with
  | scalar hmode htok => exact .scalar hmode htok
  | openObject hmode hlimit =>
      refine .openObject hmode ?_
      rw [List.length_append]
      exact Nat.add_lt_add_right hlimit _
  | openArray hmode hlimit =>
      refine .openArray hmode ?_
      rw [List.length_append]
      exact Nat.add_lt_add_right hlimit _
  | name hmode => exact .name hmode
  | colon => exact .colon
  | member => exact .member
  | element => exact .element
  | closeObject hmode => exact .closeObject hmode
  | closeArray hmode => exact .closeArray hmode

/-- A run is possible above other open brackets as well. -/
theorem run_lift {limit : Nat} {state last : State} {toks : List Tok}
    (h : state.run limit toks = some last) (base : List Frame) :
    State.run (limit + base.length) ⟨state.stack ++ base, state.mode⟩ toks =
      some ⟨last.stack ++ base, last.mode⟩ := by
  induction toks generalizing state with
  | nil =>
      cases h
      rfl
  | cons tok rest ih =>
      obtain ⟨next, hmove, hrest⟩ := run_cons_iff.mp h
      exact run_cons_iff.mpr ⟨_, hmove.lift base, ih hrest⟩

/-- A move is possible below a higher limit. -/
theorem Move.mono {limit limit' : Nat} {state next : State} {tok : Tok}
    (h : Move limit state tok next) (hle : limit ≤ limit') : Move limit' state tok next := by
  cases h with
  | openObject hmode hlimit => exact .openObject hmode (hlimit.trans_le hle)
  | openArray hmode hlimit => exact .openArray hmode (hlimit.trans_le hle)
  | scalar hmode htok => exact .scalar hmode htok
  | name hmode => exact .name hmode
  | colon => exact .colon
  | member => exact .member
  | element => exact .element
  | closeObject hmode => exact .closeObject hmode
  | closeArray hmode => exact .closeArray hmode

/-- A run is possible below a higher limit. -/
theorem run_mono {limit limit' : Nat} {state last : State} {toks : List Tok}
    (h : state.run limit toks = some last) (hle : limit ≤ limit') :
    state.run limit' toks = some last := by
  induction toks generalizing state with
  | nil => exact h
  | cons tok rest ih =>
      obtain ⟨next, hmove, hrest⟩ := run_cons_iff.mp h
      exact run_cons_iff.mpr ⟨next, hmove.mono hle, ih hrest⟩

/-- A document is a run from the start to the end. -/
theorem isDocument_iff {limit : Nat} {toks : List Tok} :
    isDocument limit toks ↔ State.run limit ⟨[], .value⟩ toks = some ⟨[], .after⟩ := by
  simp [isDocument, State.initial, State.final]

/-- A document stays one below a higher limit. -/
theorem isDocument_mono {limit limit' : Nat} {toks : List Tok} (h : isDocument limit toks)
    (hle : limit ≤ limit') : isDocument limit' toks :=
  isDocument_iff.mpr (run_mono (isDocument_iff.mp h) hle)

/-- A document is a value wherever one may stand. -/
theorem run_value {limit : Nat} {toks : List Tok} (h : isDocument limit toks)
    (stack : List Frame) :
    State.run (limit + stack.length) ⟨stack, .value⟩ toks = some ⟨stack, .after⟩ :=
  run_lift (isDocument_iff.mp h) stack

/-- A bracket is opened below the limit only. -/
theorem Move.length_lt {limit : Nat} {stack : List Frame} {mode : Mode} {tok : Tok} {next : State}
    (h : Move limit ⟨stack, mode⟩ tok next) (htok : tok = .lbrace ∨ tok = .lbrack) :
    stack.length < limit := by
  cases h with
  | openObject _ hlimit | openArray _ hlimit => exact hlimit
  | scalar _ hscalar => rcases htok with rfl | rfl <;> simp at hscalar
  | name | colon | member | element | closeObject | closeArray => simp at htok

/-- In a run of the scanner no two tokens run into each other. -/
theorem separated_of_run {limit : Nat} {state last : State} {toks : List Tok}
    (h : state.run limit toks = some last) : Separated toks := by
  induction toks generalizing state with
  | nil => exact .nil
  | cons tok rest ih =>
      obtain ⟨next, hmove, hrest⟩ := run_cons_iff.mp h
      cases rest with
      | nil => exact .singleton tok
      | cons tok' rest =>
          refine .cons_cons ?_ (ih hrest)
          rintro ⟨hopen, hopen'⟩
          obtain ⟨_, hmove', _⟩ := run_cons_iff.mp hrest
          -- after a number or a word the scanner waits for punctuation
          have hmode : next.mode = .after := by
            cases hmove <;> first | rfl | cases hopen
          cases hmove' <;> simp_all [Tok.openEnded]

/-- In a document no two tokens run into each other. -/
theorem separated_of_document {limit : Nat} {toks : List Tok} (h : isDocument limit toks) :
    Separated toks := separated_of_run (isDocument_iff.mp h)

/-! ## Cutting values out -/

/-- The brackets counted are those on the stack of the scanner. -/
theorem Move.depthAfter {limit : Nat} {state next : State} {tok : Tok}
    (h : Move limit state tok next) : depthAfter state.stack.length tok = next.stack.length := by
  cases h with
  | scalar hmode htok => rcases htok with ⟨_, rfl⟩ | ⟨_, rfl⟩ | ⟨_, rfl⟩ <;> rfl
  | openObject | openArray | name | colon | member | element | closeObject | closeArray => rfl

/-- A move that leaves no bracket open ends a value. -/
theorem Move.mode_of_empty {limit : Nat} {state next : State} {tok : Tok}
    (h : Move limit state tok next) (hstack : next.stack = []) : next.mode = .after := by
  cases h <;> first | rfl | cases hstack

/-- Nothing follows a complete value. -/
theorem run_after_nil {limit : Nat} {toks : List Tok} {last : State}
    (h : State.run limit ⟨[], .after⟩ toks = some last) : toks = [] := by
  cases toks with
  | nil => rfl
  | cons tok rest =>
      obtain ⟨next, hmove, _⟩ := run_cons_iff.mp h
      cases hmove <;> simp_all

/-- The rest of a value is cut off where the scanner finishes it. -/
theorem takeUntilClosed_run {limit : Nat} {state : State} {value : List Lexeme}
    (h : state.run limit (value.map Lexeme.tok) = some ⟨[], .after⟩)
    (hunfinished : state.stack ≠ [] ∨ value ≠ []) (more : List Lexeme) :
    takeUntilClosed state.stack.length (value ++ more) = (value, more) := by
  induction value generalizing state with
  | nil =>
      cases h
      simp at hunfinished
  | cons first rest ih =>
      rw [List.map_cons] at h
      obtain ⟨next, hmove, hrest⟩ := run_cons_iff.mp h
      rw [List.cons_append, takeUntilClosed, hmove.depthAfter]
      by_cases hstack : next.stack = []
      · have hnext : next = ⟨[], .after⟩ := by
          have hmode := hmove.mode_of_empty hstack
          obtain ⟨stack, mode⟩ := next
          simp only at hstack hmode
          rw [hstack, hmode]
        rw [hnext] at hrest
        have hnil : rest = [] := by simpa using run_after_nil hrest
        simp [hstack, hnil]
      · have hlength : next.stack.length ≠ 0 := by simpa using hstack
        rw [if_neg hlength, ih hrest (Or.inl hstack)]

/-- A document in front of more lexemes is cut off as one value. -/
theorem takeValue_document {limit : Nat} {value : List Lexeme}
    (h : isDocument limit (value.map Lexeme.tok)) (more : List Lexeme) :
    takeValue (value ++ more) = (value, more) := by
  have hrun := isDocument_iff.mp h
  refine takeUntilClosed_run hrun (Or.inr ?_) more
  rintro rfl
  cases hrun

/-- A move inside a value does not look at the brackets around the value. -/
theorem Move.split {limit : Nat} {base opened : List Frame} {mode : Mode} {tok : Tok} {next : State}
    (h : Move (limit + base.length) ⟨opened ++ base, mode⟩ tok next)
    (hopen : opened ≠ [] ∨ mode = .value) :
    ∃ opened' mode', next = ⟨opened' ++ base, mode'⟩ ∧
      Move limit ⟨opened, mode⟩ tok ⟨opened', mode'⟩ := by
  have hlimit : tok = .lbrace ∨ tok = .lbrack → opened.length < limit := by
    intro htok
    have hlt := h.length_lt htok
    rw [List.length_append] at hlt
    exact Nat.lt_of_add_lt_add_right hlt
  cases opened with
  | nil =>
      obtain rfl : mode = .value := hopen.resolve_left (by simp)
      cases h with
      | scalar hmode htok => exact ⟨[], .after, rfl, .scalar hmode htok⟩
      | openObject hmode _ =>
          exact ⟨[.objectKey], .keyOrEnd, rfl, .openObject hmode (hlimit (Or.inl rfl))⟩
      | openArray hmode _ =>
          exact ⟨[.array], .valueOrEnd, rfl, .openArray hmode (hlimit (Or.inr rfl))⟩
      | name hmode => simp at hmode
      | closeObject hmode | closeArray hmode => simp at hmode
  | cons frame opened =>
      cases h with
      | scalar hmode htok => exact ⟨frame :: opened, .after, rfl, .scalar hmode htok⟩
      | openObject hmode _ =>
          exact ⟨.objectKey :: frame :: opened, .keyOrEnd, rfl,
            .openObject hmode (hlimit (Or.inl rfl))⟩
      | openArray hmode _ =>
          exact ⟨.array :: frame :: opened, .valueOrEnd, rfl,
            .openArray hmode (hlimit (Or.inr rfl))⟩
      | name hmode => exact ⟨frame :: opened, .after, rfl, .name hmode⟩
      | colon => exact ⟨.objectValue :: opened, .value, rfl, .colon⟩
      | member => exact ⟨.objectKey :: opened, .key, rfl, .member⟩
      | element => exact ⟨.array :: opened, .value, rfl, .element⟩
      | closeObject hmode => exact ⟨opened, .after, rfl, .closeObject hmode⟩
      | closeArray hmode => exact ⟨opened, .after, rfl, .closeArray hmode⟩

/-- What `takeUntilClosed` cuts off inside a document is a value, and the scanner goes on behind
it. -/
theorem takeUntilClosed_split {limit : Nat} {base opened : List Frame} {mode : Mode}
    {lexemes : List Lexeme} {last : State}
    (h : State.run (limit + base.length) ⟨opened ++ base, mode⟩ (lexemes.map Lexeme.tok) =
      some last) (hopen : opened ≠ [] ∨ mode = .value) (hlast : last.stack.length < base.length) :
    ∃ value more, takeUntilClosed opened.length lexemes = (value, more) ∧
      lexemes = value ++ more ∧
      State.run limit ⟨opened, mode⟩ (value.map Lexeme.tok) = some ⟨[], .after⟩ ∧
      State.run (limit + base.length) ⟨base, .after⟩ (more.map Lexeme.tok) = some last := by
  induction lexemes generalizing opened mode with
  | nil =>
      cases h
      rw [List.length_append] at hlast
      omega
  | cons first rest ih =>
      obtain ⟨next, hmove, hrest⟩ := run_cons_iff.mp h
      obtain ⟨opened', mode', rfl, hinner⟩ := hmove.split hopen
      have hdepth : depthAfter opened.length first.tok = opened'.length := hinner.depthAfter
      cases opened' with
      | nil =>
          obtain rfl : mode' = .after := hinner.mode_of_empty rfl
          refine ⟨[first], rest, ?_, rfl, run_cons_iff.mpr ⟨_, hinner, rfl⟩, hrest⟩
          rw [takeUntilClosed, hdepth]
          rfl
      | cons frame opened' =>
          obtain ⟨value, more, htake, rfl, hvalue, hmore⟩ := ih hrest (Or.inl (by simp))
          refine ⟨first :: value, more, ?_, rfl, run_cons_iff.mpr ⟨_, hinner, hvalue⟩, hmore⟩
          rw [takeUntilClosed, hdepth, htake]
          rfl

/-! ## Objects -/

/-- The members of an object in a document are values with one level less. -/
theorem membersFrom_split {limit : Nat} {fuel : Nat} {lexemes : List Lexeme} {mode : Mode}
    (h : State.run (limit + 1) ⟨[.objectKey], mode⟩ (lexemes.map Lexeme.tok) = some ⟨[], .after⟩) :
    ∀ m ∈ membersFrom fuel lexemes,
      isDocument limit (m.value.map Lexeme.tok) ∧ ∀ l ∈ m.value, l ∈ lexemes := by
  induction fuel generalizing lexemes mode with
  | zero => simp [membersFrom]
  | succ fuel ih =>
      unfold membersFrom
      split
      · next space name space' rest hfuel =>
        cases hfuel
        obtain ⟨afterName, hname, hrun⟩ := run_cons_iff.mp h
        obtain ⟨afterColon, hcolon, hrun⟩ := run_cons_iff.mp hrun
        obtain rfl : afterName = ⟨[.objectKey], .after⟩ := by
          cases hname with
          | scalar | name => rfl
        obtain rfl : afterColon = ⟨[.objectValue], .value⟩ := by
          cases hcolon with
          | scalar _ htok => simp at htok
          | colon => rfl
        obtain ⟨value, more, htake, rfl, hvalue, hmore⟩ :=
          @takeUntilClosed_split limit [.objectValue] [] .value _ _ hrun (Or.inr rfl) (by simp)
        rw [takeValue, show takeUntilClosed 0 (value ++ more) = (value, more) from htake]
        intro m hm
        rcases List.mem_cons.mp hm with rfl | hm
        · exact ⟨isDocument_iff.mpr hvalue, fun l hl => by simp [hl]⟩
        · -- behind a comma stands the next member, behind a brace nothing
          split at hm
          · next space'' next =>
            obtain ⟨afterComma, hcomma, hnext⟩ := run_cons_iff.mp hmore
            obtain rfl : afterComma = ⟨[.objectKey], .key⟩ := by
              cases hcomma with
              | scalar _ htok => simp at htok
              | member => rfl
            obtain ⟨hdocument, hmem⟩ := ih hnext m hm
            exact ⟨hdocument, fun l hl => by simp [hmem l hl]⟩
          · cases hm
      · simp

/-- The members of a document are values with one level less. -/
theorem members_split {limit : Nat} {doc : List Lexeme}
    (h : isDocument (limit + 1) (doc.map Lexeme.tok)) :
    ∀ m ∈ members doc, isDocument limit (m.value.map Lexeme.tok) ∧ ∀ l ∈ m.value, l ∈ doc := by
  unfold members
  split
  · next space rest =>
    obtain ⟨next, hmove, hrest⟩ := run_cons_iff.mp (isDocument_iff.mp h)
    obtain rfl : next = ⟨[.objectKey], .keyOrEnd⟩ := by
      cases hmove with
      | openObject => rfl
      | scalar _ htok => simp at htok
    intro m hm
    obtain ⟨hdocument, hmem⟩ := membersFrom_split hrest m hm
    exact ⟨hdocument, fun l hl => List.mem_cons_of_mem _ (hmem l hl)⟩
  · simp

/-- The text of a member's value is a document with one level less. -/
theorem parseWithin_member {limit : Nat} {raw : Bytes} {doc : List Lexeme}
    (h : parseWithin (limit + 1) raw = some doc) {m : Member} (hm : m ∈ members doc) :
    parseWithin limit (slice m.value) = some (trimHead m.value) := by
  simp only [parseWithin, Option.bind_eq_bind, Option.bind_eq_some_iff] at h
  obtain ⟨lexemes, hlex, hdoc⟩ := h
  split_ifs at hdoc with hdocument
  cases hdoc
  obtain ⟨hvalue, hmem⟩ := members_split hdocument m hm
  have hsound : ∀ l ∈ m.value, l.Sound := fun l hl => (lex_sound hlex).2 l (hmem l hl)
  have hclean : ∀ l ∈ m.value, l.tok.Clean := fun l hl => lex_clean hlex l (hmem l hl)
  rw [parseWithin, lex_slice hsound hclean (separated_of_document hvalue)]
  simp only [Option.bind_eq_bind, Option.bind_some, map_tok_trimHead, hvalue, if_true]

/-- A document written without white space is cut off as one value. -/
theorem takeValue_bare {limit : Nat} {value : List Tok} (h : isDocument limit value)
    (more : List Lexeme) : takeValue (value.map bare ++ more) = (value.map bare, more) := by
  rw [← map_tok_bare value] at h
  exact takeValue_document h more

/-- The tokens of an object after its first member. -/
def moreMembers (members : List (String × List Tok)) : List Tok :=
  members.flatMap fun m => .comma :: memberToks m

/-- Reading one member, from before its name to after its value. -/
theorem run_member {limit : Nat} {member : String × List Tok} (h : isDocument limit member.2)
    (mode : Mode) (hmode : mode = .key ∨ mode = .keyOrEnd) :
    State.run (limit + 1) ⟨[.objectKey], mode⟩ (memberToks member) =
      some ⟨[.objectValue], .after⟩ := by
  refine run_cons_iff.mpr ⟨_, .name hmode, run_cons_iff.mpr ⟨_, .colon, ?_⟩⟩
  exact run_value h [.objectValue]

/-- Reading the members after the first. -/
theorem run_moreMembers {limit : Nat} {members : List (String × List Tok)}
    (h : ∀ m ∈ members, isDocument limit m.2) :
    State.run (limit + 1) ⟨[.objectValue], .after⟩ (moreMembers members) =
      some ⟨[.objectValue], .after⟩ := by
  induction members with
  | nil => rfl
  | cons m rest ih =>
      rw [moreMembers, List.flatMap_cons, List.cons_append]
      refine run_cons_iff.mpr ⟨_, .member, ?_⟩
      rw [run_append, run_member (h m (by simp)) .key (Or.inl rfl)]
      exact ih fun other hother => h other (by simp [hother])

/-- An object of values is a document with one more level of nesting. -/
theorem isDocument_object {limit : Nat} {members : List (String × List Tok)}
    (h : ∀ m ∈ members, isDocument limit m.2) : isDocument (limit + 1) (object members) := by
  rw [isDocument_iff]
  cases members with
  | nil =>
      exact run_cons_iff.mpr ⟨_, .openObject (Or.inl rfl) (Nat.succ_pos limit),
        run_cons_iff.mpr ⟨_, .closeObject (Or.inl rfl), rfl⟩⟩
  | cons first rest =>
      rw [object, List.cons_append, List.cons_append]
      refine run_cons_iff.mpr ⟨_, .openObject (Or.inl rfl) (Nat.succ_pos limit), ?_⟩
      rw [run_append, run_append, run_member (h first (by simp)) .keyOrEnd (Or.inr rfl),
        Option.bind_some]
      have hmore := run_moreMembers fun m (hm : m ∈ rest) => h m (by simp [hm])
      rw [moreMembers] at hmore
      rw [hmore, Option.bind_some]
      exact run_cons_iff.mpr ⟨_, .closeObject (Or.inr ⟨rfl, rfl⟩), rfl⟩

/-- The members of an object as they are read. -/
def readMembers (members : List (String × List Tok)) : List Member :=
  members.map fun m => ⟨nameItems m.1, m.2.map bare⟩

/-- Cutting off one member. -/
theorem membersFrom_member {limit : Nat} {member : String × List Tok}
    (h : isDocument limit member.2) (fuel : Nat) (more : List Lexeme) :
    membersFrom (fuel + 1) ((memberToks member).map bare ++ more) =
      ⟨nameItems member.1, member.2.map bare⟩ ::
        match more with
        | ⟨_, .comma⟩ :: next => membersFrom fuel next
        | _ => [] := by
  have hcut : takeValue (member.2.map bare ++ more) = (member.2.map bare, more) :=
    takeValue_bare h more
  calc membersFrom (fuel + 1) ((memberToks member).map bare ++ more)
      = ⟨nameItems member.1, (takeValue (member.2.map bare ++ more)).1⟩ ::
          match (takeValue (member.2.map bare ++ more)).2 with
          | ⟨_, .comma⟩ :: next => membersFrom fuel next
          | _ => [] := rfl
    _ = _ := by rw [hcut]

/-- Cutting an object into members, from the first name on. -/
theorem membersFrom_object {limit : Nat} {first : String × List Tok}
    {rest : List (String × List Tok)} (h : ∀ m ∈ first :: rest, isDocument limit m.2)
    {fuel : Nat} (hfuel : rest.length < fuel) :
    membersFrom fuel ((memberToks first).map bare ++ (moreMembers rest).map bare ++
      [bare .rbrace]) = readMembers (first :: rest) := by
  induction rest generalizing first fuel with
  | nil =>
      obtain ⟨fuel, rfl⟩ := Nat.exists_eq_succ_of_ne_zero (Nat.ne_of_gt hfuel)
      rw [List.append_assoc, membersFrom_member (h first (by simp))]
      rfl
  | cons next rest ih =>
      obtain ⟨fuel, rfl⟩ := Nat.exists_eq_succ_of_ne_zero (Nat.ne_of_gt (Nat.zero_lt_of_lt hfuel))
      have hnext := ih (fun m hm => h m (List.mem_cons_of_mem _ hm)) (Nat.lt_of_succ_lt_succ hfuel)
      have hmore : (moreMembers (next :: rest)).map bare ++ [bare .rbrace] =
          ⟨[], .comma⟩ :: ((memberToks next).map bare ++ (moreMembers rest).map bare ++
            [bare .rbrace]) := by
        simp [moreMembers, bare]
      rw [List.append_assoc, membersFrom_member (h first (by simp)), hmore]
      simp only [hnext]
      rfl

/-- Cutting an object into members gives its members. -/
theorem members_object {limit : Nat} {members : List (String × List Tok)}
    (h : ∀ m ∈ members, isDocument limit m.2) :
    Json.members ((object members).map bare) = readMembers members := by
  cases members with
  | nil => rfl
  | cons first rest =>
      have hobject : (object (first :: rest)).map bare =
          ⟨[], .lbrace⟩ :: ((memberToks first).map bare ++ (moreMembers rest).map bare ++
            [bare .rbrace]) := by
        simp [object, moreMembers, bare]
      rw [hobject, Json.members]
      refine membersFrom_object h ?_
      have hlength : rest.length ≤ (moreMembers rest).length := by
        clear h hobject
        induction rest with
        | nil => rfl
        | cons m rest ih =>
            simp only [moreMembers, List.flatMap_cons, List.length_append, List.length_cons] at ih ⊢
            omega
      simp only [List.length_append, List.length_map, List.length_cons, List.length_nil]
      omega

end Iot.Json
