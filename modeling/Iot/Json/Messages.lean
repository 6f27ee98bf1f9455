import Iot.Json.Object

/-!
# The length of decoding errors

`json.Unmarshal` reports the first member that a field does not take. The message names the field
and its type, and quotes a number or a timestamp. `Brief` bounds what one field reports for one
value, and `decodeObject_brief` what is reported for a document.
-/

namespace Iot.Json

open Text

variable {α : Type} {n : Nat}

/-- What a field reports for a value has at most `n` bytes. -/
def RecordField.Brief (n : Nat) (field : RecordField α) (value : List Lexeme) : Prop :=
  ∀ record message, field.store value record = .soft message ∨
    field.store value record = .hard message → message.length ≤ n

/-- The name of a type is short. -/
theorem length_kindOf (value : List Lexeme) : (kindOf value).length ≤ 6 := by
  unfold kindOf
  split <;> decide

/-- The length of a message about a type. -/
theorem length_typeError (value : Bytes) (path goType : String) :
    (typeError value path goType).length =
      value.length + (ascii path).length + (ascii goType).length + 54 := by
  have htexts : (ascii "json: cannot unmarshal ").length = 23 ∧
      (ascii " into Go struct field ").length = 22 ∧ (ascii " of type ").length = 9 := by decide
  simp only [typeError, List.length_append, htexts]
  omega

/-! ## Fields -/

section Fields

variable {path name goType : String} {value : List Lexeme}

/-- A string field names the type it got. -/
theorem brief_strField {set : Bytes → α → α}
    (h : (ascii path).length + (ascii goType).length + 60 ≤ n) :
    (strField path name goType set).Brief n value := by
  intro record message hmessage
  have hkind := length_kindOf value
  simp only [strField] at hmessage
  split at hmessage
  · simp at hmessage
  · simp at hmessage
  · obtain rfl : typeError (kindOf value) path goType = message := by simpa using hmessage
    rw [length_typeError]
    omega

/-- An integer field quotes a number that is none. -/
theorem brief_intField {set : Int → α → α} {longest : Nat}
    (h : (ascii path).length + (ascii goType).length + longest + 61 ≤ n)
    (hvalue : ∀ space literal, value = [⟨space, .num literal⟩] → literal.length ≤ longest) :
    (intField path name goType set).Brief n value := by
  intro record message hmessage
  have hnumber : (ascii "number ").length = 7 := by decide
  have hkind := length_kindOf value
  simp only [intField] at hmessage
  split at hmessage
  · rename_i space literal
    have hliteral := hvalue space literal rfl
    have hquoted : (typeError (ascii "number " ++ literal) path goType).length ≤ n := by
      rw [length_typeError, List.length_append]
      omega
    split at hmessage
    · split_ifs at hmessage
      · simp at hmessage
      · obtain rfl : typeError (ascii "number " ++ literal) path goType = message := by
          simpa using hmessage
        exact hquoted
    · obtain rfl : typeError (ascii "number " ++ literal) path goType = message := by
        simpa using hmessage
      exact hquoted
  · simp at hmessage
  · obtain rfl : typeError (kindOf value) path goType = message := by simpa using hmessage
    rw [length_typeError]
    omega

/-- A raw field takes every value. -/
theorem brief_rawField {set : Bytes → α → α} : (rawField name set).Brief n value := by
  intro record message hmessage
  simp [rawField] at hmessage

/-- A time field reports what `time` does. -/
theorem brief_timeField {text : Bytes → Bytes} {set : Time → α → α} (h : 46 ≤ n)
    (hvalue : ∀ space items, value = [⟨space, .str items⟩] → (text (slice value)).length ≤ n) :
    (timeField name text set).Brief n value := by
  intro record message hmessage
  simp only [timeField] at hmessage
  split at hmessage
  · simp at hmessage
  · rename_i space items
    split at hmessage
    · simp at hmessage
    · obtain rfl : text (slice [⟨space, .str items⟩]) = message := by simpa using hmessage
      exact hvalue space items rfl
  · obtain rfl : ascii "Time.UnmarshalJSON: input is not a JSON string" = message := by
      simpa using hmessage
    exact Nat.le_trans (by decide) h

end Fields

/-! ## Objects -/

section Objects

variable {fold : Bytes → Bytes} {fields : List (RecordField α)}

/-- What is reported for members, at once or at the end. -/
theorem storeMembers_brief {members : List Member}
    (hfields : ∀ field ∈ fields, ∀ member ∈ members, field.Brief n member.value) {record : α}
    {saved : Option Bytes} (hsaved : ∀ message, saved = some message → message.length ≤ n) :
    (∀ message, storeMembers fold fields none members record saved = .error message →
      message.length ≤ n) ∧
    ∀ last message, storeMembers fold fields none members record saved = .ok (last, some message) →
      message.length ≤ n := by
  induction members generalizing record saved with
  | nil =>
      refine ⟨fun message h => (nomatch h), fun last message h => ?_⟩
      cases h
      exact hsaved message rfl
  | cons member rest ih =>
      have hrest := fun field hfield other hother =>
        hfields field hfield other (List.mem_cons_of_mem member hother)
      rw [storeMembers]
      split
      · -- a name that is not known is left alone
        rw [Option.map_none, Option.or_none]
        exact ih hrest hsaved
      · rename_i field hfind
        have hbrief := hfields field (mem_of_findField hfind) member (by simp) record
        split
        · exact ih hrest hsaved
        · rename_i message hmessage
          refine ih hrest fun first hfirst => ?_
          obtain hfirst | ⟨_, hfirst⟩ := Option.or_eq_some_iff.mp hfirst
          · exact hsaved first hfirst
          · cases hfirst
            exact hbrief _ (.inl hmessage)
        · rename_i message hmessage
          refine ⟨fun message' h => ?_, fun last message' h => (nomatch h)⟩
          cases h
          exact hbrief _ (.inr hmessage)

/-- A field that points to a record reports what the fields of the record do. -/
theorem brief_pointerField {β : Type} {path name goType : String} {inner : List (RecordField β)}
    {zero : β} {get : α → Option β} {set : Option β → α → α} {value : List Lexeme}
    (h : (ascii path).length + (ascii goType).length + 60 ≤ n)
    (hinner : ∀ field ∈ inner, ∀ member ∈ members value, field.Brief n member.value) :
    (pointerField path name goType fold inner zero get set).Brief n value := by
  intro record message hmessage
  have hkind := length_kindOf value
  simp only [pointerField] at hmessage
  split at hmessage
  · simp at hmessage
  · obtain ⟨herror, hsaved⟩ := @storeMembers_brief β n fold inner _ hinner
      ((get record).getD zero) none (fun _ h => (nomatch h))
    split at hmessage
    · simp at hmessage
    · rename_i last first hstored
      obtain rfl : first = message := by simpa using hmessage
      exact hsaved _ _ hstored
    · rename_i first hstored
      obtain rfl : first = message := by simpa using hmessage
      exact herror _ hstored
  · obtain rfl : typeError (kindOf value) path goType = message := by simpa using hmessage
    rw [length_typeError]
    omega

/-- What is reported for a document. -/
theorem decodeObject_brief {typeName : String} {zero : α} {doc : List Lexeme} {message : Bytes}
    (htype : (ascii typeName).length + 52 ≤ n)
    (hfields : ∀ field ∈ fields, ∀ member ∈ members doc, field.Brief n member.value)
    (h : decodeObject fold fields none typeName zero doc = .error message) :
    message.length ≤ n := by
  unfold decodeObject at h
  split at h
  · cases h
  · obtain ⟨herror, hsaved⟩ := @storeMembers_brief α n fold fields _ hfields zero none
      (fun _ h => (nomatch h))
    generalize hstored : storeMembers fold fields none _ zero none = stored at h herror hsaved
    obtain first | ⟨last, _ | first⟩ := stored
    · cases h
      exact herror _ rfl
    · cases h
    · cases h
      exact hsaved _ _ rfl
  · cases h
    have htexts : (ascii "json: cannot unmarshal ").length = 23 ∧
        (ascii " into Go value of type ").length = 23 := by decide
    have hkind := length_kindOf doc
    simp only [List.length_append, htexts]
    omega

end Objects

end Iot.Json
