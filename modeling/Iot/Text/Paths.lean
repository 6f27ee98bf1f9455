import Iot.Text.Strings

/-!
# Cleaning paths

`path.Clean` of Go, as the segments it keeps: empty segments and `.` are dropped, and `..` takes the
segment before it away. A path of plain segments is clean, and cleaning any other rooted path makes
it shorter (`length_cleaned_eq_iff`).

Where every second segment is a plain one, no more is taken away than was put on before
(`foldl_pushSegment_paced`).
-/

namespace Iot.Text

/-- What `..` does to the segments before it. -/
def popSegment (rooted : Bool) : List Bytes → List Bytes
  | [] => if rooted then [] else [ascii ".."]
  | top :: rest => if top = ascii ".." then ascii ".." :: top :: rest else rest

/-- One more segment of a path. `stack` holds the segments kept so far, the last one first. -/
def pushSegment (rooted : Bool) (stack : List Bytes) (segment : Bytes) : List Bytes :=
  if segment = [] ∨ segment = ascii "." then stack
  else if segment = ascii ".." then popSegment rooted stack
  else segment :: stack

/-- The segments of the path that `path.Clean` returns. -/
def cleanSegments (path : Bytes) : List Bytes :=
  ((path.splitOn 0x2F).foldl (pushSegment (path.head? == some 0x2F)) []).reverse

/-- `path.Clean`. -/
def cleanPath (path : Bytes) : Bytes :=
  if path.head? = some 0x2F then 0x2F :: [0x2F].intercalate (cleanSegments path)
  else if cleanSegments path = [] then ascii "."
  else [0x2F].intercalate (cleanSegments path)

/-- A segment that stands for itself. -/
def PlainSegment (segment : Bytes) : Prop :=
  segment ≠ [] ∧ segment ≠ ascii "." ∧ segment ≠ ascii ".."

instance (segment : Bytes) : Decidable (PlainSegment segment) :=
  inferInstanceAs (Decidable (_ ∧ _ ∧ _))

/-- Rooted segments, none of which is `..`. -/
def Settled (stack : List Bytes) : Prop := ∀ segment ∈ stack, segment ≠ ascii ".."

instance (stack : List Bytes) : Decidable (Settled stack) :=
  inferInstanceAs (Decidable (∀ segment ∈ stack, segment ≠ ascii ".."))

variable {stack base segments : List Bytes} {segment : Bytes}

/-- A plain segment is put on the stack. -/
theorem pushSegment_plain (h : PlainSegment segment) :
    pushSegment true stack segment = segment :: stack := by
  obtain ⟨hempty, hdot, hdots⟩ := h
  rw [pushSegment, if_neg (by simp [hempty, hdot]), if_neg hdots]

/-- Any other segment is dropped, or takes the top away. -/
theorem pushSegment_other (hstack : Settled stack) (h : ¬ PlainSegment segment) :
    pushSegment true stack segment = stack ∨ pushSegment true stack segment = stack.tail := by
  by_cases hdrop : segment = [] ∨ segment = ascii "."
  · exact .inl (by rw [pushSegment, if_pos hdrop])
  · by_cases hdots : segment = ascii ".."
    · rw [pushSegment, if_neg hdrop, if_pos hdots]
      cases stack with
      | nil => exact .inl rfl
      | cons top rest => exact .inr (by rw [popSegment, if_neg (hstack top (by simp))]; rfl)
    · rw [not_or] at hdrop
      exact absurd ⟨hdrop.1, hdrop.2, hdots⟩ h

/-- What is on the stack was there before or is the new segment. -/
theorem mem_pushSegment {rooted : Bool} {kept : Bytes}
    (h : kept ∈ pushSegment rooted stack segment) : kept ∈ stack ∨ kept = segment := by
  unfold pushSegment at h
  split_ifs at h with hdrop hdots
  · exact .inl h
  · rw [hdots]
    unfold popSegment at h
    split at h
    · split_ifs at h
      · cases h
      · exact .inr (List.mem_singleton.mp h)
    · split_ifs at h with htop
      · exact (List.mem_cons.mp h).symm
      · exact .inl (List.mem_cons_of_mem _ h)
  · exact (List.mem_cons.mp h).symm

/-- A clean path has no segments but those of the path. -/
theorem mem_foldl_pushSegment {rooted : Bool} {kept : Bytes}
    (h : kept ∈ segments.foldl (pushSegment rooted) stack) : kept ∈ stack ∨ kept ∈ segments := by
  induction segments generalizing stack with
  | nil => exact .inl h
  | cons segment rest ih =>
      obtain hpush | hrest := ih h
      · obtain hstack | rfl := mem_pushSegment hpush
        · exact .inl hstack
        · exact .inr (by simp)
      · exact .inr (List.mem_cons_of_mem _ hrest)

/-- No segment of a split path has the separator. -/
theorem not_mem_of_mem_splitOn {separator : UInt8} {path : Bytes}
    (h : segment ∈ path.splitOn separator) : separator ∉ segment := by
  induction path generalizing segment with
  | nil =>
      rw [List.splitOn_nil, List.mem_singleton] at h
      simp [h]
  | cons b rest ih =>
      rw [List.splitOn_cons_eq_if_modifyHead] at h
      split_ifs at h with hb
      · obtain rfl | h := List.mem_cons.mp h
        · exact List.not_mem_nil
        · exact ih h
      · cases hsplit : rest.splitOn separator with
        | nil => exact absurd hsplit (List.splitOn_ne_nil _ _)
        | cons first others =>
            rw [hsplit, List.modifyHead_cons] at h
            rw [hsplit] at ih
            obtain rfl | h := List.mem_cons.mp h
            · rw [List.mem_cons, not_or]
              refine ⟨fun hsame => hb (by simp [hsame]), ih (by simp)⟩
            · exact ih (List.mem_cons_of_mem _ h)

/-- The segments of a clean path have no slash. -/
theorem not_mem_of_mem_cleanSegments {path : Bytes} (h : segment ∈ cleanSegments path) :
    0x2F ∉ segment := by
  rw [cleanSegments, List.mem_reverse] at h
  obtain h | h := mem_foldl_pushSegment h
  · cases h
  · exact not_mem_of_mem_splitOn h

/-- No segment of a clean rooted path is `..`. -/
theorem settled_pushSegment (hstack : Settled stack) :
    Settled (pushSegment true stack segment) := by
  by_cases hplain : PlainSegment segment
  · rw [pushSegment_plain hplain]
    exact List.forall_mem_cons.mpr ⟨hplain.2.2, hstack⟩
  · obtain h | h := pushSegment_other hstack hplain
    · rw [h]
      exact hstack
    · rw [h]
      exact fun segment hsegment => hstack segment (List.mem_of_mem_tail hsegment)

/-! ## Clean paths -/

/-- Plain segments are kept. -/
theorem foldl_pushSegment_plain (h : ∀ segment ∈ segments, PlainSegment segment) :
    segments.foldl (pushSegment true) stack = segments.reverse ++ stack := by
  induction segments generalizing stack with
  | nil => rfl
  | cons segment rest ih =>
      rw [List.forall_mem_cons] at h
      rw [List.foldl_cons, pushSegment_plain h.1, ih h.2, List.reverse_cons, List.append_assoc,
        List.singleton_append]

/-- The stack grows by one segment at a time, and by plain segments only. -/
theorem length_foldl_pushSegment_le (hstack : Settled stack) :
    (segments.foldl (pushSegment true) stack).length ≤
      stack.length + (segments.filter fun segment => PlainSegment segment).length := by
  induction segments generalizing stack with
  | nil => exact Nat.le_refl _
  | cons segment rest ih =>
      have hrest := ih (@settled_pushSegment stack segment hstack)
      rw [List.foldl_cons]
      by_cases hplain : PlainSegment segment
      · rw [pushSegment_plain hplain, List.length_cons] at hrest
        rw [pushSegment_plain hplain, List.filter_cons_of_pos (by simpa using hplain),
          List.length_cons]
        omega
      · have hshrinks : (pushSegment true stack segment).length ≤ stack.length := by
          obtain h | h := pushSegment_other hstack hplain
          · exact Nat.le_of_eq (congrArg List.length h)
          · rw [h, List.length_tail]
            omega
        rw [List.filter_cons_of_neg (by simpa using hplain)]
        omega

/-- Cleaning keeps the number of segments exactly if all of them are plain. -/
theorem length_cleaned_eq_iff :
    (segments.foldl (pushSegment true) []).length = segments.length ↔
      ∀ segment ∈ segments, PlainSegment segment := by
  constructor
  · intro hlength
    have hle := @length_foldl_pushSegment_le [] segments (by simp [Settled])
    have hfilter := List.length_filter_le (fun segment => decide (PlainSegment segment)) segments
    have hall := List.length_filter_eq_length_iff.mp
      (Nat.le_antisymm hfilter (by simpa [hlength] using hle))
    exact fun segment hsegment => of_decide_eq_true (hall segment hsegment)
  · intro hplain
    rw [foldl_pushSegment_plain hplain, List.append_nil, List.length_reverse]

/-! ## Paced paths -/

/-- Every second segment is a plain one with a property. -/
def Paced (P : Bytes → Prop) : List Bytes → Prop
  | [] => True
  | [word] => PlainSegment word ∧ P word
  | word :: _ :: rest => (PlainSegment word ∧ P word) ∧ Paced P rest

/-- Paced segments are so for a weaker property. -/
theorem Paced.imp {P Q : Bytes → Prop} (himp : ∀ word, P word → Q word) (h : Paced P segments) :
    Paced Q segments := by
  induction segments using Paced.induct with
  | case1 => trivial
  | case2 word => exact ⟨h.1, himp word h.2⟩
  | case3 word segment rest ih => exact ⟨⟨h.1.1, himp word h.1.2⟩, ih h.2⟩

/-- A stack over a base. The first segment put on the base has the property. -/
structure Above (P : Bytes → Prop) (base stack above : List Bytes) : Prop where
  eq : stack = above ++ base
  settled : Settled above
  first : ∀ word ∈ above.getLast?, P word

variable {P : Bytes → Prop} {above : List Bytes} {word : Bytes}

/-- The first segment stays under a new one. -/
theorem Above.push (h : Above P base stack above) (hword : PlainSegment word)
    (hfirst : above = [] → P word) :
    Above P base (pushSegment true stack word) (word :: above) where
  eq := by rw [pushSegment_plain hword, h.eq, List.cons_append]
  settled := List.forall_mem_cons.mpr ⟨hword.2.2, h.settled⟩
  first := by
    cases above with
    | nil => simpa using hfirst rfl
    | cons top rest =>
        rw [List.getLast?_cons_cons]
        exact h.first

/-- Any segment after a word leaves the base as it is. -/
theorem Above.next (hbase : Settled base) (h : Above P base stack (word :: above))
    (segment : Bytes) : ∃ above', Above P base (pushSegment true stack segment) above' := by
  by_cases hplain : PlainSegment segment
  · exact ⟨_, h.push hplain fun hnil => nomatch hnil⟩
  · have hstack : Settled stack := by
      rw [h.eq]
      exact List.forall_mem_append.mpr ⟨h.settled, hbase⟩
    obtain hsame | htail := pushSegment_other hstack hplain
    · rw [hsame]
      exact ⟨_, h⟩
    · rw [htail, h.eq]
      refine ⟨above, rfl, (List.forall_mem_cons.mp h.settled).2, ?_⟩
      cases above with
      | nil => exact fun _ hnone => nomatch hnone
      | cons top rest =>
          have hfirst := h.first
          rw [List.getLast?_cons_cons] at hfirst
          exact hfirst

/-- Paced segments leave the base as it is. -/
theorem foldl_pushSegment_paced (hbase : Settled base) (hstack : Above P base stack above)
    (h : Paced P segments) :
    ∃ above', Above P base (segments.foldl (pushSegment true) stack) above' := by
  induction segments using Paced.induct generalizing stack above with
  | case1 => exact ⟨above, hstack⟩
  | case2 word => exact ⟨_, hstack.push h.1 fun _ => h.2⟩
  | case3 word segment rest ih =>
      have hword := hstack.push h.1.1 fun _ => h.1.2
      obtain ⟨_, hnext⟩ := hword.next hbase segment
      exact ih hnext h.2

end Iot.Text
