import Iot.Text.Utf8

/-!
# MQTT topic filters

A topic is a list of levels with slashes between them. In a filter the level `+` matches any one
level, and `#`, as the last level, any number of further levels. A topic that is published is
concrete: it holds neither character.

The rules below reduce a match to its levels: a level that is no wildcard matches itself
(`matchLevels_literal`), `+` matches one level (`matchLevels_plus`), a filter matches the topic
that has a word in place of every `+` (`matchLevels_fill`), and a level that the topic does not
have prevents a match (`matchLevels_absent`).
-/

namespace Iot.Mqtt

open Text

/-- The levels of a topic or a filter. -/
def levels (topic : Bytes) : List Bytes := topic.splitOn 0x2F

/-- The wildcard for one level. -/
def plus : Bytes := [0x2B]

/-- The wildcard for any further levels. -/
def hash : Bytes := [0x23]

/-- Match the levels of a filter with those of a topic. -/
def matchLevels : List Bytes → List Bytes → Bool
  | [], words => words.isEmpty
  | level :: rest, [] => level = hash ∧ rest = []
  | level :: rest, word :: words =>
      decide (level = hash ∧ rest = []) ||
        ((level = plus || level = word) && matchLevels rest words)

/-- A filter matches a topic. -/
def topicMatches (filter topic : Bytes) : Bool := matchLevels (levels filter) (levels topic)

/-- A text without wildcard characters. -/
def Concrete (text : Bytes) : Prop := 0x2B ∉ text ∧ 0x23 ∉ text

/-- A level holds no slash and only characters of the topic. -/
theorem mem_levels {topic level : Bytes} (h : level ∈ levels topic) :
    0x2F ∉ level ∧ ∀ b ∈ level, b ∈ topic := by
  unfold levels at h
  induction topic generalizing level with
  | nil =>
      rw [List.splitOn_nil, List.mem_singleton] at h
      simp [h]
  | cons b rest ih =>
      rw [List.splitOn_cons_eq_if_modifyHead] at h
      split_ifs at h with hslash
      · rcases List.mem_cons.mp h with rfl | h
        · simp
        · exact ⟨(ih h).1, fun c hc => List.mem_cons_of_mem _ ((ih h).2 c hc)⟩
      · -- the byte goes to the first level of the rest
        obtain ⟨first, more, hsplit⟩ := List.exists_cons_of_ne_nil
          (List.splitOn_ne_nil (0x2F : UInt8) rest)
        rw [hsplit] at h ih
        rw [List.modifyHead_cons] at h
        rcases List.mem_cons.mp h with rfl | h
        · have hfirst := @ih first (List.mem_cons_self ..)
          simp only [beq_iff_eq] at hslash
          refine ⟨?_, ?_⟩
          · intro hmem
            rcases List.mem_cons.mp hmem with heq | hmem
            · exact hslash heq.symm
            · exact hfirst.1 hmem
          · intro c hc
            rcases List.mem_cons.mp hc with rfl | hc
            · exact List.mem_cons_self ..
            · exact List.mem_cons_of_mem _ (hfirst.2 c hc)
        · have hmore := @ih level (List.mem_cons_of_mem _ h)
          exact ⟨hmore.1, fun c hc => List.mem_cons_of_mem _ (hmore.2 c hc)⟩

/-- The levels on both sides of a slash. -/
theorem levels_append (left right : Bytes) :
    levels (left ++ 0x2F :: right) = levels left ++ levels right :=
  List.splitOn_append_cons_self left right

/-- A text without slashes is one level. -/
theorem levels_single {text : Bytes} (h : 0x2F ∉ text) : levels text = [text] :=
  List.splitOn_eq_singleton h

/-- A topic is its levels. -/
theorem levels_injective {topic other : Bytes} (h : levels topic = levels other) :
    topic = other := by
  have htopic : [0x2F].intercalate (levels topic) = topic := List.intercalate_splitOn 0x2F
  have hother : [0x2F].intercalate (levels other) = other := List.intercalate_splitOn 0x2F
  rw [← htopic, h, hother]

/-- The characters of words joined by slashes. -/
theorem mem_intercalate {words : List Bytes} {b : UInt8} (h : b ∈ [0x2F].intercalate words) :
    b = 0x2F ∨ ∃ word ∈ words, b ∈ word := by
  induction words with
  | nil => cases h
  | cons word rest ih =>
      cases rest with
      | nil => exact Or.inr ⟨word, List.mem_cons_self .., by simpa [List.intercalate] using h⟩
      | cons next rest =>
          rw [List.intercalate_cons_cons, List.mem_append, List.mem_append,
            List.mem_singleton] at h
          rcases h with (h | h) | h
          · exact Or.inr ⟨word, List.mem_cons_self .., h⟩
          · exact Or.inl h
          · refine (ih h).imp_right ?_
            rintro ⟨other, hother, hb⟩
            exact ⟨other, List.mem_cons_of_mem _ hother, hb⟩

/-- Words without slashes are the levels of the topic they make up. -/
theorem levels_intercalate {words : List Bytes} (hwords : words ≠ [])
    (h : ∀ word ∈ words, 0x2F ∉ word) : levels ([0x2F].intercalate words) = words :=
  List.splitOn_intercalate 0x2F h hwords

/-- Words without wildcards make up a concrete topic. -/
theorem concrete_intercalate {words : List Bytes} (h : ∀ word ∈ words, Concrete word) :
    Concrete ([0x2F].intercalate words) := by
  refine ⟨fun hb => ?_, fun hb => ?_⟩
  · rcases mem_intercalate hb with hslash | ⟨word, hword, hb⟩
    · exact absurd hslash (by decide)
    · exact (h word hword).1 hb
  · rcases mem_intercalate hb with hslash | ⟨word, hword, hb⟩
    · exact absurd hslash (by decide)
    · exact (h word hword).2 hb

/-- A level that is no wildcard matches itself. -/
theorem matchLevels_literal {level : Bytes} {rest words : List Bytes} (hplus : level ≠ plus)
    (hhash : level ≠ hash) :
    matchLevels (level :: rest) words ↔
      ∃ more, words = level :: more ∧ matchLevels rest more := by
  cases words with
  | nil => simp [matchLevels, hhash]
  | cons word more =>
      simp only [matchLevels, hplus, hhash, false_and, decide_false, Bool.false_or,
        Bool.and_eq_true, decide_eq_true_eq, List.cons.injEq]
      constructor
      · rintro ⟨rfl, hmore⟩
        exact ⟨more, ⟨rfl, rfl⟩, hmore⟩
      · rintro ⟨_, ⟨rfl, rfl⟩, hmore⟩
        exact ⟨rfl, hmore⟩

/-- `+` matches one level. -/
theorem matchLevels_plus {rest words : List Bytes} :
    matchLevels (plus :: rest) words ↔
      ∃ word more, words = word :: more ∧ matchLevels rest more := by
  have hhash : plus ≠ hash := by decide
  cases words with
  | nil => simp [matchLevels, hhash]
  | cons word more => simp [matchLevels, hhash]

/-- The word that a level of a filter is filled in with. -/
def fill (word level : Bytes) : Bytes := if level = plus then word else level

/-- A filter matches the topic in which a word stands for every `+`. -/
theorem matchLevels_fill (word : Bytes) (filter : List Bytes) :
    matchLevels filter (filter.map (fill word)) := by
  induction filter with
  | nil => rfl
  | cons level rest ih =>
      rw [List.map_cons, matchLevels, ih, fill]
      by_cases hplus : level = plus <;> simp [hplus]

/-- A level that the topic does not have prevents a match, unless it is a wildcard. -/
theorem matchLevels_absent {before after words : List Bytes} {level : Bytes}
    (hafter : after ≠ []) (hplus : level ≠ plus) (habsent : level ∉ words) :
    matchLevels (before ++ level :: after) words = false := by
  induction before generalizing words with
  | nil =>
      cases words with
      | nil => simp [matchLevels, hafter]
      | cons word more =>
          have hne : level ≠ word := fun h => habsent (h ▸ List.mem_cons_self ..)
          simp [matchLevels, hafter, hplus, hne]
  | cons first rest ih =>
      cases words with
      | nil => simp [matchLevels]
      | cons word more =>
          have hrest := @ih more fun h => habsent (List.mem_cons_of_mem _ h)
          simp [matchLevels, hrest]

end Iot.Mqtt
