import Mathlib.Logic.Function.Basic

/-!
# Reading a partitioned log in a consumer group

A reader takes the entries of each partition in order. It works on one entry at a time, and
committing an entry commits everything before it in its partition. A reader that starts again goes
back to the committed offsets.

`Safe` is what makes a commit harmless: every entry the reader has passed has been dealt with, the
one it is working on apart. Each operation keeps it (`safe_append` to `safe_restart`), a commit
only when the entry has been dealt with, so `Safe.settled` bounds the committed offsets by the work
done. What counts as dealt with is a parameter and may grow (`Safe.mono`).
-/

namespace Iot.Execution

variable {Entry : Type}

/-- A reader of a log: the entries of each partition, the offset the group has committed there and
the one it reads next, and the partition and offset of the entry it is working on. -/
structure Reader (Entry : Type) where
  log : Nat → List Entry
  committed : Nat → Nat
  position : Nat → Nat
  current : Option (Nat × Nat)

/-- The reader of an empty log. -/
def Reader.initial : Reader Entry := ⟨fun _ => [], fun _ => 0, fun _ => 0, none⟩

/-- An entry is appended to a partition. -/
def Reader.append (r : Reader Entry) (partition : Nat) (entry : Entry) : Reader Entry :=
  { r with log := Function.update r.log partition (r.log partition ++ [entry]) }

/-- The reader goes on to the next entry of a partition. -/
def Reader.fetch (r : Reader Entry) (partition : Nat) : Reader Entry :=
  { r with
    position := Function.update r.position partition (r.position partition + 1)
    current := some (partition, r.position partition) }

/-- The reader is done with an entry and commits nothing. -/
def Reader.release (r : Reader Entry) : Reader Entry := { r with current := none }

/-- The reader is done with the entry at an address and commits it. -/
def Reader.commit (r : Reader Entry) (address : Nat × Nat) : Reader Entry :=
  { r with
    committed := Function.update r.committed address.1 (address.2 + 1)
    current := none }

/-- The reader starts again at the committed offsets. -/
def Reader.restart (r : Reader Entry) : Reader Entry :=
  { r with position := r.committed, current := none }

/-- Every entry the reader has passed has been dealt with, the current one apart. Entries know
their address. -/
structure Reader.Safe (address : Entry → Nat × Nat) (done : Entry → Prop) (r : Reader Entry) :
    Prop where
  addressed : ∀ (partition offset : Nat) (entry : Entry),
    (r.log partition)[offset]? = some entry → address entry = (partition, offset)
  bounded : ∀ partition, r.position partition ≤ (r.log partition).length
  behind : ∀ partition, r.committed partition ≤ r.position partition
  fetched : ∀ partition offset, r.current = some (partition, offset) →
    offset < r.position partition
  passed : ∀ (partition offset : Nat) (entry : Entry), offset < r.position partition →
    r.current ≠ some (partition, offset) → (r.log partition)[offset]? = some entry → done entry
  settled : ∀ (partition offset : Nat) (entry : Entry), offset < r.committed partition →
    (r.log partition)[offset]? = some entry → done entry

/-- The reader is working on an entry. -/
def Reader.At (address : Entry → Nat × Nat) (r : Reader Entry) (entry : Entry) : Prop :=
  r.current = some (address entry) ∧ (r.log (address entry).1)[(address entry).2]? = some entry

variable {address : Entry → Nat × Nat} {done done' : Entry → Prop} {r : Reader Entry}

/-- Before the first entry there is nothing to deal with. -/
theorem safe_initial : (Reader.initial : Reader Entry).Safe address done where
  addressed := by simp [Reader.initial]
  bounded := by simp [Reader.initial]
  behind := by simp [Reader.initial]
  fetched := by simp [Reader.initial]
  passed := by simp [Reader.initial]
  settled := by simp [Reader.initial]

/-- What has been dealt with may grow. -/
theorem Reader.Safe.mono (h : r.Safe address done) (hdone : ∀ entry, done entry → done' entry) :
    r.Safe address done' where
  addressed := h.addressed
  bounded := h.bounded
  behind := h.behind
  fetched := h.fetched
  passed partition offset entry hlt hcurrent hentry :=
    hdone entry (h.passed partition offset entry hlt hcurrent hentry)
  settled partition offset entry hlt hentry :=
    hdone entry (h.settled partition offset entry hlt hentry)

/-- The log after an append: the entries before it and the new one. -/
theorem log_append {partition partition' offset : Nat} {entry entry' : Entry} :
    ((r.append partition entry).log partition')[offset]? = some entry' ↔
      (r.log partition')[offset]? = some entry' ∨
        partition' = partition ∧ offset = (r.log partition).length ∧ entry' = entry := by
  by_cases hpartition : partition' = partition
  · subst hpartition
    simp only [Reader.append, Function.update_self, true_and]
    rcases Nat.lt_trichotomy offset (r.log partition').length with hlt | heq | hgt
    · rw [List.getElem?_append_left hlt]
      constructor
      · exact Or.inl
      · rintro (hentry | ⟨heq, _⟩)
        · exact hentry
        · omega
    · subst heq
      simp [eq_comm]
    · rw [List.getElem?_eq_none (by rw [List.length_append, List.length_singleton]; exact hgt),
        List.getElem?_eq_none (Nat.le_of_lt hgt)]
      simp only [reduceCtorEq, false_or, false_iff]
      omega
  · simp [Reader.append, hpartition]

/-- Appending an entry that knows its address keeps a reader safe. -/
theorem safe_append {partition : Nat} {entry : Entry} (h : r.Safe address done)
    (haddress : address entry = (partition, (r.log partition).length)) :
    (r.append partition entry).Safe address done := by
  have hlength : ∀ other, (r.log other).length ≤ ((r.append partition entry).log other).length := by
    intro other
    by_cases hother : other = partition
    · subst hother
      simp [Reader.append]
    · simp [Reader.append, Function.update_of_ne hother]
  refine ⟨?_, fun other => Nat.le_trans (h.bounded other) (hlength other), h.behind,
    h.fetched, ?_, ?_⟩
  · intro other offset entry' hentry
    rcases log_append.mp hentry with hentry | ⟨rfl, rfl, rfl⟩
    · exact h.addressed other offset entry' hentry
    · exact haddress
  · intro other offset entry' hlt hcurrent hentry
    rcases log_append.mp hentry with hentry | ⟨rfl, rfl, rfl⟩
    · exact h.passed other offset entry' hlt hcurrent hentry
    · exact absurd hlt (Nat.not_lt.mpr (h.bounded other))
  · intro other offset entry' hlt hentry
    rcases log_append.mp hentry with hentry | ⟨rfl, rfl, rfl⟩
    · exact h.settled other offset entry' hlt hentry
    · exact absurd hlt (Nat.not_lt.mpr (Nat.le_trans (h.behind other) (h.bounded other)))

/-- An entry stays where it is while others are appended. -/
theorem at_append {partition : Nat} {entry other : Entry} (h : r.At address other) :
    (r.append partition entry).At address other :=
  ⟨h.1, log_append.mpr (Or.inl h.2)⟩

/-- A reader that works on nothing may go on to the next entry. -/
theorem safe_fetch {partition : Nat} {entry : Entry} (h : r.Safe address done)
    (hidle : r.current = none) (hentry : (r.log partition)[r.position partition]? = some entry) :
    (r.fetch partition).Safe address done ∧ (r.fetch partition).At address entry := by
  have haddress := h.addressed partition (r.position partition) entry hentry
  refine ⟨⟨h.addressed, ?_, ?_, ?_, ?_, h.settled⟩, ?_⟩
  · intro other
    by_cases hother : other = partition
    · subst hother
      have hlt := (List.getElem?_eq_some_iff.mp hentry).1
      simp only [Reader.fetch, Function.update_self]
      omega
    · simpa [Reader.fetch, Function.update_of_ne hother] using h.bounded other
  · intro other
    by_cases hother : other = partition
    · subst hother
      have hle := h.behind other
      simp only [Reader.fetch, Function.update_self]
      omega
    · simpa [Reader.fetch, Function.update_of_ne hother] using h.behind other
  · intro other offset hcurrent
    simp only [Reader.fetch, Option.some.injEq, Prod.mk.injEq] at hcurrent
    obtain ⟨rfl, rfl⟩ := hcurrent
    simp [Reader.fetch]
  · intro other offset entry' hlt hcurrent hentry'
    have hnone : r.current ≠ some (other, offset) := by simp [hidle]
    refine h.passed other offset entry' ?_ hnone hentry'
    by_cases hother : other = partition
    · subst hother
      have hne : offset ≠ r.position other := by
        intro heq
        exact hcurrent (by rw [heq]; rfl)
      simp only [Reader.fetch, Function.update_self] at hlt
      omega
    · simpa [Reader.fetch, Function.update_of_ne hother] using hlt
  · refine ⟨by rw [haddress]; rfl, ?_⟩
    rw [haddress]
    exact hentry

/-- Once the current entry has been dealt with, everything the reader has passed has been. -/
theorem Reader.Safe.passed_all {entry : Entry} (h : r.Safe address done) (hat : r.At address entry)
    (hdone : done entry) {partition offset : Nat} {entry' : Entry}
    (hlt : offset < r.position partition) (hentry : (r.log partition)[offset]? = some entry') :
    done entry' := by
  by_cases hcurrent : r.current = some (partition, offset)
  · have haddress : address entry = (partition, offset) := by
      rw [hat.1] at hcurrent
      exact Option.some.inj hcurrent
    have hsame := hat.2
    rw [haddress, hentry] at hsame
    exact Option.some.inj hsame ▸ hdone
  · exact h.passed partition offset entry' hlt hcurrent hentry

/-- A reader may leave an entry that has been dealt with. -/
theorem safe_release {entry : Entry} (h : r.Safe address done) (hat : r.At address entry)
    (hdone : done entry) : r.release.Safe address done :=
  ⟨h.addressed, h.bounded, h.behind, by simp [Reader.release],
    fun _ _ _ hlt _ hentry => h.passed_all hat hdone hlt hentry, h.settled⟩

/-- A reader may commit an entry that has been dealt with. -/
theorem safe_commit {entry : Entry} (h : r.Safe address done) (hat : r.At address entry)
    (hdone : done entry) : (r.commit (address entry)).Safe address done := by
  have hposition := h.fetched (address entry).1 (address entry).2 hat.1
  refine ⟨h.addressed, h.bounded, ?_, by simp [Reader.commit],
    fun _ _ _ hlt _ hentry => h.passed_all hat hdone hlt hentry, ?_⟩
  · intro other
    by_cases hother : other = (address entry).1
    · subst hother
      simp only [Reader.commit, Function.update_self]
      omega
    · simpa [Reader.commit, Function.update_of_ne hother] using h.behind other
  · intro other offset entry' hlt hentry
    by_cases hother : other = (address entry).1
    · subst hother
      simp only [Reader.commit, Function.update_self] at hlt
      exact h.passed_all hat hdone (by omega) hentry
    · simp only [Reader.commit, Function.update_of_ne hother] at hlt
      exact h.settled other offset entry' hlt hentry

/-- A reader may start again at any time. -/
theorem safe_restart (h : r.Safe address done) : r.restart.Safe address done :=
  ⟨h.addressed, fun partition => Nat.le_trans (h.behind partition) (h.bounded partition),
    fun _ => Nat.le_refl _, by simp [Reader.restart],
    fun partition offset entry hlt _ hentry => h.settled partition offset entry hlt hentry,
    h.settled⟩

end Iot.Execution
