import Mathlib.Data.Set.Insert
import Mathlib.Order.Defs.LinearOrder

/-!
# The latest of a set of readings

A summary of named readings with a time: the latest seen so far. It is kept by replacing it with
every reading that is strictly later (`adopt`). Whatever the order in which the readings come, the
summary is one of them and no other is later (`IsLatest`), so its time depends on the set of
readings only.
-/

namespace Iot.Data

variable {T Name : Type} [LinearOrder T]

/-- The summary after a reading. -/
def adopt (latest : Option (T × Name)) (reading : T × Name) : Option (T × Name) :=
  match latest with
  | none => some reading
  | some old => if old.1 < reading.1 then some reading else some old

/-- The summary of a set of readings: none of an empty set, and otherwise a reading that no other
is later than. -/
structure IsLatest (latest : Option (T × Name)) (readings : Set (T × Name)) : Prop where
  none_iff : latest = none ↔ ∀ reading, reading ∉ readings
  mem : ∀ reading, latest = some reading → reading ∈ readings
  le : ∀ reading, latest = some reading → ∀ other ∈ readings, other.1 ≤ reading.1

/-- A reading is added. -/
theorem isLatest_adopt {latest : Option (T × Name)} {readings : Set (T × Name)}
    (h : IsLatest latest readings) (reading : T × Name) :
    IsLatest (adopt latest reading) (insert reading readings) := by
  have hsome : ∀ next : T × Name, some next = none ↔
      ∀ other, other ∉ insert reading readings := fun next =>
    iff_of_false (by simp) fun hnone => hnone reading (Set.mem_insert _ _)
  cases latest with
  | none =>
      have hempty := h.none_iff.mp rfl
      refine ⟨hsome reading, fun other hother => ?_, fun other hother => ?_⟩
      · cases hother
        exact Set.mem_insert _ _
      · cases hother
        intro earlier hearlier
        rcases Set.mem_insert_iff.mp hearlier with rfl | hearlier
        · exact le_refl _
        · exact absurd hearlier (hempty earlier)
  | some old =>
      have hmem := h.mem old rfl
      have hle := h.le old rfl
      unfold adopt
      dsimp only
      split
      · rename_i hlt
        refine ⟨hsome _, fun other hother => ?_, fun other hother => ?_⟩
        · cases hother
          exact Set.mem_insert _ _
        · cases hother
          intro earlier hearlier
          rcases Set.mem_insert_iff.mp hearlier with rfl | hearlier
          · exact le_refl _
          · exact le_of_lt (lt_of_le_of_lt (hle earlier hearlier) hlt)
      · rename_i hge
        refine ⟨hsome _, fun other hother => ?_, fun other hother => ?_⟩
        · cases hother
          exact Set.mem_insert_of_mem _ hmem
        · cases hother
          intro earlier hearlier
          rcases Set.mem_insert_iff.mp hearlier with rfl | hearlier
          · exact le_of_not_gt hge
          · exact hle earlier hearlier

/-- The time of the summary never decreases. -/
theorem adopt_mono {latest : Option (T × Name)} {old : T × Name} (h : latest = some old)
    (reading : T × Name) : ∃ next, adopt latest reading = some next ∧ old.1 ≤ next.1 := by
  subst h
  unfold adopt
  dsimp only
  split
  · rename_i hlt
    exact ⟨reading, rfl, le_of_lt hlt⟩
  · exact ⟨old, rfl, le_refl _⟩

/-- The time of the summary is that of the set. -/
theorem isLatest_time_eq {latest other : Option (T × Name)} {readings : Set (T × Name)}
    (h : IsLatest latest readings) (hother : IsLatest other readings) :
    latest.map Prod.fst = other.map Prod.fst := by
  cases latest with
  | none =>
      rw [hother.none_iff.mpr (h.none_iff.mp rfl)]
  | some reading =>
      cases other with
      | none =>
          exact absurd (h.mem reading rfl) (hother.none_iff.mp rfl reading)
      | some reading' =>
          have hle := h.le reading rfl reading' (hother.mem reading' rfl)
          have hge := hother.le reading' rfl reading (h.mem reading rfl)
          simp [le_antisymm hge hle]

end Iot.Data
