import Iot.Text.Strings
import Mathlib.Data.List.Nodup
import Mathlib.Data.List.Perm.Basic
import Mathlib.Data.List.Sort

/-!
# The order of strings

Go compares strings byte by byte. `sortStrings` gives lists with the same strings, none of them
twice, one and the same order (`sortStrings_eq_iff`).
-/

namespace Iot.Text

/-- `a <= b` for strings. -/
def stringLe : Bytes → Bytes → Bool
  | [], _ => true
  | _ :: _, [] => false
  | a :: as, b :: bs => a < b || (a == b && stringLe as bs)

theorem stringLe_trans (a b c : Bytes) (h : stringLe a b) (h' : stringLe b c) : stringLe a c := by
  induction a generalizing b c with
  | nil => rfl
  | cons x xs ih =>
      obtain _ | ⟨y, ys⟩ := b
      · cases h
      obtain _ | ⟨z, zs⟩ := c
      · cases h'
      simp only [stringLe, Bool.or_eq_true, Bool.and_eq_true, decide_eq_true_eq, beq_iff_eq]
        at h h' ⊢
      rcases h with h | ⟨rfl, h⟩ <;> rcases h' with h' | ⟨rfl, h'⟩
      · exact .inl (UInt8.lt_trans h h')
      · exact .inl h
      · exact .inl h'
      · exact .inr ⟨rfl, ih ys zs h h'⟩

theorem stringLe_total (a b : Bytes) : stringLe a b || stringLe b a := by
  induction a generalizing b with
  | nil => rfl
  | cons x xs ih =>
      obtain _ | ⟨y, ys⟩ := b
      · rfl
      simp only [stringLe, Bool.or_eq_true, Bool.and_eq_true, decide_eq_true_eq, beq_iff_eq]
      by_cases heq : x = y
      · subst heq
        simpa using ih ys
      · exact (UInt8.lt_or_lt_of_ne heq).imp .inl .inl

theorem stringLe_antisymm (a b : Bytes) (h : stringLe a b) (h' : stringLe b a) : a = b := by
  induction a generalizing b with
  | nil =>
      obtain _ | ⟨y, ys⟩ := b
      · rfl
      · cases h'
  | cons x xs ih =>
      obtain _ | ⟨y, ys⟩ := b
      · cases h
      simp only [stringLe, Bool.or_eq_true, Bool.and_eq_true, decide_eq_true_eq, beq_iff_eq] at h h'
      rcases h with h | ⟨rfl, h⟩
      · rcases h' with h' | ⟨rfl, h'⟩
        · exact absurd h' (UInt8.lt_asymm h)
        · exact absurd h (UInt8.lt_irrefl _)
      · rcases h' with h' | ⟨_, h'⟩
        · exact absurd h' (UInt8.lt_irrefl _)
        · rw [ih ys h h']

/-- `sort.Strings`. -/
def sortStrings (strings : List Bytes) : List Bytes := strings.mergeSort stringLe

@[simp] theorem mem_sortStrings {strings : List Bytes} {s : Bytes} :
    s ∈ sortStrings strings ↔ s ∈ strings := List.mem_mergeSort

/-- Lists without repetitions are sorted alike exactly when they have the same strings. -/
theorem sortStrings_eq_iff {strings others : List Bytes} (h : strings.Nodup) (h' : others.Nodup) :
    sortStrings strings = sortStrings others ↔ ∀ s, s ∈ strings ↔ s ∈ others := by
  constructor
  · intro heq s
    rw [← mem_sortStrings, heq, mem_sortStrings]
  · intro hsame
    have hperm : (sortStrings strings).Perm (sortStrings others) :=
      (List.mergeSort_perm _ _).trans
        (((List.perm_ext_iff_of_nodup h h').mpr hsame).trans (List.mergeSort_perm _ _).symm)
    refine hperm.eq_of_pairwise (fun a b _ _ => stringLe_antisymm a b) ?_ ?_
    · exact List.pairwise_mergeSort stringLe_trans stringLe_total strings
    · exact List.pairwise_mergeSort stringLe_trans stringLe_total others

end Iot.Text
