import Mathlib.Data.List.Perm.Basic

/-!
# Lists with one entry changed

A system of many parties keeps a list of them and changes one at a time. What the parties hold is
collected with `filterMap`; up to the order, a change of one party replaces what it holds and
leaves the rest (`filterMap_set`).
-/

namespace Iot.Data

variable {α β : Type}

/-- A list around one of its entries. -/
theorem exists_append_of_getElem? {list : List α} {index : Nat} {entry : α}
    (h : list[index]? = some entry) :
    ∃ before after, list = before ++ entry :: after ∧
      ∀ other, list.set index other = before ++ other :: after := by
  obtain ⟨hlt, hentry⟩ := List.getElem?_eq_some_iff.mp h
  refine ⟨list.take index, list.drop (index + 1), ?_, fun other => ?_⟩
  · rw [← hentry, List.getElem_cons_drop, List.take_append_drop]
  · rw [List.set_eq_take_append_cons_drop, if_pos hlt]

/-- What is collected from a list, and from the list with one entry changed. -/
theorem filterMap_set (collect : α → Option β) {list : List α} {index : Nat} {entry : α}
    (h : list[index]? = some entry) :
    ∃ rest, (list.filterMap collect).Perm ((collect entry).toList ++ rest) ∧
      ∀ other, ((list.set index other).filterMap collect).Perm
        ((collect other).toList ++ rest) := by
  obtain ⟨before, after, hlist, hset⟩ := exists_append_of_getElem? h
  have hperm : ∀ middle : α, ((before ++ middle :: after).filterMap collect).Perm
      ((collect middle).toList ++ (before.filterMap collect ++ after.filterMap collect)) := by
    intro middle
    rw [List.filterMap_append, ← List.append_assoc]
    cases hmiddle : collect middle with
    | none => simp [hmiddle]
    | some value =>
        rw [List.filterMap_cons_some hmiddle]
        exact List.perm_middle
  refine ⟨before.filterMap collect ++ after.filterMap collect, ?_, fun other => ?_⟩
  · rw [hlist]
    exact hperm entry
  · rw [hset]
    exact hperm other

/-- Two entries that hold the same thing are one when nothing is held twice. -/
theorem eq_of_filterMap_nodup {collect : α → Option β} {list : List α}
    (h : (list.filterMap collect).Nodup) {i j : Nat} {first second : α} {value : β}
    (hi : list[i]? = some first) (hj : list[j]? = some second)
    (hfirst : collect first = some value) (hsecond : collect second = some value) : i = j := by
  have hpair := List.pairwise_iff_getElem.mp (List.pairwise_filterMap.mp h)
  obtain ⟨hilt, rfl⟩ := List.getElem?_eq_some_iff.mp hi
  obtain ⟨hjlt, rfl⟩ := List.getElem?_eq_some_iff.mp hj
  rcases Nat.lt_trichotomy i j with hlt | heq | hlt
  · exact absurd rfl (hpair i j hilt hjlt hlt value hfirst value hsecond)
  · exact heq
  · exact absurd rfl (hpair j i hjlt hilt hlt value hsecond value hfirst)

end Iot.Data
