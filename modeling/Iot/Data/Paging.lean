import Mathlib.Algebra.GroupWithZero.Nat
import Mathlib.Algebra.Order.BigOperators.Group.List
import Mathlib.Algebra.Order.Group.Nat
import Mathlib.Data.List.Sort
import Mathlib.Data.List.TakeWhile

/-!
# Pages of an ordered list

A client reads a list page by page: each answer carries a cursor for the next request, and the
cursor `stop` ends the reading. `follow` is that reading. A server answers from the rows that are
left after the cursor (`Serves`): with all of them, with a proper part and the cursor of its last
row, or with an error when the first row alone exceeds the budget. A page keeps to the budget of
weight and to the number of rows asked for.

If every cursor is answered from the rows after its row, reading returns the rows one by one up to
the first that is too heavy, and ends (`follow_exact`). If there is a set of cursors that are
answered with cursors of the set again, it never ends (`follow_unfinished`).

The rows after a cursor are picked by a comparison with its row: `filter_after` says that this
gives the rest of the list, and `filter_mergeSort` that picking may come before sorting.
-/

namespace Iot.Data

variable {Row Cursor Err : Type}

/-! ## Sorted rows -/

/-- Comes strictly before, in an order given by a comparison. -/
def Precedes (le : Row → Row → Bool) (row other : Row) : Prop :=
  le row other = true ∧ le other row = false

section Sorting

variable {le : Row → Row → Bool} (htrans : ∀ a b c, le a b = true → le b c = true → le a c = true)
  (htotal : ∀ a b, (le a b || le b a) = true)

include htrans htotal

/-- Rows that differ in the order are sorted strictly. -/
theorem pairwise_precedes {rows : List Row} (hnodup : rows.Nodup)
    (hanti : ∀ a ∈ rows, ∀ b ∈ rows, le a b = true → le b a = true → a = b) :
    (rows.mergeSort le).Pairwise (Precedes le) := by
  have hsorted := List.pairwise_mergeSort htrans htotal rows
  have hdistinct : (rows.mergeSort le).Nodup := (List.mergeSort_perm rows le).nodup_iff.mpr hnodup
  refine (hsorted.and hdistinct).imp_of_mem fun {a b} ha hb h => ?_
  refine ⟨h.1, ?_⟩
  by_contra hle
  rw [Bool.not_eq_false] at hle
  rw [List.mem_mergeSort] at ha hb
  exact h.2 (hanti a ha b hb h.1 hle)

/-- Picking rows may come before sorting them. -/
theorem filter_mergeSort {rows : List Row}
    (hanti : ∀ a ∈ rows, ∀ b ∈ rows, le a b = true → le b a = true → a = b) (pick : Row → Bool) :
    (rows.filter pick).mergeSort le = (rows.mergeSort le).filter pick := by
  refine @List.Perm.eq_of_pairwise Row (fun a b => le a b = true) _ _ ?_ ?_ ?_ ?_
  · intro a b ha hb hab hba
    rw [List.mem_mergeSort] at ha
    exact hanti a (List.mem_of_mem_filter ha) b
      (List.mem_mergeSort.mp (List.mem_of_mem_filter hb)) hab hba
  · exact List.pairwise_mergeSort htrans htotal _
  · exact (List.pairwise_mergeSort htrans htotal rows).filter pick
  · exact (List.mergeSort_perm _ le).trans ((List.mergeSort_perm rows le).filter pick).symm

end Sorting

/-- The rows that come after a row are the rest of the list. -/
theorem filter_after {le : Row → Row → Bool} (hrefl : ∀ a, le a a = true) {before rest : List Row}
    {row : Row} (h : (before ++ row :: rest).Pairwise (Precedes le)) :
    (before ++ row :: rest).filter (fun other => !le other row) = rest := by
  rw [List.pairwise_append, List.pairwise_cons] at h
  obtain ⟨_, ⟨hrest, _⟩, hbefore⟩ := h
  have hnone : before.filter (fun other => !le other row) = [] := by
    rw [List.filter_eq_nil_iff]
    intro other hother
    simp [(hbefore other hother row (List.mem_cons_self ..)).1]
  have hall : rest.filter (fun other => !le other row) = rest := by
    rw [List.filter_eq_self]
    intro other hother
    simp [(hrest other hother).2]
  rw [List.filter_append, hnone, List.nil_append, List.filter_cons_of_neg (by simp [hrefl]), hall]

/-! ## Reading page by page -/

/-- How reading ends. -/
inductive Ending (Err : Type) where
  | complete
  | failed (err : Err)
  | unfinished
  deriving DecidableEq, Repr

/-- The pages that are read with at most a number of requests, from a cursor on. The requests are
numbered, since they may differ in other things than the cursor. -/
def follow [DecidableEq Cursor] (fetch : Nat → Cursor → Except Err (List Row × Cursor))
    (stop : Cursor) : Nat → Nat → Cursor → List (List Row × Cursor) × Ending Err
  | 0, _, _ => ([], .unfinished)
  | requests + 1, number, cursor =>
      match fetch number cursor with
      | .error err => ([], .failed err)
      | .ok (rows, next) =>
          if next = stop then ([(rows, next)], .complete)
          else
            let (pages, ending) := follow fetch stop requests (number + 1) next
            ((rows, next) :: pages, ending)

/-- An answer from the rows that are left. -/
inductive Serves (weight : Row → Nat) (budget : Nat) (tooLarge : Err) (encode : Row → Cursor)
    (stop : Cursor) (limit : Nat) : List Row → Except Err (List Row × Cursor) → Prop where
  | last {rest : List Row} (hbudget : (rest.map weight).sum ≤ budget)
      (hlimit : rest.length ≤ limit) :
      Serves weight budget tooLarge encode stop limit rest (.ok (rest, stop))
  | page {rows : List Row} {row next : Row} {rest : List Row}
      (hbudget : ((rows ++ [row]).map weight).sum ≤ budget)
      (hlimit : (rows ++ [row]).length ≤ limit) :
      Serves weight budget tooLarge encode stop limit (rows ++ row :: next :: rest)
        (.ok (rows ++ [row], encode row))
  | tooLarge {row : Row} {rest : List Row} (hbudget : budget < weight row) :
      Serves weight budget tooLarge encode stop limit (row :: rest) (.error tooLarge)

/-- What reading a list should give: within some number of requests it ends, the pages make up the
rows before the first that is too heavy, no page but the last is empty, and each keeps to the
budget and to the limit of its request. -/
def ReadsExactly [DecidableEq Cursor] (fetch : Nat → Cursor → Except Err (List Row × Cursor))
    (stop : Cursor) (weight : Row → Nat) (budget : Nat) (tooLarge : Err) (limit : Nat → Nat)
    (rows : List Row) : Prop :=
  ∃ requests pages, follow fetch stop requests 0 stop =
      (pages, if rows.all (weight · ≤ budget) then .complete else .failed tooLarge) ∧
    pages.flatMap Prod.fst = rows.takeWhile (weight · ≤ budget) ∧
    ∀ index page, pages[index]? = some page → (page.2 ≠ stop → page.1 ≠ []) ∧
      (page.1.map weight).sum ≤ budget ∧ page.1.length ≤ limit index

variable [DecidableEq Cursor] {fetch : Nat → Cursor → Except Err (List Row × Cursor)}
  {stop : Cursor} {weight : Row → Nat} {budget : Nat} {tooLarge : Err} {encode : Row → Cursor}
  {limit : Nat → Nat}

/-- Rows that keep to the budget together keep to it one by one. -/
theorem le_of_sum_le {rows : List Row} (h : (rows.map weight).sum ≤ budget) {row : Row}
    (hrow : row ∈ rows) : weight row ≤ budget :=
  Nat.le_trans (List.single_le_sum (by simp) _ (List.mem_map_of_mem hrow)) h

omit [DecidableEq Cursor] in
/-- The cursor of an answer is that of its last row, which is one of those that were left. -/
theorem Serves.cursor_eq {rest rows : List Row} {next : Cursor} {most : Nat}
    (h : Serves weight budget tooLarge encode stop most rest (.ok (rows, next)))
    (hnext : next ≠ stop) :
    ∃ row ∈ rest, rows.getLast? = some row ∧ next = encode row := by
  cases h with
  | last => exact absurd rfl hnext
  | @page rows row => exact ⟨row, by simp, List.getLast?_concat, rfl⟩

omit [DecidableEq Cursor] in
/-- An answer fails for a row that is too heavy only. -/
theorem Serves.error_eq {rest : List Row} {err : Err} {most : Nat}
    (h : Serves weight budget tooLarge encode stop most rest (.error err)) : err = tooLarge := by
  cases h
  rfl

/-- Reading from a cursor on, when every cursor is answered from the rows after its row. The
induction is on the number of rows left; `before` are the rows that have been read. -/
theorem follow_suffix {rows : List Row} (hstop : ∀ row ∈ rows, encode row ≠ stop)
    (hnext : ∀ before row next rest, rows = before ++ row :: next :: rest →
      (∀ other ∈ before ++ [row], weight other ≤ budget) → ∀ number,
      Serves weight budget tooLarge encode stop (limit number) (next :: rest)
        (fetch number (encode row)))
    (requests : Nat) :
    ∀ (before rest : List Row) (number : Nat) (cursor : Cursor), rows = before ++ rest →
      (∀ other ∈ before, weight other ≤ budget) → rest.length < requests →
      (∀ number, Serves weight budget tooLarge encode stop (limit number) rest
        (fetch number cursor)) →
      ∃ pages, follow fetch stop requests number cursor =
          (pages, if rest.all (weight · ≤ budget) then .complete else .failed tooLarge) ∧
        pages.flatMap Prod.fst = rest.takeWhile (weight · ≤ budget) ∧
        ∀ index page, pages[index]? = some page → (page.2 ≠ stop → page.1 ≠ []) ∧
          (page.1.map weight).sum ≤ budget ∧ page.1.length ≤ limit (number + index) := by
  induction requests with
  | zero =>
      intro before rest number cursor _ _ hlength
      exact absurd hlength (Nat.not_lt_zero _)
  | succ requests ih =>
      intro before rest number cursor hrows hbefore hlength hserves
      have hanswer := hserves number
      generalize hfetch : fetch number cursor = answer at hanswer
      cases hanswer with
      | last hbudget hlimit =>
          have hall : rest.all (weight · ≤ budget) = true := by
            rw [List.all_eq_true]
            intro row hrow
            exact decide_eq_true (le_of_sum_le hbudget hrow)
          refine ⟨[(rest, stop)], by simp [follow, hfetch, hall], ?_, ?_⟩
          · have htake : rest.takeWhile (weight · ≤ budget) = rest :=
              List.takeWhile_eq_self_iff.mpr fun row hrow =>
                decide_eq_true (le_of_sum_le hbudget hrow)
            simp [htake]
          · intro index page hpage
            obtain ⟨rfl, rfl⟩ : index = 0 ∧ (rest, stop) = page := by
              cases index with
              | zero => exact ⟨rfl, Option.some.inj hpage⟩
              | succ index => cases hpage
            exact ⟨fun hne => absurd rfl hne, hbudget, hlimit⟩
      | @page out row next rest hbudget hlimit =>
          have hfits : ∀ other ∈ out ++ [row], weight other ≤ budget := fun other hother =>
            le_of_sum_le hbudget hother
          have hsplit : rows = (before ++ out) ++ row :: next :: rest := by
            rw [hrows, List.append_assoc]
          have hread : ∀ other ∈ (before ++ out) ++ [row], weight other ≤ budget := by
            intro other hother
            rw [List.append_assoc, List.mem_append] at hother
            exact hother.elim (hbefore other) (hfits other)
          obtain ⟨pages, hpages, hflat, hkeeps⟩ := ih (before ++ out ++ [row]) (next :: rest)
            (number + 1) (encode row) (by rw [hsplit]; simp) hread
            (by simp only [List.length_append, List.length_cons] at hlength ⊢; omega)
            (hnext _ _ _ _ hsplit hread)
          refine ⟨(out ++ [row], encode row) :: pages, ?_, ?_, ?_⟩
          · have hall : (out ++ row :: next :: rest).all (weight · ≤ budget) =
                (next :: rest).all (weight · ≤ budget) := by
              have hout : (out ++ [row]).all (weight · ≤ budget) = true := by
                rw [List.all_eq_true]
                exact fun other hother => decide_eq_true (hfits other hother)
              rw [show out ++ row :: next :: rest = (out ++ [row]) ++ next :: rest by simp,
                List.all_append, hout, Bool.true_and]
            have hrow : encode row ≠ stop := hstop row (by rw [hsplit]; simp)
            simp only [follow, hfetch, hrow, if_false, hpages, hall]
          · have htake : (out ++ row :: next :: rest).takeWhile (weight · ≤ budget) =
                (out ++ [row]) ++ (next :: rest).takeWhile (weight · ≤ budget) := by
              rw [show out ++ row :: next :: rest = (out ++ [row]) ++ next :: rest by simp,
                List.takeWhile_append_of_pos fun other hother =>
                  decide_eq_true (hfits other hother)]
            rw [htake, List.flatMap_cons, hflat]
          · intro index page hpage
            cases index with
            | zero =>
                cases hpage
                exact ⟨by simp, hbudget, hlimit⟩
            | succ index =>
                rw [← Nat.add_assoc, Nat.add_right_comm]
                exact hkeeps index page hpage
      | @tooLarge row rest hbudget =>
          refine ⟨[], ?_, ?_, by simp⟩
          · simp [follow, hfetch, Nat.not_le.mpr hbudget]
          · simp [List.takeWhile, Nat.not_le.mpr hbudget]

/-- Reading is exact when every cursor is answered from the rows after its row. -/
theorem follow_exact {rows : List Row} (hstop : ∀ row ∈ rows, encode row ≠ stop)
    (hfirst : ∀ number,
      Serves weight budget tooLarge encode stop (limit number) rows (fetch number stop))
    (hnext : ∀ before row next rest, rows = before ++ row :: next :: rest →
      (∀ other ∈ before ++ [row], weight other ≤ budget) → ∀ number,
      Serves weight budget tooLarge encode stop (limit number) (next :: rest)
        (fetch number (encode row))) :
    ReadsExactly fetch stop weight budget tooLarge limit rows := by
  obtain ⟨pages, hpages, hflat, hkeeps⟩ := follow_suffix hstop hnext (rows.length + 1) [] rows 0
    stop rfl (by simp) (Nat.lt_succ_self _) hfirst
  refine ⟨rows.length + 1, pages, hpages, hflat, fun index page hpage => ?_⟩
  have hkeep := hkeeps index page hpage
  rwa [Nat.zero_add] at hkeep

/-- Reading is exact when a cursor is answered from the rows that come after its row in the order,
picked by comparing them with it. -/
theorem keyset_exact {le : Row → Row → Bool}
    (htrans : ∀ a b c, le a b = true → le b c = true → le a c = true)
    (htotal : ∀ a b, (le a b || le b a) = true) {rows : List Row} (hnodup : rows.Nodup)
    (hanti : ∀ a ∈ rows, ∀ b ∈ rows, le a b = true → le b a = true → a = b)
    (hstop : ∀ row ∈ rows, encode row ≠ stop)
    (hfirst : ∀ number,
      Serves weight budget tooLarge encode stop (limit number) (rows.mergeSort le)
        (fetch number stop))
    (hnext : ∀ row ∈ rows, ∀ number, Serves weight budget tooLarge encode stop (limit number)
      ((rows.filter fun other => !le other row).mergeSort le) (fetch number (encode row))) :
    ReadsExactly fetch stop weight budget tooLarge limit (rows.mergeSort le) := by
  have hrefl : ∀ a, le a a = true := fun a => by simpa using htotal a a
  have hsorted := pairwise_precedes htrans htotal hnodup hanti
  refine follow_exact (fun row hrow => hstop row (List.mem_mergeSort.mp hrow)) hfirst
    fun before row next rest hrows _ number => ?_
  have hrow : row ∈ rows.mergeSort le := by
    rw [hrows]
    simp
  have hserves := hnext row (List.mem_mergeSort.mp hrow) number
  rw [filter_mergeSort htrans htotal hanti, hrows] at hserves
  rw [hrows] at hsorted
  rwa [filter_after hrefl hsorted] at hserves

/-- Reading never ends inside a set of cursors that are answered with cursors of the set. -/
theorem follow_unfinished {cursors : Cursor → Prop}
    (hloop : ∀ cursor, cursors cursor → ∀ number, ∃ rows next,
      fetch number cursor = .ok (rows, next) ∧ next ≠ stop ∧ cursors next)
    (requests number : Nat) (cursor : Cursor) (hcursor : cursors cursor) :
    (follow fetch stop requests number cursor).2 = .unfinished := by
  induction requests generalizing number cursor with
  | zero => rfl
  | succ requests ih =>
      obtain ⟨rows, next, hfetch, hstop, hnext⟩ := hloop cursor hcursor number
      simp only [follow, hfetch, hstop, if_false]
      exact ih (number + 1) next hnext

end Iot.Data
