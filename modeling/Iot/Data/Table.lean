import Mathlib.Algebra.GroupWithZero.Nat
import Mathlib.Algebra.Order.BigOperators.Group.List
import Mathlib.Algebra.Order.Group.Nat
import Mathlib.Data.List.Nodup
import Mathlib.Data.List.Sort

/-!
# Tables with a primary key

A table is a list of rows no two of which have the same key. Its operations are the statements of
SQL that a store issues: look a row up by its key, insert a row whose key is new, update the rows
that satisfy a predicate, and pick the first rows in some order that satisfy one
(`SELECT … ORDER BY … LIMIT`). What each of them does is stated through `find?`.
-/

namespace Iot.Data

/-- A table of rows with a key. -/
structure Table {Row Key : Type} (key : Row → Key) where
  rows : List Row
  nodup : (rows.map key).Nodup

namespace Table

variable {Row Key : Type} {key : Row → Key}

/-- The table without rows. -/
def empty : Table key := ⟨[], by simp⟩

variable [DecidableEq Key]

/-- The row with a key. -/
def find? (table : Table key) (k : Key) : Option Row := table.rows.find? fun row => key row = k

/-- Insert a row whose key no row has. -/
def insert (table : Table key) (row : Row) (h : table.find? (key row) = none) : Table key where
  rows := table.rows ++ [row]
  nodup := by
    rw [find?, List.find?_eq_none] at h
    rw [List.map_append, List.nodup_append]
    refine ⟨table.nodup, by simp, ?_⟩
    intro k hk other hother
    obtain ⟨row', hrow', rfl⟩ := List.mem_map.mp hk
    have hne := h row' hrow'
    simp only [List.map_cons, List.map_nil, List.mem_singleton] at hother
    simpa [hother] using hne

/-- Change the rows that satisfy a predicate. The change keeps the key. -/
def update (table : Table key) (where? : Row → Bool) (set : Row → Row)
    (hset : ∀ row, key (set row) = key row) : Table key where
  rows := table.rows.map fun row => if where? row then set row else row
  nodup := by
    have hkeys : (table.rows.map fun row => if where? row then set row else row).map key =
        table.rows.map key := by
      rw [List.map_map]
      refine List.map_congr_left fun row _ => ?_
      by_cases h : where? row <;> simp [h, hset]
    rw [hkeys]
    exact table.nodup

/-- The first `limit` rows in the given order that satisfy a predicate. -/
def select (table : Table key) (where? : Row → Bool) (before : Row → Row → Bool) (limit : Nat) :
    List Row :=
  ((table.rows.filter where?).mergeSort before).take limit

omit [DecidableEq Key] in
/-- Rows are equal when their keys are. -/
theorem eq_of_key (table : Table key) {row other : Row} (hrow : row ∈ table.rows)
    (hother : other ∈ table.rows) (h : key row = key other) : row = other :=
  List.inj_on_of_nodup_map table.nodup hrow hother h

/-- A row is found by its key. -/
theorem find?_eq_some_iff (table : Table key) (k : Key) (row : Row) :
    table.find? k = some row ↔ row ∈ table.rows ∧ key row = k := by
  constructor
  · intro h
    exact ⟨List.mem_of_find?_eq_some h, by simpa using List.find?_some h⟩
  · rintro ⟨hmem, rfl⟩
    cases hfind : table.find? (key row) with
    | none =>
        rw [find?, List.find?_eq_none] at hfind
        simpa using hfind row hmem
    | some other =>
        have hkey : key other = key row := by simpa using List.find?_some hfind
        rw [table.eq_of_key (List.mem_of_find?_eq_some hfind) hmem hkey]

/-- The row found has the key it was looked up by. -/
theorem key_of_find? {table : Table key} {k : Key} {row : Row} (h : table.find? k = some row) :
    key row = k := ((table.find?_eq_some_iff k row).mp h).2

@[simp] theorem find?_empty (k : Key) : (empty : Table key).find? k = none := rfl

/-- After an insert the new row is found under its key and every other key as before. -/
theorem find?_insert (table : Table key) (row : Row) (h : table.find? (key row) = none) (k : Key) :
    (table.insert row h).find? k = if key row = k then some row else table.find? k := by
  simp only [insert, find?, List.find?_append]
  by_cases hk : key row = k
  · subst hk
    rw [find?] at h
    simp [h]
  · simp [hk]

/-- After an update a key finds the row it found before, changed if it satisfies the predicate. -/
theorem find?_update (table : Table key) (where? : Row → Bool) (set : Row → Row)
    (hset : ∀ row, key (set row) = key row) (k : Key) :
    (table.update where? set hset).find? k =
      (table.find? k).map fun row => if where? row then set row else row := by
  simp only [update, find?]
  induction table.rows with
  | nil => rfl
  | cons row rest ih =>
      have hkey : key (if where? row then set row else row) = key row := by
        by_cases h : where? row <;> simp [h, hset]
      by_cases hk : key row = k
      · simp [hkey, hk]
      · simpa [hkey, hk] using ih

/-- Insert a row in place of the row with its key. -/
def put (table : Table key) (row : Row) : Table key :=
  if h : table.find? (key row) = none then table.insert row h
  else
    table.update (fun _ => true) (fun other => if key other = key row then row else other)
      fun other => by
        split_ifs with hkey
        · exact hkey.symm
        · rfl

/-- After a put the new row is found under its key and every other key as before. -/
theorem find?_put (table : Table key) (row : Row) (k : Key) :
    (table.put row).find? k = if key row = k then some row else table.find? k := by
  rw [put]
  split_ifs with hnone hkey hkey
  · rw [find?_insert, if_pos hkey]
  · rw [find?_insert, if_neg hkey]
  · obtain ⟨other, hother⟩ := Option.ne_none_iff_exists'.mp hnone
    rw [find?_update, ← hkey, hother, Option.map_some, if_pos rfl, if_pos (key_of_find? hother)]
  · rw [find?_update]
    cases hother : table.find? k with
    | none => rfl
    | some other =>
        have hne : ¬ key other = key row := fun h => hkey (h.symm.trans (key_of_find? hother))
        rw [Option.map_some, if_pos rfl, if_neg hne]

/-- After rows with different keys were put, each is found under its key and every other key as
before. -/
theorem find?_foldl_put (table : Table key) (rows : List Row) (hrows : (rows.map key).Nodup)
    (k : Key) :
    (rows.foldl put table).find? k = (rows.find? fun row => key row = k).or (table.find? k) := by
  induction rows generalizing table with
  | nil => rfl
  | cons row rest ih =>
      rw [List.map_cons, List.nodup_cons] at hrows
      rw [List.foldl_cons, ih _ hrows.2, find?_put, List.find?_cons]
      by_cases hkey : key row = k
      · have hrest : rest.find? (fun other => key other = k) = none := by
          rw [List.find?_eq_none]
          intro other hother heq
          exact hrows.1 (List.mem_map.mpr ⟨other, hother, by simpa [hkey] using heq⟩)
        simp [hkey, hrest]
      · simp [hkey]

/-- The rows with a key are the row found by it. -/
theorem filter_key (table : Table key) (k : Key) :
    (table.rows.filter fun row => key row = k) = (table.find? k).toList := by
  obtain ⟨rows, hnodup⟩ := table
  simp only [find?]
  induction rows with
  | nil => rfl
  | cons row rest ih =>
      rw [List.map_cons, List.nodup_cons] at hnodup
      by_cases hk : key row = k
      · have hrest : (rest.filter fun other => key other = k) = [] := by
          rw [List.filter_eq_nil_iff]
          intro other hother hkey
          have hsame : key other = key row := by simpa [hk] using hkey
          exact hnodup.1 (hsame ▸ List.mem_map_of_mem hother)
        simp [hk, hrest]
      · simpa [hk] using ih hnodup.2

/-- Every key that was found is still found after an insert. -/
theorem isSome_find?_insert {table : Table key} {row : Row} {h : table.find? (key row) = none}
    {k : Key} (hk : (table.find? k).isSome) : ((table.insert row h).find? k).isSome := by
  rw [find?_insert]
  split
  · rfl
  · exact hk

/-- An update neither adds nor removes keys. -/
@[simp] theorem isSome_find?_update (table : Table key) (where? : Row → Bool) (set : Row → Row)
    (hset : ∀ row, key (set row) = key row) (k : Key) :
    ((table.update where? set hset).find? k).isSome = (table.find? k).isSome := by
  rw [find?_update, Option.isSome_map]

omit [DecidableEq Key] in
/-- Only rows that satisfy the predicate are selected. -/
theorem mem_of_mem_select {table : Table key} {where? : Row → Bool} {before : Row → Row → Bool}
    {limit : Nat} {row : Row} (h : row ∈ table.select where? before limit) :
    row ∈ table.rows ∧ where? row := by
  have hsorted := List.mem_of_mem_take h
  rw [List.mem_mergeSort, List.mem_filter] at hsorted
  exact hsorted

omit [DecidableEq Key] in
/-- A row whose key is among those selected satisfies the predicate. -/
theorem where_of_key_mem_select {table : Table key} {where? : Row → Bool}
    {before : Row → Row → Bool} {limit : Nat} {row : Row} (hrow : row ∈ table.rows)
    (h : key row ∈ (table.select where? before limit).map key) : where? row := by
  obtain ⟨other, hother, hkey⟩ := List.mem_map.mp h
  obtain ⟨hmem, hwhere⟩ := mem_of_mem_select hother
  rwa [table.eq_of_key hmem hrow hkey] at hwhere

omit [DecidableEq Key] in
/-- If some row satisfies the predicate, one is selected. -/
theorem select_ne_nil {table : Table key} {where? : Row → Bool} {before : Row → Row → Bool}
    {limit : Nat} (hlimit : 0 < limit) {row : Row} (hrow : row ∈ table.rows) (h : where? row) :
    table.select where? before limit ≠ [] := by
  have hmem : row ∈ (table.rows.filter where?).mergeSort before := by
    rw [List.mem_mergeSort, List.mem_filter]
    exact ⟨hrow, h⟩
  have hlength := List.length_pos_of_mem hmem
  intro hnil
  rw [select, List.take_eq_nil_iff] at hnil
  rcases hnil with hzero | hempty
  · omega
  · simp [hempty] at hlength

omit [DecidableEq Key] in
/-- Where rows are selected in the order of a number that tells them apart, no row is left out
before one that is selected. -/
theorem mem_select_of_le {table : Table key} {where? : Row → Bool} {id : Row → Nat} {limit : Nat}
    (hid : ∀ row ∈ table.rows, ∀ other ∈ table.rows, id row = id other → row = other)
    {row last : Row} (hrow : row ∈ table.rows) (h : where? row)
    (hlast : last ∈ table.select where? (fun first second => id first ≤ id second) limit)
    (hle : id row ≤ id last) :
    row ∈ table.select where? (fun first second => id first ≤ id second) limit := by
  have hmem : row ∈ (table.rows.filter where?).mergeSort
      fun first second => id first ≤ id second := by
    rw [List.mem_mergeSort, List.mem_filter]
    exact ⟨hrow, h⟩
  have htrans : ∀ a b c : Row, decide (id a ≤ id b) = true → decide (id b ≤ id c) = true →
      decide (id a ≤ id c) = true := by
    intro a b c
    simpa using Nat.le_trans
  have htotal : ∀ a b : Row, (decide (id a ≤ id b) || decide (id b ≤ id a)) = true := by
    intro a b
    simpa using Nat.le_total (id a) (id b)
  have hsorted := List.pairwise_mergeSort htrans htotal (table.rows.filter where?)
  rw [← List.take_append_drop limit (List.mergeSort _ _)] at hmem hsorted
  rcases List.mem_append.mp hmem with hmem | hmem
  · exact hmem
  · have hge := (List.pairwise_append.mp hsorted).2.2 last hlast row hmem
    rw [hid row hrow last (mem_of_mem_select hlast).1 (Nat.le_antisymm hle (by simpa using hge))]
    exact hlast

omit [DecidableEq Key] in
/-- An update that leaves the rows it picks as they are changes nothing. -/
theorem update_eq_of_fixed (table : Table key) (where? : Row → Bool) (set : Row → Row)
    (hset : ∀ row, key (set row) = key row)
    (h : ∀ row ∈ table.rows, where? row → set row = row) :
    table.update where? set hset = table := by
  obtain ⟨rows, hnodup⟩ := table
  simp only [update, mk.injEq]
  conv_rhs => rw [← List.map_id rows]
  refine List.map_congr_left fun row hrow => ?_
  split_ifs with hwhere
  · exact h row hrow hwhere
  · rfl

omit [DecidableEq Key] in
/-- An update that picks no row changes nothing. -/
theorem update_eq_self (table : Table key) (where? : Row → Bool) (set : Row → Row)
    (hset : ∀ row, key (set row) = key row) (h : ∀ row ∈ table.rows, where? row = false) :
    table.update where? set hset = table :=
  table.update_eq_of_fixed where? set hset fun row hrow hwhere => by simp [h row hrow] at hwhere

/-- The total of a measure over all rows. -/
def total (table : Table key) (measure : Row → Nat) : Nat := (table.rows.map measure).sum

omit [DecidableEq Key] in
/-- An update that lowers the measure of every row it changes, and changes one, lowers the
total. -/
theorem total_update_lt (table : Table key) (where? : Row → Bool) (set : Row → Row)
    (hset : ∀ row, key (set row) = key row) (measure : Row → Nat)
    (h : ∀ row ∈ table.rows, where? row → measure (set row) < measure row)
    {row : Row} (hrow : row ∈ table.rows) (hwhere : where? row) :
    (table.update where? set hset).total measure < table.total measure := by
  simp only [total, update, List.map_map]
  refine List.sum_lt_sum _ _ (fun other hother => ?_) ⟨row, hrow, ?_⟩
  · by_cases hother' : where? other
    · simpa [hother'] using (h other hother hother').le
    · simp [hother']
  · simpa [hwhere] using h row hrow hwhere

end Table

end Iot.Data
