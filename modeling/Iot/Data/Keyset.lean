import Iot.Data.Paging

/-!
# Lists in the order of compound keys

The rows of a table are listed in the order of keys of two parts, a number and a name, ascending or
descending. `orderBy` is that order and `keyAfter` the comparison that picks the rows after a
cursor; `keyAfter_eq` says that the two fit together.

`keyset_lists` is the result for a server that answers each cursor from the rows `keyAfter` picks:
reading page by page gives the rows that match, each of them once, in order.
-/

namespace Iot.Data

variable {Name Row Cursor Err : Type}

/-- A comparison of names that is a linear order. -/
structure Linear (le : Name → Name → Bool) : Prop where
  trans : ∀ a b c, le a b = true → le b c = true → le a c = true
  total : ∀ a b, (le a b || le b a) = true
  antisymm : ∀ a b, le a b = true → le b a = true → a = b

section Keys

variable (le : Name → Name → Bool)

/-- `(a, b) <= (c, d)`. -/
def keyLe (key other : Int × Name) : Bool :=
  decide (key.1 < other.1) || (key.1 == other.1 && le key.2 other.2)

/-- `(a, b) < (c, d)`. -/
def keyLt (key other : Int × Name) : Bool :=
  decide (key.1 < other.1) || (key.1 == other.1 && !le other.2 key.2)

/-- The order of a list, ascending or descending. -/
def orderBy (asc : Bool) (key other : Int × Name) : Bool :=
  if asc then keyLe le key other else keyLe le other key

/-- The keys after the one of a cursor: greater when ascending, less when descending. -/
def keyAfter (asc : Bool) (cursor key : Int × Name) : Bool :=
  if asc then keyLt le cursor key else keyLt le key cursor

variable {le}

theorem keyLt_eq (key other : Int × Name) : keyLt le key other = !keyLe le other key := by
  obtain ⟨a, b⟩ := key
  obtain ⟨c, d⟩ := other
  simp only [keyLt, keyLe]
  rcases Int.lt_trichotomy a c with h | rfl | h
  · have hlt : ¬ c < a := by omega
    have hne : ¬ c = a := by omega
    simp [h, hlt, hne]
  · simp
  · have hlt : ¬ a < c := by omega
    have hne : ¬ a = c := by omega
    simp [h, hlt, hne]

/-- The keys after a cursor are those that do not come before it or with it. -/
theorem keyAfter_eq (asc : Bool) (cursor key : Int × Name) :
    keyAfter le asc cursor key = !orderBy le asc key cursor := by
  cases asc <;> simp [keyAfter, orderBy, keyLt_eq]

namespace Linear

variable (h : Linear le)

include h

theorem keyLe_trans {a b c : Int × Name} (hab : keyLe le a b) (hbc : keyLe le b c) :
    keyLe le a c := by
  simp only [keyLe, Bool.or_eq_true, decide_eq_true_eq, Bool.and_eq_true, beq_iff_eq] at hab hbc ⊢
  rcases hab with hab | ⟨hab, hname⟩ <;> rcases hbc with hbc | ⟨hbc, hname'⟩
  · exact .inl (by omega)
  · exact .inl (by omega)
  · exact .inl (by omega)
  · exact .inr ⟨by omega, h.trans _ _ _ hname hname'⟩

theorem keyLe_total (a b : Int × Name) : (keyLe le a b || keyLe le b a) = true := by
  simp only [keyLe, Bool.or_eq_true, decide_eq_true_eq, Bool.and_eq_true, beq_iff_eq]
  rcases Int.lt_trichotomy a.1 b.1 with hlt | heq | hlt
  · exact .inl (.inl hlt)
  · rcases Bool.or_eq_true_iff.mp (h.total a.2 b.2) with hname | hname
    · exact .inl (.inr ⟨heq, hname⟩)
    · exact .inr (.inr ⟨heq.symm, hname⟩)
  · exact .inr (.inl hlt)

theorem keyLe_antisymm {a b : Int × Name} (hab : keyLe le a b) (hba : keyLe le b a) : a = b := by
  simp only [keyLe, Bool.or_eq_true, decide_eq_true_eq, Bool.and_eq_true, beq_iff_eq] at hab hba
  rcases hab with hab | ⟨hab, hname⟩
  · omega
  rcases hba with hba | ⟨_, hname'⟩
  · omega
  · exact Prod.ext hab (h.antisymm _ _ hname hname')

theorem orderBy_trans (asc : Bool) (a b c : Int × Name) (hab : orderBy le asc a b)
    (hbc : orderBy le asc b c) : orderBy le asc a c := by
  cases asc
  · exact h.keyLe_trans hbc hab
  · exact h.keyLe_trans hab hbc

theorem orderBy_total (asc : Bool) (a b : Int × Name) :
    (orderBy le asc a b || orderBy le asc b a) = true := by
  cases asc
  · exact h.keyLe_total b a
  · exact h.keyLe_total a b

theorem orderBy_antisymm {asc : Bool} {a b : Int × Name} (hab : orderBy le asc a b)
    (hba : orderBy le asc b a) : a = b := by
  cases asc
  · exact h.keyLe_antisymm hba hab
  · exact h.keyLe_antisymm hab hba

end Linear

end Keys

/-- Comes before, in the order of a list. -/
def KeyBefore (le : Name → Name → Bool) (asc : Bool) (key other : Int × Name) : Prop :=
  orderBy le asc key other = true ∧ key ≠ other

/-- What reading a list should return: the rows of a table that match, each of them once, in the
order given. -/
structure Lists (table : List Row) (matching : Row → Prop) (before : Row → Row → Prop)
    (listed : List Row) : Prop where
  mem : ∀ row, row ∈ listed ↔ row ∈ table ∧ matching row
  order : listed.Pairwise before

variable [DecidableEq Cursor] {fetch : Nat → Cursor → Except Err (List Row × Cursor)}
  {stop : Cursor} {weight : Row → Nat} {budget : Nat} {tooLarge : Err} {encode : Row → Cursor}
  {le : Name → Name → Bool} {asc : Bool} {key : Row → Int × Name} {table : List Row}
  {matching : Row → Bool} {wanted : Row → Prop} {limit : Nat → Nat}

/-- Sorted by their keys. -/
def sortRows (le : Name → Name → Bool) (asc : Bool) (key : Row → Int × Name) (rows : List Row) :
    List Row :=
  rows.mergeSort fun row other => orderBy le asc (key row) (key other)

/-- Picking rows by their keys may come before sorting them. -/
theorem filter_sortRows (hle : Linear le)
    (hkey : ∀ a ∈ table, ∀ b ∈ table, matching a → matching b → key a = key b → a = b)
    (pick : Row → Bool) :
    sortRows le asc key (table.filter fun row => matching row && pick row) =
      (sortRows le asc key (table.filter matching)).filter pick := by
  have hpick : (table.filter fun row => matching row && pick row) =
      (table.filter matching).filter pick := by
    rw [List.filter_filter]
    exact List.filter_congr fun row _ => Bool.and_comm ..
  rw [hpick, sortRows, sortRows]
  refine filter_mergeSort (fun a b c => hle.orderBy_trans asc (key a) (key b) (key c))
    (fun a b => hle.orderBy_total asc (key a) (key b)) (fun a ha b hb hab hba => ?_) pick
  rw [List.mem_filter] at ha hb
  exact hkey a ha.1 b hb.1 ha.2 hb.2 (hle.orderBy_antisymm hab hba)

/-- There is one list of the same rows in the same order. -/
theorem Lists.unique (hle : Linear le) {table other : List Row} {wanted wanted' : Row → Prop}
    {listed listed' : List Row}
    (h : Lists table wanted (fun row row' => KeyBefore le asc (key row) (key row')) listed)
    (h' : Lists other wanted' (fun row row' => KeyBefore le asc (key row) (key row')) listed')
    (hsame : ∀ row, row ∈ table ∧ wanted row ↔ row ∈ other ∧ wanted' row) : listed = listed' := by
  have hnodup : ∀ {rows : List Row},
      rows.Pairwise (fun row row' => KeyBefore le asc (key row) (key row')) → rows.Nodup := by
    intro rows hrows
    exact hrows.imp fun hbefore heq => hbefore.2 (congrArg key heq)
  have hperm : listed.Perm listed' := by
    rw [List.perm_ext_iff_of_nodup (hnodup h.order) (hnodup h'.order)]
    intro row
    rw [h.mem, h'.mem, hsame]
  refine hperm.eq_of_pairwise (fun a b _ _ hab hba => ?_) h.order h'.order
  exact absurd (hle.orderBy_antisymm hab.1 hba.1) hab.2

/-- A server that lists the rows of a table that match by their keys: it answers each cursor from
the rows after its row. -/
structure Keyset (le : Name → Name → Bool) (asc : Bool) (key : Row → Int × Name) (table : List Row)
    (matching : Row → Bool) (encode : Row → Cursor) (stop : Cursor) (weight : Row → Nat)
    (budget : Nat) (tooLarge : Err) (limit : Nat → Nat)
    (fetch : Nat → Cursor → Except Err (List Row × Cursor)) : Prop where
  nodup : table.Nodup
  keys : ∀ a ∈ table, ∀ b ∈ table, matching a → matching b → key a = key b → a = b
  goes : ∀ row ∈ table, encode row ≠ stop
  first : ∀ number, Serves weight budget tooLarge encode stop (limit number)
    (sortRows le asc key (table.filter matching)) (fetch number stop)
  next : ∀ row ∈ table, matching row → ∀ number,
    Serves weight budget tooLarge encode stop (limit number)
      (sortRows le asc key (table.filter fun other =>
        matching other && keyAfter le asc (key row) (key other))) (fetch number (encode row))

/-- Such a server lists the table page by page. -/
theorem Keyset.lists (h : Keyset le asc key table matching encode stop weight budget tooLarge limit
      fetch) (hle : Linear le) (hwanted : ∀ row ∈ table, matching row = true ↔ wanted row) :
    ∃ listed,
      Lists table wanted (fun row other => KeyBefore le asc (key row) (key other)) listed ∧
      ReadsExactly fetch stop weight budget tooLarge limit listed := by
  have htrans : ∀ a b c : Row, orderBy le asc (key a) (key b) = true →
      orderBy le asc (key b) (key c) = true → orderBy le asc (key a) (key c) = true :=
    fun a b c => hle.orderBy_trans asc _ _ _
  have htotal : ∀ a b : Row, (orderBy le asc (key a) (key b) || orderBy le asc (key b) (key a)) =
      true := fun a b => hle.orderBy_total asc _ _
  have hanti : ∀ a ∈ table.filter matching, ∀ b ∈ table.filter matching,
      orderBy le asc (key a) (key b) = true → orderBy le asc (key b) (key a) = true → a = b := by
    intro a ha b hb hab hba
    rw [List.mem_filter] at ha hb
    exact h.keys a ha.1 b hb.1 ha.2 hb.2 (hle.orderBy_antisymm hab hba)
  have hdistinct : (table.filter matching).Nodup := h.nodup.filter _
  refine ⟨sortRows le asc key (table.filter matching), ⟨?_, ?_⟩, ?_⟩
  · intro row
    rw [sortRows, List.mem_mergeSort, List.mem_filter]
    exact and_congr_right fun hrow => hwanted row hrow
  · refine (pairwise_precedes htrans htotal hdistinct hanti).imp fun {a b} hab => ⟨hab.1, ?_⟩
    intro heq
    have hback : orderBy le asc (key b) (key a) = false := hab.2
    have hself := hle.orderBy_total asc (key b) (key b)
    rw [heq] at hback
    rw [hback] at hself
    cases hself
  · refine keyset_exact htrans htotal hdistinct hanti
      (fun row hrow => h.goes row (List.mem_of_mem_filter hrow)) h.first fun row hrow number => ?_
    rw [List.mem_filter] at hrow
    have hserves := h.next row hrow.1 hrow.2 number
    have hpick :
        (table.filter fun other => matching other && keyAfter le asc (key row) (key other)) =
        (table.filter matching).filter fun other => !orderBy le asc (key other) (key row) := by
      rw [List.filter_filter]
      refine List.filter_congr fun other _ => ?_
      rw [keyAfter_eq, Bool.and_comm]
    rwa [hpick] at hserves

end Iot.Data
