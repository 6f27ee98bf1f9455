import Iot.Data.Paging
import Iot.Listing.Requests

/-!
# Filling a page

Every list function of the stores walks over the rows of its query and fills one page
(`internal/platform/page_budget.go`). A page ends with the rows, at the size that was asked for, or
before the row that would exceed `listContentBytes`; the cursor of the next page then names the last
row taken. `fillPage` is that loop. `fillPage_serves` says that its page is a proper answer from
the rows that are left, which is what reading a list page by page needs.
-/

namespace Iot.Listing

open Text Contracts Platform Data

/-- `MaxListResponseBytes`, two MiB. -/
def maxListResponseBytes : Nat := 2097152

/-- `listContentBytes`. -/
def listContentBytes : Nat := maxListResponseBytes - 4096

/-- `ErrListItemTooLarge`. -/
def errListItemTooLarge : GoError :=
  ⟨ascii "stored record exceeds the list response budget; operator repair is required",
    [.listItemTooLarge]⟩

/-- `responsePageBudget.accept`: the bytes used with the entry, or nothing when the page is full. -/
def accept (used bytes count : Nat) (limit : Int) : Except GoError (Option Nat) :=
  if (count : Int) ≥ limit then .ok none
  else if (bytes : Int) > listContentBytes - used then
    if count = 0 then .error errListItemTooLarge else .ok none
  else .ok (some (used + bytes))

/-- The panic of an index before the first entry. -/
def indexOutOfRange : GoError := .new "runtime error: index out of range [-1]"

variable {Row : Type}

/-- The loop over the rows of a query: the page, and the cursor of the next one or nothing. -/
def fillPage (bytes : Row → Nat) (cursor : Row → Bytes) (limit : Int) (used : Nat)
    (out : List Row) : List Row → Except GoError (List Row × Bytes)
  | [] => .ok (out, [])
  | row :: rest =>
      match accept used (bytes row) out.length limit with
      | .error err => .error err
      | .ok (some used) => fillPage bytes cursor limit used (out ++ [row]) rest
      | .ok none =>
          match out.getLast? with
          | some last => .ok (out, cursor last)
          | none => .error indexOutOfRange

variable {bytes : Row → Nat} {cursor : Row → Bytes} {limit : Int}

/-- What `accept` does. -/
theorem accept_cases (used size count : Nat) :
    (limit ≤ count ∧ accept used size count limit = .ok none) ∨
    (¬ limit ≤ count ∧ listContentBytes < used + size ∧ count = 0 ∧
      accept used size count limit = .error errListItemTooLarge) ∨
    (¬ limit ≤ count ∧ listContentBytes < used + size ∧ count ≠ 0 ∧
      accept used size count limit = .ok none) ∨
    (¬ limit ≤ count ∧ used + size ≤ listContentBytes ∧
      accept used size count limit = .ok (some (used + size))) := by
  unfold accept
  by_cases hfull : limit ≤ count
  · exact .inl ⟨hfull, if_pos hfull⟩
  · by_cases hlarge : listContentBytes < used + size
    · have hexceeds : (size : Int) > listContentBytes - used := by omega
      by_cases hcount : count = 0
      · exact .inr (.inl ⟨hfull, hlarge, hcount, by
          rw [if_neg hfull, if_pos hexceeds, if_pos hcount]⟩)
      · exact .inr (.inr (.inl ⟨hfull, hlarge, hcount, by
          rw [if_neg hfull, if_pos hexceeds, if_neg hcount]⟩))
    · have hfits : ¬ (size : Int) > listContentBytes - used := by omega
      exact .inr (.inr (.inr ⟨hfull, by omega, by rw [if_neg hfull, if_neg hfits]⟩))

/-- The rows after the one that fills the page are not looked at: `LIMIT` may leave them out. -/
theorem fillPage_take (rows : List Row) {used : Nat} {out : List Row} {count : Nat}
    (hout : out.length ≤ limit) (hcount : limit < out.length + count) :
    fillPage bytes cursor limit used out (rows.take count) =
      fillPage bytes cursor limit used out rows := by
  induction rows generalizing used out count with
  | nil => rw [List.take_nil]
  | cons row rest ih =>
      obtain _ | count := count
      · omega
      rw [List.take_succ_cons, fillPage, fillPage]
      rcases @accept_cases limit used (bytes row) out.length with
        ⟨_, h⟩ | ⟨_, _, _, h⟩ | ⟨_, _, _, h⟩ | ⟨hroom, _, h⟩
      · simp only [h]
      · simp only [h]
      · simp only [h]
      · simp only [h]
        refine ih ?_ ?_ <;> rw [List.length_append, List.length_singleton] <;> omega

/-- A page of one row that is followed by another. -/
theorem fillPage_one {first second : Row} {rest : List Row}
    (hfits : bytes first ≤ listContentBytes) :
    fillPage bytes cursor 1 0 [] (first :: second :: rest) = .ok ([first], cursor first) := by
  rcases @accept_cases 1 0 (bytes first) 0 with
    ⟨hfull, _⟩ | ⟨_, hlarge, _⟩ | ⟨_, hlarge, _⟩ | ⟨_, _, htaken⟩
  · omega
  · omega
  · omega
  · have hfull : ∀ used size : Nat, accept used size 1 1 = .ok none := by
      intro used size
      rw [accept]
      exact if_pos (by decide)
    simp only [fillPage, List.length_nil, htaken, List.nil_append, List.length_singleton, hfull,
      List.getLast?_singleton]

/-- A page that is full ends with its last row. -/
theorem serves_full {row : Row} {rest out : List Row} (hne : out ≠ [])
    (hbudget : (out.map bytes).sum ≤ listContentBytes) (hlimit : out.length ≤ limit.toNat) :
    Serves bytes listContentBytes errListItemTooLarge cursor [] limit.toNat
      (out ++ row :: rest)
      (match out.getLast? with
        | some last => .ok (out, cursor last)
        | none => .error indexOutOfRange) := by
  obtain rfl | ⟨init, last, rfl⟩ := List.eq_nil_or_concat out
  · exact absurd rfl hne
  · rw [List.concat_eq_append] at hbudget hlimit ⊢
    rw [List.append_assoc, List.getLast?_concat]
    exact .page hbudget hlimit

/-- The loop answers from the rows it has taken and those it has not seen. -/
theorem fillPage_serves_from (hlimit : 1 ≤ limit) (rows : List Row) {used : Nat} {out : List Row}
    (hused : used = (out.map bytes).sum) (hbudget : used ≤ listContentBytes)
    (hout : out.length ≤ limit.toNat) :
    Serves bytes listContentBytes errListItemTooLarge cursor [] limit.toNat (out ++ rows)
      (fillPage bytes cursor limit used out rows) := by
  induction rows generalizing used out with
  | nil =>
      rw [List.append_nil, fillPage]
      exact .last (hused ▸ hbudget) hout
  | cons row rest ih =>
      rw [fillPage]
      rcases @accept_cases limit used (bytes row) out.length with
        ⟨hfull, h⟩ | ⟨_, hlarge, hcount, h⟩ | ⟨_, _, hcount, h⟩ | ⟨hroom, hfits, h⟩
      · simp only [h]
        refine serves_full ?_ (hused ▸ hbudget) hout
        rintro rfl
        rw [List.length_nil] at hfull
        omega
      · obtain rfl : out = [] := List.eq_nil_of_length_eq_zero hcount
        rw [List.map_nil, List.sum_nil] at hused
        simp only [h, List.nil_append]
        exact .tooLarge (by omega)
      · simp only [h]
        refine serves_full ?_ (hused ▸ hbudget) hout
        rintro rfl
        exact hcount rfl
      · simp only [h]
        rw [← List.singleton_append, ← List.append_assoc]
        refine ih ?_ hfits ?_
        · rw [hused, List.map_append, List.sum_append, List.map_singleton, List.sum_singleton]
        · rw [List.length_append, List.length_singleton]
          omega

/-- The page answers from the rows that are left. -/
theorem fillPage_serves (hlimit : 1 ≤ limit) (rows : List Row) :
    Serves bytes listContentBytes errListItemTooLarge cursor [] limit.toNat rows
      (fillPage bytes cursor limit 0 [] rows) :=
  @fillPage_serves_from Row bytes cursor limit hlimit rows 0 [] rfl (Nat.zero_le _)
    (Nat.zero_le _)

/-- So does the page of a query with `LIMIT`, which asks for one row more than the page takes. -/
theorem fillPage_take_serves (hlimit : 1 ≤ limit) (rows : List Row) :
    Serves bytes listContentBytes errListItemTooLarge cursor [] limit.toNat rows
      (fillPage bytes cursor limit 0 [] (rows.take (limit + 1).toNat)) := by
  rw [fillPage_take rows (by simp only [List.length_nil]; omega)
    (by simp only [List.length_nil]; omega)]
  exact fillPage_serves hlimit rows

/-! ## What a row is charged -/

/-- `tenantListBytes`. -/
def tenantListBytes (t : Tenant) : Nat := 512 + t.id.length + t.name.length

/-- `deviceListBytes`. -/
def deviceListBytes (d : Device) : Nat :=
  512 + d.tenantID.length + d.deviceID.length + d.productID.length

/-- `commandListBytes`. -/
def commandListBytes (go : GoRuntime) (c : Command) : Nat :=
  (resultJSON go c.result).length + 512 + c.id.length + c.tenantID.length + c.deviceID.length +
    c.status.text.length + c.payload.length

/-- `telemetryListBytes`. -/
def telemetryListBytes (t : TelemetryRecord) : Nat :=
  512 + t.msgID.length + t.tenantID.length + t.deviceID.length + t.type.length +
    t.version.length + t.payload.length

end Iot.Listing
