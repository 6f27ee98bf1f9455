import Mathlib.Data.List.Basic

/-!
# Rotation of numbered files

Files with the numbers `0` to `n`, the newest first, are rotated by renaming each to the next
number, from the last to the first. A rename of a missing file does nothing, and any rename may
fail and end the rotation; what it leaves then has gaps. A rename of one name of a file to another
name of it does nothing either.

A rotation that came to its end leaves no newest file, unless all the numbers are names of one file
(`rotate_newest`). If they are names of different files then, read from the highest number down, a
rotation leaves a suffix of what they had before, whether it came to its end or not
(`older_rotate`): a rename overwrites the file with the highest number, or none.
-/

namespace Iot.Data

variable {Name Node Byte Error : Type} [DecidableEq Name]

/-- The files by their names. Two names of one file have the same node. -/
abbrev Directory (Name Node : Type) : Type := Name → Option Node

namespace Directory

/-- The directory with a file under this name, or none. -/
def set (dir : Directory Name Node) (name : Name) (node : Option Node) : Directory Name Node :=
  fun other => if other = name then node else dir other

/-- Rename a file. One that has the new name loses it; if that is the same file, both names stay. -/
def rename [DecidableEq Node] (dir : Directory Name Node) (source target : Name) :
    Directory Name Node :=
  if dir source = dir target then dir else (dir.set source none).set target (dir source)

@[simp] theorem set_self (dir : Directory Name Node) (name : Name) (node : Option Node) :
    dir.set name node name = node := if_pos rfl

theorem set_other (dir : Directory Name Node) {name other : Name} (node : Option Node)
    (h : other ≠ name) : dir.set name node other = dir other := if_neg h

/-- Every file was there before. -/
def From (dir before : Directory Name Node) (names : Name → Prop) : Prop :=
  ∀ name node, names name → dir name = some node → ∃ name', names name' ∧ before name' = some node

/-- No two of the names are names of one file. -/
def Distinct (dir : Directory Name Node) (names : Name → Prop) : Prop :=
  ∀ name other node, names name → names other → dir name = some node → dir other = some node →
    name = other

omit [DecidableEq Name] in
theorem From.refl (dir : Directory Name Node) (names : Name → Prop) : dir.From dir names :=
  fun name _ hname hnode => ⟨name, hname, hnode⟩

omit [DecidableEq Name] in
theorem From.trans {first second third : Directory Name Node} {names : Name → Prop}
    (h : first.From second names) (h' : second.From third names) : first.From third names := by
  intro name node hname hnode
  obtain ⟨name', hname', hnode'⟩ := h name node hname hnode
  exact h' name' node hname' hnode'

variable [DecidableEq Node]

theorem rename_same {dir : Directory Name Node} {source target : Name}
    (h : dir source = dir target) : dir.rename source target = dir := if_pos h

theorem rename_source {dir : Directory Name Node} {source target : Name}
    (h : dir source ≠ dir target) : dir.rename source target source = none := by
  have hne : source ≠ target := fun heq => h (congrArg dir heq)
  rw [rename, if_neg h, set_other _ _ hne, set_self]

theorem rename_target (dir : Directory Name Node) (source target : Name) :
    dir.rename source target target = dir source := by
  rw [rename]
  split_ifs with h
  · exact h.symm
  · exact set_self _ _ _

theorem rename_other (dir : Directory Name Node) {source target name : Name}
    (hsource : name ≠ source) (htarget : name ≠ target) :
    dir.rename source target name = dir name := by
  rw [rename]
  split_ifs
  · rfl
  · rw [set_other _ _ htarget, set_other _ _ hsource]

/-- What a name has after a rename: the renamed file, or what it had. -/
theorem rename_eq_some {dir : Directory Name Node} {source target name : Name} {node : Node}
    (h : dir.rename source target name = some node) :
    name = target ∧ dir source = some node ∨ dir name = some node := by
  by_cases htarget : name = target
  · exact .inl ⟨htarget, by rw [← h, htarget, rename_target]⟩
  · rw [rename] at h
    split_ifs at h
    · exact .inr h
    · rw [set_other _ _ htarget, set] at h
      split_ifs at h
      exact .inr h

/-- A rename brings no new file. -/
theorem from_rename (dir : Directory Name Node) {source target : Name} {names : Name → Prop}
    (hsource : names source) : (dir.rename source target).From dir names := by
  intro name node hname hnode
  obtain ⟨-, h⟩ | h := rename_eq_some hnode
  · exact ⟨source, hsource, h⟩
  · exact ⟨name, hname, h⟩

/-- A rename of different files keeps them different. -/
theorem distinct_rename {dir : Directory Name Node} {source target : Name} {names : Name → Prop}
    (hsource : names source) (h : dir.Distinct names) :
    (dir.rename source target).Distinct names := by
  intro name other node hname hother hnode hnode'
  by_cases hsame : dir source = dir target
  · rw [rename_same hsame] at hnode hnode'
    exact h name other node hname hother hnode hnode'
  -- the old name has nothing now, so that no other name has the file
  have hgone : ∀ name, dir.rename source target name = some node → name ≠ source := by
    rintro name hsome rfl
    rw [rename_source hsame] at hsome
    cases hsome
  obtain ⟨rfl, hmoved⟩ | hkept := rename_eq_some hnode <;>
    obtain ⟨rfl, hmoved'⟩ | hkept' := rename_eq_some hnode'
  · rfl
  · exact absurd (h other source node hother hsource hkept' hmoved) (hgone other hnode')
  · exact absurd (h name source node hname hsource hkept hmoved') (hgone name hnode)
  · exact h name other node hname hother hkept hkept'

end Directory

section

variable [DecidableEq Node] (slot : Nat → Name)
  (fault : Nat → Directory Name Node → Option Error)

/-- Rename the files with the numbers below `n` to the next number, the last first. -/
def rotate : Nat → Directory Name Node → Directory Name Node × Option Error
  | 0, dir => (dir, none)
  | i + 1, dir =>
      match fault (i + 1) dir with
      | some err => (dir, some err)
      | none =>
          match dir (slot i) with
          | none => rotate i dir
          | some _ => rotate i (dir.rename (slot i) (slot (i + 1)))

variable {slot fault}

/-- What every rename keeps, a rotation keeps. -/
theorem rotate_invariant {n : Nat} (invariant : Directory Name Node → Prop)
    (hrename : ∀ i < n, ∀ dir, invariant dir → invariant (dir.rename (slot i) (slot (i + 1))))
    {dir : Directory Name Node} (h : invariant dir) : invariant (rotate slot fault n dir).1 := by
  induction n generalizing dir with
  | zero => exact h
  | succ i ih =>
      have hi : ∀ j < i, ∀ dir, invariant dir → invariant (dir.rename (slot j) (slot (j + 1))) :=
        fun j hj => hrename j (Nat.lt_succ_of_lt hj)
      rw [rotate]
      cases fault (i + 1) dir with
      | some err => exact h
      | none =>
          cases dir (slot i) with
          | none => exact ih hi h
          | some node => exact ih hi (hrename i (Nat.lt_succ_self i) dir h)

/-- A rotation does not touch other files. -/
theorem rotate_other {n : Nat} {dir : Directory Name Node} {name : Name}
    (h : ∀ i ≤ n, name ≠ slot i) : (rotate slot fault n dir).1 name = dir name := by
  refine rotate_invariant (fun after => after name = dir name) (fun i hi after hafter => ?_) rfl
  rw [Directory.rename_other after (h i (Nat.le_of_lt hi)) (h (i + 1) hi), hafter]

/-- A rotation brings no new file. -/
theorem from_rotate {n : Nat} {dir : Directory Name Node} {names : Name → Prop}
    (h : ∀ i ≤ n, names (slot i)) : (rotate slot fault n dir).1.From dir names :=
  rotate_invariant (fun after => after.From dir names)
    (fun i hi after hafter => (after.from_rename (h i (Nat.le_of_lt hi))).trans hafter)
    (.refl dir names)

/-- A rotation of different files keeps them different. -/
theorem distinct_rotate {n : Nat} {dir : Directory Name Node} {names : Name → Prop}
    (h : ∀ i ≤ n, names (slot i)) (hdistinct : dir.Distinct names) :
    (rotate slot fault n dir).1.Distinct names :=
  rotate_invariant (fun after => after.Distinct names)
    (fun i hi _ hafter => Directory.distinct_rename (h i (Nat.le_of_lt hi)) hafter) hdistinct

/-- After a rotation that came to its end there is no newest file, or all are one file. -/
theorem rotate_newest {n : Nat} {dir dir' : Directory Name Node}
    (h : rotate slot fault n dir = (dir', none)) :
    dir' (slot 0) = none ∨
      dir' = dir ∧ (∃ node, ∀ i ≤ n, dir (slot i) = some node) ∧
        ∀ i < n, fault (i + 1) dir = none := by
  induction n generalizing dir with
  | zero =>
      obtain rfl : dir' = dir := (congrArg Prod.fst h).symm
      cases hfile : dir' (slot 0) with
      | none => exact .inl rfl
      | some node =>
          refine .inr ⟨rfl, ⟨node, fun i hi => ?_⟩, fun i hi => absurd hi (Nat.not_lt_zero i)⟩
          rw [Nat.le_zero.mp hi, hfile]
  | succ n ih =>
      rw [rotate] at h
      cases hfault : fault (n + 1) dir with
      | some err => simp [hfault] at h
      | none =>
          cases hfile : dir (slot n) with
          | none =>
              simp only [hfault, hfile] at h
              obtain hnone | ⟨-, ⟨node, hnode⟩, -⟩ := ih h
              · exact .inl hnone
              · rw [hnode n (Nat.le_refl n)] at hfile
                cases hfile
          | some node =>
              simp only [hfault, hfile] at h
              by_cases hsame : dir (slot n) = dir (slot (n + 1))
              · rw [Directory.rename_same hsame] at h
                obtain hnone | ⟨hdir, ⟨node', hnode⟩, hfaults⟩ := ih h
                · exact .inl hnone
                · refine .inr ⟨hdir, ⟨node', fun i hi => ?_⟩, fun i hi => ?_⟩
                  · obtain hi | rfl := Nat.le_succ_iff.mp hi
                    · exact hnode i hi
                    · rw [← hsame, hnode n (Nat.le_refl n)]
                  · obtain hi | rfl := Nat.lt_succ_iff_lt_or_eq.mp hi
                    · exact hfaults i hi
                    · exact hfault
              · obtain hnone | ⟨-, ⟨node', hnode⟩, -⟩ := ih h
                · exact .inl hnone
                · have hgone := hnode n (Nat.le_refl n)
                  rw [Directory.rename_source hsame] at hgone
                  cases hgone

/-- If all are one file, a rotation without faults does nothing. -/
theorem rotate_shared {n : Nat} {dir : Directory Name Node} {node : Node}
    (h : ∀ i ≤ n, dir (slot i) = some node) (hfaults : ∀ i < n, fault (i + 1) dir = none) :
    rotate slot fault n dir = (dir, none) := by
  induction n with
  | zero => rfl
  | succ n ih =>
      have hsame : dir (slot n) = dir (slot (n + 1)) := by
        rw [h n (Nat.le_succ n), h (n + 1) (Nat.le_refl _)]
      simp only [rotate, hfaults n (Nat.lt_succ_self n), h n (Nat.le_succ n),
        Directory.rename_same hsame]
      exact ih (fun i hi => h i (Nat.le_succ_of_le hi)) fun i hi => hfaults i (Nat.lt_succ_of_lt hi)

/-- A rotation that leaves a file under every number did nothing. -/
theorem rotate_full {n : Nat} {dir : Directory Name Node}
    (h : ∀ i ≤ n, (rotate slot fault n dir).1 (slot i) ≠ none) :
    (rotate slot fault n dir).1 = dir := by
  induction n generalizing dir with
  | zero => rfl
  | succ n ih =>
      have hlow : ∀ {after}, (rotate slot fault (n + 1) dir).1 = (rotate slot fault n after).1 →
          (rotate slot fault n after).1 = after := fun heq =>
        ih fun i hi => heq ▸ h i (Nat.le_succ_of_le hi)
      have hlast := h n (Nat.le_succ n)
      rw [rotate] at hlow hlast ⊢
      cases hfault : fault (n + 1) dir with
      | some err => rfl
      | none =>
          simp only [hfault] at hlow hlast ⊢
          cases hfile : dir (slot n) with
          | none =>
              simp only [hfile] at hlow ⊢
              exact hlow rfl
          | some node =>
              simp only [hfile] at hlow hlast ⊢
              have hrest := hlow rfl
              by_cases hsame : dir (slot n) = dir (slot (n + 1))
              · rw [hrest, Directory.rename_same hsame]
              · rw [hrest, Directory.rename_source hsame] at hlast
                exact absurd rfl hlast

end

/-! ## Reading the files in order -/

section

/-- What the files with the numbers from `n` down to `0` have, the newest last. -/
def older (held : Nat → List Byte) : Nat → List Byte
  | 0 => held 0
  | i + 1 => held (i + 1) ++ older held i

/-- What a numbered file has. -/
def held (slot : Nat → Name) (content : Node → List Byte) (dir : Directory Name Node) (i : Nat) :
    List Byte :=
  ((dir (slot i)).map content).getD []

theorem older_congr {n : Nat} {first second : Nat → List Byte}
    (h : ∀ i ≤ n, first i = second i) : older first n = older second n := by
  induction n with
  | zero => exact h 0 (Nat.le_refl _)
  | succ i ih =>
      rw [older, older, h (i + 1) (Nat.le_refl _), ih fun j hj => h j (Nat.le_succ_of_le hj)]

/-- More at the end of the newest file is more at the end of all. -/
theorem older_append {n : Nat} {first second : Nat → List Byte} {more : List Byte}
    (hnewest : second 0 = first 0 ++ more) (h : ∀ i ≤ n, i ≠ 0 → second i = first i) :
    older second n = older first n ++ more := by
  induction n with
  | zero => exact hnewest
  | succ i ih =>
      rw [older, older, h (i + 1) (Nat.le_refl _) (Nat.succ_ne_zero i),
        ih fun j hj => h j (Nat.le_succ_of_le hj), List.append_assoc]

variable {slot : Nat → Name} (content : Node → List Byte)

omit [DecidableEq Name] in
/-- A missing file has nothing. -/
theorem held_none {dir : Directory Name Node} {i : Nat} (h : dir (slot i) = none) :
    held slot content dir i = [] := by
  rw [held, h]
  rfl

variable [DecidableEq Node] {fault : Nat → Directory Name Node → Option Error}

/-- A file that gets the next number is read in its new place as it was in the old. -/
theorem older_rename (hslot : ∀ i j, slot i = slot j → i = j) {i : Nat}
    {dir : Directory Name Node} (hmoved : dir (slot i) ≠ dir (slot (i + 1))) :
    older (held slot content (dir.rename (slot i) (slot (i + 1)))) (i + 1) =
      older (held slot content dir) i := by
  have hnew : held slot content (dir.rename (slot i) (slot (i + 1))) (i + 1) =
      held slot content dir i := by
    rw [held, held, Directory.rename_target]
  have hold : held slot content (dir.rename (slot i) (slot (i + 1))) i = [] :=
    held_none content (Directory.rename_source hmoved)
  rw [older, hnew]
  cases i with
  | zero => rw [older, older, hold, List.append_nil]
  | succ k =>
      rw [older, older, hold, List.nil_append]
      congr 1
      refine older_congr fun j hj => ?_
      have hsource : slot j ≠ slot (k + 1) := fun heq => by
        have := hslot _ _ heq
        omega
      have htarget : slot j ≠ slot (k + 1 + 1) := fun heq => by
        have := hslot _ _ heq
        omega
      rw [held, held, Directory.rename_other dir hsource htarget]

/-- A rotation of different files leaves a suffix, and everything if no file has the last number. -/
theorem older_rotate (hslot : ∀ i j, slot i = slot j → i = j) {names : Name → Prop} (n : Nat)
    (hnames : ∀ i ≤ n, names (slot i)) {dir : Directory Name Node}
    (hdistinct : dir.Distinct names) :
    older (held slot content (rotate slot fault n dir).1) n <:+ older (held slot content dir) n ∧
      (dir (slot n) = none →
        older (held slot content (rotate slot fault n dir).1) n =
          older (held slot content dir) n) := by
  induction n generalizing dir with
  | zero => exact ⟨List.suffix_rfl, fun _ => rfl⟩
  | succ i ih =>
      have hi : ∀ j ≤ i, names (slot j) := fun j hj => hnames j (Nat.le_succ_of_le hj)
      -- the renames below leave the last number alone
      have hlast : ∀ before : Directory Name Node,
          held slot content (rotate slot fault i before).1 (i + 1) =
            held slot content before (i + 1) := fun before => by
        rw [held, held, rotate_other fun j hj heq => by
          have := hslot _ _ heq
          omega]
      rw [rotate]
      cases fault (i + 1) dir with
      | some err => exact ⟨List.suffix_rfl, fun _ => rfl⟩
      | none =>
          cases hfile : dir (slot i) with
          | none =>
              have heq : older (held slot content (rotate slot fault i dir).1) (i + 1) =
                  older (held slot content dir) (i + 1) := by
                rw [older, older, hlast, (ih hi hdistinct).2 hfile]
              exact ⟨heq ▸ List.suffix_rfl, fun _ => heq⟩
          | some node =>
              have hmoved : dir (slot i) ≠ dir (slot (i + 1)) := fun hsame => by
                have := hslot _ _ (hdistinct _ _ node (hnames i (Nat.le_succ i))
                  (hnames (i + 1) (Nat.le_refl _)) hfile (hsame ▸ hfile))
                omega
              have hrenamed : (dir.rename (slot i) (slot (i + 1))).Distinct names :=
                Directory.distinct_rename (hnames i (Nat.le_succ i)) hdistinct
              have heq : older (held slot content
                  (rotate slot fault i (dir.rename (slot i) (slot (i + 1)))).1) (i + 1) =
                    older (held slot content dir) i := by
                rw [older, hlast, (ih hi hrenamed).2 (Directory.rename_source hmoved), ← older,
                  older_rename content hslot hmoved]
              simp only [heq]
              refine ⟨List.suffix_append _ _, fun hnone => ?_⟩
              rw [older, held_none content hnone, List.nil_append]

end

end Iot.Data
