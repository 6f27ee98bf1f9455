import Iot.Data.Rotation
import Mathlib.Logic.Relation

/-!
# Files and links

A file system gives each name a node: a file, a directory or a symbolic link to another name. Two
names of one file have the same node. `stat` and `openAppend` follow links, a rename does not.

What a program does to some names reaches other ones through links only. `Within` says that all that
is reached from these names, now or after they were renamed among each other, meets a condition on
files; `within_of_lookup` finds that out by following the links.
-/

namespace Iot.Data

open Relation (ReflTransGen)

/-- What a name stands for. -/
inductive Node (Name File : Type) where
  | regular (file : File)
  | directory (file : File)
  | symlink (target : Name)

/-- The data of a file or a directory. -/
def Node.data {Name File : Type} : Node Name File → Option File
  | .regular file => some file
  | .directory file => some file
  | .symlink _ => none

/-- Names and nodes. A lookup follows at most `maxLinks` links. -/
structure FileSystem (Name File : Type) where
  entries : Directory Name Nat
  nodes : Nat → Node Name File
  next : Nat
  maxLinks : Nat
  used : ∀ name node, entries name = some node → node < next

/-- Where the links from a name lead. -/
inductive Lookup (Name : Type) where
  | missing (name : Name)
  | found (node : Nat)
  | loop
  deriving DecidableEq, Repr

/-- Why an operation on files is refused. -/
inductive FileError where
  | loop
  | isDirectory
  | exists
  | notDirectory
  deriving DecidableEq, Repr

namespace FileSystem

variable {Name File : Type}

/-! ## Operations -/

/-- The name this one is a link to. -/
def linkAt (fs : FileSystem Name File) (name : Name) : Option Name :=
  match (fs.entries name).map fs.nodes with
  | some (.symlink target) => some target
  | _ => none

/-- What stands under a name that is no link. -/
def ending (fs : FileSystem Name File) (name : Name) : Lookup Name :=
  match fs.entries name with
  | none => .missing name
  | some node => .found node

/-- Follow at most this many links. -/
def follow (fs : FileSystem Name File) : Nat → Name → Lookup Name
  | 0, name => if (fs.linkAt name).isSome then .loop else fs.ending name
  | links + 1, name =>
      match fs.linkAt name with
      | some target => fs.follow links target
      | none => fs.ending name

/-- Where the links from a name lead. -/
def lookup (fs : FileSystem Name File) (name : Name) : Lookup Name := fs.follow fs.maxLinks name

/-- The data under a name, if there is any. -/
def stat (fs : FileSystem Name File) (name : Name) : Except FileError (Option File) :=
  match fs.lookup name with
  | .missing _ => .ok none
  | .found node => .ok (fs.nodes node).data
  | .loop => .error .loop

/-- What a rename is refused for: it would replace a directory, or something else by one. -/
def refusal (nodes : Nat → Node Name File) (dir : Directory Name Nat)
    (source target : Name) : Option FileError :=
  match dir source, dir target with
  | some old, some new =>
      if old = new then none
      else
        match nodes old, nodes new with
        | _, .directory _ => some .exists
        | .directory _, _ => some .notDirectory
        | _, _ => none
  | _, _ => none

/-- The file system with other names for its nodes. -/
def withEntries (fs : FileSystem Name File) (entries : Directory Name Nat)
    (h : entries.From fs.entries fun _ => True) : FileSystem Name File :=
  { fs with
    entries := entries
    used := fun name node hnode => by
      obtain ⟨name', -, hbefore⟩ := h name node trivial hnode
      exact fs.used name' node hbefore }

/-- The node with other data. -/
def update (fs : FileSystem Name File) (node : Nat) (file : File) : FileSystem Name File :=
  { fs with nodes := fun other => if other = node then .regular file else fs.nodes other }

section

variable [DecidableEq Name]

/-- Take a name away. -/
def remove (fs : FileSystem Name File) (name : Name) : FileSystem Name File :=
  fs.withEntries (fs.entries.set name none) fun other node _ hnode => by
    by_cases hother : other = name
    · rw [hother, Directory.set_self] at hnode
      cases hnode
    · exact ⟨other, trivial, by rwa [Directory.set_other _ _ hother] at hnode⟩

/-- A new file. -/
def create (fs : FileSystem Name File) (name : Name) (file : File) : FileSystem Name File where
  entries := fs.entries.set name (some fs.next)
  nodes := fun other => if other = fs.next then .regular file else fs.nodes other
  next := fs.next + 1
  maxLinks := fs.maxLinks
  used other node hnode := by
    by_cases hother : other = name
    · rw [hother, Directory.set_self] at hnode
      cases hnode
      exact Nat.lt_succ_self _
    · rw [Directory.set_other _ _ hother] at hnode
      exact Nat.lt_succ_of_lt (fs.used other node hnode)

/-- Open a file to write at its end. If there is none it is created, under the name the links lead
to. -/
def openAppend (fs : FileSystem Name File) (empty : File) (name : Name) :
    Except FileError (FileSystem Name File × Nat × File) :=
  match fs.lookup name with
  | .loop => .error .loop
  | .missing last => .ok (fs.create last empty, fs.next, empty)
  | .found node =>
      match fs.nodes node with
      | .regular file => .ok (fs, node, file)
      | _ => .error .isDirectory

end

@[simp] theorem update_entries (fs : FileSystem Name File) (node : Nat) (file : File) :
    (fs.update node file).entries = fs.entries := rfl

@[simp] theorem update_nodes (fs : FileSystem Name File) (node : Nat) (file : File) (other : Nat) :
    (fs.update node file).nodes other =
      if other = node then .regular file else fs.nodes other := rfl

@[simp] theorem create_entries [DecidableEq Name] (fs : FileSystem Name File) (name : Name)
    (file : File) : (fs.create name file).entries = fs.entries.set name (some fs.next) := rfl

@[simp] theorem create_nodes [DecidableEq Name] (fs : FileSystem Name File) (name : Name)
    (file : File) (other : Nat) : (fs.create name file).nodes other =
      if other = fs.next then .regular file else fs.nodes other := rfl

/-- A file that is opened is there already, or is created where the links lead. -/
theorem openAppend_cases [DecidableEq Name] {fs opened : FileSystem Name File} {empty file : File}
    {name : Name} {node : Nat} (h : fs.openAppend empty name = .ok (opened, node, file)) :
    (fs.lookup name = .found node ∧ fs.nodes node = .regular file ∧ opened = fs) ∨
    ∃ last, fs.lookup name = .missing last ∧ opened = fs.create last empty ∧ node = fs.next ∧
      file = empty := by
  rw [openAppend] at h
  cases hlookup : fs.lookup name with
  | loop => simp [hlookup] at h
  | missing last =>
      simp only [hlookup, Except.ok.injEq, Prod.mk.injEq] at h
      obtain ⟨rfl, rfl, rfl⟩ := h
      exact .inr ⟨last, rfl, rfl, rfl, rfl⟩
  | found other =>
      simp only [hlookup] at h
      cases hnode : fs.nodes other with
      | regular data =>
          simp only [hnode, Except.ok.injEq, Prod.mk.injEq] at h
          obtain ⟨rfl, rfl, rfl⟩ := h
          exact .inl ⟨rfl, hnode, rfl⟩
      | directory data => simp [hnode] at h
      | symlink target => simp [hnode] at h

theorem openAppend_found [DecidableEq Name] {fs : FileSystem Name File} {file : File} {name : Name}
    {node : Nat} (hlookup : fs.lookup name = .found node) (hnode : fs.nodes node = .regular file)
    (empty : File) : fs.openAppend empty name = .ok (fs, node, file) := by
  simp only [openAppend, hlookup, hnode]

/-- What `stat` finds. -/
theorem stat_eq_some {fs : FileSystem Name File} {name : Name} {file : File} :
    fs.stat name = .ok (some file) ↔
      ∃ node, fs.lookup name = .found node ∧ (fs.nodes node).data = some file := by
  rw [stat]
  cases fs.lookup name with
  | loop => simp
  | missing last => simp
  | found node => simp

theorem withEntries_self {fs : FileSystem Name File} {entries : Directory Name Nat}
    (h : entries.From fs.entries fun _ => True) (hsame : entries = fs.entries) :
    fs.withEntries entries h = fs := by
  subst hsame
  rfl

/-! ## Links -/

/-- One name is a link to the other. -/
def Link (fs : FileSystem Name File) (name target : Name) : Prop := fs.linkAt name = some target

variable {fs after : FileSystem Name File}

theorem link_iff {name target : Name} :
    fs.Link name target ↔
      ∃ node, fs.entries name = some node ∧ fs.nodes node = .symlink target := by
  rw [Link, linkAt]
  cases fs.entries name with
  | none => simp
  | some node =>
      cases hnode : fs.nodes node <;> simp [hnode]

/-- A name that is no link has data, or nothing. -/
theorem ending_cases {name : Name} (h : fs.linkAt name = none) :
    (fs.entries name = none ∧ fs.ending name = .missing name) ∨
    ∃ node file, fs.entries name = some node ∧ (fs.nodes node).data = some file ∧
      fs.ending name = .found node := by
  rw [ending]
  rw [linkAt] at h
  cases hentry : fs.entries name with
  | none => exact .inl ⟨rfl, rfl⟩
  | some node =>
      rw [hentry] at h
      cases hnode : fs.nodes node with
      | regular file => exact .inr ⟨node, file, rfl, by rw [hnode]; rfl, rfl⟩
      | directory file => exact .inr ⟨node, file, rfl, by rw [hnode]; rfl, rfl⟩
      | symlink target => simp [hnode] at h

theorem linkAt_none {name : Name} (h : fs.entries name = none) : fs.linkAt name = none := by
  rw [linkAt, h]
  rfl

theorem linkAt_data {name : Name} {node : Nat} {file : File} (h : fs.entries name = some node)
    (hdata : (fs.nodes node).data = some file) : fs.linkAt name = none := by
  rw [linkAt, h]
  cases hnode : fs.nodes node with
  | symlink target =>
      rw [hnode] at hdata
      cases hdata
  | regular _ | directory _ => simp [hnode]

/-- What holds where links end, and of a link if it holds where it leads, holds of every lookup. -/
theorem follow_induction (fs : FileSystem Name File) (property : Name → Lookup Name → Prop)
    (hmissing : ∀ name, fs.entries name = none → property name (.missing name))
    (hfound : ∀ name node file, fs.entries name = some node →
      (fs.nodes node).data = some file → property name (.found node))
    (hloop : ∀ name, property name .loop)
    (hlink : ∀ name target result, fs.Link name target → property target result →
      property name result) (links : Nat) (name : Name) : property name (fs.follow links name) := by
  have hending : ∀ name, fs.linkAt name = none → property name (fs.ending name) := by
    intro name hname
    obtain ⟨hnone, heq⟩ | ⟨node, file, hentry, hdata, heq⟩ := ending_cases hname
    · rw [heq]
      exact hmissing name hnone
    · rw [heq]
      exact hfound name node file hentry hdata
  induction links generalizing name with
  | zero =>
      rw [follow]
      split_ifs with hsome
      · exact hloop name
      · exact hending name (by simpa using hsome)
  | succ links ih =>
      rw [follow]
      cases htarget : fs.linkAt name with
      | none => exact hending name htarget
      | some target => exact hlink name target _ htarget (ih target)

/-- What a lookup finds stands under a name that the links lead to. -/
theorem lookup_found {name : Name} {node : Nat} (h : fs.lookup name = .found node) :
    ∃ last file, ReflTransGen fs.Link name last ∧ fs.entries last = some node ∧
      (fs.nodes node).data = some file := by
  have hall := fs.follow_induction
    (fun name result => ∀ node, result = .found node → ∃ last file,
      ReflTransGen fs.Link name last ∧ fs.entries last = some node ∧
        (fs.nodes node).data = some file)
    (fun _ _ _ heq => by cases heq)
    (fun name node file hentry hdata other heq => by
      cases heq
      exact ⟨name, file, .refl, hentry, hdata⟩)
    (fun _ _ heq => by cases heq)
    (fun name target result hlink htarget node heq => by
      obtain ⟨last, file, hlast, hrest⟩ := htarget node heq
      exact ⟨last, file, .head hlink hlast, hrest⟩)
  exact hall fs.maxLinks name node h

/-- Under the name where a lookup ends without having found anything there is nothing. -/
theorem lookup_missing_entry {name last : Name} (h : fs.lookup name = .missing last) :
    fs.entries last = none := by
  have hall := fs.follow_induction
    (fun _ result => ∀ last, result = .missing last → fs.entries last = none)
    (fun name hnone last heq => by
      cases heq
      exact hnone)
    (fun _ _ _ _ _ _ heq => by cases heq)
    (fun _ _ heq => by cases heq)
    (fun _ _ _ _ htarget => htarget)
  exact hall fs.maxLinks name last h

/-- A name that is no link is where its lookup ends. -/
theorem lookup_eq_ending {name : Name} (h : fs.linkAt name = none) :
    fs.lookup name = fs.ending name := by
  rw [lookup]
  cases fs.maxLinks with
  | zero => simp [follow, h]
  | succ links => simp [follow, h]

theorem lookup_missing {name : Name} (h : fs.entries name = none) :
    fs.lookup name = .missing name := by
  rw [lookup_eq_ending (linkAt_none h), ending, h]

theorem lookup_data {name : Name} {node : Nat} {file : File} (h : fs.entries name = some node)
    (hdata : (fs.nodes node).data = some file) : fs.lookup name = .found node := by
  rw [lookup_eq_ending (linkAt_data h hdata), ending, h]

/-- Other data does not change where links lead. -/
theorem lookup_update {node : Nat} {file : File} (hnode : fs.nodes node = .regular file)
    (file' : File) (name : Name) : (fs.update node file').lookup name = fs.lookup name := by
  have hlink : ∀ name, (fs.update node file').linkAt name = fs.linkAt name := by
    intro name
    rw [linkAt, linkAt]
    cases hentry : fs.entries name with
    | none => simp [update, hentry]
    | some other =>
        by_cases hother : other = node
        · subst hother
          simp [update, hentry, hnode]
        · simp [update, hentry, hother]
  have hfollow : ∀ links name, (fs.update node file').follow links name = fs.follow links name := by
    intro links
    induction links with
    | zero =>
        intro name
        rw [follow, follow, hlink]
        rfl
    | succ links ih =>
        intro name
        rw [follow, follow, hlink]
        cases fs.linkAt name with
        | none => rfl
        | some target => exact ih target
  exact hfollow _ name

/-! ## What is reached from some names -/

/-- All data that is reached from these names meets the condition. -/
def Within (fs : FileSystem Name File) (names : Name → Prop) (condition : File → Prop) : Prop :=
  ∀ name last node file, names name → ReflTransGen fs.Link name last →
    fs.entries last = some node → (fs.nodes node).data = some file → condition file

/-- The nodes are as before, under the same names or others of these. -/
structure Shuffled (fs after : FileSystem Name File) (names : Name → Prop) : Prop where
  nodes : after.nodes = fs.nodes
  entries : ∀ name node, after.entries name = some node → fs.entries name = some node ∨
    names name ∧ ∃ other, names other ∧ fs.entries other = some node

variable {names : Name → Prop} {condition : File → Prop}

/-- What a lookup finds is within the condition. -/
theorem Within.of_lookup (h : fs.Within names condition) {name : Name} {node : Nat} {file : File}
    (hname : names name) (hlookup : fs.lookup name = .found node)
    (hdata : (fs.nodes node).data = some file) : condition file := by
  obtain ⟨last, _, hlast, hentry, _⟩ := lookup_found hlookup
  exact h name last node file hname hlast hentry hdata

/-- A lookup that comes to an end has seen all that is reached from the name. -/
theorem within_of_lookup {name : Name} (hloop : fs.lookup name ≠ .loop)
    (h : ∀ node file, fs.lookup name = .found node → (fs.nodes node).data = some file →
      condition file) : fs.Within (· = name) condition := by
  have hall := fs.follow_induction
    (fun name result => result ≠ .loop →
      (∀ node file, result = .found node → (fs.nodes node).data = some file → condition file) →
      fs.Within (· = name) condition)
    (fun name hnone _ _ => by
      rintro _ last node file rfl hlast hentry _
      obtain rfl | ⟨_, hlink, _⟩ := ReflTransGen.cases_head hlast
      · rw [hnone] at hentry
        cases hentry
      · cases (linkAt_none hnone).symm.trans hlink)
    (fun name node file hentry hdata _ hcondition => by
      rintro _ last node' file' rfl hlast hentry' hdata'
      obtain rfl | ⟨_, hlink, _⟩ := ReflTransGen.cases_head hlast
      · rw [hentry] at hentry'
        cases hentry'
        exact hcondition node file' rfl hdata'
      · cases (linkAt_data hentry hdata).symm.trans hlink)
    (fun name hloop _ => absurd rfl hloop)
    (fun name target result hlink htarget hloop hcondition => by
      rintro _ last node file rfl hlast hentry hdata
      obtain rfl | ⟨other, hother, hrest⟩ := ReflTransGen.cases_head hlast
      · cases (linkAt_data hentry hdata).symm.trans hlink
      · cases hlink.symm.trans hother
        exact htarget hloop hcondition target last node file rfl hrest hentry hdata)
  exact hall fs.maxLinks name hloop h

/-- What is reached after the names were shuffled was reached before. -/
theorem Shuffled.reached (h : fs.Shuffled after names) {name last : Name} (hname : names name)
    (hlast : ReflTransGen after.Link name last) :
    ∃ first, names first ∧ ReflTransGen fs.Link first last := by
  induction hlast with
  | refl => exact ⟨name, hname, .refl⟩
  | tail _ hlink ih =>
      obtain ⟨first, hfirst, hbefore⟩ := ih
      obtain ⟨node, hentry, hnode⟩ := link_iff.mp hlink
      rw [h.nodes] at hnode
      obtain hsame | ⟨-, other, hother, hentry'⟩ := h.entries _ _ hentry
      · exact ⟨first, hfirst, hbefore.tail (link_iff.mpr ⟨node, hsame, hnode⟩)⟩
      · exact ⟨other, hother, .single (link_iff.mpr ⟨node, hentry', hnode⟩)⟩

/-- Shuffled names stay within the condition. -/
theorem Shuffled.within (h : fs.Shuffled after names) (hwithin : fs.Within names condition) :
    after.Within names condition := by
  intro name last node file hname hlast hentry hdata
  rw [h.nodes] at hdata
  obtain ⟨first, hfirst, hbefore⟩ := h.reached hname hlast
  obtain hsame | ⟨-, other, hother, hentry'⟩ := h.entries last node hentry
  · exact hwithin first last node file hfirst hbefore hsame hdata
  · exact hwithin other other node file hother .refl hentry' hdata

/-- So do they with other data that meets it. -/
theorem within_update {node : Nat} {file : File} (hwithin : fs.Within names condition)
    (hfile : condition file) : (fs.update node file).Within names condition := by
  have hlink : ∀ name target, (fs.update node file).Link name target → fs.Link name target := by
    intro name target hlink
    obtain ⟨other, hentry, hother⟩ := link_iff.mp hlink
    rw [update_nodes] at hother
    split_ifs at hother
    exact link_iff.mpr ⟨other, hentry, hother⟩
  intro name last other data hname hlast hentry hdata
  rw [update_nodes] at hdata
  split_ifs at hdata
  · cases hdata
    exact hfile
  · exact hwithin name last other data hname (ReflTransGen.mono hlink _ _ hlast) hentry hdata

/-- And with a new file that meets it. -/
theorem within_create [DecidableEq Name] {file : File} (hwithin : fs.Within names condition)
    (created : Name) (hfile : condition file) :
    (fs.create created file).Within names condition := by
  -- the new node is not one of those that had a name
  have hentries : ∀ name node, (fs.create created file).entries name = some node →
      node = fs.next ∨ fs.entries name = some node ∧ node ≠ fs.next := by
    intro name node hentry
    by_cases hcreated : name = created
    · rw [hcreated, create_entries, Directory.set_self] at hentry
      exact .inl (Option.some.inj hentry).symm
    · rw [create_entries, Directory.set_other _ _ hcreated] at hentry
      exact .inr ⟨hentry, Nat.ne_of_lt (fs.used name node hentry)⟩
  have hlink : ∀ name target, (fs.create created file).Link name target → fs.Link name target := by
    intro name target hlink
    obtain ⟨node, hentry, hnode⟩ := link_iff.mp hlink
    obtain rfl | ⟨hbefore, hne⟩ := hentries name node hentry
    · simp at hnode
    · exact link_iff.mpr ⟨node, hbefore, by simpa [hne] using hnode⟩
  intro name last node data hname hlast hentry hdata
  obtain rfl | ⟨hbefore, hne⟩ := hentries last node hentry
  · simp only [create_nodes, if_true, Node.data, Option.some.injEq] at hdata
    exact hdata ▸ hfile
  · exact hwithin name last node data hname (ReflTransGen.mono hlink _ _ hlast) hbefore
      (by simpa [hne] using hdata)

end FileSystem

end Iot.Data
