import Iot.Contracts.Errors
import Iot.Data.FileSystem
import Iot.Json.Numbers

/-!
# Trace files

`traceFileWriter` (`internal/platform/trace_file.go`) appends records to one file and rotates it
before a record would take it over `maxBytes`. Renames may fail half-way, files may be written in
part, and the next call goes on from what it finds: files, directories and links, as they stand in
the directory.

`prepare_spec` says what the first part of `Write` leaves, and `write_cases` what a call can do.
-/

namespace Iot.Tracing

open Text Json Data

/-! ## Files -/

/-- The largest size of a file, and the largest `int64`. -/
def maxFileSize : Nat := 9223372036854775807

/-- The content of a file. -/
structure File where
  bytes : Bytes
  fits : bytes.length ≤ maxFileSize

/-- A file that was just created. -/
def File.empty : File := ⟨[], Nat.zero_le _⟩

/-- `Size` of `os.FileInfo`. -/
def File.size (file : File) : Int64 := Int64.ofNat file.bytes.length

/-- The files of the system. -/
abbrev Files := FileSystem Bytes File

/-- What the system says about an operation it refuses. -/
def errorText : FileError → String
  | .loop => "too many levels of symbolic links"
  | .isDirectory => "is a directory"
  | .exists => "file exists"
  | .notDirectory => "not a directory"

/-- The text of an `os.PathError`. -/
def pathError (op : String) (path : Bytes) (err : FileError) : GoError :=
  ⟨ascii op ++ ascii " " ++ path ++ ascii ": " ++ ascii (errorText err), []⟩

/-- The text of an `os.LinkError`. -/
def linkError (source target : Bytes) (err : FileError) : GoError :=
  ⟨ascii "rename " ++ source ++ ascii " " ++ target ++ ascii ": " ++ ascii (errorText err), []⟩

/-! ## The writer -/

/-- `traceFileWriter`. -/
structure TraceFileWriter where
  path : Bytes
  maxBytes : Int64
  backups : Nat

namespace TraceFileWriter

variable (w : TraceFileWriter)

/-- The name of the trace file, and those of its backups. -/
def slot (i : Nat) : Bytes := if i = 0 then w.path else w.path ++ ascii "." ++ decimal i

/-- What the system reports when the directory is cleaned, apart from missing files and what it
refuses. -/
structure CleanFaults where
  stat : Nat → Option GoError
  remove : Nat → Option GoError

/-- The loop of `cleanOversized` over these numbers. -/
def cleanSlots (faults : CleanFaults) : List Nat → Files → Files × Option GoError
  | [], fs => (fs, none)
  | i :: rest, fs =>
      match faults.stat i, fs.stat (w.slot i) with
      | some err, _ => (fs, some err)
      | none, .error err => (fs, some (pathError "stat" (w.slot i) err))
      | none, .ok none => cleanSlots faults rest fs
      | none, .ok (some file) =>
          if w.maxBytes < file.size then
            match faults.remove i with
            | some err => (fs, some err)
            | none => cleanSlots faults rest (fs.remove (w.slot i))
          else cleanSlots faults rest fs

/-- `cleanOversized`. -/
def cleanOversized (faults : CleanFaults) (fs : Files) : Files × Option GoError :=
  w.cleanSlots faults (List.range (w.backups + 1)) fs

/-- A call of `Write`: the record, and what the system reports apart from missing files and what it
refuses. `written` is how many bytes it takes from a write. -/
structure Call where
  p : Bytes
  len : p.length ≤ maxFileSize
  stat : Option GoError
  rename : Nat → Option GoError
  openFile : Option GoError
  written : Nat
  writeFile : Option GoError

/-- How many bytes of the record go into a file of this size. -/
def Call.accepted (call : Call) (size : Nat) : Nat :=
  min call.written (min call.p.length (maxFileSize - size))

/-- What is taken of a record has room in the file. -/
theorem accepted_fits (call : Call) (file : File) :
    (file.bytes ++ call.p.take (call.accepted file.bytes.length)).length ≤ maxFileSize := by
  have := file.fits
  rw [List.length_append, Call.accepted, List.length_take]
  omega

/-- The file with what is taken of the record at its end. -/
def Call.appended (call : Call) (file : File) : File :=
  ⟨file.bytes ++ call.p.take (call.accepted file.bytes.length), accepted_fits call file⟩

/-- The error of a record that is too long. -/
def errRecordTooLarge : GoError := .new "trace record exceeds file size budget"

/-- The error of the rename to a number. -/
def renameError (call : Call) (nodes : Nat → Node Bytes File) (i : Nat)
    (dir : Directory Bytes Nat) : Option GoError :=
  match call.rename i with
  | some err => some err
  | none =>
      (FileSystem.refusal nodes dir (w.slot (i - 1)) (w.slot i)).map
        (linkError (w.slot (i - 1)) (w.slot i))

/-- The loop of `Write` that renames the files. -/
def rotateFiles (call : Call) (fs : Files) : Files × Option GoError :=
  (fs.withEntries (rotate w.slot (w.renameError call fs.nodes) w.backups fs.entries).1
      (from_rotate fun _ _ => trivial),
    (rotate w.slot (w.renameError call fs.nodes) w.backups fs.entries).2)

/-- The first part of `Write`: `Stat` and the rotation. -/
def prepare (call : Call) (fs : Files) : Files × Option GoError :=
  match fs.stat (w.slot 0) with
  | .error err => (fs, some (pathError "stat" (w.slot 0) err))
  | .ok none => (fs, none)
  | .ok (some file) =>
      if w.maxBytes < file.size + Int64.ofNat call.p.length then w.rotateFiles call fs
      else (fs, none)

/-- `Write`: the files, and the error of a call that fails before it writes, or else the result
of the write. -/
def write (call : Call) (fs : Files) : Files × Except GoError (Nat × Option GoError) :=
  if w.maxBytes < Int64.ofNat call.p.length then (fs, .error errRecordTooLarge)
  else
    match call.stat with
    | some err => (fs, .error err)
    | none =>
        match w.prepare call fs with
        | (rotated, some err) => (rotated, .error err)
        | (rotated, none) =>
            match call.openFile, rotated.openAppend .empty (w.slot 0) with
            | some err, _ => (rotated, .error err)
            | none, .error err => (rotated, .error (pathError "open" (w.slot 0) err))
            | none, .ok (opened, node, file) =>
                (opened.update node (call.appended file),
                  .ok (call.accepted file.bytes.length, call.writeFile))

/-! ## Runs -/

/-- The files, and the bytes written so far. -/
structure State where
  files : Files
  written : Bytes

/-- One call. -/
def step (state : State) (call : Call) : State :=
  let (files, result) := w.write call state.files
  match result with
  | .error _ => ⟨files, state.written⟩
  | .ok (n, _) => ⟨files, state.written ++ call.p.take n⟩

/-- The names of the trace files. -/
def IsSlot (name : Bytes) : Prop := ∃ i ≤ w.backups, name = w.slot i

/-- All trace files are one file: its names are hard links. -/
def Shared (fs : Files) : Prop := ∃ node, ∀ i ≤ w.backups, fs.entries (w.slot i) = some node

/-- The content of a node. -/
def bytesOf (fs : Files) (node : Nat) : Bytes :=
  match fs.nodes node with
  | .regular file => file.bytes
  | _ => []

/-- The files from the oldest to the newest. -/
def contents (fs : Files) : Bytes := older (held w.slot (bytesOf fs) fs.entries) w.backups

variable {w : TraceFileWriter}

/-! ## Names and sizes -/

/-- The names are different. -/
theorem slot_injective (i j : Nat) (h : w.slot i = w.slot j) : i = j := by
  have hlonger : ∀ k : Nat, w.path ≠ w.path ++ ascii "." ++ decimal k := fun k heq => by
    have hlength := congrArg List.length heq
    simp only [List.length_append, show (ascii ".").length = 1 from rfl] at hlength
    omega
  rw [slot, slot] at h
  split_ifs at h with hi hj hj
  · rw [hi, hj]
  · exact absurd h (hlonger j)
  · exact absurd h.symm (hlonger i)
  · exact Int.ofNat_inj.mp (decimal_injective (List.append_cancel_left h))

theorem isSlot_slot {i : Nat} (hi : i ≤ w.backups) : w.IsSlot (w.slot i) := ⟨i, hi, rfl⟩

theorem isSlot_newest : w.IsSlot (w.slot 0) := isSlot_slot (Nat.zero_le _)

theorem toInt_ofNat {n : Nat} (h : n ≤ maxFileSize) : (Int64.ofNat n).toInt = n :=
  Int64.toInt_ofNat_of_lt (Nat.lt_succ_of_le h)

/-- The comparison of a size or a length with the budget. -/
theorem maxBytes_lt {n : Nat} (h : n ≤ maxFileSize) :
    w.maxBytes < Int64.ofNat n ↔ w.maxBytes.toInt < n := by
  rw [Int64.lt_iff_toInt_lt, toInt_ofNat h]

/-- The comparison of the sum: past the largest `int64` it is negative, and the budget is not. -/
theorem maxBytes_lt_add (hmax : 0 < w.maxBytes) {n m : Nat} (hn : n ≤ maxFileSize)
    (hm : m ≤ maxFileSize) :
    w.maxBytes < Int64.ofNat n + Int64.ofNat m ↔
      n + m ≤ maxFileSize ∧ w.maxBytes.toInt < n + m := by
  have hpositive : 0 < w.maxBytes.toInt := Int64.lt_iff_toInt_lt.mp hmax
  rw [Int64.lt_iff_toInt_lt, Int64.toInt_add, toInt_ofNat hn, toInt_ofNat hm, Int.bmod_def,
    show ((2 ^ 64 : Nat) : Int) = 18446744073709551616 from rfl]
  simp only [maxFileSize] at hn hm ⊢
  omega

theorem accepted_le (call : Call) (size : Nat) : call.accepted size ≤ call.p.length := by
  rw [Call.accepted]
  omega

@[simp] theorem length_appended (call : Call) (file : File) :
    (call.appended file).bytes.length =
      file.bytes.length + call.accepted file.bytes.length := by
  have := accepted_le call file.bytes.length
  rw [Call.appended, List.length_append, List.length_take]
  omega

/-! ## What a call can do -/

/-- Files were renamed. -/
structure Moved (w : TraceFileWriter) (fs after : Files) : Prop where
  shuffled : fs.Shuffled after w.IsSlot
  other : ∀ name, ¬ w.IsSlot name → after.entries name = fs.entries name
  full : (∀ i ≤ w.backups, after.entries (w.slot i) ≠ none) → after = fs
  distinct : fs.entries.Distinct w.IsSlot → after.entries.Distinct w.IsSlot
  ordered : fs.entries.Distinct w.IsSlot → w.contents after <:+ w.contents fs

theorem Moved.refl (fs : Files) : w.Moved fs fs :=
  ⟨⟨rfl, fun _ _ h => .inl h⟩, fun _ _ => rfl, fun _ => rfl, id, fun _ => List.suffix_rfl⟩

/-- Renames that leave the names as they were leave everything. -/
theorem rotateFiles_self {call : Call} {fs : Files}
    (h : (rotate w.slot (w.renameError call fs.nodes) w.backups fs.entries).1 = fs.entries) :
    (w.rotateFiles call fs).1 = fs :=
  FileSystem.withEntries_self (from_rotate fun _ _ => trivial) h

theorem moved_rotateFiles (call : Call) (fs : Files) : w.Moved fs (w.rotateFiles call fs).1 where
  shuffled := by
    refine ⟨rfl, fun name node hnode => ?_⟩
    by_cases hname : w.IsSlot name
    · refine .inr ⟨hname, ?_⟩
      exact from_rotate (fun i hi => isSlot_slot hi) name node hname hnode
    · refine .inl ?_
      rw [← hnode]
      exact (rotate_other fun i hi heq => hname ⟨i, hi, heq⟩).symm
  other _ hname := rotate_other fun i hi heq => hname ⟨i, hi, heq⟩
  full h := rotateFiles_self (rotate_full h)
  distinct := distinct_rotate fun i hi => isSlot_slot hi
  ordered h := (older_rotate (bytesOf fs) slot_injective w.backups (fun i hi => isSlot_slot hi) h).1

/-- A rename to another name of the file is not refused. -/
theorem renameError_shared {call : Call} {fs : Files} {node i : Nat}
    (hshared : ∀ i ≤ w.backups, fs.entries (w.slot i) = some node) (hi : i < w.backups) :
    w.renameError call fs.nodes (i + 1) fs.entries = call.rename (i + 1) := by
  rw [renameError, FileSystem.refusal, Nat.add_sub_cancel, hshared i (Nat.le_of_lt hi),
    hshared (i + 1) hi]
  cases call.rename (i + 1) <;> simp

/-- What the loop of the renames leaves if it comes to its end: no trace file, or everything as it
was, if all trace files are one file. -/
theorem rotateFiles_newest {call : Call} {fs : Files} (h : (w.rotateFiles call fs).2 = none) :
    (w.rotateFiles call fs).1.entries (w.slot 0) = none ∨
      (w.rotateFiles call fs).1 = fs ∧ w.Shared fs ∧
        ∀ i < w.backups, call.rename (i + 1) = none := by
  obtain hnone | ⟨hsame, ⟨node, hnode⟩, hfaults⟩ :=
    rotate_newest (Prod.ext rfl h : rotate w.slot (w.renameError call fs.nodes) w.backups
      fs.entries = ((w.rotateFiles call fs).1.entries, none))
  · exact .inl hnone
  · refine .inr ⟨rotateFiles_self hsame, ⟨node, hnode⟩, fun i hi => ?_⟩
    rw [← renameError_shared hnode hi]
    exact hfaults i hi

/-- If all trace files are one file, renames that do not fail leave everything as it was. -/
theorem rotateFiles_shared {call : Call} {fs : Files} (hshared : w.Shared fs)
    (hrename : ∀ i < w.backups, call.rename (i + 1) = none) :
    w.rotateFiles call fs = (fs, none) := by
  obtain ⟨node, hnode⟩ := hshared
  have hrotate := rotate_shared hnode fun i hi =>
    (renameError_shared hnode hi).trans (hrename i hi)
  exact Prod.ext (rotateFiles_self (congrArg Prod.fst hrotate))
    (show (rotate w.slot (w.renameError call fs.nodes) w.backups fs.entries).2 = none by
      rw [hrotate])

/-- What the first part of `Write` can do. Without an error it leaves no trace file; or all as it
was, where there is none, or the record has room in it, or all trace files are one file. -/
theorem prepare_spec (call : Call) (fs : Files) :
    w.Moved fs (w.prepare call fs).1 ∧
      ((w.prepare call fs).2 = none → (w.prepare call fs).1.entries (w.slot 0) = none ∨
        (w.prepare call fs).1 = fs ∧ ∀ file, fs.stat (w.slot 0) = .ok (some file) →
          ¬ w.maxBytes < file.size + Int64.ofNat call.p.length ∨
          w.Shared fs ∧ ∀ i < w.backups, call.rename (i + 1) = none) := by
  rw [prepare]
  cases hstat : fs.stat (w.slot 0) with
  | error err => exact ⟨.refl fs, fun h => by cases h⟩
  | ok found =>
      cases found with
      | none => exact ⟨.refl fs, fun _ => .inr ⟨rfl, fun file h => by cases h⟩⟩
      | some file =>
          by_cases hfull : w.maxBytes < file.size + Int64.ofNat call.p.length
          · simp only [hfull, if_true]
            refine ⟨moved_rotateFiles call fs, fun hnone => ?_⟩
            obtain hgone | ⟨hsame, hshared, hrename⟩ := rotateFiles_newest hnone
            · exact .inl hgone
            · exact .inr ⟨hsame, fun _ _ => .inr ⟨hshared, hrename⟩⟩
          · simp only [hfull, if_false]
            refine ⟨.refl fs, fun _ => .inr ⟨trivial, fun other hother => .inl ?_⟩⟩
            cases hother
            exact hfull

/-- What a call can do: it fails after files were renamed, or appends to what the first part
left. -/
theorem write_cases (w : TraceFileWriter) (call : Call) (fs : Files) :
    (∃ err, w.write call fs = (fs, .error err)) ∨
    (∃ err, w.write call fs = ((w.prepare call fs).1, .error err)) ∨
    (¬ w.maxBytes < Int64.ofNat call.p.length ∧ call.stat = none ∧
      (w.prepare call fs).2 = none ∧ call.openFile = none ∧
      ∃ opened node file,
        (w.prepare call fs).1.openAppend .empty (w.slot 0) = .ok (opened, node, file) ∧
        w.write call fs = (opened.update node (call.appended file),
          .ok (call.accepted file.bytes.length, call.writeFile))) := by
  rw [write]
  by_cases hlong : w.maxBytes < Int64.ofNat call.p.length
  · exact .inl ⟨_, by rw [if_pos hlong]⟩
  rw [if_neg hlong]
  cases hstat : call.stat with
  | some err => exact .inl ⟨err, rfl⟩
  | none =>
      cases hprepare : w.prepare call fs with
      | mk rotated fault =>
          cases fault with
          | some err => exact .inr (.inl ⟨err, rfl⟩)
          | none =>
              cases hopenFile : call.openFile with
              | some err => exact .inr (.inl ⟨err, rfl⟩)
              | none =>
                  cases hopen : rotated.openAppend .empty (w.slot 0) with
                  | error err =>
                      exact .inr (.inl ⟨pathError "open" (w.slot 0) err, by simp only [hopen]⟩)
                  | ok result =>
                      obtain ⟨opened, node, file⟩ := result
                      exact .inr (.inr ⟨hlong, rfl, rfl, rfl, opened, node, file, rfl,
                        by simp only [hopen]⟩)

/-- A call that fails before it writes has only renamed files. -/
theorem moved_of_error {call : Call} {fs after : Files} {err : GoError}
    (h : w.write call fs = (after, .error err)) : w.Moved fs after := by
  obtain ⟨err', hwrite⟩ | ⟨err', hwrite⟩ | ⟨-, -, -, -, _, _, _, -, hwrite⟩ := w.write_cases call fs
  · rw [hwrite, Prod.mk.injEq] at h
    exact h.1 ▸ .refl fs
  · rw [hwrite, Prod.mk.injEq] at h
    exact h.1 ▸ (prepare_spec call fs).1
  · rw [hwrite] at h
    cases h

/-- What a run does in one step: files are renamed, and a record may be appended then. -/
theorem step_cases (w : TraceFileWriter) (state : State) (call : Call) :
    ∃ moved, w.Moved state.files moved ∧
      ((w.step state call = ⟨moved, state.written⟩) ∨
        ∃ opened node file, moved.openAppend .empty (w.slot 0) = .ok (opened, node, file) ∧
          w.step state call = ⟨opened.update node (call.appended file),
            state.written ++ call.p.take (call.accepted file.bytes.length)⟩) := by
  obtain ⟨err, hwrite⟩ | ⟨err, hwrite⟩ | ⟨-, -, -, -, opened, node, file, hopen, hwrite⟩ :=
    w.write_cases call state.files
  · exact ⟨state.files, .refl _, .inl (by rw [step, hwrite])⟩
  · exact ⟨_, (prepare_spec call state.files).1, .inl (by rw [step, hwrite])⟩
  · exact ⟨_, (prepare_spec call state.files).1,
      .inr ⟨opened, node, file, hopen, by rw [step, hwrite]⟩⟩

end TraceFileWriter

end Iot.Tracing
