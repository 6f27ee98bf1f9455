import Iot.Execution.Run
import Iot.Tracing.TraceFile

/-!
# The budget of the trace files

The trace files are read in order after every run from a directory without them
(`contents_suffix`). They keep their budget exactly as long as no call `Exceeds` it: the rotation
does nothing if all trace files are hard links of one file, and is left out if the size of the file
and the length of the record are past 64 bits together, since `Write` compares their sum. No other
file is created exactly as long as no call `Escapes` through a link that leads nowhere.
-/

namespace Iot.Tracing.TraceFileWriter

open Text Json Data Execution

variable (w : TraceFileWriter)

/-- The file has at most `maxBytes` bytes. -/
def Fits (file : File) : Prop := (file.bytes.length : Int) ≤ w.maxBytes.toInt

/-- No trace file is over the budget. -/
def Bounded (fs : Files) : Prop :=
  ∀ i ≤ w.backups, ∀ file, fs.stat (w.slot i) = .ok (some file) → w.Fits file

/-- The call appends to the trace file it finds, and the system takes more of the record than the
budget has room for: the size of the file and the length of the record do not fit into an `int64`
together, or all trace files are one file and the renames do not fail. -/
def Exceeds (fs : Files) (call : Call) : Prop :=
  (call.p.length : Int) ≤ w.maxBytes.toInt ∧ call.stat = none ∧ call.openFile = none ∧
    ∃ node file, fs.lookup (w.slot 0) = .found node ∧ fs.nodes node = .regular file ∧
      (maxFileSize < file.bytes.length + call.p.length ∨
        w.Shared fs ∧ ∀ i < w.backups, call.rename (i + 1) = none) ∧
      w.maxBytes.toInt < file.bytes.length + call.accepted file.bytes.length

/-- The call opens a trace file that is a link, and the links lead to a name that is not one of a
trace file and under which there is nothing. -/
def Escapes (fs : Files) (call : Call) : Prop :=
  (call.p.length : Int) ≤ w.maxBytes.toInt ∧ call.stat = none ∧
    (w.prepare call fs).2 = none ∧ call.openFile = none ∧
    ∃ name, (w.prepare call fs).1.lookup (w.slot 0) = .missing name ∧ ¬ w.IsSlot name

/-- No other name was given to a file or taken away. -/
def OthersKept (start fs : Files) : Prop :=
  ∀ name, ¬ w.IsSlot name → fs.entries name = start.entries name

/-- No trace file is a symbolic link. -/
def Unlinked (fs : Files) : Prop :=
  ∀ name node target, w.IsSlot name → fs.entries name = some node →
    fs.nodes node ≠ .symlink target

/-- All trace files are hard links of one file. -/
def HardLinked (fs : Files) : Prop :=
  ∃ node file, fs.nodes node = .regular file ∧ ∀ i ≤ w.backups, fs.entries (w.slot i) = some node

variable {w : TraceFileWriter}

/-! ## The budget -/

/-- What is reached from the trace files keeps the budget, and so do they. -/
theorem bounded_of_within {fs : Files} (h : fs.Within w.IsSlot w.Fits) : w.Bounded fs := by
  intro i hi file hstat
  obtain ⟨node, hlookup, hdata⟩ := FileSystem.stat_eq_some.mp hstat
  exact h.of_lookup (isSlot_slot hi) hlookup hdata

/-- A call that finds a trace file and rotates nothing appends to it. -/
theorem step_files_append (hmax : 0 < w.maxBytes) {state : State} {call : Call} {node : Nat}
    {file : File} (hlen : (call.p.length : Int) ≤ w.maxBytes.toInt) (hstat : call.stat = none)
    (hopen : call.openFile = none) (hlookup : state.files.lookup (w.slot 0) = .found node)
    (hnode : state.files.nodes node = .regular file)
    (hcause : w.maxBytes.toInt < file.bytes.length + call.p.length →
      maxFileSize < file.bytes.length + call.p.length ∨
        w.Shared state.files ∧ ∀ i < w.backups, call.rename (i + 1) = none) :
    (w.step state call).files = state.files.update node (call.appended file) := by
  have hfile : state.files.stat (w.slot 0) = .ok (some file) :=
    FileSystem.stat_eq_some.mpr ⟨node, hlookup, by rw [hnode]; rfl⟩
  have hprepare : w.prepare call state.files = (state.files, none) := by
    rw [prepare, hfile]
    simp only
    split_ifs with hfull
    · rw [File.size, maxBytes_lt_add hmax file.fits call.len] at hfull
      obtain hover | ⟨hshared, hrename⟩ := hcause hfull.2
      · exact absurd hover (Nat.not_lt_of_le hfull.1)
      · exact rotateFiles_shared hshared hrename
    · rfl
  rw [step, write, if_neg (by rw [maxBytes_lt call.len]; omega), hstat]
  simp only [hprepare, hopen, FileSystem.openAppend_found hlookup hnode]

/-- A call that does not exceed the budget keeps it. -/
theorem within_step (hmax : 0 < w.maxBytes) {state : State} {call : Call}
    (h : state.files.Within w.IsSlot w.Fits) (hexceeds : ¬ w.Exceeds state.files call) :
    (w.step state call).files.Within w.IsSlot w.Fits := by
  obtain ⟨hmoved, hnewest⟩ := prepare_spec (w := w) call state.files
  have hkept := hmoved.shuffled.within h
  obtain ⟨err, hwrite⟩ | ⟨err, hwrite⟩ | ⟨hlen, hstat, hprepare, hopenFile, opened, node, file,
    hopen, hwrite⟩ := w.write_cases call state.files
  · rw [step, hwrite]
    exact h
  · rw [step, hwrite]
    exact hkept
  rw [step, hwrite]
  rw [maxBytes_lt call.len] at hlen
  have haccepted := accepted_le call file.bytes.length
  obtain ⟨hlookup, hnode, rfl⟩ | ⟨last, hlookup, rfl, rfl, rfl⟩ := FileSystem.openAppend_cases hopen
  · refine FileSystem.within_update hkept ?_
    obtain hnone | ⟨hsame, hroom⟩ := hnewest hprepare
    · rw [FileSystem.lookup_missing hnone] at hlookup
      cases hlookup
    rw [hsame] at hlookup hnode
    have hfile : state.files.stat (w.slot 0) = .ok (some file) :=
      FileSystem.stat_eq_some.mpr ⟨node, hlookup, by rw [hnode]; rfl⟩
    by_contra hover
    rw [Fits, length_appended] at hover
    refine hexceeds ⟨by omega, hstat, hopenFile, node, file, hlookup, hnode, ?_, by omega⟩
    obtain hfits | hshared := hroom file hfile
    · rw [File.size, maxBytes_lt_add hmax file.fits call.len] at hfits
      left
      omega
    · exact .inr hshared
  · -- a new file has room for the whole record
    have hpositive : 0 < w.maxBytes.toInt := Int64.lt_iff_toInt_lt.mp hmax
    have hempty : File.empty.bytes.length = 0 := rfl
    refine FileSystem.within_update (FileSystem.within_create hkept last ?_) ?_
    · rw [Fits]
      omega
    · rw [Fits, length_appended]
      omega

/-- A call that exceeds the budget leaves a trace file that is over it. -/
theorem Exceeds.not_bounded (hmax : 0 < w.maxBytes) {state : State} {call : Call}
    (h : w.Exceeds state.files call) : ¬ w.Bounded (w.step state call).files := by
  obtain ⟨hlen, hstat, hopen, node, file, hlookup, hnode, hcause, hover⟩ := h
  rw [step_files_append hmax hlen hstat hopen hlookup hnode fun _ => hcause]
  intro hbounded
  have hfits : w.Fits (call.appended file) := by
    refine hbounded 0 (Nat.zero_le _) _ (FileSystem.stat_eq_some.mpr ⟨node, ?_, ?_⟩)
    · rw [FileSystem.lookup_update hnode, hlookup]
    · rw [FileSystem.update_nodes, if_pos rfl]
      rfl
  rw [Fits, length_appended] at hfits
  omega

/-- The budget is kept over a run exactly if no call exceeds it. -/
theorem bounded_iff (hmax : 0 < w.maxBytes) {start : Files} (h : start.Within w.IsSlot w.Fits)
    (calls : List Call) :
    (∀ k, w.Bounded (run w.step ⟨start, []⟩ (calls.take k)).files) ↔
      Along w.step (fun state call => ¬ w.Exceeds state.files call) ⟨start, []⟩ calls :=
  forall_take_iff_along (fun (state : State) call => ¬ w.Exceeds state.files call)
    (fun state => state.files.Within w.IsSlot w.Fits) (fun state => w.Bounded state.files)
    (fun _ hkept => bounded_of_within hkept)
    (fun _ _ hkept hexceeds => within_step hmax hkept hexceeds)
    (fun _ _ _ hbounded hexceeds => hexceeds.not_bounded hmax hbounded) h calls

/-! ## Other files -/

/-- A call that does not escape leaves other names as they are. -/
theorem othersKept_step {start : Files} {state : State} {call : Call}
    (h : w.OthersKept start state.files) (hescapes : ¬ w.Escapes state.files call) :
    w.OthersKept start (w.step state call).files := by
  intro name hname
  have hmoved := (prepare_spec (w := w) call state.files).1.other name hname
  obtain ⟨err, hwrite⟩ | ⟨err, hwrite⟩ | ⟨hlen, hstat, hprepare, hopenFile, opened, node, file,
    hopen, hwrite⟩ := w.write_cases call state.files
  · rw [step, hwrite]
    exact h name hname
  · rw [step, hwrite]
    exact hmoved.trans (h name hname)
  · rw [step, hwrite, FileSystem.update_entries]
    obtain ⟨-, -, rfl⟩ | ⟨last, hlookup, rfl, -, -⟩ := FileSystem.openAppend_cases hopen
    · exact hmoved.trans (h name hname)
    · have hlast : name ≠ last := by
        rintro rfl
        rw [maxBytes_lt call.len] at hlen
        exact hescapes ⟨by omega, hstat, hprepare, hopenFile, name, hlookup, hname⟩
      rw [FileSystem.create_entries, Directory.set_other _ _ hlast]
      exact hmoved.trans (h name hname)

/-- A call that escapes creates another file. -/
theorem Escapes.not_othersKept {start : Files} {state : State} {call : Call}
    (h : w.Escapes state.files call) (hstart : w.OthersKept start state.files) :
    ¬ w.OthersKept start (w.step state call).files := by
  obtain ⟨hlen, hstat, hprepare, hopenFile, name, hlookup, hname⟩ := h
  intro hkept
  have hnone : start.entries name = none := by
    rw [← hstart name hname, ← (prepare_spec (w := w) call state.files).1.other name hname]
    exact FileSystem.lookup_missing_entry hlookup
  have hafter : (w.step state call).files.entries name =
      some (w.prepare call state.files).1.next := by
    obtain ⟨rotated, hrotated⟩ : ∃ rotated, w.prepare call state.files = (rotated, none) :=
      ⟨_, Prod.ext rfl hprepare⟩
    rw [hrotated] at hlookup ⊢
    have hopen : rotated.openAppend .empty (w.slot 0) =
        .ok (rotated.create name .empty, rotated.next, .empty) := by
      simp only [FileSystem.openAppend, hlookup]
    rw [step, write, if_neg (by rw [maxBytes_lt call.len]; omega), hstat]
    simp only [hrotated, hopenFile, hopen, FileSystem.update_entries, FileSystem.create_entries,
      Directory.set_self]
  rw [hkept name hname, hnone] at hafter
  cases hafter

/-- Other names stay over a run exactly if no call escapes. -/
theorem othersKept_iff (start : Files) (calls : List Call) :
    (∀ k, w.OthersKept start (run w.step ⟨start, []⟩ (calls.take k)).files) ↔
      Along w.step (fun state call => ¬ w.Escapes state.files call) ⟨start, []⟩ calls :=
  forall_take_iff_along (fun (state : State) call => ¬ w.Escapes state.files call)
    (fun state => w.OthersKept start state.files) (fun state => w.OthersKept start state.files)
    (fun _ => id) (fun _ _ hkept hescapes => othersKept_step hkept hescapes)
    (fun _ _ hbefore hafter hescapes => hescapes.not_othersKept hbefore hafter)
    (fun _ _ => rfl) calls

/-! ## Directories without links -/

/-- A trace file that is no link is looked up under its own name. -/
theorem Unlinked.lookup_newest {fs : Files} (h : w.Unlinked fs) :
    (fs.entries (w.slot 0) = none ∧ fs.lookup (w.slot 0) = .missing (w.slot 0)) ∨
      ∃ node, fs.entries (w.slot 0) = some node ∧ fs.lookup (w.slot 0) = .found node := by
  cases hentry : fs.entries (w.slot 0) with
  | none => exact .inl ⟨rfl, FileSystem.lookup_missing hentry⟩
  | some node =>
      refine .inr ⟨node, rfl, ?_⟩
      cases hnode : fs.nodes node with
      | regular file => exact FileSystem.lookup_data hentry (by rw [hnode]; rfl)
      | directory file => exact FileSystem.lookup_data hentry (by rw [hnode]; rfl)
      | symlink target => exact absurd hnode (h _ node target isSlot_newest hentry)

theorem Moved.unlinked {fs after : Files} (h : w.Moved fs after) (hunlinked : w.Unlinked fs) :
    w.Unlinked after := by
  intro name node target hname hentry
  rw [h.shuffled.nodes]
  obtain hsame | ⟨-, other, hother, hbefore⟩ := h.shuffled.entries name node hentry
  · exact hunlinked name node target hname hsame
  · exact hunlinked other node target hother hbefore

/-- The writer makes no links. -/
theorem unlinked_step {state : State} (call : Call) (h : w.Unlinked state.files) :
    w.Unlinked (w.step state call).files := by
  obtain ⟨moved, hmoved, hstep | ⟨opened, node, file, hopen, hstep⟩⟩ := w.step_cases state call
  · rw [hstep]
    exact hmoved.unlinked h
  · rw [hstep]
    intro name other target hname hentry hother
    rw [FileSystem.update_nodes] at hother
    split_ifs at hother
    obtain ⟨-, -, rfl⟩ | ⟨last, -, rfl, -, -⟩ := FileSystem.openAppend_cases hopen
    · exact hmoved.unlinked h name other target hname hentry hother
    · rw [FileSystem.create_nodes] at hother
      split_ifs at hother with hnew
      rw [FileSystem.update_entries, FileSystem.create_entries] at hentry
      by_cases hlast : name = last
      · rw [hlast, Directory.set_self] at hentry
        exact hnew (Option.some.inj hentry).symm
      · rw [Directory.set_other _ _ hlast] at hentry
        exact hmoved.unlinked h name other target hname hentry hother

/-- Trace files that are one file after a call were one before. -/
theorem hardLinked_of_step (hbackups : 1 ≤ w.backups) {state : State} {call : Call}
    (hunlinked : w.Unlinked state.files) (h : w.HardLinked (w.step state call).files) :
    w.HardLinked state.files := by
  obtain ⟨moved, hmoved, hstep | ⟨opened, node, file, hopen, hstep⟩⟩ := w.step_cases state call
  · rw [hstep] at h
    obtain ⟨other, data, hnode, hshared⟩ := h
    obtain rfl := hmoved.full fun i hi => by rw [hshared i hi]; simp
    exact ⟨other, data, hnode, hshared⟩
  · rw [hstep] at h
    obtain ⟨other, data, hnode, hshared⟩ := h
    rw [FileSystem.update_entries] at hshared
    obtain ⟨hlookup, hregular, rfl⟩ | ⟨last, hlookup, rfl, rfl, rfl⟩ :=
      FileSystem.openAppend_cases hopen
    · obtain rfl := hmoved.full fun i hi => by rw [hshared i hi]; simp
      by_cases hother : other = node
      · exact ⟨node, file, hregular, hother ▸ hshared⟩
      · rw [FileSystem.update_nodes, if_neg hother] at hnode
        exact ⟨other, data, hnode, hshared⟩
    · -- the new file is under the name of the newest alone
      obtain ⟨-, hmissing⟩ | ⟨found, -, hfound⟩ := (hmoved.unlinked hunlinked).lookup_newest
      · cases hmissing.symm.trans hlookup
        have hnewest := hshared 0 (Nat.zero_le _)
        have hbackup := hshared 1 hbackups
        have hne : w.slot 1 ≠ w.slot 0 := fun heq => by cases slot_injective _ _ heq
        rw [FileSystem.create_entries, Directory.set_self] at hnewest
        rw [FileSystem.create_entries, Directory.set_other _ _ hne] at hbackup
        cases hnewest
        exact absurd (moved.used _ _ hbackup) (Nat.lt_irrefl _)
      · cases hfound.symm.trans hlookup

/-- Without links no call escapes. -/
theorem Unlinked.not_escapes {fs : Files} (h : w.Unlinked fs) (call : Call) :
    ¬ w.Escapes fs call := by
  rintro ⟨-, -, -, -, name, hlookup, hname⟩
  obtain ⟨-, hmissing⟩ | ⟨node, -, hfound⟩ :=
    ((prepare_spec (w := w) call fs).1.unlinked h).lookup_newest
  · cases hmissing.symm.trans hlookup
    exact hname isSlot_newest
  · cases hfound.symm.trans hlookup

/-- Without links a small budget is exceeded only if all trace files are one file. -/
theorem Unlinked.not_exceeds {fs : Files} (h : w.Unlinked fs)
    (hsmall : w.maxBytes.toInt < 4611686018427387904) (hkept : fs.Within w.IsSlot w.Fits)
    (hlinked : ¬ w.HardLinked fs) (call : Call) : ¬ w.Exceeds fs call := by
  rintro ⟨hlen, -, -, node, file, hlookup, hnode, hsum | ⟨⟨other, hshared⟩, -⟩, -⟩
  · have hfits : w.Fits file :=
      hkept.of_lookup isSlot_newest hlookup (by rw [hnode]; rfl)
    rw [Fits] at hfits
    rw [maxFileSize] at hsum
    omega
  · obtain ⟨hnone, -⟩ | ⟨found, hentry, hfound⟩ := h.lookup_newest
    · rw [hshared 0 (Nat.zero_le _)] at hnone
      cases hnone
    · cases hfound.symm.trans hlookup
      cases (hshared 0 (Nat.zero_le _)).symm.trans hentry
      exact hlinked ⟨_, file, hnode, hshared⟩

/-- A record that fills a trace file is one that a file can hold. -/
theorem length_filling (w : TraceFileWriter) :
    (List.replicate w.maxBytes.toInt.toNat (0x00 : UInt8)).length ≤ maxFileSize := by
  have := w.maxBytes.toInt_lt
  rw [List.length_replicate, maxFileSize]
  omega

/-- Such a record, with a system that reports no error. -/
def fillingCall (w : TraceFileWriter) : Call where
  p := List.replicate w.maxBytes.toInt.toNat 0x00
  len := length_filling w
  stat := none
  rename _ := none
  openFile := none
  written := w.maxBytes.toInt.toNat
  writeFile := none

/-- It exceeds the budget if all trace files are one file that is not empty. -/
theorem exceeds_filling (hmax : 0 < w.maxBytes)
    (hsmall : w.maxBytes.toInt < 4611686018427387904) {fs : Files} {node : Nat} {file : File}
    (hnode : fs.nodes node = .regular file)
    (hshared : ∀ i ≤ w.backups, fs.entries (w.slot i) = some node)
    (hlength : 0 < file.bytes.length) : w.Exceeds fs w.fillingCall := by
  have hpositive : 0 < w.maxBytes.toInt := Int64.lt_iff_toInt_lt.mp hmax
  have hrecord : w.fillingCall.p.length = w.maxBytes.toInt.toNat := List.length_replicate
  refine ⟨by omega, rfl, rfl, node, file, ?_, hnode, .inr ⟨⟨node, hshared⟩, fun _ _ => rfl⟩, ?_⟩
  · exact FileSystem.lookup_data (hshared 0 (Nat.zero_le _)) (by rw [hnode]; rfl)
  · rw [Call.accepted, hrecord, maxFileSize,
      show w.fillingCall.written = w.maxBytes.toInt.toNat from rfl]
    have := file.fits
    rw [maxFileSize] at this
    omega

/-- If all trace files are one file, there are calls that exceed the budget. -/
theorem HardLinked.exceeded (hmax : 0 < w.maxBytes)
    (hsmall : w.maxBytes.toInt < 4611686018427387904) {start : Files} (h : w.HardLinked start) :
    ∃ calls, ¬ w.Bounded (run w.step ⟨start, []⟩ calls).files := by
  obtain ⟨node, file, hnode, hshared⟩ := h
  have hpositive : 0 < w.maxBytes.toInt := Int64.lt_iff_toInt_lt.mp hmax
  have hrecord : w.fillingCall.p.length = w.maxBytes.toInt.toNat := List.length_replicate
  by_cases hlength : 0 < file.bytes.length
  · exact ⟨[w.fillingCall],
      (exceeds_filling hmax hsmall hnode hshared hlength).not_bounded hmax⟩
  · -- an empty file is filled first
    have hfilled : (w.step ⟨start, []⟩ w.fillingCall).files =
        start.update node (w.fillingCall.appended file) := by
      refine step_files_append hmax (by omega) rfl rfl ?_ hnode fun hover => ?_
      · exact FileSystem.lookup_data (hshared 0 (Nat.zero_le _)) (by rw [hnode]; rfl)
      · omega
    have hnode' : (w.step ⟨start, []⟩ w.fillingCall).files.nodes node =
        .regular (w.fillingCall.appended file) := by
      rw [hfilled, FileSystem.update_nodes, if_pos rfl]
    have hshared' : ∀ i ≤ w.backups,
        (w.step ⟨start, []⟩ w.fillingCall).files.entries (w.slot i) = some node := by
      rw [hfilled]
      exact hshared
    have hlength' : 0 < (w.fillingCall.appended file).bytes.length := by
      rw [length_appended, Call.accepted, hrecord, maxFileSize,
        show w.fillingCall.written = w.maxBytes.toInt.toNat from rfl]
      omega
    exact ⟨[w.fillingCall, w.fillingCall],
      (exceeds_filling hmax hsmall hnode' hshared' hlength').not_bounded hmax⟩

/-- For a small budget and a directory without symbolic links, everything is kept over every run
exactly if the trace files are not all one file. -/
theorem kept_iff (hmax : 0 < w.maxBytes) (hbackups : 1 ≤ w.backups)
    (hsmall : w.maxBytes.toInt < 4611686018427387904) {start : Files}
    (hstart : start.Within w.IsSlot w.Fits) (hunlinked : w.Unlinked start) :
    (∀ calls, w.Bounded (run w.step ⟨start, []⟩ calls).files ∧
      w.OthersKept start (run w.step ⟨start, []⟩ calls).files) ↔ ¬ w.HardLinked start := by
  constructor
  · intro h hlinked
    obtain ⟨calls, hcalls⟩ := hlinked.exceeded hmax hsmall
    exact hcalls (h calls).1
  · intro hlinked calls
    have hkept : (run w.step ⟨start, []⟩ calls).files.Within w.IsSlot w.Fits ∧
        w.Unlinked (run w.step ⟨start, []⟩ calls).files ∧
        ¬ w.HardLinked (run w.step ⟨start, []⟩ calls).files ∧
        w.OthersKept start (run w.step ⟨start, []⟩ calls).files := by
      refine run_invariant (fun state : State => state.files.Within w.IsSlot w.Fits ∧
        w.Unlinked state.files ∧ ¬ w.HardLinked state.files ∧ w.OthersKept start state.files)
        (fun state call h => ?_) ⟨hstart, hunlinked, hlinked, fun _ _ => rfl⟩ calls
      obtain ⟨hwithin, hunlinked, hlinked, hothers⟩ := h
      exact ⟨within_step hmax hwithin (hunlinked.not_exceeds hsmall hwithin hlinked call),
        unlinked_step call hunlinked,
        fun hafter => hlinked (hardLinked_of_step hbackups hunlinked hafter),
        othersKept_step hothers (hunlinked.not_escapes call)⟩
    exact ⟨bounded_of_within hkept.1, hkept.2.2.2⟩

/-! ## The order of the records -/

/-- The trace files are different files, and none is a directory or a link. -/
structure Own (w : TraceFileWriter) (fs : Files) : Prop where
  regular : ∀ name node, w.IsSlot name → fs.entries name = some node →
    ∃ file, fs.nodes node = .regular file
  distinct : fs.entries.Distinct w.IsSlot

theorem Moved.own {fs after : Files} (h : w.Moved fs after) (hown : w.Own fs) : w.Own after := by
  refine ⟨fun name node hname hentry => ?_, h.distinct hown.distinct⟩
  rw [h.shuffled.nodes]
  obtain hsame | ⟨-, other, hother, hbefore⟩ := h.shuffled.entries name node hentry
  · exact hown.regular name node hname hsame
  · exact hown.regular other node hother hbefore

/-- The file a call opens is the one under the name of the trace file, or one it has created
there. -/
theorem Own.opened {fs opened : Files} {node : Nat} {file : File} (h : w.Own fs)
    (hopen : fs.openAppend .empty (w.slot 0) = .ok (opened, node, file)) :
    (fs.entries (w.slot 0) = some node ∧ fs.nodes node = .regular file ∧ opened = fs) ∨
      fs.entries (w.slot 0) = none ∧ opened = fs.create (w.slot 0) .empty ∧ node = fs.next ∧
        file = .empty := by
  cases hentry : fs.entries (w.slot 0) with
  | none =>
      obtain ⟨hlookup, -⟩ | ⟨last, hlookup, hrest⟩ := FileSystem.openAppend_cases hopen
      · cases (FileSystem.lookup_missing hentry).symm.trans hlookup
      · cases (FileSystem.lookup_missing hentry).symm.trans hlookup
        exact .inr ⟨rfl, hrest⟩
  | some found =>
      obtain ⟨data, hdata⟩ := h.regular _ found isSlot_newest hentry
      have hfound := FileSystem.lookup_data hentry (by rw [hdata]; rfl)
      obtain ⟨hlookup, hrest⟩ | ⟨last, hlookup, -⟩ := FileSystem.openAppend_cases hopen
      · cases hfound.symm.trans hlookup
        exact .inl ⟨rfl, hrest⟩
      · cases hfound.symm.trans hlookup

/-- The file is under the name of the trace file alone. -/
structure Appends (w : TraceFileWriter) (fs after : Files) (node : Nat) (file longer : File) :
    Prop where
  newest : after.entries (w.slot 0) = some node
  backups : ∀ name, name ≠ w.slot 0 → after.entries name = fs.entries name
  appended : after.nodes node = .regular longer
  others : ∀ other, other ≠ node → after.nodes other = fs.nodes other
  before : held w.slot (bytesOf fs) fs.entries 0 = file.bytes
  alone : ∀ name, w.IsSlot name → name ≠ w.slot 0 → fs.entries name ≠ some node

/-- What a call appends to. -/
theorem Own.appends {fs opened : Files} {node : Nat} {file : File} (h : w.Own fs)
    (hopen : fs.openAppend .empty (w.slot 0) = .ok (opened, node, file)) (longer : File) :
    w.Appends fs (opened.update node longer) node file longer := by
  obtain ⟨hentry, hnode, rfl⟩ | ⟨hentry, rfl, rfl, rfl⟩ := h.opened hopen
  · refine ⟨hentry, fun _ _ => rfl, by simp, fun other hother => by simp [hother], ?_,
      fun name hname hne heq => ?_⟩
    · rw [held, hentry, Option.map_some, Option.getD_some, bytesOf, hnode]
    · exact hne (h.distinct name _ node hname isSlot_newest heq hentry)
  · refine ⟨Directory.set_self _ _ _, fun name hne => Directory.set_other _ _ hne, by simp,
      fun other hother => by simp [hother], held_none _ hentry, fun name _ _ heq => ?_⟩
    exact absurd (fs.used name _ heq) (Nat.lt_irrefl _)

/-- The files stay different. -/
theorem Appends.own {fs after : Files} {node : Nat} {file longer : File}
    (h : w.Appends fs after node file longer) (hown : w.Own fs) : w.Own after := by
  refine ⟨fun name other hname hentry => ?_, fun name name' other hname hname' hentry hentry' => ?_⟩
  · by_cases hother : other = node
    · exact ⟨longer, hother ▸ h.appended⟩
    · rw [h.others other hother]
      refine hown.regular name other hname ?_
      rw [← h.backups name, hentry]
      rintro rfl
      rw [h.newest] at hentry
      exact hother (Option.some.inj hentry).symm
  · -- the newest is not one of the others, and those are as before
    have hnewest : ∀ name, w.IsSlot name → after.entries name = some node → name = w.slot 0 := by
      intro name hname hentry
      by_contra hne
      exact h.alone name hname hne ((h.backups name hne).symm.trans hentry)
    by_cases hother : other = node
    · subst hother
      rw [hnewest name hname hentry, hnewest name' hname' hentry']
    · have hbefore : ∀ name, after.entries name = some other → fs.entries name = some other := by
        intro name hsome
        rw [← h.backups name, hsome]
        rintro rfl
        rw [h.newest] at hsome
        exact hother (Option.some.inj hsome).symm
      exact hown.distinct name name' other hname hname' (hbefore name hentry)
        (hbefore name' hentry')

/-- What the record adds to the files. -/
theorem Appends.contents {fs after : Files} {node : Nat} {file longer : File}
    (h : w.Appends fs after node file longer) {more : Bytes}
    (hlonger : longer.bytes = file.bytes ++ more) :
    w.contents after = w.contents fs ++ more := by
  refine older_append ?_ fun i hi hzero => ?_
  · rw [h.before, ← hlonger, held, h.newest, Option.map_some, Option.getD_some, bytesOf, h.appended]
  · have hne : w.slot i ≠ w.slot 0 := fun heq => hzero (slot_injective _ _ heq)
    rw [held, held, h.backups _ hne]
    cases hentry : fs.entries (w.slot i) with
    | none => rfl
    | some other =>
        have hother : other ≠ node := by
          rintro rfl
          exact h.alone _ (isSlot_slot hi) hne hentry
        simp only [Option.map_some, Option.getD_some, bytesOf, h.others other hother]

/-- After every call the files are a suffix of what was written. -/
theorem contents_step {state : State} (call : Call)
    (h : w.Own state.files ∧ w.contents state.files <:+ state.written) :
    w.Own (w.step state call).files ∧
      w.contents (w.step state call).files <:+ (w.step state call).written := by
  obtain ⟨hown, lost, hlost⟩ := h
  obtain ⟨moved, hmoved, hcase⟩ := w.step_cases state call
  obtain ⟨rotated, hrotated⟩ := hmoved.ordered hown.distinct
  have hsuffix : lost ++ rotated ++ w.contents moved = state.written := by
    rw [List.append_assoc, hrotated, hlost]
  obtain hstep | ⟨opened, node, file, hopen, hstep⟩ := hcase
  · rw [hstep]
    exact ⟨hmoved.own hown, _, hsuffix⟩
  · have happends := (hmoved.own hown).appends hopen (call.appended file)
    rw [hstep]
    refine ⟨happends.own (hmoved.own hown), lost ++ rotated, ?_⟩
    rw [happends.contents rfl, ← List.append_assoc, hsuffix]

/-- Without trace files there is nothing to read. -/
theorem contents_nil {fs : Files} (h : ∀ i ≤ w.backups, fs.entries (w.slot i) = none) :
    w.contents fs = [] := by
  have hnone : ∀ n ≤ w.backups, older (held w.slot (bytesOf fs) fs.entries) n = [] := by
    intro n hn
    induction n with
    | zero => exact held_none _ (h 0 hn)
    | succ i ih =>
        rw [older, held_none _ (h _ hn), ih (Nat.le_of_succ_le hn), List.nil_append]
  exact hnone w.backups (Nat.le_refl _)

/-- From a directory without trace files they are a suffix of what was written. -/
theorem contents_suffix {start : Files} (h : ∀ i ≤ w.backups, start.entries (w.slot i) = none)
    (calls : List Call) :
    w.contents (run w.step ⟨start, []⟩ calls).files <:+ (run w.step ⟨start, []⟩ calls).written := by
  have hnone : ∀ name, w.IsSlot name → start.entries name = none := by
    rintro _ ⟨i, hi, rfl⟩
    exact h i hi
  have hown : w.Own start := by
    refine ⟨fun name node hname hentry => ?_, fun name _ node hname _ hentry => ?_⟩
    · cases (hnone name hname).symm.trans hentry
    · cases (hnone name hname).symm.trans hentry
  have hinit : w.Own start ∧ w.contents start <:+ [] := ⟨hown, by simp [contents_nil h]⟩
  exact (run_invariant
    (fun state : State => w.Own state.files ∧ w.contents state.files <:+ state.written)
    (fun _ call h => contents_step call h) hinit calls).2

/-! ## The start -/

/-- Names were taken away. -/
structure Cleaned (fs after : Files) : Prop where
  nodes : after.nodes = fs.nodes
  entries : ∀ name node, after.entries name = some node → fs.entries name = some node

/-- What keeps the budget under a name keeps it when names are taken away. -/
theorem Cleaned.within {fs after : Files} (h : Cleaned fs after) {names : Bytes → Prop}
    {condition : File → Prop} (hwithin : fs.Within names condition) :
    after.Within names condition :=
  FileSystem.Shuffled.within ⟨h.nodes, fun name node hentry => .inl (h.entries name node hentry)⟩
    hwithin

theorem cleaned_remove (fs : Files) (name : Bytes) : Cleaned fs (fs.remove name) := by
  refine ⟨rfl, fun other node hentry => ?_⟩
  have hset : fs.entries.set name none other = some node := hentry
  by_cases hother : other = name
  · rw [hother, Directory.set_self] at hset
    cases hset
  · rwa [Directory.set_other _ _ hother] at hset

/-- One pass of the loop of `cleanOversized`: the file with the number is removed, or has room. -/
theorem cleanSlots_cons {faults : CleanFaults} {i : Nat} {rest : List Nat} {fs after : Files}
    (h : w.cleanSlots faults (i :: rest) fs = (after, none)) :
    ∃ cleaned, w.cleanSlots faults rest cleaned = (after, none) ∧ Cleaned fs cleaned ∧
      cleaned.Within (· = w.slot i) w.Fits := by
  have hrefl : Cleaned fs fs := ⟨rfl, fun _ _ hentry => hentry⟩
  rw [cleanSlots] at h
  cases hfault : faults.stat i with
  | some err => simp [hfault] at h
  | none =>
      cases hstat : fs.stat (w.slot i) with
      | error err => simp [hfault, hstat] at h
      | ok found =>
          -- the links were followed to their end
          have hloop : fs.lookup (w.slot i) ≠ .loop := fun hloop => by
            simp [FileSystem.stat, hloop] at hstat
          have hseen : (∀ file, found = some file → w.Fits file) →
              fs.Within (· = w.slot i) w.Fits := fun hfits =>
            FileSystem.within_of_lookup hloop fun node file hlookup hdata => by
              have hfound := FileSystem.stat_eq_some.mpr ⟨node, hlookup, hdata⟩
              rw [hstat] at hfound
              exact hfits file (Except.ok.inj hfound)
          cases found with
          | none =>
              simp only [hfault, hstat] at h
              exact ⟨fs, h, hrefl, hseen fun _ heq => by cases heq⟩
          | some file =>
              simp only [hfault, hstat] at h
              by_cases hover : w.maxBytes < file.size
              · rw [if_pos hover] at h
                cases hremove : faults.remove i with
                | some err => simp [hremove] at h
                | none =>
                    simp only [hremove] at h
                    have hgone : (fs.remove (w.slot i)).lookup (w.slot i) = .missing (w.slot i) :=
                      FileSystem.lookup_missing (Directory.set_self _ _ _)
                    refine ⟨_, h, cleaned_remove fs _, FileSystem.within_of_lookup ?_ ?_⟩
                    · rw [hgone]
                      simp
                    · intro node file hfound
                      cases hgone.symm.trans hfound
              · rw [if_neg hover] at h
                refine ⟨fs, h, hrefl, hseen fun file' heq => ?_⟩
                cases heq
                rw [File.size, maxBytes_lt file.fits] at hover
                rw [Fits]
                omega

/-- What `cleanOversized` leaves: no new name, and none of these over the budget. -/
theorem cleanSlots_spec {faults : CleanFaults} {numbers : List Nat} {fs after : Files}
    (h : w.cleanSlots faults numbers fs = (after, none)) :
    Cleaned fs after ∧ ∀ i ∈ numbers, after.Within (· = w.slot i) w.Fits := by
  induction numbers generalizing fs with
  | nil =>
      cases h
      exact ⟨⟨rfl, fun _ _ hentry => hentry⟩, fun i hi => by cases hi⟩
  | cons i rest ih =>
      obtain ⟨cleaned, hrest, hcleaned, hwithin⟩ := cleanSlots_cons h
      obtain ⟨hafter, hbounded⟩ := ih hrest
      refine ⟨⟨hafter.nodes.trans hcleaned.nodes, fun name node hentry =>
        hcleaned.entries name node (hafter.entries name node hentry)⟩, fun j hj => ?_⟩
      obtain rfl | hj := List.mem_cons.mp hj
      · exact hafter.within hwithin
      · exact hbounded j hj

/-- After `cleanOversized` no trace file is over the budget. -/
theorem within_cleanOversized {faults : CleanFaults} {fs after : Files}
    (h : w.cleanOversized faults fs = (after, none)) : after.Within w.IsSlot w.Fits := by
  rintro _ last node file ⟨i, hi, rfl⟩ hlast hentry hdata
  exact (cleanSlots_spec h).2 i (List.mem_range.mpr (Nat.lt_succ_of_le hi)) _ last node file rfl
    hlast hentry hdata

/-- From a directory that `cleanOversized` left, and over any calls. The trace files keep the budget
after every call exactly if no call appends more than the budget has room for to a file that was not
rotated: because all trace files are hard links of one file, or because its size and the length of
the record are past an `int64` together. Other names stay exactly if no call creates a file through
a link that leads nowhere. For a budget below `2^62` and without symbolic links among the trace
files, both hold over every run exactly if the trace files are not all hard links of one file. A
call that fails before it writes leaves all nodes as they were, and only such under every name. And
if there were no trace files at the start, then read from the oldest to the newest they are a suffix
of what was written. -/
theorem trace_files_bounded (w : TraceFileWriter) (hmax : 0 < w.maxBytes)
    (hbackups : 1 ≤ w.backups) (faults : CleanFaults) (initial start : Files)
    (hclean : w.cleanOversized faults initial = (start, none)) :
    (∀ calls, (∀ k, w.Bounded (run w.step ⟨start, []⟩ (calls.take k)).files) ↔
      Along w.step (fun state call => ¬ w.Exceeds state.files call) ⟨start, []⟩ calls) ∧
    (∀ calls, (∀ k, w.OthersKept start (run w.step ⟨start, []⟩ (calls.take k)).files) ↔
      Along w.step (fun state call => ¬ w.Escapes state.files call) ⟨start, []⟩ calls) ∧
    (w.maxBytes.toInt < 4611686018427387904 → w.Unlinked start →
      ((∀ calls, w.Bounded (run w.step ⟨start, []⟩ calls).files ∧
        w.OthersKept start (run w.step ⟨start, []⟩ calls).files) ↔ ¬ w.HardLinked start)) ∧
    (∀ (fs after : Files) (call : Call) (err : GoError),
      w.write call fs = (after, .error err) →
        after.nodes = fs.nodes ∧ ∀ name node, after.entries name = some node →
          ∃ name', fs.entries name' = some node) ∧
    ((∀ i ≤ w.backups, start.entries (w.slot i) = none) → ∀ calls,
      w.contents (run w.step ⟨start, []⟩ calls).files <:+
        (run w.step ⟨start, []⟩ calls).written) := by
  have hstart := within_cleanOversized hclean
  refine ⟨bounded_iff hmax hstart, othersKept_iff start, fun hsmall hunlinked =>
    kept_iff hmax hbackups hsmall hstart hunlinked, fun fs after call err hwrite => ?_,
    fun hnone => contents_suffix hnone⟩
  have hmoved := moved_of_error hwrite
  refine ⟨hmoved.shuffled.nodes, fun name node hentry => ?_⟩
  obtain hsame | ⟨-, other, -, hbefore⟩ := hmoved.shuffled.entries name node hentry
  · exact ⟨name, hsame⟩
  · exact ⟨other, hbefore⟩

/-- A record of these bytes, with a system that reports no error and takes all of them. -/
def plainCall (p : Bytes) (len : p.length ≤ maxFileSize) : Call :=
  ⟨p, len, none, fun _ => none, none, p.length, none⟩

/-- A system without files. -/
def noFiles : Files := ⟨fun _ => none, fun _ => .regular .empty, 0, 40, fun _ _ h => by cases h⟩

/-- A budget of four bytes with one backup, over a rotation that fails and one that does not. -/
theorem trace_files_bounded_four :
    ∃ calls : List Call, calls.length = 3 ∧
      Bounded ⟨ascii "t", 4, 1⟩ (run (step ⟨ascii "t", 4, 1⟩) ⟨noFiles, []⟩ calls).files ∧
      contents ⟨ascii "t", 4, 1⟩ (run (step ⟨ascii "t", 4, 1⟩) ⟨noFiles, []⟩ calls).files <:+
        (run (step ⟨ascii "t", 4, 1⟩) ⟨noFiles, []⟩ calls).written := by
  obtain ⟨-, -, hkept, -, hordered⟩ := trace_files_bounded ⟨ascii "t", 4, 1⟩ (by decide) (by decide)
    ⟨fun _ => none, fun _ => none⟩ noFiles noFiles rfl
  have hlinked : ¬ HardLinked ⟨ascii "t", 4, 1⟩ noFiles := by
    rintro ⟨node, -, -, hshared⟩
    cases hshared 0 (by decide)
  refine ⟨[plainCall (ascii "abc") (by decide),
      ⟨ascii "de", by decide, none, fun _ => some (.new "rename"), none, 2, none⟩,
      plainCall (ascii "fg") (by decide)], rfl, ?_, hordered (fun _ _ => rfl) _⟩
  exact ((hkept (by decide) fun _ _ _ _ h => by cases h).mpr hlinked _).1

/-- A file of four bytes with the names `t` and `t.1`. -/
def twoNames : Files where
  entries name := if name = ascii "t" ∨ name = ascii "t.1" then some 0 else none
  nodes _ := .regular ⟨ascii "abcd", by decide⟩
  next := 1
  maxLinks := 40
  used name node h := by
    split_ifs at h
    cases h
    exact Nat.one_pos

/-- The rename of `t` to `t.1` does nothing then, and a record of four bytes is added to the full
file. -/
theorem hard_links_exceed :
    cleanOversized ⟨ascii "t", 4, 1⟩ ⟨fun _ => none, fun _ => none⟩ twoNames = (twoNames, none) ∧
      ¬ Bounded ⟨ascii "t", 4, 1⟩
        (step ⟨ascii "t", 4, 1⟩ ⟨twoNames, []⟩ (plainCall (ascii "efgh") (by decide))).files := by
  refine ⟨rfl, Exceeds.not_bounded (by decide) ?_⟩
  exact ⟨by decide, rfl, rfl, 0, _, rfl, rfl, .inr ⟨⟨0, by decide⟩, fun _ _ => rfl⟩, by decide⟩

end Iot.Tracing.TraceFileWriter
