import Llamesh.Builds.Names
import Llamesh.Library.Run
import Llamesh.Library.Table

/-!
# The build directories on disk

The build directories over a history of `update_and_build` runs
(`src/build_manager.rs:188–356`), each with its own arguments and commit. A run
can fail or the process can crash between any two changes of the file system, and
a removal can stop halfway. Build directories are real directories, each with a
binary of its own, and the link at the binary path leads to one of them or
elsewhere. Only the manager writes stamps.
-/

namespace Llamesh.Builds

open Transition

/-! ### The disk -/

/-- What is at the name of a stamp: nothing, a file, a link to nothing, or something that cannot be
read. -/
inductive Stamp where
  | absent
  | file (contents : List UInt8)
  | dangling
  | unreadable
  deriving DecidableEq, Repr

/-- `tokio::fs::read`. -/
def Stamp.read : Stamp → StampRead
  | .absent => .notFound
  | .file contents => .contents contents
  | .dangling => .notFound
  | .unreadable => .failed

/-- A build directory: whether it has `bin/llama-server`, its stamp, and the temporary file that a
stamp is written to first. -/
structure BuildDir where
  binary : Bool
  stamp : Stamp
  temp : Option (List UInt8)
  deriving DecidableEq, Repr

/-- The build directories by name, and the one whose binary the link at the binary path names. -/
structure Disk where
  dirs : Table (List Char) BuildDir
  live : Option (List Char)

namespace Disk

/-- `bin/llama-server` is there. -/
def binary (disk : Disk) (name : List Char) : Bool := (disk.dirs.lookup name).any (·.binary)

/-- The stamp of a directory. -/
def stamp (disk : Disk) (name : List Char) : Stamp :=
  ((disk.dirs.lookup name).map (·.stamp)).getD .absent

/-- `symlink_already_current` (`src/build_manager.rs:644–653`). -/
def symlinkAlreadyCurrent (disk : Disk) (name : List Char) : Bool :=
  disk.live == some name && disk.binary name

/-- Change one directory. -/
def modify (disk : Disk) (name : List Char) (f : BuildDir → BuildDir) : Disk :=
  { disk with dirs := disk.dirs.modify name f }

/-- What a removal leaves of a directory, or nothing. -/
def leave (disk : Disk) (name : List Char) : Option BuildDir → Disk
  | none => { disk with dirs := disk.dirs.erase name }
  | some rest => { disk with dirs := disk.dirs.insert name rest }

/-- `create_dir_all`: an empty directory, when there is none. -/
def createDir (disk : Disk) (name : List Char) : Disk :=
  match disk.dirs.lookup name with
  | none => { disk with dirs := disk.dirs.insert name ⟨false, .absent, none⟩ }
  | some _ => disk

end Disk

/-- What `remove_dir_all` can leave of a directory when it stops before the end. -/
def BuildDir.remains (d rest : BuildDir) : Bool :=
  (!rest.binary || d.binary) && (rest.stamp == .absent || rest.stamp == d.stamp) &&
    (rest.temp == none || rest.temp == d.temp)

/-! ### Runs -/

/-- A call of `update_and_build`: the arguments of the configuration and the commit that is checked
out. -/
structure Run where
  inputs : BuildInputs
  commit : Commit

/-- The changes of `write_build_inputs_stamp` (`src/build_manager.rs:433–454`) in order, with the
removal of the temporary file after an error. -/
inductive StampStep where
  | opening
  | writing
  | renaming
  | discarding
  deriving DecidableEq, Repr

/-- Where a call of `update_and_build` is. `commands` is the number of build commands still to
run. -/
inductive Phase where
  | idle
  | selecting (run : Run)
  | stamping (run : Run) (stage : StampStep)
  | activating (run : Run) (dir : List Char)
  | preparing (run : Run)
  | building (run : Run) (commands : Nat)
  | verifying (run : Run)
  | swapping (run : Run)
  | cleaning

/-- The disk, the directories this process has prepared, and the call in progress. Calls hold the
rebuild lock, so there is one at most. -/
structure State where
  disk : Disk
  prepared : List (List Char)
  phase : Phase

/-- The changes of the file system, and the ends of a call. `fail` is an error of the next
change. -/
inductive Label where
  | begin (run : Run)
  | select (verified legacyVerified : Bool)
  | openTemp
  | writeTemp (octets : Nat)
  | renameTemp
  | discardTemp (removed : Bool)
  | activate
  | removeUnfinished (rest : Option BuildDir)
  | createDir
  | command (binary : Bool)
  | verify
  | swap
  | cleanup (name : List Char) (rest : Option BuildDir)
  | finish
  | fail
  | crash

section

variable (inputsId : BuildInputs → List Char) (base : List Char)

/-- The directory of the run's commit and arguments. -/
def Run.buildDir (run : Run) : List Char := buildDirName base run.commit (inputsId run.inputs)

/-- The directory of the run's commit in earlier versions. -/
def Run.legacy (run : Run) : List Char := legacyName base run.commit

/-- What a run finds when it selects a directory. -/
def Disk.observe (disk : Disk) (run : Run) (verified legacyVerified : Bool) : Observed where
  built := disk.binary (run.buildDir inputsId base)
  verified := verified
  stamp := (disk.stamp (run.legacy base)).read
  stampMissing := disk.stamp (run.legacy base) == .absent
  current := disk.symlinkAlreadyCurrent (run.legacy base)
  legacyVerified := legacyVerified && disk.binary (run.legacy base)

/-- What a run selects. -/
def Disk.selection (disk : Disk) (run : Run) (verified legacyVerified : Bool) : Selection :=
  selectBuildDir (inputsId run.inputs) (disk.observe inputsId base run verified legacyVerified)

/-- Where a run goes on after the selection. -/
def Run.selected (run : Run) : Selection → Phase
  | .reuse => .activating run (run.buildDir inputsId base)
  | .legacy true => .stamping run .opening
  | .legacy false => .activating run (run.legacy base)
  | .build => .preparing run

/-- The call after an error: the temporary file of a stamp is removed first. -/
def Phase.failed : Phase → Phase
  | .stamping run .writing => .stamping run .discarding
  | .stamping run .renaming => .stamping run .discarding
  | _ => .idle

/-- A removal in `cleanup_old_builds` (`src/build_manager.rs:504–594`) takes a managed directory of
this base name that the binary path does not pass through. Which of these go depends on their age
and on `keep_builds`; here it can be any. -/
def Disk.removable (disk : Disk) (name : List Char) : Bool :=
  (splitManagedBuildName name).any (·.1 == base) && !(disk.live == some name)

/-- The removal takes the directory or a part of it. -/
def Disk.removes (disk : Disk) (name : List Char) (rest : Option BuildDir) : Bool :=
  (disk.dirs.lookup name).any fun d => rest.all d.remains

/-- One change of the file system. -/
def step (s : State) : Label → Option State
  | .begin run =>
    match s.phase with
    | .idle => some { s with phase := .selecting run }
    | _ => none
  | .select verified legacyVerified =>
    match s.phase with
    | .selecting run =>
      some { s with
        phase := run.selected inputsId base
          (s.disk.selection inputsId base run verified legacyVerified) }
    | _ => none
  | .openTemp =>
    match s.phase with
    | .stamping run .opening =>
      some { s with
        disk := s.disk.modify (run.legacy base) fun d => { d with temp := some [] }
        phase := .stamping run .writing }
    | _ => none
  | .writeTemp octets =>
    match s.phase with
    | .stamping run .writing =>
      let written := (Text.utf8Encode (inputsId run.inputs)).take octets
      some { s with
        disk := s.disk.modify (run.legacy base) fun d => { d with temp := some written }
        phase :=
          .stamping run
            (if written = Text.utf8Encode (inputsId run.inputs) then .renaming else .writing) }
    | _ => none
  | .renameTemp =>
    match s.phase with
    | .stamping run .renaming =>
      some { s with
        disk := s.disk.modify (run.legacy base) fun d =>
          { d with stamp := (d.temp.map .file).getD d.stamp, temp := none }
        phase := .activating run (run.legacy base) }
    | _ => none
  | .discardTemp removed =>
    match s.phase with
    | .stamping run .discarding =>
      some { s with
        disk := s.disk.modify (run.legacy base) fun d =>
          { d with temp := if removed then none else d.temp }
        phase := .idle }
    | _ => none
  | .activate =>
    match s.phase with
    | .activating _ dir =>
      some { s with
        disk :=
          if s.disk.symlinkAlreadyCurrent dir then s.disk else { s.disk with live := some dir }
        phase := .idle }
    | _ => none
  | .removeUnfinished rest =>
    match s.phase with
    | .preparing run =>
      let dir := run.buildDir inputsId base
      guarded (dir ∉ s.prepared ∧ s.disk.binary dir = false ∧ s.disk.removes dir rest)
        { s with disk := s.disk.leave dir rest }
    | _ => none
  | .createDir =>
    match s.phase with
    | .preparing run =>
      let dir := run.buildDir inputsId base
      guarded (dir ∈ s.prepared ∨ s.disk.binary dir = true ∨ s.disk.dirs.lookup dir = none)
        { disk := s.disk.createDir dir, prepared := dir :: s.prepared, phase := .building run 2 }
    | _ => none
  | .command binary =>
    match s.phase with
    | .building run (commands + 1) =>
      some { s with
        disk := s.disk.modify (run.buildDir inputsId base) fun d => { d with binary := binary }
        phase := if commands = 0 then .verifying run else .building run commands }
    | _ => none
  | .verify =>
    match s.phase with
    | .verifying run => some { s with phase := .swapping run }
    | _ => none
  | .swap =>
    match s.phase with
    | .swapping run =>
      some { s with
        disk := { s.disk with live := some (run.buildDir inputsId base) }
        phase := .cleaning }
    | _ => none
  | .cleanup name rest =>
    match s.phase with
    | .cleaning =>
      guarded (s.disk.removable base name ∧ s.disk.removes name rest)
        { s with disk := s.disk.leave name rest }
    | _ => none
  | .finish =>
    match s.phase with
    | .cleaning => some { s with phase := .idle }
    | _ => none
  | .fail => some { s with phase := s.phase.failed }
  | .crash => some { s with prepared := [], phase := .idle }

/-- What a step selects: the run, the directory, and whether it is used as it is. -/
def State.selects (s : State) (l : Label) : Option (Run × List Char × Bool) :=
  match l, s.phase with
  | .select verified legacyVerified, .selecting run =>
    match s.disk.selection inputsId base run verified legacyVerified with
    | .reuse => some (run, run.buildDir inputsId base, true)
    | .legacy _ => some (run, run.legacy base, true)
    | .build => some (run, run.buildDir inputsId base, false)
  | _, _ => none

/-- The directory a step prepares or builds in. -/
def State.buildsIn (s : State) (l : Label) : Option (List Char) :=
  match l, s.phase with
  | .removeUnfinished _, .preparing run => some (run.buildDir inputsId base)
  | .createDir, .preparing run => some (run.buildDir inputsId base)
  | .command _, .building run _ => some (run.buildDir inputsId base)
  | _, _ => none

end

/-! ### What a step does -/

/-- What a step does, with what it has found. -/
inductive Effect (inputsId : BuildInputs → List Char) (base : List Char) (s : State) :
    Label → State → Prop
  | begin (run : Run) (hphase : s.phase = .idle) :
      Effect inputsId base s (.begin run) { s with phase := .selecting run }
  | select (verified legacyVerified : Bool) (run : Run) (hphase : s.phase = .selecting run) :
      Effect inputsId base s (.select verified legacyVerified)
        { s with
          phase := run.selected inputsId base
            (s.disk.selection inputsId base run verified legacyVerified) }
  | openTemp (run : Run) (hphase : s.phase = .stamping run .opening) :
      Effect inputsId base s .openTemp
        { s with
          disk := s.disk.modify (run.legacy base) fun d => { d with temp := some [] }
          phase := .stamping run .writing }
  | writeTemp (octets : Nat) (run : Run) (written : List UInt8) (stage : StampStep)
      (hphase : s.phase = .stamping run .writing) :
      Effect inputsId base s (.writeTemp octets)
        { s with
          disk := s.disk.modify (run.legacy base) fun d => { d with temp := some written }
          phase := .stamping run stage }
  | renameTemp (run : Run) (hphase : s.phase = .stamping run .renaming) :
      Effect inputsId base s .renameTemp
        { s with
          disk := s.disk.modify (run.legacy base) fun d =>
            { d with stamp := (d.temp.map .file).getD d.stamp, temp := none }
          phase := .activating run (run.legacy base) }
  | discardTemp (removed : Bool) (run : Run) (hphase : s.phase = .stamping run .discarding) :
      Effect inputsId base s (.discardTemp removed)
        { s with
          disk := s.disk.modify (run.legacy base) fun d =>
            { d with temp := if removed then none else d.temp }
          phase := .idle }
  | activateCurrent (run : Run) (dir : List Char) (hphase : s.phase = .activating run dir) :
      Effect inputsId base s .activate { s with phase := .idle }
  | activate (run : Run) (dir : List Char) (hphase : s.phase = .activating run dir) :
      Effect inputsId base s .activate
        { s with disk := { s.disk with live := some dir }, phase := .idle }
  | removeUnfinished (rest : Option BuildDir) (run : Run) (hphase : s.phase = .preparing run) :
      Effect inputsId base s (.removeUnfinished rest)
        { s with disk := s.disk.leave (run.buildDir inputsId base) rest }
  | createDir (run : Run) (hphase : s.phase = .preparing run) :
      Effect inputsId base s .createDir
        { disk := s.disk.createDir (run.buildDir inputsId base)
          prepared := run.buildDir inputsId base :: s.prepared
          phase := .building run 2 }
  | command (binary : Bool) (run : Run) (commands : Nat)
      (hphase : s.phase = .building run (commands + 1)) :
      Effect inputsId base s (.command binary)
        { s with
          disk := s.disk.modify (run.buildDir inputsId base) fun d => { d with binary := binary }
          phase := if commands = 0 then .verifying run else .building run commands }
  | verify (run : Run) (hphase : s.phase = .verifying run) :
      Effect inputsId base s .verify { s with phase := .swapping run }
  | swap (run : Run) (hphase : s.phase = .swapping run) :
      Effect inputsId base s .swap
        { s with
          disk := { s.disk with live := some (run.buildDir inputsId base) }
          phase := .cleaning }
  | cleanup (name : List Char) (rest : Option BuildDir) (hphase : s.phase = .cleaning)
      (hremovable : s.disk.removable base name = true)
      (hremoves : s.disk.removes name rest = true) :
      Effect inputsId base s (.cleanup name rest) { s with disk := s.disk.leave name rest }
  | finish (hphase : s.phase = .cleaning) :
      Effect inputsId base s .finish { s with phase := .idle }
  | fail : Effect inputsId base s .fail { s with phase := s.phase.failed }
  | crash : Effect inputsId base s .crash { s with prepared := [], phase := .idle }

/-- Every step of the history is one of its effects. -/
theorem step_effect {inputsId : BuildInputs → List Char} {base : List Char} {s t : State}
    {l : Label} (h : step inputsId base s l = some t) :
    Effect inputsId base s l t := by
  cases l <;> simp only [step] at h
  case begin run =>
    split at h
    · next hphase =>
      cases h
      exact .begin run hphase
    · cases h
  case select verified legacyVerified =>
    split at h
    · next run hphase =>
      cases h
      exact .select verified legacyVerified run hphase
    · cases h
  case openTemp =>
    split at h
    · next run hphase =>
      cases h
      exact .openTemp run hphase
    · cases h
  case writeTemp octets =>
    split at h
    · next run hphase =>
      cases h
      exact .writeTemp octets run _ _ hphase
    · cases h
  case renameTemp =>
    split at h
    · next run hphase =>
      cases h
      exact .renameTemp run hphase
    · cases h
  case discardTemp removed =>
    split at h
    · next run hphase =>
      cases h
      exact .discardTemp removed run hphase
    · cases h
  case activate =>
    split at h
    · next run dir hphase =>
      cases h
      split
      · exact .activateCurrent run dir hphase
      · exact .activate run dir hphase
    · cases h
  case removeUnfinished rest =>
    split at h
    · next run hphase =>
      obtain ⟨-, rfl⟩ := guarded_eq_some.mp h
      exact .removeUnfinished rest run hphase
    · cases h
  case createDir =>
    split at h
    · next run hphase =>
      obtain ⟨-, rfl⟩ := guarded_eq_some.mp h
      exact .createDir run hphase
    · cases h
  case command binary =>
    split at h
    · next run commands hphase =>
      cases h
      exact .command binary run commands hphase
    · cases h
  case verify =>
    split at h
    · next run hphase =>
      cases h
      exact .verify run hphase
    · cases h
  case swap =>
    split at h
    · next run hphase =>
      cases h
      exact .swap run hphase
    · cases h
  case cleanup name rest =>
    split at h
    · next hphase =>
      obtain ⟨⟨hremovable, hremoves⟩, rfl⟩ := guarded_eq_some.mp h
      exact .cleanup name rest hphase hremovable hremoves
    · cases h
  case finish =>
    split at h
    · next hphase =>
      cases h
      exact .finish hphase
    · cases h
  case fail =>
    cases h
    exact .fail
  case crash =>
    cases h
    exact .crash

/-! ### The disk after a change -/

namespace Disk

variable {disk : Disk} {name other : List Char}

/-- A change that keeps the stamp of its directory keeps every stamp. -/
theorem stamp_modify_of_keeps {f : BuildDir → BuildDir} (h : ∀ d, (f d).stamp = d.stamp) :
    (disk.modify name f).stamp other = disk.stamp other := by
  simp only [stamp, modify, Table.lookup_modify]
  by_cases hne : other = name
  · cases hd : disk.dirs.lookup other <;> simp [hne, h]
  · simp [hne]

/-- A change of one directory keeps the other stamps. -/
theorem stamp_modify_of_ne {f : BuildDir → BuildDir} (h : other ≠ name) :
    (disk.modify name f).stamp other = disk.stamp other := by
  simp [stamp, modify, Table.lookup_modify, h]

/-- A removal keeps the other stamps. -/
theorem stamp_leave_of_ne {rest : Option BuildDir} (h : other ≠ name) :
    (disk.leave name rest).stamp other = disk.stamp other := by
  cases rest <;> simp [stamp, leave, h]

/-- A removal leaves the stamp as it was, or none. -/
theorem stamp_leave_self {rest : Option BuildDir} (h : disk.removes name rest = true) :
    (disk.leave name rest).stamp name = disk.stamp name ∨
      (disk.leave name rest).stamp name = .absent := by
  cases rest with
  | none =>
    right
    simp [stamp, leave]
  | some rest =>
    obtain ⟨d, hd, hrest⟩ := (Option.any_eq_true _ _).mp h
    simp only [Option.all_some, BuildDir.remains, Bool.and_eq_true, Bool.or_eq_true, beq_iff_eq]
      at hrest
    have hstamp : disk.stamp name = d.stamp := by simp [stamp, hd]
    have hleft : (disk.leave name (some rest)).stamp name = rest.stamp := by simp [stamp, leave]
    rw [hleft, hstamp]
    exact hrest.1.2.symm

/-- A new directory has no stamp. -/
theorem stamp_createDir : (disk.createDir name).stamp other = disk.stamp other := by
  unfold createDir
  cases hd : disk.dirs.lookup name with
  | some d => rfl
  | none =>
    by_cases hne : other = name
    · subst hne
      simp [stamp, hd]
    · simp [stamp, hne]

end Disk

end Llamesh.Builds
