import Llamesh.Builds.Call
import Llamesh.Library.Resolution
import Mathlib.Data.List.Sort

/-!
# Removing old builds

`cleanup_old_builds` (`src/build_manager.rs:504–594`) with the loop of
`dirs_resolved_through` (`817–868`), on a tree of files with symbolic links. The
order in which the entries of a directory are read is any, and so are their
timestamps. A removal that fails is logged and skipped by the source; here it
fails only where there is nothing to remove.
-/

namespace Llamesh.Builds.Cleanup

open FileSystem
open Isolation (Path Location Files tryExists removeDirAll binaryIn)

/-! ### The directories a path resolves through -/

/-- The loop of `dirs_resolved_through`: the components still to resolve, the next one first, where
the resolution stands, the number of links followed, and the directories so far. It ends on every
tree, as each link that is followed leaves fewer to follow. `src/build_manager.rs:831–867`. -/
def resolving (files : Files) (pending : Path) (current : Location) (linksFollowed : Nat)
    (dirs : List Location) : List Location :=
  match pending with
  | [] => dirs
  | .root :: pending => resolving files pending [] linksFollowed ([] :: dirs)
  | .current :: pending => resolving files pending current linksFollowed (current :: dirs)
  | .parent :: pending =>
    resolving files pending current.dropLast linksFollowed (current.dropLast :: dirs)
  | .normal name :: pending =>
    let next := current ++ [name]
    match files.lookup next with
    | none => dirs
    | some (.link target) =>
      let linksFollowed := linksFollowed + 1
      if linksFollowed > 40 then dirs
      else resolving files (target ++ pending) current linksFollowed (current :: dirs)
    | some _ => resolving files pending next linksFollowed (next :: dirs)
termination_by (40 - linksFollowed, pending.length)

/-- `dirs_resolved_through`, of an absolute path. -/
def dirsResolvedThrough (files : Files) (path : Path) : List Location :=
  resolving files path [] 0 []

/-! ### The cleanup -/

/-- `llama_cpp` of the configuration, with its paths below the root. -/
structure Config where
  binaryPath : Path
  buildPath : Path
  keepBuilds : Nat

/-- The build directories found so far, in the order they were found in, with their times. -/
structure Sweep where
  files : Files
  builds : List (List Char × Int)

/-- `remove_dir_all`, logged when it fails. -/
def removed (files : Files) (path : Path) : Files := (removeDirAll files path).getD files

/-- The names of the oldest builds, all but `keepBuilds`. The sort is stable.
`src/build_manager.rs:578–585`. -/
def oldBuilds (keepBuilds : Nat) (builds : List (List Char × Int)) : List (List Char) :=
  let builds := builds.insertionSort fun a b => a.2 ≤ b.2
  (builds.take (builds.length - keepBuilds)).map Prod.fst

namespace Config

variable (c : Config)

/-- The configured binary path. -/
def binary : Path := .root :: c.binaryPath

/-- `builds_dir`. `src/build_manager.rs:804–809`. -/
def buildsDir : Path := .root :: c.buildPath.dropLast

/-- The file name of `build_path`. `src/build_manager.rs:507–517`. -/
def baseName : Option (List Char) :=
  match c.buildPath.getLast? with
  | some (.normal name) => if name.isEmpty then none else some name
  | _ => none

/-- An entry of the builds directory. -/
def managed (name : List Char) : Path := c.buildsDir ++ [.normal name]

/-- `read_dir`, up to the order. -/
def entries (files : Files) : List (List Char) :=
  match canonicalize files c.buildsDir with
  | some d => if isDir files d then namesIn files d else []
  | none => []

/-- A directory of a managed name with this base. `src/build_manager.rs:531–545`. -/
def named (files : Files) (name : List Char) : Bool :=
  isDirectory files (c.managed name) &&
    (splitManagedBuildName name).any fun managed => some managed.1 == c.baseName

/-- Its location is protected. `src/build_manager.rs:547–551`. -/
def isProtected (protectedDirs : List Location) (files : Files) (name : List Char) : Bool :=
  (canonicalize files (c.managed name)).any fun canonical => protectedDirs.contains canonical

/-- One entry. `src/build_manager.rs:530–576`. -/
def visit (times : List Char → Option Int) (protectedDirs : List Location) (s : Sweep)
    (name : List Char) : Sweep :=
  if !c.named s.files name then s
  else if c.isProtected protectedDirs s.files name then s
  else
    match tryExists s.files (binaryIn (c.managed name)) with
    | some true =>
      match times name with
      | some created => { s with builds := s.builds ++ [(name, created)] }
      | none => s
    | some false => { s with files := removed s.files (c.managed name) }
    | none => s

/-- `cleanup_old_builds`, with the entries in the order they are read. -/
def cleanupOldBuilds (times : List Char → Option Int) (names : List (List Char)) (files : Files) :
    Files :=
  if c.baseName.isNone || !isDirectory files c.buildsDir then files
  else
    let protectedDirs := dirsResolvedThrough files c.binary
    let s := names.foldl (c.visit times protectedDirs) ⟨files, []⟩
    (oldBuilds c.keepBuilds s.builds).foldl (fun files name => removed files (c.managed name))
      s.files

end Config

/-! ### The resolution of the kernel -/

/-- The loop stands where the walk of a path stands. -/
theorem resolving_eq (files : Files) (links : Nat) (pending : Path) (current : Location)
    (linksFollowed : Nat) (dirs : List Location) (hlinks : links + linksFollowed = maxLinks) :
    resolving files pending current linksFollowed dirs =
      (walk files false links current pending).passed.reverse ++ dirs := by
  induction links, current, pending using walk_induction files false
    generalizing linksFollowed dirs with
  | nil links cur => simp [resolving]
  | root links cur rest ih => simp [resolving, ih linksFollowed ([] :: dirs) hlinks]
  | stuck links cur c rest hc hstuck => cases hstuck
  | current links cur rest hdir ih =>
    simp [resolving, ih linksFollowed (cur :: dirs) hlinks, walk_current hdir]
  | parent links cur rest hdir ih =>
    simp [resolving, ih linksFollowed (cur.dropLast :: dirs) hlinks, walk_parent hdir]
  | missing links cur name rest hdir hname => simp [resolving, hname, walk_missing hdir hname]
  | exhausted cur name rest target hdir hname =>
    have hmany : linksFollowed + 1 > 40 := by
      unfold maxLinks at hlinks
      omega
    simp only [resolving, hname, walk_link_zero hdir hname, if_pos hmany]
    simp
  | link links cur name rest target hdir hname ih =>
    have hfew : ¬ linksFollowed + 1 > 40 := by
      unfold maxLinks at hlinks
      omega
    have hnext : links + (linksFollowed + 1) = maxLinks := by omega
    simp only [resolving, hname, if_neg hfew]
    rw [ih (linksFollowed + 1) (cur :: dirs) hnext, walk_link_succ hdir hname]
    simp
  | node links cur name rest n hdir hname hnode ih =>
    rw [walk_node hdir hname hnode]
    cases n with
    | link target => exact absurd rfl (hnode target)
    | dir => simp [resolving, hname, ih linksFollowed ((cur ++ [name]) :: dirs) hlinks]
    | file contents => simp [resolving, hname, ih linksFollowed ((cur ++ [name]) :: dirs) hlinks]

/-- The loop finds every location that the resolution stands at. -/
theorem dirsResolvedThrough_eq (files : Files) (path : Path) :
    dirsResolvedThrough files path = (Isolation.dirsResolvedThrough files path).reverse := by
  unfold dirsResolvedThrough
  rw [resolving_eq files maxLinks path [] 0 [] rfl, List.append_nil]
  rfl

private theorem mem_dirsResolvedThrough {files : Files} {path : Path} {p : Location} :
    p ∈ dirsResolvedThrough files path ↔ p ∈ Isolation.dirsResolvedThrough files path := by
  rw [dirsResolvedThrough_eq, List.mem_reverse]

/-- What the kernel's resolution of an absolute path stands at is found, with all above it. -/
theorem ancestors_resolvedThrough {files : Files} {path : Path} {p r : Location}
    (hp : p ∈ (resolve files (.root :: path)).passed) (hr : r <+: p) :
    r ∈ dirsResolvedThrough files (.root :: path) := by
  rw [mem_dirsResolvedThrough]
  have hwalk : p ∈ (walk files false maxLinks [] (.root :: path ++ [])).passed :=
    ((Included.refl files).walk (fun hloose : false = true => nomatch hloose) []).1 p hp
  rw [List.append_nil] at hwalk
  rcases ancestors_passed hwalk hr with hnil | hpassed
  · rw [List.prefix_nil.mp hnil]
    simp [Isolation.dirsResolvedThrough]
  · exact hpassed

end Llamesh.Builds.Cleanup
