import Llamesh.Library.Text
import Llamesh.Library.Utf8
import Mathlib.Data.List.Basic

/-!
# Build directories and the choice between them

`BuildManager` (`src/build_manager.rs`) builds a commit in a directory whose name
carries the commit and an id of the build arguments. Earlier versions left the id
out. Such a legacy directory is used again when its stamp names the arguments, or
once without a stamp when it holds the live binary.
-/

namespace Llamesh.Builds

/-! ### Names -/

/-- `u8::is_ascii_digit`, or a lower case hex letter. -/
def isLowerHex (c : Char) : Bool := c.isDigit || ('a' ≤ c && c ≤ 'f')

/-- `char::is_ascii_hexdigit`. -/
def isHexDigit (c : Char) : Bool := isLowerHex c || ('A' ≤ c && c ≤ 'F')

/-- What `git rev-parse --short HEAD` prints: hex digits. -/
structure Commit where
  digits : List Char
  hex : digits.all isHexDigit

/-- `build_args` and `build_command_args` of `LlamaCppConfig`. -/
structure BuildInputs where
  buildArgs : List String
  buildCommandArgs : List String
  deriving DecidableEq, Repr

/-- The text of `format!("{:x}", digest)`. -/
def lowerHex (octets : List UInt8) : List Char :=
  octets.flatMap fun b => [Nat.digitChar (b.toNat / 16), Nat.digitChar (b.toNat % 16)]

/-- The first eight hex digits of the hash of the arguments, which are written as JSON. The hash
and the JSON writer are parameters. `src/build_manager.rs:383–387`. -/
def buildInputsId (sha256 : List UInt8 → Vector UInt8 32) (toVec : BuildInputs → List UInt8)
    (inputs : BuildInputs) : List Char :=
  (lowerHex (sha256 (toVec inputs)).toList).take 8

/-- The directory of a commit in earlier versions, and what `strip_suffix` leaves of the name of
the suffixed one. `src/build_manager.rs:403`. -/
def legacyName (base : List Char) (commit : Commit) : List Char := base ++ '-' :: commit.digits

/-- The name of the directory of a commit and an inputs id. `src/build_manager.rs:367–381`. -/
def buildDirName (base : List Char) (commit : Commit) (inputsId : List Char) : List Char :=
  legacyName base commit ++ '_' :: inputsId

/-- The commit and the inputs in the name of a build directory. `src/build_manager.rs:875–890`. -/
def splitManagedBuildName (name : List Char) : Option (List Char × List Char) :=
  (Text.rsplitOnce '-' name).bind fun (base, identity) =>
    let commit :=
      match Text.splitOnce '_' identity with
      | some (commit, inputsId) =>
        if inputsId.length ≠ 8 || !inputsId.all isLowerHex then none else some commit
      | none => some identity
    commit.bind fun commit =>
      if 4 ≤ commit.length && commit.all isHexDigit then some (base, commit) else none

/-! ### Selection -/

/-- The outcome of reading the stamp. -/
inductive StampRead where
  | contents (octets : List UInt8)
  | notFound
  | failed
  deriving DecidableEq, Repr

/-- What `select_build_dir` reads: the suffixed binary and the check of it, the stamp of the legacy
directory, whether there is no file or link of that name, whether the binary path already leads to
the legacy binary, and the check of that one. -/
structure Observed where
  built : Bool
  verified : Bool
  stamp : StampRead
  stampMissing : Bool
  current : Bool
  legacyVerified : Bool
  deriving DecidableEq, Repr

/-- The directory a run goes on with: a verified build of its own, a legacy build, which may have to
be stamped, or its own directory to build in. -/
inductive Selection where
  | reuse
  | legacy (adopt : Bool)
  | build
  deriving DecidableEq, Repr

/-- A live legacy build without a stamp is taken to be of the current arguments.
`src/build_manager.rs:410–415`. -/
def Observed.adopt (o : Observed) : Bool :=
  o.stamp == .notFound && o.stampMissing && o.current

/-- Whether the stamp of a legacy build is that of the inputs, or may be added.
`src/build_manager.rs:407–418`. -/
def Observed.stampMatches (o : Observed) (inputsId : List Char) : Bool :=
  match o.stamp with
  | .contents octets => octets == Text.utf8Encode inputsId
  | .notFound => o.adopt
  | .failed => false

/-- Which build serves the commit, or that one is to be made. `src/build_manager.rs:390–431`. -/
def selectBuildDir (inputsId : List Char) (o : Observed) : Selection :=
  if o.built && o.verified then .reuse
  else if o.stampMatches inputsId && o.legacyVerified then .legacy o.adopt
  else .build

/-! ### What the names and the selection determine -/

private theorem isLowerHex_digitChar : ∀ n < 16, isLowerHex (Nat.digitChar n) := by decide

/-- The digits of a hash are lower case hex digits. -/
theorem isLowerHex_of_mem_lowerHex {octets : List UInt8} {c : Char} (h : c ∈ lowerHex octets) :
    isLowerHex c := by
  obtain ⟨b, -, hc⟩ := List.mem_flatMap.mp h
  have hb := b.toNat_lt
  simp only [List.mem_cons, List.not_mem_nil, or_false] at hc
  rcases hc with rfl | rfl
  · exact isLowerHex_digitChar _ (by omega)
  · exact isLowerHex_digitChar _ (by omega)

/-- There is no underscore in an inputs id. -/
theorem underscore_notMem_buildInputsId (sha256 : List UInt8 → Vector UInt8 32)
    (toVec : BuildInputs → List UInt8) (inputs : BuildInputs) :
    '_' ∉ buildInputsId sha256 toVec inputs := by
  intro h
  have hex := isLowerHex_of_mem_lowerHex (List.mem_of_mem_take h)
  exact absurd hex (by decide)

/-- There is no underscore in a commit. -/
theorem Commit.underscore_notMem (commit : Commit) : '_' ∉ commit.digits := by
  intro h
  have hex := List.all_eq_true.mp commit.hex '_' h
  exact absurd hex (by decide)

/-- The name of a suffixed directory determines the id in it. -/
theorem inputsId_of_buildDirName {base : List Char} {commit commit' : Commit} {i j : List Char}
    (hi : '_' ∉ i) (hj : '_' ∉ j)
    (h : buildDirName base commit i = buildDirName base commit' j) : i = j := by
  have hsplit : Text.rsplitOnce '_' (buildDirName base commit i) =
      some (legacyName base commit, i) :=
    Text.rsplitOnce_eq_some_iff.mpr ⟨rfl, hi⟩
  have hsplit' : Text.rsplitOnce '_' (buildDirName base commit' j) =
      some (legacyName base commit', j) :=
    Text.rsplitOnce_eq_some_iff.mpr ⟨rfl, hj⟩
  rw [h, hsplit'] at hsplit
  exact (Prod.mk.inj (Option.some.inj hsplit)).2.symm

/-- No suffixed directory has the name of a legacy one. -/
theorem buildDirName_ne_legacyName {base : List Char} {commit commit' : Commit} {i : List Char} :
    buildDirName base commit i ≠ legacyName base commit' := by
  intro h
  simp only [buildDirName, legacyName, List.append_assoc, List.append_cancel_left_eq,
    List.cons_append, List.cons.injEq, true_and] at h
  apply commit'.underscore_notMem
  rw [← h]
  simp

end Llamesh.Builds
