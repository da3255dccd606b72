import Llamesh.Builds.Call

/-!
# Versions read off build directories

`split_managed_build_name` (`src/build_manager.rs:875–890`) takes the name of a
build directory apart: at its last `-`, and what follows at its first `_`. The
base name may hold both characters and anything that looks like a commit. The
clean-up decides by the base that is split off, and the version of a running
binary is the commit (`src/build_manager.rs:793–798`).
-/

namespace Llamesh.Builds

open FileSystem Isolation

/-- `Path::parent`. -/
def parent (path : Path) : Option Path :=
  match path.getLast? with
  | none => none
  | some .root => none
  | some _ => some path.dropLast

/-- `Path::file_name`. -/
def fileName (path : Path) : Option (List Char) :=
  match path.getLast? with
  | some (.normal name) => some name
  | _ => none

/-- The commit in the name of the directory of the resolved binary. `src/build_manager.rs:793–798`.
-/
def versionFromResolvedBinary (path : Path) : Option (List Char) :=
  (parent path).bind fun binDir =>
    (parent binDir).bind fun dir =>
      (fileName dir).bind fun buildDir => (splitManagedBuildName buildDir).map (·.2)

/-- Eight lower case hex digits. -/
structure IsInputsId (id : List Char) : Prop where
  length : id.length = 8
  hex : id.all isLowerHex

/-- A commit as `git rev-parse --short` prints it, of four digits or more. -/
structure IsCommit (commit : List Char) : Prop where
  length : 4 ≤ commit.length
  hex : commit.all isHexDigit

section

variable {name base commit id : List Char}

private theorem isHexDigit_of_mem (h : commit.all isHexDigit) {c : Char} (hc : c ∈ commit) :
    isHexDigit c := List.all_eq_true.mp h c hc

private theorem notMem_of_hex (h : commit.all isHexDigit) : '-' ∉ commit ∧ '_' ∉ commit := by
  constructor
  · intro hc
    exact absurd (isHexDigit_of_mem h hc) (by decide)
  · intro hc
    exact absurd (isHexDigit_of_mem h hc) (by decide)

private theorem IsInputsId.dash_notMem (h : IsInputsId id) : '-' ∉ id := by
  intro hc
  exact absurd (List.all_eq_true.mp h.hex '-' hc) (by decide)

/-- The names that are taken apart, and into what. -/
theorem splitManagedBuildName_eq_some_iff :
    splitManagedBuildName name = some (base, commit) ↔
      IsCommit commit ∧ (name = base ++ '-' :: commit ∨
        ∃ id, IsInputsId id ∧ name = base ++ '-' :: (commit ++ '_' :: id)) := by
  unfold splitManagedBuildName
  constructor
  · intro hparts
    obtain ⟨⟨before, identity⟩, hsplit, hidentity⟩ := Option.bind_eq_some_iff.mp hparts
    obtain ⟨hname, -⟩ := Text.rsplitOnce_eq_some_iff.mp hsplit
    obtain ⟨digits, hdigits, h⟩ := Option.bind_eq_some_iff.mp hidentity
    by_cases hcommit : (4 ≤ digits.length && digits.all isHexDigit) = true
    · rw [if_pos hcommit, Option.some.injEq, Prod.mk.injEq] at h
      obtain ⟨rfl, rfl⟩ := h
      rw [Bool.and_eq_true, decide_eq_true_eq] at hcommit
      refine ⟨⟨hcommit.1, hcommit.2⟩, ?_⟩
      split at hdigits
      · next first id hid =>
        obtain ⟨hcut, -⟩ := Text.splitOnce_eq_some_iff.mp hid
        by_cases hbad : (id.length ≠ 8 || !id.all isLowerHex) = true
        · rw [if_pos hbad] at hdigits
          cases hdigits
        · rw [if_neg hbad, Option.some.injEq] at hdigits
          subst hdigits
          simp only [Bool.or_eq_true, decide_eq_true_eq, Bool.not_eq_true', not_or, not_not,
            Bool.not_eq_false] at hbad
          exact .inr ⟨id, ⟨hbad.1, hbad.2⟩, by rw [hname, hcut]⟩
      · exact .inl (by rw [hname, Option.some.inj hdigits])
    · rw [if_neg hcommit] at h
      cases h
  · rintro ⟨hcommit, hname⟩
    obtain ⟨hdash, hunderscore⟩ := notMem_of_hex hcommit.hex
    have hgood : (4 ≤ commit.length && commit.all isHexDigit) = true := by
      rw [hcommit.hex, Bool.and_true, decide_eq_true hcommit.length]
    obtain rfl | ⟨id, hid, rfl⟩ := hname
    · have hsplit : Text.rsplitOnce '-' (base ++ '-' :: commit) = some (base, commit) :=
        Text.rsplitOnce_eq_some_iff.mpr ⟨rfl, hdash⟩
      have hidentity : Text.splitOnce '_' commit = none :=
        Text.splitOnce_eq_none_iff.mpr hunderscore
      rw [hsplit, Option.bind_some]
      dsimp only
      rw [hidentity, Option.bind_some, if_pos hgood]
    · have hsplit : Text.rsplitOnce '-' (base ++ '-' :: (commit ++ '_' :: id)) =
          some (base, commit ++ '_' :: id) := by
        refine Text.rsplitOnce_eq_some_iff.mpr ⟨rfl, ?_⟩
        simp [hdash, hid.dash_notMem]
      have hcheck : ¬ (id.length ≠ 8 || !id.all isLowerHex) = true := by
        simp [hid.length, hid.hex]
      rw [hsplit, Option.bind_some]
      dsimp only
      rw [Text.splitOnce_append hunderscore]
      dsimp only
      rw [if_neg hcheck, Option.bind_some, if_pos hgood]

/-- The version is the commit in the name of the directory above `bin`. -/
theorem versionFromResolvedBinary_binaryIn (dir : Path) (name : List Char) :
    versionFromResolvedBinary (binaryIn (dir ++ [.normal name])) =
      (splitManagedBuildName name).map (·.2) := by
  have hbin : binaryIn (dir ++ [.normal name]) =
      dir ++ [.normal name] ++ [.normal "bin".toList] ++ [.normal "llama-server".toList] := by
    simp [binaryIn]
  have hparent : ∀ (path : Path) (last : List Char),
      parent (path ++ [.normal last]) = some path := by
    intro path last
    simp [parent]
  rw [versionFromResolvedBinary, hbin, hparent, Option.bind_some, hparent, Option.bind_some]
  simp [fileName]

end

/-- An inputs id is one as a name has it. -/
theorem isInputsId_buildInputsId (sha256 : List UInt8 → Vector UInt8 32)
    (toVec : BuildInputs → List UInt8) (inputs : BuildInputs) :
    IsInputsId (buildInputsId sha256 toVec inputs) where
  length := by
    have hlength : ∀ octets : List UInt8, (lowerHex octets).length = 2 * octets.length := by
      intro octets
      simp [lowerHex, List.length_flatMap, Nat.mul_comm]
    rw [buildInputsId, List.length_take, hlength, Vector.length_toList]
    decide
  hex := by
    rw [List.all_eq_true]
    intro c hc
    exact isLowerHex_of_mem_lowerHex (List.mem_of_mem_take hc)

/-- The names of both kinds of build directories are taken apart into the base and the commit they
were made of, so that the version of a binary in them is the commit. Every name that is taken apart
is of one of the two kinds. -/
theorem managed_names_round_trip (sha256 : List UInt8 → Vector UInt8 32)
    (toVec : BuildInputs → List UInt8) (inputs : BuildInputs) (base : List Char) (commit : Commit)
    (hcommit : 4 ≤ commit.digits.length) :
    (∀ name ∈ [legacyName base commit,
        buildDirName base commit (buildInputsId sha256 toVec inputs)],
      splitManagedBuildName name = some (base, commit.digits) ∧
        ∀ dir : Path, versionFromResolvedBinary (binaryIn (dir ++ [.normal name])) =
          some commit.digits) ∧
      ∀ name base' commit', splitManagedBuildName name = some (base', commit') →
        IsCommit commit' ∧ (name = base' ++ '-' :: commit' ∨
          ∃ id, IsInputsId id ∧ name = base' ++ '-' :: (commit' ++ '_' :: id)) := by
  have hid := isInputsId_buildInputsId sha256 toVec inputs
  refine ⟨fun name hname => ?_, fun name base' commit' => splitManagedBuildName_eq_some_iff.mp⟩
  have hsplit : splitManagedBuildName name = some (base, commit.digits) := by
    rw [splitManagedBuildName_eq_some_iff]
    refine ⟨⟨hcommit, commit.hex⟩, ?_⟩
    rw [List.mem_cons, List.mem_singleton] at hname
    obtain rfl | rfl := hname
    · exact .inl rfl
    · exact .inr ⟨_, hid, by simp [buildDirName, legacyName]⟩
  refine ⟨hsplit, fun dir => ?_⟩
  rw [versionFromResolvedBinary_binaryIn, hsplit, Option.map_some]

/-- A base that ends like a build name itself. -/
theorem managed_names_round_trip_nested :
    4 ≤ "abc1234".toList.length ∧
      splitManagedBuildName (legacyName "build-beef_0".toList ⟨"abc1234".toList, rfl⟩) =
        some ("build-beef_0".toList, "abc1234".toList) := by
  have hlength : 4 ≤ "abc1234".toList.length := by decide
  exact ⟨hlength, ((managed_names_round_trip (fun _ => Vector.replicate 32 0) (fun _ => []) ⟨[], []⟩
    "build-beef_0".toList ⟨"abc1234".toList, rfl⟩ hlength).1 _ List.mem_cons_self).1⟩

end Llamesh.Builds
