import Llamesh.Config.Cookbook
import Llamesh.Instance.PreArgs

/-!
# The model source of a profile

`Profile::validate` (`src/config.rs:987–1060`) looks for a model flag in the arguments of a profile
in any letter case and with white space around it, `build_pre_args`
(`src/node_state/model_index.rs:93–132`) only as it is written. A profile with its own source is
launched with that source unless a flag is written, whatever else the validation takes for one.
-/

namespace Llamesh.Instance.ArgsHash

open Text CookbookFile

/-- What the launch arguments of a profile are built from. -/
def launched (p : CookbookFile.Profile) : ArgsHash.Profile :=
  ⟨p.llamaServerArgs, p.hfRepo, p.hfFile, p.modelPath⟩

/-- The flags that name a model source. -/
def sourceFlags : List String := ["-m", "--model", "-hf", "-hfr", "--hf-repo"]

/-- The scan of `Profile::validate` finds a model flag. `src/config.rs:991–992`. -/
def flagFound (p : CookbookFile.Profile) : Bool :=
  p.hasFlag ["-m", "--model"] || p.hasFlag ["-hf", "-hfr", "--hf-repo"]

/-- An argument is a model flag as it is written, alone or with a value. -/
def WritesSource (arg : String) : Prop :=
  ∃ flag ∈ sourceFlags, arg = flag ∨ ∃ value, arg = flag ++ "=" ++ value

/-- An argument is one of the flags in any letter case, with white space around it or around it and
its value. -/
def SpellsFlag (flags : List String) (arg : String) : Prop :=
  ∃ lead name rest : List Char, arg.toList = lead ++ (name ++ rest) ∧
    (∀ c ∈ lead, isWhitespace c = true) ∧
    (∃ flag ∈ flags, name.map Char.toLower = flag.toList) ∧
    ((∀ c ∈ rest, isWhitespace c = true) ∨ ∃ value, rest = '=' :: value)

/-- The profile without its own source. -/
def withoutSource (profile : ArgsHash.Profile) : ArgsHash.Profile :=
  { profile with hfRepo := none, hfFile := none, modelPath := none }

/-- The profile's own source is added to the arguments that are built without it. -/
def SourceAppended (profile : ArgsHash.Profile) : Prop :=
  ∃ before after, (buildPreArgs (withoutSource profile)).1 = before ++ after ∧
    (buildPreArgs profile).1 = before ++ (modelSource profile ++ after)

/-! ### The two scans -/

section

variable {arg : String} {name : List Char}

private theorem namesOption_iff {names : List String} :
    namesOption arg names = true ↔
      ∃ flag ∈ names, arg = flag ∨ ∃ value, arg = flag ++ "=" ++ value := by
  unfold namesOption
  rw [List.any_eq_true]
  refine exists_congr fun flag => and_congr_right fun _ => ?_
  rw [Bool.or_eq_true, beq_iff_eq, startsWith_iff]
  apply or_congr_right
  constructor
  · rintro ⟨value, hvalue⟩
    refine ⟨String.ofList value, ?_⟩
    rw [← String.toList_inj, ← hvalue]
    simp
  · rintro ⟨value, rfl⟩
    simp

private theorem namesSource_iff : namesSource arg = true ↔ WritesSource arg := by
  have hboth : namesSource arg = namesOption arg sourceFlags := by
    unfold namesSource isModelArg isHfRepoArg namesOption sourceFlags
    simp only [List.any_cons, List.any_nil, Bool.or_false, Bool.or_assoc]
  rw [hboth, namesOption_iff]
  rfl

/-- No character of a flag is white space, in any letter case. -/
theorem isWhitespace_of_mem_name {flag : String} (hflag : flag ∈ sourceFlags)
    (hname : name.map Char.toLower = flag.toList) : ∀ c ∈ name, isWhitespace c = false := by
  have hvisible : ∀ flag ∈ sourceFlags,
      (flag.toList.all fun c => !isWhitespace c) = true := by
    decide
  intro c hc
  rw [Bool.eq_false_iff]
  intro hwhite
  have hlower : c.toLower ∈ flag.toList := by
    rw [← hname]
    exact List.mem_map_of_mem hc
  rw [toLower_of_isWhitespace hwhite] at hlower
  rw [isWhitespace_of_all (hvisible flag hflag) c hlower] at hwhite
  cases hwhite

private theorem ne_nil_of_name {flag : String} (hflag : flag ∈ sourceFlags)
    (hname : name.map Char.toLower = flag.toList) : name ≠ [] := by
  have hne : ∀ flag ∈ sourceFlags, flag.toList ≠ [] := by decide
  rintro rfl
  exact hne flag hflag hname.symm

/-- What one argument is for the scan of the validation. -/
theorem flag_normalized_iff {needles : List String} (hsub : needles ⊆ sourceFlags) :
    (needles.any fun needle =>
        (trim arg.toList).map Char.toLower == needle.toList ||
          (needle.toList ++ ['=']).isPrefixOf ((trim arg.toList).map Char.toLower)) = true ↔
      SpellsFlag needles arg := by
  rw [List.any_eq_true]
  constructor
  · rintro ⟨flag, hflag, hscan⟩
    obtain ⟨lead, trail, hlist, hlead, htrail⟩ := exists_trim arg.toList
    rw [Bool.or_eq_true, beq_iff_eq, List.isPrefixOf_iff_prefix] at hscan
    obtain heq | ⟨tail, htail⟩ := hscan
    · exact ⟨lead, trim arg.toList, trail, hlist, hlead, ⟨flag, hflag, heq⟩, .inl htrail⟩
    · rw [List.append_assoc] at htail
      obtain ⟨name, rest, htrim, hname, hrest⟩ := List.map_eq_append_iff.mp htail.symm
      obtain ⟨e, value, rfl, he, -⟩ := List.map_eq_cons_iff.mp hrest
      obtain rfl : e = '=' := (toLower_eq_iff_of_not_isAlpha (by decide)).mp he
      rw [htrim, List.append_assoc] at hlist
      exact ⟨lead, name, '=' :: value ++ trail, hlist, hlead, ⟨flag, hflag, hname⟩,
        .inr ⟨value ++ trail, rfl⟩⟩
  · rintro ⟨lead, name, rest, hlist, hlead, ⟨flag, hflag, hname⟩, hrest⟩
    refine ⟨flag, hflag, ?_⟩
    have hcore := isWhitespace_of_mem_name (hsub hflag) hname
    rw [hlist]
    obtain hwhite | ⟨value, rfl⟩ := hrest
    · rw [trim_padded hcore hlead hwhite, hname]
      simp
    · rw [trim_append_left hlead,
        trim_append_cons hcore (ne_nil_of_name (hsub hflag) hname) (by decide), List.map_append,
        hname]
      simp

private theorem spellsFlag_append {xs ys : List String} :
    SpellsFlag (xs ++ ys) arg ↔ SpellsFlag xs arg ∨ SpellsFlag ys arg := by
  constructor
  · rintro ⟨lead, name, rest, hlist, hlead, ⟨flag, hflag, hname⟩, hrest⟩
    obtain hflag | hflag := List.mem_append.mp hflag
    · exact .inl ⟨lead, name, rest, hlist, hlead, ⟨flag, hflag, hname⟩, hrest⟩
    · exact .inr ⟨lead, name, rest, hlist, hlead, ⟨flag, hflag, hname⟩, hrest⟩
  · rintro (⟨lead, name, rest, hlist, hlead, ⟨flag, hflag, hname⟩, hrest⟩ |
      ⟨lead, name, rest, hlist, hlead, ⟨flag, hflag, hname⟩, hrest⟩)
    · exact ⟨lead, name, rest, hlist, hlead, ⟨flag, List.mem_append_left _ hflag, hname⟩, hrest⟩
    · exact ⟨lead, name, rest, hlist, hlead, ⟨flag, List.mem_append_right _ hflag, hname⟩, hrest⟩

/-- The scan of the validation finds a flag exactly when an argument spells one. -/
theorem flagFound_iff (p : CookbookFile.Profile) :
    flagFound p = true ↔ ∃ arg ∈ p.llamaServerArgs, SpellsFlag sourceFlags arg := by
  have hscan : ∀ {needles : List String}, needles ⊆ sourceFlags →
      (p.hasFlag needles = true ↔ ∃ arg ∈ p.llamaServerArgs, SpellsFlag needles arg) := by
    intro needles hsub
    rw [Profile.hasFlag, List.any_eq_true]
    exact exists_congr fun arg => and_congr_right fun _ => flag_normalized_iff hsub
  have hflags : sourceFlags = ["-m", "--model"] ++ ["-hf", "-hfr", "--hf-repo"] := rfl
  rw [flagFound, Bool.or_eq_true, hscan (by decide), hscan (by decide), hflags, ← exists_or]
  refine exists_congr fun arg => ?_
  rw [spellsFlag_append, and_or_left]

/-- A flag as it is written is spelled so too. -/
theorem WritesSource.spells (h : WritesSource arg) : SpellsFlag sourceFlags arg := by
  have hlower : ∀ flag ∈ sourceFlags, flag.toList.map Char.toLower = flag.toList := by decide
  obtain ⟨flag, hflag, rfl | ⟨value, rfl⟩⟩ := h
  · exact ⟨[], arg.toList, [], by simp, by simp, ⟨arg, hflag, hlower arg hflag⟩, .inl (by simp)⟩
  · exact ⟨[], flag.toList, '=' :: value.toList, by simp, by simp,
      ⟨flag, hflag, hlower flag hflag⟩, .inr ⟨value.toList, rfl⟩⟩

end

/-! ### The source that is launched -/

section

variable {profile : ArgsHash.Profile}

private theorem any_namesSource_iff :
    profile.llamaServerArgs.any namesSource = true ↔
      ∃ arg ∈ profile.llamaServerArgs, WritesSource arg := by
  rw [List.any_eq_true]
  exact exists_congr fun arg => and_congr_right fun _ => namesSource_iff

/-- The arguments with and without the profile's own source. -/
theorem exists_built (profile : ArgsHash.Profile) :
    ∃ before after, (buildPreArgs (withoutSource profile)).1 = before ++ after ∧
      (buildPreArgs profile).1 = before ++ ((if profile.llamaServerArgs.any namesSource then []
        else modelSource profile) ++ after) := by
  refine ⟨profile.llamaServerArgs.flatMap expandArg,
    (if profile.llamaServerArgs.any isCtxSizeArg then [] else ["-c", "0"]) ++
      (if profile.llamaServerArgs.any isFitArg then [] else ["--fit", "off"]), ?_, ?_⟩
  · rw [buildPreArgs_args, appended, appendedUnless]
    have hnone : modelSource (withoutSource profile) = [] := rfl
    rw [hnone, ite_self, List.nil_append]
    rfl
  · rw [buildPreArgs_args, appended, appendedUnless, List.append_assoc]

/-- The profile's own source is appended exactly when no flag is written. -/
theorem sourceAppended_iff (hsource : modelSource profile ≠ []) :
    SourceAppended profile ↔ ∀ arg ∈ profile.llamaServerArgs, ¬ WritesSource arg := by
  obtain ⟨before, after, hwithout, hwith⟩ := exists_built profile
  cases hany : profile.llamaServerArgs.any namesSource with
  | true =>
    rw [hany] at hwith
    obtain ⟨arg, harg, hwrites⟩ := any_namesSource_iff.mp hany
    refine iff_of_false ?_ fun h => h arg harg hwrites
    rintro ⟨before', after', hwithout', hwith'⟩
    have hlength : (modelSource profile).length = 0 := by
      have hplain := congrArg List.length (hwithout.symm.trans hwithout')
      have hown := congrArg List.length (hwith.symm.trans hwith')
      simp only [if_true, List.length_append, List.length_nil] at hplain hown
      omega
    exact hsource (List.length_eq_zero_iff.mp hlength)
  | false =>
    rw [hany] at hwith
    refine iff_of_true ⟨before, after, hwithout, hwith⟩ fun arg harg hwrites => ?_
    rw [any_namesSource_iff.mpr ⟨arg, harg, hwrites⟩] at hany
    cases hany

private theorem modelSource_ne_nil_iff :
    modelSource profile ≠ [] ↔ profile.hfRepo.isSome = true ∨ profile.modelPath.isSome = true := by
  obtain ⟨args, hfRepo, hfFile, modelPath⟩ := profile
  cases hfRepo <;> cases modelPath <;> simp [modelSource]

private theorem exists_flag_of_modelSource (h : modelSource profile ≠ []) :
    ∃ arg ∈ modelSource profile, arg ∈ sourceFlags := by
  obtain ⟨args, hfRepo, hfFile, modelPath⟩ := profile
  cases hfRepo with
  | some repo => exact ⟨"-hfr", List.mem_append_left _ List.mem_cons_self, by decide⟩
  | none =>
    cases modelPath with
    | some path => exact ⟨"-m", List.mem_cons_self, by decide⟩
    | none => exact absurd rfl h

/-- A written flag is one of the arguments it is expanded to. -/
theorem WritesSource.exists_mem_expandArg {arg : String} (h : WritesSource arg) :
    ∃ flag ∈ expandArg arg, flag ∈ sourceFlags := by
  have hall : ∀ flag ∈ sourceFlags, startsWith flag "-" = true ∧ '=' ∉ flag.toList := by decide
  obtain ⟨flag, hflag, rfl | ⟨value, rfl⟩⟩ := h
  · refine ⟨arg, ?_, hflag⟩
    rw [expandArg_bare (hall arg hflag).2]
    exact List.mem_cons_self
  · refine ⟨flag, ?_, hflag⟩
    rw [expandArg_joined value (hall flag hflag).1 (hall flag hflag).2]
    exact List.mem_cons_self

/-- The built arguments name a source when one is written or the profile has its own. -/
theorem exists_source_flag
    (h : modelSource profile ≠ [] ∨ ∃ arg ∈ profile.llamaServerArgs, WritesSource arg) :
    ∃ arg ∈ (buildPreArgs profile).1, arg ∈ sourceFlags := by
  by_cases hwritten : ∃ arg ∈ profile.llamaServerArgs, WritesSource arg
  · obtain ⟨arg, harg, hwrites⟩ := hwritten
    obtain ⟨flag, hmem, hflag⟩ := hwrites.exists_mem_expandArg
    refine ⟨flag, ?_, hflag⟩
    rw [buildPreArgs_args]
    exact List.mem_append_left _ (List.mem_flatMap.mpr ⟨arg, harg, hmem⟩)
  · obtain hsource | hwritten' := h
    · obtain ⟨flag, hmem, hflag⟩ := exists_flag_of_modelSource hsource
      obtain ⟨before, after, -, hbuilt⟩ := exists_built profile
      rw [if_neg (by rwa [any_namesSource_iff])] at hbuilt
      refine ⟨flag, ?_, hflag⟩
      rw [hbuilt]
      exact List.mem_append_right _ (List.mem_append_left _ hmem)
    · exact absurd hwritten' hwritten

end

/-- An accepted profile has its own source or spells a flag. -/
theorem source_of_validate {p : CookbookFile.Profile} {modelName : String}
    (h : p.validate modelName = .ok ()) :
    modelSource (launched p) ≠ [] ∨ flagFound p = true := by
  by_contra hnone
  rw [not_or, modelSource_ne_nil_iff, not_or] at hnone
  obtain ⟨⟨hrepo, hpath⟩, hflag⟩ := hnone
  rw [flagFound, Bool.or_eq_true, not_or] at hflag
  have hrepo' : p.hfRepo.isSome = false := Bool.eq_false_iff.mpr hrepo
  have hpath' : p.modelPath.isSome = false := Bool.eq_false_iff.mpr hpath
  unfold Profile.validate at h
  simp only [hrepo', hpath', Bool.eq_false_iff.mpr hflag.1, Bool.eq_false_iff.mpr hflag.2,
    Bool.not_false, Bool.and_true, if_true] at h
  cases h

/-- The flags that `build_pre_args` reports. -/
theorem buildPreArgs_flags_iff (profile : ArgsHash.Profile) :
    ((buildPreArgs profile).2.1 || (buildPreArgs profile).2.2) = true ↔
      ∃ arg ∈ profile.llamaServerArgs, WritesSource arg := by
  rw [← any_namesSource_iff, any_namesSource]
  simp only [buildPreArgs, foldl_track, Bool.false_or]

/-- For an accepted profile the validation finds a model flag in the arguments that spell one,
`build_pre_args` only in those that write one, which spell it too. The profile's own source is
launched unless a flag is written, and some source is launched if the profile has its own or writes
a flag; if it does neither, it spells one. -/
theorem launched_source_of_accepted (p : CookbookFile.Profile) (modelName : String)
    (h : p.validate modelName = .ok ()) :
    (flagFound p = true ↔ ∃ arg ∈ p.llamaServerArgs, SpellsFlag sourceFlags arg) ∧
      (((buildPreArgs (launched p)).2.1 || (buildPreArgs (launched p)).2.2) = true ↔
        ∃ arg ∈ p.llamaServerArgs, WritesSource arg) ∧
      (∀ arg ∈ p.llamaServerArgs, WritesSource arg → SpellsFlag sourceFlags arg) ∧
      (p.hfRepo.isSome = true ∨ p.modelPath.isSome = true →
        (SourceAppended (launched p) ↔ ∀ arg ∈ p.llamaServerArgs, ¬ WritesSource arg)) ∧
      ((p.hfRepo.isSome = true ∨ p.modelPath.isSome = true) ∨
          (∃ arg ∈ p.llamaServerArgs, WritesSource arg) →
        ∃ arg ∈ (buildPreArgs (launched p)).1, arg ∈ sourceFlags) ∧
      ((p.hfRepo.isSome = true ∨ p.modelPath.isSome = true) ∨
        ∃ arg ∈ p.llamaServerArgs, SpellsFlag sourceFlags arg) := by
  refine ⟨flagFound_iff p, buildPreArgs_flags_iff (launched p), fun arg _ hwrites => hwrites.spells,
    fun hown => ?_, fun hcase => ?_, ?_⟩
  · apply sourceAppended_iff
    exact modelSource_ne_nil_iff.mpr hown
  · apply exists_source_flag
    exact hcase.imp_left modelSource_ne_nil_iff.mpr
  · exact (source_of_validate h).imp modelSource_ne_nil_iff.mp (flagFound_iff p).mp

/-- A profile with its own model and the given arguments. -/
def profileWithArgs (args : List String) : CookbookFile.Profile :=
  { id := "default", modelPath := some "/tmp/model.gguf", llamaServerArgs := args }

/-- With `-m` in the arguments the profile's own model is left out. -/
theorem written_model_launched :
    (profileWithArgs ["-m", "./other.gguf"]).validate "test" = .ok () ∧
      ¬ SourceAppended (launched (profileWithArgs ["-m", "./other.gguf"])) := by
  have hvalid : (profileWithArgs ["-m", "./other.gguf"]).validate "test" = .ok () := by
    decide +kernel
  refine ⟨hvalid, fun happended => ?_⟩
  have hnone := ((launched_source_of_accepted _ "test" hvalid).2.2.2.1 (.inr rfl)).mp happended
  exact hnone "-m" List.mem_cons_self ⟨"-m", by decide, .inl rfl⟩

/-- A profile without a model of its own and the given arguments. -/
def profileOfArgs (args : List String) : CookbookFile.Profile :=
  { id := "default", llamaServerArgs := args }

/-- The validation takes `-M` for a model flag. Without another source none is launched, and next to
it the profile's own model is. -/
theorem uppercase_flag_not_launched :
    (¬ ∀ (p : CookbookFile.Profile) (modelName : String), p.validate modelName = .ok () →
      ∃ arg ∈ (buildPreArgs (launched p)).1, arg ∈ sourceFlags) ∧
    ¬ ∀ (p : CookbookFile.Profile) (modelName : String), p.validate modelName = .ok () →
      (SourceAppended (launched p) ↔ flagFound p = false) := by
  refine ⟨fun h => ?_, fun h => ?_⟩
  · have hvalid : (profileOfArgs ["-M", "./other.gguf"]).validate "test" = .ok () := by
      decide +kernel
    have hbuilt : (buildPreArgs (launched (profileOfArgs ["-M", "./other.gguf"]))).1 =
        ["-M", "./other.gguf", "-c", "0", "--fit", "off"] := by
      decide
    obtain ⟨arg, harg, hflag⟩ := h _ "test" hvalid
    rw [hbuilt] at harg
    revert arg
    decide
  · have hvalid : (profileWithArgs ["-M", "./other.gguf"]).validate "test" = .ok () := by
      decide +kernel
    have happended : SourceAppended (launched (profileWithArgs ["-M", "./other.gguf"])) :=
      ⟨["-M", "./other.gguf"], ["-c", "0", "--fit", "off"], by decide, by decide⟩
    have hnone := (h _ "test" hvalid).mp happended
    exact absurd hnone (by decide)

end Llamesh.Instance.ArgsHash
