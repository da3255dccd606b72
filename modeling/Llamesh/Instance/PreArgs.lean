import Llamesh.Instance.ArgsHash

/-!
# The arguments of a profile and their hash

`build_pre_args` and `args_hash_for_profile`
(`src/node_state/model_index.rs:71–149,178–181`). The arguments of the cookbook
are expanded to separate names and values before they are hashed, and defaults
are appended for what they do not give. Host and port options drop out of the
hash wherever they stand.
-/

namespace Llamesh.Instance.ArgsHash

open Text

/-- The part of a profile its launch arguments are built from. `src/config.rs:888–912`. -/
structure Profile where
  llamaServerArgs : List String
  hfRepo : Option String
  hfFile : Option String
  modelPath : Option String
  deriving DecidableEq, Repr

/-- Expand `key=value` to separate arguments. `src/node_state/model_index.rs:81–91`. -/
def expandArg (arg : String) : List String :=
  if (startsWith arg "--" || startsWith arg "-") && arg.toList.contains '=' then
    match splitOnce '=' arg.toList with
    | some (flag, val) => [String.ofList flag, String.ofList val]
    | none => [arg]
  else [arg]

/-- An argument names an option, alone or with a value. -/
def namesOption (arg : String) (names : List String) : Bool :=
  names.any fun name => arg == name || startsWith arg (name ++ "=")

/-- `-m` or `--model`. `src/node_state/model_index.rs:94`. -/
def isModelArg (arg : String) : Bool := namesOption arg ["-m", "--model"]

/-- `-hf`, `-hfr` or `--hf-repo`. `src/node_state/model_index.rs:98–103`. -/
def isHfRepoArg (arg : String) : Bool := namesOption arg ["-hf", "-hfr", "--hf-repo"]

/-- `-c` or `--ctx-size`. `src/node_state/model_index.rs:107–110`. -/
def isCtxSizeArg (arg : String) : Bool := namesOption arg ["-c", "--ctx-size"]

/-- `-fit` or `--fit`. `src/node_state/model_index.rs:114`. -/
def isFitArg (arg : String) : Bool := namesOption arg ["-fit", "--fit"]

/-- The variables of the loop. `src/node_state/model_index.rs:74–78`. -/
structure PreArgs where
  args : List String
  modelArgPresent : Bool
  hfRepoArgPresent : Bool
  ctxSizePresent : Bool
  fitPresent : Bool
  deriving DecidableEq, Repr

/-- One argument of the profile. `src/node_state/model_index.rs:80–118`. -/
def PreArgs.track (s : PreArgs) (arg : String) : PreArgs where
  args := s.args ++ expandArg arg
  modelArgPresent := s.modelArgPresent || isModelArg arg
  hfRepoArgPresent := s.hfRepoArgPresent || isHfRepoArg arg
  ctxSizePresent := s.ctxSizePresent || isCtxSizeArg arg
  fitPresent := s.fitPresent || isFitArg arg

/-- The arguments that name a model source when the profile's own do not.
`src/node_state/model_index.rs:121–132`. -/
def modelSource (profile : Profile) : List String :=
  match profile.hfRepo, profile.modelPath with
  | some hfRepo, _ =>
    ["-hfr", hfRepo] ++ match profile.hfFile with
      | some hfFile => ["-hff", hfFile]
      | none => []
  | none, some modelPath => ["-m", modelPath]
  | none, none => []

/-- What is appended after the loop. `src/node_state/model_index.rs:120–146`. -/
def PreArgs.defaults (s : PreArgs) (profile : Profile) : List String :=
  (if !s.modelArgPresent && !s.hfRepoArgPresent then modelSource profile else []) ++
    (if !s.ctxSizePresent then ["-c", "0"] else []) ++
    (if !s.fitPresent then ["--fit", "off"] else [])

/-- The arguments without host and port, and whether a model and a repository are among the
profile's own. `src/node_state/model_index.rs:73–149`. -/
def buildPreArgs (profile : Profile) : List String × Bool × Bool :=
  let s := profile.llamaServerArgs.foldl PreArgs.track ⟨[], false, false, false, false⟩
  (s.args ++ s.defaults profile, s.modelArgPresent, s.hfRepoArgPresent)

/-- The hash of the arguments of a profile. `src/node_state/model_index.rs:178–181`. -/
def argsHashForProfile (sha256 : List UInt8 → Vector UInt8 32) (profile : Profile) : String :=
  computeArgsHash sha256 (buildPreArgs profile).1

/-! ### The appended defaults -/

/-- An argument gives the model source. -/
def namesSource (arg : String) : Bool := isModelArg arg || isHfRepoArg arg

/-- The defaults, unless the arguments give the options they are for. -/
def appendedUnless (profile : Profile) (source ctxSize fit : Bool) : List String :=
  (if source then [] else modelSource profile) ++ (if ctxSize then [] else ["-c", "0"]) ++
    (if fit then [] else ["--fit", "off"])

/-- The defaults for what none of the profile's arguments gives. -/
def appended (profile : Profile) : List String :=
  appendedUnless profile (profile.llamaServerArgs.any namesSource)
    (profile.llamaServerArgs.any isCtxSizeArg) (profile.llamaServerArgs.any isFitArg)

/-- The flags of an argument list, and its expansion. -/
theorem foldl_track (args : List String) (s : PreArgs) :
    args.foldl PreArgs.track s =
      { args := s.args ++ args.flatMap expandArg
        modelArgPresent := s.modelArgPresent || args.any isModelArg
        hfRepoArgPresent := s.hfRepoArgPresent || args.any isHfRepoArg
        ctxSizePresent := s.ctxSizePresent || args.any isCtxSizeArg
        fitPresent := s.fitPresent || args.any isFitArg } := by
  induction args generalizing s with
  | nil => simp
  | cons arg args ih =>
    rw [List.foldl_cons, ih]
    simp [PreArgs.track, Bool.or_assoc]

/-- A source is named by a model flag or by a repository flag. -/
theorem any_namesSource (args : List String) :
    args.any namesSource = (args.any isModelArg || args.any isHfRepoArg) := by
  induction args with
  | nil => rfl
  | cons arg args ih =>
    rw [List.any_cons, List.any_cons, List.any_cons, ih, namesSource]
    ac_rfl

/-- The built arguments are the expanded ones of the profile and the defaults. -/
theorem buildPreArgs_args (profile : Profile) :
    (buildPreArgs profile).1 = profile.llamaServerArgs.flatMap expandArg ++ appended profile := by
  simp only [buildPreArgs, foldl_track, List.nil_append, Bool.false_or, PreArgs.defaults, appended,
    appendedUnless, any_namesSource]
  cases profile.llamaServerArgs.any isModelArg <;>
    cases profile.llamaServerArgs.any isHfRepoArg <;>
    cases profile.llamaServerArgs.any isCtxSizeArg <;>
    cases profile.llamaServerArgs.any isFitArg <;> rfl

/-! ### Host and port options -/

/-- The ways to give an endpoint option in the cookbook, with a value that starts without a
dash. -/
inductive EndpointForm : List String → Prop where
  | spaced {name value : String} (hn : name = "--host" ∨ name = "--port")
      (hv : startsWith value "-" = false) : EndpointForm [name, value]
  | joined {name value : String} (hn : name = "--host" ∨ name = "--port")
      (hv : startsWith value "-" = false) : EndpointForm [name ++ "=" ++ value]

/-- The arguments end in a bare `--host` or `--port` that is not itself the value of another. -/
def endsInBareEndpoint : List String → Bool
  | [] => false
  | [arg] => isBareEndpoint arg
  | arg :: next :: args =>
    if isBareEndpoint arg then endsInBareEndpoint args else endsInBareEndpoint (next :: args)

/-- The expansion of the arguments ends in a bare `--host` or `--port` that awaits its value. -/
def AwaitsValue (args : List String) : Prop :=
  endsInBareEndpoint (args.flatMap expandArg) = true

private theorem scan_skipNext {s : Grouping} (hs : s.skipNext = false) (arg : String) :
    (s.scan arg).skipNext = isBareEndpoint arg := by
  simp only [Grouping.scan, hs, Bool.false_eq_true, if_false]
  split
  · next hb => exact hb.symm
  · next hb =>
    rw [Bool.eq_false_iff.mpr hb]
    split
    · exact hs
    · rw [place_skipNext, hs]

private theorem foldl_scan_skipNext (args : List String) (s : Grouping)
    (hs : s.skipNext = false) :
    (args.foldl Grouping.scan s).skipNext = endsInBareEndpoint args := by
  induction args using endsInBareEndpoint.induct generalizing s with
  | case1 => exact hs
  | case2 arg => exact scan_skipNext hs arg
  | case3 arg next args hb ih =>
    rw [endsInBareEndpoint, if_pos hb, List.foldl_cons, List.foldl_cons]
    have hskip : (s.scan arg).skipNext = true := (scan_skipNext hs arg).trans hb
    refine ih _ ?_
    rw [Grouping.scan, if_pos hskip]
  | case4 arg next args hb ih =>
    rw [endsInBareEndpoint, if_neg hb, List.foldl_cons]
    exact ih _ ((scan_skipNext hs arg).trans (Bool.eq_false_iff.mpr hb))

private theorem foldl_scan_endpoint {s : Grouping} {name : String} (value : String)
    (hn : name = "--host" ∨ name = "--port") (hs : s.skipNext = false) :
    [name, value].foldl Grouping.scan s = s := by
  have hb : isBareEndpoint name = true := by
    obtain rfl | rfl := hn <;> rfl
  cases s
  cases hs
  simp [Grouping.scan, hb]

/-- An argument without `=` is not split. -/
theorem expandArg_bare {arg : String} (h : '=' ∉ arg.toList) : expandArg arg = [arg] := by
  simp [expandArg, h]

/-- `starts_with` on strings is the beginning of their characters. -/
theorem startsWith_iff {arg start : String} :
    startsWith arg start = true ↔ start.toList <+: arg.toList := List.isPrefixOf_iff_prefix

/-- A value without a dash starts with nothing that starts with one. -/
theorem startsWith_of_dash {value start : String} (hv : startsWith value "-" = false)
    (hs : startsWith start "-" = true) : startsWith value start = false := by
  rw [Bool.eq_false_iff, Ne, startsWith_iff] at hv ⊢
  exact fun h => hv ((startsWith_iff.mp hs).trans h)

private theorem expandArg_value {value : String} (hv : startsWith value "-" = false) :
    expandArg value = [value] := by
  have hdash : startsWith value "--" = false := startsWith_of_dash hv (by decide)
  simp [expandArg, hv, hdash]

/-- An option joined with a value expands to its name and the whole value. -/
theorem expandArg_joined {name : String} (value : String) (hdash : startsWith name "-" = true)
    (hname : '=' ∉ name.toList) : expandArg (name ++ "=" ++ value) = [name, value] := by
  have hlist : (name ++ "=" ++ value).toList = name.toList ++ '=' :: value.toList := by simp
  have hsplit : splitOnce '=' (name ++ "=" ++ value).toList =
      some (name.toList, value.toList) := by
    rw [hlist]
    exact splitOnce_append hname _
  have hstart : startsWith (name ++ "=" ++ value) "-" = true := by
    rw [startsWith_iff, hlist]
    exact (startsWith_iff.mp hdash).trans (List.prefix_append _ _)
  have heq : (name ++ "=" ++ value).toList.contains '=' = true := by simp
  simp only [expandArg, hstart, heq, hsplit, Bool.or_true, Bool.and_true, if_true,
    String.ofList_toList]

/-- An argument expands to itself, or to the two sides of its first `=` when it starts with a
dash. -/
theorem expandArg_cases (arg : String) :
    (expandArg arg = [arg] ∧ (startsWith arg "-" = true → '=' ∉ arg.toList)) ∨
      ∃ flag val, arg = flag ++ "=" ++ val ∧ startsWith flag "-" = true ∧ '=' ∉ flag.toList ∧
        expandArg arg = [flag, val] := by
  by_cases heq : '=' ∈ arg.toList
  · cases hdash : startsWith arg "-" with
    | false => exact .inl ⟨expandArg_value hdash, by simp⟩
    | true =>
      right
      obtain ⟨flag, val, hlist, hflag⟩ := List.eq_append_cons_of_mem heq
      have harg : arg = String.ofList flag ++ "=" ++ String.ofList val := by
        rw [← String.toList_inj, hlist]
        simp
      have hstart : startsWith (String.ofList flag) "-" = true := by
        rw [startsWith_iff] at hdash ⊢
        rw [hlist] at hdash
        rw [String.toList_ofList]
        cases flag with
        | nil => exact absurd hdash (by simp)
        | cons c flag => simpa using hdash
      have hname : '=' ∉ (String.ofList flag).toList := by rwa [String.toList_ofList]
      refine ⟨_, _, harg, hstart, hname, ?_⟩
      rw [harg, expandArg_joined _ hstart hname]
  · exact .inl ⟨expandArg_bare heq, fun _ => heq⟩

private theorem EndpointForm.expand {form : List String} (h : EndpointForm form) :
    ∃ name value, (name = "--host" ∨ name = "--port") ∧
      form.flatMap expandArg = [name, value] := by
  cases h with
  | @spaced name value hn hv =>
    refine ⟨name, value, hn, ?_⟩
    have hname : expandArg name = [name] := by
      apply expandArg_bare
      obtain rfl | rfl := hn <;> decide
    simp [hname, expandArg_value hv]
  | @joined name value hn hv =>
    refine ⟨name, value, hn, ?_⟩
    have hjoined : expandArg (name ++ "=" ++ value) = [name, value] := by
      apply expandArg_joined
      · obtain rfl | rfl := hn <;> decide
      · obtain rfl | rfl := hn <;> decide
    simp [hjoined]

/-- A value without a dash names none of the options that have one. -/
theorem namesOption_value {value : String} (hv : startsWith value "-" = false)
    {names : List String} (hd : ∀ name ∈ names, startsWith name "-" = true) :
    namesOption value names = false := by
  unfold namesOption
  rw [List.any_eq_false]
  intro name hname
  have hself : value ≠ name := by
    rintro rfl
    rw [hd value hname] at hv
    cases hv
  have hjoined : startsWith value (name ++ "=") = false := by
    refine startsWith_of_dash hv (startsWith_iff.mpr ?_)
    exact (startsWith_iff.mp (hd name hname)).trans (by simp)
  simp [hself, hjoined]

/-- Text after `start` does not make it name an option that `start` has left. -/
theorem namesOption_append {start : String} (value : String) {names : List String}
    (hd : ∀ name ∈ names, startsWith (name ++ "=") start = false ∧
      startsWith start (name ++ "=") = false) : namesOption (start ++ value) names = false := by
  have hstart : start.toList <+: (start ++ value).toList := by simp
  unfold namesOption
  rw [List.any_eq_false]
  intro name hname
  obtain ⟨hout, hin⟩ := hd name hname
  have hself : start ++ value ≠ name := by
    rintro rfl
    rw [startsWith_iff.mpr (hstart.trans (by simp))] at hout
    cases hout
  have hjoined : startsWith (start ++ value) (name ++ "=") = false := by
    rw [Bool.eq_false_iff, Ne, startsWith_iff]
    intro h
    -- two starts of one text are starts of one another
    obtain h | h := List.prefix_or_prefix_of_prefix h hstart
    · rw [startsWith_iff.mpr h] at hin
      cases hin
    · rw [startsWith_iff.mpr h] at hout
      cases hout
  simp [hself, hjoined]

private theorem EndpointForm.any_eq_false {form : List String} (h : EndpointForm form)
    {names : List String} (hd : ∀ name ∈ names, startsWith name "-" = true)
    (hh : ∀ name ∈ names, ∀ start ∈ ["--host", "--port"],
      startsWith (name ++ "=") start = false ∧ startsWith start (name ++ "=") = false) :
    form.any (namesOption · names) = false := by
  cases h with
  | @spaced name value hn hv =>
    have hname : namesOption (name ++ "") names = false :=
      namesOption_append "" fun n hmem => hh n hmem name (by simpa using hn)
    rw [String.append_empty] at hname
    simp [hname, namesOption_value hv hd]
  | @joined name value hn hv =>
    have hjoined : namesOption (name ++ ("=" ++ value)) names = false :=
      namesOption_append _ fun n hmem => hh n hmem name (by simpa using hn)
    rw [← String.append_assoc] at hjoined
    simp [hjoined]

private theorem buildPreArgs_insert (profile : Profile) (before after : List String)
    {form : List String} (hform : EndpointForm form) :
    ∃ name value tail, (name = "--host" ∨ name = "--port") ∧
      (buildPreArgs { profile with llamaServerArgs := before ++ form ++ after }).1 =
        before.flatMap expandArg ++ ([name, value] ++ tail) ∧
      (buildPreArgs { profile with llamaServerArgs := before ++ after }).1 =
        before.flatMap expandArg ++ tail := by
  obtain ⟨name, value, hn, hexpand⟩ := hform.expand
  have hmodel : form.any isModelArg = false :=
    hform.any_eq_false (by decide) (by decide)
  have hrepo : form.any isHfRepoArg = false :=
    hform.any_eq_false (by decide) (by decide)
  have hctx : form.any isCtxSizeArg = false :=
    hform.any_eq_false (by decide) (by decide)
  have hfit : form.any isFitArg = false :=
    hform.any_eq_false (by decide) (by decide)
  refine ⟨name, value, after.flatMap expandArg ++
    ((before ++ after).foldl PreArgs.track ⟨[], false, false, false, false⟩).defaults profile,
    hn, ?_, ?_⟩
  · simp only [buildPreArgs, foldl_track, List.flatMap_append, List.any_append, hexpand, hmodel,
      hrepo, hctx, hfit, List.append_assoc, List.nil_append]
    rfl
  · simp only [buildPreArgs, foldl_track, List.flatMap_append, List.append_assoc, List.nil_append]
    rfl

/-- An endpoint option with a value that starts without a dash does not change the hash of a
profile, wherever it is inserted in its arguments, unless a bare `--host` or `--port` before it
takes it for a value. -/
theorem argsHashForProfile_insert (sha256 : List UInt8 → Vector UInt8 32) (profile : Profile)
    (before form after : List String) (hform : EndpointForm form)
    (hargs : profile.llamaServerArgs = before ++ after) (hwait : ¬ AwaitsValue before) :
    argsHashForProfile sha256 { profile with llamaServerArgs := before ++ form ++ after } =
      argsHashForProfile sha256 profile := by
  have hprofile : profile = { profile with llamaServerArgs := before ++ after } := by
    rw [← hargs]
  obtain ⟨name, value, tail, hn, hinserted, hplain⟩ :=
    buildPreArgs_insert profile before after hform
  have hskip : (collectGroups (before.flatMap expandArg)).skipNext = false :=
    (foldl_scan_skipNext _ _ rfl).trans (Bool.eq_false_iff.mpr hwait)
  have hgroups : collectGroups (before.flatMap expandArg ++ ([name, value] ++ tail)) =
      collectGroups (before.flatMap expandArg ++ tail) := by
    simp only [collectGroups, List.foldl_append] at hskip ⊢
    rw [foldl_scan_endpoint value hn hskip]
  rw [hprofile]
  simp only [argsHashForProfile, computeArgsHash, preimage, hinserted, hplain, hgroups]

/-- A profile that offloads 99 layers. -/
def offloadProfile : Profile := ⟨["-ngl", "99"], none, none, none⟩

/-- The SHA-256 digest of the bytes hashed for `offloadProfile`. -/
def offloadDigest : Vector UInt8 32 := #v[169, 219, 237, 2, 23, 148, 156, 141, 208, 243, 91, 173,
  151, 223, 214, 83, 140, 118, 89, 87, 114, 18, 146, 94, 76, 57, 41, 67, 238, 172, 50, 234]

/-- A host between an option and its value leaves the hash as it was. -/
theorem argsHashForProfile_host_before_value :
    EndpointForm ["--host", "0.0.0.0"] ∧ ¬ AwaitsValue ["-ngl"] ∧
      argsHashForProfile (fun _ => offloadDigest)
          { offloadProfile with llamaServerArgs := ["-ngl"] ++ ["--host", "0.0.0.0"] ++ ["99"] } =
        argsHashForProfile (fun _ => offloadDigest) offloadProfile := by
  have hform : EndpointForm ["--host", "0.0.0.0"] := .spaced (.inl rfl) (by decide)
  have hwait : ¬ AwaitsValue ["-ngl"] := by
    unfold AwaitsValue
    decide
  exact ⟨hform, hwait, argsHashForProfile_insert _ offloadProfile ["-ngl"] _ ["99"] hform rfl hwait⟩

end Llamesh.Instance.ArgsHash
