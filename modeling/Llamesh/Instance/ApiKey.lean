import Llamesh.Instance.KeyList
import Llamesh.Instance.PreArgs
import Llamesh.Library.HeaderMap
import Llamesh.Library.Terminated

/-!
# The key of an instance

`backend_api_key_with_env` (`src/instance.rs:369–471`) finds the key a node sends to an instance in
the built arguments. A key given as `--api-key=VALUE` always reaches it whole. One given as
`--api-key VALUE` does unless `build_pre_args` takes the value itself for an option.
-/

namespace Llamesh.Instance

open ArgsHash Text Http

/-- A key file as it is read: the bytes up to its end, or up to where reading fails. -/
structure KeyFile where
  bytes : List UInt8
  readFails : Bool
  deriving DecidableEq, Repr

/-- `BufReader::split(b'\n')`: `none` is a line that cannot be read. -/
def KeyFile.lines (file : KeyFile) : List (Option (List UInt8)) :=
  let last := Terminated.rest 10 file.bytes
  (Terminated.pieces 10 file.bytes).map some ++
    if file.readFails then [none] else if last = [] then [] else [some last]

/-- `String::from_utf8`. -/
def fromUtf8 (bytes : List UInt8) : Option String :=
  let cs := fromUtf8Lossy bytes
  if utf8Encode cs = bytes then some (String.ofList cs) else none

/-- The loop over the lines. `src/instance.rs:459–468`. -/
def firstKeyInLines (path : String) : List (Option (List UInt8)) → Except String (Option String)
  | [] => .ok none
  | none :: _ => .error ("failed to read API key file " ++ path)
  | some line :: lines =>
    if line = [] || line.head? = some 35 then firstKeyInLines path lines
    else match fromUtf8 line with
      | some key => .ok (some key)
      | none => .error ("the first key in API key file " ++ path ++ " is not valid UTF-8")

/-- The first key of a key file. `src/instance.rs:455–470`. -/
def firstKeyInFile (files : String → Option KeyFile) (path : String) :
    Except String (Option String) :=
  match files path with
  | none => .error ("failed to open API key file " ++ path)
  | some file => firstKeyInLines path file.lines

/-- `replace('_', "-")`. -/
def dashed (name : String) : String :=
  String.ofList (name.toList.map fun c => if c = '_' then '-' else c)

/-- The loop over the arguments. `src/instance.rs:401–424`. -/
def keyInArgs (files : String → Option KeyFile) (key : Option String) :
    List String → Except String (Option String)
  | [] => .ok key
  | arg :: args =>
    if !startsWith arg "--" then keyInArgs files key args
    else if dashed arg = "--api-key" then
      match args with
      | [] => .ok key
      | keys :: rest => keyInArgs files ((firstListedKey keys).or key) rest
    else if dashed arg = "--api-key-file" then
      match args with
      | [] => .ok key
      | path :: rest =>
        match firstKeyInFile files path with
        | .ok found => keyInArgs files (found.or key) rest
        | .error e => .error e
    else keyInArgs files key args

/-- The key of the environment, where the arguments give none. `src/instance.rs:425–432`. -/
def keyInEnv (files : String → Option KeyFile) (env : String → Option String) :
    Except String (Option String) :=
  match (env "LLAMA_API_KEY").bind firstListedKey with
  | some key => .ok (some key)
  | none =>
    match env "LLAMA_ARG_API_KEY_FILE" with
    | some path => firstKeyInFile files path
    | none => .ok none

/-- A key must fit in a header. `src/instance.rs:433–444`. -/
def sendable : Option String → Except String (Option String)
  | none => .ok none
  | some key =>
    if (HeaderValue.fromStr ("Bearer " ++ key).toList).isSome then .ok (some key)
    else
      let hint :=
        if key.toList.getLast? = some '\r' then
          " (it ends with a carriage return; is the key file saved with Windows line endings?)"
        else ""
      .error ("the API key cannot be sent in an HTTP header" ++ hint)

/-- The key a process accepts, by its arguments and its environment. `src/instance.rs:397–445`. -/
def backendApiKeyWithEnv (files : String → Option KeyFile) (env : String → Option String)
    (args : List String) : Except String (Option String) := do
  let key ← keyInArgs files none args
  let key ← if key.isNone then keyInEnv files env else pure key
  sendable key

/-! ### Spellings of an option -/

/-- The profile with an option and its value as two arguments. -/
def withSpaced (profile : Profile) (before after : List String) (name value : String) : Profile :=
  { profile with llamaServerArgs := before ++ [name, value] ++ after }

/-- The profile with an option and its value as one argument. -/
def withJoined (profile : Profile) (before after : List String) (name value : String) : Profile :=
  { profile with llamaServerArgs := before ++ [name ++ "=" ++ value] ++ after }

/-- Nothing in `build_pre_args` takes the value for an option, or if it does, the other arguments
give that option too. -/
structure TakenWhole (profile : Profile) (others : List String) (value : String) : Prop where
  whole : startsWith value "-" = true → '=' ∉ value.toList
  source : namesSource value = true → others.any namesSource = true ∨ modelSource profile = []
  ctxSize : isCtxSizeArg value = true → others.any isCtxSizeArg = true
  fit : isFitArg value = true → others.any isFitArg = true

/-- The options `build_pre_args` looks for. -/
def trackedOptions : List String :=
  ["-m", "--model", "-hf", "-hfr", "--hf-repo", "-c", "--ctx-size", "-fit", "--fit"]

/-- An option that `build_pre_args` does not look for, as its name is written. -/
structure Untracked (name : String) : Prop where
  dash : startsWith name "-" = true
  bare : '=' ∉ name.toList
  out : ∀ tracked ∈ trackedOptions,
    startsWith (tracked ++ "=") name = false ∧ startsWith name (tracked ++ "=") = false

section

variable {name : String} {profile : Profile} {before after : List String} {value : String}

private theorem Untracked.namesOption_eq_false (h : Untracked name) (text : String)
    {names : List String}
    (hnames : names ⊆ trackedOptions) : namesOption (name ++ text) names = false :=
  namesOption_append text fun tracked hmem => h.out tracked (hnames hmem)

/-- Whatever follows it, the name is not taken for a tracked option. -/
theorem Untracked.names_nothing (h : Untracked name) (text : String) :
    namesSource (name ++ text) = false ∧ isCtxSizeArg (name ++ text) = false ∧
      isFitArg (name ++ text) = false := by
  have hmodel : isModelArg (name ++ text) = false := h.namesOption_eq_false text (by decide)
  have hrepo : isHfRepoArg (name ++ text) = false := h.namesOption_eq_false text (by decide)
  refine ⟨?_, h.namesOption_eq_false text (by decide), h.namesOption_eq_false text (by decide)⟩
  rw [namesSource, hmodel, hrepo]
  rfl

private theorem length_modelSource_mod (profile : Profile) :
    (modelSource profile).length % 2 = 0 := by
  obtain ⟨args, hfRepo, hfFile, modelPath⟩ := profile
  cases hfRepo with
  | some _ => cases hfFile <;> simp [modelSource]
  | none => cases modelPath <;> simp [modelSource]

/-- How many arguments are appended. -/
theorem length_appendedUnless (profile : Profile) (source ctxSize fit : Bool) :
    (appendedUnless profile source ctxSize fit).length =
      (if source then 0 else (modelSource profile).length) + (if ctxSize then 0 else 2) +
        (if fit then 0 else 2) := by
  cases source <;> cases ctxSize <;> cases fit <;> simp [appendedUnless]

/-- The two arguments are expanded each for itself, and the value is taken for what it names. -/
theorem built_spaced (h : Untracked name) :
    (buildPreArgs (withSpaced profile before after name value)).1 =
      before.flatMap expandArg ++ (name :: (expandArg value ++ (after.flatMap expandArg ++
        appendedUnless profile (namesSource value || (before ++ after).any namesSource)
          (isCtxSizeArg value || (before ++ after).any isCtxSizeArg)
          (isFitArg value || (before ++ after).any isFitArg)))) := by
  have hname : ∀ {f : String → Bool}, f name = false →
      (before ++ [name, value] ++ after).any f = (f value || (before ++ after).any f) := by
    intro f hf
    simp only [List.any_append, List.any_cons, List.any_nil, hf, Bool.false_or, Bool.or_false]
    ac_rfl
  obtain ⟨hsource, hctx, hfit⟩ := h.names_nothing ""
  rw [String.append_empty] at hsource hctx hfit
  have happended : appended (withSpaced profile before after name value) =
      appendedUnless profile (namesSource value || (before ++ after).any namesSource)
        (isCtxSizeArg value || (before ++ after).any isCtxSizeArg)
        (isFitArg value || (before ++ after).any isFitArg) := by
    rw [← hname hsource, ← hname hctx, ← hname hfit]
    rfl
  rw [buildPreArgs_args, happended]
  simp [withSpaced, expandArg_bare h.bare]

/-- The value of a joined argument is kept whole, and is not looked at. -/
theorem built_joined (h : Untracked name) :
    (buildPreArgs (withJoined profile before after name value)).1 =
      before.flatMap expandArg ++ (name :: value :: (after.flatMap expandArg ++
        appendedUnless profile ((before ++ after).any namesSource)
          ((before ++ after).any isCtxSizeArg) ((before ++ after).any isFitArg))) := by
  have hjoined : ∀ {f : String → Bool}, f (name ++ "=" ++ value) = false →
      (before ++ [name ++ "=" ++ value] ++ after).any f = (before ++ after).any f := by
    intro f hf
    simp only [List.any_append, List.any_cons, List.any_nil, hf, Bool.or_false]
  obtain ⟨hsource, hctx, hfit⟩ := h.names_nothing ("=" ++ value)
  rw [← String.append_assoc] at hsource hctx hfit
  have happended : appended (withJoined profile before after name value) =
      appendedUnless profile ((before ++ after).any namesSource)
        ((before ++ after).any isCtxSizeArg) ((before ++ after).any isFitArg) := by
    rw [← hjoined hsource, ← hjoined hctx, ← hjoined hfit]
    rfl
  rw [buildPreArgs_args, happended]
  simp [withJoined, expandArg_joined value h.dash h.bare]

/-- As many defaults are appended with a value as without it exactly when the value gives nothing
that the other arguments do not. -/
theorem length_appendedUnless_or_iff (profile : Profile) (source ctxSize fit : Bool)
    (source' ctxSize' fit' : Bool) :
    (appendedUnless profile (source || source') (ctxSize || ctxSize') (fit || fit')).length =
        (appendedUnless profile source' ctxSize' fit').length ↔
      (source = true → source' = true ∨ modelSource profile = []) ∧
        (ctxSize = true → ctxSize' = true) ∧ (fit = true → fit' = true) := by
  rw [length_appendedUnless, length_appendedUnless, ← List.length_eq_zero_iff]
  generalize (modelSource profile).length = n
  cases source <;> cases ctxSize <;> cases fit <;> cases source' <;> cases ctxSize' <;>
    cases fit' <;> simp <;> omega

/-- The defaults are then the same. -/
theorem appendedUnless_or_eq {profile : Profile} {source ctxSize fit source' ctxSize' fit' : Bool}
    (hsource : source = true → source' = true ∨ modelSource profile = [])
    (hctxSize : ctxSize = true → ctxSize' = true) (hfit : fit = true → fit' = true) :
    appendedUnless profile (source || source') (ctxSize || ctxSize') (fit || fit') =
      appendedUnless profile source' ctxSize' fit' := by
  have hctx : (ctxSize || ctxSize') = ctxSize' := by
    cases ctxSize
    · rfl
    · exact (hctxSize rfl).symm
  have hfit' : (fit || fit') = fit' := by
    cases fit
    · rfl
    · exact (hfit rfl).symm
  rw [hctx, hfit']
  cases source with
  | false => rfl
  | true =>
    obtain rfl | hnone := hsource rfl
    · rfl
    · simp [appendedUnless, hnone]

/-- The two spellings of an option are built alike exactly when the value is taken whole. -/
theorem built_spellings_iff (h : Untracked name) :
    (buildPreArgs (withSpaced profile before after name value)).1 =
        (buildPreArgs (withJoined profile before after name value)).1 ↔
      TakenWhole profile (before ++ after) value := by
  rw [built_spaced h, built_joined h, List.append_cancel_left_eq, List.cons.injEq]
  constructor
  · rintro ⟨-, hbuilt⟩
    obtain ⟨hsame, hwhole⟩ | ⟨flag, val, -, -, -, hsplit⟩ := expandArg_cases value
    · rw [hsame, List.singleton_append, List.cons.injEq, List.append_cancel_left_eq] at hbuilt
      obtain ⟨hsource, hctxSize, hfit⟩ :=
        (length_appendedUnless_or_iff profile _ _ _ _ _ _).mp (congrArg List.length hbuilt.2)
      exact ⟨hwhole, hsource, hctxSize, hfit⟩
    · -- A value that is split makes one argument more; the defaults come in pairs.
      have heven := length_modelSource_mod profile
      have hlength := congrArg List.length hbuilt
      rw [hsplit] at hlength
      simp only [List.length_append, List.length_cons, List.length_nil,
        length_appendedUnless] at hlength
      split at hlength <;> split at hlength <;> split at hlength <;> split at hlength <;>
        split at hlength <;> split at hlength <;> omega
  · intro htaken
    obtain ⟨hsame, -⟩ | ⟨flag, val, harg, hdash, -, -⟩ := expandArg_cases value
    · rw [hsame, appendedUnless_or_eq htaken.source htaken.ctxSize htaken.fit]
      exact ⟨rfl, rfl⟩
    · have hstart : startsWith value "-" = true := by
        rw [harg, startsWith_iff]
        exact (startsWith_iff.mp hdash).trans (by simp)
      exact absurd (by rw [harg]; simp) (htaken.whole hstart)

end

private theorem untracked_apiKey : Untracked "--api-key" := ⟨by decide, by decide, by decide⟩

/-- A key after `--api-key` and after `--api-key=` gives the same arguments and the same key of the
instance exactly when the value is taken whole. -/
theorem apiKey_spellings_iff (files : String → Option KeyFile) (env : String → Option String)
    (profile : Profile) (before after : List String) (value : String) :
    ((buildPreArgs (withSpaced profile before after "--api-key" value)).1 =
        (buildPreArgs (withJoined profile before after "--api-key" value)).1 ∧
      backendApiKeyWithEnv files env
          (buildPreArgs (withSpaced profile before after "--api-key" value)).1 =
        backendApiKeyWithEnv files env
          (buildPreArgs (withJoined profile before after "--api-key" value)).1) ↔
      TakenWhole profile (before ++ after) value := by
  rw [← built_spellings_iff untracked_apiKey]
  constructor
  · exact fun h => h.1
  · intro h
    exact ⟨h, by rw [h]⟩

/-- A key that looks like an option with a value is cut at its `=`. -/
theorem apiKey_cut_at_equals :
    ¬ ∀ (files : String → Option KeyFile) (env : String → Option String) (profile : Profile)
        (before after : List String) (value : String),
      (buildPreArgs (withSpaced profile before after "--api-key" value)).1 =
          (buildPreArgs (withJoined profile before after "--api-key" value)).1 ∧
        backendApiKeyWithEnv files env
            (buildPreArgs (withSpaced profile before after "--api-key" value)).1 =
          backendApiKeyWithEnv files env
            (buildPreArgs (withJoined profile before after "--api-key" value)).1 := by
  intro h
  have hbuilt := (h (fun _ => none) (fun _ => none) offloadProfile [] [] "-k3y=").1
  exact absurd hbuilt (by decide)

end Llamesh.Instance
