import Llamesh.Instance.ApiKey

/-!
# The logged arguments

The arguments of an instance (`src/node_state/mod.rs:2659–2701,2771–2779`) are logged when it is
spawned, with the values of secret options redacted (`src/instance.rs:504–542,772–780`). The
cookbook may give such a value as its own argument or behind a `=`. What is logged does not depend
on it, unless something on the way takes the value itself for an option, or takes another argument
for the secret option.
-/

namespace Llamesh.Instance

open ArgsHash Text

/-! ### The arguments of an instance -/

/-- Why the host and port options of a profile are refused. -/
inductive EndpointError where
  | missingHostArg
  | missingPortArg
  | invalidPortArg (port : String)
  deriving DecidableEq, Repr

/-- The overrides of a profile. `src/node_state/mod.rs:2661–2663`. -/
structure EndpointOverrides where
  host : Option String
  port : Option Nat
  deriving DecidableEq, Repr

/-- `parse::<u16>()`. -/
def parsePort (port : String) : Option Nat := parseUnsigned 65535 port.toList

/-- The loop over the arguments. `src/node_state/mod.rs:2665–2701`. -/
def scanEndpoints (found : EndpointOverrides) :
    List String → Except EndpointError EndpointOverrides
  | [] => .ok found
  | arg :: args =>
    if arg = "--host" then
      match args with
      | [] => .error .missingHostArg
      | host :: rest => scanEndpoints { found with host := some host } rest
    else if arg = "--port" then
      match args with
      | [] => .error .missingPortArg
      | port :: rest =>
        match parsePort port with
        | none => .error (.invalidPortArg port)
        | some parsed => scanEndpoints { found with port := some parsed } rest
    else
      match stripPrefix "--host=".toList arg.toList with
      | some host => scanEndpoints { found with host := some (String.ofList host) } args
      | none =>
        match stripPrefix "--port=".toList arg.toList with
        | none => scanEndpoints found args
        | some port =>
          match parsePort (String.ofList port) with
          | none => .error (.invalidPortArg (String.ofList port))
          | some parsed => scanEndpoints { found with port := some parsed } args

/-- The host and port that are passed when the profile overrides none.
`src/node_state/mod.rs:2661,2772–2779`. -/
def endpointArgs (overrides : EndpointOverrides) (port : Nat) : List String :=
  (if overrides.host.isNone then ["--host", "127.0.0.1"] else []) ++
    (if overrides.port.isNone then ["--port", String.ofList (toDecimal port)] else [])

/-- The arguments an instance of the profile is started with, on the port leased for it. -/
def instanceArgs (profile : Profile) (port : Nat) : Except EndpointError (List String) :=
  match scanEndpoints ⟨none, none⟩ profile.llamaServerArgs with
  | .error e => .error e
  | .ok overrides => .ok ((buildPreArgs profile).1 ++ endpointArgs overrides port)

/-! ### Redaction -/

/-- `SECRET_VALUE_OPTIONS`. -/
def secretValueOptions : List String := ["--api-key", "--hf-token", "-hft"]

/-- `REDACTED`. -/
def redacted : String := "<redacted>"

/-- Whether the value of the option is a secret. `src/instance.rs:516–523`. -/
def isSecretOption (name : String) : Bool :=
  secretValueOptions.contains (if startsWith name "--" then dashed name else name)

/-- What is logged of an argument that is neither a secret option nor its value.
`src/instance.rs:533–538`. -/
def redactJoined (arg : String) : String :=
  match splitOnce '=' arg.toList with
  | some (name, _) =>
    if isSecretOption (String.ofList name) then String.ofList name ++ "=" ++ redacted else arg
  | none => arg

/-- The variables of the loop. `src/instance.rs:524–525`. -/
structure Redaction where
  logged : List String
  redactNext : Bool
  deriving DecidableEq, Repr

/-- One argument. `src/instance.rs:526–539`. -/
def Redaction.step (s : Redaction) (arg : String) : Redaction :=
  if s.redactNext then ⟨s.logged ++ [redacted], false⟩
  else if isSecretOption arg then ⟨s.logged ++ [arg], true⟩
  else ⟨s.logged ++ [redactJoined arg], false⟩

/-- The arguments as they are logged. `src/instance.rs:515–542`. -/
def redactSecretArgs (args : List String) : List String :=
  (args.foldl Redaction.step ⟨[], false⟩).logged

/-- The arguments logged at a spawn; there is none when the profile is refused before.
`src/instance.rs:773–780`. -/
def loggedArgs (profile : Profile) (port : Nat) : Option (List String) :=
  (instanceArgs profile port).toOption.map redactSecretArgs

/-! ### Secret values -/

/-- Two argument lists that differ in the values of secret options only. A value given as its own
argument is an allowed one. -/
inductive SecretVariants (allowed : String → Prop) : List String → List String → Prop where
  | nil : SecretVariants allowed [] []
  | plain {arg : String} {as bs : List String} (harg : isSecretOption arg = false)
      (hjoined : ∀ name value, isSecretOption name = true → arg ≠ name ++ "=" ++ value) :
      SecretVariants allowed as bs → SecretVariants allowed (arg :: as) (arg :: bs)
  | joined {name v w : String} {as bs : List String} (hname : isSecretOption name = true) :
      SecretVariants allowed as bs →
      SecretVariants allowed ((name ++ "=" ++ v) :: as) ((name ++ "=" ++ w) :: bs)
  | spaced {name v w : String} {as bs : List String} (hname : isSecretOption name = true)
      (hv : allowed v) (hw : allowed w) : SecretVariants allowed as bs →
      SecretVariants allowed (name :: v :: as) (name :: w :: bs)
  | missing {name : String} (hname : isSecretOption name = true) :
      SecretVariants allowed [name] [name]

/-- Two profiles that differ in the values of secret options only. -/
structure ProfileVariants (allowed : String → Prop) (p q : Profile) : Prop where
  args : SecretVariants allowed p.llamaServerArgs q.llamaServerArgs
  same : q = { p with llamaServerArgs := q.llamaServerArgs }

/-- A value that nothing takes for an option. -/
structure Inert (value : String) : Prop where
  whole : startsWith value "-" = true → '=' ∉ value.toList
  untracked : value ∉ trackedOptions
  host : value ≠ "--host"
  port : value ≠ "--port"

/-- An argument `-x=V` where `V` is a secret option and `-x` is not: once it is split, the argument
after it is taken for the secret. -/
def hidesSecretOption (arg : String) : Bool :=
  match expandArg arg with
  | [flag, val] => !isSecretOption flag && isSecretOption val
  | _ => false

/-- The arguments begin with a secret option that has a value. -/
def beginsWithSecret : List String → Bool
  | [] => false
  | arg :: args =>
    (isSecretOption arg && !args.isEmpty) ||
      match expandArg arg with
      | [flag, _] => isSecretOption flag
      | _ => false

/-- No secret option that has a value comes directly after an argument that hides another. -/
def inStep : List String → Bool
  | [] => true
  | [_] => true
  | arg :: next :: args =>
    if isSecretOption arg then inStep args
    else !(hidesSecretOption arg && beginsWithSecret (next :: args)) && inStep (next :: args)

/-- The names of secret options, with `-` or `_` in the long ones. -/
def secretSpellings : List String := ["--api-key", "--api_key", "--hf-token", "--hf_token", "-hft"]

/-- The texts that read as this one with `_` for `-`. -/
def respellings : List Char → List (List Char)
  | [] => [[]]
  | c :: cs =>
    (respellings cs).flatMap fun rest => if c = '-' then ['-' :: rest, '_' :: rest] else [c :: rest]

section

variable {name arg value : String}

private theorem mem_respellings {text target : List Char}
    (h : text.map (fun c => if c = '_' then '-' else c) = target) :
    text ∈ respellings target := by
  induction text generalizing target with
  | nil =>
    subst h
    exact List.mem_singleton_self []
  | cons c text ih =>
    subst h
    rw [List.map_cons, respellings, List.mem_flatMap]
    refine ⟨text, ih rfl, ?_⟩
    by_cases hc : c = '_'
    · simp [hc]
    · by_cases hdash : c = '-'
      · simp [hdash]
      · simp [hc, hdash]

private theorem mem_spellings_of_dashed (hdash : startsWith name "--" = true)
    (h : dashed name ∈ secretValueOptions) : name ∈ secretSpellings := by
  have hall : ∀ option ∈ secretValueOptions, ∀ text ∈ respellings option.toList,
      "--".toList.isPrefixOf text = true → String.ofList text ∈ secretSpellings := by
    decide
  have hmem := hall _ h name.toList (mem_respellings (by simp [dashed])) hdash
  rwa [String.ofList_toList] at hmem

private theorem isSecretOption_iff : isSecretOption name = true ↔ name ∈ secretSpellings := by
  constructor
  · intro h
    unfold isSecretOption at h
    split at h
    · next hdash =>
      exact mem_spellings_of_dashed hdash (by simpa using h)
    · next hdash =>
      have hmem : name ∈ secretValueOptions := by simpa using h
      revert hmem hdash
      simp only [secretValueOptions, secretSpellings, List.mem_cons]
      tauto
  · intro h
    have hall : ∀ name ∈ secretSpellings, isSecretOption name = true := by decide
    exact hall name h

/-- What the names of secret options are not. -/
theorem secret_names (h : isSecretOption name = true) :
    startsWith name "-" = true ∧ '=' ∉ name.toList ∧
      ∀ option ∈ trackedOptions ++ ["--host", "--port"],
        startsWith (option ++ "=") name = false ∧ startsWith name (option ++ "=") = false := by
  have hall : ∀ name ∈ secretSpellings, startsWith name "-" = true ∧ '=' ∉ name.toList ∧
      ∀ option ∈ trackedOptions ++ ["--host", "--port"],
        startsWith (option ++ "=") name = false ∧ startsWith name (option ++ "=") = false := by
    decide
  exact hall name (isSecretOption_iff.mp h)

private theorem untracked_of_secret (h : isSecretOption name = true) : Untracked name := by
  obtain ⟨hdash, hbare, hout⟩ := secret_names h
  exact ⟨hdash, hbare, fun option hmem => hout option (List.mem_append_left _ hmem)⟩

/-- An argument is a host or port option. -/
def isEndpointArg (arg : String) : Bool := namesOption arg ["--host", "--port"]

private theorem isEndpointArg_secret (h : isSecretOption name = true) (text : String) :
    isEndpointArg (name ++ text) = false :=
  namesOption_append text fun option hmem =>
    (secret_names h).2.2 option (List.mem_append_right _ hmem)

private theorem isSecretOption_joined (name value : String) :
    isSecretOption (name ++ "=" ++ value) = false := by
  rw [Bool.eq_false_iff]
  intro h
  exact (secret_names h).2.1 (by simp)

private theorem expandArg_secret (h : isSecretOption name = true) : expandArg name = [name] :=
  expandArg_bare (secret_names h).2.1

private theorem expandArg_secret_joined (h : isSecretOption name = true) (value : String) :
    expandArg (name ++ "=" ++ value) = [name, value] :=
  expandArg_joined value (secret_names h).1 (secret_names h).2.1

/-- A value that is not split names an option only when it is that option. -/
theorem namesOption_of_whole (hwhole : startsWith value "-" = true → '=' ∉ value.toList)
    {names : List String} (hnames : value ∉ names)
    (hdash : ∀ name ∈ names, startsWith name "-" = true) : namesOption value names = false := by
  unfold namesOption
  rw [List.any_eq_false]
  intro name hmem
  have hne : value ≠ name := fun heq => hnames (heq ▸ hmem)
  have hjoined : startsWith value (name ++ "=") = false := by
    rw [Bool.eq_false_iff, Ne, startsWith_iff]
    intro hstart
    have hdashed : startsWith value "-" = true :=
      startsWith_iff.mpr (((startsWith_iff.mp (hdash name hmem)).trans (by simp)).trans hstart)
    exact hwhole hdashed (hstart.subset (by simp))
  simp [hne, hjoined]

private theorem Inert.expandArg_eq (h : Inert value) : expandArg value = [value] := by
  obtain ⟨hsame, -⟩ | ⟨flag, val, harg, hdash, -, -⟩ := expandArg_cases value
  · exact hsame
  · have hstart : startsWith value "-" = true := by
      rw [harg, startsWith_iff]
      exact (startsWith_iff.mp hdash).trans (by simp)
    exact absurd (by rw [harg]; simp) (h.whole hstart)

/-- An inert value sets none of the flags. -/
theorem Inert.names_nothing (h : Inert value) :
    namesSource value = false ∧ isCtxSizeArg value = false ∧ isFitArg value = false := by
  have hnames : ∀ {names : List String}, names ⊆ trackedOptions →
      namesOption value names = false := by
    intro names hsub
    refine namesOption_of_whole h.whole (fun hmem => h.untracked (hsub hmem)) ?_
    have hall : ∀ name ∈ trackedOptions, startsWith name "-" = true := by decide
    exact fun name hmem => hall name (hsub hmem)
  have hmodel : isModelArg value = false := hnames (by decide)
  have hrepo : isHfRepoArg value = false := hnames (by decide)
  refine ⟨?_, hnames (by decide), hnames (by decide)⟩
  rw [namesSource, hmodel, hrepo]
  rfl

private theorem Inert.isEndpointArg_eq (h : Inert value) : isEndpointArg value = false :=
  namesOption_of_whole h.whole (by simp [h.host, h.port]) (by decide)

end

/-! ### Redaction -/

section

variable {s : Redaction} {name arg : String} {as bs : List String}

/-- A secret option hides whatever comes after it. -/
theorem foldl_step_secret (hs : s.redactNext = false) (hname : isSecretOption name = true)
    (value : String) :
    [name, value].foldl Redaction.step s = ⟨s.logged ++ [name] ++ [redacted], false⟩ := by
  simp [Redaction.step, hs, hname]

/-- After an argument without secret the next one is redacted exactly when it hides an option. -/
theorem redactNext_plain (harg : isSecretOption arg = false)
    (hjoined : ∀ name value, isSecretOption name = true → arg ≠ name ++ "=" ++ value) :
    ((expandArg arg).foldl Redaction.step s).redactNext = hidesSecretOption arg := by
  have hstep : ∀ {s : Redaction} {arg : String}, isSecretOption arg = false →
      (s.step arg).redactNext = false := by
    intro s arg harg
    unfold Redaction.step
    rw [harg]
    split <;> rfl
  unfold hidesSecretOption
  obtain ⟨hsame, -⟩ | ⟨flag, val, heq, -, -, hsplit⟩ := expandArg_cases arg
  · rw [hsame]
    exact hstep harg
  · have hflag : isSecretOption flag = false := by
      rw [Bool.eq_false_iff]
      exact fun h => hjoined flag val h heq
    rw [hsplit]
    simp only [List.foldl_cons, List.foldl_nil, hflag, Bool.not_false, Bool.true_and]
    rw [Redaction.step, if_neg (by simp [hstep hflag])]
    cases isSecretOption val <;> rfl

private theorem inStep_plain (harg : isSecretOption arg = false) :
    inStep (arg :: as) = (!(hidesSecretOption arg && beginsWithSecret as) && inStep as) := by
  cases as with
  | nil => simp [inStep, beginsWithSecret]
  | cons next as => rw [inStep, if_neg (by simp [harg])]

/-- Two runs of the loop stay in the same state when only inert secret values differ. -/
theorem SecretVariants.foldl_step_eq (h : SecretVariants Inert as bs) (hstep : inStep as = true)
    (s : Redaction) (hs : s.redactNext = true → beginsWithSecret as = false) :
    (as.flatMap expandArg).foldl Redaction.step s =
      (bs.flatMap expandArg).foldl Redaction.step s := by
  induction h generalizing s with
  | nil => rfl
  | missing _ => rfl
  | @plain arg as bs harg hjoined _ ih =>
    rw [inStep_plain harg, Bool.and_eq_true, Bool.not_eq_true', Bool.and_eq_false_iff] at hstep
    rw [List.flatMap_cons, List.flatMap_cons, List.foldl_append, List.foldl_append]
    refine ih hstep.2 _ fun hnext => ?_
    rw [redactNext_plain harg hjoined] at hnext
    obtain hhides | hbegins := hstep.1
    · rw [hnext] at hhides
      cases hhides
    · exact hbegins
  | @joined name v w as bs hname _ ih =>
    have hfresh : s.redactNext = false := by
      rw [Bool.eq_false_iff]
      intro hnext
      have hbegins := hs hnext
      simp [beginsWithSecret, expandArg_secret_joined hname, hname] at hbegins
    rw [inStep_plain (isSecretOption_joined name v), Bool.and_eq_true] at hstep
    rw [List.flatMap_cons, List.flatMap_cons, List.foldl_append, List.foldl_append,
      expandArg_secret_joined hname, expandArg_secret_joined hname, foldl_step_secret hfresh hname,
      foldl_step_secret hfresh hname]
    exact ih hstep.2 _ (by simp)
  | @spaced name v w as bs hname hv hw _ ih =>
    have hfresh : s.redactNext = false := by
      rw [Bool.eq_false_iff]
      intro hnext
      have hbegins := hs hnext
      simp [beginsWithSecret, hname] at hbegins
    rw [inStep, if_pos hname] at hstep
    have hexpand : ∀ {value : String} {rest : List String}, Inert value →
        (name :: value :: rest).flatMap expandArg = [name, value] ++ rest.flatMap expandArg := by
      intro value rest hvalue
      simp [expandArg_secret hname, hvalue.expandArg_eq]
    rw [hexpand hv, hexpand hw, List.foldl_append, List.foldl_append,
      foldl_step_secret hfresh hname, foldl_step_secret hfresh hname]
    exact ih hstep _ (by simp)

/-- Secret values do not set a flag. -/
theorem SecretVariants.any_eq (h : SecretVariants Inert as bs) {f : String → Bool}
    (hsecret : ∀ name text, isSecretOption name = true → f (name ++ text) = false)
    (hinert : ∀ value, Inert value → f value = false) : as.any f = bs.any f := by
  have hbare : ∀ name, isSecretOption name = true → f name = false := by
    intro name hname
    simpa using hsecret name "" hname
  induction h with
  | nil => rfl
  | missing _ => rfl
  | plain _ _ _ ih => rw [List.any_cons, List.any_cons, ih]
  | @joined name v w _ _ hname _ ih =>
    have hjoined : ∀ value, f (name ++ "=" ++ value) = false := by
      intro value
      rw [String.append_assoc]
      exact hsecret name _ hname
    rw [List.any_cons, List.any_cons, hjoined, hjoined, ih]
  | spaced hname hv hw _ ih =>
    simp only [List.any_cons, hbare _ hname, hinert _ hv, hinert _ hw, ih]

/-- The same defaults are appended. -/
theorem ProfileVariants.appended_eq {p q : Profile} (h : ProfileVariants Inert p q) :
    appended p = appended q := by
  have hsource := h.args.any_eq (fun _ text hname =>
    ((untracked_of_secret hname).names_nothing text).1) fun _ hv => hv.names_nothing.1
  have hctx := h.args.any_eq (fun _ text hname =>
    ((untracked_of_secret hname).names_nothing text).2.1) fun _ hv => hv.names_nothing.2.1
  have hfit := h.args.any_eq (fun _ text hname =>
    ((untracked_of_secret hname).names_nothing text).2.2) fun _ hv => hv.names_nothing.2.2
  unfold appended
  rw [hsource, hctx, hfit, h.same]
  rfl

end

/-! ### Hosts and ports -/

/-- What of the overrides shows in the arguments. -/
def overridden (result : Except EndpointError EndpointOverrides) : Option (Bool × Option Nat) :=
  result.toOption.map fun found => (found.host.isSome, found.port)

section

variable {found found' : EndpointOverrides} {arg : String} {as bs : List String}

private theorem scanEndpoints_skip (harg : isEndpointArg arg = false) :
    scanEndpoints found (arg :: as) = scanEndpoints found as := by
  have hparts : (arg ≠ "--host" ∧ startsWith arg "--host=" = false) ∧
      (arg ≠ "--port" ∧ startsWith arg "--port=" = false) := by
    simpa [isEndpointArg, namesOption] using harg
  have hhost : stripPrefix "--host=".toList arg.toList = none := if_neg (by
    rw [Bool.not_eq_true]
    exact hparts.1.2)
  have hport : stripPrefix "--port=".toList arg.toList = none := if_neg (by
    rw [Bool.not_eq_true]
    exact hparts.2.2)
  rw [scanEndpoints.eq_def]
  simp only [hparts.1.1, hparts.2.1, if_false, hhost, hport]

/-- Two argument lists with the same host and port options, after the first argument too. -/
structure EndpointsAlike (as bs : List String) : Prop where
  scan : ∀ {found found' : EndpointOverrides}, found.host.isSome = found'.host.isSome →
    found.port = found'.port →
    overridden (scanEndpoints found as) = overridden (scanEndpoints found' bs)
  tail : ∀ {found found' : EndpointOverrides}, found.host.isSome = found'.host.isSome →
    found.port = found'.port →
    overridden (scanEndpoints found as.tail) = overridden (scanEndpoints found' bs.tail)
  head : as.head?.map parsePort = bs.head?.map parsePort

private theorem EndpointsAlike.nil : EndpointsAlike [] [] := by
  have hscan : ∀ {found found' : EndpointOverrides}, found.host.isSome = found'.host.isSome →
      found.port = found'.port →
      overridden (scanEndpoints found []) = overridden (scanEndpoints found' []) := by
    intro found found' hhost hport
    simp [scanEndpoints, overridden, Except.toOption, hhost, hport]
  exact ⟨hscan, hscan, rfl⟩

private theorem EndpointsAlike.cons (h : EndpointsAlike as bs) (arg : String) :
    EndpointsAlike (arg :: as) (arg :: bs) := by
  refine ⟨fun {found found'} hhost hport => ?_, h.scan, rfl⟩
  rw [scanEndpoints.eq_def, scanEndpoints.eq_def found']
  have hhead := h.head
  dsimp only
  split
  · -- `--host` takes the next argument
    cases as with
    | nil =>
      cases bs with
      | nil => rfl
      | cons b bs => cases hhead
    | cons a as =>
      cases bs with
      | nil => cases hhead
      | cons b bs => exact h.tail rfl hport
  · split
    · -- and so does `--port`, where it is a number
      cases as with
      | nil =>
        cases bs with
        | nil => rfl
        | cons b bs => cases hhead
      | cons a as =>
        cases bs with
        | nil => cases hhead
        | cons b bs =>
          have hparse : parsePort a = parsePort b := by simpa using hhead
          dsimp only
          rw [hparse]
          cases parsePort b with
          | none => rfl
          | some port => exact h.tail hhost rfl
    · cases stripPrefix "--host=".toList arg.toList with
      | some host => exact h.scan rfl hport
      | none =>
        cases stripPrefix "--port=".toList arg.toList with
        | none => exact h.scan hhost hport
        | some port =>
          dsimp only
          cases parsePort (String.ofList port) with
          | none => rfl
          | some parsed => exact h.scan hhost rfl

/-- Arguments that are no host or port option may differ. -/
theorem EndpointsAlike.skip (h : EndpointsAlike as bs) {a b : String}
    (ha : isEndpointArg a = false) (hb : isEndpointArg b = false)
    (hparse : parsePort a = parsePort b) : EndpointsAlike (a :: as) (b :: bs) := by
  refine ⟨fun hhost hport => ?_, h.scan, by simp [hparse]⟩
  rw [scanEndpoints_skip ha, scanEndpoints_skip hb]
  exact h.scan hhost hport

/-- A text that starts with a dash is no port. -/
theorem parsePort_dash (h : startsWith arg "-" = true) : parsePort arg = none := by
  obtain ⟨rest, hrest⟩ := startsWith_iff.mp h
  have hlist : arg.toList = '-' :: rest := hrest.symm
  unfold parsePort parseUnsigned
  rw [hlist]
  exact if_neg fun hdigits => absurd hdigits.2.1 (by simp)

/-- Secret values do not show in the host and port options. -/
theorem SecretVariants.endpointsAlike (h : SecretVariants Inert as bs) : EndpointsAlike as bs := by
  induction h with
  | nil => exact .nil
  | missing _ => exact EndpointsAlike.nil.cons _
  | plain _ _ _ ih => exact ih.cons _
  | @joined name v w _ _ hname _ ih =>
    have hjoined : ∀ value, isEndpointArg (name ++ "=" ++ value) = false := by
      intro value
      rw [String.append_assoc]
      exact isEndpointArg_secret hname _
    have hparse : ∀ value, parsePort (name ++ "=" ++ value) = none := by
      intro value
      refine parsePort_dash (startsWith_iff.mpr ?_)
      exact (startsWith_iff.mp (secret_names hname).1).trans (by simp)
    exact ih.skip (hjoined v) (hjoined w) ((hparse v).trans (hparse w).symm)
  | @spaced name v w as bs hname hv hw _ ih =>
    have hbare : isEndpointArg name = false := by simpa using isEndpointArg_secret hname ""
    refine ⟨fun hhost hport => ?_, fun hhost hport => ?_, rfl⟩
    · rw [scanEndpoints_skip hbare, scanEndpoints_skip hbare,
        scanEndpoints_skip hv.isEndpointArg_eq, scanEndpoints_skip hw.isEndpointArg_eq]
      exact ih.scan hhost hport
    · rw [List.tail_cons, List.tail_cons, scanEndpoints_skip hv.isEndpointArg_eq,
        scanEndpoints_skip hw.isEndpointArg_eq]
      exact ih.scan hhost hport

end

/-! ### Noninterference -/

section

variable {p q : Profile} {port : Nat}

private theorem endpointArgs_eq {found found' : EndpointOverrides}
    (hhost : found.host.isSome = found'.host.isSome) (hport : found.port = found'.port) :
    endpointArgs found port = endpointArgs found' port := by
  have hnone : found.host.isNone = found'.host.isNone := by
    rw [← Option.not_isSome, ← Option.not_isSome, hhost]
  unfold endpointArgs
  rw [hnone, hport]

/-- The log of a profile whose host and port options are accepted. -/
theorem loggedArgs_of_scan {found : EndpointOverrides}
    (h : scanEndpoints ⟨none, none⟩ p.llamaServerArgs = .ok found) :
    loggedArgs p port = some (redactSecretArgs (p.llamaServerArgs.flatMap expandArg ++
      (appended p ++ endpointArgs found port))) := by
  rw [loggedArgs, instanceArgs, h, buildPreArgs_args, ← List.append_assoc]
  rfl

private theorem loggedArgs_of_error {e : EndpointError}
    (h : scanEndpoints ⟨none, none⟩ p.llamaServerArgs = .error e) : loggedArgs p port = none := by
  rw [loggedArgs, instanceArgs, h]
  rfl

private theorem ProfileVariants.overridden_eq (h : ProfileVariants Inert p q) :
    overridden (scanEndpoints ⟨none, none⟩ p.llamaServerArgs) =
      overridden (scanEndpoints ⟨none, none⟩ q.llamaServerArgs) :=
  h.args.endpointsAlike.scan rfl rfl

/-- A profile is refused whatever its secret values are. -/
theorem ProfileVariants.loggedArgs_of_error (h : ProfileVariants Inert p q) {e : EndpointError}
    (hp : scanEndpoints ⟨none, none⟩ p.llamaServerArgs = .error e) : loggedArgs q port = none := by
  have halike := h.overridden_eq
  cases hq : scanEndpoints ⟨none, none⟩ q.llamaServerArgs with
  | error e' => exact Instance.loggedArgs_of_error hq
  | ok found' =>
    rw [hp, hq] at halike
    cases halike

/-- The arguments of two profiles that differ in inert secret values are logged alike. -/
theorem ProfileVariants.loggedArgs_eq (h : ProfileVariants Inert p q)
    (hstep : inStep p.llamaServerArgs = true) : loggedArgs p port = loggedArgs q port := by
  have halike := h.overridden_eq
  cases hp : scanEndpoints ⟨none, none⟩ p.llamaServerArgs with
  | error e => rw [Instance.loggedArgs_of_error hp, h.loggedArgs_of_error hp]
  | ok found =>
    cases hq : scanEndpoints ⟨none, none⟩ q.llamaServerArgs with
    | error e' =>
      rw [hp, hq] at halike
      cases halike
    | ok found' =>
      rw [hp, hq] at halike
      obtain ⟨hhost, hport⟩ :
          found.host.isSome = found'.host.isSome ∧ found.port = found'.port := by
        simpa [overridden, Except.toOption] using halike
      rw [loggedArgs_of_scan hp, loggedArgs_of_scan hq, h.appended_eq, endpointArgs_eq hhost hport,
        redactSecretArgs, redactSecretArgs, List.foldl_append,
        h.args.foldl_step_eq hstep _ (by simp), ← List.foldl_append]

end

/-! ### Values that show -/

section

variable {s : Redaction} {args : List String} {value : String} {port : Nat}

private theorem step_logged_length (s : Redaction) (arg : String) :
    (s.step arg).logged.length = s.logged.length + 1 := by
  unfold Redaction.step
  split
  · simp
  · split <;> simp

private theorem foldl_step_logged_length (args : List String) (s : Redaction) :
    (args.foldl Redaction.step s).logged.length = s.logged.length + args.length := by
  induction args generalizing s with
  | nil => rfl
  | cons arg args ih =>
    rw [List.foldl_cons, ih, step_logged_length, List.length_cons]
    omega

private theorem length_redactSecretArgs (args : List String) :
    (redactSecretArgs args).length = args.length := by
  rw [redactSecretArgs, foldl_step_logged_length]
  exact Nat.zero_add _

private theorem length_endpointArgs (found : EndpointOverrides) (port : Nat) :
    (endpointArgs found port).length =
      (if found.host.isNone then 2 else 0) + (if found.port.isNone then 2 else 0) := by
  unfold endpointArgs
  cases found.host.isNone <;> cases found.port.isNone <;> rfl

/-- A profile with a token as its only argument. -/
def tokenProfile (value : String) : Profile :=
  ⟨["--hf-token", value], none, none, some "model.gguf"⟩

private theorem appended_tokenProfile (value : String) :
    appended (tokenProfile value) =
      appendedUnless (tokenProfile value) (namesSource value) (isCtxSizeArg value)
        (isFitArg value) := by
  have hname : ∀ {f : String → Bool}, f "--hf-token" = false →
      ["--hf-token", value].any f = f value := by
    intro f hf
    simp [hf]
  have hargs : (tokenProfile value).llamaServerArgs = ["--hf-token", value] := rfl
  rw [appended, hargs, hname (by decide), hname (by decide), hname (by decide)]

/-- The length of the log of such a profile. -/
theorem length_of_loggedArgs_tokenProfile {found : EndpointOverrides} {log : List String}
    (hscan : scanEndpoints ⟨none, none⟩ (tokenProfile value).llamaServerArgs = .ok found)
    (hlog : loggedArgs (tokenProfile value) port = some log) :
    log.length = 1 + (expandArg value).length + ((if namesSource value then 0 else 2) +
      (if isCtxSizeArg value then 0 else 2) + (if isFitArg value then 0 else 2)) +
      ((if found.host.isNone then 2 else 0) + (if found.port.isNone then 2 else 0)) := by
  have hargs : (tokenProfile value).llamaServerArgs.flatMap expandArg =
      "--hf-token" :: expandArg value := by
    have hname : expandArg "--hf-token" = ["--hf-token"] := by decide
    simp [tokenProfile, hname]
  have hsource : (modelSource (tokenProfile value)).length = 2 := rfl
  rw [loggedArgs_of_scan hscan, hargs, appended_tokenProfile, Option.some.injEq] at hlog
  rw [← hlog, length_redactSecretArgs, List.length_append, List.length_append, List.length_cons,
    length_appendedUnless, length_endpointArgs, hsource]
  omega

/-- An inert token leaves everything to the defaults. -/
theorem Inert.loggedArgs_tokenProfile (h : Inert value) (port : Nat) :
    ∃ log, loggedArgs (tokenProfile value) port = some log ∧ log.length = 12 := by
  have hscan : scanEndpoints ⟨none, none⟩ (tokenProfile value).llamaServerArgs =
      .ok ⟨none, none⟩ := by
    rw [tokenProfile, scanEndpoints_skip (by decide), scanEndpoints_skip h.isEndpointArg_eq]
    rfl
  obtain ⟨hsource, hctx, hfit⟩ := h.names_nothing
  refine ⟨_, loggedArgs_of_scan hscan, ?_⟩
  rw [length_of_loggedArgs_tokenProfile hscan (loggedArgs_of_scan hscan),
    h.expandArg_eq, hsource, hctx, hfit]
  rfl

/-- Every other token changes the length of the log, or prevents it. -/
theorem Inert.of_loggedArgs_tokenProfile {log : List String}
    (hlog : loggedArgs (tokenProfile value) port = some log) (hlength : log.length = 12) :
    Inert value := by
  cases hscan : scanEndpoints ⟨none, none⟩ (tokenProfile value).llamaServerArgs with
  | error e =>
    rw [loggedArgs_of_error hscan] at hlog
    cases hlog
  | ok found =>
    rw [length_of_loggedArgs_tokenProfile hscan hlog] at hlength
    -- Every default comes as a pair of arguments or not at all.
    have hgiven : ∀ b : Bool, (if b then 0 else 2) = 0 ∨ (if b then 0 else 2) = 2 := by decide
    have hmissing : ∀ b : Bool, (if b then 2 else 0) = 0 ∨ (if b then 2 else 0) = 2 := by decide
    have hsource := hgiven (namesSource value)
    have hctx := hgiven (isCtxSizeArg value)
    have hfit := hgiven (isFitArg value)
    have hhost := hmissing found.host.isNone
    have hport := hmissing found.port.isNone
    obtain ⟨hsame, hwhole⟩ | ⟨flag, val, -, -, -, hsplit⟩ := expandArg_cases value
    · rw [hsame, List.length_singleton] at hlength
      refine ⟨hwhole, fun hmem => ?_, ?_, ?_⟩
      · have hall : ∀ option ∈ trackedOptions,
            namesSource option = true ∨ isCtxSizeArg option = true ∨ isFitArg option = true := by
          decide
        obtain hoption | hoption | hoption := hall value hmem
        · rw [if_pos hoption] at hlength
          omega
        · rw [if_pos hoption] at hlength
          omega
        · rw [if_pos hoption] at hlength
          omega
      · rintro rfl
        cases hscan
      · rintro rfl
        cases hscan
    · -- A value that is split makes one argument more.
      rw [hsplit, List.length_cons, List.length_singleton] at hlength
      omega

/-- What is logged stays. -/
theorem logged_prefix_foldl (args : List String) (s : Redaction) :
    s.logged <+: (args.foldl Redaction.step s).logged := by
  induction args generalizing s with
  | nil => exact List.prefix_refl _
  | cons arg args ih =>
    refine List.IsPrefix.trans ?_ (ih (s.step arg))
    unfold Redaction.step
    split
    · exact List.prefix_append _ _
    · split <;> exact List.prefix_append _ _

/-- What is logged of an argument that is not a secret value. -/
def shown (arg : String) : String := if isSecretOption arg then arg else redactJoined arg

private theorem step_logged (hs : s.redactNext = false) (arg : String) :
    (s.step arg).logged = s.logged ++ [shown arg] := by
  unfold Redaction.step shown
  rw [if_neg (by simp [hs])]
  split <;> rfl

/-- Some inert value is shown differently from a given text. -/
theorem exists_inert_ne (text : String) : ∃ value, Inert value ∧ shown value ≠ text := by
  have ha : Inert "a" := ⟨by decide, by decide, by decide, by decide⟩
  have hb : Inert "b" := ⟨by decide, by decide, by decide, by decide⟩
  by_cases htext : shown "a" = text
  · refine ⟨"b", hb, ?_⟩
    rw [← htext]
    decide
  · exact ⟨"a", ha, htext⟩

/-- When the argument before it has hidden a secret option, the secret option itself is redacted
and its value is logged. -/
theorem logged_of_out_of_step (hs : s.redactNext = true) (name v w : String) (as bs : List String)
    (hne : shown v ≠ shown w) :
    ((name :: v :: as).foldl Redaction.step s).logged ≠
      ((name :: w :: bs).foldl Redaction.step s).logged := by
  intro heq
  have hname : s.step name = ⟨s.logged ++ [redacted], false⟩ := by
    rw [Redaction.step, if_pos hs]
  have hshown : ∀ value, ((s.step name).step value).logged =
      s.logged ++ [redacted] ++ [shown value] := by
    intro value
    rw [hname, step_logged rfl]
  have hv := logged_prefix_foldl as ((s.step name).step v)
  have hw := logged_prefix_foldl bs ((s.step name).step w)
  simp only [List.foldl_cons] at heq
  rw [heq] at hv
  have hsame := (List.prefix_of_prefix_length_le hv hw (by simp [hshown])).eq_of_length
    (by simp [hshown])
  rw [hshown, hshown] at hsame
  exact hne (by simpa using hsame)

end

section

variable {allowed : String → Prop} {arg next : String} {as bs : List String}

/-- The value of a secret option is an allowed one. -/
theorem SecretVariants.of_secret (h : SecretVariants allowed (arg :: next :: as) bs)
    (harg : isSecretOption arg = true) :
    allowed next ∧ ∃ w bs', bs = arg :: w :: bs' ∧ SecretVariants allowed as bs' := by
  cases h with
  | plain hplain =>
    rw [harg] at hplain
    cases hplain
  | @joined name v =>
    rw [isSecretOption_joined] at harg
    cases harg
  | spaced _ hv _ htail => exact ⟨hv, _, _, rfl, htail⟩

/-- Behind any other argument the lists differ alike, and it may stay as it is. -/
theorem SecretVariants.of_not_secret (h : SecretVariants allowed (arg :: as) bs)
    (harg : isSecretOption arg = false) :
    (∃ arg' bs', bs = arg' :: bs' ∧ SecretVariants allowed as bs') ∧
      ∀ {as' bs' : List String}, SecretVariants allowed as' bs' →
        SecretVariants allowed (arg :: as') (arg :: bs') := by
  cases h with
  | plain hplain hjoined htail => exact ⟨⟨_, _, rfl, htail⟩, .plain hplain hjoined⟩
  | joined hname htail => exact ⟨⟨_, _, rfl, htail⟩, .joined hname⟩
  | spaced hname =>
    rw [hname] at harg
    cases harg
  | missing hname =>
    rw [hname] at harg
    cases harg

private theorem SecretVariants.self_of_secret
    (h : SecretVariants allowed (arg :: next :: as) (arg :: next :: as))
    (harg : isSecretOption arg = true) : allowed next ∧ SecretVariants allowed as as := by
  obtain ⟨hnext, w, bs', heq, htail⟩ := h.of_secret harg
  obtain ⟨-, rfl, rfl⟩ : arg = arg ∧ next = w ∧ as = bs' := by simpa using heq
  exact ⟨hnext, htail⟩

private theorem SecretVariants.self_of_not_secret
    (h : SecretVariants allowed (arg :: as) (arg :: as))
    (harg : isSecretOption arg = false) :
    SecretVariants allowed as as ∧ ∀ {as' bs' : List String}, SecretVariants allowed as' bs' →
      SecretVariants allowed (arg :: as') (arg :: bs') := by
  obtain ⟨⟨arg', bs', heq, htail⟩, hcons⟩ := h.of_not_secret harg
  obtain ⟨-, rfl⟩ : arg = arg' ∧ as = bs' := by simpa using heq
  exact ⟨htail, hcons⟩

/-- An argument that hides a secret option has no secret itself. -/
theorem ne_joined_of_hides (h : hidesSecretOption arg = true) (name value : String)
    (hname : isSecretOption name = true) : arg ≠ name ++ "=" ++ value := by
  rintro rfl
  unfold hidesSecretOption at h
  rw [expandArg_secret_joined hname] at h
  simp [hname] at h

/-- A secret value directly after a hidden secret option can be exchanged for one that shows. -/
theorem SecretVariants.exists_leak_of_begins (h : SecretVariants Inert as as)
    (hbegins : beginsWithSecret as = true) :
    ∃ bs, SecretVariants Inert as bs ∧ ∀ (s : Redaction) (xs ys : List String),
      s.redactNext = true → ((as.flatMap expandArg ++ xs).foldl Redaction.step s).logged ≠
        ((bs.flatMap expandArg ++ ys).foldl Redaction.step s).logged := by
  cases as with
  | nil => cases hbegins
  | cons next args =>
    cases hnext : isSecretOption next with
    | true =>
      cases args with
      | nil => simp [beginsWithSecret, hnext, expandArg_secret hnext] at hbegins
      | cons v args =>
        obtain ⟨hv, htail⟩ := h.self_of_secret hnext
        obtain ⟨w, hw, hne⟩ := exists_inert_ne (shown v)
        refine ⟨next :: w :: args, .spaced hnext hv hw htail, fun s xs ys hs => ?_⟩
        simp only [List.flatMap_cons, expandArg_secret hnext, hv.expandArg_eq, hw.expandArg_eq,
          List.cons_append, List.nil_append]
        exact logged_of_out_of_step hs next v w _ _ hne.symm
    | false =>
      have htail := (h.self_of_not_secret hnext).1
      rw [beginsWithSecret, hnext, Bool.false_and, Bool.false_or] at hbegins
      obtain ⟨hsame, -⟩ | ⟨flag, v, harg, -, -, hsplit⟩ := expandArg_cases next
      · rw [hsame] at hbegins
        cases hbegins
      · rw [hsplit] at hbegins
        obtain ⟨w, hw, hne⟩ := exists_inert_ne (shown v)
        refine ⟨(flag ++ "=" ++ w) :: args, ?_, fun s xs ys hs => ?_⟩
        · rw [harg]
          exact .joined hbegins htail
        · simp only [List.flatMap_cons, hsplit, expandArg_secret_joined hbegins,
            List.cons_append, List.nil_append]
          exact logged_of_out_of_step hs flag v w _ _ hne.symm

/-- Out of step, some other inert value is logged differently, whatever follows. -/
theorem SecretVariants.exists_leak (h : SecretVariants Inert as as) (hstep : inStep as = false) :
    ∃ bs, SecretVariants Inert as bs ∧ ∀ (s : Redaction) (xs ys : List String),
      ((as.flatMap expandArg ++ xs).foldl Redaction.step s).logged ≠
        ((bs.flatMap expandArg ++ ys).foldl Redaction.step s).logged := by
  induction as using inStep.induct with
  | case1 => cases hstep
  | case2 arg => cases hstep
  | case3 arg next args harg ih =>
    obtain ⟨hnext, htail⟩ := h.self_of_secret harg
    rw [inStep, if_pos harg] at hstep
    obtain ⟨bs, hvariants, hleak⟩ := ih htail hstep
    refine ⟨arg :: next :: bs, .spaced harg hnext hnext hvariants, fun s xs ys => ?_⟩
    simp only [List.flatMap_cons, List.append_assoc, List.foldl_append (l := expandArg arg),
      List.foldl_append (l := expandArg next)]
    exact hleak _ xs ys
  | case4 arg next args harg ih =>
    have hplain : isSecretOption arg = false := by simpa using harg
    obtain ⟨htail, hcons⟩ := h.self_of_not_secret hplain
    cases hrest : inStep (next :: args) with
    | false =>
      obtain ⟨bs, hvariants, hleak⟩ := ih htail hrest
      refine ⟨arg :: bs, hcons hvariants, fun s xs ys => ?_⟩
      simp only [List.flatMap_cons (x := arg), List.append_assoc,
        List.foldl_append (l := expandArg arg)]
      exact hleak _ xs ys
    | true =>
      rw [inStep_plain hplain, hrest, Bool.and_true, Bool.not_eq_false', Bool.and_eq_true] at hstep
      obtain ⟨hhides, hbegins⟩ := hstep
      obtain ⟨bs, hvariants, hleak⟩ := htail.exists_leak_of_begins hbegins
      refine ⟨arg :: bs, hcons hvariants, fun s xs ys => ?_⟩
      simp only [List.flatMap_cons (x := arg), List.append_assoc,
        List.foldl_append (l := expandArg arg)]
      refine hleak _ xs ys ?_
      rw [redactNext_plain hplain (ne_joined_of_hides hhides), hhides]

private theorem SecretVariants.mono {allowed' : String → Prop} (h : SecretVariants allowed as bs)
    (hmono : ∀ value, allowed value → allowed' value) : SecretVariants allowed' as bs := by
  induction h with
  | nil => exact .nil
  | plain harg hjoined _ ih => exact .plain harg hjoined ih
  | joined hname _ ih => exact .joined hname ih
  | spaced hname hv hw _ ih => exact .spaced hname (hmono _ hv) (hmono _ hw) ih
  | missing hname => exact .missing hname

end

/-- Out of step, the log of a profile that is not refused depends on its secret values. -/
theorem ProfileVariants.exists_logged_ne {p : Profile} {found : EndpointOverrides}
    (h : ProfileVariants Inert p p) (port : Nat) (hstep : inStep p.llamaServerArgs = false)
    (hscan : scanEndpoints ⟨none, none⟩ p.llamaServerArgs = .ok found) :
    ∃ q, ProfileVariants Inert p q ∧ loggedArgs p port ≠ loggedArgs q port := by
  obtain ⟨bs, hvariants, hleak⟩ := h.args.exists_leak hstep
  refine ⟨{ p with llamaServerArgs := bs }, ⟨hvariants, rfl⟩, ?_⟩
  cases hq : scanEndpoints ⟨none, none⟩ bs with
  | error e =>
    rw [loggedArgs_of_scan hscan,
      Instance.loggedArgs_of_error (p := { p with llamaServerArgs := bs }) hq]
    exact Option.some_ne_none _
  | ok found' =>
    rw [loggedArgs_of_scan hscan, loggedArgs_of_scan (p := { p with llamaServerArgs := bs }) hq, Ne,
      Option.some.injEq]
    exact hleak _ _ _

/-- What is logged does not depend on the secret values exactly when those given as an argument of
their own are inert and no secret option with a value comes directly after an argument that hides
another: among profiles that are in step the allowed values must be inert, and a profile with inert
values must be in step, or is refused for its host or port. -/
theorem logged_alike_iff (port : Nat) (allowed : String → Prop) (value : String)
    (hallowed : allowed value) (hinert : Inert value) :
    ((∀ p q, ProfileVariants allowed p q → inStep p.llamaServerArgs = true →
        loggedArgs p port = loggedArgs q port) ↔ ∀ v, allowed v → Inert v) ∧
      ∀ p, ProfileVariants Inert p p →
        ((∀ q, ProfileVariants Inert p q → loggedArgs p port = loggedArgs q port) ↔
          inStep p.llamaServerArgs = true ∨
            (scanEndpoints ⟨none, none⟩ p.llamaServerArgs).toOption = none) := by
  constructor
  · constructor
    · intro halike v hv
      have hvariants : ProfileVariants allowed (tokenProfile value) (tokenProfile v) :=
        ⟨.spaced (by decide) hallowed hv .nil, rfl⟩
      obtain ⟨log, hlog, hlength⟩ := hinert.loggedArgs_tokenProfile port
      have hstep : inStep (tokenProfile value).llamaServerArgs = true := by
        rw [tokenProfile, inStep, if_pos (by decide)]
        rfl
      rw [halike _ _ hvariants hstep] at hlog
      exact .of_loggedArgs_tokenProfile hlog hlength
    · intro hall p q hvariants hstep
      exact ProfileVariants.loggedArgs_eq ⟨hvariants.args.mono hall, hvariants.same⟩ hstep
  · intro p hself
    cases hscan : scanEndpoints ⟨none, none⟩ p.llamaServerArgs with
    | error e =>
      refine iff_of_true (fun q hvariants => ?_) (.inr rfl)
      rw [loggedArgs_of_error hscan, hvariants.loggedArgs_of_error hscan]
    | ok found =>
      constructor
      · intro halike
        by_contra hcond
        rw [not_or, Bool.not_eq_true] at hcond
        obtain ⟨q, hvariants, hne⟩ := hself.exists_logged_ne port hcond.1 hscan
        exact hne (halike q hvariants)
      · rintro (hstep | hrefused)
        · exact fun q hvariants => hvariants.loggedArgs_eq hstep
        · cases hrefused

/-- A token without a dash is logged like any other. -/
theorem logged_alike_token :
    Inert "hf_abc" ∧ loggedArgs (tokenProfile "hf_abc") 8080 =
      loggedArgs (tokenProfile "hf_def") 8080 := by
  have habc : Inert "hf_abc" := ⟨by decide, by decide, by decide, by decide⟩
  have hdef : Inert "hf_def" := ⟨by decide, by decide, by decide, by decide⟩
  exact ⟨habc, ((logged_alike_iff 8080 Inert "hf_abc" habc habc).1.mpr fun _ hv => hv) _ _
    ⟨.spaced (by decide) habc hdef .nil, rfl⟩ (by decide)⟩

/-- The end of a token that starts with a dash is logged behind its `=`. -/
theorem token_shows_behind_equals :
    ¬ ∀ (port : Nat) (p q : Profile), ProfileVariants (fun _ => True) p q →
      loggedArgs p port = loggedArgs q port := by
  intro h
  have hlogged := h 8080 (tokenProfile "-t0k=abc") (tokenProfile "-t0k=def")
    ⟨.spaced (by decide) trivial trivial .nil, rfl⟩
  exact absurd hlogged (by decide)

end Llamesh.Instance
