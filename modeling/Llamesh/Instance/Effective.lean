import Llamesh.Instance.PreArgs
import Llamesh.Library.LastWins

/-!
# Options in force

The hash of launch arguments (`src/instance.rs:315–367`) forgets the order of the options, and an
instance whose hash is unchanged is kept when the cookbook is reloaded
(`src/node_state/mod.rs:812–821`). `llama-server` lets the last of several settings win. How it
reads an option and its values as a setting is a parameter here. Equal hashed bytes mean the same
settings in force exactly when the arguments give no option two values.
-/

namespace Llamesh.Instance.ArgsHash

open Text

variable {ι ν : Type} [DecidableEq ι]

/-- Each option of an argument list with its values, without host and port. -/
def optionsOf (args : List String) : List (List String) := (splitOptions (withoutEndpoints args)).2

/-- The value of an option that is in force, where `read` is what an option and its values set. -/
def effective (read : List String → ι × ν) (args : List String) (option : ι) : Option ν :=
  LastWins.winner ((optionsOf args).map read) option

/-- No option is given two values. -/
def Unconflicted (read : List String → ι × ν) (args : List String) : Prop :=
  LastWins.Consistent ((optionsOf args).map read)

/-- An argument list as the process holds it: a `String` takes 24 bytes, and no allocation exceeds
`isize::MAX` bytes. -/
structure Allocated (args : List String) : Prop where
  count : 24 * args.length < 2 ^ 63
  sizes : ∀ arg ∈ args, (utf8Encode arg.toList).length < 2 ^ 63

/-! ### Groups -/

/-- An option and the values after it. -/
def IsGroup (group : List String) : Prop :=
  ∃ option values, group = option :: values ∧ isOption option = true ∧
    ∀ value ∈ values, isOption value = false

section

variable {args values : List String} {groups : List (List String)} {arg : String}

private theorem splitOptions_option (harg : isOption arg = true) (args : List String) :
    splitOptions (arg :: args) =
      ([], (arg :: (splitOptions args).1) :: (splitOptions args).2) := if_pos harg

private theorem splitOptions_value (harg : isOption arg = false) (args : List String) :
    splitOptions (arg :: args) = (arg :: (splitOptions args).1, (splitOptions args).2) :=
  if_neg (by simp [harg])

private theorem splitOptions_spec (args : List String) :
    (∀ value ∈ (splitOptions args).1, isOption value = false) ∧
      ∀ group ∈ (splitOptions args).2, IsGroup group := by
  induction args with
  | nil => simp [splitOptions]
  | cons arg args ih =>
    cases harg : isOption arg with
    | true =>
      rw [splitOptions_option harg]
      refine ⟨by simp, fun group hgroup => ?_⟩
      obtain rfl | hgroup := List.mem_cons.mp hgroup
      · exact ⟨arg, _, rfl, harg, ih.1⟩
      · exact ih.2 group hgroup
    | false =>
      rw [splitOptions_value harg]
      refine ⟨fun value hvalue => ?_, ih.2⟩
      obtain rfl | hvalue := List.mem_cons.mp hvalue
      · exact harg
      · exact ih.1 value hvalue

/-- The pieces are the list. -/
theorem splitOptions_flatten (args : List String) :
    (splitOptions args).1 ++ (splitOptions args).2.flatten = args := by
  induction args with
  | nil => rfl
  | cons arg args ih =>
    cases harg : isOption arg with
    | true =>
      rw [splitOptions_option harg, List.flatten_cons, List.nil_append, List.cons_append, ih]
    | false => rw [splitOptions_value harg, List.cons_append, ih]

private theorem splitOptions_values (hvalues : ∀ value ∈ values, isOption value = false)
    (args : List String) :
    splitOptions (values ++ args) = (values ++ (splitOptions args).1, (splitOptions args).2) := by
  induction values with
  | nil => rfl
  | cons value values ih =>
    have hvalue := hvalues value List.mem_cons_self
    have htail := ih fun v hv => hvalues v (List.mem_cons_of_mem _ hv)
    rw [List.cons_append, splitOptions_value hvalue, htail, List.cons_append]

/-- A list put together from values and groups is split into these. -/
theorem splitOptions_join (hvalues : ∀ value ∈ values, isOption value = false)
    (hgroups : ∀ group ∈ groups, IsGroup group) :
    splitOptions (values ++ groups.flatten) = (values, groups) := by
  induction groups generalizing values with
  | nil =>
    have hsplit := splitOptions_values hvalues []
    simpa [splitOptions] using hsplit
  | cons group groups ih =>
    obtain ⟨option, after, rfl, hoption, hafter⟩ := hgroups _ List.mem_cons_self
    have htail := ih hafter fun g hg => hgroups g (List.mem_cons_of_mem _ hg)
    rw [splitOptions_values hvalues, List.flatten_cons, List.cons_append,
      splitOptions_option hoption, htail, List.append_nil]

/-- What is left without host and port is no host or port option. -/
theorem not_endpoint_of_mem (h : arg ∈ withoutEndpoints args) :
    (isBareEndpoint arg || isEndpoint arg) = false := by
  induction args using withoutEndpoints.induct with
  | case1 => cases h
  | case2 first hskip =>
    rw [withoutEndpoints, if_pos hskip] at h
    cases h
  | case3 first hkeep =>
    rw [withoutEndpoints, if_neg hkeep, List.mem_singleton] at h
    rw [h]
    exact Bool.eq_false_iff.mpr hkeep
  | case4 first next args hb ih =>
    rw [withoutEndpoints, if_pos hb] at h
    exact ih h
  | case5 first next args hb he ih =>
    rw [withoutEndpoints, if_neg hb, if_pos he] at h
    exact ih h
  | case6 first next args hb he ih =>
    rw [withoutEndpoints, if_neg hb, if_neg he, List.mem_cons] at h
    obtain rfl | h := h
    · rw [Bool.eq_false_iff.mpr hb, Bool.eq_false_iff.mpr he]
      rfl
    · exact ih h

private theorem withoutEndpoints_cons (harg : (isBareEndpoint arg || isEndpoint arg) = false)
    (args : List String) : withoutEndpoints (arg :: args) = arg :: withoutEndpoints args := by
  rw [Bool.or_eq_false_iff] at harg
  cases args with
  | nil => simp [withoutEndpoints, harg]
  | cons next args => rw [withoutEndpoints, if_neg (by simp [harg]), if_neg (by simp [harg])]

private theorem filter_optionGroups (args : List String) :
    (optionGroups args).filter (fun group => group.head?.any isOption) = optionsOf args := by
  obtain ⟨hvalues, hgroups⟩ := splitOptions_spec (withoutEndpoints args)
  have hleading : ((splitOptions (withoutEndpoints args)).1.map fun value => [value]).filter
      (fun group => group.head?.any isOption) = [] := by
    rw [List.filter_eq_nil_iff]
    intro group hgroup
    obtain ⟨value, hvalue, rfl⟩ := List.mem_map.mp hgroup
    simp [hvalues value hvalue]
  have hkept : (splitOptions (withoutEndpoints args)).2.filter
      (fun group => group.head?.any isOption) = (splitOptions (withoutEndpoints args)).2 := by
    rw [List.filter_eq_self]
    intro group hgroup
    obtain ⟨option, after, rfl, hoption, -⟩ := hgroups group hgroup
    exact hoption
  rw [optionGroups, optionsOf]
  change List.filter _ (_ ++ _) = _
  rw [List.filter_append, hleading, hkept, List.nil_append]

end

/-! ### Orders of the options -/

/-- Argument lists with the same hashed bytes have the same options. -/
theorem optionsOf_perm {a b : ArgList} (h : preimage b.args = preimage a.args) :
    (optionsOf a.args).Perm (optionsOf b.args) := by
  rw [preimage_eq_iff_perm] at h
  rw [← filter_optionGroups, ← filter_optionGroups]
  exact h.symm.filter _

/-- The order of the option groups does not show in the hashed bytes. -/
theorem preimage_eq_of_perm {args args' : List String}
    (h : (optionGroups args).Perm (optionGroups args')) : preimage args = preimage args' := by
  rw [preimage, preimage, collectGroups_eq, collectGroups_eq, sortGroups_eq_iff.mpr h]

/-- Arguments of a profile that are built to the given ones, up to host and port: each stands behind
a host option that takes the name before its `=`. At the end stands what keeps the defaults away. -/
def rawArgsFor (args : List String) : List String :=
  args.flatMap (fun arg => ["--host", "-x" ++ "=" ++ arg]) ++
    ["--host", "-m", "--host", "-c", "--host", "--fit"]

section

variable {args : List String}

private theorem buildPreArgs_rawArgsFor (p : Profile) (args : List String) :
    (buildPreArgs { p with llamaServerArgs := rawArgsFor args }).1 =
      args.flatMap (fun arg => ["--host", "-x", arg]) ++
        ["--host", "-m", "--host", "-c", "--host", "--fit"] := by
  have hnone : appended { p with llamaServerArgs := rawArgsFor args } = [] := by
    have hany : ∀ {f : String → Bool},
        ["--host", "-m", "--host", "-c", "--host", "--fit"].any f = true →
          (rawArgsFor args).any f = true := by
      intro f hf
      rw [rawArgsFor, List.any_append, hf, Bool.or_true]
    rw [appended, hany (by decide), hany (by decide), hany (by decide)]
    rfl
  have hjoined : ∀ arg, expandArg ("-x" ++ "=" ++ arg) = ["-x", arg] :=
    fun arg => expandArg_joined arg (by decide) (by decide)
  have hhost : expandArg "--host" = ["--host"] := by decide
  have htail : ["--host", "-m", "--host", "-c", "--host", "--fit"].flatMap expandArg =
      ["--host", "-m", "--host", "-c", "--host", "--fit"] := by decide
  rw [buildPreArgs_args, hnone, List.append_nil]
  simp only [rawArgsFor, List.flatMap_append, htail, List.flatMap_assoc, List.flatMap_cons,
    List.flatMap_nil, hhost, hjoined, List.append_nil, List.singleton_append]

private theorem withoutEndpoints_built
    (hargs : ∀ arg ∈ args, (isBareEndpoint arg || isEndpoint arg) = false) :
    withoutEndpoints (args.flatMap (fun arg => ["--host", "-x", arg]) ++
        ["--host", "-m", "--host", "-c", "--host", "--fit"]) = args := by
  induction args with
  | nil => decide
  | cons arg args ih =>
    have hhost : ∀ rest : List String,
        withoutEndpoints ("--host" :: "-x" :: rest) = withoutEndpoints rest := by
      intro rest
      rw [withoutEndpoints, if_pos (by decide)]
    rw [List.flatMap_cons, List.append_assoc, List.cons_append, List.cons_append, hhost,
      List.singleton_append, withoutEndpoints_cons (hargs arg List.mem_cons_self),
      ih fun a ha => hargs a (List.mem_cons_of_mem _ ha)]

end

/-- The arguments with one of the options moved to the end, without host and port. -/
def moveLast (args group : List String) : List String :=
  (splitOptions (withoutEndpoints args)).1 ++ ((optionsOf args).erase group ++ [group]).flatten

section

variable {args group : List String} {p : Profile}

private theorem moveLast_perm (hgroup : group ∈ optionsOf args) :
    ((optionsOf args).erase group ++ [group]).Perm (optionsOf args) :=
  (List.perm_append_singleton _ _).trans (List.perm_cons_erase hgroup).symm

private theorem mem_of_mem_moveLast (hgroup : group ∈ optionsOf args)
    {arg : String} (h : arg ∈ moveLast args group) : arg ∈ withoutEndpoints args := by
  rw [← splitOptions_flatten (withoutEndpoints args)]
  rw [moveLast, List.mem_append] at h
  rw [List.mem_append]
  obtain h | h := h
  · exact .inl h
  · obtain ⟨g, hg, harg⟩ := List.mem_flatten.mp h
    exact .inr (List.mem_flatten.mpr ⟨g, (moveLast_perm hgroup).mem_iff.mp hg, harg⟩)

private theorem length_moveLast (hgroup : group ∈ optionsOf args) :
    (moveLast args group).length ≤ args.length := by
  have hsame : (moveLast args group).length = (withoutEndpoints args).length := by
    conv_rhs => rw [← splitOptions_flatten (withoutEndpoints args)]
    rw [moveLast, List.length_append, List.length_append]
    exact congrArg _ ((moveLast_perm hgroup).flatten.length_eq)
  rw [hsame]
  exact (withoutEndpoints_sublist args).length_le

private theorem splitOptions_moveLast (hgroup : group ∈ optionsOf args) :
    splitOptions (moveLast args group) =
      ((splitOptions (withoutEndpoints args)).1, (optionsOf args).erase group ++ [group]) := by
  obtain ⟨hvalues, hgroups⟩ := splitOptions_spec (withoutEndpoints args)
  refine splitOptions_join hvalues fun g hg => hgroups g ?_
  exact (moveLast_perm hgroup).mem_iff.mp hg

/-- The profile with one of its options given last. -/
def movedLast (p : Profile) (group : List String) : Profile :=
  { p with llamaServerArgs := rawArgsFor (moveLast (buildPreArgs p).1 group) }

private theorem withoutEndpoints_movedLast (hgroup : group ∈ optionsOf (buildPreArgs p).1) :
    withoutEndpoints (buildPreArgs (movedLast p group)).1 = moveLast (buildPreArgs p).1 group := by
  rw [movedLast, buildPreArgs_rawArgsFor]
  exact withoutEndpoints_built fun arg harg => not_endpoint_of_mem (mem_of_mem_moveLast hgroup harg)

private theorem optionsOf_movedLast (hgroup : group ∈ optionsOf (buildPreArgs p).1) :
    optionsOf (buildPreArgs (movedLast p group)).1 =
      (optionsOf (buildPreArgs p).1).erase group ++ [group] := by
  rw [optionsOf, withoutEndpoints_movedLast hgroup, splitOptions_moveLast hgroup]

/-- Its hashed bytes are the same. -/
theorem preimage_movedLast (hgroup : group ∈ optionsOf (buildPreArgs p).1) :
    preimage (buildPreArgs (movedLast p group)).1 = preimage (buildPreArgs p).1 := by
  have hmoved : optionGroups (buildPreArgs (movedLast p group)).1 =
      (splitOptions (withoutEndpoints (buildPreArgs p).1)).1.map (fun value => [value]) ++
        ((optionsOf (buildPreArgs p).1).erase group ++ [group]) := by
    rw [optionGroups, withoutEndpoints_movedLast hgroup, splitOptions_moveLast hgroup]
  apply preimage_eq_of_perm
  rw [hmoved]
  exact (moveLast_perm hgroup).append_left _

/-- It fits in memory. -/
theorem exists_argList_movedLast (hp : Allocated (buildPreArgs p).1)
    (hgroup : group ∈ optionsOf (buildPreArgs p).1) :
    ∃ b : ArgList, b.args = (buildPreArgs (movedLast p group)).1 := by
  rw [movedLast, buildPreArgs_rawArgsFor]
  refine ⟨⟨_, ?_, ?_⟩, rfl⟩
  · have hlength := length_moveLast hgroup
    have hcount := hp.count
    have htriple : ((moveLast (buildPreArgs p).1 group).flatMap
        fun arg => ["--host", "-x", arg]).length =
          3 * (moveLast (buildPreArgs p).1 group).length := by
      simp [List.length_flatMap, Nat.mul_comm]
    rw [List.length_append, htriple]
    simp only [List.length_cons, List.length_nil]
    omega
  · intro arg harg
    have hfixed : ∀ name ∈ ["--host", "-x", "-m", "-c", "--fit"],
        (utf8Encode name.toList).length < 2 ^ 63 := by decide
    have hcases : arg ∈ ["--host", "-x", "-m", "-c", "--fit"] ∨
        arg ∈ moveLast (buildPreArgs p).1 group := by
      simp only [List.mem_append, List.mem_flatMap, List.mem_cons, List.not_mem_nil,
        or_false] at harg ⊢
      obtain ⟨a, ha, rfl | rfl | rfl⟩ | hlast := harg
      · tauto
      · tauto
      · exact .inr ha
      · tauto
    obtain hname | hmoved := hcases
    · exact hfixed arg hname
    · have hmem := mem_of_mem_moveLast hgroup hmoved
      exact hp.sizes arg ((withoutEndpoints_sublist _).subset hmem)

end

/-- Profiles with the same hashed bytes have the same settings in force as a given one exactly when
its arguments give no option two values. -/
theorem effective_alike_iff (read : List String → ι × ν) (p : Profile)
    (hp : Allocated (buildPreArgs p).1) :
    (∀ (q : Profile) (b : ArgList), (buildPreArgs q).1 = b.args →
        preimage b.args = preimage (buildPreArgs p).1 →
        ∀ option, effective read b.args option = effective read (buildPreArgs p).1 option) ↔
      Unconflicted read (buildPreArgs p).1 := by
  constructor
  · intro halike
    rw [Unconflicted, LastWins.consistent_iff]
    intro setting hsetting
    obtain ⟨group, hgroup, rfl⟩ := List.mem_map.mp hsetting
    obtain ⟨b, hb⟩ := exists_argList_movedLast hp hgroup
    have hsame := halike (movedLast p group) b hb.symm (by rw [hb, preimage_movedLast hgroup])
      (read group).1
    rw [hb, effective, optionsOf_movedLast hgroup, List.map_append, List.map_singleton,
      LastWins.winner_concat_self] at hsame
    exact hsame.symm
  · intro hclear q b _ hbytes option
    have hcount := hp.count
    have hperm := optionsOf_perm (a := ⟨(buildPreArgs p).1, by omega, hp.sizes⟩) hbytes
    exact LastWins.winner_perm hclear (hperm.map read) option

/-- What `llama-server` reads of an option: its name and the values after it. -/
def asWritten (group : List String) : String × List String := (group.headD "", group.tail)

/-- A profile with two context sizes. -/
def twoContexts (first second : String) : Profile :=
  ⟨["-c", first, "-c", second], none, none, some "model.gguf"⟩

/-- Profiles that give the same context size twice have it in force with the same hash. -/
theorem effective_alike_repeated_context :
    Allocated (buildPreArgs (twoContexts "4096" "4096")).1 ∧
      ∀ (q : Profile) (b : ArgList), (buildPreArgs q).1 = b.args →
        preimage b.args = preimage (buildPreArgs (twoContexts "4096" "4096")).1 →
        effective asWritten b.args "-c" = some ["4096"] := by
  have hp : Allocated (buildPreArgs (twoContexts "4096" "4096")).1 := ⟨by decide, by decide⟩
  have hclear : Unconflicted asWritten (buildPreArgs (twoContexts "4096" "4096")).1 := by
    unfold Unconflicted LastWins.Consistent
    decide
  refine ⟨hp, fun q b hb hbytes => ?_⟩
  rw [(effective_alike_iff asWritten _ hp).mpr hclear q b hb hbytes]
  decide

/-- Two context sizes in either order have the same hash, and another one is in force. -/
theorem context_order_not_hashed :
    ¬ ∀ p q : Profile, preimage (buildPreArgs q).1 = preimage (buildPreArgs p).1 →
      ∀ option, effective asWritten (buildPreArgs q).1 option =
        effective asWritten (buildPreArgs p).1 option := by
  intro h
  have hperm : (optionGroups (buildPreArgs (twoContexts "8192" "4096")).1).Perm
      (optionGroups (buildPreArgs (twoContexts "4096" "8192")).1) := by decide
  exact absurd (h _ _ (preimage_eq_of_perm hperm) "-c") (by decide)

end Llamesh.Instance.ArgsHash
