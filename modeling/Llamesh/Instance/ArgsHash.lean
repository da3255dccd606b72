import Llamesh.Library.Octets
import Llamesh.Library.SelfDelimiting
import Llamesh.Library.Text
import Llamesh.Library.Utf8
import Mathlib.Data.List.Lex
import Mathlib.Data.Multiset.Basic
import Mathlib.Data.String.Basic
import Mathlib.Order.Lattice

/-!
# The hash of launch arguments

`compute_args_hash` (`src/instance.rs:315–367`) drops `--host` and `--port`,
groups each option with the values after it, sorts the groups and feeds them to
SHA-256 with length prefixes. The hash function is a parameter. The bytes it is
given determine the groups up to their order, and nothing less.
-/

namespace Llamesh.Instance.ArgsHash

open Text

/-- `str::starts_with`. -/
def startsWith (arg start : String) : Bool := start.toList.isPrefixOf arg.toList

/-! ### Which arguments are options -/

/-- An optional leading sign. -/
def stripSign : List Char → List Char
  | '+' :: cs => cs
  | '-' :: cs => cs
  | cs => cs

/-- The exponent of a float literal, which may be missing. -/
def isExponent : List Char → Bool
  | [] => true
  | c :: cs =>
    let digits := stripSign cs
    (c == 'e' || c == 'E') && !digits.isEmpty && digits.all Char.isDigit

/-- A decimal with digits on at least one side of its point. -/
def isDecimal (cs : List Char) : Bool :=
  let whole := cs.takeWhile Char.isDigit
  match cs.dropWhile Char.isDigit with
  | '.' :: rest =>
    let fraction := rest.takeWhile Char.isDigit
    !(whole.isEmpty && fraction.isEmpty) && isExponent (rest.dropWhile Char.isDigit)
  | rest => !whole.isEmpty && isExponent rest

/-- Whether `str::parse::<f64>` succeeds: a signed decimal, an infinity or a NaN, in any case. -/
def parsesF64 (arg : String) : Bool :=
  let cs := stripSign arg.toList
  let lower := cs.map Char.toLower
  lower == "inf".toList || lower == "infinity".toList || lower == "nan".toList || isDecimal cs

/-- An argument that starts a group: a dash that does not start a number.
`src/instance.rs:340`. -/
def isOption (arg : String) : Bool := startsWith arg "-" && !parsesF64 arg

/-- A `--host` or `--port` whose value is the next argument. `src/instance.rs:332`. -/
def isBareEndpoint (arg : String) : Bool := arg == "--host" || arg == "--port"

/-- A `--host` or `--port` with its value. `src/instance.rs:336`. -/
def isEndpoint (arg : String) : Bool := startsWith arg "--host=" || startsWith arg "--port="

/-! ### Grouping -/

/-- `groups.last_mut().unwrap().push(arg)`; the loop only does this after an option, so there is
a last group. -/
def pushLast (arg : String) : List (List String) → List (List String)
  | [] => []
  | [group] => [group ++ [arg]]
  | group :: next :: groups => group :: pushLast arg (next :: groups)

/-- The variables of the grouping loop. `src/instance.rs:322–324`. -/
structure Grouping where
  groups : List (List String)
  skipNext : Bool
  hasOption : Bool
  deriving DecidableEq, Repr

/-- The end of the loop body: an option starts a group, a value joins the group of the last option
or stands alone. `src/instance.rs:340–347`. -/
def Grouping.place (s : Grouping) (arg : String) : Grouping :=
  if isOption arg then { s with groups := s.groups ++ [[arg]], hasOption := true }
  else if s.hasOption then { s with groups := pushLast arg s.groups }
  else { s with groups := s.groups ++ [[arg]] }

/-- One argument. `src/instance.rs:326–348`. -/
def Grouping.scan (s : Grouping) (arg : String) : Grouping :=
  if s.skipNext then { s with skipNext := false }
  else if isBareEndpoint arg then { s with skipNext := true }
  else if isEndpoint arg then s
  else s.place arg

/-- The loop over the arguments. -/
def collectGroups (args : List String) : Grouping := args.foldl Grouping.scan ⟨[], false, false⟩

/-- One argument after its length. `src/instance.rs:359–360`. -/
def encodeArg (arg : String) : List UInt8 :=
  Octets.toBeBytes64 (utf8Encode arg.toList).length ++ utf8Encode arg.toList

/-- One group after its length. `src/instance.rs:357–361`. -/
def encodeGroup (group : List String) : List UInt8 :=
  Octets.toBeBytes64 group.length ++ group.flatMap encodeArg

/-- `groups.sort()`; `str` compares by bytes, which is the order of code points. -/
def sortGroups (groups : List (List String)) : List (List String) :=
  groups.mergeSort fun g h => decide (g ≤ h)

/-- The bytes that are hashed. `src/instance.rs:350–362`. -/
def preimage (args : List String) : List UInt8 :=
  (sortGroups (collectGroups args).groups).flatMap encodeGroup

/-- `format!("{:016x}", ..)`. -/
def lowerHex64 (n : Nat) : String := String.ofList ((Nat.toDigits 16 n).leftpad 16 '0')

/-- The first eight bytes of the digest in hexadecimal. `src/instance.rs:321–367`. -/
def computeArgsHash (sha256 : List UInt8 → Vector UInt8 32) (args : List String) : String :=
  lowerHex64 (Octets.fromBeBytes ((sha256 (preimage args)).toList.take 8))

/-! ### The option groups -/

/-- The arguments without `--host`, `--port` and their values. -/
def withoutEndpoints : List String → List String
  | [] => []
  | [arg] => if isBareEndpoint arg || isEndpoint arg then [] else [arg]
  | arg :: next :: args =>
    if isBareEndpoint arg then withoutEndpoints args
    else if isEndpoint arg then withoutEndpoints (next :: args)
    else arg :: withoutEndpoints (next :: args)

/-- The values before the first option, and each option with the values up to the next one. -/
def splitOptions : List String → List String × List (List String)
  | [] => ([], [])
  | arg :: args =>
    let (values, groups) := splitOptions args
    if isOption arg then ([], (arg :: values) :: groups) else (arg :: values, groups)

/-- The option groups of an argument list: each leading value alone, then each option with its
values, with host and port removed. -/
def optionGroups (args : List String) : List (List String) :=
  let (leading, groups) := splitOptions (withoutEndpoints args)
  leading.map (fun value => [value]) ++ groups

private theorem pushLast_concat (arg : String) (groups : List (List String))
    (group : List String) : pushLast arg (groups ++ [group]) = groups ++ [group ++ [arg]] := by
  induction groups with
  | nil => rfl
  | cons first groups ih =>
    cases groups with
    | nil => rfl
    | cons second groups =>
      simp only [List.cons_append] at ih ⊢
      rw [pushLast, ih]

private theorem foldl_place_option (args : List String) (groups : List (List String))
    (group : List String) (skip : Bool) :
    (args.foldl Grouping.place ⟨groups ++ [group], skip, true⟩).groups =
      groups ++ (group ++ (splitOptions args).1) :: (splitOptions args).2 := by
  induction args generalizing groups group with
  | nil => simp [splitOptions]
  | cons arg args ih =>
    simp only [List.foldl_cons, splitOptions]
    by_cases ho : isOption arg
    · have hplace : Grouping.place ⟨groups ++ [group], skip, true⟩ arg =
          ⟨(groups ++ [group]) ++ [[arg]], skip, true⟩ := by simp [Grouping.place, ho]
      rw [hplace, ih]
      simp [ho]
    · have hplace : Grouping.place ⟨groups ++ [group], skip, true⟩ arg =
          ⟨groups ++ [group ++ [arg]], skip, true⟩ := by
        simp [Grouping.place, ho, pushLast_concat]
      rw [hplace, ih]
      simp [ho]

private theorem foldl_place (args : List String) (groups : List (List String)) (skip : Bool) :
    (args.foldl Grouping.place ⟨groups, skip, false⟩).groups =
      groups ++ ((splitOptions args).1.map (fun value => [value]) ++ (splitOptions args).2) := by
  induction args generalizing groups with
  | nil => simp [splitOptions]
  | cons arg args ih =>
    simp only [List.foldl_cons, splitOptions]
    by_cases ho : isOption arg
    · have hplace : Grouping.place ⟨groups, skip, false⟩ arg =
          ⟨groups ++ [[arg]], skip, true⟩ := by simp [Grouping.place, ho]
      rw [hplace, foldl_place_option]
      simp [ho]
    · have hplace : Grouping.place ⟨groups, skip, false⟩ arg =
          ⟨groups ++ [[arg]], skip, false⟩ := by simp [Grouping.place, ho]
      rw [hplace, ih]
      simp [ho]

/-- Placing an argument leaves the wait for a value. -/
theorem place_skipNext (s : Grouping) (arg : String) :
    (s.place arg).skipNext = s.skipNext := by
  unfold Grouping.place
  split
  · rfl
  · split <;> rfl

private theorem foldl_scan (args : List String) (s : Grouping) (hs : s.skipNext = false) :
    (args.foldl Grouping.scan s).groups =
      ((withoutEndpoints args).foldl Grouping.place s).groups := by
  induction args using withoutEndpoints.induct generalizing s with
  | case1 => rfl
  | case2 arg hskip =>
    simp only [Bool.or_eq_true] at hskip
    simp only [withoutEndpoints, Bool.or_eq_true, hskip, if_true, List.foldl_cons, List.foldl_nil,
      Grouping.scan, hs]
    obtain hb | he := hskip
    · simp [hb]
    · cases hb : isBareEndpoint arg <;> simp [he]
  | case3 arg hkeep =>
    simp only [Bool.or_eq_true, not_or, Bool.not_eq_true] at hkeep
    simp [withoutEndpoints, hkeep, Grouping.scan, hs]
  | case4 arg next args hb ih =>
    simp only [withoutEndpoints, hb, if_true, List.foldl_cons]
    rw [← ih s hs]
    have hskip : (s.scan arg).scan next = s := by
      cases s
      cases hs
      simp [Grouping.scan, hb]
    rw [hskip]
  | case5 arg next args hb he ih =>
    rw [withoutEndpoints, if_neg hb, if_pos he, List.foldl_cons, ← ih s hs]
    have hsame : s.scan arg = s := by simp [Grouping.scan, hs, hb, he]
    rw [hsame]
  | case6 arg next args hb he ih =>
    rw [withoutEndpoints, if_neg hb, if_neg he, List.foldl_cons, List.foldl_cons]
    have hplace : s.scan arg = s.place arg := by simp [Grouping.scan, hs, hb, he]
    rw [hplace]
    exact ih _ ((place_skipNext s arg).trans hs)

/-- The loop computes the option groups. -/
theorem collectGroups_eq (args : List String) :
    (collectGroups args).groups = optionGroups args := by
  rw [collectGroups, foldl_scan args _ rfl, foldl_place]
  rfl

/-! ### Sizes -/

/-- Nothing is added when host and port are removed. -/
theorem withoutEndpoints_sublist (args : List String) :
    (withoutEndpoints args).Sublist args := by
  induction args using withoutEndpoints.induct with
  | case1 => exact List.Sublist.refl _
  | case2 arg hskip =>
    rw [withoutEndpoints, if_pos hskip]
    exact List.nil_sublist _
  | case3 arg hkeep =>
    rw [withoutEndpoints, if_neg hkeep]
  | case4 arg next args hb ih =>
    rw [withoutEndpoints, if_pos hb]
    exact (ih.cons next).cons arg
  | case5 arg next args hb he ih =>
    rw [withoutEndpoints, if_neg hb, if_pos he]
    exact ih.cons arg
  | case6 arg next args hb he ih =>
    rw [withoutEndpoints, if_neg hb, if_neg he]
    exact ih.cons_cons arg

private theorem splitOptions_sublist (args : List String) :
    (splitOptions args).1.Sublist args ∧
      ∀ group ∈ (splitOptions args).2, group.Sublist args := by
  induction args with
  | nil => simp [splitOptions]
  | cons arg args ih =>
    obtain ⟨hvalues, hgroups⟩ := ih
    simp only [splitOptions]
    split
    · refine ⟨List.nil_sublist _, fun group hg => ?_⟩
      obtain rfl | hg := List.mem_cons.mp hg
      · exact hvalues.cons_cons arg
      · exact (hgroups group hg).cons arg
    · exact ⟨hvalues.cons_cons arg, fun group hg => (hgroups group hg).cons arg⟩

/-- A group consists of arguments of the list, in their order. -/
theorem sublist_of_mem_optionGroups {args group : List String} (h : group ∈ optionGroups args) :
    group.Sublist args := by
  obtain ⟨hvalues, hgroups⟩ := splitOptions_sublist (withoutEndpoints args)
  refine List.Sublist.trans ?_ (withoutEndpoints_sublist args)
  obtain hg | hg := List.mem_append.mp h
  · obtain ⟨value, hv, rfl⟩ := List.mem_map.mp hg
    exact List.singleton_sublist.mpr (hvalues.subset hv)
  · exact hgroups group hg

/-- An argument list as the process holds it: no allocation exceeds `isize::MAX` bytes. -/
structure ArgList where
  args : List String
  count : args.length < 2 ^ 63
  sizes : ∀ arg ∈ args, (utf8Encode arg.toList).length < 2 ^ 63

/-! ### The hashed bytes determine the groups -/

private theorem selfDelimiting_length :
    SelfDelimiting {n : Nat | n < 2 ^ 63} Octets.toBeBytes64 := by
  refine SelfDelimiting.of_width (fun n _ => Octets.length_toBeBytes64 n) ?_
  intro m hm n hn h
  have hm' : m < 2 ^ 63 := hm
  have hn' : n < 2 ^ 63 := hn
  rw [← Octets.fromBeBytes_toBeBytes64 (n := m) (by omega), h,
    Octets.fromBeBytes_toBeBytes64 (by omega)]

/-- The arguments whose length fits. -/
private def Sized : Set String := {arg | (utf8Encode arg.toList).length < 2 ^ 63}

private theorem utf8Encode_injOn : Set.InjOn (fun arg : String => utf8Encode arg.toList) Sized := by
  intro a _ b _ h
  exact String.toList_inj.mp (utf8Encode_injective h)

private theorem selfDelimiting_encodeArg : SelfDelimiting Sized encodeArg :=
  selfDelimiting_length.prefixed utf8Encode_injOn fun _ h => h

private theorem selfDelimiting_encodeGroup :
    SelfDelimiting {group : List String | group.length < 2 ^ 63 ∧ ∀ arg ∈ group, arg ∈ Sized}
      encodeGroup :=
  selfDelimiting_length.counted selfDelimiting_encodeArg

private theorem encodeGroup_ne_nil (group : List String) : encodeGroup group ≠ [] := by
  intro h
  have hlength := congrArg List.length h
  simp [encodeGroup] at hlength

/-- Sorting forgets the order of the groups and nothing else. -/
theorem sortGroups_eq_iff {gs hs : List (List String)} :
    sortGroups gs = sortGroups hs ↔ gs.Perm hs := by
  have hsorted (l : List (List String)) :
      (sortGroups l).Pairwise fun g h => decide (g ≤ h) = true := by
    refine List.pairwise_mergeSort ?_ ?_ l
    · intro a b c hab hbc
      exact decide_eq_true (le_trans (of_decide_eq_true hab) (of_decide_eq_true hbc))
    · intro a b
      simpa using le_total a b
  constructor
  · intro h
    exact ((List.mergeSort_perm gs _).symm.trans (List.Perm.of_eq h)).trans
      (List.mergeSort_perm hs _)
  · intro h
    have hperm : (sortGroups gs).Perm (sortGroups hs) :=
      ((List.mergeSort_perm gs _).trans h).trans (List.mergeSort_perm hs _).symm
    refine hperm.eq_of_pairwise ?_ (hsorted gs) (hsorted hs)
    intro a b _ _ hab hba
    exact le_antisymm (of_decide_eq_true hab) (of_decide_eq_true hba)

private theorem sized_groups (a : ArgList) :
    ∀ group ∈ sortGroups (optionGroups a.args),
      group.length < 2 ^ 63 ∧ ∀ arg ∈ group, arg ∈ Sized := by
  intro group hg
  have hsub := sublist_of_mem_optionGroups ((List.mergeSort_perm _ _).mem_iff.mp hg)
  refine ⟨Nat.lt_of_le_of_lt hsub.length_le a.count, fun arg harg => ?_⟩
  exact a.sizes arg (hsub.subset harg)

/-- The hashed bytes determine the option groups up to their order. -/
theorem preimage_eq_iff_perm (a b : ArgList) :
    preimage a.args = preimage b.args ↔ (optionGroups a.args).Perm (optionGroups b.args) := by
  rw [← sortGroups_eq_iff]
  simp only [preimage, collectGroups_eq]
  constructor
  · intro h
    exact selfDelimiting_encodeGroup.flatMap_injOn (fun g _ => encodeGroup_ne_nil g)
      (sized_groups a) (sized_groups b) h
  · intro h
    rw [h]

/-- Two argument lists have the same hashed bytes exactly when they have the same option groups,
whatever their order. -/
theorem preimage_eq_iff (a b : ArgList) :
    preimage a.args = preimage b.args ↔
      (optionGroups a.args : Multiset (List String)) = optionGroups b.args := by
  rw [Multiset.coe_eq_coe]
  exact preimage_eq_iff_perm a b

end Llamesh.Instance.ArgsHash
