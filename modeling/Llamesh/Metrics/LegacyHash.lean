import Llamesh.Instance.ArgsHash

/-!
# The previous hash of launch arguments

`legacy_args_hash` (`src/metrics.rs:337–366`) sorts the arguments without host and
port and ends each with a NUL byte, where `compute_args_hash` keeps an option with
its values and writes lengths. It is read only to find the entries that were kept
under the previous hashes. Arguments with the same new bytes have the same previous
ones, and without a NUL in an argument no previous bytes are new ones.
-/

namespace Llamesh.Metrics

open Instance.ArgsHash Text

/-- The variables of the filtering loop. `src/metrics.rs:340–341`. -/
structure Filtering where
  filtered : List String
  skipNext : Bool
  deriving DecidableEq, Repr

/-- One argument. `src/metrics.rs:342–355`. -/
def Filtering.scan (s : Filtering) (arg : String) : Filtering :=
  if s.skipNext then { s with skipNext := false }
  else if arg == "--host" || arg == "--port" then { s with skipNext := true }
  else if startsWith arg "--host=" || startsWith arg "--port=" then s
  else { s with filtered := s.filtered ++ [arg] }

/-- `src/metrics.rs:340–356`; `str` compares by bytes, which is the order of code points. -/
def sortedTokens (args : List String) : List String :=
  (args.foldl Filtering.scan ⟨[], false⟩).filtered.mergeSort fun a b => decide (a ≤ b)

/-- The bytes that were hashed. `src/metrics.rs:357–361`. -/
def legacyPreimage (args : List String) : List UInt8 :=
  (sortedTokens args).flatMap fun arg => utf8Encode arg.toList ++ [0]

/-- The first eight bytes of a digest in hexadecimal. -/
def hexDigest (sha256 : List UInt8 → Vector UInt8 32) (bytes : List UInt8) : String :=
  lowerHex64 (Octets.fromBeBytes ((sha256 bytes).toList.take 8))

/-- The hash of arguments in earlier versions. `src/metrics.rs:337–366`. -/
def legacyArgsHash (sha256 : List UInt8 → Vector UInt8 32) (args : List String) : String :=
  hexDigest sha256 (legacyPreimage args)

/-- The hash of arguments is that of their preimage. -/
theorem computeArgsHash_eq (sha256 : List UInt8 → Vector UInt8 32) (args : List String) :
    computeArgsHash sha256 args = hexDigest sha256 (preimage args) := rfl

/-! ### The same new bytes -/

section

variable {s : Filtering} {arg : String}

private theorem scan_bare (hs : s.skipNext = false) (h : isBareEndpoint arg = true) :
    s.scan arg = { s with skipNext := true } := by
  have harg : (arg == "--host" || arg == "--port") = true := h
  rw [Filtering.scan, hs, harg]
  rfl

private theorem scan_endpoint (hs : s.skipNext = false) (hb : isBareEndpoint arg = false)
    (h : isEndpoint arg = true) : s.scan arg = s := by
  have hbare : (arg == "--host" || arg == "--port") = false := hb
  have harg : (startsWith arg "--host=" || startsWith arg "--port=") = true := h
  rw [Filtering.scan, hs, hbare, harg]
  rfl

private theorem scan_kept (hs : s.skipNext = false) (hb : isBareEndpoint arg = false)
    (h : isEndpoint arg = false) : s.scan arg = { s with filtered := s.filtered ++ [arg] } := by
  have hbare : (arg == "--host" || arg == "--port") = false := hb
  have harg : (startsWith arg "--host=" || startsWith arg "--port=") = false := h
  rw [Filtering.scan, hs, hbare, harg]
  rfl

end

/-- The filter drops what the grouping of the new hash drops. -/
theorem foldl_scan_filtered (args : List String) (s : Filtering) (hs : s.skipNext = false) :
    (args.foldl Filtering.scan s).filtered = s.filtered ++ withoutEndpoints args := by
  induction args using withoutEndpoints.induct generalizing s with
  | case1 => simp [withoutEndpoints]
  | case2 arg hskip =>
    rw [withoutEndpoints, if_pos hskip, List.append_nil, List.foldl_cons, List.foldl_nil]
    cases hb : isBareEndpoint arg with
    | true => rw [scan_bare hs hb]
    | false =>
      rw [hb, Bool.false_or] at hskip
      rw [scan_endpoint hs hb hskip]
  | case3 arg hkeep =>
    rw [withoutEndpoints, if_neg hkeep, List.foldl_cons, List.foldl_nil]
    simp only [Bool.or_eq_true, not_or, Bool.not_eq_true] at hkeep
    rw [scan_kept hs hkeep.1 hkeep.2]
  | case4 arg next args hb ih =>
    rw [withoutEndpoints, if_pos hb, ← ih s hs, List.foldl_cons, List.foldl_cons, scan_bare hs hb]
    congr 2
    cases s
    cases hs
    rfl
  | case5 arg next args hb he ih =>
    rw [withoutEndpoints, if_neg hb, if_pos he, ← ih s hs, List.foldl_cons,
      scan_endpoint hs (Bool.not_eq_true _ ▸ hb) he]
  | case6 arg next args hb he ih =>
    rw [withoutEndpoints, if_neg hb, if_neg he, List.foldl_cons,
      scan_kept hs (Bool.not_eq_true _ ▸ hb) (Bool.not_eq_true _ ▸ he),
      ih { s with filtered := s.filtered ++ [arg] } hs, List.append_assoc, List.singleton_append]

/-- Each argument is in one group. -/
theorem flatten_optionGroups (args : List String) :
    (optionGroups args).flatten = withoutEndpoints args := by
  have hsplit : ∀ as : List String, (splitOptions as).1 ++ (splitOptions as).2.flatten = as := by
    intro as
    induction as with
    | nil => rfl
    | cons arg as ih =>
      rw [splitOptions]
      dsimp only
      split
      · rw [List.nil_append, List.flatten_cons, List.cons_append, ih]
      · rw [List.cons_append, ih]
  have hleading : ∀ values : List String, (values.map fun value => [value]).flatten = values := by
    intro values
    induction values with
    | nil => rfl
    | cons value values ih => rw [List.map_cons, List.flatten_cons, ih, List.singleton_append]
  rw [optionGroups, List.flatten_append, hleading, hsplit]

private theorem sortedTokens_perm (args : List String) :
    (sortedTokens args).Perm (withoutEndpoints args) := by
  rw [sortedTokens, foldl_scan_filtered args _ rfl, List.nil_append]
  exact List.mergeSort_perm _ _

/-- The tokens in order. -/
theorem sortedTokens_sorted (args : List String) : (sortedTokens args).Pairwise (· ≤ ·) := by
  have hpairwise : (sortedTokens args).Pairwise fun a b => decide (a ≤ b) = true := by
    refine List.pairwise_mergeSort ?_ ?_ _
    · intro a b c hab hbc
      exact decide_eq_true (le_trans (of_decide_eq_true hab) (of_decide_eq_true hbc))
    · intro a b
      simpa using le_total a b
  exact hpairwise.imp fun h => of_decide_eq_true h

/-- The tokens in order are found by any sorting. -/
theorem sortedTokens_eq {args tokens : List String} (hperm : tokens.Perm (withoutEndpoints args))
    (hsorted : tokens.Pairwise (· ≤ ·)) : sortedTokens args = tokens :=
  ((sortedTokens_perm args).trans hperm.symm).eq_of_pairwise (fun _ _ _ _ => le_antisymm)
    (sortedTokens_sorted args) hsorted

/-- Arguments that are hashed alike now were hashed alike before: the groups determine the
tokens. -/
theorem legacyPreimage_eq_of_preimage_eq {a b : ArgList} (h : preimage a.args = preimage b.args) :
    legacyPreimage a.args = legacyPreimage b.args := by
  have hgroups := (preimage_eq_iff_perm a b).mp h
  have htokens : (sortedTokens b.args).Perm (withoutEndpoints a.args) := by
    refine (sortedTokens_perm b.args).trans ?_
    rw [← flatten_optionGroups, ← flatten_optionGroups]
    exact hgroups.symm.flatten
  rw [legacyPreimage, sortedTokens_eq htokens (sortedTokens_sorted b.args), legacyPreimage]

/-! ### Arguments without NUL -/

/-- No argument holds a NUL character. -/
def NulFree (args : List String) : Prop := ∀ arg ∈ args, ∀ c ∈ arg.toList, c.toNat ≠ 0

/-- A check that arguments have no NUL. -/
theorem nulFree_of_all {args : List String}
    (h : (args.all fun arg => arg.toList.all fun c => c.toNat != 0) = true) : NulFree args := by
  intro arg harg c hc
  have harg' := List.all_eq_true.mp h arg harg
  simpa using List.all_eq_true.mp harg' c hc

/-- The last byte of a non-empty argument. -/
theorem exists_utf8Encode_concat {arg : String} (hnul : ∀ c ∈ arg.toList, c.toNat ≠ 0)
    (hne : arg.toList ≠ []) : ∃ front b, utf8Encode arg.toList = front ++ [b] ∧ b ≠ 0 := by
  have hencode : utf8Encode arg.toList ≠ [] := fun h => hne (utf8Encode_eq_nil_iff.mp h)
  refine ⟨_, _, (List.dropLast_append_getLast hencode).symm, fun hzero => ?_⟩
  exact zero_notMem_utf8Encode hnul (hzero ▸ List.getLast_mem hencode)

/-- Nothing but an empty argument sorts before an empty one. -/
theorem toList_eq_nil_of_le {arg last : String} (hle : arg ≤ last) (hlast : last.toList = []) :
    arg.toList = [] := by
  by_contra hne
  obtain ⟨c, cs, hcs⟩ := List.exists_cons_of_ne_nil hne
  have hlt : last < arg := by
    rw [String.lt_iff_toList_lt, hlast, hcs]
    exact List.nil_lt_cons c cs
  exact absurd hle (not_le_of_gt hlt)

/-- The last byte that was hashed is a terminator; the one before it is not zero unless all are. -/
theorem legacyPreimage_end {args : List String} (hnul : NulFree args)
    (hne : withoutEndpoints args ≠ []) :
    ∃ bytes, legacyPreimage args = bytes ++ [0] ∧
      ((∀ b ∈ bytes, b = 0) ∨ ∃ front b, bytes = front ++ [b] ∧ b ≠ 0) := by
  have hsorted := sortedTokens_sorted args
  have hperm := sortedTokens_perm args
  have htokens : sortedTokens args ≠ [] := fun h => hne (h ▸ hperm).nil_eq.symm
  obtain ⟨tokens, last, hlast⟩ : ∃ tokens last, sortedTokens args = tokens ++ [last] :=
    ⟨_, _, (List.dropLast_append_getLast htokens).symm⟩
  rw [hlast] at hsorted hperm
  refine ⟨(tokens.flatMap fun arg => utf8Encode arg.toList ++ [0]) ++ utf8Encode last.toList,
    ?_, ?_⟩
  · rw [legacyPreimage, hlast, List.flatMap_append, List.flatMap_singleton, List.append_assoc]
  by_cases hempty : last.toList = []
  · -- an empty token is last only after empty ones
    refine .inl fun b hb => ?_
    rw [hempty, utf8Encode_eq_nil_iff.mpr rfl, List.append_nil] at hb
    obtain ⟨token, htoken, hb⟩ := List.mem_flatMap.mp hb
    have hle := (List.pairwise_append.mp hsorted).2.2 token htoken last List.mem_cons_self
    rw [toList_eq_nil_of_le hle hempty] at hb
    exact List.mem_singleton.mp hb
  · have hmem : last ∈ args :=
      (withoutEndpoints_sublist args).subset
        (hperm.subset (List.mem_append_right tokens List.mem_cons_self))
    obtain ⟨front, b, hfront, hb⟩ := exists_utf8Encode_concat (hnul last hmem) hempty
    refine .inr ⟨(tokens.flatMap fun arg => utf8Encode arg.toList ++ [0]) ++ front, b, ?_, hb⟩
    rw [hfront, List.append_assoc]

/-- No group is empty. -/
theorem ne_nil_of_mem_optionGroups {args group : List String} (h : group ∈ optionGroups args) :
    group ≠ [] := by
  have hsplit : ∀ as : List String, ∀ g ∈ (splitOptions as).2, g ≠ [] := by
    intro as
    induction as with
    | nil => simp [splitOptions]
    | cons arg as ih =>
      rw [splitOptions]
      dsimp only
      split
      · exact List.forall_mem_cons.mpr ⟨List.cons_ne_nil _ _, ih⟩
      · exact ih
  rcases List.mem_append.mp h with h | h
  · obtain ⟨value, -, rfl⟩ := List.mem_map.mp h
    exact List.cons_ne_nil _ _
  · exact hsplit _ group h

/-- The length of a group is not written with zeros only. -/
theorem exists_mem_toBeBytes64 {n : Nat} (hn : n < 2 ^ 63) (hpos : n ≠ 0) :
    ∃ b ∈ Octets.toBeBytes64 n, b ≠ 0 := by
  by_contra hall
  push Not at hall
  have hzeros : Octets.toBeBytes64 n = List.replicate 8 0 :=
    List.eq_replicate_iff.mpr ⟨Octets.length_toBeBytes64 n, hall⟩
  have hback := Octets.fromBeBytes_toBeBytes64 (n := n) (by omega)
  rw [hzeros] at hback
  exact hpos hback.symm

/-- The last bytes that are hashed: those of an argument, or the zeros of its length. -/
theorem preimage_end {a : ArgList} (hnul : NulFree a.args) (hne : optionGroups a.args ≠ []) :
    (∃ front b, preimage a.args = front ++ [b] ∧ b ≠ 0) ∨
      (∃ front, preimage a.args = front ++ [0, 0]) ∧ ∃ b ∈ preimage a.args, b ≠ 0 := by
  have hperm : (sortGroups (optionGroups a.args)).Perm (optionGroups a.args) :=
    List.mergeSort_perm _ _
  have hgroups : sortGroups (optionGroups a.args) ≠ [] := fun h => hne (h ▸ hperm).nil_eq.symm
  obtain ⟨groups, group, hgroup⟩ :
      ∃ groups group, sortGroups (optionGroups a.args) = groups ++ [group] :=
    ⟨_, _, (List.dropLast_append_getLast hgroups).symm⟩
  have hmem : group ∈ optionGroups a.args :=
    hperm.subset (hgroup ▸ List.mem_append_right groups List.mem_cons_self)
  have hsub := sublist_of_mem_optionGroups hmem
  have hgroupNe := ne_nil_of_mem_optionGroups hmem
  obtain ⟨values, last, hlast⟩ : ∃ values last, group = values ++ [last] :=
    ⟨_, _, (List.dropLast_append_getLast hgroupNe).symm⟩
  have hpreimage : preimage a.args = groups.flatMap encodeGroup ++
      (Octets.toBeBytes64 group.length ++ values.flatMap encodeArg ++
        Octets.toBeBytes64 (utf8Encode last.toList).length) ++ utf8Encode last.toList := by
    rw [preimage, collectGroups_eq, hgroup, List.flatMap_append, List.flatMap_singleton,
      encodeGroup, hlast, List.flatMap_append, List.flatMap_singleton, encodeArg]
    simp only [List.append_assoc]
  by_cases hempty : last.toList = []
  · right
    constructor
    · refine ⟨groups.flatMap encodeGroup ++ (Octets.toBeBytes64 group.length ++
        values.flatMap encodeArg ++ List.replicate 6 0), ?_⟩
      rw [hpreimage, hempty]
      have hzeros : Octets.toBeBytes64 (utf8Encode []).length = List.replicate 6 0 ++ [0, 0] := by
        decide
      rw [hzeros, utf8Encode_eq_nil_iff.mpr rfl]
      simp only [List.append_assoc, List.append_nil]
    · obtain ⟨b, hb, hbne⟩ := exists_mem_toBeBytes64
        (Nat.lt_of_le_of_lt hsub.length_le a.count) (List.length_eq_zero_iff.not.mpr hgroupNe)
      refine ⟨b, ?_, hbne⟩
      rw [hpreimage]
      simp [hb]
  · left
    have hlastMem : last ∈ a.args :=
      hsub.subset (hlast ▸ List.mem_append_right values List.mem_cons_self)
    obtain ⟨front, b, hfront, hb⟩ := exists_utf8Encode_concat (hnul last hlastMem) hempty
    refine ⟨groups.flatMap encodeGroup ++ (Octets.toBeBytes64 group.length ++
      values.flatMap encodeArg ++ Octets.toBeBytes64 (front ++ [b]).length) ++ front, b, ?_, hb⟩
    rw [hpreimage, hfront, ← List.append_assoc]

/-- Without NUL in an argument, no previous bytes are new ones, but those of no arguments. -/
theorem legacyPreimage_ne_preimage {a b : ArgList} (ha : NulFree a.args) (hb : NulFree b.args)
    (h : legacyPreimage a.args ≠ preimage a.args) : legacyPreimage a.args ≠ preimage b.args := by
  intro heq
  have hne : withoutEndpoints a.args ≠ [] := by
    intro hnil
    apply h
    have htokens : sortedTokens a.args = [] := (hnil ▸ sortedTokens_perm a.args).eq_nil
    have hgroups : (collectGroups a.args).groups = [] := by
      rw [collectGroups_eq, optionGroups, hnil]
      rfl
    rw [legacyPreimage, htokens, preimage, hgroups, sortGroups, List.mergeSort_nil]
    rfl
  obtain ⟨bytes, hbytes, hend⟩ := legacyPreimage_end ha hne
  rw [heq] at hbytes
  have hgroups : optionGroups b.args ≠ [] := by
    intro hnil
    rw [preimage, collectGroups_eq, hnil, sortGroups, List.mergeSort_nil] at hbytes
    exact List.append_ne_nil_of_right_ne_nil bytes (List.cons_ne_nil _ _) hbytes.symm
  rcases preimage_end hb hgroups with
    ⟨front, last, hlast, hnonzero⟩ | ⟨⟨front, hzeros⟩, last, hmem, hnonzero⟩
  · rw [hbytes] at hlast
    exact hnonzero (List.singleton_inj.mp (List.append_inj' hlast rfl).2).symm
  · have hsplit : front ++ [0, 0] = (front ++ [0]) ++ [0] := by simp
    rw [hbytes] at hzeros hmem
    obtain rfl := (List.append_inj' (hzeros.trans hsplit) rfl).1
    rcases hend with hall | ⟨front', b, hb, hbne⟩
    · rcases List.mem_append.mp hmem with hmem | hmem
      · exact hnonzero (hall last hmem)
      · exact hnonzero (List.mem_singleton.mp hmem)
    · exact hbne (List.singleton_inj.mp (List.append_inj' hb rfl).2).symm

end Llamesh.Metrics
