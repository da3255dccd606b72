import Llamesh.Gossip.Advertised
import Llamesh.Instance.ModelSource

/-!
# The profile of a request and its hash

A request is resolved with the model index, and its metrics are kept under the hash that
`get_args_hash_for_key` (`src/node_state/model_index.rs:153–171`) finds for the resolved names by
searching the cookbook itself. The search stops at the first enabled model of the name. A valid
cookbook may have several of one name, with different profiles: the two agree exactly when none of
these is shadowed by an earlier one.
-/

namespace Llamesh.Instance

open ArgsHash CookbookFile Gossip

/-- The names of the model and of the profile in a key. `src/node_state/model_index.rs:154–158`. -/
def splitKey (key : String) : String × String :=
  match Text.splitOnce ':' key.toList with
  | some (modelName, profileId) => (String.ofList modelName, String.ofList profileId)
  | none => (key, "default")

/-- The hash of the arguments of the profile with the key. `src/node_state/model_index.rs:153–171`.
-/
def getArgsHashForKey (sha256 : List UInt8 → Vector UInt8 32) (cookbook : Cookbook)
    (key : String) : Option String := do
  let model ← cookbook.models.find? fun m => m.enabled && m.name == (splitKey key).1
  let profile ← model.profiles.find? fun p => p.enabled && p.id == (splitKey key).2
  some (argsHashForProfile sha256 (launched profile))

/-- No enabled model with an enabled profile comes after an enabled one of the same name. -/
def Unshadowed (cookbook : Cookbook) : Prop :=
  ∀ before model after, cookbook.models = before ++ model :: after → model.enabled = true →
    (∃ profile ∈ model.profiles, profile.enabled = true) →
    ∀ earlier ∈ before, earlier.enabled = true → earlier.name ≠ model.name

/-! ### Names -/

section

variable {name id : String}

private theorem splitKey_pair (hname : ':' ∉ name.toList) : splitKey (name ++ ":" ++ id) =
    (name, id) := by
  have hlist : (name ++ ":" ++ id).toList = name.toList ++ ':' :: id.toList := by simp
  rw [splitKey, hlist, Text.splitOnce_append hname]
  simp

private theorem splitRequest_pair (hname : ':' ∉ name.toList) (hid : ':' ∉ id.toList) :
    splitRequest (name ++ ":" ++ id) = (name, id) := by
  have hlist : (name ++ ":" ++ id).toList = name.toList ++ ':' :: id.toList := by simp
  have hpieces : (name.toList ++ ':' :: id.toList).splitOn ':' = [name.toList, id.toList] := by
    rw [List.splitOn_append_cons_self, List.splitOn_eq_singleton hname,
      List.splitOn_eq_singleton hid, List.singleton_append]
  rw [splitRequest, hlist, hpieces]
  simp

end

/-! ### The two lookups -/

section

variable {tables : Text.CaseTables} {cookbook : Cookbook} {pair : String × CookbookFile.Profile}

/-- What the index resolves is an enabled pair. -/
theorem mem_enabledPairs_of_resolve {request : String}
    (h : resolve tables (buildModelIndex tables cookbook) request = some pair) :
    pair ∈ cookbook.enabledPairs := by
  rw [resolve, lookup_buildModelIndex] at h
  exact List.mem_reverse.mp (List.mem_of_find?_eq_some h)

/-- Every enabled pair of a valid cookbook resolves to itself. -/
theorem resolve_pair (hvalid : cookbook.validate tables = .ok ())
    (hpair : pair ∈ cookbook.enabledPairs) :
    resolve tables (buildModelIndex tables cookbook) (pair.1 ++ ":" ++ pair.2.id) = some pair := by
  obtain ⟨hname, hid⟩ := Cookbook.noColon_of_validate hvalid hpair
  rw [resolve, lookup_buildModelIndex, splitRequest_pair hname hid]
  cases hfound : cookbook.enabledPairs.reverse.find? fun other =>
      pairKey tables other == lowerKey tables pair.1 pair.2.id with
  | none =>
    have hnone := List.find?_eq_none.mp hfound pair (List.mem_reverse.mpr hpair)
    exact absurd (beq_iff_eq.mpr rfl) hnone
  | some other =>
    have hother : other ∈ cookbook.enabledPairs :=
      List.mem_reverse.mp (List.mem_of_find?_eq_some hfound)
    have hkey := List.find?_some hfound
    rw [Cookbook.eq_of_pairKey hvalid hother hpair (beq_iff_eq.mp hkey)]

variable {sha256 : List UInt8 → Vector UInt8 32} {before after : List Model} {model : Model}
  {profile : CookbookFile.Profile}

private theorem pair_mem (hmodels : cookbook.models = before ++ model :: after)
    (henabled : model.enabled = true) (hprofile : profile ∈ model.profiles)
    (hon : profile.enabled = true) : (model.name, profile) ∈ cookbook.enabledPairs := by
  refine mem_enabledPairs.mpr ⟨model, ?_, henabled, hprofile, hon, rfl⟩
  rw [hmodels]
  exact List.mem_append_right _ List.mem_cons_self

/-- A pair of a model without a namesake before it has its hash found. -/
theorem getArgsHashForKey_of_first (hvalid : cookbook.validate tables = .ok ())
    (hmodels : cookbook.models = before ++ model :: after) (henabled : model.enabled = true)
    (hprofile : profile ∈ model.profiles) (hon : profile.enabled = true)
    (hfirst : ∀ earlier ∈ before, earlier.enabled = true → earlier.name ≠ model.name) :
    getArgsHashForKey sha256 cookbook (model.name ++ ":" ++ profile.id) =
      some (argsHashForProfile sha256 (launched profile)) := by
  have hpair := pair_mem hmodels henabled hprofile hon
  have hname := (Cookbook.noColon_of_validate hvalid hpair).1
  have hfind : cookbook.models.find? (fun m => m.enabled && m.name == model.name) = some model := by
    rw [hmodels, List.find?_append, List.find?_eq_none.mpr, Option.none_or,
      List.find?_cons_of_pos (by simp [henabled])]
    intro earlier hearlier hmatch
    rw [Bool.and_eq_true, beq_iff_eq] at hmatch
    exact hfirst earlier hearlier hmatch.1 hmatch.2
  rw [getArgsHashForKey, splitKey_pair hname, hfind, Option.bind_eq_bind, Option.bind_some]
  cases hfound : model.profiles.find? fun p => p.enabled && p.id == profile.id with
  | none =>
    have hnone := List.find?_eq_none.mp hfound profile hprofile
    exact absurd (by simp [hon]) hnone
  | some other =>
    have hmatch := List.find?_some hfound
    rw [Bool.and_eq_true, beq_iff_eq] at hmatch
    have hother := pair_mem hmodels henabled (List.mem_of_find?_eq_some hfound) hmatch.1
    have hsame := Cookbook.eq_of_pairKey hvalid hother hpair (by
      rw [pairKey, pairKey, hmatch.2])
    rw [(Prod.mk.inj hsame).2]
    rfl

/-- A pair of a model with a namesake before it has no hash found. -/
theorem getArgsHashForKey_of_shadowed (hvalid : cookbook.validate tables = .ok ())
    (hmodels : cookbook.models = before ++ model :: after) (henabled : model.enabled = true)
    (hprofile : profile ∈ model.profiles) (hon : profile.enabled = true) {earlier : Model}
    (hearlier : earlier ∈ before) (hearlierOn : earlier.enabled = true)
    (hsame : earlier.name = model.name) :
    getArgsHashForKey sha256 cookbook (model.name ++ ":" ++ profile.id) = none := by
  have hpair := pair_mem hmodels henabled hprofile hon
  have hname := (Cookbook.noColon_of_validate hvalid hpair).1
  obtain ⟨seen, hchecked⟩ := Cookbook.checked_of_validate hvalid
  have hnodup := hchecked.nodup
  rw [Cookbook.enabledPairs, hmodels, List.flatMap_append, List.flatMap_cons, List.map_append,
    List.nodup_append] at hnodup
  obtain ⟨first, hfind⟩ : ∃ first,
      before.find? (fun m => m.enabled && m.name == model.name) = some first := by
    rw [← Option.isSome_iff_exists, List.find?_isSome]
    exact ⟨earlier, hearlier, by simp [hearlierOn, hsame]⟩
  have hfirst := List.find?_some hfind
  rw [Bool.and_eq_true, beq_iff_eq] at hfirst
  rw [getArgsHashForKey, splitKey_pair hname, hmodels, List.find?_append, hfind, Option.some_or,
    Option.bind_eq_bind, Option.bind_some]
  cases hfound : first.profiles.find? fun p => p.enabled && p.id == profile.id with
  | none => rfl
  | some other =>
    -- The profile would be in the cookbook twice under one key.
    have hmatch := List.find?_some hfound
    rw [Bool.and_eq_true, beq_iff_eq] at hmatch
    have hleft : pairKey tables (first.name, other) ∈
        (before.flatMap Model.enabledPairs).map (pairKey tables) := by
      refine List.mem_map_of_mem (List.mem_flatMap.mpr
        ⟨first, List.mem_of_find?_eq_some hfind, ?_⟩)
      rw [Model.enabledPairs, if_pos hfirst.1]
      exact List.mem_map.mpr ⟨other, List.mem_filter.mpr
        ⟨List.mem_of_find?_eq_some hfound, hmatch.1⟩, rfl⟩
    have hright : pairKey tables (model.name, profile) ∈
        (model.enabledPairs ++ after.flatMap Model.enabledPairs).map (pairKey tables) := by
      refine List.mem_map_of_mem (List.mem_append_left _ ?_)
      rw [Model.enabledPairs, if_pos henabled]
      exact List.mem_map.mpr ⟨profile, List.mem_filter.mpr ⟨hprofile, hon⟩, rfl⟩
    have hkey : pairKey tables (first.name, other) = pairKey tables (model.name, profile) := by
      rw [pairKey, pairKey, hfirst.2, hmatch.2]
    exact absurd hkey (hnodup.2.2 _ hleft _ hright)

end

/-- In a valid cookbook every resolved request has the hash of its profile found, and every enabled
pair resolves to itself, exactly when no model with an enabled profile is shadowed by an earlier one
of its name. -/
theorem lookups_agree_iff (tables : Text.CaseTables) (sha256 : List UInt8 → Vector UInt8 32)
    (cookbook : Cookbook) (hvalid : cookbook.validate tables = .ok ()) :
    ((∀ request name profile,
        resolve tables (buildModelIndex tables cookbook) request = some (name, profile) →
        getArgsHashForKey sha256 cookbook (name ++ ":" ++ profile.id) =
          some (argsHashForProfile sha256 (launched profile))) ∧
      ∀ pair ∈ cookbook.enabledPairs,
        resolve tables (buildModelIndex tables cookbook) (pair.1 ++ ":" ++ pair.2.id) =
          some pair) ↔ Unshadowed cookbook := by
  constructor
  · rintro ⟨hhash, hself⟩ before model after hmodels henabled ⟨profile, hprofile, hon⟩ earlier
      hearlier hearlierOn hsame
    have hfound := hhash _ _ _ (hself _ (pair_mem hmodels henabled hprofile hon))
    rw [getArgsHashForKey_of_shadowed hvalid hmodels henabled hprofile hon hearlier hearlierOn
      hsame] at hfound
    cases hfound
  · intro hshadow
    refine ⟨fun request name profile hresolve => ?_, fun pair hpair => resolve_pair hvalid hpair⟩
    obtain ⟨model, hmodel, henabled, hprofile, hon, hname⟩ :=
      mem_enabledPairs.mp (mem_enabledPairs_of_resolve hresolve)
    obtain ⟨before, after, hmodels⟩ := List.append_of_mem hmodel
    obtain rfl : model.name = name := hname
    exact getArgsHashForKey_of_first hvalid hmodels henabled hprofile hon
      (hshadow before model after hmodels henabled ⟨profile, hprofile, hon⟩)

/-- Models of different names do not shadow each other. -/
theorem unshadowed_of_nodup {cookbook : Cookbook} (h : (cookbook.models.map (·.name)).Nodup) :
    Unshadowed cookbook := by
  intro before model after hmodels _ _ earlier hearlier _ hsame
  rw [hmodels, List.map_append, List.map_cons, List.nodup_append] at h
  exact h.2.2 _ (List.mem_map_of_mem hearlier) _ List.mem_cons_self hsame

/-- A cookbook with one profile in each of two models. -/
def twoModels (first second : String) : Cookbook :=
  ⟨[{ name := first, profiles := [{ id := "fast", modelPath := some "/models/q.gguf" }] },
    { name := second, profiles := [{ id := "large", modelPath := some "/models/q.gguf" }] }]⟩

/-- With two names, a request for the second model has its hash found. -/
theorem lookups_agree_two_names :
    (twoModels "qwen" "llama").validate latin1 = .ok () ∧
      getArgsHashForKey (fun _ => offloadDigest) (twoModels "qwen" "llama") "llama:large" =
        some (argsHashForProfile (fun _ => offloadDigest)
          ⟨[], none, none, some "/models/q.gguf"⟩) := by
  have hvalid : (twoModels "qwen" "llama").validate latin1 = .ok () := by decide +kernel
  have hagree := (lookups_agree_iff latin1 (fun _ => offloadDigest) _ hvalid).mpr
    (unshadowed_of_nodup (by decide))
  refine ⟨hvalid, hagree.1 "llama:large" "llama"
    { id := "large", modelPath := some "/models/q.gguf" } ?_⟩
  exact hagree.2 ("llama", { id := "large", modelPath := some "/models/q.gguf" }) (by decide)

/-- With one name, the profile of the second model is resolved and its hash is not found. -/
theorem shadowed_profile_not_found :
    ¬ ∀ (tables : Text.CaseTables) (sha256 : List UInt8 → Vector UInt8 32) (cookbook : Cookbook),
      cookbook.validate tables = .ok () →
      (∀ request name profile,
          resolve tables (buildModelIndex tables cookbook) request = some (name, profile) →
          getArgsHashForKey sha256 cookbook (name ++ ":" ++ profile.id) =
            some (argsHashForProfile sha256 (launched profile))) ∧
        ∀ pair ∈ cookbook.enabledPairs,
          resolve tables (buildModelIndex tables cookbook) (pair.1 ++ ":" ++ pair.2.id) =
            some pair := by
  intro h
  have hvalid : (twoModels "qwen" "qwen").validate latin1 = .ok () := by decide +kernel
  have hmem : ("qwen", { id := "large", modelPath := some "/models/q.gguf" }) ∈
      (twoModels "qwen" "qwen").enabledPairs := by decide
  obtain ⟨hhash, hself⟩ := h latin1 (fun _ => offloadDigest) _ hvalid
  have hfound := hhash _ _ _ (hself _ hmem)
  have hnone : getArgsHashForKey (fun _ => offloadDigest) (twoModels "qwen" "qwen")
      "qwen:large" = none := by decide
  rw [show "qwen" ++ ":" ++ "large" = "qwen:large" from rfl, hnone] at hfound
  cases hfound

end Llamesh.Instance
