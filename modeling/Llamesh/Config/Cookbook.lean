import Llamesh.Config.Profile
import Llamesh.Library.Casing
import Llamesh.Library.Table
import Llamesh.Library.Text

/-!
# Cookbooks and their validation

`Cookbook::validate` and `Profile::validate` (`src/config.rs:780–860,987–1060`) over the cookbook as
it is read from its file. A cookbook that passes has no `:` in the names of its enabled pairs, and
no two of them have the same lower-case key. Warnings are left out.
-/

namespace Llamesh.CookbookFile

/-- A profile of a cookbook file. `src/config.rs:887–939`. -/
structure Profile where
  id : String
  enabled : Bool := true
  modelPath : Option String := none
  hfRepo : Option String := none
  hfFile : Option String := none
  maxInstances : Option Nat := none
  llamaServerArgs : List String := []
  deriving DecidableEq, Repr

/-- A model of a cookbook file. `src/config.rs:862–869`. -/
structure Model where
  name : String
  enabled : Bool := true
  profiles : List Profile
  deriving DecidableEq, Repr

/-- A cookbook file. `src/config.rs:775–778`. -/
structure Cookbook where
  models : List Model
  deriving DecidableEq, Repr

namespace Profile

/-- How many instances a profile may have. `src/config.rs:942–947`. -/
def effectiveMaxInstances (p : Profile) (defaults : Config.ModelDefaults) : Nat :=
  match p.maxInstances with
  | some val => val
  | none => max defaults.maxInstancesPerModel 1

/-- One of the flags is among the arguments, alone or with `=` and a value.
`src/config.rs:1052–1060`. -/
def hasFlag (p : Profile) (needles : List String) : Bool :=
  p.llamaServerArgs.any fun arg =>
    let normalized := (Text.trim arg.toList).map Char.toLower
    needles.any fun needle =>
      normalized == needle.toList || (needle.toList ++ ['=']).isPrefixOf normalized

/-- A profile names exactly one model source. `src/config.rs:987–1024`. -/
def validate (p : Profile) (modelName : String) : Except String Unit :=
  let hasModelPath := p.modelPath.isSome
  let hasHfRepo := p.hfRepo.isSome
  let hasModelInArgs := p.hasFlag ["-m", "--model"]
  let hasHfInArgs := p.hasFlag ["-hf", "-hfr", "--hf-repo"]
  if !hasModelPath && !hasHfRepo && !hasModelInArgs && !hasHfInArgs then
    .error (s!"Profile {modelName}:{p.id} must specify either 'model_path', 'hf_repo', or " ++
      "include -m/--model/-hf/-hfr/--hf-repo in llama_server_args")
  else if hasModelPath && hasHfRepo then
    .error (s!"Profile {modelName}:{p.id} specifies both 'model_path' and 'hf_repo'; " ++
      "use only one model source")
  else .ok ()

end Profile

variable (tables : Text.CaseTables)

/-- The lower-case key of two names. `src/config.rs:840–844`,
`src/node_state/model_index.rs:21–25`. -/
def lowerKey (name id : String) : String :=
  tables.toLowercase name ++ ":" ++ tables.toLowercase id

/-- The keys seen so far, each with the names it was first seen with. -/
abbrev Seen := Table String String

/-- The body of the loop of `Cookbook::validate`. `src/config.rs:789–857`. -/
def validatePair (model : Model) (seen : Seen) (profile : Profile) : Except String Seen := do
  profile.validate model.name
  if model.enabled && profile.enabled then
    if ':' ∈ model.name.toList then
      .error (s!"Model name '{model.name}' contains ':', which is reserved as the model:profile " ++
        "request separator; an embedded colon makes the model unaddressable " ++
        "(resolution splits on the first ':'). Remove the colon from the name.")
    else if ':' ∈ profile.id.toList then
      .error (s!"Profile id '{profile.id}' (model '{model.name}') contains ':', which is " ++
        "reserved as the model:profile request separator; an embedded colon makes the profile " ++
        "unaddressable. Remove the colon from the id.")
    else
      let key := lowerKey tables model.name profile.id
      let display := model.name ++ ":" ++ profile.id
      match seen.lookup key with
      | some first =>
        .error (s!"Duplicate model:profile identifier: '{first}' and '{display}' both " ++
          s!"resolve to '{key}'. Model and profile names are matched " ++
          "case-insensitively, so these would shadow each other in the model " ++
          "index; make each model:profile unique.")
      | none => .ok (seen.insert key display)
  else .ok seen

/-- The loop over the profiles of a model. -/
def validateModel (seen : Seen) (model : Model) : Except String Seen :=
  model.profiles.foldlM (validatePair tables model) seen

/-- The check of a cookbook when it is loaded. `src/config.rs:781–859`. -/
def Cookbook.validate (cookbook : Cookbook) : Except String Unit := do
  let _ ← cookbook.models.foldlM (validateModel tables) ∅

/-- The profiles of a model that are enabled together with it. -/
def Model.enabledPairs (model : Model) : List (String × Profile) :=
  if model.enabled then (model.profiles.filter (·.enabled)).map fun p => (model.name, p) else []

/-- The enabled pairs of a cookbook, in its order. -/
def Cookbook.enabledPairs (cookbook : Cookbook) : List (String × Profile) :=
  cookbook.models.flatMap Model.enabledPairs

/-! ### What a valid cookbook is -/

/-- The lower-case key of a pair. -/
def pairKey (pair : String × Profile) : String := lowerKey tables pair.1 pair.2.id

/-- The pairs checked so far are addressable, no two have the same key, and their keys were seen. -/
structure Checked (pairs : List (String × Profile)) (seen : Seen) : Prop where
  noColon : ∀ pair ∈ pairs, ':' ∉ pair.1.toList ∧ ':' ∉ pair.2.id.toList
  nodup : (pairs.map (pairKey tables)).Nodup
  keys : ∀ key, key ∈ seen ↔ key ∈ pairs.map (pairKey tables)

variable {tables} {pairs : List (String × Profile)} {seen seen' : Seen} {model : Model}

private theorem checked_nil : Checked tables [] ∅ where
  noColon := by simp
  nodup := List.nodup_nil
  keys key := by simp

private theorem bind_eq_ok {ε α β : Type} {x : Except ε α} {f : α → Except ε β} {b : β} :
    (x >>= f) = .ok b ↔ ∃ a, x = .ok a ∧ f a = .ok b := by
  cases x with
  | error e => exact ⟨fun h => (by cases h), fun ⟨a, ha, _⟩ => (by cases ha)⟩
  | ok a => exact ⟨fun h => ⟨a, rfl, h⟩, fun ⟨a', ha, h⟩ => (by cases ha; exact h)⟩

private theorem Checked.add (h : Checked tables pairs seen) {name : String} {profile : Profile}
    (hname : ':' ∉ name.toList) (hid : ':' ∉ profile.id.toList)
    (hnew : seen.lookup (lowerKey tables name profile.id) = none) (display : String) :
    Checked tables (pairs ++ [(name, profile)])
      (seen.insert (lowerKey tables name profile.id) display) where
  noColon pair hpair := by
    rcases List.mem_append.mp hpair with hpair | hpair
    · exact h.noColon pair hpair
    · obtain rfl := List.mem_singleton.mp hpair
      exact ⟨hname, hid⟩
  nodup := by
    rw [List.map_append, List.map_singleton, List.nodup_append]
    refine ⟨h.nodup, List.nodup_singleton _, fun key hkey key' hkey' heq => ?_⟩
    rw [List.mem_singleton.mp hkey'] at heq
    rw [heq, ← h.keys] at hkey
    exact AList.lookup_eq_none.mp hnew hkey
  keys key := by
    rw [AList.mem_insert, h.keys, List.map_append, List.map_singleton, List.mem_append,
      List.mem_singleton, or_comm]
    rfl

private theorem Checked.validatePair (h : Checked tables pairs seen) {profile : Profile}
    (hok : validatePair tables model seen profile = .ok seen') :
    Checked tables (pairs ++ ({ model with profiles := [profile] } : Model).enabledPairs)
      seen' := by
  obtain ⟨-, -, hok⟩ := bind_eq_ok.mp hok
  cases hmodel : model.enabled with
  | false =>
    rw [if_neg (by simp [hmodel])] at hok
    cases hok
    simpa [Model.enabledPairs, hmodel] using h
  | true =>
    cases hprofile : profile.enabled with
    | false =>
      rw [if_neg (by simp [hprofile])] at hok
      cases hok
      simpa [Model.enabledPairs, hprofile] using h
    | true =>
      rw [if_pos (by simp [hmodel, hprofile])] at hok
      split at hok
      · cases hok
      · next hname =>
        split at hok
        · cases hok
        · next hid =>
          dsimp only at hok
          split at hok
          · cases hok
          · next hnew =>
            cases hok
            simpa [Model.enabledPairs, hmodel, hprofile] using h.add hname hid hnew _

private theorem foldlM_ok {ε α β : Type} {f : β → α → Except ε β} {P : List α → β → Prop}
    (hstep : ∀ done b a b', P done b → f b a = .ok b' → P (done ++ [a]) b') (as done : List α)
    {b b' : β} (h : P done b) (hf : as.foldlM f b = .ok b') : P (done ++ as) b' := by
  induction as generalizing done b with
  | nil =>
    cases hf
    simpa using h
  | cons a as ih =>
    rw [List.foldlM_cons] at hf
    obtain ⟨c, hc, hf⟩ := bind_eq_ok.mp hf
    simpa using ih _ (hstep done b a c h hc) hf

private theorem enabledPairs_append (model : Model) (ps qs : List Profile) :
    ({ model with profiles := ps ++ qs } : Model).enabledPairs =
      ({ model with profiles := ps } : Model).enabledPairs ++
        ({ model with profiles := qs } : Model).enabledPairs := by
  unfold Model.enabledPairs
  split
  · simp
  · rfl

private theorem Checked.validateModel (h : Checked tables pairs seen)
    (hok : validateModel tables seen model = .ok seen') :
    Checked tables (pairs ++ model.enabledPairs) seen' := by
  refine foldlM_ok (P := fun done seen =>
    Checked tables (pairs ++ ({ model with profiles := done } : Model).enabledPairs) seen)
    ?_ model.profiles [] ?_ hok
  · intro done seen profile seen' h hok
    rw [enabledPairs_append, ← List.append_assoc]
    exact h.validatePair hok
  · simpa [Model.enabledPairs] using h

/-- The pairs of a valid cookbook are addressable, and each has a key of its own. -/
theorem Cookbook.checked_of_validate {cookbook : Cookbook}
    (h : cookbook.validate tables = .ok ()) :
    ∃ seen, Checked tables cookbook.enabledPairs seen := by
  obtain ⟨seen, hseen, -⟩ := bind_eq_ok.mp h
  refine ⟨seen, ?_⟩
  refine foldlM_ok (P := fun done seen => Checked tables (done.flatMap Model.enabledPairs) seen)
    ?_ cookbook.models [] checked_nil hseen
  intro done seen model seen' h hok
  rw [List.flatMap_append, List.flatMap_singleton]
  exact h.validateModel hok

/-- In a valid cookbook the names of enabled pairs have no colon. -/
theorem Cookbook.noColon_of_validate {cookbook : Cookbook} (h : cookbook.validate tables = .ok ())
    {pair : String × Profile} (hpair : pair ∈ cookbook.enabledPairs) :
    ':' ∉ pair.1.toList ∧ ':' ∉ pair.2.id.toList := by
  obtain ⟨seen, hchecked⟩ := checked_of_validate h
  exact hchecked.noColon pair hpair

/-- In a valid cookbook an enabled pair is known by its key. -/
theorem Cookbook.eq_of_pairKey {cookbook : Cookbook} (h : cookbook.validate tables = .ok ())
    {pair pair' : String × Profile} (hpair : pair ∈ cookbook.enabledPairs)
    (hpair' : pair' ∈ cookbook.enabledPairs) (hkey : pairKey tables pair = pairKey tables pair') :
    pair = pair' := by
  obtain ⟨seen, hchecked⟩ := checked_of_validate h
  exact List.inj_on_of_nodup_map hchecked.nodup hpair hpair' hkey

end Llamesh.CookbookFile
