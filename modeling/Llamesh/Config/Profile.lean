import Mathlib.Data.List.Basic

/-!
# Profiles of the cookbook

The part of `NodeConfig`, `Cookbook` and `Profile` (`src/config.rs`) that the
scheduler reads: the limits, and the names a `model:profile` key is built from.
-/

namespace Llamesh.Config

/-- A model name or a profile id of an enabled pair; `Cookbook::validate` rejects a `:` in it.
`src/config.rs:814–838`. -/
@[ext] structure Name where
  text : String
  noColon : ':' ∉ text.toList
  deriving DecidableEq

/-- The defaults of the profiles. `src/config.rs:475–495`. -/
structure ModelDefaults where
  maxConcurrentRequestsPerInstance : Nat
  maxInstancesPerModel : Nat
  deriving DecidableEq, Repr

/-- A profile as `resolve_model` returns it, with the name of its model. -/
structure Profile where
  model : Name
  id : Name
  maxInstances : Option Nat
  deriving DecidableEq

/-- How many instances a profile may have. `src/config.rs:942–947`. -/
def Profile.effectiveMaxInstances (p : Profile) (defaults : ModelDefaults) : Nat :=
  match p.maxInstances with
  | some val => val
  | none => max defaults.maxInstancesPerModel 1

/-- `format!("{}:{}", model_name, profile.id)`. -/
def Profile.key (p : Profile) : String := p.model.text ++ ":" ++ p.id.text

/-- Only one pair of names has a given key. -/
theorem Profile.names_of_key {p q : Profile} (h : p.key = q.key) :
    p.model = q.model ∧ p.id = q.id := by
  have hl : p.model.text.toList ++ ':' :: p.id.text.toList =
      q.model.text.toList ++ ':' :: q.id.text.toList := by
    have hkeys := congrArg String.toList h
    simpa [Profile.key] using hkeys
  have hsplit := (List.append_cons_inj_of_notMem p.model.noColon p.id.noColon).mp hl
  constructor
  · apply Name.ext
    exact String.toList_inj.mp hsplit.1
  · apply Name.ext
    exact String.toList_inj.mp hsplit.2.2

/-- The enabled pairs of a valid cookbook. `src/config.rs:840–854`. -/
structure Cookbook where
  profiles : List Profile
  unique : ∀ p ∈ profiles, ∀ q ∈ profiles, p.model = q.model → p.id = q.id → p = q

/-- In a valid cookbook a key names one profile. -/
theorem Cookbook.eq_of_key (c : Cookbook) {p q : Profile} (hp : p ∈ c.profiles)
    (hq : q ∈ c.profiles) (h : p.key = q.key) : p = q := by
  obtain ⟨hm, hi⟩ := Profile.names_of_key h
  exact c.unique p hp q hq hm hi

/-- The limits of `NodeConfig`. `src/config.rs:24–47`. -/
structure NodeConfig where
  maxVramMb : Nat
  maxSysmemMb : Nat
  maxInstancesPerNode : Nat
  modelDefaults : ModelDefaults
  deriving DecidableEq, Repr

end Llamesh.Config
