import Llamesh.Spawn.Preserved

/-!
# What a step does to the registry and to the map

The inversion of the step function the bounds on counts and memory rest on: only a
reservation adds an entry to the registry, only an insertion adds an instance to
the map, and that insertion hands one pending entry off.
-/

namespace Llamesh.Spawn

open Transition Config SpawnReservations

variable {config : NodeConfig} {cookbook : Cookbook} {s s' : State}

/-- Nothing is admitted or inserted. -/
def Quiet (s s' : State) : Prop :=
  Shrinks s.registry s'.registry ∧ InstancesShrink s.instances s'.instances

/-- A reservation. -/
def Reserves (s s' : State) : Prop :=
  ∃ t request required id, s.tasks.lookup t = some (.admitted request required) ∧
    id ∉ s.registry.entries ∧ s'.registry = s.registry.reserve id request.profile.key required ∧
    s'.instances = s.instances ∧ s'.processes = s.processes ∧
    s'.tasks = s.tasks.insert t (.reserved request id)

/-- An insertion with its handoff. -/
def Inserts (config : NodeConfig) (s s' : State) : Prop :=
  ∃ t request id inst, s.tasks.lookup t = some (.inserting request id) ∧
    recheck config s.instances request.profile = none ∧ inst.model = request.profile.model ∧
    inst.profileId = request.profile.id ∧ s'.registry = s.registry.markHandedOff id ∧
    s'.instances = s.instances.insert id inst

private theorem quiet_of_eq (hr : s'.registry = s.registry) (hm : s'.instances = s.instances) :
    Quiet s s' := by
  rw [Quiet, hr, hm]
  exact ⟨Shrinks.refl _, InstancesShrink.refl _⟩

private theorem quiet_of_shrinks (hr : Shrinks s.registry s'.registry)
    (hm : s'.instances = s.instances) : Quiet s s' := by
  rw [Quiet, hm]
  exact ⟨hr, InstancesShrink.refl _⟩

private theorem quiet_of_map (hr : s'.registry = s.registry)
    (hm : InstancesShrink s.instances s'.instances) : Quiet s s' := by
  rw [Quiet, hr]
  exact ⟨Shrinks.refl _, hm⟩

private theorem quiet_enterStep {l : Label} (hs : enterStep config cookbook s l = some s') :
    Quiet s s' := by
  cases l <;> simp only [enterStep, reduceCtorEq] at hs
  case arrive t request =>
    rw [guarded_eq_some] at hs
    obtain ⟨-, rfl⟩ := hs
    exact quiet_of_eq rfl rfl
  case lock t =>
    split at hs
    · rw [guarded_eq_some] at hs
      obtain ⟨-, rfl⟩ := hs
      exact quiet_of_eq rfl rfl
    · cases hs
  case attach t id now =>
    split at hs
    · next request inst ht hinst =>
      rw [guarded_eq_some] at hs
      obtain ⟨-, rfl⟩ := hs
      exact quiet_of_map rfl (instancesShrink_insert hinst rfl rfl)
    · cases hs
  case prune t dead =>
    split at hs
    · rw [guarded_eq_some] at hs
      obtain ⟨-, rfl⟩ := hs
      exact quiet_of_map rfl (instancesShrink_removeAll _ _)
    · cases hs

private theorem quiet_accountStep {l : Label} (hs : accountStep config s l = some s') :
    Quiet s s' := by
  cases l <;> simp only [accountStep, reduceCtorEq] at hs
  case snapshot t required =>
    split at hs
    · cases hs
      exact quiet_of_eq rfl rfl
    · cases hs
  case observe t =>
    split at hs
    · rw [guarded_eq_some] at hs
      obtain ⟨-, rfl⟩ := hs
      exact quiet_of_eq rfl rfl
    · cases hs
  case resample t =>
    split at hs
    · cases hs
      exact quiet_of_eq rfl rfl
    · cases hs
  case sample t id =>
    split at hs
    · split at hs
      · split at hs
        · cases hs
          exact quiet_of_eq rfl rfl
        · cases hs
      · cases hs
    · cases hs
  case account t device =>
    split at hs
    · split at hs
      · rw [guarded_eq_some] at hs
        obtain ⟨-, rfl⟩ := hs
        split
        · exact quiet_of_eq rfl rfl
        · split
          · exact quiet_of_shrinks (shrinks_leave _ t _) rfl
          · exact quiet_of_eq rfl rfl
        · exact quiet_of_shrinks (shrinks_leave _ t _) rfl
      · cases hs
    · cases hs

private theorem effect_admitStep {l : Label} (hs : admitStep config s l = some s') :
    Quiet s s' ∨ Reserves s s' := by
  cases l <;> simp only [admitStep, reduceCtorEq] at hs
  case plan t order =>
    left
    split at hs
    · rw [guarded_eq_some] at hs
      obtain ⟨-, rfl⟩ := hs
      split
      · exact quiet_of_shrinks (shrinks_leave _ t _) rfl
      · split
        · exact quiet_of_eq rfl rfl
        · exact quiet_of_eq rfl rfl
    · cases hs
  case evict t =>
    left
    split at hs
    · cases hs
      split
      · next instances hcommit =>
        exact quiet_of_map rfl (instancesShrink_withRevision hcommit)
      · exact quiet_of_eq rfl rfl
    · cases hs
  case resume t =>
    left
    split at hs
    · rw [guarded_eq_some] at hs
      obtain ⟨-, rfl⟩ := hs
      exact quiet_of_eq rfl rfl
    · cases hs
  case reserve t id =>
    right
    split at hs
    · next request required ht =>
      rw [guarded_eq_some] at hs
      obtain ⟨⟨hfresh, -⟩, rfl⟩ := hs
      exact ⟨t, request, required, id, ht, hfresh, rfl, rfl, rfl, rfl⟩
    · cases hs

private theorem effect_spawnStep {l : Label} (h : Inv config cookbook s)
    (hs : spawnStep config s l = some s') : Quiet s s' ∨ Inserts config s s' := by
  cases l <;> simp only [spawnStep, reduceCtorEq] at hs
  case exec t pid =>
    left
    split at hs
    · next request id ht =>
      split at hs
      · rw [guarded_eq_some] at hs
        obtain ⟨-, rfl⟩ := hs
        exact quiet_of_shrinks (h.shrinks_exec ht pid) rfl
      · cases hs
    · cases hs
  case execFailed t =>
    left
    split at hs
    · cases hs
      exact quiet_of_eq rfl rfl
    · cases hs
  case insertLock t =>
    left
    split at hs
    · rw [guarded_eq_some] at hs
      obtain ⟨-, rfl⟩ := hs
      exact quiet_of_eq rfl rfl
    · cases hs
  case insert t now =>
    split at hs
    · next request id ht =>
      cases hs
      split
      · left
        exact quiet_of_shrinks (shrinks_leave _ t _) rfl
      · next hcheck =>
        right
        exact ⟨t, request, id, _, ht, hcheck, rfl, rfl, rfl, rfl⟩
    · cases hs
  case leave t =>
    left
    split at hs
    · cases hs
      exact quiet_of_shrinks (shrinks_leave _ t _) rfl
    · cases hs

private theorem quiet_otherStep {l : Label} (hs : otherStep s l = some s') : Quiet s s' := by
  cases l <;> simp only [otherStep, reduceCtorEq] at hs
  case retire ids =>
    rw [guarded_eq_some] at hs
    obtain ⟨-, rfl⟩ := hs
    exact quiet_of_map rfl (instancesShrink_removeAll _ _)
  case retired =>
    rw [guarded_eq_some] at hs
    obtain ⟨-, rfl⟩ := hs
    exact quiet_of_eq rfl rfl
  case ready id =>
    split at hs
    · split at hs
      · rw [guarded_eq_some] at hs
        obtain ⟨-, rfl⟩ := hs
        exact quiet_of_shrinks (shrinks_markReady _ _) rfl
      · cases hs
    · cases hs
  case finish id =>
    rw [guarded_eq_some] at hs
    obtain ⟨-, rfl⟩ := hs
    exact quiet_of_shrinks (shrinks_releaseMemory _ _) rfl
  case measure pid usage readable =>
    cases hs
    exact quiet_of_eq rfl rfl
  case release id now =>
    cases hs
    exact quiet_of_map rfl (instancesShrink_modify _ _ (fun _ => rfl) (fun _ => rfl))
  case crash id =>
    cases hs
    exact quiet_of_map rfl (instancesShrink_modify _ _ (fun _ => rfl) (fun _ => rfl))

/-- Only a reservation adds to the registry, and only an insertion adds to the map. -/
theorem step_effect {l : Label} (h : Inv config cookbook s)
    (hs : step config cookbook s l = some s') :
    Quiet s s' ∨ Reserves s s' ∨ Inserts config s s' := by
  cases l <;> simp only [step] at hs
  all_goals first
    | exact .inl (quiet_enterStep hs)
    | exact .inl (quiet_accountStep hs)
    | exact (effect_admitStep hs).imp_right .inl
    | exact (effect_spawnStep h hs).imp_right .inr
    | exact .inl (quiet_otherStep hs)

end Llamesh.Spawn
