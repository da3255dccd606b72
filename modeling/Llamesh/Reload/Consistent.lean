import Llamesh.Reload.Requests

/-!
# Reconciled instances match the cookbook

A spawn that inserts without draining has compared its definition with an index
that is not older than the version it inserts under, and the reconcile pass
covers everything inserted before it. A request never goes back to an older
version than the one it adopted.
-/

namespace Llamesh.Reload

open Transition

universe u v w

variable {K : Type u} {P : Type v} {H : Type w} {hash : P → H} {s t : State K P H}

private theorem Inv.requests_of (h : Inv hash s) (hx : Extends s t)
    (hsub : ∀ id r, t.requests.lookup id = some r → s.requests.lookup id = some r) :
    ∀ id r, t.requests.lookup id = some r → r.Ok hash t := by
  intro id r hr
  exact (h.requests id r (hsub id r hr)).extend hx

private theorem inv_erase (h : Inv hash s) (id : Nat) :
    Inv hash { s with requests := s.requests.erase id } := by
  constructor
  · exact h.epoch
  · exact h.requests_of (.of_eq rfl rfl (Nat.le_refl _)) fun _ _ hr =>
      (Table.lookup_erase_eq_some.mp hr).2
  · exact h.instances

private theorem inserted_matches (h : Inv hash s) {id : Nat} {key : K} {v c : Nat} {p : P}
    (hl : s.requests.lookup id = some ⟨key, .checked v p c false⟩) (hv : s.version = c)
    (hpass : s.reload.inPass = false) (j : Nat) :
    (s.index key).map hash = some (hash p) ∨ s.reload.Pending j := by
  have hepoch := h.epoch
  obtain ⟨n, index, hn, hix, hp⟩ := (h.requests id _ hl).checked rfl
  cases hpc : s.reload <;>
    simp only [hpc, ReloadPc.ahead, ReloadPc.inPass, reduceCtorEq] at hepoch hpass
  case idle =>
    -- The compared index is the last one.
    left
    have hle := le_of_indexAt hix
    have hlast : n = s.past.length := by omega
    rw [hlast, indexAt_current] at hix
    obtain rfl := Option.some.inj hix
    exact hp
  all_goals exact .inr trivial

private theorem inv_reload (h : Inv hash s) {pc : ReloadPc} (hahead : pc.ahead = s.reload.ahead)
    (hp : ∀ id inst, s.instances.lookup id = some inst → inst.flags.forced = false →
      s.reload.Pending id → s.Matches hash inst ∨ pc.Pending id) :
    Inv hash { s with reload := pc } := by
  constructor
  · exact h.epoch.trans (by rw [hahead])
  · exact h.requests_of (.of_eq rfl rfl (Nat.le_refl _)) fun _ _ hr => hr
  · intro k inst hi hf
    rcases h.instances k inst hi hf with hm | hd
    · exact .inl hm
    · exact hp k inst hi hf hd

private theorem inv_modifyFlags (h : Inv hash s) (id : Nat) {f : DrainFlags → DrainFlags}
    (hf : ∀ d, (f d).forced = false → d.forced = false) : Inv hash (modifyFlags s id f) := by
  constructor
  · exact h.epoch
  · exact h.requests_of (.of_eq rfl rfl (Nat.le_refl _)) fun _ _ hr => hr
  · intro k inst hi hforced
    simp only [modifyFlags, Table.lookup_modify] at hi
    by_cases hk : k = id
    · rw [if_pos hk] at hi
      cases hl : s.instances.lookup k with
      | none => simp [hl] at hi
      | some old =>
        simp only [hl, Option.map_some, Option.some.injEq] at hi
        subst hi
        exact h.instances k old hl (hf _ hforced)
    · rw [if_neg hk] at hi
      exact h.instances k inst hi hforced

private theorem inv_rebuild (h : Inv hash s) (hpc : s.reload = .idle) (index : Index K P) :
    Inv hash { s with past := s.past ++ [s.index], index, reload := .rebuilt } := by
  have hx := extends_rebuild s index .rebuilt
  constructor
  · have he := h.epoch
    simp only [hpc, ReloadPc.ahead, List.length_append, List.length_singleton] at he ⊢
    omega
  · exact h.requests_of hx fun _ _ hr => hr
  · intro k inst _ _
    exact .inr trivial

private theorem inv_bump (h : Inv hash s) (hpc : s.reload = .written) :
    Inv hash { s with version := s.version + 1, reload := .bumped } := by
  constructor
  · have he := h.epoch
    simp only [hpc, ReloadPc.ahead] at he ⊢
    omega
  · exact h.requests_of (.of_eq rfl rfl (Nat.le_succ _)) fun _ _ hr => hr
  · intro k inst _ _
    exact .inr trivial

private theorem inv_insert (h : Inv hash s) {id instanceId : Nat} {key : K} {v c : Nat} {p : P}
    {r binarySwap : Bool} (hl : s.requests.lookup id = some ⟨key, .checked v p c r⟩)
    (hpass : s.reload.inPass = false) :
    Inv hash { s with
      requests := s.requests.erase id
      instances := s.instances.insert instanceId
        { key, argsHash := hash p,
          flags := { draining := binarySwap || (r || decide (s.version ≠ c)) } } } := by
  constructor
  · exact h.epoch
  · exact h.requests_of (.of_eq rfl rfl (Nat.le_refl _)) fun _ _ hr =>
      (Table.lookup_erase_eq_some.mp hr).2
  · intro k inst hi hf
    rcases Table.lookup_insert_eq_some.mp hi with ⟨-, rfl⟩ | ⟨-, hold⟩
    · have hd : r = false ∧ s.version = c := by
        simp only [DrainFlags.forced, Bool.not_false, Bool.and_true, Bool.or_eq_false_iff,
          decide_eq_false_iff_not, not_not] at hf
        exact hf.2
      obtain ⟨rfl, hv⟩ := hd
      exact inserted_matches h hl hv hpass k
    · exact h.instances k inst hold hf

private theorem inv_markOrphan (h : Inv hash s) {remaining : List Nat} {id : Nat}
    (hpc : s.reload = .orphaned remaining id) :
    Inv hash
      { modifyFlags s id DrainFlags.drainOrphaned with reload := .reconciling remaining } := by
  have hmod := inv_modifyFlags h id (f := DrainFlags.drainOrphaned)
    (fun d hd => by rw [DrainFlags.forced_drainOrphaned] at hd; cases hd)
  refine inv_reload hmod (show _ = s.reload.ahead by rw [hpc]; rfl) ?_
  intro k inst hi hf hd
  change s.reload.Pending k at hd
  rw [hpc] at hd
  rcases hd with hm | rfl
  · exact .inr hm
  · -- The marked instance is forced.
    simp only [modifyFlags, Table.lookup_modify, if_true] at hi
    cases hl : s.instances.lookup k with
    | none => simp [hl] at hi
    | some old =>
      simp only [hl, Option.map_some, Option.some.injEq] at hi
      subst hi
      simp at hf

private theorem inv_otherStep {l : Label K P} (h : Inv hash s)
    (hstep : otherStep s l = some t) : Inv hash t := by
  cases l <;> simp only [otherStep, guarded_eq_some, reduceCtorEq, Option.some.injEq] at hstep
  case retire id =>
    obtain ⟨-, rfl⟩ := hstep
    refine ⟨h.epoch, h.requests_of (.of_eq rfl rfl (Nat.le_refl _)) fun _ _ hr => hr,
      fun k inst hi hf => ?_⟩
    exact h.instances k inst (Table.lookup_erase_eq_some.mp hi).2 hf
  case scheduleDrain id =>
    subst hstep
    exact inv_modifyFlags h id fun _ => DrainFlags.forced_of_forced_drainForCompetitor
  case cancelDrain id =>
    subst hstep
    exact inv_modifyFlags h id fun _ => DrainFlags.forced_of_forced_cancelDrain
  case forceDrain id =>
    subst hstep
    apply inv_modifyFlags h id
    intro d hd
    rw [DrainFlags.forced_drainForBinaryUpdate] at hd
    cases hd

variable [DecidableEq H]

private theorem inv_moved (h : Inv hash s) {id : Nat} {key : K} {pc : RequestPc P}
    (hm : Moved hash s id key pc) : Inv hash (setPc s id key pc) := by
  constructor
  · exact h.epoch
  · intro k r hr
    have hx : Extends s (setPc s id key pc) := .of_eq rfl rfl (Nat.le_refl _)
    rcases Table.lookup_insert_eq_some.mp hr with ⟨-, rfl⟩ | ⟨-, hold⟩
    · exact (hm.ok h).extend hx
    · exact (h.requests k r hold).extend hx
  · exact h.instances

private theorem inv_judge (h : Inv hash s) {remaining : List Nat} {id : Nat} {alreadyForced : Bool}
    (hpc : s.reload = .inspected remaining id alreadyForced) {inst : Instance K H}
    (hl : s.instances.lookup id = some inst)
    (hj : (!alreadyForced && replacedBy hash s.index inst.key inst.argsHash) = false) :
    Inv hash { s with reload := .reconciling remaining } := by
  apply inv_reload h (by rw [hpc]; rfl)
  intro k other hk hf hd
  rw [hpc] at hd
  rcases hd with hm | ⟨rfl, rfl⟩
  · exact .inr hm
  · obtain rfl := Option.some.inj (hl.symm.trans hk)
    left
    exact replacedBy_eq_false.mp (by simpa using hj)

private theorem inv_resolveStep {l : Label K P} (h : Inv hash s)
    (hstep : resolveStep s l = some t) : Inv hash t := by
  obtain ⟨id, ⟨key, pc, hm, rfl⟩ | rfl⟩ := resolveStep_moved hash hstep
  · exact inv_moved h hm
  · exact inv_erase h id

private theorem inv_spawnStep {l : Label K P} (h : Inv hash s)
    (hstep : spawnStep hash s l = some t) : Inv hash t := by
  rcases spawnStep_moved hstep with ⟨id, key, pc, hm, rfl⟩ |
    ⟨id, key, v, p, c, r, instanceId, binarySwap, hl, hpass, rfl⟩
  · exact inv_moved h hm
  · exact inv_insert h hl hpass

private theorem inv_reloadStep {l : Label K P} (h : Inv hash s)
    (hstep : reloadStep hash s l = some t) : Inv hash t := by
  cases l <;> simp only [reloadStep, guarded_eq_some, reduceCtorEq] at hstep
  case rebuildIndex index =>
    obtain ⟨hpc, rfl⟩ := hstep
    exact inv_rebuild h hpc index
  case writeCookbook =>
    obtain ⟨hpc, rfl⟩ := hstep
    exact inv_reload h (by rw [hpc]; rfl) fun _ _ _ _ _ => .inr trivial
  case bumpVersion =>
    obtain ⟨hpc, rfl⟩ := hstep
    exact inv_bump h hpc
  case beginReconcile =>
    obtain ⟨hpc, rfl⟩ := hstep
    exact inv_reload h (by rw [hpc]; rfl) fun _ _ hl _ _ => .inr (Table.mem_keys_of_lookup hl)
  case inspect id =>
    split at hstep
    · next remaining inst hpc hl =>
      rw [guarded_eq_some] at hstep
      obtain ⟨-, rfl⟩ := hstep
      apply inv_reload h (by rw [hpc]; rfl)
      intro k other hk hf hd
      rw [hpc] at hd
      right
      by_cases hkid : k = id
      · subst hkid
        obtain rfl := Option.some.inj (hl.symm.trans hk)
        exact .inr ⟨rfl, hf⟩
      · exact .inl ((List.mem_erase_of_ne hkid).mpr hd)
    · cases hstep
  case judge =>
    split at hstep
    · next remaining id alreadyForced hpc =>
      split at hstep
      · next inst hl =>
        split at hstep
        · obtain rfl := Option.some.inj hstep
          apply inv_reload h (by rw [hpc]; rfl)
          intro k other _ _ hd
          rw [hpc] at hd
          rcases hd with hm | ⟨rfl, -⟩
          · exact .inr (.inl hm)
          · exact .inr (.inr rfl)
        · next hj =>
          obtain rfl := Option.some.inj hstep
          exact inv_judge h hpc hl (Bool.not_eq_true _ ▸ hj)
      · cases hstep
    · cases hstep
  case markOrphan =>
    split at hstep
    · next remaining id hpc =>
      obtain rfl := Option.some.inj hstep
      exact inv_markOrphan h hpc
    · cases hstep
  case endReconcile =>
    obtain ⟨hpc, rfl⟩ := hstep
    apply inv_reload h (by rw [hpc]; rfl)
    intro k inst _ _ hd
    rw [hpc] at hd
    simp [ReloadPc.Pending] at hd

/-- A step is a step of one of the tasks. -/
theorem step_cases {l : Label K P} (h : step hash s l = some t) :
    reloadStep hash s l = some t ∨ resolveStep s l = some t ∨ spawnStep hash s l = some t ∨
      otherStep s l = some t := by
  cases l
  case rebuildIndex | writeCookbook | bumpVersion | beginReconcile | inspect | judge | markOrphan |
      endReconcile => exact .inl h
  case arrive | resolve | refreshObserve | refreshResolve | refreshRecheck | leave =>
    exact .inr (.inl h)
  case beginSpawn | execProcess | spawnFailed | seeVersion | compareProfile | checkVersion |
      insertInstance => exact .inr (.inr (.inl h))
  case retire | scheduleDrain | cancelDrain | forceDrain => exact .inr (.inr (.inr h))

/-- Every atomic piece keeps the invariant. -/
theorem inv_step {l : Label K P} (h : Inv hash s) (hstep : step hash s l = some t) :
    Inv hash t := by
  rcases step_cases hstep with hr | hr | hr | hr
  · exact inv_reloadStep h hr
  · exact inv_resolveStep h hr
  · exact inv_spawnStep h hr
  · exact inv_otherStep h hr

/-! ### Adopted versions -/

/-- The version and the versions the request `id` has read are not below `v`. -/
private def NotBelow (id v : Nat) (s : State K P H) : Prop :=
  v ≤ s.version ∧ ∀ r, s.requests.lookup id = some r → v ≤ r.pc.version

private theorem notBelow_moved {id v k : Nat} {key : K} {pc : RequestPc P} (h : NotBelow id v s)
    (hm : Moved hash s k key pc) : NotBelow id v (setPc s k key pc) := by
  refine ⟨h.1, fun r hr => ?_⟩
  rcases Table.lookup_insert_eq_some.mp hr with ⟨rfl, rfl⟩ | ⟨-, hold⟩
  · exact hm.version_le h.1 h.2
  · exact h.2 r hold

omit [DecidableEq H] in
private theorem NotBelow.keep {id v : Nat} (h : NotBelow id v s)
    (hr : t.requests = s.requests) (hv : s.version ≤ t.version) : NotBelow id v t := by
  refine ⟨Nat.le_trans h.1 hv, fun r hl => ?_⟩
  rw [hr] at hl
  exact h.2 r hl

omit [DecidableEq H] in
private theorem NotBelow.erase {id v k : Nat} (h : NotBelow id v s)
    (hr : t.requests = s.requests.erase k) (hv : s.version ≤ t.version) : NotBelow id v t := by
  refine ⟨Nat.le_trans h.1 hv, fun r hl => ?_⟩
  rw [hr] at hl
  exact h.2 r (Table.lookup_erase_eq_some.mp hl).2

private theorem reloadStep_frame {l : Label K P} (h : reloadStep hash s l = some t) :
    t.requests = s.requests ∧ s.version ≤ t.version := by
  cases l <;> simp only [reloadStep, guarded_eq_some, reduceCtorEq] at h
  case rebuildIndex | writeCookbook | beginReconcile | endReconcile =>
    obtain ⟨-, rfl⟩ := h
    exact ⟨rfl, Nat.le_refl _⟩
  case bumpVersion =>
    obtain ⟨-, rfl⟩ := h
    exact ⟨rfl, Nat.le_succ _⟩
  case inspect =>
    split at h
    · rw [guarded_eq_some] at h
      obtain ⟨-, rfl⟩ := h
      exact ⟨rfl, Nat.le_refl _⟩
    · cases h
  case judge =>
    split at h
    · split at h
      · split at h <;> (obtain rfl := Option.some.inj h; exact ⟨rfl, Nat.le_refl _⟩)
      · cases h
    · cases h
  case markOrphan =>
    split at h
    · obtain rfl := Option.some.inj h
      exact ⟨rfl, Nat.le_refl _⟩
    · cases h

omit [DecidableEq H] in
private theorem otherStep_frame {l : Label K P} (h : otherStep s l = some t) :
    t.requests = s.requests ∧ s.version ≤ t.version := by
  cases l <;> simp only [otherStep, guarded_eq_some, reduceCtorEq, Option.some.injEq] at h
  case retire =>
    obtain ⟨-, rfl⟩ := h
    exact ⟨rfl, Nat.le_refl _⟩
  all_goals
    subst h
    exact ⟨rfl, Nat.le_refl _⟩

private theorem notBelow_step {id v : Nat} {l : Label K P} (h : NotBelow id v s)
    (hstep : step hash s l = some t) : NotBelow id v t := by
  rcases step_cases hstep with hr | hr | hr | hr
  · exact h.keep (reloadStep_frame hr).1 (reloadStep_frame hr).2
  · obtain ⟨k, ⟨key, pc, hm, rfl⟩ | rfl⟩ := resolveStep_moved hash hr
    · exact notBelow_moved h hm
    · exact h.erase rfl (Nat.le_refl _)
  · rcases spawnStep_moved hr with ⟨k, key, pc, hm, rfl⟩ | ⟨k, _, _, _, _, _, _, _, -, -, rfl⟩
    · exact notBelow_moved h hm
    · exact h.erase rfl (Nat.le_refl _)
  · exact h.keep (otherStep_frame hr).1 (otherStep_frame hr).2

/-- The version a request has adopted together with a definition. -/
def RequestPc.adopted? : RequestPc P → Option Nat
  | .sampled _ => none
  | pc => some pc.version

private theorem version_of_adopted {pc : RequestPc P} {v : Nat} (h : pc.adopted? = some v) :
    pc.version = v := by
  cases pc <;> simp_all [RequestPc.adopted?, RequestPc.version]

/-- When no reload is under way, every mapped instance that does not drain has the args of the
definition its key resolves to, and a request that has adopted a version never starts a process
from an older definition. -/
theorem reload_spawn_consistent (hash : P → H) (index : Index K P) (s : State K P H)
    (hs : Reachable (step hash) (State.init index) s) :
    (s.reload = .idle → ∀ id inst, s.instances.lookup id = some inst →
      inst.flags.draining = false → (s.index inst.key).map hash = some inst.argsHash) ∧
    ∀ id r v, s.requests.lookup id = some r → r.pc.adopted? = some v →
      ∀ ls t, exec (step hash) s ls = some t → ∀ key v' profile,
        t.requests.lookup id = some ⟨key, .started v' profile⟩ →
        ∃ n book, v ≤ n ∧ t.indexAt n = some book ∧ book key = some profile := by
  have h : Inv hash s := hs.invariant (fun _ _ _ => inv_step) (inv_init hash index)
  constructor
  · intro hidle id inst hi hd
    rcases h.instances id inst hi (DrainFlags.forced_of_not_draining hd) with hm | hp
    · exact hm
    · rw [hidle] at hp
      exact hp.elim
  · intro id r v hr hv ls t ht key v' profile hstarted
    have hver := version_of_adopted hv
    have hbelow : NotBelow id v s := by
      refine ⟨hver ▸ (h.requests id r hr).version_le, fun r' hr' => ?_⟩
      obtain rfl := Option.some.inj (hr.symm.trans hr')
      exact Nat.le_of_eq hver.symm
    have hbelow' : NotBelow id v t := exec_invariant (fun _ _ _ => notBelow_step) hbelow ht
    have h' : Inv hash t := exec_invariant (fun _ _ _ => inv_step) h ht
    obtain ⟨n, book, hn, hix, hp⟩ := (h'.requests id _ hstarted).defined profile rfl
    exact ⟨n, book, Nat.le_trans (hbelow'.2 _ hstarted) hn, hix, hp⟩

/-- A request resolves, is overtaken by a reload that replaces its definition, adopts the new one
and spawns it; a second one spawned the old definition before and is drained by the pass. -/
def reloadBetweenRun : List (Label Unit Nat) :=
  [.arrive 0 (), .resolve 0, .arrive 1 (), .resolve 1, .beginSpawn 1, .execProcess 1,
    .seeVersion 1, .compareProfile 1, .checkVersion 1, .insertInstance 1 10 false,
    .rebuildIndex fun _ => some 8, .writeCookbook, .bumpVersion, .refreshObserve 0,
    .refreshResolve 0, .refreshRecheck 0, .beginReconcile, .inspect 10, .judge, .markOrphan,
    .endReconcile]

/-- The rest of the run of the first request. -/
def adoptedSpawnRun : List (Label Unit Nat) := [.beginSpawn 0, .execProcess 0]

/-- The theorem applies to the end of that run: the old instance drains, and the adopted request
starts the new definition. -/
theorem reloadBetween_consistent :
    ∃ s t, exec (step id) (State.init fun _ => some 7) reloadBetweenRun = some s ∧
      exec (step id) s adoptedSpawnRun = some t ∧ s.reload = .idle ∧
      (s.instances.lookup 10).map (fun i => i.flags.draining) = some true ∧
      (∀ k inst, s.instances.lookup k = some inst → inst.flags.draining = false →
        (s.index inst.key).map id = some inst.argsHash) ∧
      ∃ n book, 1 ≤ n ∧ t.indexAt n = some book ∧ book () = some 8 := by
  refine ⟨_, _, rfl, rfl, rfl, rfl, ?_, ?_⟩
  · exact (reload_spawn_consistent id (fun _ => some 7) _ ⟨reloadBetweenRun, rfl⟩).1 rfl
  · exact (reload_spawn_consistent id (fun _ => some 7) _ ⟨reloadBetweenRun, rfl⟩).2 0 _ 1 rfl rfl
      adoptedSpawnRun _ rfl () 1 8 rfl

end Llamesh.Reload
