import Llamesh.Spawn.Model

/-!
# Who owns a reservation

A pending reservation is owned by at most one request until its handoff, the
request that holds the write lock is the only one that admits, and the registry a
plan was made from only shrinks until the plan is used.
-/

namespace Llamesh.Spawn

open Transition Config SpawnReservations

/-! ### The instances map -/

/-- Every instance of the second map is one of the first, under its names. -/
def InstancesShrink (m m' : Instances) : Prop :=
  ∀ id i', m'.lookup id = some i' →
    ∃ i, m.lookup id = some i ∧ i'.model = i.model ∧ i'.profileId = i.profileId

/-- A map shrinks to itself. -/
theorem InstancesShrink.refl (m : Instances) : InstancesShrink m m :=
  fun _ i h => ⟨i, h, rfl, rfl⟩

/-- Shrinking twice is shrinking. -/
theorem InstancesShrink.trans {a b c : Instances} (h₁ : InstancesShrink a b)
    (h₂ : InstancesShrink b c) : InstancesShrink a c := by
  intro id i'' h
  obtain ⟨i', hi', hm', hp'⟩ := h₂ id i'' h
  obtain ⟨i, hi, hm, hp⟩ := h₁ id i' hi'
  exact ⟨i, hi, hm'.trans hm, hp'.trans hp⟩

private theorem instancesShrink_erase (m : Instances) (id : Nat) : InstancesShrink m
    (m.erase id) := by
  intro k i' h
  rw [Table.lookup_erase_eq_some] at h
  exact ⟨i', h.2, rfl, rfl⟩

/-- Removing instances shrinks the map. -/
theorem instancesShrink_removeAll (m : Instances) (ids : List Nat) :
    InstancesShrink m (removeAll m ids) := by
  induction ids generalizing m with
  | nil => exact InstancesShrink.refl m
  | cons id ids ih => exact (instancesShrink_erase m id).trans (ih (m.erase id))

/-- Changing an instance but not its profile shrinks the map. -/
theorem instancesShrink_modify (m : Instances) (id : Nat) {f : Instance → Instance}
    (hm : ∀ i, (f i).model = i.model) (hp : ∀ i, (f i).profileId = i.profileId) :
    InstancesShrink m (m.modify id f) := by
  intro k i' h
  rw [Table.lookup_modify] at h
  by_cases hk : k = id
  · simp only [hk, if_true, Option.map_eq_some_iff] at h
    obtain ⟨i, hi, rfl⟩ := h
    exact ⟨i, hi, hm i, hp i⟩
  · rw [if_neg hk] at h
    exact ⟨i', h, rfl, rfl⟩

/-- So does replacing one by another of the same profile. -/
theorem instancesShrink_insert {m : Instances} {id : Nat} {i i' : Instance}
    (h : m.lookup id = some i) (hm : i'.model = i.model) (hp : i'.profileId = i.profileId) :
    InstancesShrink m (m.insert id i') := by
  intro k j hj
  rw [Table.lookup_insert_eq_some] at hj
  obtain ⟨rfl, rfl⟩ | ⟨-, hj⟩ := hj
  · exact ⟨i, h, hm, hp⟩
  · exact ⟨j, hj, rfl, rfl⟩

/-- A map that shrinks gains no instance. -/
theorem InstancesShrink.notMem {m m' : Instances} (h : InstancesShrink m m') {id : Nat}
    (hid : id ∉ m) : id ∉ m' := by
  intro hm
  obtain ⟨i', hi'⟩ := Option.isSome_iff_exists.mp (AList.lookup_isSome.mpr hm)
  obtain ⟨i, hi, -⟩ := h id i' hi'
  exact hid (AList.lookup_isSome.mp (by rw [hi]; rfl))

/-- A map that shrinks has no more instances of a profile. -/
theorem InstancesShrink.count_le {m m' : Instances} (h : InstancesShrink m m') (p : Profile) :
    countProfileInstances m' p ≤ countProfileInstances m p := by
  apply Table.count_le_count_of_lookup
  intro id i' hi'
  obtain ⟨i, hi, hm, hp⟩ := h id i' hi'
  refine ⟨i, hi, ?_⟩
  rw [hm, hp]
  exact fun hcounted => hcounted

/-- A map that shrinks has no more instances. -/
theorem InstancesShrink.size_le {m m' : Instances} (h : InstancesShrink m m') :
    Table.size m' ≤ Table.size m := by
  rw [Table.size_eq_count, Table.size_eq_count]
  apply Table.count_le_count_of_lookup
  intro id i' hi'
  obtain ⟨i, hi, -⟩ := h id i' hi'
  exact ⟨i, hi, fun _ => rfl⟩

/-! ### The invariant -/

/-- The profile a task asks for. -/
def Task.profile : Task → Option Profile
  | .waiting request | .locked request | .planning request _ _ | .accounted request _ _
  | .evicting request _ | .admitted request _ | .retiring request _ | .reserved request _
  | .resampling request _ _ | .cleared request _ | .spawned request _ | .inserting request _ =>
    some request.profile
  | .observing _ => none

/-- What a task found under its lock still holds: the registry is its copy less what has gone
since, and an admitted request has its place among the limits. -/
def Task.Current (config : NodeConfig) (instances : Instances) (registry : SpawnReservations) :
    Task → Prop
  | .planning _ _ scan => Shrinks scan.snapshot registry
  | .accounted _ _ accounting => Shrinks accounting.reservations registry
  | .admitted request _ =>
    countProfileInstances instances request.profile + registry.profileCount request.profile.key <
        request.profile.effectiveMaxInstances config.modelDefaults ∧
      Table.size instances + registry.nodeTotal < config.maxInstancesPerNode
  | _ => True

/-- The entry of a reservation that `task` owns. -/
structure Owned (task : Task) (e : MemoryCommitment) : Prop where
  pending : e.pending = true
  key : ∀ p, task.profile = some p → e.key = p.key
  childless : task.hasChild = false → e.pid = none

/-- What holds of one task. -/
structure TaskOk (config : NodeConfig) (cookbook : Cookbook) (s : State) (t : Nat)
    (task : Task) : Prop where
  holder : task.writes = true → s.lock = .writing t
  known : ∀ p, task.profile = some p → p ∈ cookbook.profiles
  current : task.Current config s.instances s.registry
  owned : ∀ id, task.reservation = some id →
    id ∉ s.instances ∧ ∃ e, s.registry.entries.lookup id = some e ∧ Owned task e

/-- The invariant: every task is as above, and no two own one reservation. -/
structure Inv (config : NodeConfig) (cookbook : Cookbook) (s : State) : Prop where
  tasks : ∀ t task, s.tasks.lookup t = some task → TaskOk config cookbook s t task
  distinct : ∀ t u a b id, s.tasks.lookup t = some a → s.tasks.lookup u = some b →
    a.reservation = some id → b.reservation = some id → t = u

variable {config : NodeConfig} {cookbook : Cookbook} {s s' : State}

/-- The invariant holds before the first spawn. -/
theorem inv_init (config : NodeConfig) (cookbook : Cookbook) : Inv config cookbook State.init where
  tasks t task h := by simp [State.init] at h
  distinct t u a b id h := by simp [State.init] at h

/-- A step of others that the facts about a task survive: the lock stays with its holder, nothing
is admitted meanwhile, and a reservation that is owned is left alone. -/
structure Keeps (s s' : State) (t : Nat) (task : Task) : Prop where
  lock : s.lock = .writing t → s'.lock = .writing t ∧ Shrinks s.registry s'.registry ∧
    InstancesShrink s.instances s'.instances
  entry : ∀ id, task.reservation = some id → id ∉ s.instances →
    s'.registry.entries.lookup id = s.registry.entries.lookup id ∧ id ∉ s'.instances

/-- What holds of a task is kept by the steps of the others. -/
theorem TaskOk.keep {t : Nat} {task : Task} (h : TaskOk config cookbook s t task)
    (hk : Keeps s s' t task) : TaskOk config cookbook s' t task where
  holder hw := (hk.lock (h.holder hw)).1
  known := h.known
  current := by
    have hc := h.current
    have hs := hk.lock
    have hl := h.holder
    cases task with
    | planning req required scan => exact Shrinks.trans hc (hs (hl rfl)).2.1
    | accounted req required acc => exact Shrinks.trans hc (hs (hl rfl)).2.1
    | admitted request required =>
      obtain ⟨-, hregistry, hmap⟩ := hs (hl rfl)
      have hprofile := hregistry.profileCount_le request.profile.key
      have hnode := hregistry.nodeTotal_le
      have hcount := hmap.count_le request.profile
      have hsize := hmap.size_le
      simp only [Task.Current] at hc ⊢
      omega
    | _ => trivial
  owned id hid := by
    obtain ⟨hm, e, he, ho⟩ := h.owned id hid
    obtain ⟨hentry, hm'⟩ := hk.entry id hid hm
    exact ⟨hm', e, by rw [hentry, he], ho⟩

/-- A step that changes no task. -/
theorem Inv.others (h : Inv config cookbook s) (htasks : s'.tasks = s.tasks)
    (hk : ∀ t task, s.tasks.lookup t = some task → Keeps s s' t task) : Inv config cookbook s' where
  tasks t task ht := by
    rw [htasks] at ht
    exact (h.tasks t task ht).keep (hk t task ht)
  distinct := by
    rw [htasks]
    exact h.distinct

/-- A step of the task `t`, which ends. -/
theorem Inv.ends (h : Inv config cookbook s) {t : Nat} (htasks : s'.tasks = s.tasks.erase t)
    (hk : ∀ u task, u ≠ t → s.tasks.lookup u = some task → Keeps s s' u task) :
    Inv config cookbook s' where
  tasks u task hu := by
    rw [htasks, Table.lookup_erase_eq_some] at hu
    exact (h.tasks u task hu.2).keep (hk u task hu.1 hu.2)
  distinct u v a b id hu hv := by
    rw [htasks, Table.lookup_erase_eq_some] at hu hv
    exact h.distinct u v a b id hu.2 hv.2

/-- A step of the task `t`, which moves on. -/
theorem Inv.moves (h : Inv config cookbook s) {t : Nat} {new : Task}
    (htasks : s'.tasks = s.tasks.insert t new) (hnew : TaskOk config cookbook s' t new)
    (hk : ∀ u task, u ≠ t → s.tasks.lookup u = some task → Keeps s s' u task)
    (hown : ∀ u task id, u ≠ t → s.tasks.lookup u = some task → task.reservation = some id →
      new.reservation ≠ some id) : Inv config cookbook s' where
  tasks u task hu := by
    rw [htasks, Table.lookup_insert_eq_some] at hu
    obtain ⟨rfl, rfl⟩ | ⟨hne, hu⟩ := hu
    · exact hnew
    · exact (h.tasks u task hu).keep (hk u task hne hu)
  distinct u v a b id hu hv ha hb := by
    rw [htasks, Table.lookup_insert_eq_some] at hu hv
    obtain ⟨rfl, rfl⟩ | ⟨hu', hu⟩ := hu
    · obtain ⟨rfl, -⟩ | ⟨hv', hv⟩ := hv
      · rfl
      · exact absurd ha (hown v b id hv' hv hb)
    · obtain ⟨rfl, rfl⟩ | ⟨hv', hv⟩ := hv
      · exact absurd hb (hown u a id hu' hu ha)
      · exact h.distinct u v a b id hu hv ha hb

/-! ### What a step leaves alone -/

/-- A step under the lock of another task, or none. -/
theorem keeps_of_free {u : Nat} {task : Task} (hfree : s.lock ≠ .writing u)
    (hr : ∀ id, task.reservation = some id →
      s'.registry.entries.lookup id = s.registry.entries.lookup id)
    (hm : ∀ id, task.reservation = some id → id ∉ s.instances → id ∉ s'.instances) :
    Keeps s s' u task where
  lock hl := absurd hl hfree
  entry id hid hn := ⟨hr id hid, hm id hid hn⟩

/-- A step that leaves the lock alone. -/
theorem keeps_of_lock {u : Nat} {task : Task} (hl : s'.lock = s.lock)
    (hs : Shrinks s.registry s'.registry)
    (hr : ∀ id, task.reservation = some id →
      s'.registry.entries.lookup id = s.registry.entries.lookup id)
    (hm : InstancesShrink s.instances s'.instances) : Keeps s s' u task where
  lock h := ⟨by rw [hl, h], hs, hm⟩
  entry id hid hn := ⟨hr id hid, hm.notMem hn⟩

/-- A step of others' data. -/
theorem keeps_refl {u : Nat} {task : Task} (hl : s'.lock = s.lock)
    (hr : s'.registry = s.registry) (hm : s'.instances = s.instances) : Keeps s s' u task := by
  apply keeps_of_lock hl
  · rw [hr]
    exact Shrinks.refl _
  · intro id _
    rw [hr]
  · rw [hm]
    exact InstancesShrink.refl _

/-- The lock of a task that writes is not another's. -/
theorem TaskOk.not_writing {t u : Nat} {task : Task} (h : TaskOk config cookbook s t task)
    (hw : task.writes = true) (hu : u ≠ t) : s.lock ≠ .writing u := by
  rw [h.holder hw]
  simp [Ne.symm hu]

private theorem TaskOk.move {t : Nat} {old new : Task} (h : TaskOk config cookbook s t old)
    (hres : new.reservation = old.reservation) (hprof : new.profile = old.profile)
    (hchild : new.hasChild = false → old.hasChild = false)
    (hentry : ∀ id, old.reservation = some id →
      s'.registry.entries.lookup id = s.registry.entries.lookup id)
    (hmap : ∀ id, id ∉ s.instances → id ∉ s'.instances)
    (hw : new.writes = true → s'.lock = .writing t)
    (hc : new.Current config s'.instances s'.registry) :
    TaskOk config cookbook s' t new where
  holder := hw
  known p hp := h.known p (hprof ▸ hp)
  current := hc
  owned id hid := by
    rw [hres] at hid
    obtain ⟨hm, e, he, ho⟩ := h.owned id hid
    refine ⟨hmap id hm, e, by rw [hentry id hid, he], ho.pending, ?_, ?_⟩
    · intro p hp
      exact ho.key p (hprof ▸ hp)
    · intro hn
      exact ho.childless (hchild hn)

/-- A step of `t` alone: it moves on with its reservation, and no other data changes. -/
theorem Inv.moveTask (h : Inv config cookbook s) {t : Nat} {old new : Task}
    (ht : s.tasks.lookup t = some old) (hres : new.reservation = old.reservation)
    (hprof : new.profile = old.profile) (hchild : new.hasChild = false → old.hasChild = false)
    (hw : new.writes = true → old.writes = true)
    (hc : new.Current config s.instances s.registry) :
    Inv config cookbook (setTask s t new) := by
  have hok := h.tasks t old ht
  apply h.moves (t := t) rfl
  · exact hok.move hres hprof hchild (fun _ _ => rfl) (fun _ hn => hn)
      (fun hn => hok.holder (hw hn)) hc
  · intro u task _ _
    exact keeps_refl rfl rfl rfl
  · intro u task id hu hlookup hid hnew
    rw [hres] at hnew
    exact hu (h.distinct u t task old id hlookup ht hid hnew)

/-- A step of `t` that takes or gives back the lock, but not another task's. -/
theorem Inv.moveLock (h : Inv config cookbook s) {t : Nat} {old new : Task} {lock : Lock}
    {instances : Instances} (ht : s.tasks.lookup t = some old)
    (hres : new.reservation = old.reservation) (hprof : new.profile = old.profile)
    (hchild : new.hasChild = false → old.hasChild = false)
    (hlock : ∀ u, u ≠ t → s.lock = .writing u → lock = .writing u)
    (hw : new.writes = true → lock = .writing t)
    (hc : new.Current config instances s.registry) (hm : InstancesShrink s.instances instances) :
    Inv config cookbook { setTask s t new with lock := lock, instances := instances } := by
  have hok := h.tasks t old ht
  apply h.moves (t := t) rfl
  · exact hok.move hres hprof hchild (fun _ _ => rfl) (fun _ hn => hm.notMem hn) hw hc
  · intro u task hu _
    exact ⟨fun hl => ⟨hlock u hu hl, Shrinks.refl _, hm⟩, fun _ _ hn => ⟨rfl, hm.notMem hn⟩⟩
  · intro u task id hu hlookup hid hnew
    rw [hres] at hnew
    exact hu (h.distinct u t task old id hlookup ht hid hnew)

/-- What a task that leaves does to the registry. -/
theorem shrinks_leave (s : State) (t : Nat) (task : Task) :
    Shrinks s.registry (leave s t task).registry := by
  unfold leave
  dsimp only
  split
  · split
    · exact Shrinks.refl _
    · exact shrinks_releaseMemory _ _
  · exact Shrinks.refl _

private theorem lookup_leave {t id : Nat} {task : Task} (h : task.reservation ≠ some id) :
    (leave s t task).registry.entries.lookup id = s.registry.entries.lookup id := by
  unfold leave
  dsimp only
  split
  · next r hr =>
    split
    · rfl
    · rw [lookup_releaseMemory, if_neg]
      rintro rfl
      exact h hr
  · rfl

/-- A task may leave at any time. -/
theorem inv_leave (h : Inv config cookbook s) {t : Nat} {task : Task}
    (ht : s.tasks.lookup t = some task) : Inv config cookbook (leave s t task) := by
  have hok := h.tasks t task ht
  apply h.ends (t := t) rfl
  intro u other hu hlookup
  refine ⟨?_, ?_⟩
  · intro hl
    refine ⟨?_, shrinks_leave s t task, InstancesShrink.refl _⟩
    have hw : task.writes = false := by
      cases hw : task.writes with
      | false => rfl
      | true => exact absurd hl (hok.not_writing hw hu)
    simp [leave, hl, Lock.drop, hw]
  · intro id hid hn
    refine ⟨lookup_leave ?_, hn⟩
    intro hr
    exact hu (h.distinct u t other task id hlookup ht hid hr)

/-- The history of observations is no part of the invariant. -/
theorem inv_observed (h : Inv config cookbook s) (o : List Observation) :
    Inv config cookbook { s with observed := o } :=
  h.others rfl fun _ _ _ => keeps_refl rfl rfl rfl

end Llamesh.Spawn
