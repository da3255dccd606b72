import Llamesh.Spawn.Effect

/-!
# What a step does to the accountings and the processes

The inversion of the step function the bound on memory rests on: how a task comes
to run an accounting, to have its result or to be admitted, which steps change a
process, and where a computed `ResourceSnapshot` comes from.
-/

namespace Llamesh.Spawn

open Transition Config SpawnReservations

variable {config : NodeConfig} {cookbook : Cookbook} {s s' : State} {l : Label}

/-- Whether a task carries nothing of an accounting. -/
def Task.plain : Task → Bool
  | .planning _ _ _ | .resampling _ _ _ | .observing _ | .accounted _ _ _ | .admitted _ _ => false
  | _ => true

/-- How a task of the state after a step came to be what it is. -/
inductive TaskStep (config : NodeConfig) (l : Label) (s s' : State) (t : Nat) (task : Task) :
    Prop where
  | same (h : s.tasks.lookup t = some task)
  | plain (h : task.plain = true)
  | started (h : task.scan = some (.start s.registry)) (hr : s'.registry = s.registry)
      (hp : s'.processes = s.processes)
  | sampled (old : Task) (scan : Scan) (id : Nat) (record : MemoryCommitment)
      (h : s.tasks.lookup t = some old) (hscan : old.scan = some scan)
      (hrecord : scan.todo.lookup id = some record)
      (hnew : task = old.setScan (scan.sample s.processes id record))
      (hr : s'.registry = s.registry) (hp : s'.processes = s.processes)
  | accounted (request : Request) (required : Memory Nat) (scan : Scan)
      (device : Option GpuMemorySnapshot) (accounting : ResourceAccounting)
      (h : s.tasks.lookup t = some (.planning request required scan))
      (hdone : scan.todo.entries.isEmpty = true)
      (hnew : task = .accounted request required accounting) (hl : l = .account t device)
      (haccounting :
        accounting = scan.tally.accounting scan.snapshot device (Table.size s.instances))
      (hr : s'.registry = s.registry) (hp : s'.processes = s.processes)
  | admitted (order : List Nat) (request : Request) (required : Memory Nat)
      (accounting : ResourceAccounting) (plan : SpawnPlan)
      (h : s.tasks.lookup t = some (.accounted request required accounting))
      (hplan : planSpawn config s.instances order request.profile accounting required = .ok plan)
      (hvictims : plan.victims = []) (hnew : task = .admitted request required)
      (hr : s'.registry = s.registry) (hp : s'.processes = s.processes)

private theorem taskStep_plain {t u : Nat} {task new : Task} (hnew : new.plain = true)
    (h : (s.tasks.insert u new).lookup t = some task) : TaskStep config l s s' t task := by
  rw [Table.lookup_insert_eq_some] at h
  obtain ⟨-, rfl⟩ | ⟨-, h⟩ := h
  · exact .plain hnew
  · exact .same h

private theorem taskStep_erase {t u : Nat} {task : Task}
    (h : (s.tasks.erase u).lookup t = some task) : TaskStep config l s s' t task := by
  rw [Table.lookup_erase_eq_some] at h
  exact .same h.2

private theorem taskStep_enterStep (hs : enterStep config cookbook s l = some s') {t : Nat}
    {task : Task} (ht : s'.tasks.lookup t = some task) : TaskStep config l s s' t task := by
  cases l <;> simp only [enterStep, reduceCtorEq] at hs
  case arrive u request =>
    rw [guarded_eq_some] at hs
    obtain ⟨-, rfl⟩ := hs
    exact taskStep_plain rfl ht
  case lock u =>
    split at hs
    · rw [guarded_eq_some] at hs
      obtain ⟨-, rfl⟩ := hs
      exact taskStep_plain rfl ht
    · cases hs
  case attach u id now =>
    split at hs
    · rw [guarded_eq_some] at hs
      obtain ⟨-, rfl⟩ := hs
      exact taskStep_erase ht
    · cases hs
  case prune u dead =>
    split at hs
    · rw [guarded_eq_some] at hs
      obtain ⟨-, rfl⟩ := hs
      exact taskStep_plain rfl ht
    · cases hs

private theorem taskStep_accountStep (hs : accountStep config s l = some s') {t : Nat}
    {task : Task} (ht : s'.tasks.lookup t = some task) : TaskStep config l s s' t task := by
  cases l <;> simp only [accountStep, reduceCtorEq] at hs
  case snapshot u required =>
    split at hs
    · next request hu =>
      cases hs
      simp only [setTask, Table.lookup_insert_eq_some] at ht
      obtain ⟨-, rfl⟩ | ⟨-, ht⟩ := ht
      · exact .started rfl rfl rfl
      · exact .same ht
    · cases hs
  case observe u =>
    split at hs
    · rw [guarded_eq_some] at hs
      obtain ⟨-, rfl⟩ := hs
      simp only [setTask, Table.lookup_insert_eq_some] at ht
      obtain ⟨-, rfl⟩ | ⟨-, ht⟩ := ht
      · exact .started rfl rfl rfl
      · exact .same ht
    · cases hs
  case resample u =>
    split at hs
    · cases hs
      simp only [setTask, Table.lookup_insert_eq_some] at ht
      obtain ⟨-, rfl⟩ | ⟨-, ht⟩ := ht
      · exact .started rfl rfl rfl
      · exact .same ht
    · cases hs
  case sample u id =>
    split at hs
    · next old hu =>
      split at hs
      · next scan hscan =>
        split at hs
        · next record hrecord =>
          cases hs
          simp only [setTask, Table.lookup_insert_eq_some] at ht
          obtain ⟨rfl, rfl⟩ | ⟨-, ht⟩ := ht
          · exact .sampled old scan id record hu hscan hrecord rfl rfl rfl
          · exact .same ht
        · cases hs
      · cases hs
    · cases hs
  case account u device =>
    split at hs
    · next old hu =>
      split at hs
      · next scan hscan =>
        rw [guarded_eq_some] at hs
        obtain ⟨hdone, rfl⟩ := hs
        split at ht
        · next request required scan' =>
          obtain rfl : scan' = scan := by simpa [Task.scan] using hscan
          simp only [setTask, Table.lookup_insert_eq_some] at ht
          obtain ⟨rfl, rfl⟩ | ⟨-, ht⟩ := ht
          · exact .accounted request required scan' device _ hu hdone rfl rfl rfl rfl rfl
          · exact .same ht
        · split at ht
          · exact taskStep_erase ht
          · exact taskStep_plain rfl ht
        · exact taskStep_erase ht
      · cases hs
    · cases hs

private theorem taskStep_admitStep (hs : admitStep config s l = some s') {t : Nat}
    {task : Task} (ht : s'.tasks.lookup t = some task) : TaskStep config l s s' t task := by
  cases l <;> simp only [admitStep, reduceCtorEq] at hs
  case plan u order =>
    split at hs
    · next request required accounting hu =>
      rw [guarded_eq_some] at hs
      obtain ⟨-, rfl⟩ := hs
      split at ht
      · exact taskStep_erase ht
      · next plan hplan =>
        split at ht
        · next hvictims =>
          simp only [setTask, Table.lookup_insert_eq_some] at ht
          obtain ⟨rfl, rfl⟩ | ⟨-, ht⟩ := ht
          · refine .admitted order request required accounting plan hu hplan hvictims rfl ?_ ?_
            · simp [hvictims, setTask]
            · simp [hvictims, setTask]
          · exact .same ht
        · exact taskStep_plain rfl ht
    · cases hs
  case evict u =>
    split at hs
    · cases hs
      split at ht
      · exact taskStep_plain rfl ht
      · exact taskStep_plain rfl ht
    · cases hs
  case resume u =>
    split at hs
    · rw [guarded_eq_some] at hs
      obtain ⟨-, rfl⟩ := hs
      exact taskStep_plain rfl ht
    · cases hs
  case reserve u id =>
    split at hs
    · rw [guarded_eq_some] at hs
      obtain ⟨-, rfl⟩ := hs
      exact taskStep_plain rfl ht
    · cases hs

private theorem taskStep_spawnStep (hs : spawnStep config s l = some s') {t : Nat}
    {task : Task} (ht : s'.tasks.lookup t = some task) : TaskStep config l s s' t task := by
  cases l <;> simp only [spawnStep, reduceCtorEq] at hs
  case exec u pid =>
    split at hs
    · split at hs
      · rw [guarded_eq_some] at hs
        obtain ⟨-, rfl⟩ := hs
        exact taskStep_plain rfl ht
      · cases hs
    · cases hs
  case execFailed u =>
    split at hs
    · cases hs
      exact taskStep_plain rfl ht
    · cases hs
  case insertLock u =>
    split at hs
    · rw [guarded_eq_some] at hs
      obtain ⟨-, rfl⟩ := hs
      exact taskStep_plain rfl ht
    · cases hs
  case insert u now =>
    split at hs
    · cases hs
      split at ht
      · exact taskStep_erase ht
      · exact taskStep_erase ht
    · cases hs
  case leave u =>
    split at hs
    · cases hs
      exact taskStep_erase ht
    · cases hs

private theorem tasks_otherStep (hs : otherStep s l = some s') : s'.tasks = s.tasks := by
  cases l <;> simp only [otherStep, guarded_eq_some, reduceCtorEq, Option.some.injEq] at hs
  case retire ids => exact hs.2 ▸ rfl
  case retired => exact hs.2 ▸ rfl
  case ready id =>
    split at hs
    · split at hs
      · rw [guarded_eq_some] at hs
        exact hs.2 ▸ rfl
      · cases hs
    · cases hs
  case finish id => exact hs.2 ▸ rfl
  case measure pid usage readable => exact hs ▸ rfl
  case release id now => exact hs ▸ rfl
  case crash id => exact hs ▸ rfl

/-- How the tasks after a step came to be. -/
theorem step_task (hs : step config cookbook s l = some s') {t : Nat} {task : Task}
    (ht : s'.tasks.lookup t = some task) : TaskStep config l s s' t task := by
  cases l <;> simp only [step] at hs
  all_goals first
    | exact taskStep_enterStep hs ht
    | exact taskStep_accountStep hs ht
    | exact taskStep_admitStep hs ht
    | exact taskStep_spawnStep hs ht
    | exact .same (tasks_otherStep hs ▸ ht)

/-! ### The history -/

private theorem observed_enterStep (hs : enterStep config cookbook s l = some s') :
    s'.observed = s.observed := by
  cases l <;> simp only [enterStep, reduceCtorEq] at hs
  all_goals repeat' split at hs
  all_goals first
    | cases hs
    | rw [guarded_eq_some] at hs
      exact hs.2 ▸ rfl

private theorem observed_admitStep (hs : admitStep config s l = some s') :
    s'.observed = s.observed := by
  cases l <;> simp only [admitStep, reduceCtorEq] at hs
  all_goals repeat' split at hs
  all_goals first
    | cases hs
    | rw [guarded_eq_some] at hs
      obtain ⟨-, rfl⟩ := hs
  all_goals rfl

private theorem observed_spawnStep (hs : spawnStep config s l = some s') :
    s'.observed = s.observed := by
  cases l <;> simp only [spawnStep, reduceCtorEq] at hs
  all_goals repeat' split at hs
  all_goals first
    | cases hs
    | rw [guarded_eq_some] at hs
      obtain ⟨-, rfl⟩ := hs
  all_goals rfl

private theorem observed_otherStep (hs : otherStep s l = some s') :
    s'.observed = s.observed := by
  cases l <;> simp only [otherStep, reduceCtorEq] at hs
  all_goals repeat' split at hs
  all_goals first
    | contradiction
    | cases hs
      rfl
    | rw [guarded_eq_some] at hs
      exact hs.2 ▸ rfl

/-- Where a computed `ResourceSnapshot` comes from: an accounting that sampled every entry. -/
def Computes (l : Label) (s s' : State) : Prop :=
  ∃ t device task scan, l = .account t device ∧ s.tasks.lookup t = some task ∧
    task.scan = some scan ∧ scan.todo.entries.isEmpty = true ∧
    s'.observed =
      ⟨(scan.tally.accounting scan.snapshot device (Table.size s.instances)).resources,
        scan.retained⟩ :: s.observed

private theorem observed_accountStep (hs : accountStep config s l = some s') :
    s'.observed = s.observed ∨ Computes l s s' := by
  cases l <;> simp only [accountStep, reduceCtorEq] at hs
  case snapshot t required =>
    left
    split at hs
    · cases hs
      rfl
    · cases hs
  case observe t =>
    left
    split at hs
    · rw [guarded_eq_some] at hs
      exact hs.2 ▸ rfl
    · cases hs
  case resample t =>
    left
    split at hs
    · cases hs
      rfl
    · cases hs
  case sample t id =>
    left
    repeat' split at hs
    all_goals cases hs
    rfl
  case account t device =>
    right
    split at hs
    · next task ht =>
      split at hs
      · next scan hscan =>
        rw [guarded_eq_some] at hs
        obtain ⟨hdone, rfl⟩ := hs
        refine ⟨t, device, task, scan, rfl, ht, hscan, hdone, ?_⟩
        repeat' split
        all_goals rfl
      · cases hs
    · cases hs

/-- Only an accounting adds to the history. -/
theorem step_observed (hs : step config cookbook s l = some s') :
    s'.observed = s.observed ∨ Computes l s s' := by
  cases l <;> simp only [step] at hs
  all_goals first
    | exact .inl (observed_enterStep hs)
    | exact observed_accountStep hs
    | exact .inl (observed_admitStep hs)
    | exact .inl (observed_spawnStep hs)
    | exact .inl (observed_otherStep hs)

/-! ### The processes -/

/-- No entry gets a process or becomes ready. -/
def PidsKept (r r' : SpawnReservations) : Prop :=
  ∀ id e', r'.entries.lookup id = some e' → e'.pid = none ∧ e'.ready = false ∨
    ∃ e, r.entries.lookup id = some e ∧ e'.pid = e.pid ∧ e'.ready = e.ready ∧
      e'.estimate = e.estimate

/-- A registry that stays keeps its processes. -/
theorem PidsKept.refl (r : SpawnReservations) : PidsKept r r :=
  fun _ e h => .inr ⟨e, h, rfl, rfl, rfl⟩

private theorem pidsKept_releaseMemory (r : SpawnReservations) (id : Nat) :
    PidsKept r (r.releaseMemory id) := by
  intro k e' h
  rw [lookup_releaseMemory] at h
  split at h
  · cases h
  · exact .inr ⟨e', h, rfl, rfl, rfl⟩

private theorem pidsKept_markHandedOff (r : SpawnReservations) (id : Nat) :
    PidsKept r (r.markHandedOff id) := by
  intro k e' h
  rw [lookup_markHandedOff] at h
  split at h
  · rw [Option.map_eq_some_iff] at h
    obtain ⟨e, he, rfl⟩ := h
    exact .inr ⟨e, he, rfl, rfl, rfl⟩
  · exact .inr ⟨e', h, rfl, rfl, rfl⟩

private theorem pidsKept_reserve (r : SpawnReservations) (id : Nat) (key : String)
    (est : Memory Nat) : PidsKept r (r.reserve id key est) := by
  intro k e' h
  rw [lookup_reserve] at h
  split at h
  · cases h
    exact .inl ⟨rfl, rfl⟩
  · exact .inr ⟨e', h, rfl, rfl, rfl⟩

private theorem pidsKept_leave (s : State) (t : Nat) (task : Task) :
    PidsKept s.registry (leave s t task).registry := by
  unfold leave
  dsimp only
  split
  · split
    · exact PidsKept.refl _
    · exact pidsKept_releaseMemory _ _
  · exact PidsKept.refl _

/-- The steps that change a process. -/
inductive ProcessStep (l : Label) (s s' : State) : Prop where
  | same (hp : s'.processes = s.processes) (hr : PidsKept s.registry s'.registry)
  | spawned (t id pid : Nat) (request : Request) (e : MemoryCommitment)
      (ht : s.tasks.lookup t = some (.cleared request id))
      (he : s.registry.entries.lookup id = some e)
      (hnew : pid ∉ s.processes) (hr : s'.registry = s.registry.updatePid id pid)
      (hp : s'.processes = s.processes.insert pid (.fresh e.estimate))
  | ready (id pid : Nat) (e : MemoryCommitment) (he : s.registry.entries.lookup id = some e)
      (hpid : e.pid = some pid) (hr : s'.registry = s.registry.markReady id)
      (hp : s'.processes = s.processes.modify pid Process.markReady)
  | measured (pid : Nat) (usage : Memory Nat) (readable : Memory Bool)
      (hl : l = .measure pid usage readable) (hr : s'.registry = s.registry)
      (hp : s'.processes = s.processes.modify pid fun p => p.measure usage readable)

private theorem ProcessStep.of_registry (hp : s'.processes = s.processes)
    (hr : s'.registry = s.registry) : ProcessStep l s s' :=
  .same hp (hr ▸ PidsKept.refl _)

private theorem processStep_enterStep (hs : enterStep config cookbook s l = some s') :
    ProcessStep l s s' := by
  cases l <;> simp only [enterStep, reduceCtorEq] at hs
  all_goals repeat' split at hs
  all_goals first
    | cases hs
    | rw [guarded_eq_some] at hs
      obtain ⟨-, rfl⟩ := hs
      exact .of_registry rfl rfl

private theorem processStep_accountStep (hs : accountStep config s l = some s') :
    ProcessStep l s s' := by
  cases l <;> simp only [accountStep, reduceCtorEq] at hs
  case account t device =>
    split at hs
    · split at hs
      · rw [guarded_eq_some] at hs
        obtain ⟨-, rfl⟩ := hs
        split
        · exact .of_registry rfl rfl
        · split
          · exact .same rfl (pidsKept_leave _ t _)
          · exact .of_registry rfl rfl
        · exact .same rfl (pidsKept_leave _ t _)
      · cases hs
    · cases hs
  all_goals repeat' split at hs
  all_goals first
    | contradiction
    | cases hs
      exact .of_registry rfl rfl
    | rw [guarded_eq_some] at hs
      obtain ⟨-, rfl⟩ := hs
      exact .of_registry rfl rfl

private theorem processStep_admitStep (hs : admitStep config s l = some s') :
    ProcessStep l s s' := by
  cases l <;> simp only [admitStep, reduceCtorEq] at hs
  case plan t order =>
    split at hs
    · rw [guarded_eq_some] at hs
      obtain ⟨-, rfl⟩ := hs
      split
      · exact .same rfl (pidsKept_leave _ t _)
      · split
        · exact .of_registry rfl rfl
        · exact .of_registry rfl rfl
    · cases hs
  case evict t =>
    split at hs
    · cases hs
      split
      · exact .of_registry rfl rfl
      · exact .of_registry rfl rfl
    · cases hs
  case resume t =>
    split at hs
    · rw [guarded_eq_some] at hs
      obtain ⟨-, rfl⟩ := hs
      exact .of_registry rfl rfl
    · cases hs
  case reserve t id =>
    split at hs
    · rw [guarded_eq_some] at hs
      obtain ⟨-, rfl⟩ := hs
      exact .same rfl (pidsKept_reserve _ id _ _)
    · cases hs

private theorem processStep_spawnStep (hs : spawnStep config s l = some s') :
    ProcessStep l s s' := by
  cases l <;> simp only [spawnStep, reduceCtorEq] at hs
  case exec t pid =>
    split at hs
    · next request id ht =>
      split at hs
      · next e he =>
        rw [guarded_eq_some] at hs
        obtain ⟨hnew, rfl⟩ := hs
        exact .spawned t id pid request e ht he hnew rfl rfl
      · cases hs
    · cases hs
  case execFailed t =>
    split at hs
    · cases hs
      exact .of_registry rfl rfl
    · cases hs
  case insertLock t =>
    split at hs
    · rw [guarded_eq_some] at hs
      obtain ⟨-, rfl⟩ := hs
      exact .of_registry rfl rfl
    · cases hs
  case insert t now =>
    split at hs
    · next request id ht =>
      cases hs
      split
      · exact .same rfl (pidsKept_leave _ t _)
      · exact .same rfl (pidsKept_markHandedOff _ id)
    · cases hs
  case leave t =>
    split at hs
    · cases hs
      exact .same rfl (pidsKept_leave _ t _)
    · cases hs

private theorem processStep_otherStep (hs : otherStep s l = some s') : ProcessStep l s s' := by
  cases l <;> simp only [otherStep, reduceCtorEq] at hs
  case ready id =>
    split at hs
    · next e he =>
      split at hs
      · next pid hpid =>
        rw [guarded_eq_some] at hs
        obtain ⟨-, rfl⟩ := hs
        exact .ready id pid e he hpid rfl rfl
      · cases hs
    · cases hs
  case finish id =>
    rw [guarded_eq_some] at hs
    obtain ⟨-, rfl⟩ := hs
    exact .same rfl (pidsKept_releaseMemory _ id)
  case measure pid usage readable =>
    cases hs
    exact .measured pid usage readable rfl rfl rfl
  all_goals first
    | contradiction
    | cases hs
      exact .of_registry rfl rfl
    | rw [guarded_eq_some] at hs
      obtain ⟨-, rfl⟩ := hs
      exact .of_registry rfl rfl

/-- How the processes after a step came to be. -/
theorem step_process (hs : step config cookbook s l = some s') : ProcessStep l s s' := by
  cases l <;> simp only [step] at hs
  all_goals first
    | exact processStep_enterStep hs
    | exact processStep_accountStep hs
    | exact processStep_admitStep hs
    | exact processStep_spawnStep hs
    | exact processStep_otherStep hs

end Llamesh.Spawn
