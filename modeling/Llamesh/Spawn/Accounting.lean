import Mathlib.Data.List.Sort
import Llamesh.Spawn.Reservations

/-!
# Resource accounting and the admission plan

`resource_accounting_for_instances`, `ResourceSnapshot::from_samples`, `plan_spawn`
and `pick_victims_from_accounting` (`src/node_state/mod.rs`). Every mapped instance
here was inserted by `try_get_or_spawn_resolved` and holds a lease of the registry,
so the branch for instances without one is empty.
-/

namespace Llamesh.Spawn

open Config

/-- The largest `u64`. -/
def u64Max : Nat := 2 ^ 64 - 1

/-- `u64::saturating_add`. -/
def saturatingAdd (a b : Nat) : Nat := min (a + b) u64Max

/-- The errors of an admission. -/
inductive NodeError where
  | maxInstancesProfile
  | maxInstancesNode
  | insufficientResources
  deriving DecidableEq, Repr

/-- A mapped instance, as the scheduler reads it. -/
structure Instance where
  model : Name
  profileId : Name
  inFlight : Nat
  lastActivity : Nat
  alive : Bool
  deriving DecidableEq

/-- The instances map. -/
abbrev Instances := Table Nat Instance

/-- `sample_device_vram`. -/
structure GpuMemorySnapshot where
  usedMb : Nat
  totalMb : Nat
  deriving DecidableEq, Repr

/-- What the samplers have measured. `src/node_state/mod.rs:427–439`. -/
structure ResourceSnapshot where
  llameshVramMb : Nat
  llameshSysmemMb : Nat
  externalVramMb : Nat
  effectiveVramMb : Nat
  effectiveSysmemMb : Nat
  deviceVramUsedMb : Nat
  deviceVramTotalMb : Nat
  gpuTelemetryAvailable : Bool
  activeInstances : Nat
  deriving DecidableEq, Repr

/-- The snapshot of some samples. `src/node_state/mod.rs:467–494`. -/
def ResourceSnapshot.fromSamples (llameshVramMb llameshSysmemMb : Nat)
    (deviceVram : Option GpuMemorySnapshot) (activeInstances : Nat) : ResourceSnapshot :=
  let deviceVramUsedMb := (deviceVram.map fun snapshot => snapshot.usedMb).getD 0
  let externalVramMb := deviceVramUsedMb - llameshVramMb
  { llameshVramMb := llameshVramMb
    llameshSysmemMb := llameshSysmemMb
    externalVramMb := externalVramMb
    effectiveVramMb := llameshVramMb + externalVramMb
    effectiveSysmemMb := llameshSysmemMb
    deviceVramUsedMb := deviceVramUsedMb
    deviceVramTotalMb := (deviceVram.map fun snapshot => snapshot.totalMb).getD 0
    gpuTelemetryAvailable := deviceVram.isSome
    activeInstances := activeInstances }

/-- The effective memory of one kind. -/
def ResourceSnapshot.effective (r : ResourceSnapshot) : Dimension → Nat
  | .vram => r.effectiveVramMb
  | .sysmem => r.effectiveSysmemMb

/-- The memory in use and the instances of a node. `src/node_state/mod.rs:444–448`. -/
structure ResourceAccounting where
  resources : ResourceSnapshot
  reservations : SpawnReservations
  instanceMemory : Table Nat (Memory Nat)

/-- The accumulators of `resource_accounting_for_instances`: the observed memory, the memory that
is promised beyond it, and the memory of each process. -/
structure Tally where
  observed : Memory Nat
  promised : Memory Nat
  instanceMemory : Table Nat (Memory Nat)

/-- The accumulators before the loop. -/
def Tally.zero : Tally := ⟨⟨0, 0⟩, ⟨0, 0⟩, ∅⟩

/-- The part of an estimate that counts on top of a process's observed memory.
`src/node_state/mod.rs:1109–1118`. -/
def committed (estimate : Nat) (ready : Bool) (live : Option Nat) : Nat :=
  if !ready || live.isNone then estimate - live.getD 0 else 0

/-- One pass of the loop over the entries. `src/node_state/mod.rs:1100–1129`. -/
def Tally.add (t : Tally) (id : Nat) (record : MemoryCommitment) (live : Memory (Option Nat)) :
    Tally :=
  let observedNow := fun d => (live.at d).getD 0
  let committedNow := fun d => committed (record.estimate.at d) record.ready (live.at d)
  { observed := .ofFn fun d => saturatingAdd (t.observed.at d) (observedNow d)
    promised := .ofFn fun d => saturatingAdd (t.promised.at d) (committedNow d)
    instanceMemory := t.instanceMemory.insert id
      (.ofFn fun d => saturatingAdd (observedNow d) (committedNow d)) }

/-- The end of `resource_accounting_for_instances`. `src/node_state/mod.rs:1141–1157`. -/
def Tally.accounting (t : Tally) (reservations : SpawnReservations)
    (device : Option GpuMemorySnapshot) (mapped : Nat) : ResourceAccounting :=
  let resources := ResourceSnapshot.fromSamples t.observed.vram t.observed.sysmem device
    (mapped + reservations.nodeTotal)
  { resources :=
      { resources with
        effectiveVramMb := saturatingAdd resources.effectiveVramMb t.promised.vram
        effectiveSysmemMb := saturatingAdd resources.effectiveSysmemMb t.promised.sysmem }
    reservations := reservations
    instanceMemory := t.instanceMemory }

/-! ### The plan -/

/-- `max_vram_mb` and `max_sysmem_mb`. -/
def maxMemory (config : NodeConfig) : Dimension → Nat
  | .vram => config.maxVramMb
  | .sysmem => config.maxSysmemMb

/-- An idle instance. `src/node_state/mod.rs:1414–1419`. -/
structure Candidate where
  id : Nat
  lastActivity : Nat
  memory : Memory Nat

/-- Whether an instance fits beside what is in use. `src/node_state/mod.rs:1450–1454`. -/
def fits (config : NodeConfig) (required current : Memory Nat) (count : Nat) : Bool :=
  decide (saturatingAdd current.vram required.vram ≤ config.maxVramMb) &&
    decide (saturatingAdd current.sysmem required.sysmem ≤ config.maxSysmemMb) &&
    decide (count < config.maxInstancesPerNode)

/-- The eviction loop. `src/node_state/mod.rs:1464–1479`. -/
def evictUntilFits (config : NodeConfig) (required : Memory Nat) :
    List Candidate → Memory Nat → Nat → List Nat → Except NodeError (List Nat)
  | [], current, _, _ =>
    if saturatingAdd current.vram required.vram ≤ config.maxVramMb ∧
        saturatingAdd current.sysmem required.sysmem ≤ config.maxSysmemMb then
      .error .maxInstancesNode
    else .error .insufficientResources
  | c :: cs, current, count, victims =>
    let current := .ofFn fun d => current.at d - c.memory.at d
    if fits config required current (count - 1) then .ok (victims ++ [c.id])
    else evictUntilFits config required cs current (count - 1) (victims ++ [c.id])

/-- The idle instances in the order the map is read. `src/node_state/mod.rs:1428–1445`. -/
def candidates (instances : Instances) (order : List Nat) (accounting : ResourceAccounting) :
    List Candidate :=
  order.filterMap fun id =>
    match instances.lookup id with
    | some inst =>
      if inst.inFlight = 0 then
        some ⟨id, inst.lastActivity, (accounting.instanceMemory.lookup id).getD ⟨0, 0⟩⟩
      else none
    | none => none

/-- `src/node_state/mod.rs:1407–1509`; the level of the log line is left out. -/
def pickVictimsFromAccounting (config : NodeConfig) (instances : Instances) (order : List Nat)
    (accounting : ResourceAccounting) (required : Memory Nat) : Except NodeError (List Nat) :=
  let current : Memory Nat :=
    ⟨accounting.resources.effectiveVramMb, accounting.resources.effectiveSysmemMb⟩
  let count := Table.size instances + accounting.reservations.nodeTotal
  if fits config required current count then .ok []
  else
    evictUntilFits config required
      ((candidates instances order accounting).insertionSort
        fun a b => a.lastActivity ≤ b.lastActivity) current count []

/-- The instances of a profile. `src/node_state/mod.rs:3204–3217`. -/
def countProfileInstances (instances : Instances) (p : Profile) : Nat :=
  Table.count instances fun inst => decide (inst.model = p.model) && decide (inst.profileId = p.id)

/-- What an admitted spawn is to evict. `src/node_state/mod.rs:450–454`. -/
structure SpawnPlan where
  victims : List Nat
  revision : Nat

/-- `plan_spawn` from its accounting on. `src/node_state/mod.rs:1370–1387`. -/
def planSpawn (config : NodeConfig) (instances : Instances) (order : List Nat) (p : Profile)
    (accounting : ResourceAccounting) (required : Memory Nat) : Except NodeError SpawnPlan :=
  if p.effectiveMaxInstances config.modelDefaults ≤
      countProfileInstances instances p + accounting.reservations.profileCount p.key then
    .error .maxInstancesProfile
  else
    match pickVictimsFromAccounting config instances order accounting required with
    | .ok victims => .ok ⟨victims, accounting.reservations.revision⟩
    | .error e => .error e

/-- The re-check of the limits before the insertion, which counts the map only.
`src/node_state/mod.rs:2874–2924`. -/
def recheck (config : NodeConfig) (instances : Instances) (p : Profile) : Option NodeError :=
  if p.effectiveMaxInstances config.modelDefaults ≤ countProfileInstances instances p then
    some .maxInstancesProfile
  else if config.maxInstancesPerNode ≤ Table.size instances then some .maxInstancesNode
  else none

/-! ### What a plan without victims says -/

private theorem evictUntilFits_ne_nil {config : NodeConfig} {required : Memory Nat}
    {cs : List Candidate} {current : Memory Nat} {count : Nat} {victims : List Nat} :
    evictUntilFits config required cs current count victims ≠ .ok [] := by
  induction cs generalizing current count victims with
  | nil =>
    unfold evictUntilFits
    split <;> simp
  | cons c cs ih =>
    unfold evictUntilFits
    dsimp only
    split
    · simp
    · exact ih

/-- An admission without victims fits the limits its accounting was compared with. -/
theorem planSpawn_admits {config : NodeConfig} {instances : Instances} {order : List Nat}
    {p : Profile} {accounting : ResourceAccounting} {required : Memory Nat} {plan : SpawnPlan}
    (h : planSpawn config instances order p accounting required = .ok plan)
    (hv : plan.victims = []) :
    countProfileInstances instances p + accounting.reservations.profileCount p.key <
        p.effectiveMaxInstances config.modelDefaults ∧
      Table.size instances + accounting.reservations.nodeTotal < config.maxInstancesPerNode ∧
      ∀ d, saturatingAdd (accounting.resources.effective d) (required.at d) ≤
        maxMemory config d := by
  unfold planSpawn at h
  split at h
  · cases h
  · next hcount =>
    split at h
    · next victims hpick =>
      obtain rfl : plan = ⟨victims, accounting.reservations.revision⟩ := by cases h; rfl
      obtain rfl : victims = [] := hv
      unfold pickVictimsFromAccounting at hpick
      simp only at hpick
      split at hpick
      · next hfits =>
        simp only [fits, Bool.and_eq_true, decide_eq_true_eq] at hfits
        refine ⟨by omega, hfits.2, ?_⟩
        intro d
        cases d with
        | vram => exact hfits.1.1
        | sysmem => exact hfits.1.2
      · exact absurd hpick evictUntilFits_ne_nil
    · cases h

end Llamesh.Spawn
