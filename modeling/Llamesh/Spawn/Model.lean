import Llamesh.Library.Run
import Llamesh.Spawn.Accounting

/-!
# The spawn path of a node

Any number of requests in `try_get_or_spawn_resolved` (`src/node_state/mod.rs:2490–3203`),
from the instances write lock through the plan, the reservation, the spawn outside the
lock and the insertion with its handoff, next to the tasks that observe the memory,
retire instances, mark them ready and reap their processes. One label is the code of a
task between two points where another task can run: the accounting reads the registry
once and then samples one process at a time. A task that leaves is one that returns an
error or whose future is dropped.
-/

namespace Llamesh.Spawn

open Transition Config

/-- The instances lock. `retiring` is the write lock in the hands of `retire_instances`. -/
inductive Lock where
  | reading (readers : Nat)
  | writing (task : Nat)
  | retiring
  deriving DecidableEq, Repr

/-- A spawned process: its memory, whether the sampler can read it, what it was admitted with, and
whether it is ready. `seen` says which kinds were readable at some time since then. -/
structure Process where
  usage : Memory Nat
  readable : Memory Bool
  estimate : Memory Nat
  ready : Bool
  seen : Memory Bool
  deriving DecidableEq, Repr

/-- A process that was just started. -/
def Process.fresh (estimate : Memory Nat) : Process :=
  { usage := ⟨0, 0⟩, readable := ⟨false, false⟩, estimate := estimate
    ready := false, seen := ⟨false, false⟩ }

/-- A process that answers its health check. -/
def Process.markReady (p : Process) : Process :=
  { p with ready := true, seen := if p.ready then p.seen else p.readable }

/-- A process whose memory, or what can be read of it, has changed. -/
def Process.measure (p : Process) (usage : Memory Nat) (readable : Memory Bool) : Process :=
  { p with
    usage := usage, readable := readable
    seen := .ofFn fun d => p.seen.at d || (p.ready && readable.at d) }

/-- `sample_vram` and `sample_sysmem`. -/
def Process.sample (p : Process) : Memory (Option Nat) :=
  .ofFn fun d => if p.readable.at d then some (p.usage.at d) else none

/-- The process of a record. -/
def processOf (processes : Table Nat Process) (record : MemoryCommitment) : Option Process :=
  record.pid.bind fun pid => processes.lookup pid

/-- `record.pid.map_or((None, None), ..)`. `src/node_state/mod.rs:1101–1106`. -/
def sampleOf (processes : Table Nat Process) (record : MemoryCommitment) : Memory (Option Nat) :=
  match processOf processes record with
  | some p => p.sample
  | none => ⟨none, none⟩

/-- What an estimate retained for a ready process adds to its memory, when the process was
readable since it is ready and no longer is. -/
def retainedOf (processes : Table Nat Process) (record : MemoryCommitment) (d : Dimension) : Nat :=
  match processOf processes record with
  | some p =>
    if record.ready && p.seen.at d && !p.readable.at d then record.estimate.at d - p.usage.at d
    else 0
  | none => 0

/-- A running `resource_accounting_for_instances`: its copy of the registry, the entries that are
not sampled yet and the accumulators. `retained` sums up `retainedOf` at the samples. -/
structure Scan where
  snapshot : SpawnReservations
  todo : Table Nat MemoryCommitment
  tally : Tally
  retained : Memory Nat

/-- The copy of the registry is taken first. `src/node_state/mod.rs:1092`. -/
def Scan.start (registry : SpawnReservations) : Scan :=
  ⟨registry, registry.entries, .zero, ⟨0, 0⟩⟩

/-- The samples of one entry. -/
def Scan.sample (scan : Scan) (processes : Table Nat Process) (id : Nat)
    (record : MemoryCommitment) : Scan :=
  { scan with
    todo := scan.todo.erase id
    tally := scan.tally.add id record (sampleOf processes record)
    retained := .ofFn fun d => scan.retained.at d + retainedOf processes record d }

/-- A computed `ResourceSnapshot`, with what it retained. -/
structure Observation where
  resources : ResourceSnapshot
  retained : Memory Nat
  deriving DecidableEq, Repr

/-- A request in `try_get_or_spawn_resolved`. -/
structure Request where
  profile : Profile
  reserveSlot : Bool
  deriving DecidableEq

/-- A task. The first six are at the top of the loop or hold the write lock, `retiring` waits for
the victims to be reaped, the next five own a reservation, `spawned` and `inserting` also a child,
and `observing` is `calculate_resource_snapshot`. -/
inductive Task where
  | waiting (request : Request)
  | locked (request : Request)
  | planning (request : Request) (required : Memory Nat) (scan : Scan)
  | accounted (request : Request) (required : Memory Nat) (accounting : ResourceAccounting)
  | evicting (request : Request) (plan : SpawnPlan)
  | admitted (request : Request) (required : Memory Nat)
  | retiring (request : Request) (victims : List Nat)
  | reserved (request : Request) (id : Nat)
  | resampling (request : Request) (id : Nat) (scan : Scan)
  | cleared (request : Request) (id : Nat)
  | spawned (request : Request) (id : Nat)
  | inserting (request : Request) (id : Nat)
  | observing (scan : Scan)

/-- The pending reservation a task owns. -/
def Task.reservation : Task → Option Nat
  | .reserved _ id | .resampling _ id _ | .cleared _ id | .spawned _ id | .inserting _ id => some id
  | _ => none

/-- Whether the task's reservation has a child process. -/
def Task.hasChild : Task → Bool
  | .spawned _ _ | .inserting _ _ => true
  | _ => false

/-- The accounting a task runs. -/
def Task.scan : Task → Option Scan
  | .planning _ _ scan | .resampling _ _ scan | .observing scan => some scan
  | _ => none

/-- The task after a sample of its accounting. -/
def Task.setScan (scan : Scan) : Task → Task
  | .planning request required _ => .planning request required scan
  | .resampling request id _ => .resampling request id scan
  | .observing _ => .observing scan
  | task => task

/-- Whether the task holds the write lock. -/
def Task.writes : Task → Bool
  | .locked _ | .planning _ _ _ | .accounted _ _ _ | .evicting _ _ | .admitted _ _
  | .inserting _ _ => true
  | _ => false

/-- Whether the task holds the read lock. -/
def Task.reads : Task → Bool
  | .resampling _ _ _ | .observing _ => true
  | _ => false

/-- The lock after the guard of a task is dropped. -/
def Lock.drop (task : Task) : Lock → Lock
  | .reading readers => .reading (if task.reads then readers - 1 else readers)
  | .writing holder => if task.writes then .reading 0 else .writing holder
  | .retiring => .retiring

/-- The node. -/
structure State where
  lock : Lock
  instances : Instances
  registry : SpawnReservations
  processes : Table Nat Process
  tasks : Table Nat Task
  observed : List Observation

/-- Startup. -/
def State.init : State := ⟨.reading 0, ∅, .empty, ∅, ∅, []⟩

/-- The pieces of the tasks. From `retire` on: the retirement of mapped instances by other tasks,
`retire_instances` giving the lock back, the readiness task, the reaper, and what the processes and
the requests of mapped instances do. -/
inductive Label where
  | arrive (task : Nat) (request : Request)
  | lock (task : Nat)
  | attach (task id now : Nat)
  | prune (task : Nat) (dead : List Nat)
  | snapshot (task : Nat) (required : Memory Nat)
  | observe (task : Nat)
  | sample (task id : Nat)
  | account (task : Nat) (device : Option GpuMemorySnapshot)
  | plan (task : Nat) (order : List Nat)
  | evict (task : Nat)
  | resume (task : Nat)
  | reserve (task id : Nat)
  | resample (task : Nat)
  | exec (task pid : Nat)
  | execFailed (task : Nat)
  | insertLock (task : Nat)
  | insert (task now : Nat)
  | leave (task : Nat)
  | retire (ids : List Nat)
  | retired
  | ready (id : Nat)
  | finish (id : Nat)
  | measure (pid : Nat) (usage : Memory Nat) (readable : Memory Bool)
  | release (id now : Nat)
  | crash (id : Nat)
  deriving DecidableEq

/-- Remove several instances from the map. -/
def removeAll (instances : Instances) (ids : List Nat) : Instances :=
  ids.foldl (fun m id => m.erase id) instances

/-- A task moves on. -/
def setTask (s : State) (id : Nat) (task : Task) : State :=
  { s with tasks := s.tasks.insert id task }

/-- A task ends: its guard of the lock is dropped, and with it a reservation without a child. The
child of a reservation keeps it until it is reaped. -/
def leave (s : State) (id : Nat) (task : Task) : State :=
  { s with
    lock := s.lock.drop task
    registry :=
      match task.reservation with
      | some r => if task.hasChild then s.registry else s.registry.releaseMemory r
      | none => s.registry
    tasks := s.tasks.erase id }

/-- Whether a record's memory is above the limits. `src/node_state/mod.rs:2840–2842`. -/
def exceeds (config : NodeConfig) (resources : ResourceSnapshot) : Bool :=
  decide (config.maxVramMb < resources.effectiveVramMb) ||
    decide (config.maxSysmemMb < resources.effectiveSysmemMb)

/-- The pieces before the accounting. `src/node_state/mod.rs:2506–2602`. -/
def enterStep (config : NodeConfig) (cookbook : Cookbook) (s : State) : Label → Option State
  | .arrive task request =>
    guarded (task ∉ s.tasks ∧ request.profile ∈ cookbook.profiles)
      (setTask s task (.waiting request))
  | .lock task =>
    match s.tasks.lookup task with
    | some (.waiting request) =>
      guarded (s.lock = .reading 0)
        { setTask s task (.locked request) with lock := .writing task }
    | _ => none
  | .attach task id now =>
    match s.tasks.lookup task, s.instances.lookup id with
    | some (.locked request), some inst =>
      guarded
        (request.reserveSlot = true ∧ inst.model = request.profile.model ∧
          inst.profileId = request.profile.id ∧ inst.alive = true ∧
          (config.modelDefaults.maxConcurrentRequestsPerInstance = 0 ∨
            inst.inFlight < config.modelDefaults.maxConcurrentRequestsPerInstance))
        { s with
          lock := .reading 0
          instances := s.instances.insert id
            { inst with inFlight := inst.inFlight + 1, lastActivity := now }
          tasks := s.tasks.erase task }
    | _, _ => none
  | .prune task dead =>
    match s.tasks.lookup task with
    | some (.locked request) =>
      guarded
        (dead ≠ [] ∧ ∀ id ∈ dead, (s.instances.lookup id).any (fun inst => !inst.alive) = true)
        { setTask s task (.retiring request dead) with
          lock := .retiring
          instances := removeAll s.instances dead }
    | _ => none
  | _ => none

/-- The pieces of an accounting. `src/node_state/mod.rs:1063–1072,1086–1158,2832–2848`. -/
def accountStep (config : NodeConfig) (s : State) : Label → Option State
  | .snapshot task required =>
    match s.tasks.lookup task with
    | some (.locked request) =>
      some (setTask s task (.planning request required (.start s.registry)))
    | _ => none
  | .observe task =>
    match s.lock with
    | .reading readers =>
      guarded (task ∉ s.tasks)
        { setTask s task (.observing (.start s.registry)) with lock := .reading (readers + 1) }
    | _ => none
  | .resample task =>
    match s.tasks.lookup task, s.lock with
    | some (.reserved request id), .reading readers =>
      some { setTask s task (.resampling request id (.start s.registry)) with
        lock := .reading (readers + 1) }
    | _, _ => none
  | .sample task id =>
    match s.tasks.lookup task with
    | some t =>
      match t.scan with
      | some scan =>
        match scan.todo.lookup id with
        | some record => some (setTask s task (t.setScan (scan.sample s.processes id record)))
        | none => none
      | none => none
    | none => none
  | .account task device =>
    match s.tasks.lookup task with
    | some t =>
      match t.scan with
      | some scan =>
        let accounting :=
          scan.tally.accounting scan.snapshot device (Table.size s.instances)
        let after := { s with observed := ⟨accounting.resources, scan.retained⟩ :: s.observed }
        guarded (scan.todo.entries.isEmpty = true)
          (match t with
          | .planning request required _ =>
            setTask after task (.accounted request required accounting)
          | .resampling request id _ =>
            if exceeds config accounting.resources then leave after task t
            else { setTask after task (.cleared request id) with lock := s.lock.drop t }
          | _ => leave after task t)
      | none => none
    | none => none
  | _ => none

/-- The admission under the write lock. `src/node_state/mod.rs:2609–2711`. -/
def admitStep (config : NodeConfig) (s : State) : Label → Option State
  | .plan task order =>
    match s.tasks.lookup task with
    | some (.accounted request required accounting) =>
      guarded (order.Perm s.instances.keys)
        (match planSpawn config s.instances order request.profile accounting required with
        | .error _ => leave s task (.accounted request required accounting)
        | .ok plan =>
          if plan.victims = [] then setTask s task (.admitted request required)
          else setTask s task (.evicting request plan))
    | _ => none
  | .evict task =>
    match s.tasks.lookup task with
    | some (.evicting request plan) =>
      some (match s.registry.withRevision plan.revision
          fun _ => removeAll s.instances plan.victims with
        | some instances =>
          { setTask s task (.retiring request plan.victims) with
            lock := .retiring, instances := instances }
        | none => { setTask s task (.waiting request) with lock := .reading 0 })
    | _ => none
  | .resume task =>
    match s.tasks.lookup task with
    | some (.retiring request victims) =>
      guarded (∀ id ∈ victims, id ∉ s.registry.entries) (setTask s task (.waiting request))
    | _ => none
  | .reserve task id =>
    match s.tasks.lookup task with
    | some (.admitted request required) =>
      guarded (id ∉ s.registry.entries ∧ id ∉ s.instances)
        { setTask s task (.reserved request id) with
          lock := .reading 0
          registry := s.registry.reserve id request.profile.key required }
    | _ => none
  | _ => none

/-- The spawn, the insertion and the ways out. `src/node_state/mod.rs:2713–3000`. -/
def spawnStep (config : NodeConfig) (s : State) : Label → Option State
  | .exec task pid =>
    match s.tasks.lookup task with
    | some (.cleared request id) =>
      match s.registry.entries.lookup id with
      | some e =>
        guarded (pid ∉ s.processes)
          { setTask s task (.spawned request id) with
            registry := s.registry.updatePid id pid
            processes := s.processes.insert pid (.fresh e.estimate) }
      | none => none
    | _ => none
  | .execFailed task =>
    match s.tasks.lookup task with
    | some (.cleared request id) => some (setTask s task (.reserved request id))
    | _ => none
  | .insertLock task =>
    match s.tasks.lookup task with
    | some (.spawned request id) =>
      guarded (s.lock = .reading 0)
        { setTask s task (.inserting request id) with lock := .writing task }
    | _ => none
  | .insert task now =>
    match s.tasks.lookup task with
    | some (.inserting request id) =>
      some (match recheck config s.instances request.profile with
        | some _ => leave s task (.inserting request id)
        | none =>
          { s with
            lock := .reading 0
            instances := s.instances.insert id
              { model := request.profile.model, profileId := request.profile.id
                inFlight := if request.reserveSlot then 1 else 0
                lastActivity := now, alive := true }
            registry := s.registry.markHandedOff id
            tasks := s.tasks.erase task })
    | _ => none
  | .leave task =>
    match s.tasks.lookup task with
    | some t => some (leave s task t)
    | none => none
  | _ => none

/-- The other tasks and the processes. `src/node_state/mod.rs:1313–1353`, `src/instance.rs:651–700`,
`src/instance.rs:984–991,1045–1090`. -/
def otherStep (s : State) : Label → Option State
  | .retire ids =>
    guarded (s.lock = .reading 0)
      { s with lock := .retiring, instances := removeAll s.instances ids }
  | .retired => guarded (s.lock = .retiring) { s with lock := .reading 0 }
  -- The readiness task starts after the handoff.
  | .ready id =>
    match s.registry.entries.lookup id with
    | some e =>
      match e.pid with
      | some pid =>
        guarded (e.pending = false)
          { s with
            registry := s.registry.markReady id
            processes := s.processes.modify pid Process.markReady }
      | none => none
    | none => none
  -- Nobody reaps the child of an instance that is not shared.
  | .finish id =>
    guarded (∀ t ∈ s.tasks.entries, t.2.reservation ≠ some id)
      { s with registry := s.registry.releaseMemory id }
  | .measure pid usage readable =>
    some { s with processes := s.processes.modify pid fun p => p.measure usage readable }
  | .release id now =>
    some { s with
      instances := s.instances.modify id fun inst =>
        { inst with inFlight := inst.inFlight - 1, lastActivity := now } }
  | .crash id =>
    some { s with instances := s.instances.modify id fun inst => { inst with alive := false } }
  | _ => none

/-- One piece of one task. -/
def step (config : NodeConfig) (cookbook : Cookbook) (s : State) (l : Label) : Option State :=
  match l with
  | .arrive .. | .lock .. | .attach .. | .prune .. => enterStep config cookbook s l
  | .snapshot .. | .observe .. | .resample .. | .sample .. | .account .. => accountStep config s l
  | .plan .. | .evict .. | .resume .. | .reserve .. => admitStep config s l
  | .exec .. | .execFailed .. | .insertLock .. | .insert .. | .leave .. => spawnStep config s l
  | .retire .. | .retired | .ready .. | .finish .. | .measure .. | .release .. | .crash .. =>
    otherStep s l

end Llamesh.Spawn
