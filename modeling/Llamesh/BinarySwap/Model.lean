import Llamesh.Instance.Drain
import Llamesh.Library.Run
import Llamesh.Library.Table

/-!
# Binary swaps, the swap watcher and spawns

`update_symlink` and `signal_binary_swap` (`src/build_manager.rs:655–744`), the
watcher task (`src/main.rs:473–497`), the drain pass
(`src/node_state/mod.rs:1663–1698`) and the attempts of the spawn loop
(`src/node_state/mod.rs:2719–3009`). One label is one atomic piece of a task:
the code between two awaits, or a single atomic access where another task may
run in between. A binary is named by the path it resolves to. The generation is
a `u64` that counts swaps and does not wrap in practice.
-/

namespace Llamesh.BinarySwap

open Transition

universe u

/-- The swap task: the rename, the generation bump and the wake are separate.
`src/build_manager.rs:719–743`. -/
inductive SwapPc where
  | idle
  | renamed
  | bumped
  deriving DecidableEq, Repr

/-- The watcher task. It carries `last_gen`, and `current_gen` once it is read.
`src/main.rs:477–493`. -/
inductive WatcherPc where
  | notStarted
  | looping (lastGen : Nat)
  | parked (lastGen : Nat)
  | woken (lastGen : Nat)
  | compared (lastGen currentGen : Nat)
  | draining (lastGen currentGen : Nat) (remaining : List Nat)
  | drained (lastGen currentGen : Nat)
  deriving DecidableEq, Repr

/-- A spawn inside the retry loop. A resolved path of `none` is the fallback to the configured
path after a failed `canonicalize`. `src/node_state/mod.rs:2719–2840`. -/
inductive SpawnPc (B : Type u) where
  | starting (attempt : Nat)
  | sampled (attempt spawnGeneration : Nat)
  | resolved (attempt spawnGeneration : Nat) (path : Option B)
  | running (spawnGeneration : Nat) (binary : B)
  deriving DecidableEq, Repr

/-- A mapped instance: the binary its process was started from, and its drain flags. -/
structure Instance (B : Type u) where
  binary : B
  flags : DrainFlags
  deriving DecidableEq, Repr

/-- The state shared by the tasks. `target` is what the configured path resolves to, and `permit`
is the permit that `notify_one` stores when nobody waits. -/
structure State (B : Type u) where
  target : Option B
  generation : Nat
  permit : Bool
  swap : SwapPc
  watcher : WatcherPc
  spawns : Table Nat (SpawnPc B)
  instances : Table Nat (Instance B)

/-- Startup: no swap ran, the watcher is not started and nothing was spawned. -/
def State.init {B : Type u} (target : Option B) : State B where
  target := target
  generation := 0
  permit := false
  swap := .idle
  watcher := .notStarted
  spawns := ∅
  instances := ∅

/-- The atomic pieces of the tasks. `abandonSpawn` is any error return or cancellation of a spawn
before its insertion; `scheduleDrain`, `cancelDrain` and `retire` come from other tasks. -/
inductive Label (B : Type u) where
  | rename (binary : B)
  | bump
  | notifyOne
  | startWatcher
  | awaitSwap
  | readGeneration
  | beginPass
  | drainOne (id : Nat)
  | endPass
  | rememberGeneration
  | beginSpawn (id : Nat)
  | sampleGeneration (id : Nat)
  | resolveBinary (id : Nat) (canonical : Bool)
  | execBinary (id : Nat)
  | execFailed (id : Nat) (portOverridden : Bool)
  | abandonSpawn (id : Nat)
  | insertInstance (id : Nat) (cookbookReplaced : Bool)
  | retire (id : Nat)
  | scheduleDrain (id : Nat)
  | cancelDrain (id : Nat)
  deriving DecidableEq, Repr

/-- `MAX_SPAWN_RETRIES`. `src/node_state/mod.rs:2720`. -/
def maxSpawnRetries : Nat := 3

/-- The pass holds the read side of the instances lock, so the map does not change meanwhile. -/
def WatcherPc.inPass : WatcherPc → Bool
  | .draining .. => true
  | _ => false

/-- `binary_swap_notify.notify_one()`: wakes the parked watcher or stores the permit. -/
def notifyOne {B : Type u} (s : State B) : State B :=
  match s.watcher with
  | .parked lastGen => { s with watcher := .woken lastGen }
  | _ => { s with permit := true }

/-- `notified().await` at the top of the watcher loop. -/
def awaitSwap {B : Type u} (s : State B) (lastGen : Nat) : State B :=
  if s.permit then { s with permit := false, watcher := .woken lastGen }
  else { s with watcher := .parked lastGen }

/-- The inserted instance: it drains from the start when the generation moved since the attempt
sampled it, or when the cookbook definition was replaced. `src/node_state/mod.rs:2930–2958`. -/
def spawnedInstance {B : Type u} (s : State B) (spawnGeneration : Nat) (binary : B)
    (cookbookReplaced : Bool) : Instance B :=
  let binarySwap := decide (s.generation ≠ spawnGeneration)
  { binary, flags := { draining := binarySwap || cookbookReplaced } }

variable {B : Type u}

/-- The swap task. -/
def swapStep (s : State B) : Label B → Option (State B)
  | .rename binary =>
    guarded (s.swap = .idle) { s with target := some binary, swap := .renamed }
  | .bump =>
    guarded (s.swap = .renamed) { s with generation := s.generation + 1, swap := .bumped }
  | .notifyOne => guarded (s.swap = .bumped) { notifyOne s with swap := .idle }
  | _ => none

/-- The watcher task. -/
def watcherStep (s : State B) : Label B → Option (State B)
  | .startWatcher =>
    guarded (s.watcher = .notStarted) { s with watcher := .looping s.generation }
  | .awaitSwap =>
    match s.watcher with
    | .looping lastGen => some (awaitSwap s lastGen)
    | _ => none
  | .readGeneration =>
    match s.watcher with
    | .woken lastGen => some { s with watcher := .compared lastGen s.generation }
    | _ => none
  | .beginPass =>
    match s.watcher with
    | .compared lastGen currentGen =>
      if currentGen > lastGen then
        some { s with watcher := .draining lastGen currentGen s.instances.keys }
      else some { s with watcher := .looping lastGen }
    | _ => none
  | .drainOne id =>
    match s.watcher with
    | .draining lastGen currentGen remaining =>
      guarded (id ∈ remaining)
        { s with
          watcher := .draining lastGen currentGen (remaining.erase id)
          instances := s.instances.modify id fun inst =>
            { inst with flags := inst.flags.drainForBinaryUpdate } }
    | _ => none
  | .endPass =>
    match s.watcher with
    | .draining lastGen currentGen [] => some { s with watcher := .drained lastGen currentGen }
    | _ => none
  | .rememberGeneration =>
    match s.watcher with
    | .drained _ currentGen => some { s with watcher := .looping currentGen }
    | _ => none
  | _ => none

/-- One spawn. The first one starts after the watcher has read its initial generation. -/
def spawnStep [DecidableEq B] (s : State B) : Label B → Option (State B)
  | .beginSpawn id =>
    guarded (s.watcher ≠ .notStarted ∧ id ∉ s.spawns ∧ id ∉ s.instances)
      { s with spawns := s.spawns.insert id (.starting 1) }
  | .sampleGeneration id =>
    match s.spawns.lookup id with
    | some (.starting attempt) =>
      some { s with spawns := s.spawns.insert id (.sampled attempt s.generation) }
    | _ => none
  | .resolveBinary id canonical =>
    match s.spawns.lookup id with
    | some (.sampled attempt gen) =>
      let path := if canonical then s.target else none
      some { s with spawns := s.spawns.insert id (.resolved attempt gen path) }
    | _ => none
  | .execBinary id =>
    match s.spawns.lookup id with
    | some (.resolved _ gen path) =>
      -- The configured path is followed when the process starts.
      match path.or s.target with
      | some binary => some { s with spawns := s.spawns.insert id (.running gen binary) }
      | none => none
    | _ => none
  | .execFailed id portOverridden =>
    match s.spawns.lookup id with
    | some (.resolved attempt _ _) =>
      if attempt ≥ maxSpawnRetries ∨ portOverridden then some { s with spawns := s.spawns.erase id }
      else some { s with spawns := s.spawns.insert id (.starting (attempt + 1)) }
    | _ => none
  | .abandonSpawn id => guarded (id ∈ s.spawns) { s with spawns := s.spawns.erase id }
  | .insertInstance id cookbookReplaced =>
    match s.spawns.lookup id with
    | some (.running gen binary) =>
      guarded (s.watcher.inPass = false)
        { s with
          spawns := s.spawns.erase id
          instances := s.instances.insert id (spawnedInstance s gen binary cookbookReplaced) }
    | _ => none
  | _ => none

/-- Evictions and scheduler drains by other tasks. -/
def otherStep (s : State B) : Label B → Option (State B)
  | .retire id => guarded (s.watcher.inPass = false) { s with instances := s.instances.erase id }
  | .scheduleDrain id => some { s with instances := s.instances.modify id fun inst =>
      { inst with flags := inst.flags.drainForCompetitor } }
  | .cancelDrain id => some { s with instances := s.instances.modify id fun inst =>
      { inst with flags := inst.flags.cancelDrain } }
  | _ => none

/-- One atomic piece of one task. -/
def step [DecidableEq B] (s : State B) (l : Label B) : Option (State B) :=
  match l with
  | .rename _ | .bump | .notifyOne => swapStep s l
  | .startWatcher | .awaitSwap | .readGeneration | .beginPass | .drainOne _ | .endPass
  | .rememberGeneration => watcherStep s l
  | .beginSpawn _ | .sampleGeneration _ | .resolveBinary _ _ | .execBinary _ | .execFailed _ _
  | .abandonSpawn _ | .insertInstance _ _ => spawnStep s l
  | .retire _ | .scheduleDrain _ | .cancelDrain _ => otherStep s l

end Llamesh.BinarySwap
