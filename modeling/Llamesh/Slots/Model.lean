import Llamesh.Library.Run
import Llamesh.Library.Table

/-!
# Request slots of an instance

Who owns a slot of `in_flight_requests`, from its acquisition in
`try_get_or_spawn_resolved` (`src/node_state/mod.rs:2551–2602,2813–2821`) through
`SlotReleaseGuard` (`src/node_state/mod.rs:524–585`), the router's `RequestGuard`
(`src/router.rs:216–267,1396–1575`) and the cleanup future of the response
(`src/router.rs:1950–2060,2345–2518`), to the decrement. One label is the code of a
task between two awaits. The runtime is alive, so a future that is spawned runs.
-/

namespace Llamesh.Slots

open Transition

/-- The status of an instance. `src/instance.rs:572–576`. -/
inductive InstanceStatus where
  | starting
  | ready
  | failed
  deriving DecidableEq, Repr

/-- A shared instance: in the map, or retired and still referenced. -/
structure Instance where
  inFlight : Nat
  status : InstanceStatus := .starting
  mapped : Bool := true
  alive : Bool := true
  draining : Bool := false
  deriving DecidableEq, Repr

/-- A task. `requesting` is `get_instance_for_model` outside a slot, `spawning` owns an instance
that is not shared yet with its pre-claimed count, `guarded` owns a `SlotReleaseGuard`, `routed` a
`RequestGuard` with an instance, and `responding` the body with the cleanup future it may still
have to spawn. The last three are spawned release tasks. -/
inductive Task where
  | requesting
  | prewarming
  | spawning (reserveSlot : Bool)
  | guarded (inst : Nat)
  | routed (inst : Nat)
  | responding (cleanup : Option Nat)
  | slotRelease (inst : Nat)
  | guardRelease (inst : Nat)
  | cleanup (inst : Nat)
  deriving DecidableEq, Repr

/-- The instances and the tasks. -/
structure State where
  instances : Table Nat Instance
  tasks : Table Nat Task

/-- Startup. -/
def State.init : State := ⟨∅, ∅⟩

/-- The pieces of the tasks. `drop` is a cancellation, an error return or the end of the task, at
any await; the remaining labels from `setStatus` on are other tasks that change an instance. -/
inductive Label where
  | arrive (id : Nat)
  | prewarm (id : Nat)
  | acquire (id inst : Nat)
  | beginSpawn (id : Nat)
  | spawnFailed (id : Nat)
  | publish (id inst : Nat) (reserveSlot : Bool)
  | retryAfterFailure (id release : Nat)
  | detach (id : Nat)
  | respond (id : Nat)
  | streamEnd (id release : Nat)
  | drop (id : Nat)
  | release (id inst : Nat)
  | setStatus (inst : Nat) (status : InstanceStatus)
  | setDraining (inst : Nat) (draining : Bool)
  | exit (inst : Nat)
  | retire (inst : Nat)
  deriving DecidableEq, Repr

/-- `max_concurrent == 0 || in_flight_requests < max_concurrent`. -/
def hasCapacity (maxConcurrent : Nat) (inst : Instance) : Bool :=
  maxConcurrent == 0 || decide (inst.inFlight < maxConcurrent)

/-- The re-check under the instance's write lock. `src/node_state/mod.rs:2592–2597`. -/
def acquirable (maxConcurrent : Nat) (inst : Instance) : Bool :=
  hasCapacity maxConcurrent inst && inst.alive && decide (inst.status ≠ .failed) && !inst.draining

/-- What is left of a task that is dropped: a guard or a body spawns its release, and a release
task runs on. The instance of a dropped spawn was never shared. -/
def Task.dropped : Task → Option Task
  | .guarded inst => some (.slotRelease inst)
  | .routed inst => some (.guardRelease inst)
  | .responding (some inst) => some (.cleanup inst)
  | .requesting | .prewarming | .spawning _ | .responding none => none
  | .slotRelease inst => some (.slotRelease inst)
  | .guardRelease inst => some (.guardRelease inst)
  | .cleanup inst => some (.cleanup inst)

/-- The instance a release task decrements. A release by a `SlotReleaseGuard` waits until the load
of its instance has ended. `src/node_state/mod.rs:559–577`, `src/router.rs:248–256,1487–1491`. -/
def Task.releases (instances : Table Nat Instance) : Task → Option Nat
  | .slotRelease inst =>
    match instances.lookup inst with
    | some i => if i.status = .starting then none else some inst
    | none => none
  | .guardRelease inst | .cleanup inst => some inst
  | _ => none

/-- `in_flight_requests.saturating_sub(1)` under the instance's write lock. -/
def decrement (instances : Table Nat Instance) (inst : Nat) : Table Nat Instance :=
  instances.modify inst fun i => { i with inFlight := i.inFlight - 1 }

/-- A task moves to its next await. -/
def setTask (s : State) (id : Nat) (task : Task) : State :=
  { s with tasks := s.tasks.insert id task }

/-- Change one instance. -/
def modifyInstance (s : State) (inst : Nat) (f : Instance → Instance) : State :=
  { s with instances := s.instances.modify inst f }

/-- One piece of one task. -/
def step (maxConcurrent : Nat) (s : State) : Label → Option State
  | .arrive id => guarded (id ∉ s.tasks) (setTask s id .requesting)
  | .prewarm id => guarded (id ∉ s.tasks) (setTask s id .prewarming)
  | .acquire id inst =>
    match s.tasks.lookup id, s.instances.lookup inst with
    | some .requesting, some i =>
      guarded (i.mapped = true ∧ acquirable maxConcurrent i = true)
        { instances := s.instances.insert inst { i with inFlight := i.inFlight + 1 }
          tasks := s.tasks.insert id (.guarded inst) }
    | _, _ => none
  | .beginSpawn id =>
    match s.tasks.lookup id with
    | some .requesting => some (setTask s id (.spawning true))
    | some .prewarming => some (setTask s id (.spawning false))
    | _ => none
  | .spawnFailed id =>
    match s.tasks.lookup id with
    | some (.spawning true) => some (setTask s id .requesting)
    | some (.spawning false) => some { s with tasks := s.tasks.erase id }
    | _ => none
  -- The slot of the spawning request was claimed before the instance was shared.
  | .publish id inst true =>
    guarded (s.tasks.lookup id = some (.spawning true) ∧ inst ∉ s.instances)
      { instances := s.instances.insert inst { inFlight := 1 }
        tasks := s.tasks.insert id (.guarded inst) }
  | .publish id inst false =>
    guarded (s.tasks.lookup id = some (.spawning false) ∧ inst ∉ s.instances)
      { instances := s.instances.insert inst { inFlight := 0 }
        tasks := s.tasks.erase id }
  | .retryAfterFailure id release =>
    match s.tasks.lookup id with
    | some (.guarded inst) =>
      guarded (release ∉ s.tasks)
        { s with tasks := (s.tasks.insert id .requesting).insert release (.slotRelease inst) }
    | _ => none
  | .detach id =>
    match s.tasks.lookup id with
    | some (.guarded inst) =>
      guarded ((s.instances.lookup inst).map (fun i => i.status) = some .ready)
        (setTask s id (.routed inst))
    | _ => none
  | .respond id =>
    match s.tasks.lookup id with
    | some (.routed inst) => some (setTask s id (.responding (some inst)))
    | _ => none
  | .streamEnd id release =>
    match s.tasks.lookup id with
    | some (.responding (some inst)) =>
      guarded (release ∉ s.tasks)
        { s with tasks := (s.tasks.insert id (.responding none)).insert release (.cleanup inst) }
    | _ => none
  | .drop id =>
    match s.tasks.lookup id with
    | some task =>
      match task.dropped with
      | some rest => some (setTask s id rest)
      | none => some { s with tasks := s.tasks.erase id }
    | none => none
  | .release id inst =>
    match s.tasks.lookup id with
    | some task =>
      guarded (task.releases s.instances = some inst)
        { instances := decrement s.instances inst, tasks := s.tasks.erase id }
    | none => none
  | .setStatus inst status => some (modifyInstance s inst fun i => { i with status })
  | .setDraining inst draining => some (modifyInstance s inst fun i => { i with draining })
  | .exit inst => some (modifyInstance s inst fun i => { i with alive := false })
  | .retire inst => some (modifyInstance s inst fun i => { i with mapped := false })

end Llamesh.Slots
