import Llamesh.Instance.Drain
import Llamesh.Library.Run
import Llamesh.Library.Table

/-!
# Cookbook reloads and spawns

`reload_cookbook` and `reconcile_instances_with_cookbook`
(`src/node_state/mod.rs:726–841`), `refresh_profile_after_reload`
(`src/node_state/mod.rs:2411–2438`) and the version checks of
`try_get_or_spawn_resolved` (`src/node_state/mod.rs:2850–2968`). A key is the
lower-case `model:profile` that the model index is read with, so a request and
the instance it starts keep one key across reloads. Definitions `P` and their
args hash are parameters. The version is a `u64` that counts reloads and does
not wrap in practice.
-/

namespace Llamesh.Reload

open Transition

universe u v w

/-- A model index: the enabled definition of each key. `src/node_state/model_index.rs:11–30`. -/
abbrev Index (K : Type u) (P : Type v) := K → Option P

/-- The reload task. The reconcile pass holds the read side of the instances lock: it takes a
snapshot of one instance, resolves its key, and marks it. `src/node_state/mod.rs:726–841`. -/
inductive ReloadPc where
  | idle
  | rebuilt
  | written
  | bumped
  | reconciling (remaining : List Nat)
  | inspected (remaining : List Nat) (id : Nat) (alreadyForced : Bool)
  | orphaned (remaining : List Nat) (id : Nat)
  deriving DecidableEq, Repr

/-- A request that resolves a definition and spawns it. `version` is `resolved_version`, the
version that was read before the definition was resolved.
`src/router.rs:1014–1015`, `src/node_state/mod.rs:2411–2438,2850–2935`. -/
inductive RequestPc (P : Type v) where
  | sampled (version : Nat)
  | holding (version : Nat) (profile : P)
  | refreshing (version : Nat) (profile : P) (observed : Nat)
  | refreshed (version : Nat) (profile : P) (observed : Nat) (resolved : Option P)
  | spawning (version : Nat) (profile : P)
  | started (version : Nat) (profile : P)
  | seen (version : Nat) (profile : P) (versionSeen : Nat)
  | compared (version : Nat) (profile : P) (versionSeen : Nat) (replaced : Bool)
  | checked (version : Nat) (profile : P) (versionChecked : Nat) (replaced : Bool)
  deriving DecidableEq, Repr

/-- A request for a key. -/
structure Request (K : Type u) (P : Type v) where
  key : K
  pc : RequestPc P
  deriving DecidableEq, Repr

/-- A mapped instance: its key, the args hash it was started with and its drain flags. -/
structure Instance (K : Type u) (H : Type w) where
  key : K
  argsHash : H
  flags : DrainFlags
  deriving DecidableEq, Repr

/-- The state shared by the tasks. `past` holds the indexes of earlier cookbooks, oldest first. -/
structure State (K : Type u) (P : Type v) (H : Type w) where
  past : List (Index K P)
  index : Index K P
  version : Nat
  reload : ReloadPc
  requests : Table Nat (Request K P)
  instances : Table Nat (Instance K H)

variable {K : Type u} {P : Type v} {H : Type w}

/-- Startup with the first cookbook. -/
def State.init (index : Index K P) : State K P H where
  past := []
  index := index
  version := 0
  reload := .idle
  requests := ∅
  instances := ∅

/-- The index of the `n`th cookbook; the current index is the last one. -/
def State.indexAt (s : State K P H) (n : Nat) : Option (Index K P) := (s.past ++ [s.index])[n]?

/-- The atomic pieces of the tasks. `leave` is any error return or cancellation of a request, and
`forceDrain` a mandatory drain by another task. -/
inductive Label (K : Type u) (P : Type v) where
  | rebuildIndex (index : Index K P)
  | writeCookbook
  | bumpVersion
  | beginReconcile
  | inspect (id : Nat)
  | judge
  | markOrphan
  | endReconcile
  | arrive (id : Nat) (key : K)
  | resolve (id : Nat)
  | refreshObserve (id : Nat)
  | refreshResolve (id : Nat)
  | refreshRecheck (id : Nat)
  | beginSpawn (id : Nat)
  | execProcess (id : Nat)
  | spawnFailed (id : Nat)
  | seeVersion (id : Nat)
  | compareProfile (id : Nat)
  | checkVersion (id : Nat)
  | insertInstance (id instanceId : Nat) (binarySwap : Bool)
  | leave (id : Nat)
  | retire (id : Nat)
  | scheduleDrain (id : Nat)
  | cancelDrain (id : Nat)
  | forceDrain (id : Nat)

/-- Whether the pass holds the read side of the instances lock. -/
def ReloadPc.inPass : ReloadPc → Bool
  | .reconciling _ | .inspected .. | .orphaned .. => true
  | _ => false

/-- Move one request on. -/
def setPc (s : State K P H) (id : Nat) (key : K) (pc : RequestPc P) : State K P H :=
  { s with requests := s.requests.insert id ⟨key, pc⟩ }

/-- Change the drain flags of one instance. -/
def modifyFlags (s : State K P H) (id : Nat) (f : DrainFlags → DrainFlags) : State K P H :=
  { s with instances := s.instances.modify id fun inst => { inst with flags := f inst.flags } }

variable [DecidableEq H] (hash : P → H)

/-- Whether the definition a key resolves to now has another args hash, or is gone. The reload
pass and `profile_replaced_since_resolve` compare alike.
`src/node_state/mod.rs:805–822,2442–2462`. -/
def replacedBy (index : Index K P) (key : K) (argsHash : H) : Bool :=
  match index key with
  | none => true
  | some current => decide (hash current ≠ argsHash)

/-- The reload task. -/
def reloadStep (s : State K P H) : Label K P → Option (State K P H)
  | .rebuildIndex index =>
    guarded (s.reload = .idle) { s with past := s.past ++ [s.index], index, reload := .rebuilt }
  -- The cookbook itself is not read by the spawns; the index is.
  | .writeCookbook => guarded (s.reload = .rebuilt) { s with reload := .written }
  | .bumpVersion =>
    guarded (s.reload = .written) { s with version := s.version + 1, reload := .bumped }
  | .beginReconcile =>
    guarded (s.reload = .bumped) { s with reload := .reconciling s.instances.keys }
  | .inspect id =>
    match s.reload, s.instances.lookup id with
    | .reconciling remaining, some inst =>
      guarded (id ∈ remaining)
        { s with reload := .inspected (remaining.erase id) id inst.flags.forced }
    | _, _ => none
  | .judge =>
    match s.reload with
    | .inspected remaining id alreadyForced =>
      match s.instances.lookup id with
      | some inst =>
        if !alreadyForced && replacedBy hash s.index inst.key inst.argsHash then
          some { s with reload := .orphaned remaining id }
        else some { s with reload := .reconciling remaining }
      | none => none
    | _ => none
  | .markOrphan =>
    match s.reload with
    | .orphaned remaining id =>
      some { modifyFlags s id DrainFlags.drainOrphaned with reload := .reconciling remaining }
    | _ => none
  | .endReconcile => guarded (s.reload = .reconciling []) { s with reload := .idle }
  | _ => none

/-- A request resolving its definition, before the spawn. -/
def resolveStep (s : State K P H) : Label K P → Option (State K P H)
  | .arrive id key => guarded (id ∉ s.requests) (setPc s id key (.sampled s.version))
  | .resolve id =>
    match s.requests.lookup id with
    | some ⟨key, .sampled version⟩ =>
      match s.index key with
      | some profile => some (setPc s id key (.holding version profile))
      | none => some { s with requests := s.requests.erase id }
    | _ => none
  | .refreshObserve id =>
    match s.requests.lookup id with
    | some ⟨key, .holding version profile⟩ =>
      guarded (s.version ≠ version) (setPc s id key (.refreshing version profile s.version))
    | _ => none
  | .refreshResolve id =>
    match s.requests.lookup id with
    | some ⟨key, .refreshing version profile observed⟩ =>
      some (setPc s id key (.refreshed version profile observed (s.index key)))
    | _ => none
  | .refreshRecheck id =>
    match s.requests.lookup id with
    | some ⟨key, .refreshed version profile observed resolved⟩ =>
      -- A reload during the lookup leaves the captured version stale for a retry.
      if s.version ≠ observed then some (setPc s id key (.holding version profile))
      else match resolved with
        | some current => some (setPc s id key (.holding observed current))
        | none => some { s with requests := s.requests.erase id }
    | _ => none
  | .leave id => guarded (id ∈ s.requests) { s with requests := s.requests.erase id }
  | _ => none

/-- A request spawning its definition. -/
def spawnStep (s : State K P H) : Label K P → Option (State K P H)
  | .beginSpawn id =>
    match s.requests.lookup id with
    | some ⟨key, .holding version profile⟩ => some (setPc s id key (.spawning version profile))
    | _ => none
  | .execProcess id =>
    match s.requests.lookup id with
    | some ⟨key, .spawning version profile⟩ => some (setPc s id key (.started version profile))
    | _ => none
  | .spawnFailed id =>
    match s.requests.lookup id with
    | some ⟨key, .spawning version profile⟩ => some (setPc s id key (.holding version profile))
    -- The limits are checked again after the spawn.
    | some ⟨key, .checked version profile _ _⟩ => some (setPc s id key (.holding version profile))
    | _ => none
  | .seeVersion id =>
    match s.requests.lookup id with
    | some ⟨key, .started version profile⟩ =>
      some (setPc s id key (.seen version profile s.version))
    | _ => none
  | .compareProfile id =>
    match s.requests.lookup id with
    | some ⟨key, .seen version profile versionSeen⟩ =>
      -- Without a version change the definition is not looked up again.
      let replaced := decide (versionSeen ≠ version) && replacedBy hash s.index key (hash profile)
      some (setPc s id key (.compared version profile versionSeen replaced))
    | _ => none
  | .checkVersion id =>
    match s.requests.lookup id with
    | some ⟨key, .compared version profile versionSeen replaced⟩ =>
      let replaced := replaced || decide (s.version ≠ versionSeen)
      some (setPc s id key (.checked version profile s.version replaced))
    | _ => none
  | .insertInstance id instanceId binarySwap =>
    match s.requests.lookup id with
    | some ⟨key, .checked _ profile versionChecked replaced⟩ =>
      let replaced := replaced || decide (s.version ≠ versionChecked)
      guarded (s.reload.inPass = false ∧ instanceId ∉ s.instances)
        { s with
          requests := s.requests.erase id
          instances := s.instances.insert instanceId
            { key, argsHash := hash profile, flags := { draining := binarySwap || replaced } } }
    | _ => none
  | _ => none

omit [DecidableEq H] in
/-- Evictions and drains by other tasks. -/
def otherStep (s : State K P H) : Label K P → Option (State K P H)
  | .retire id => guarded (s.reload.inPass = false) { s with instances := s.instances.erase id }
  | .scheduleDrain id => some (modifyFlags s id DrainFlags.drainForCompetitor)
  | .cancelDrain id => some (modifyFlags s id DrainFlags.cancelDrain)
  | .forceDrain id => some (modifyFlags s id DrainFlags.drainForBinaryUpdate)
  | _ => none

/-- One atomic piece of one task. -/
def step (s : State K P H) (l : Label K P) : Option (State K P H) :=
  match l with
  | .rebuildIndex _ | .writeCookbook | .bumpVersion | .beginReconcile | .inspect _ | .judge
  | .markOrphan | .endReconcile => reloadStep hash s l
  | .arrive _ _ | .resolve _ | .refreshObserve _ | .refreshResolve _ | .refreshRecheck _
  | .leave _ => resolveStep s l
  | .beginSpawn _ | .execProcess _ | .spawnFailed _ | .seeVersion _ | .compareProfile _
  | .checkVersion _ | .insertInstance _ _ _ => spawnStep hash s l
  | .retire _ | .scheduleDrain _ | .cancelDrain _ | .forceDrain _ => otherStep s l

end Llamesh.Reload
