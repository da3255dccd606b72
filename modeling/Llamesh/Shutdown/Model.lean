import Llamesh.Library.Run
import Llamesh.Queue.Store

/-!
# Shutdown drain and waiting requests

`begin_shutdown_drain`, `notify_all_queues` and `notify_queue_by_key`
(`src/node_state/mod.rs:3779–3838`), the two enqueue sites of
`get_instance_for_model` (`src/node_state/mod.rs:1842–1856,2205–2215`) and the capacity
waits of `get_instance_for_model` and `route_request`
(`src/node_state/mod.rs:2071–2085,2153–2166`, `src/router.rs:1053–1110,1205,1237,1268,1321,1883`).

The drain flag is stored and loaded with `Relaxed`, so a load may miss the store
until it is ordered after it: by the queues lock that the shutdown takes for its
key snapshot, or by a `Notified` future created after the shutdown's
`notify_waiters`. A `Notified` is represented by the number of `notify_waiters`
calls made before it was created; each later call wakes it.
-/

namespace Llamesh.Shutdown

open Transition Queue

universe u

/-- A walk over the queues of some keys: `notify_all_queues` takes the keys of a snapshot and
announces capacity at the end, `notify_queue` takes one key. `popped` holds a waiter that is not
promoted yet, `promoted` one whose permit is not sent yet, and `refused` a permit whose receiver is
gone. -/
inductive WakePc (κ : Type u) where
  | snapshot
  | popping (keys : List κ)
  | popped (key : κ) (token : Nat) (keys : List κ)
  | promoted (key : κ) (token : Nat) (keys : List κ)
  | refused (key : κ) (token : Nat) (keys : List κ)
  | announcing
  deriving DecidableEq, Repr

/-- A running wake; `all` is `notify_all_queues`. -/
structure Waker (κ : Type u) where
  all : Bool
  pc : WakePc κ
  deriving DecidableEq, Repr

/-- The shutdown task. After it returned it remembers the `notify_waiters` calls made with its
own. -/
inductive ShutdownPc (κ : Type u) where
  | idle
  | stored
  | waking (pc : WakePc κ)
  | returned (calls : Nat)
  deriving DecidableEq, Repr

/-- A request: running between waits, waiting for its queue entry, or with a `Notified` future
that is created, checked against the drain flag, or awaited. -/
inductive RequestPc (κ : Type u) where
  | running
  | waiting (key : κ) (token : Nat)
  | subscribed (calls : Nat)
  | checked (calls : Nat)
  | parked (calls : Nat)
  deriving DecidableEq, Repr

/-- What a waiter's channel has been given: a permit, or the drop of its sender. -/
inductive Wake where
  | delivered
  | closed
  deriving DecidableEq, Repr

/-- The shared state. `removers` are the spawned removals of entries whose request left. -/
structure State (κ : Type u) where
  draining : Bool
  shutdown : ShutdownPc κ
  queues : Queues κ
  pending : Pending κ
  nextToken : Nat
  wakes : Table Nat Wake
  notifyCalls : Nat
  requests : Table Nat (RequestPc κ)
  wakers : Table Nat (Waker κ)
  removers : List (κ × Nat)

/-- Startup. -/
def State.init {κ : Type u} : State κ where
  draining := false
  shutdown := .idle
  queues := ∅
  pending := ∅
  nextToken := 0
  wakes := ∅
  notifyCalls := 0
  requests := ∅
  wakers := ∅
  removers := []

/-- The atomic pieces of the tasks. `sees` is what a load of the drain flag returns. -/
inductive Label (κ : Type u) where
  | arrive (id : Nat)
  | enqueue (id : Nat) (key : κ) (sees : Bool)
  | receive (id : Nat)
  | giveUp (id : Nat)
  | subscribe (id : Nat)
  | checkDraining (id : Nat) (sees : Bool)
  | skipWait (id : Nat)
  | park (id : Nat)
  | capacityWake (id : Nat)
  | leave (id : Nat)
  | removeEntry (key : κ) (token : Nat)
  | startWaker (waker : Nat) (key : Option κ)
  | wake (waker : Nat) (sees : Bool)
  | cancelWaker (waker : Nat)
  | beginShutdown
  | shutdownWake
  deriving DecidableEq, Repr

variable {κ : Type u} [DecidableEq κ]

/-- Whether some request still waits for the entry. -/
def receiverAlive (requests : Table Nat (RequestPc κ)) (token : Nat) : Bool :=
  requests.entries.any fun e => match e.2 with
    | .waiting _ t => t == token
    | _ => false

/-- Whether the shutdown has taken the queues lock since its store. -/
def ShutdownPc.published : ShutdownPc κ → Bool
  | .idle | .stored | .waking .snapshot => false
  | _ => true

/-- A load under the queues lock misses the store only before the shutdown took that lock. -/
def lockedLoad (s : State κ) (sees : Bool) : Bool :=
  if sees then s.draining else !s.draining || !s.shutdown.published

/-- A load after creating a `Notified` misses the store only if the shutdown's `notify_waiters`
is still to come for that future. -/
def subscribedLoad (s : State κ) (calls : Nat) (sees : Bool) : Bool :=
  if sees then s.draining
  else !s.draining || match s.shutdown with
    | .returned shutdownCalls => decide (calls < shutdownCalls)
    | _ => true

/-- One piece of a walk over the queues; no next position ends it. -/
def walk (s : State κ) (all sees : Bool) : WakePc κ → State κ × Option (WakePc κ)
  | .snapshot => (s, some (.popping s.queues.keys))
  | .popping [] => (s, if all then some .announcing else none)
  | .popping (key :: keys) =>
    match popFront s.queues key with
    | (none, queues) => ({ s with queues }, some (.popping keys))
    | (some token, queues) => ({ s with queues }, some (.popped key token keys))
  | .popped key token keys =>
    ({ s with pending := promote s.pending key token }, some (.promoted key token keys))
  | .promoted key token keys =>
    if receiverAlive s.requests token then
      -- `notify_all_queues` stays on the key while the node drains.
      ({ s with wakes := s.wakes.insert token .delivered },
        some (.popping (if all && sees then key :: keys else keys)))
    else (s, some (.refused key token keys))
  | .refused key token keys =>
    ({ s with pending := removePendingToken s.pending key token }, some (.popping (key :: keys)))
  | .announcing => ({ s with notifyCalls := s.notifyCalls + 1 }, none)

/-- The waiter a walk has taken from its queue. -/
def WakePc.holds : WakePc κ → Option Nat
  | .popped _ token _ | .promoted _ token _ => some token
  | _ => none

/-- Move a request. -/
def setRequest (s : State κ) (id : Nat) (pc : RequestPc κ) : State κ :=
  { s with requests := s.requests.insert id pc }

/-- The request is over. -/
def endRequest (s : State κ) (id : Nat) : State κ :=
  { s with requests := s.requests.erase id }

/-- A request joins a queue, unless it sees the drain or a limit. -/
def enqueueStep (limits : QueueLimits κ) (s : State κ) (id : Nat) (key : κ) (sees : Bool) :
    State κ :=
  if sees then endRequest s id
  else
    match enqueue limits (fun t => !receiverAlive s.requests t) s.queues key s.nextToken with
    | (.ok (), queues) =>
      setRequest { s with queues, nextToken := s.nextToken + 1 } id (.waiting key s.nextToken)
    | (.error _, queues) => endRequest { s with queues } id

/-- Entries to remove are compared by key and token. -/
local instance entryLawfulBEq : LawfulBEq (κ × Nat) := inferInstance

/-- The requests. -/
def requestStep (limits : QueueLimits κ) (s : State κ) : Label κ → Option (State κ)
  | .arrive id => guarded (id ∉ s.requests) (setRequest s id .running)
  | .enqueue id key sees =>
    guarded (s.requests.lookup id = some .running ∧ lockedLoad s sees = true)
      (enqueueStep limits s id key sees)
  | .receive id =>
    match s.requests.lookup id with
    | some (.waiting _ token) =>
      match s.wakes.lookup token with
      | some .delivered => some (setRequest s id .running)
      | some .closed => some (endRequest s id)
      | none => none
    | _ => none
  -- The wait ends by its deadline or by cancellation; the entry is removed afterwards.
  | .giveUp id =>
    match s.requests.lookup id with
    | some (.waiting key token) =>
      some { endRequest s id with removers := (key, token) :: s.removers }
    | _ => none
  | .subscribe id =>
    guarded (s.requests.lookup id = some .running) (setRequest s id (.subscribed s.notifyCalls))
  | .checkDraining id sees =>
    match s.requests.lookup id with
    | some (.subscribed calls) =>
      guarded (subscribedLoad s calls sees = true)
        (if sees then endRequest s id else setRequest s id (.checked calls))
    | _ => none
  | .skipWait id =>
    match s.requests.lookup id with
    | some (.checked _) => some (setRequest s id .running)
    | _ => none
  | .park id =>
    match s.requests.lookup id with
    | some (.checked calls) => some (setRequest s id (.parked calls))
    | _ => none
  | .capacityWake id =>
    match s.requests.lookup id with
    | some (.parked calls) => guarded (calls < s.notifyCalls) (setRequest s id .running)
    | _ => none
  | .leave id =>
    match s.requests.lookup id with
    | some (.waiting _ _) => none
    | some _ => some (endRequest s id)
    | none => none
  | .removeEntry key token =>
    guarded ((key, token) ∈ s.removers)
      { s with
        queues := removeQueueEntry s.queues key token
        removers := s.removers.erase (key, token) }
  | _ => none

/-- Other wakes, and their cancellation: a waiter taken from its queue loses its sender. -/
def wakerStep (s : State κ) : Label κ → Option (State κ)
  | .startWaker waker key =>
    guarded (waker ∉ s.wakers)
      { s with wakers := s.wakers.insert waker (match key with
          | some key => ⟨false, .popping [key]⟩
          | none => ⟨true, .snapshot⟩) }
  | .wake waker sees =>
    match s.wakers.lookup waker with
    | some ⟨all, pc⟩ =>
      match walk s all sees pc with
      | (s', some pc') => some { s' with wakers := s'.wakers.insert waker ⟨all, pc'⟩ }
      | (s', none) => some { s' with wakers := s'.wakers.erase waker }
    | none => none
  | .cancelWaker waker =>
    match s.wakers.lookup waker with
    | some ⟨_, pc⟩ =>
      let s := { s with wakers := s.wakers.erase waker }
      match pc.holds with
      | some token => some { s with wakes := s.wakes.insert token .closed }
      | none => some s
    | none => none
  | _ => none

/-- The shutdown task; it sees its own store. -/
def shutdownStep (s : State κ) : Label κ → Option (State κ)
  | .beginShutdown => guarded (s.shutdown = .idle) { s with draining := true, shutdown := .stored }
  | .shutdownWake =>
    match s.shutdown with
    | .stored => some { s with shutdown := .waking .snapshot }
    | .waking pc =>
      match walk s true true pc with
      | (s', some pc') => some { s' with shutdown := .waking pc' }
      | (s', none) => some { s' with shutdown := .returned s'.notifyCalls }
    | _ => none
  | _ => none

/-- One atomic piece of one task. -/
def step (limits : QueueLimits κ) (s : State κ) (l : Label κ) : Option (State κ) :=
  match l with
  | .startWaker _ _ | .wake _ _ | .cancelWaker _ => wakerStep s l
  | .beginShutdown | .shutdownWake => shutdownStep s l
  | _ => requestStep limits s l

end Llamesh.Shutdown
