import Llamesh.Library.Run
import Llamesh.Library.Table

/-!
# Requests that wait for one profile

`get_instance_for_model` (`src/node_state/mod.rs:1752–2330`) for the requests of one
`model:profile` key, with the fairness checks, both enqueue sites and the attempt of
`try_get_or_spawn_resolved` under the instances write lock, next to the tasks that wake
waiters: `notify_queue_by_key` (`src/node_state/mod.rs:3805–3856`) from a released slot, a
ready instance, a cancelled drain or a re-check. One label is the code of a task between
two points where another task can run. The requests of other keys act on this one through
`startWaker` and the labels on its instances only.

An entry of the queue and its token carry the number of the request: a request makes a new
entry only after its last one was taken from the queue and its token was given back.
-/

namespace Llamesh.Waiters

open Transition

/-- The status of an instance. `src/instance.rs:572–576`. -/
inductive InstanceStatus where
  | starting
  | ready
  | failed
  deriving DecidableEq, Repr

/-- A mapped instance of the profile. -/
structure Instance where
  inFlight : Nat
  status : InstanceStatus
  draining : Bool
  alive : Bool
  deriving DecidableEq, Repr

/-- The channel of a queued request: nothing sent, a permit, or its sender dropped. -/
inductive Channel where
  | silent
  | permit
  | closed
  deriving DecidableEq, Repr

/-- The re-check after an enqueue: still to come, the free slots read, or behind the request. -/
inductive Recheck where
  | due
  | counted (available : Nat)
  | done
  deriving DecidableEq, Repr

/-- Where a request is. A `token` is a permit the request holds. `checking` is the top of the loop,
`yielding` follows the first fairness check, `joining` is before the queues lock of an enqueue that
is followed by a re-check or not, `trying` is before the write lock, `locked` to `planning` hold it,
`scanning` has instances left to read and a best one so far, `planning` found none, `retiring` waits
for evicted processes, `spawning` is admitted, `serving` owns a slot, `returning` was blocked and
has its token to give back, and `parked` waits for capacity after a failed load. `waited` says that
the request joins the queue again. -/
inductive Pc where
  | checking
  | checkingPending
  | yielding
  | joining (recheck waited : Bool)
  | queued (channel : Channel) (recheck : Recheck)
  | trying (token : Bool)
  | locked (token : Bool)
  | lockedPending
  | passed (token : Bool)
  | scanning (token : Bool) (rest : List Nat) (best : Option (Nat × Nat))
  | planning (token : Bool)
  | retiring (token : Bool)
  | spawning (token : Bool)
  | serving (token : Bool) (inst : Nat)
  | returning
  | parked
  deriving DecidableEq, Repr

/-- Where a waking task is. `releasing` has a slot to release, after the load when it comes from a
`SlotReleaseGuard`, and `readied` has marked its instance ready and not counted its slots. -/
inductive WakerPc where
  | releasing (inst : Nat) (afterLoad : Bool)
  | readied (inst : Nat)
  | popping
  | popped (id : Nat)
  | promoted (id : Nat)
  | refused (id : Nat)
  deriving DecidableEq, Repr

/-- A waking task: how many requests it still has to wake, or that it wakes until the queue is
empty, and whether it is part of a request's future and dropped with it. -/
structure Waker where
  pc : WakerPc
  budget : Nat
  all : Bool := false
  cancellable : Bool := false
  deriving DecidableEq, Repr

/-- The queue, the pending tokens and the instances of the profile, and the tasks. `next` numbers
the next request. The removers are spawned by a dropped `QueueEntryGuard` or
`PendingQueuePermit`. -/
structure State where
  lock : Option Nat
  instances : Table Nat Instance
  queue : List Nat
  pending : List Nat
  next : Nat
  requests : Table Nat Pc
  wakers : Table Nat Waker
  entryRemovers : List Nat
  tokenRemovers : List Nat

/-- Startup. -/
def State.init : State := ⟨none, ∅, [], [], 0, ∅, ∅, [], []⟩

/-- The pieces of the tasks. -/
inductive Label where
  | arrive
  | checkQueue (id : Nat)
  | checkPending (id : Nat)
  | settle (id : Nat) (again : Bool)
  | enqueue (id : Nat)
  | readAvailable (id : Nat)
  | readPending (id waker : Nat)
  | receive (id : Nat)
  | lock (id : Nat)
  | recheckQueue (id : Nat)
  | recheckPending (id : Nat)
  | beginScan (id : Nat) (order : List Nat)
  | scan (id : Nat)
  | choose (id : Nat)
  | admitted (id : Nat)
  | blocked (id : Nat)
  | evict (id : Nat)
  | reaped (id : Nat)
  | replan (id : Nat)
  | spawned (id inst : Nat) (draining : Bool)
  | spawnBlocked (id : Nat)
  | giveBack (id : Nat)
  | finish (id waker : Nat) (afterLoad : Bool)
  | retry (id waker : Nat)
  | park (id waker : Nat)
  | unpark (id : Nat)
  | dropProfile (id waker : Nat)
  | leave (id : Nat)
  | removeEntry (id : Nat)
  | removeToken (id : Nat)
  | startWaker (waker : Nat) (cancellable : Bool)
  | releaseSlot (waker : Nat)
  | readSpare (waker : Nat)
  | wake (waker : Nat)
  | cancelWaker (waker : Nat)
  | prewarmed (inst : Nat)
  | becomeReady (inst waker : Nat)
  | failLoad (inst : Nat)
  | drain (inst : Nat)
  | cancelDrain (inst waker : Nat)
  | die (inst : Nat)
  | retire (inst : Nat)
  deriving DecidableEq, Repr

/-! ### Instances -/

/-- `max_concurrent == 0 || in_flight_requests < max_concurrent` on an instance that may take
requests. `src/node_state/mod.rs:2556–2571,2592–2597`. -/
def acquirable (maxConcurrent : Nat) (i : Instance) : Bool :=
  i.alive && decide (i.status ≠ .failed) && !i.draining &&
    (maxConcurrent == 0 || decide (i.inFlight < maxConcurrent))

/-- The free slots of a ready instance. `src/node_state/mod.rs:3652–3667`. -/
def readySlots (maxConcurrent : Nat) (i : Instance) : Nat :=
  if i.alive && !i.draining && decide (i.status = .ready) then
    if maxConcurrent = 0 then 1 else maxConcurrent - i.inFlight
  else 0

/-- `available_ready_slots_for_model`. -/
def availableReadySlots (maxConcurrent : Nat) (instances : Table Nat Instance) : Nat :=
  Table.sum instances fun _ i => readySlots maxConcurrent i

/-- The slots of a ready instance that no request has, where they are counted.
`src/node_state/mod.rs:3126–3130`. -/
def spareSlots (maxConcurrent : Nat) (instances : Table Nat Instance) (inst : Nat) : Nat :=
  match instances.lookup inst with
  | some i => maxConcurrent - i.inFlight
  | none => 0

/-- The best instance so far after one more is read: fewer requests in flight win.
`src/node_state/mod.rs:2554–2577`. -/
def better (maxConcurrent : Nat) (instances : Table Nat Instance) (best : Option (Nat × Nat))
    (inst : Nat) : Option (Nat × Nat) :=
  match instances.lookup inst with
  | none => best
  | some i =>
    if acquirable maxConcurrent i && (best.all fun b => decide (i.inFlight < b.2)) then
      some (inst, i.inFlight)
    else best

/-! ### Moving tasks -/

/-- A request moves on. -/
def setRequest (s : State) (id : Nat) (pc : Pc) : State :=
  { s with requests := s.requests.insert id pc }

/-- A request ends. -/
def endRequest (s : State) (id : Nat) : State := { s with requests := s.requests.erase id }

/-- A waking task starts or moves on. -/
def setWaker (s : State) (w : Nat) (waker : Waker) : State :=
  { s with wakers := s.wakers.insert w waker }

/-- Add a token to the pending ones, which are a set. -/
def promote (pending : List Nat) (id : Nat) : List Nat :=
  if id ∈ pending then pending else pending ++ [id]

/-- Remove a token, or an entry. -/
def remove (ids : List Nat) (id : Nat) : List Nat := ids.filter fun k => decide (k ≠ id)

/-- Whether a request still waits on the channel of its entry. -/
def receiverAlive (s : State) (id : Nat) : Bool :=
  match s.requests.lookup id with
  | some (.queued .silent _) => true
  | _ => false

/-- Whether a waking task is between the promotion of an entry and its send. -/
def WakerPc.isPromoted : WakerPc → Bool
  | .promoted _ => true
  | _ => false

/-- Where a request goes that was blocked: a token is given back first. -/
def Pc.afterBlock (token : Bool) : Pc := if token then .returning else .joining true false

/-- Whether a request holds a token. -/
def Pc.hasToken : Pc → Bool
  | .queued .permit _ | .trying true | .locked true | .passed true | .scanning true _ _
  | .planning true | .retiring true | .spawning true | .serving true _ | .returning => true
  | _ => false

/-- Whether a request has an entry that it would remove. -/
def Pc.hasEntry : Pc → Bool
  | .queued _ _ => true
  | _ => false

/-- Whether a request holds the write lock. -/
def Pc.holdsLock : Pc → Bool
  | .locked _ | .lockedPending | .passed _ | .scanning _ _ _ | .planning _ => true
  | _ => false

/-- A request leaves, by an error or because its future is dropped: the lock is released, and the
entry and the token are removed by tasks of their own. -/
def leaveStep (s : State) (id : Nat) (pc : Pc) : State :=
  { endRequest s id with
    lock := if pc.holdsLock then none else s.lock
    entryRemovers := if pc.hasEntry then id :: s.entryRemovers else s.entryRemovers
    tokenRemovers := if pc.hasToken then id :: s.tokenRemovers else s.tokenRemovers }

/-! ### The steps -/

/-- From the arrival to the wake. `src/node_state/mod.rs:1752–1951,2195–2310`. -/
def queueStep (maxConcurrent : Nat) (s : State) : Label → Option State
  | .arrive => some { setRequest s s.next .checking with next := s.next + 1 }
  | .checkQueue id =>
    match s.requests.lookup id with
    | some .checking =>
      some (setRequest s id (if s.queue.isEmpty then .checkingPending else .yielding))
    | _ => none
  | .checkPending id =>
    match s.requests.lookup id with
    | some .checkingPending =>
      some (setRequest s id (if s.pending.isEmpty then .trying false else .yielding))
    | _ => none
  -- The second check reads the queue and the tokens one after the other, so it may say either.
  | .settle id again =>
    match s.requests.lookup id with
    | some .yielding => some (setRequest s id (if again then .checking else .joining false false))
    | _ => none
  | .enqueue id =>
    match s.requests.lookup id with
    | some (.joining recheck _) =>
      some { setRequest s id (.queued .silent (if recheck then .due else .done)) with
        queue := (s.queue.filter fun k => receiverAlive s k) ++ [id] }
    | _ => none
  | .readAvailable id =>
    match s.requests.lookup id with
    | some (.queued channel .due) =>
      some (setRequest s id
        (.queued channel (.counted (availableReadySlots maxConcurrent s.instances))))
    | _ => none
  | .readPending id waker =>
    match s.requests.lookup id with
    | some (.queued channel (.counted available)) =>
      let after := setRequest s id (.queued channel .done)
      let budget := available - s.pending.length
      guarded (waker ∉ s.wakers)
        (if budget = 0 then after
        else setWaker after waker ⟨.popping, budget, false, true⟩)
    | _ => none
  | .receive id =>
    match s.requests.lookup id with
    | some (.queued .permit .done) => some (setRequest s id (.trying true))
    | some (.queued .closed .done) => some (endRequest s id)
    | _ => none
  | .leave id =>
    match s.requests.lookup id with
    | some (.serving _ _) => none
    | some pc => some (leaveStep s id pc)
    | none => none
  | .removeEntry id =>
    guarded (id ∈ s.entryRemovers)
      { s with queue := remove s.queue id, entryRemovers := s.entryRemovers.erase id }
  | .removeToken id =>
    guarded (id ∈ s.tokenRemovers)
      { s with pending := remove s.pending id, tokenRemovers := s.tokenRemovers.erase id }
  | _ => none

/-- The attempt under the write lock. `src/node_state/mod.rs:2506–2711`. -/
def attemptStep (maxConcurrent : Nat) (s : State) : Label → Option State
  | .lock id =>
    match s.requests.lookup id with
    | some (.trying token) =>
      guarded (s.lock = none) { setRequest s id (.locked token) with lock := some id }
    | _ => none
  | .recheckQueue id =>
    match s.requests.lookup id with
    | some (.locked true) => some (setRequest s id (.passed true))
    | some (.locked false) =>
      some (if s.queue.isEmpty then setRequest s id .lockedPending
        else { setRequest s id (.joining false false) with lock := none })
    | _ => none
  | .recheckPending id =>
    match s.requests.lookup id with
    | some .lockedPending =>
      some (if s.pending.isEmpty then setRequest s id (.passed false)
        else { setRequest s id (.joining false false) with lock := none })
    | _ => none
  -- The order of a hash map's values is not fixed.
  | .beginScan id order =>
    match s.requests.lookup id with
    | some (.passed token) =>
      guarded (order.Perm s.instances.keys) (setRequest s id (.scanning token order none))
    | _ => none
  | .scan id =>
    match s.requests.lookup id with
    | some (.scanning token (inst :: rest) best) =>
      some (setRequest s id
        (.scanning token rest (better maxConcurrent s.instances best inst)))
    | _ => none
  | .choose id =>
    match s.requests.lookup id with
    | some (.scanning token [] best) =>
      -- The best instance is checked again under its own write lock.
      match best.bind fun b => (s.instances.lookup b.1).map fun i => (b.1, i) with
      | some (inst, i) =>
        some (if acquirable maxConcurrent i then
          { setRequest s id (.serving token inst) with
            lock := none
            instances := s.instances.insert inst { i with inFlight := i.inFlight + 1 } }
        else setRequest s id (.planning token))
      | none => some (setRequest s id (.planning token))
    | _ => none
  | .admitted id =>
    match s.requests.lookup id with
    | some (.planning token) => some { setRequest s id (.spawning token) with lock := none }
    | _ => none
  | .blocked id =>
    match s.requests.lookup id with
    | some (.planning token) => some { setRequest s id (.afterBlock token) with lock := none }
    | _ => none
  -- Crashed instances, or the victims of the plan, leave the map.
  | .evict id =>
    match s.requests.lookup id with
    | some (.passed token) | some (.planning token) =>
      some { setRequest s id (.retiring token) with lock := none }
    | _ => none
  | .reaped id =>
    match s.requests.lookup id with
    | some (.retiring token) => some (setRequest s id (.trying token))
    | _ => none
  -- The accounting changed under the plan.
  | .replan id =>
    match s.requests.lookup id with
    | some (.planning token) => some { setRequest s id (.trying token) with lock := none }
    | _ => none
  | _ => none

/-- After the attempt: the spawn, the token, and the slot. `src/node_state/mod.rs:1984–2192`. -/
def serveStep (s : State) : Label → Option State
  | .spawned id inst draining =>
    match s.requests.lookup id with
    | some (.spawning token) =>
      guarded (inst ∉ s.instances)
        { setRequest s id (.serving token inst) with
          instances := s.instances.insert inst ⟨1, .starting, draining, true⟩ }
    | _ => none
  | .spawnBlocked id =>
    match s.requests.lookup id with
    | some (.spawning token) => some (setRequest s id (.afterBlock token))
    | _ => none
  | .giveBack id =>
    match s.requests.lookup id with
    | some (.serving true inst) =>
      some { setRequest s id (.serving false inst) with pending := remove s.pending id }
    | some .returning =>
      some { setRequest s id (.joining true true) with pending := remove s.pending id }
    | _ => none
  | .finish id waker afterLoad =>
    match s.requests.lookup id with
    | some (.serving token inst) =>
      guarded (waker ∉ s.wakers)
        { endRequest s id with
          wakers := s.wakers.insert waker { pc := .releasing inst afterLoad, budget := 0 }
          tokenRemovers := if token then id :: s.tokenRemovers else s.tokenRemovers }
    | _ => none
  | .retry id waker =>
    match s.requests.lookup id with
    | some (.serving false inst) =>
      guarded (waker ∉ s.wakers)
        { setRequest s id .checking with
          wakers := s.wakers.insert waker { pc := .releasing inst true, budget := 0 } }
    | _ => none
  | .park id waker =>
    match s.requests.lookup id with
    | some (.serving false inst) =>
      guarded (waker ∉ s.wakers)
        { setRequest s id .parked with
          wakers := s.wakers.insert waker { pc := .releasing inst true, budget := 0 } }
    | _ => none
  | .unpark id =>
    match s.requests.lookup id with
    | some .parked => some (setRequest s id .checking)
    | _ => none
  -- The profile is gone after a reload: the wake is passed on.
  | .dropProfile id waker =>
    match s.requests.lookup id with
    | some .checking =>
      guarded (waker ∉ s.wakers)
        { endRequest s id with
          wakers := s.wakers.insert waker { pc := .popping, budget := 1 } }
    | some (.trying token) =>
      guarded (waker ∉ s.wakers)
        { endRequest s id with
          pending := if token then remove s.pending id else s.pending
          wakers := s.wakers.insert waker { pc := .popping, budget := 1 } }
    | _ => none
  | _ => none

/-- A delivered permit uses up one wake; the last one ends the task. -/
def afterDelivery (s : State) (w : Nat) (waker : Waker) : State :=
  if waker.all then setWaker s w { waker with pc := .popping }
  else if waker.budget ≤ 1 then { s with wakers := s.wakers.erase w }
  else setWaker s w { waker with pc := .popping, budget := waker.budget - 1 }

/-- The waking tasks. `src/node_state/mod.rs:545–585,3126–3165,3805–3856`. -/
def wakerStep (maxConcurrent : Nat) (s : State) : Label → Option State
  | .startWaker w cancellable =>
    guarded (w ∉ s.wakers) (setWaker s w ⟨.popping, 1, false, cancellable⟩)
  | .releaseSlot w =>
    match s.wakers.lookup w with
    | some ⟨.releasing inst afterLoad, _, _, _⟩ =>
      guarded (afterLoad = true →
          (s.instances.lookup inst).map (fun i => i.status) ≠ some .starting)
        { setWaker s w { pc := .popping, budget := 1 } with
          instances := s.instances.modify inst fun i => { i with inFlight := i.inFlight - 1 } }
    | _ => none
  | .readSpare w =>
    match s.wakers.lookup w with
    | some ⟨.readied inst, _, _, _⟩ =>
      -- `notify_all_queues` wakes one, and the loop as many as there are spare slots.
      some (setWaker s w
        { pc := .popping
          budget := spareSlots maxConcurrent s.instances inst + 1
          all := maxConcurrent == 0 })
    | _ => none
  | .wake w =>
    match s.wakers.lookup w with
    | some waker =>
      match waker.pc with
      | .popping =>
        match s.queue with
        | [] => some { s with wakers := s.wakers.erase w }
        | id :: rest => some { setWaker s w { waker with pc := .popped id } with queue := rest }
      | .popped id =>
        some { setWaker s w { waker with pc := .promoted id } with
          pending := promote s.pending id }
      | .promoted id =>
        match s.requests.lookup id with
        | some (.queued .silent recheck) =>
          some (afterDelivery (setRequest s id (.queued .permit recheck)) w waker)
        | _ => some (setWaker s w { waker with pc := .refused id })
      | .refused id =>
        some { setWaker s w { waker with pc := .popping } with pending := remove s.pending id }
      | .releasing _ _ | .readied _ => none
    | none => none
  -- A dropped waker drops the sender of the entry it has taken, or the permit it got back. There is
  -- no await between the promotion and the send.
  | .cancelWaker w =>
    match s.wakers.lookup w with
    | some waker =>
      guarded (waker.cancellable = true ∧ waker.pc.isPromoted = false)
        (let s := { s with wakers := s.wakers.erase w }
        match waker.pc with
        | .popped id =>
          match s.requests.lookup id with
          | some (.queued .silent recheck) => setRequest s id (.queued .closed recheck)
          | _ => s
        | .refused id => { s with tokenRemovers := id :: s.tokenRemovers }
        | _ => s)
    | none => none
  | _ => none

/-- The instances. -/
def instanceStep (s : State) : Label → Option State
  | .prewarmed inst =>
    guarded (inst ∉ s.instances)
      { s with instances := s.instances.insert inst ⟨0, .starting, false, true⟩ }
  | .becomeReady inst w =>
    match s.instances.lookup inst with
    | some i =>
      guarded (i.status = .starting ∧ w ∉ s.wakers)
        { setWaker s w { pc := .readied inst, budget := 0 } with
          instances := s.instances.insert inst { i with status := .ready } }
    | none => none
  | .failLoad inst =>
    match s.instances.lookup inst with
    | some i =>
      guarded (i.status = .starting)
        { s with instances := s.instances.insert inst { i with status := .failed } }
    | none => none
  | .drain inst =>
    some { s with instances := s.instances.modify inst fun i => { i with draining := true } }
  | .cancelDrain inst w =>
    guarded (w ∉ s.wakers)
      { setWaker s w { pc := .popping, budget := 1 } with
        instances := s.instances.modify inst fun i => { i with draining := false } }
  | .die inst =>
    some { s with instances := s.instances.modify inst fun i => { i with alive := false } }
  | .retire inst => some { s with instances := s.instances.erase inst }
  | _ => none

/-- One piece of one task. -/
def step (maxConcurrent : Nat) (s : State) (l : Label) : Option State :=
  match l with
  | .arrive | .checkQueue _ | .checkPending _ | .settle _ _ | .enqueue _ | .readAvailable _
  | .readPending _ _ | .receive _ | .leave _ | .removeEntry _ | .removeToken _ =>
    queueStep maxConcurrent s l
  | .lock _ | .recheckQueue _ | .recheckPending _ | .beginScan _ _ | .scan _ | .choose _
  | .admitted _ | .blocked _ | .evict _ | .reaped _ | .replan _ => attemptStep maxConcurrent s l
  | .spawned _ _ _ | .spawnBlocked _ | .giveBack _ | .finish _ _ _ | .retry _ _ | .park _ _
  | .unpark _ | .dropProfile _ _ => serveStep s l
  | .startWaker _ _ | .releaseSlot _ | .readSpare _ | .wake _ | .cancelWaker _ =>
    wakerStep maxConcurrent s l
  | .prewarmed _ | .becomeReady _ _ | .failLoad _ | .drain _ | .cancelDrain _ _ | .die _
  | .retire _ => instanceStep s l

end Llamesh.Waiters
