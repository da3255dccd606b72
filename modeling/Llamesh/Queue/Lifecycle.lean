import Llamesh.Library.Run
import Llamesh.Queue.Store

/-!
# Waiters, wakers and cleanup tasks

The life of a queue entry: a request joins the queue of its key at either enqueue site of
`get_instance_for_model` (`src/node_state/mod.rs:1837–1953,2200–2344`), waits for a permit in its
channel, and may time out, fail or be dropped at any await; `notify_queue_by_key`
(`src/node_state/mod.rs:3805–3838`) takes the front entry, promotes its token and sends the permit,
and may be dropped too. The drop of a guard or of a permit spawns a task that removes what is left
(`src/node_state/mod.rs:275–303,373–397`).

A label is the code from one await of a task to its next. The queues lock and the pending-tokens
lock are taken one after the other, never together, so other tasks run in between. The counter of
tokens is a `u64` that does not wrap in practice.
-/

namespace Llamesh.Queue

open Transition

universe u

/-- How far a waiting request is. The guard of its entry is armed while it waits and while it
removes the entry itself. `rxOpen` says that it still has its receiver: a timer that runs out drops
it, a deadline that has already passed leaves it to the end of the function
(`src/node_state/mod.rs:1913–1935,2300–2325`). -/
inductive Phase where
  | waiting
  | expiring (rxOpen : Bool)
  | expired (rxOpen : Bool)
  | holding
  | gone
  deriving DecidableEq, Repr

namespace Phase

/-- The receiver exists. -/
def receiving : Phase → Bool
  | waiting => true
  | expiring rxOpen | expired rxOpen => rxOpen
  | holding | gone => false

/-- The `QueueEntryGuard` is armed. -/
def armed : Phase → Bool
  | waiting | expiring _ => true
  | expired _ | holding | gone => false

end Phase

/-- The request behind a token, and whether a permit is in its channel. -/
structure Waiter (κ : Type u) where
  key : κ
  phase : Phase := .waiting
  permit : Bool := false
  deriving DecidableEq, Repr

/-- How far a `notify_queue_by_key` is. -/
inductive Waker (κ : Type u) where
  | taking (key : κ)
  | popped (key : κ) (token : Nat)
  | promoted (key : κ) (token : Nat)
  | refused (key : κ) (token : Nat)
  deriving DecidableEq, Repr

/-- The queues, the pending tokens with their gauge, the tasks, and the order in which entries were
queued, taken and promoted. -/
structure State (κ : Type u) where
  queues : Queues κ
  pending : Pending κ
  pendingTokens : Nat
  tokenCounter : Nat
  waiters : Table Nat (Waiter κ)
  wakers : Table Nat (Waker κ)
  entryRemovers : List (κ × Nat)
  tokenRemovers : List (κ × Nat)
  enqueued : List (κ × Nat)
  taken : List (κ × Nat)
  promoted : List (κ × Nat)

/-- The steps of all tasks. -/
inductive Label (κ : Type u) where
  | enqueue (key : κ)
  | receive (token : Nat)
  | timeout (token : Nat)
  | deadlinePassed (token : Nat)
  | senderGone (token : Nat)
  | removeEntry (token : Nat)
  | removeToken (token : Nat)
  | release (token : Nat)
  | cancel (token : Nat)
  | wake (waker : Nat) (key : κ)
  | pop (waker : Nat)
  | promote (waker : Nat)
  | send (waker : Nat)
  | releaseRefused (waker : Nat)
  | cancelWaker (waker : Nat)
  | runEntryRemover (key : κ) (token : Nat)
  | runTokenRemover (key : κ) (token : Nat)
  deriving DecidableEq, Repr

variable {κ : Type u}

/-- Startup. -/
def State.init : State κ := ⟨∅, ∅, 0, 0, ∅, ∅, [], [], [], [], []⟩

variable [DecidableEq κ]

namespace State

/-- `entry.tx.is_closed()`. -/
def closed (s : State κ) (token : Nat) : Bool :=
  match s.waiters.lookup token with
  | some w => !w.phase.receiving
  | none => true

/-- A sender for the waiter exists: in its queue, or with the waker that took the entry. -/
def hasSender (s : State κ) (key : κ) (token : Nat) : Bool :=
  (queueOf s.queues key).contains token ||
    s.wakers.entries.any fun e => e.2 == .popped key token || e.2 == .promoted key token

/-- `remove_pending_token_from`; the gauge does not go below zero.
`src/node_state/mod.rs:399–418`, `src/metrics.rs:599–611`. -/
def removeToken (s : State κ) (key : κ) (token : Nat) : State κ :=
  { s with
    pending := removePendingToken s.pending key token
    pendingTokens :=
      if token ∈ queueOf s.pending key then s.pendingTokens - 1 else s.pendingTokens }

/-- `promote_pending_token`. `src/node_state/mod.rs:3840–3848`. -/
def promoteToken (s : State κ) (key : κ) (token : Nat) : State κ :=
  { s with
    pending := Queue.promote s.pending key token
    pendingTokens :=
      if token ∈ queueOf s.pending key then s.pendingTokens else s.pendingTokens + 1
    promoted := s.promoted ++ [(key, token)] }

/-- Replace a waiter. -/
def setWaiter (s : State κ) (token : Nat) (w : Waiter κ) : State κ :=
  { s with waiters := s.waiters.insert token w }

/-- Replace a waker. -/
def setWaker (s : State κ) (waker : Nat) (pc : Waker κ) : State κ :=
  { s with wakers := s.wakers.insert waker pc }

/-- A waker that returned or was dropped. -/
def endWaker (s : State κ) (waker : Nat) : State κ := { s with wakers := s.wakers.erase waker }

/-- The drop of an armed `QueueEntryGuard`. -/
def spawnEntryRemover (s : State κ) (spawns : Bool) (key : κ) (token : Nat) : State κ :=
  if spawns then { s with entryRemovers := (key, token) :: s.entryRemovers } else s

/-- The drop of a `PendingQueuePermit` that was not released. -/
def spawnTokenRemover (s : State κ) (spawns : Bool) (key : κ) (token : Nat) : State κ :=
  if spawns then { s with tokenRemovers := (key, token) :: s.tokenRemovers } else s

end State

/-- The receiver of a waiter is dropped, and with it a permit in the channel. -/
def dropReceiver (s : State κ) (token : Nat) (w : Waiter κ) (phase : Phase) : State κ :=
  (s.setWaiter token { w with phase, permit := false }).spawnTokenRemover w.permit w.key token

/-- The steps of a waiting request. -/
def waiterStep (s : State κ) (token : Nat) (w : Waiter κ) : Label κ → Option (State κ)
  | .receive _ =>
    -- The guard is disarmed in the same poll.
    guarded (w.phase = .waiting ∧ w.permit = true)
      (s.setWaiter token { w with phase := .holding, permit := false })
  | .timeout _ =>
    guarded (w.phase = .waiting) (dropReceiver s token w (.expiring false))
  | .deadlinePassed _ =>
    guarded (w.phase = .waiting) (s.setWaiter token { w with phase := .expiring true })
  | .senderGone _ =>
    guarded (w.phase = .waiting ∧ w.permit = false ∧ s.hasSender w.key token = false)
      (s.setWaiter token { w with phase := .expiring false })
  | .removeEntry _ =>
    match w.phase with
    | .expiring rxOpen =>
      some { s.setWaiter token { w with phase := .expired rxOpen } with
        queues := removeQueueEntry s.queues w.key token }
    | _ => none
  | .removeToken _ =>
    match w.phase with
    | .expired _ => some (dropReceiver (s.removeToken w.key token) token w .gone)
    | _ => none
  | .release _ =>
    guarded (w.phase = .holding)
      ((s.removeToken w.key token).setWaiter token { w with phase := .gone })
  | .cancel _ =>
    guarded (w.phase ≠ .gone)
      (((dropReceiver s token w .gone).spawnEntryRemover w.phase.armed w.key token)
        |>.spawnTokenRemover (w.phase == .holding) w.key token)
  | _ => none

/-- The steps of a waker. -/
def wakerStep (s : State κ) (waker : Nat) : Waker κ → Label κ → Option (State κ)
  | .taking key, .pop _ =>
    match popFront s.queues key with
    | (some token, rest) =>
      some { s.setWaker waker (.popped key token) with
        queues := rest, taken := s.taken ++ [(key, token)] }
    | (none, rest) => some { s.endWaker waker with queues := rest }
  | .popped key token, .promote _ =>
    some ((s.promoteToken key token).setWaker waker (.promoted key token))
  | .promoted key token, .send _ =>
    match s.waiters.lookup token with
    | some w =>
      if w.phase.receiving then
        some ((s.setWaiter token { w with permit := true }).endWaker waker)
      else some (s.setWaker waker (.refused key token))
    | none => some (s.setWaker waker (.refused key token))
  | .refused key token, .releaseRefused _ =>
    some ((s.removeToken key token).setWaker waker (.taking key))
  | .taking _, .cancelWaker _ => some (s.endWaker waker)
  | .popped _ _, .cancelWaker _ => some (s.endWaker waker)
  | .refused key token, .cancelWaker _ =>
    some ((s.endWaker waker).spawnTokenRemover true key token)
  | _, _ => none

variable (limits : QueueLimits κ)

/-- A request joins the queue, or is refused by a limit. -/
def enqueueStep (s : State κ) (key : κ) : State κ :=
  match enqueue limits s.closed s.queues key s.tokenCounter with
  | (.ok (), queues) =>
    { s.setWaiter s.tokenCounter { key } with
      queues, tokenCounter := s.tokenCounter + 1
      enqueued := s.enqueued ++ [(key, s.tokenCounter)] }
  | (.error _, queues) => { s with queues }

/-- One step. -/
def step (s : State κ) (l : Label κ) : Option (State κ) :=
  match l with
  | .enqueue key => some (enqueueStep limits s key)
  | .receive token | .timeout token | .deadlinePassed token | .senderGone token
  | .removeEntry token | .removeToken token | .release token | .cancel token =>
    (s.waiters.lookup token).bind fun w => waiterStep s token w l
  | .wake waker key => guarded (waker ∉ s.wakers) (s.setWaker waker (.taking key))
  | .pop waker | .promote waker | .send waker | .releaseRefused waker | .cancelWaker waker =>
    (s.wakers.lookup waker).bind fun pc => wakerStep s waker pc l
  | .runEntryRemover key token =>
    guarded ((key, token) ∈ s.entryRemovers)
      { s with
        queues := removeQueueEntry s.queues key token
        entryRemovers := s.entryRemovers.erase (key, token) }
  | .runTokenRemover key token =>
    guarded ((key, token) ∈ s.tokenRemovers)
      { s.removeToken key token with tokenRemovers := s.tokenRemovers.erase (key, token) }

variable {limits} {s t : State κ} {l : Label κ}

/-- The task a step belongs to. -/
theorem step_cases (h : step limits s l = some t) :
    (∃ key, t = enqueueStep limits s key) ∨
    (∃ token w, s.waiters.lookup token = some w ∧ waiterStep s token w l = some t) ∨
    (∃ waker key, waker ∉ s.wakers ∧ t = s.setWaker waker (.taking key)) ∨
    (∃ waker pc, s.wakers.lookup waker = some pc ∧ wakerStep s waker pc l = some t) ∨
    (∃ key token, (key, token) ∈ s.entryRemovers ∧
      t = { s with
        queues := removeQueueEntry s.queues key token
        entryRemovers := s.entryRemovers.erase (key, token) }) ∨
    (∃ key token, (key, token) ∈ s.tokenRemovers ∧
      t = { s.removeToken key token with
        tokenRemovers := s.tokenRemovers.erase (key, token) }) := by
  have hwaiter : ∀ token, (s.waiters.lookup token).bind (fun w => waiterStep s token w l) = some t →
      ∃ token w, s.waiters.lookup token = some w ∧ waiterStep s token w l = some t := by
    intro token h
    obtain ⟨w, hw, h⟩ := Option.bind_eq_some_iff.mp h
    exact ⟨token, w, hw, h⟩
  have hwaker : ∀ waker, (s.wakers.lookup waker).bind (fun pc => wakerStep s waker pc l) = some t →
      ∃ waker pc, s.wakers.lookup waker = some pc ∧ wakerStep s waker pc l = some t := by
    intro waker h
    obtain ⟨pc, hpc, h⟩ := Option.bind_eq_some_iff.mp h
    exact ⟨waker, pc, hpc, h⟩
  cases l with
  | enqueue key => exact .inl ⟨key, (Option.some.inj h).symm⟩
  | receive token => exact .inr (.inl (hwaiter token h))
  | timeout token => exact .inr (.inl (hwaiter token h))
  | deadlinePassed token => exact .inr (.inl (hwaiter token h))
  | senderGone token => exact .inr (.inl (hwaiter token h))
  | removeEntry token => exact .inr (.inl (hwaiter token h))
  | removeToken token => exact .inr (.inl (hwaiter token h))
  | release token => exact .inr (.inl (hwaiter token h))
  | cancel token => exact .inr (.inl (hwaiter token h))
  | wake waker key =>
    obtain ⟨hnew, rfl⟩ := guarded_eq_some.mp h
    exact .inr (.inr (.inl ⟨waker, key, hnew, rfl⟩))
  | pop waker => exact .inr (.inr (.inr (.inl (hwaker waker h))))
  | promote waker => exact .inr (.inr (.inr (.inl (hwaker waker h))))
  | send waker => exact .inr (.inr (.inr (.inl (hwaker waker h))))
  | releaseRefused waker => exact .inr (.inr (.inr (.inl (hwaker waker h))))
  | cancelWaker waker => exact .inr (.inr (.inr (.inl (hwaker waker h))))
  | runEntryRemover key token =>
    obtain ⟨hmem, rfl⟩ := guarded_eq_some.mp h
    exact .inr (.inr (.inr (.inr (.inl ⟨key, token, hmem, rfl⟩))))
  | runTokenRemover key token =>
    obtain ⟨hmem, rfl⟩ := guarded_eq_some.mp h
    exact .inr (.inr (.inr (.inr (.inr ⟨key, token, hmem, rfl⟩))))

end Llamesh.Queue
