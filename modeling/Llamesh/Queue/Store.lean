import Llamesh.Library.Table

/-!
# Request queues and pending tokens

The queues lock guards a FIFO of waiters for each `model:profile` key, and the
pending-tokens lock the tokens of waiters that were woken and are not served yet
(`src/node_state/mod.rs:305–330,399–420,3805–3856`). An entry is named by its token,
which `pending_token_counter` makes unique. Keys without a waiter have no queue.
-/

namespace Llamesh.Queue

universe u

variable {κ : Type u} [DecidableEq κ]

/-- The queues, oldest waiter first. -/
abbrev Queues (κ : Type u) := Table κ (List Nat)

/-- The promoted tokens of each key. -/
abbrev Pending (κ : Type u) := Table κ (List Nat)

/-- The waiters of a key. -/
def queueOf (queues : Queues κ) (key : κ) : List Nat := (queues.lookup key).getD []

/-- Store the waiters of a key; an empty queue is removed. -/
def setQueue (queues : Queues κ) (key : κ) (queue : List Nat) : Queues κ :=
  if queue.isEmpty then queues.erase key else queues.insert key queue

/-- Take the front waiter of a key. `src/node_state/mod.rs:3807–3818`. -/
def popFront (queues : Queues κ) (key : κ) : Option Nat × Queues κ :=
  match queueOf queues key with
  | [] => (none, setQueue queues key [])
  | token :: rest => (some token, setQueue queues key rest)

/-- Remove a waiter that left. `src/node_state/mod.rs:305–330`. -/
def removeQueueEntry (queues : Queues κ) (key : κ) (token : Nat) : Queues κ :=
  setQueue queues key ((queueOf queues key).filter fun t => decide (t ≠ token))

/-- The limits an enqueue reads: `max_total_queue_entries` and the profile's
`effective_max_queue_size`; zero is unlimited. -/
structure QueueLimits (κ : Type u) where
  maxTotal : Nat
  maxQueue : κ → Nat

/-- Queue limits that reject a request. -/
inductive QueueFull where
  | globalLimit
  | full
  deriving DecidableEq, Repr

/-- Join the queue of a key: the global limit, the removal of closed entries, the limit of the
queue, and the push. `src/node_state/mod.rs:1858–1890,2217–2250`. -/
def enqueue (limits : QueueLimits κ) (closed : Nat → Bool) (queues : Queues κ) (key : κ)
    (token : Nat) : Except QueueFull Unit × Queues κ :=
  if limits.maxTotal > 0 ∧ Table.sum queues (fun _ q => q.length) ≥ limits.maxTotal then
    (.error .globalLimit, queues)
  else
    let queue := (queueOf queues key).filter fun t => !closed t
    if limits.maxQueue key > 0 ∧ queue.length ≥ limits.maxQueue key then
      (.error .full, setQueue queues key queue)
    else (.ok (), setQueue queues key (queue ++ [token]))

/-- Promote a woken waiter's token. `src/node_state/mod.rs:3840–3856`. -/
def promote (pending : Pending κ) (key : κ) (token : Nat) : Pending κ :=
  if token ∈ queueOf pending key then pending
  else setQueue pending key (queueOf pending key ++ [token])

/-- Give a token back. `src/node_state/mod.rs:399–420`. -/
def removePendingToken (pending : Pending κ) (key : κ) (token : Nat) : Pending κ :=
  removeQueueEntry pending key token

/-- A store without queues has empty ones. -/
@[simp] theorem queueOf_empty (key : κ) : queueOf (∅ : Queues κ) key = [] := rfl

/-- The waiters of a key after another queue is stored. -/
theorem queueOf_setQueue (queues : Queues κ) (key k : κ) (queue : List Nat) :
    queueOf (setQueue queues key queue) k = if k = key then queue else queueOf queues k := by
  unfold setQueue queueOf
  split
  · next he =>
    rw [Table.lookup_erase_eq]
    by_cases h : k = key
    · rw [if_pos h, if_pos h, List.isEmpty_iff.mp he]
      rfl
    · rw [if_neg h, if_neg h]
  · rw [Table.lookup_insert_eq]
    by_cases h : k = key
    · rw [if_pos h, if_pos h]
      rfl
    · rw [if_neg h, if_neg h]

/-- Taking the front waiter leaves the rest. -/
theorem popFront_some {queues : Queues κ} {key : κ} {token : Nat} {rest : Queues κ}
    (h : popFront queues key = (some token, rest)) :
    queueOf queues key = token :: queueOf rest key ∧
      ∀ k, k ≠ key → queueOf rest k = queueOf queues k := by
  unfold popFront at h
  split at h
  · cases h
  · next t ts hq =>
    obtain ⟨ht, rfl⟩ := Prod.mk.inj h
    obtain rfl := Option.some.inj ht
    refine ⟨by rw [queueOf_setQueue, if_pos rfl, hq], fun k hk => ?_⟩
    rw [queueOf_setQueue, if_neg hk]

/-- Nothing is taken only from an empty queue. -/
theorem popFront_none {queues : Queues κ} {key : κ} {rest : Queues κ}
    (h : popFront queues key = (none, rest)) :
    queueOf queues key = [] ∧ ∀ k, queueOf rest k = queueOf queues k := by
  unfold popFront at h
  split at h
  · next hq =>
    obtain ⟨-, rfl⟩ := Prod.mk.inj h
    refine ⟨hq, fun k => ?_⟩
    rw [queueOf_setQueue]
    by_cases hk : k = key
    · rw [if_pos hk, hk, hq]
    · rw [if_neg hk]
  · cases h

/-- Removing an entry touches only its queue. -/
theorem queueOf_removeQueueEntry (queues : Queues κ) (key k : κ) (token : Nat) :
    queueOf (removeQueueEntry queues key token) k =
      if k = key then (queueOf queues key).filter (fun t => decide (t ≠ token))
      else queueOf queues k := queueOf_setQueue ..

/-- A waiter that stays in its queue when another one is removed. -/
theorem mem_removeQueueEntry {queues : Queues κ} {key k : κ} {token t : Nat}
    (h : t ∈ queueOf (removeQueueEntry queues key token) k) : t ∈ queueOf queues k := by
  rw [queueOf_removeQueueEntry] at h
  by_cases hk : k = key
  · rw [if_pos hk] at h
    rw [hk]
    exact (List.mem_filter.mp h).1
  · rw [if_neg hk] at h
    exact h

/-- The other tokens stay in their queues. -/
theorem mem_removeQueueEntry_of_ne {queues : Queues κ} {key k : κ} {token t : Nat}
    (h : t ∈ queueOf queues k) (hne : t ≠ token) :
    t ∈ queueOf (removeQueueEntry queues key token) k := by
  rw [queueOf_removeQueueEntry]
  by_cases hk : k = key
  · rw [if_pos hk]
    rw [hk] at h
    exact List.mem_filter.mpr ⟨h, by simpa using hne⟩
  · rw [if_neg hk]
    exact h

/-- The outcomes of an enqueue: refused, refused after removing closed entries, or accepted. -/
theorem enqueue_cases {limits : QueueLimits κ} {closed : Nat → Bool} {queues rest : Queues κ}
    {key : κ} {token : Nat} {r : Except QueueFull Unit}
    (h : enqueue limits closed queues key token = (r, rest)) :
    (r = .error .globalLimit ∧ rest = queues) ∨
    (r = .error .full ∧
      rest = setQueue queues key ((queueOf queues key).filter fun t => !closed t)) ∨
    (r = .ok () ∧
      rest = setQueue queues key
        (((queueOf queues key).filter fun t => !closed t) ++ [token])) := by
  unfold enqueue at h
  simp only at h
  split at h
  · obtain ⟨rfl, rfl⟩ := Prod.mk.inj h
    exact .inl ⟨rfl, rfl⟩
  · split at h
    · obtain ⟨rfl, rfl⟩ := Prod.mk.inj h
      exact .inr (.inl ⟨rfl, rfl⟩)
    · obtain ⟨rfl, rfl⟩ := Prod.mk.inj h
      exact .inr (.inr ⟨rfl, rfl⟩)

/-- An open waiter stays in its queue. -/
theorem mem_enqueue_of_open {limits : QueueLimits κ} {closed : Nat → Bool}
    {queues rest : Queues κ} {key k : κ} {token t : Nat} {r : Except QueueFull Unit}
    (h : enqueue limits closed queues key token = (r, rest)) (ht : t ∈ queueOf queues k)
    (hopen : closed t = false) : t ∈ queueOf rest k := by
  have hfilter : k = key → t ∈ (queueOf queues key).filter fun t => !closed t := by
    intro hk
    rw [hk] at ht
    exact List.mem_filter.mpr ⟨ht, by simp [hopen]⟩
  rcases enqueue_cases h with ⟨-, rfl⟩ | ⟨-, rfl⟩ | ⟨-, rfl⟩
  · exact ht
  · rw [queueOf_setQueue]
    split
    · next hk => exact hfilter hk
    · exact ht
  · rw [queueOf_setQueue]
    split
    · next hk => exact List.mem_append_left _ (hfilter hk)
    · exact ht

/-- An accepted waiter is in the queue. -/
theorem mem_enqueue {limits : QueueLimits κ} {closed : Nat → Bool} {queues rest : Queues κ}
    {key : κ} {token : Nat} (h : enqueue limits closed queues key token = (.ok (), rest)) :
    token ∈ queueOf rest key := by
  rcases enqueue_cases h with ⟨hr, -⟩ | ⟨hr, -⟩ | ⟨-, rfl⟩
  · cases hr
  · cases hr
  · rw [queueOf_setQueue, if_pos rfl]
    simp

end Llamesh.Queue
