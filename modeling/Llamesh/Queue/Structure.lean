import Llamesh.Queue.Lifecycle
import Mathlib.Data.List.Sublists

/-!
# The structure of the queues

Over every run a token is in at most one place, the queues keep within their limits, no empty queue
or set is stored, and the entries of a key leave its queue in the order in which they joined it.
Two wakers that took an entry each may promote them in either order: the queues lock is released
before the pending-tokens lock is taken (`src/node_state/mod.rs:3808,3842`).
-/

namespace Llamesh.Queue

open Transition

universe u

variable {κ : Type u}

/-! ### Entries between a queue and the pending tokens -/

/-- A waker has taken this entry and has not promoted it. -/
def Waker.carries (token : Nat) : Waker κ → Bool
  | .popped _ t => t == token
  | .taking _ | .promoted _ _ | .refused _ _ => false

private theorem carries_popped (key : κ) (token t : Nat) :
    ((Waker.popped key token).carries t).toNat = if token = t then 1 else 0 := by
  simp only [Waker.carries]
  by_cases h : token = t <;> simp [h]

/-- How many wakers carry a token. -/
def State.carried (s : State κ) (token : Nat) : Nat := Table.count s.wakers (Waker.carries token)

/-- No waker has taken anything new. -/
structure Fewer (wakers wakers' : Table Nat (Waker κ)) : Prop where
  count : ∀ token, Table.count wakers' (Waker.carries token) ≤
    Table.count wakers (Waker.carries token)
  popped : ∀ waker key token, wakers'.lookup waker = some (.popped key token) →
    wakers.lookup waker = some (.popped key token)

/-- No waker is gone. -/
theorem Fewer.refl (wakers : Table Nat (Waker κ)) : Fewer wakers wakers :=
  ⟨fun _ => Nat.le_refl _, fun _ _ _ h => h⟩

private theorem fewer_insert {wakers : Table Nat (Waker κ)} {waker : Nat} {pc pc' : Waker κ}
    (h : wakers.lookup waker = some pc) (hpc : ∀ token, pc'.carries token = false)
    (hne : ∀ key token, pc' ≠ .popped key token) : Fewer wakers (wakers.insert waker pc') where
  count token := by
    have hcount := Table.count_insert_add h pc' (Waker.carries token)
    rw [hpc token, Bool.toNat_false] at hcount
    omega
  popped w key token hw := by
    rcases Table.lookup_insert_eq_some.mp hw with ⟨-, heq⟩ | ⟨-, hw⟩
    · exact absurd heq (hne key token)
    · exact hw

private theorem fewer_insert_new {wakers : Table Nat (Waker κ)} {waker : Nat}
    (h : waker ∉ wakers) (key : κ) : Fewer wakers (wakers.insert waker (.taking key)) where
  count token := by
    rw [Table.count_insert_of_notMem h]
    simp [Waker.carries]
  popped w key' token hw := by
    rcases Table.lookup_insert_eq_some.mp hw with ⟨-, heq⟩ | ⟨-, hw⟩
    · cases heq
    · exact hw

private theorem fewer_erase {wakers : Table Nat (Waker κ)} {waker : Nat} {pc : Waker κ}
    (h : wakers.lookup waker = some pc) : Fewer wakers (wakers.erase waker) where
  count token := by
    have hcount := Table.count_erase_add h (Waker.carries token)
    omega
  popped w key token hw := (Table.lookup_erase_eq_some.mp hw).2

/-- What the moves of a token read and write. -/
structure Core (κ : Type u) where
  queues : Queues κ
  pending : Pending κ
  wakers : Table Nat (Waker κ)
  tokenCounter : Nat
  enqueued : List (κ × Nat)
  taken : List (κ × Nat)
  promoted : List (κ × Nat)

/-- That part of a state. -/
def State.core (s : State κ) : Core κ :=
  ⟨s.queues, s.pending, s.wakers, s.tokenCounter, s.enqueued, s.taken, s.promoted⟩

/-- A request that moves leaves the queues. -/
@[simp] theorem core_setWaiter (s : State κ) (token : Nat) (w : Waiter κ) :
    (s.setWaiter token w).core = s.core := rfl

/-- A new remover of an entry leaves the queues. -/
@[simp] theorem core_spawnEntryRemover (s : State κ) (spawns : Bool) (key : κ) (token : Nat) :
    (s.spawnEntryRemover spawns key token).core = s.core := by
  unfold State.spawnEntryRemover
  split <;> rfl

/-- A new remover of a token leaves the queues. -/
@[simp] theorem core_spawnTokenRemover (s : State κ) (spawns : Bool) (key : κ) (token : Nat) :
    (s.spawnTokenRemover spawns key token).core = s.core := by
  unfold State.spawnTokenRemover
  split <;> rfl

/-- A dropped receiver leaves the queues. -/
@[simp] theorem core_dropReceiver (s : State κ) (token : Nat) (w : Waiter κ) (phase : Phase) :
    (dropReceiver s token w phase).core = s.core := by
  simp [dropReceiver]

variable [DecidableEq κ] {limits : QueueLimits κ} {s t : State κ} {l : Label κ} {key k : κ}
  {token : Nat}

/-! ### Sums over the queues -/

/-- Storing a queue replaces its weight. -/
theorem sum_setQueue (queues : Queues κ) (key : κ) (queue : List Nat) {f : κ → List Nat → Nat}
    (hf : f key [] = 0) :
    Table.sum (setQueue queues key queue) f + f key (queueOf queues key) =
      Table.sum queues f + f key queue := by
  unfold setQueue queueOf
  cases hk : queues.lookup key with
  | none =>
    have hnew : key ∉ queues := AList.lookup_eq_none.mp hk
    rw [Option.getD_none, hf]
    split
    · next he =>
      rw [Table.erase_of_notMem hnew, List.isEmpty_iff.mp he, hf]
    · rw [Table.sum_insert_of_notMem hnew]
      omega
  | some old =>
    rw [Option.getD_some]
    split
    · next he =>
      rw [List.isEmpty_iff.mp he, hf]
      exact Table.sum_erase_add hk f
    · exact Table.sum_insert_add hk queue f

/-- Replacing a queue by a lighter one. -/
theorem sum_setQueue_le {queues : Queues κ} {queue : List Nat} {f : κ → List Nat → Nat}
    (hf : f key [] = 0) (hle : f key queue ≤ f key (queueOf queues key)) :
    Table.sum (setQueue queues key queue) f ≤ Table.sum queues f := by
  have hsum := sum_setQueue queues key queue hf
  omega

/-- How often a token is in some queue. -/
def occurrences (queues : Queues κ) (token : Nat) : Nat :=
  Table.sum queues fun _ queue => queue.count token

private theorem occurrences_setQueue (queues : Queues κ) (key : κ) (queue : List Nat)
    (token : Nat) :
    occurrences (setQueue queues key queue) token + (queueOf queues key).count token =
      occurrences queues token + queue.count token := by
  unfold occurrences
  exact sum_setQueue (f := fun _ queue => queue.count token) queues key queue List.count_nil

/-- A token of a queue occurs. -/
theorem count_le_occurrences (queues : Queues κ) (key : κ) (token : Nat) :
    (queueOf queues key).count token ≤ occurrences queues token := by
  unfold queueOf
  cases hk : queues.lookup key with
  | none => simp
  | some queue => exact Table.le_sum hk fun _ queue => queue.count token

/-! ### What a step moves -/

/-- What a step does to the queues, the pending tokens, the entries on their way between the two,
and the three orders. -/
inductive Flow (limits : QueueLimits κ) (s t : State κ) : Prop
  | still (hq : t.queues = s.queues) (hp : t.pending = s.pending)
      (hw : Fewer s.wakers t.wakers) (hc : t.tokenCounter = s.tokenCounter)
      (he : t.enqueued = s.enqueued) (ht : t.taken = s.taken) (hr : t.promoted = s.promoted)
  | join (key : κ)
      (hq : enqueue limits s.closed s.queues key s.tokenCounter = (.ok (), t.queues))
      (hp : t.pending = s.pending) (hw : t.wakers = s.wakers)
      (hc : t.tokenCounter = s.tokenCounter + 1)
      (he : t.enqueued = s.enqueued ++ [(key, s.tokenCounter)]) (ht : t.taken = s.taken)
      (hr : t.promoted = s.promoted)
  | leave (key : κ) (keep : Nat → Bool)
      (hq : t.queues = setQueue s.queues key ((queueOf s.queues key).filter keep))
      (hp : t.pending = s.pending) (hw : Fewer s.wakers t.wakers)
      (hc : t.tokenCounter = s.tokenCounter)
      (he : t.enqueued = s.enqueued) (ht : t.taken = s.taken) (hr : t.promoted = s.promoted)
  | giveBack (key : κ) (token : Nat) (hq : t.queues = s.queues)
      (hp : t.pending = removePendingToken s.pending key token) (hw : Fewer s.wakers t.wakers)
      (hc : t.tokenCounter = s.tokenCounter)
      (he : t.enqueued = s.enqueued) (ht : t.taken = s.taken) (hr : t.promoted = s.promoted)
  | pop (waker : Nat) (key : κ) (token : Nat)
      (hpc : s.wakers.lookup waker = some (.taking key))
      (hq : popFront s.queues key = (some token, t.queues)) (hp : t.pending = s.pending)
      (hw : t.wakers = s.wakers.insert waker (.popped key token))
      (hc : t.tokenCounter = s.tokenCounter)
      (he : t.enqueued = s.enqueued) (ht : t.taken = s.taken ++ [(key, token)])
      (hr : t.promoted = s.promoted)
  | promote (waker : Nat) (key : κ) (token : Nat)
      (hpc : s.wakers.lookup waker = some (.popped key token)) (hq : t.queues = s.queues)
      (hp : t.pending = Queue.promote s.pending key token)
      (hw : t.wakers = s.wakers.insert waker (.promoted key token))
      (hc : t.tokenCounter = s.tokenCounter)
      (he : t.enqueued = s.enqueued) (ht : t.taken = s.taken)
      (hr : t.promoted = s.promoted ++ [(key, token)])

private theorem Flow.of_core_eq {t' : State κ} (h : Flow limits s t) (hcore : t'.core = t.core) :
    Flow limits s t' := by
  have hq : t'.queues = t.queues := congrArg Core.queues hcore
  have hp : t'.pending = t.pending := congrArg Core.pending hcore
  have hw : t'.wakers = t.wakers := congrArg Core.wakers hcore
  have hc : t'.tokenCounter = t.tokenCounter := congrArg Core.tokenCounter hcore
  have he : t'.enqueued = t.enqueued := congrArg Core.enqueued hcore
  have ht : t'.taken = t.taken := congrArg Core.taken hcore
  have hr : t'.promoted = t.promoted := congrArg Core.promoted hcore
  cases h with
  | still =>
    apply Flow.still <;> simp_all only
  | join key =>
    apply Flow.join key <;> simp_all only
  | leave key keep =>
    apply Flow.leave key keep <;> simp_all only
  | giveBack key token =>
    apply Flow.giveBack key token <;> simp_all only
  | pop waker key token =>
    apply Flow.pop waker key token <;> simp_all only
  | promote waker key token =>
    apply Flow.promote waker key token <;> simp_all only

private theorem flow_of_core (h : t.core = s.core) : Flow limits s t :=
  Flow.of_core_eq (.still rfl rfl (.refl _) rfl rfl rfl rfl) h

private theorem flow_removeToken (s : State κ) (key : κ) (token : Nat) :
    Flow limits s (s.removeToken key token) :=
  .giveBack key token rfl rfl (.refl _) rfl rfl rfl rfl

private theorem flow_waiterStep {w : Waiter κ} (h : waiterStep s token w l = some t) :
    Flow limits s t := by
  unfold waiterStep at h
  split at h
  · obtain ⟨-, rfl⟩ := guarded_eq_some.mp h
    exact flow_of_core rfl
  · obtain ⟨-, rfl⟩ := guarded_eq_some.mp h
    exact flow_of_core (core_dropReceiver ..)
  · obtain ⟨-, rfl⟩ := guarded_eq_some.mp h
    exact flow_of_core rfl
  · obtain ⟨-, rfl⟩ := guarded_eq_some.mp h
    exact flow_of_core rfl
  · split at h
    · cases h
      exact .leave w.key (fun t => decide (t ≠ token)) rfl rfl (.refl _) rfl rfl rfl rfl
    · cases h
  · split at h
    · cases h
      exact (flow_removeToken s w.key token).of_core_eq (core_dropReceiver ..)
    · cases h
  · obtain ⟨-, rfl⟩ := guarded_eq_some.mp h
    exact (flow_removeToken s w.key token).of_core_eq rfl
  · obtain ⟨-, rfl⟩ := guarded_eq_some.mp h
    exact flow_of_core (by simp)
  · cases h

private theorem flow_wakerStep {waker : Nat} {pc : Waker κ} (hpc : s.wakers.lookup waker = some pc)
    (h : wakerStep s waker pc l = some t) : Flow limits s t := by
  unfold wakerStep at h
  split at h
  · next key _ =>
    split at h
    · next token rest hpop =>
      cases h
      exact .pop waker key token hpc hpop rfl rfl rfl rfl rfl rfl
    · next rest hpop =>
      cases h
      have hrest : rest = setQueue s.queues key ((queueOf s.queues key).filter fun _ => false) := by
        rw [List.filter_eq_nil_iff.mpr (by simp)]
        unfold popFront at hpop
        split at hpop
        · exact (Prod.mk.inj hpop).2.symm
        · cases hpop
      exact .leave key (fun _ => false) hrest rfl (fewer_erase hpc) rfl rfl rfl rfl
  · next key token _ =>
    cases h
    exact .promote waker key token hpc rfl rfl rfl rfl rfl rfl rfl
  · next key token _ =>
    have hrefused : Fewer s.wakers (s.wakers.insert waker (.refused key token)) :=
      fewer_insert hpc (fun _ => rfl) (fun _ _ heq => by cases heq)
    split at h
    · split at h
      · cases h
        exact .still rfl rfl (fewer_erase hpc) rfl rfl rfl rfl
      · cases h
        exact .still rfl rfl hrefused rfl rfl rfl rfl
    · cases h
      exact .still rfl rfl hrefused rfl rfl rfl rfl
  · next key token _ =>
    cases h
    refine .giveBack key token rfl rfl ?_ rfl rfl rfl rfl
    exact fewer_insert hpc (fun _ => rfl) (fun _ _ heq => by cases heq)
  · cases h
    exact .still rfl rfl (fewer_erase hpc) rfl rfl rfl rfl
  · cases h
    exact .still rfl rfl (fewer_erase hpc) rfl rfl rfl rfl
  · cases h
    exact .still rfl rfl (fewer_erase hpc) rfl rfl rfl rfl
  · cases h

private theorem flow_enqueueStep (s : State κ) (key : κ) :
    Flow limits s (enqueueStep limits s key) := by
  unfold enqueueStep
  split
  · next queues henqueue => exact .join key henqueue rfl rfl rfl rfl rfl rfl
  · next e queues henqueue =>
    rcases enqueue_cases henqueue with ⟨-, rfl⟩ | ⟨-, rfl⟩ | ⟨hok, -⟩
    · exact flow_of_core rfl
    · exact .leave key (fun t => !s.closed t) rfl rfl (.refl _) rfl rfl rfl rfl
    · cases hok

private theorem flow_step (h : step limits s l = some t) : Flow limits s t := by
  rcases step_cases h with ⟨key, rfl⟩ | ⟨token, w, -, h⟩ | ⟨waker, key, hnew, rfl⟩ |
    ⟨waker, pc, hpc, h⟩ | ⟨key, token, -, rfl⟩ | ⟨key, token, -, rfl⟩
  · exact flow_enqueueStep s key
  · exact flow_waiterStep h
  · exact .still rfl rfl (fewer_insert_new hnew key) rfl rfl rfl rfl
  · exact flow_wakerStep hpc h
  · exact .leave key (fun t => decide (t ≠ token)) rfl rfl (.refl _) rfl rfl rfl rfl
  · exact (flow_removeToken s key token).of_core_eq rfl

/-! ### A token is in one place -/

/-- In how many places a token is: queues, wakers that carry it, pending sets. -/
def State.places (s : State κ) (token : Nat) : Nat :=
  occurrences s.queues token + s.carried token + occurrences s.pending token

/-- No token is in two places, and one that was not given out is in none. -/
structure Once (s : State κ) : Prop where
  atMost : ∀ token, s.places token ≤ 1
  fresh : ∀ token, s.tokenCounter ≤ token → s.places token = 0

omit [DecidableEq κ] in
private theorem Once.of_le (h : Once s) (hle : ∀ token, t.places token ≤ s.places token)
    (hc : s.tokenCounter ≤ t.tokenCounter) : Once t where
  atMost token := Nat.le_trans (hle token) (h.atMost token)
  fresh token hfresh := by
    have hzero := h.fresh token (Nat.le_trans hc hfresh)
    have hle := hle token
    omega

private theorem occurrences_filter_le (queues : Queues κ) (key : κ) (keep : Nat → Bool)
    (token : Nat) :
    occurrences (setQueue queues key ((queueOf queues key).filter keep)) token ≤
      occurrences queues token := by
  have hsum := occurrences_setQueue queues key ((queueOf queues key).filter keep) token
  have hle := (List.filter_sublist (p := keep) (l := queueOf queues key)).count_le token
  omega

private theorem occurrences_promote_le (pending : Pending κ) (key : κ) (token t : Nat) :
    occurrences (Queue.promote pending key token) t ≤
      occurrences pending t + if token = t then 1 else 0 := by
  unfold Queue.promote
  split
  · omega
  · have hsum := occurrences_setQueue pending key (queueOf pending key ++ [token]) t
    rw [List.count_append, List.count_singleton] at hsum
    simp only [beq_iff_eq] at hsum
    omega

private theorem occurrences_popFront {queues rest : Queues κ}
    (h : popFront queues key = (some token, rest)) (t : Nat) :
    occurrences rest t + (if token = t then 1 else 0) = occurrences queues t := by
  unfold popFront at h
  split at h
  · cases h
  · next front tail hq =>
    obtain ⟨hfront, rfl⟩ := Prod.mk.inj h
    obtain rfl := Option.some.inj hfront
    have hsum := occurrences_setQueue queues key tail t
    rw [hq, List.count_cons] at hsum
    simp only [beq_iff_eq] at hsum
    omega

private theorem once_flow (h : Once s) (hf : Flow limits s t) : Once t := by
  cases hf with
  | still hq hp hw hc =>
    refine h.of_le (fun token => ?_) (Nat.le_of_eq hc.symm)
    have hle := hw.count token
    unfold State.places State.carried
    rw [hq, hp]
    omega
  | join key hq hp hw hc =>
    -- The new token was in no place, and now is in the queue.
    have hplaces : ∀ token, t.places token ≤
        s.places token + if s.tokenCounter = token then 1 else 0 := by
      intro token
      unfold State.places State.carried
      rw [hp, hw]
      rcases enqueue_cases hq with ⟨hr, -⟩ | ⟨hr, -⟩ | ⟨-, hrest⟩
      · cases hr
      · cases hr
      · have hsum := occurrences_setQueue s.queues key
          (((queueOf s.queues key).filter fun t => !s.closed t) ++ [s.tokenCounter]) token
        have hle := (List.filter_sublist (p := fun t => !s.closed t)
          (l := queueOf s.queues key)).count_le token
        rw [List.count_append, List.count_singleton] at hsum
        simp only [beq_iff_eq] at hsum
        rw [hrest]
        omega
    constructor
    · intro token
      have hle := hplaces token
      have hone := h.atMost token
      split at hle
      · next heq =>
        have hzero := h.fresh token (Nat.le_of_eq heq)
        omega
      · omega
    · intro token hfresh
      rw [hc] at hfresh
      have hle := hplaces token
      have hzero := h.fresh token (by omega)
      rw [if_neg (by omega)] at hle
      omega
  | leave key keep hq hp hw hc =>
    refine h.of_le (fun token => ?_) (Nat.le_of_eq hc.symm)
    have hle := hw.count token
    have hfilter := occurrences_filter_le s.queues key keep token
    unfold State.places State.carried
    rw [hq, hp]
    omega
  | giveBack key token hq hp hw hc =>
    refine h.of_le (fun t => ?_) (Nat.le_of_eq hc.symm)
    have hle := hw.count t
    have hfilter := occurrences_filter_le s.pending key (fun t => decide (t ≠ token)) t
    unfold State.places State.carried
    rw [hq, hp]
    unfold removePendingToken removeQueueEntry
    omega
  | pop waker key token hpc hq hp hw hc =>
    refine h.of_le (fun t => ?_) (Nat.le_of_eq hc.symm)
    have hpop := occurrences_popFront hq t
    have hcount := Table.count_insert_add hpc (.popped key token) (Waker.carries t)
    rw [carries_popped] at hcount
    unfold State.places State.carried
    rw [hp, hw]
    omega
  | promote waker key token hpc hq hp hw hc =>
    refine h.of_le (fun t => ?_) (Nat.le_of_eq hc.symm)
    have hpromote := occurrences_promote_le s.pending key token t
    have hcount := Table.count_insert_add hpc (.promoted key token) (Waker.carries t)
    rw [carries_popped] at hcount
    have hnone : (Waker.promoted key token).carries t = false := rfl
    rw [hnone, Bool.toNat_false] at hcount
    unfold State.places State.carried
    rw [hq, hp, hw]
    omega

/-! ### Limits -/

/-- The queues are within the limits that are not zero. -/
structure Bounded (limits : QueueLimits κ) (queues : Queues κ) : Prop where
  queue : ∀ key, 0 < limits.maxQueue key → (queueOf queues key).length ≤ limits.maxQueue key
  total : 0 < limits.maxTotal → Table.sum queues (fun _ q => q.length) ≤ limits.maxTotal

private theorem Bounded.setQueue_le {queues : Queues κ} (h : Bounded limits queues)
    {queue : List Nat} (hle : queue.length ≤ (queueOf queues key).length) :
    Bounded limits (setQueue queues key queue) where
  queue k hk := by
    rw [queueOf_setQueue]
    split
    · next heq =>
      subst heq
      exact Nat.le_trans hle (h.queue k hk)
    · exact h.queue k hk
  total hpos := by
    have hsum : Table.sum (Queue.setQueue queues key queue) (fun _ q => q.length) ≤
        Table.sum queues fun _ q => q.length := sum_setQueue_le rfl hle
    exact Nat.le_trans hsum (h.total hpos)

private theorem Bounded.enqueue {queues rest : Queues κ} {closed : Nat → Bool}
    (h : Bounded limits queues)
    (hq : enqueue limits closed queues key token = (.ok (), rest)) : Bounded limits rest := by
  unfold Queue.enqueue at hq
  dsimp only at hq
  split at hq
  · cases hq
  · next htotal =>
    split at hq
    · cases hq
    · next hfull =>
      obtain ⟨-, rfl⟩ := Prod.mk.inj hq
      have hfilter := List.length_filter_le (fun t => !closed t) (queueOf queues key)
      constructor
      · intro k hk
        rw [queueOf_setQueue]
        split
        · next heq =>
          subst heq
          rw [List.length_append, List.length_singleton]
          omega
        · exact h.queue k hk
      · intro hpos
        have hsum := sum_setQueue (f := fun _ q => q.length) queues key
          (((queueOf queues key).filter fun t => !closed t) ++ [token]) rfl
        rw [List.length_append, List.length_singleton] at hsum
        omega

private theorem bounded_flow (h : Bounded limits s.queues) (hf : Flow limits s t) :
    Bounded limits t.queues := by
  cases hf with
  | still hq => rwa [hq]
  | join key hq => exact h.enqueue hq
  | leave key keep hq =>
    rw [hq]
    exact h.setQueue_le (List.length_filter_le _ _)
  | giveBack key token hq => rwa [hq]
  | pop waker key token hpc hq =>
    unfold popFront at hq
    split at hq
    · cases hq
    · next front tail hqueue =>
      obtain ⟨-, hrest⟩ := Prod.mk.inj hq
      rw [← hrest]
      refine h.setQueue_le ?_
      rw [hqueue]
      simp
  | promote waker key token hpc hq => rwa [hq]

/-! ### No empty queue is stored -/

/-- Every stored queue or set has an element. -/
def NoEmpty (queues : Queues κ) : Prop := ∀ key queue, queues.lookup key = some queue → queue ≠ []

private theorem NoEmpty.setQueue {queues : Queues κ} (h : NoEmpty queues) (key : κ)
    (queue : List Nat) : NoEmpty (setQueue queues key queue) := by
  intro k q hq
  unfold Queue.setQueue at hq
  split at hq
  · exact h k q (Table.lookup_erase_eq_some.mp hq).2
  · next hne =>
    rcases Table.lookup_insert_eq_some.mp hq with ⟨-, rfl⟩ | ⟨-, hq⟩
    · simpa using hne
    · exact h k q hq

private theorem noEmpty_flow (hqueues : NoEmpty s.queues) (hpending : NoEmpty s.pending)
    (hf : Flow limits s t) : NoEmpty t.queues ∧ NoEmpty t.pending := by
  cases hf with
  | still hq hp => exact ⟨hq ▸ hqueues, hp ▸ hpending⟩
  | join key hq hp =>
    refine ⟨?_, hp ▸ hpending⟩
    rcases enqueue_cases hq with ⟨hr, -⟩ | ⟨hr, -⟩ | ⟨-, hrest⟩
    · cases hr
    · cases hr
    · rw [hrest]
      exact hqueues.setQueue key _
  | leave key keep hq hp => exact ⟨hq ▸ hqueues.setQueue key _, hp ▸ hpending⟩
  | giveBack key token hq hp => exact ⟨hq ▸ hqueues, hp ▸ hpending.setQueue key _⟩
  | pop waker key token hpc hq hp =>
    refine ⟨?_, hp ▸ hpending⟩
    unfold popFront at hq
    split at hq
    · cases hq
    · obtain ⟨-, hrest⟩ := Prod.mk.inj hq
      exact hrest ▸ hqueues.setQueue key _
  | promote waker key token hpc hq hp =>
    refine ⟨hq ▸ hqueues, ?_⟩
    rw [hp]
    unfold Queue.promote
    split
    · exact hpending
    · exact hpending.setQueue key _

/-! ### The order of the entries of a key -/

/-- The tokens of a key in a log. -/
def ofKey (key : κ) (log : List (κ × Nat)) : List Nat :=
  (log.filter fun entry => entry.1 = key).map Prod.snd

/-- The tokens of a key, over two logs. -/
@[simp] theorem ofKey_append (key : κ) (log log' : List (κ × Nat)) :
    ofKey key (log ++ log') = ofKey key log ++ ofKey key log' := by
  simp [ofKey]

/-- The tokens of a key in a log of one entry. -/
@[simp] theorem ofKey_singleton (key k : κ) (token : Nat) :
    ofKey key [(k, token)] = if k = key then [token] else [] := by
  unfold ofKey
  by_cases h : k = key <;> simp [h]

private theorem mem_ofKey {log : List (κ × Nat)} : token ∈ ofKey key log ↔ (key, token) ∈ log := by
  unfold ofKey
  simp only [List.mem_map, List.mem_filter, decide_eq_true_eq]
  constructor
  · rintro ⟨⟨k, t⟩, ⟨hmem, rfl⟩, rfl⟩
    exact hmem
  · intro hmem
    exact ⟨(key, token), ⟨hmem, rfl⟩, rfl⟩

/-- The entries of a key leave its queue in the order in which they joined it, what is still queued
comes after what was taken, and only what was taken is promoted. -/
structure Ordered (s : State κ) : Prop where
  enqueued : (s.enqueued.map Prod.snd).Nodup
  given : ∀ entry ∈ s.enqueued, entry.2 < s.tokenCounter
  queue : ∀ key, (ofKey key s.taken ++ queueOf s.queues key).Sublist (ofKey key s.enqueued)
  popped : ∀ waker key token, s.wakers.lookup waker = some (.popped key token) →
    (key, token) ∈ s.taken
  promoted : ∀ entry ∈ s.promoted, entry ∈ s.taken

private theorem sublist_filter_queue {queues : Queues κ} {taken enqueued : List (κ × Nat)}
    (h : (ofKey k taken ++ queueOf queues k).Sublist (ofKey k enqueued)) (key : κ)
    (keep : Nat → Bool) :
    (ofKey k taken ++ queueOf (setQueue queues key ((queueOf queues key).filter keep)) k).Sublist
      (ofKey k enqueued) := by
  rw [queueOf_setQueue]
  split
  · next heq =>
    subst heq
    exact ((List.Sublist.refl _).append List.filter_sublist).trans h
  · exact h

private theorem ordered_flow (h : Ordered s) (hf : Flow limits s t) : Ordered t := by
  cases hf with
  | still hq hp hw hc he ht hr =>
    refine ⟨he ▸ h.enqueued, he ▸ hc ▸ h.given, ?_, ?_, hr ▸ ht ▸ h.promoted⟩
    · rw [hq, he, ht]
      exact h.queue
    · intro waker key token hpc
      rw [ht]
      exact h.popped waker key token (hw.popped waker key token hpc)
  | join key hq hp hw hc he ht hr =>
    have hnew : s.tokenCounter ∉ s.enqueued.map Prod.snd := by
      intro hmem
      obtain ⟨entry, hentry, heq⟩ := List.mem_map.mp hmem
      have hlt := h.given entry hentry
      omega
    refine ⟨?_, ?_, ?_, ?_, hr ▸ ht ▸ h.promoted⟩
    · rw [he, List.map_append, List.map_singleton]
      refine List.nodup_append.mpr ⟨h.enqueued, List.nodup_singleton _, ?_⟩
      intro a ha b hb heq
      obtain rfl : b = s.tokenCounter := List.mem_singleton.mp hb
      exact hnew (heq ▸ ha)
    · intro entry hentry
      rw [he] at hentry
      rw [hc]
      rcases List.mem_append.mp hentry with hentry | hentry
      · exact Nat.lt_succ_of_lt (h.given entry hentry)
      · rw [List.mem_singleton.mp hentry]
        exact Nat.lt_succ_self _
    · intro k
      rcases enqueue_cases hq with ⟨hr, -⟩ | ⟨hr, -⟩ | ⟨-, hrest⟩
      · cases hr
      · cases hr
      · rw [hrest, he, ht, queueOf_setQueue, ofKey_append, ofKey_singleton]
        by_cases hk : k = key
        · subst hk
          rw [if_pos rfl, if_pos rfl, ← List.append_assoc]
          refine List.Sublist.append ?_ (List.Sublist.refl _)
          exact ((List.Sublist.refl _).append List.filter_sublist).trans (h.queue k)
        · rw [if_neg hk, if_neg (Ne.symm hk), List.append_nil]
          exact h.queue k
    · intro waker key token hpc
      rw [hw] at hpc
      rw [ht]
      exact h.popped waker key token hpc
  | leave key keep hq hp hw hc he ht hr =>
    refine ⟨he ▸ h.enqueued, he ▸ hc ▸ h.given, ?_, ?_, hr ▸ ht ▸ h.promoted⟩
    · intro k
      rw [hq, he, ht]
      exact sublist_filter_queue (h.queue k) key keep
    · intro waker key token hpc
      rw [ht]
      exact h.popped waker key token (hw.popped waker key token hpc)
  | giveBack key token hq hp hw hc he ht hr =>
    refine ⟨he ▸ h.enqueued, he ▸ hc ▸ h.given, ?_, ?_, hr ▸ ht ▸ h.promoted⟩
    · rw [hq, he, ht]
      exact h.queue
    · intro waker key token hpc
      rw [ht]
      exact h.popped waker key token (hw.popped waker key token hpc)
  | pop waker key token hpc hq hp hw hc he ht hr =>
    obtain ⟨hfront, hother⟩ := popFront_some hq
    refine ⟨he ▸ h.enqueued, he ▸ hc ▸ h.given, ?_, ?_, ?_⟩
    · intro k
      rw [he, ht, ofKey_append, ofKey_singleton]
      by_cases hk : key = k
      · subst hk
        rw [if_pos rfl, List.append_assoc, List.singleton_append, ← hfront]
        exact h.queue key
      · rw [if_neg hk, List.append_nil, hother k (Ne.symm hk)]
        exact h.queue k
    · intro w k t' hw'
      rw [hw] at hw'
      rw [ht]
      rcases Table.lookup_insert_eq_some.mp hw' with ⟨-, heq⟩ | ⟨-, hw'⟩
      · cases heq
        simp
      · exact List.mem_append_left _ (h.popped w k t' hw')
    · intro entry hentry
      rw [hr] at hentry
      rw [ht]
      exact List.mem_append_left _ (h.promoted entry hentry)
  | promote waker key token hpc hq hp hw hc he ht hr =>
    refine ⟨he ▸ h.enqueued, he ▸ hc ▸ h.given, ?_, ?_, ?_⟩
    · rw [hq, he, ht]
      exact h.queue
    · intro w k t' hw'
      rw [hw] at hw'
      rw [ht]
      rcases Table.lookup_insert_eq_some.mp hw' with ⟨-, heq⟩ | ⟨-, hw'⟩
      · cases heq
      · exact h.popped w k t' hw'
    · intro entry hentry
      rw [hr] at hentry
      rw [ht]
      rcases List.mem_append.mp hentry with hentry | hentry
      · exact h.promoted entry hentry
      · rw [List.mem_singleton.mp hentry]
        exact h.popped waker key token hpc

/-! ### Every run -/

/-- What every step preserves. -/
structure WellFormed (limits : QueueLimits κ) (s : State κ) : Prop where
  once : Once s
  bounded : Bounded limits s.queues
  noEmptyQueue : NoEmpty s.queues
  noEmptySet : NoEmpty s.pending
  ordered : Ordered s

/-- The store is well formed at first. -/
theorem wellFormed_init : WellFormed limits (State.init : State κ) where
  once := ⟨fun _ => Nat.zero_le 1, fun _ _ => rfl⟩
  bounded := ⟨fun _ _ => Nat.zero_le _, fun _ => Nat.zero_le _⟩
  noEmptyQueue _ _ h := by cases h
  noEmptySet _ _ h := by cases h
  ordered := ⟨List.nodup_nil, fun _ h => (by cases h), fun _ => List.Sublist.refl _,
    fun _ _ _ h => (by cases h), fun _ h => (by cases h)⟩

/-- Every step keeps it well formed. -/
theorem wellFormed_step (h : WellFormed limits s) (hs : step limits s l = some t) :
    WellFormed limits t := by
  have hf := flow_step hs
  have hne := noEmpty_flow h.noEmptyQueue h.noEmptySet hf
  exact ⟨once_flow h.once hf, bounded_flow h.bounded hf, hne.1, hne.2, ordered_flow h.ordered hf⟩

private theorem wellFormed_of_exec {labels : List (Label κ)}
    (h : exec (step limits) State.init labels = some s) : WellFormed limits s :=
  exec_invariant (fun _ _ _ => wellFormed_step) wellFormed_init h

/-- Taken entries are not queued. -/
theorem Ordered.notMem_queue (h : Ordered s) (ht : (key, token) ∈ s.taken) :
    token ∉ queueOf s.queues key := by
  have hnodup : (ofKey key s.enqueued).Nodup :=
    h.enqueued.sublist (List.Sublist.map _ List.filter_sublist)
  have hdisjoint := (List.nodup_append.mp (hnodup.sublist (h.queue key))).2.2
  intro hq
  exact hdisjoint token (mem_ofKey.mpr ht) token hq rfl

/-- An entry that was taken was queued before every entry that still is. -/
theorem Ordered.sublist_of_taken (h : Ordered s) (ht : (key, token) ∈ s.taken) {later : Nat}
    (hq : later ∈ queueOf s.queues key) : [token, later].Sublist (ofKey key s.enqueued) := by
  have hpair : ([token] ++ [later]).Sublist (ofKey key s.taken ++ queueOf s.queues key) :=
    (List.singleton_sublist.mpr (mem_ofKey.mpr ht)).append (List.singleton_sublist.mpr hq)
  exact hpair.trans (h.queue key)

/-- In every state of every run: no token is in two queues or sets, or twice in one; the queues are
within their limits; no empty queue or set is stored; and the entries of a key are taken from its
queue in the order in which they were enqueued, none being promoted while an earlier one is still
queued. -/
theorem queue_structure (limits : QueueLimits κ) {labels : List (Label κ)} {s : State κ}
    (h : exec (step limits) State.init labels = some s) :
    (∀ token, occurrences s.queues token + occurrences s.pending token ≤ 1) ∧
      (∀ key, 0 < limits.maxQueue key → (queueOf s.queues key).length ≤ limits.maxQueue key) ∧
      (0 < limits.maxTotal → Table.sum s.queues (fun _ q => q.length) ≤ limits.maxTotal) ∧
      (∀ key queue, s.queues.lookup key = some queue → queue ≠ []) ∧
      (∀ key set, s.pending.lookup key = some set → set ≠ []) ∧
      (s.enqueued.map Prod.snd).Nodup ∧
      (∀ key, (ofKey key s.taken).Sublist (ofKey key s.enqueued)) ∧
      (∀ entry ∈ s.promoted, entry ∈ s.taken) ∧
      (∀ waker key token t, s.wakers.lookup waker = some (.popped key token) →
        step limits s (.promote waker) = some t →
        t.promoted = s.promoted ++ [(key, token)] ∧
          ∀ later ∈ queueOf s.queues key, [token, later].Sublist (ofKey key s.enqueued)) := by
  have hwf := wellFormed_of_exec h
  refine ⟨?_, hwf.bounded.queue, hwf.bounded.total, hwf.noEmptyQueue, hwf.noEmptySet,
    hwf.ordered.enqueued, ?_, hwf.ordered.promoted, ?_⟩
  · intro token
    have hone := hwf.once.atMost token
    unfold State.places at hone
    omega
  · intro key
    exact (List.sublist_append_left _ _).trans (hwf.ordered.queue key)
  · intro waker key token t hpc hstep
    simp only [step, hpc, Option.bind_some, wakerStep, Option.some.injEq] at hstep
    refine ⟨by rw [← hstep]; rfl, fun later hlater => ?_⟩
    exact hwf.ordered.sublist_of_taken (hwf.ordered.popped waker key token hpc) hlater

/-- Two entries of one key are queued, and two wakers take one each. -/
def twoWakers : List (Label String) :=
  [.enqueue "m:p", .enqueue "m:p", .wake 0 "m:p", .wake 1 "m:p", .pop 0, .pop 1]

/-- What they took is in the order of the queue. -/
theorem twoWakers_structured :
    ∃ s, exec (step ⟨10, fun _ => 2⟩) State.init twoWakers = some s ∧ s.taken.length = 2 ∧
      (ofKey "m:p" s.taken).Sublist (ofKey "m:p" s.enqueued) := by
  have hrun : exec (step ⟨10, fun _ => 2⟩) State.init twoWakers = some _ := rfl
  exact ⟨_, hrun, rfl, (queue_structure ⟨10, fun _ => 2⟩ hrun).2.2.2.2.2.2.1 "m:p"⟩

/-- The second waker promotes the later entry first. -/
theorem later_entry_promoted_first :
    ∃ s, exec (step ⟨10, fun _ => 2⟩) State.init (twoWakers ++ [.promote 1, .promote 0]) = some s ∧
      ofKey "m:p" s.enqueued = [0, 1] ∧ ofKey "m:p" s.promoted = [1, 0] ∧
      ¬ (ofKey "m:p" s.promoted).Sublist (ofKey "m:p" s.enqueued) :=
  ⟨_, rfl, rfl, rfl, by decide⟩

end Llamesh.Queue
