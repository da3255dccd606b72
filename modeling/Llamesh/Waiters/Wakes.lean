import Llamesh.Waiters.Budgets
import Llamesh.Waiters.Ledger
import Llamesh.Waiters.Refines

/-!
# Wakes and free slots

Every step that is not among those that can lose a wake keeps the free slots covered by wakes under
way. A state in which every task waits has no wake under way, so where the other steps keep the
slots covered too, no request sleeps in front of a free slot.
-/

namespace Llamesh.Waiters

open Transition

variable {maxConcurrent : Nat}

/-! ### One request, one waking task, one instance -/

/-- Where a request counts again, the slots are covered. -/
theorem covered_of_owesRecheck {s : State} {id : Nat} {pc : Pc}
    (hpc : s.requests.lookup id = some pc) (ho : pc.owesRecheck = true) :
    (ledger maxConcurrent s).Covered maxConcurrent :=
  .inl (Table.count_pos hpc ho)

/-- A request moves and keeps the wake it carries and the re-check it owes. -/
theorem covered_move {s t : State} {id : Nat} {pc : Pc} (pc' : Pc)
    (h : (ledger maxConcurrent s).Covered maxConcurrent) (hpc : s.requests.lookup id = some pc)
    (hr : t.requests = s.requests.insert id pc') (hw : t.wakers = s.wakers)
    (hq : t.queue = s.queue)
    (hf : availableReadySlots maxConcurrent t.instances ≤
      availableReadySlots maxConcurrent s.instances)
    (hc : pc.carriesWake.toNat ≤ pc'.carriesWake.toNat)
    (ho : pc.owesRecheck.toNat ≤ pc'.owesRecheck.toNat) :
    (ledger maxConcurrent t).Covered maxConcurrent := by
  have htokens := Table.count_insert_add hpc pc' Pc.carriesWake
  have hrechecks := Table.count_insert_add hpc pc' Pc.owesRecheck
  apply h.keep
  constructor <;> simp only [ledger, hr, hw, hq] <;> omega

/-- A request ends that carries no wake and owes no re-check. -/
theorem covered_end {s t : State} {id : Nat} {pc : Pc}
    (h : (ledger maxConcurrent s).Covered maxConcurrent) (hpc : s.requests.lookup id = some pc)
    (hr : t.requests = s.requests.erase id) (hw : t.wakers = s.wakers) (hq : t.queue = s.queue)
    (hi : t.instances = s.instances) (hc : pc.carriesWake = false) (ho : pc.owesRecheck = false) :
    (ledger maxConcurrent t).Covered maxConcurrent := by
  have htokens := Table.count_erase_add hpc Pc.carriesWake
  have hrechecks := Table.count_erase_add hpc Pc.owesRecheck
  rw [hc, Bool.toNat_false] at htokens
  rw [ho, Bool.toNat_false] at hrechecks
  apply h.keep
  constructor <;> simp only [ledger, hr, hw, hq, hi] <;> omega

/-- What a new waking task adds to the ledger. -/
theorem ledger_setWaker_new {s : State} {w : Nat} (k : Waker) (hw : w ∉ s.wakers) :
    ledger maxConcurrent (setWaker s w k) =
      { ledger maxConcurrent s with
        counts := k.owesCount.toNat + (ledger maxConcurrent s).counts
        wakesAll := k.wakesAll.toNat + (ledger maxConcurrent s).wakesAll
        wakes := k.wakes + (ledger maxConcurrent s).wakes
        reach := k.reach + (ledger maxConcurrent s).reach } := by
  simp only [ledger, setWaker, Table.count_insert_of_notMem hw, Table.sum_insert_of_notMem hw]

/-- A waking task starts. -/
theorem covered_startWaker {s : State} {w : Nat} (k : Waker)
    (h : (ledger maxConcurrent s).Covered maxConcurrent) (hw : w ∉ s.wakers) :
    (ledger maxConcurrent (setWaker s w k)).Covered maxConcurrent := by
  rw [ledger_setWaker_new k hw]
  apply h.keep
  constructor <;> dsimp only <;> omega

/-- A waking task moves and keeps what it owes. -/
theorem covered_setWaker {s : State} {w : Nat} {k₀ : Waker} (k : Waker)
    (h : (ledger maxConcurrent s).Covered maxConcurrent) (hw : s.wakers.lookup w = some k₀)
    (hcounts : k₀.owesCount.toNat ≤ k.owesCount.toNat)
    (hall : k₀.wakesAll.toNat ≤ k.wakesAll.toNat) (hwakes : k₀.wakes ≤ k.wakes)
    (hreach : k₀.reach ≤ k.reach) :
    (ledger maxConcurrent (setWaker s w k)).Covered maxConcurrent := by
  have h₁ := Table.count_insert_add hw k Waker.owesCount
  have h₂ := Table.count_insert_add hw k Waker.wakesAll
  have h₃ := Table.sum_insert_add hw k fun _ k => k.wakes
  have h₄ := Table.sum_insert_add hw k fun _ k => k.reach
  apply h.keep
  constructor <;> simp only [ledger, setWaker] <;> omega

/-- The free slots do not grow. -/
theorem covered_instances {s : State} {instances : Table Nat Instance}
    (h : (ledger maxConcurrent s).Covered maxConcurrent)
    (hf : availableReadySlots maxConcurrent instances ≤
      availableReadySlots maxConcurrent s.instances) :
    (ledger maxConcurrent { s with instances := instances }).Covered maxConcurrent := by
  apply h.keep
  constructor <;> simp only [ledger] <;> omega

/-- Entries leave the queue without being woken. -/
theorem covered_queue {s : State} {queue : List Nat}
    (h : (ledger maxConcurrent s).Covered maxConcurrent) (hq : queue.length ≤ s.queue.length) :
    (ledger maxConcurrent { s with queue := queue }).Covered maxConcurrent := by
  apply h.keep
  constructor <;> simp only [ledger] <;> omega

/-! ### Steps that keep every wake -/

private theorem covered_enqueue {s : State} {id : Nat} {recheck waited : Bool}
    (hkeep : keepsWakes maxConcurrent s (.enqueue id) = true)
    (hpc : s.requests.lookup id = some (.joining recheck waited)) :
    (ledger maxConcurrent
      { setRequest s id (.queued .silent (if recheck then .due else .done)) with
        queue := (s.queue.filter fun k => receiverAlive s k) ++ [id] }).Covered maxConcurrent := by
  cases recheck with
  | true =>
    apply covered_of_owesRecheck (AList.lookup_insert s.requests)
    rfl
  | false =>
    simp only [keepsWakes, afterLoss, hpc, Option.all_some, decide_eq_true_eq] at hkeep
    have htokens := Table.count_insert_add hpc (.queued .silent .done) Pc.carriesWake
    have hrechecks := Table.count_insert_add hpc (.queued .silent .done) Pc.owesRecheck
    simp only [Pc.carriesWake, Pc.owesRecheck, Bool.toNat_false] at htokens hrechecks
    apply hkeep.keep
    constructor <;>
      simp only [ledger, setRequest, Bool.false_eq_true, if_false, List.length_append,
        List.length_singleton] <;> omega

private theorem covered_readPending {s : State} {id w available : Nat} {channel : Channel}
    (hkeep : keepsWakes maxConcurrent s (.readPending id w) = true)
    (hpc : s.requests.lookup id = some (.queued channel (.counted available)))
    (hw : w ∉ s.wakers) :
    (ledger maxConcurrent
      (if available - s.pending.length = 0 then setRequest s id (.queued channel .done)
      else setWaker (setRequest s id (.queued channel .done)) w
        ⟨.popping, available - s.pending.length, false, true⟩)).Covered maxConcurrent := by
  simp only [keepsWakes, afterLoss, hpc, Option.all_some, decide_eq_true_eq] at hkeep
  have htokens := Table.count_insert_add hpc (.queued channel .done) Pc.carriesWake
  have hrechecks := Table.count_insert_add hpc (.queued channel .done) Pc.owesRecheck
  have hsame : (Pc.queued channel .done).carriesWake =
      (Pc.queued channel (.counted available)).carriesWake := by cases channel <;> rfl
  have hdone : (Pc.queued channel .done).owesRecheck = false := by cases channel <;> rfl
  have hdue : (Pc.queued channel (.counted available)).owesRecheck = true := by
    cases channel <;> rfl
  rw [hsame] at htokens
  rw [hdone, hdue, Bool.toNat_false, Bool.toNat_true] at hrechecks
  apply hkeep.keep
  split
  · next h0 =>
    constructor <;> simp only [ledger, setRequest, h0] <;> omega
  · rw [ledger_setWaker_new _ (by exact hw)]
    constructor <;>
      simp only [ledger, setRequest, Waker.owesCount_popping, Waker.wakesAll_popping,
        Waker.wakes_popping, Waker.reach_popping] <;> omega

private theorem covered_leave {s : State} {id : Nat} {pc : Pc}
    (h : (ledger maxConcurrent s).Covered maxConcurrent)
    (hkeep : keepsWakes maxConcurrent s (.leave id) = true)
    (hpc : s.requests.lookup id = some pc) :
    (ledger maxConcurrent (leaveStep s id pc)).Covered maxConcurrent := by
  by_cases hloss : (pc.carriesWake || pc.owesRecheck) = true
  · simp only [keepsWakes, afterLoss, hpc, hloss, if_true, Option.all_some, decide_eq_true_eq]
      at hkeep
    have htokens := Table.count_erase_add hpc Pc.carriesWake
    have hrechecks := Table.count_erase_add hpc Pc.owesRecheck
    apply hkeep.keep
    constructor <;> simp only [ledger, leaveStep, endRequest] <;> omega
  · simp only [Bool.or_eq_true, not_or, Bool.not_eq_true] at hloss
    exact covered_end h hpc rfl rfl rfl rfl hloss.1 hloss.2

private theorem covered_arrive {s : State} (h : (ledger maxConcurrent s).Covered maxConcurrent)
    (hnew : s.next ∉ s.requests) :
    (ledger maxConcurrent { setRequest s s.next .checking with next := s.next + 1 }).Covered
      maxConcurrent := by
  have htokens := Table.count_insert_of_notMem hnew .checking Pc.carriesWake
  have hrechecks := Table.count_insert_of_notMem hnew .checking Pc.owesRecheck
  apply h.keep
  constructor <;> simp only [ledger, setRequest] <;> omega

/-- The steps from the arrival to the wake. -/
theorem covered_queueStep {s t : State} {l : Label} (hsound : (line s).Sound)
    (h : (ledger maxConcurrent s).Covered maxConcurrent)
    (hkeep : keepsWakes maxConcurrent s l = true)
    (hs : queueStep maxConcurrent s l = some t) :
    (ledger maxConcurrent t).Covered maxConcurrent := by
  cases queueStep_effect hs with
  | arrive =>
    apply covered_arrive h
    intro hmem
    have hlt := hsound.lt_next s.next (.inl ?_)
    · exact Nat.lt_irrefl _ hlt
    · rw [← AList.lookup_isSome, Option.isSome_iff_exists] at hmem
      obtain ⟨pc, hpc⟩ := hmem
      rw [standing_of_lookup hpc]
      simp
  | checkQueue id hpc =>
    refine covered_move _ h hpc rfl rfl rfl (Nat.le_refl _) ?_ ?_ <;> split <;> decide
  | checkPending id hpc =>
    refine covered_move _ h hpc rfl rfl rfl (Nat.le_refl _) ?_ ?_ <;> split <;> decide
  | settle id again hpc =>
    refine covered_move _ h hpc rfl rfl rfl (Nat.le_refl _) ?_ ?_ <;> split <;> decide
  | enqueue id recheck waited hpc => exact covered_enqueue hkeep hpc
  | readAvailable id channel hpc =>
    apply covered_of_owesRecheck (AList.lookup_insert s.requests)
    cases channel <;> rfl
  | readPending id waker channel available hpc hwaker => exact covered_readPending hkeep hpc hwaker
  | receive id hpc =>
    exact covered_move (.trying true) h hpc rfl rfl rfl (Nat.le_refl _) (by decide) (by decide)
  | receiveClosed id hpc => exact covered_end h hpc rfl rfl rfl rfl rfl rfl
  | leave id pc hpc _ => exact covered_leave h hkeep hpc
  | removeEntry id _ => exact covered_queue h (List.length_filter_le _ _)
  | removeToken id _ => exact h

private theorem readySlots_succ_le (maxConcurrent : Nat) (i : Instance) :
    readySlots maxConcurrent { i with inFlight := i.inFlight + 1 } ≤
      readySlots maxConcurrent i := by
  unfold readySlots
  dsimp only
  split
  · split <;> omega
  · omega

private theorem readySlots_acquire {i : Instance} (hi : acquirable maxConcurrent i = true)
    (hready : i.status = .ready) :
    1 ≤ readySlots maxConcurrent i ∧ (maxConcurrent ≠ 0 →
      readySlots maxConcurrent { i with inFlight := i.inFlight + 1 } + 1 =
        readySlots maxConcurrent i) := by
  simp only [acquirable, Bool.and_eq_true, Bool.or_eq_true, beq_iff_eq, decide_eq_true_eq] at hi
  obtain ⟨⟨⟨halive, -⟩, hdrain⟩, hroom⟩ := hi
  simp only [readySlots, halive, hdrain, hready, Bool.and_self, decide_true, if_true]
  split
  · next h0 => exact ⟨Nat.le_refl 1, fun h => absurd h0 h⟩
  · next h0 =>
    have hlt := hroom.resolve_left h0
    exact ⟨by omega, fun _ => by omega⟩

private theorem availableReadySlots_acquire_le (maxConcurrent : Nat) {s : State} {inst : Nat}
    {i : Instance}
    (hi : s.instances.lookup inst = some i) :
    availableReadySlots maxConcurrent
        (s.instances.insert inst { i with inFlight := i.inFlight + 1 }) ≤
      availableReadySlots maxConcurrent s.instances := by
  have hsum := Table.sum_insert_add hi { i with inFlight := i.inFlight + 1 }
    fun _ i => readySlots maxConcurrent i
  have hle := readySlots_succ_le maxConcurrent i
  unfold availableReadySlots
  omega

private theorem covered_acquire_token {s : State} {id inst : Nat} {seen : Nat} {i : Instance}
    (h : (ledger maxConcurrent s).Covered maxConcurrent)
    (hkeep : keepsWakes maxConcurrent s (.choose id) = true)
    (hpc : s.requests.lookup id = some (.scanning true [] (some (inst, seen))))
    (hi : s.instances.lookup inst = some i) (hacq : acquirable maxConcurrent i = true) :
    (ledger maxConcurrent { setRequest s id (.serving true inst) with
      lock := none
      instances := s.instances.insert inst { i with inFlight := i.inFlight + 1 } }).Covered
      maxConcurrent := by
  have htokens := Table.count_insert_add hpc (.serving true inst) Pc.carriesWake
  have hrechecks := Table.count_insert_add hpc (.serving true inst) Pc.owesRecheck
  simp only [Pc.carriesWake, Pc.owesRecheck, Bool.toNat_false, Bool.toNat_true]
    at htokens hrechecks
  by_cases hready : i.status = .ready
  · have hsum := Table.sum_insert_add hi { i with inFlight := i.inFlight + 1 }
      fun _ i => readySlots maxConcurrent i
    obtain ⟨hone, htake⟩ := readySlots_acquire hacq hready
    have hle := Table.le_sum hi fun _ i => readySlots maxConcurrent i
    by_cases h0 : maxConcurrent = 0
    · -- The slot stays free, so the wakes alone did not cover it before either.
      rcases h with h | h | h | h | ⟨-, h⟩
      · refine .inl ?_
        simp only [ledger, setRequest] at h ⊢
        omega
      · exact .inr (.inl h)
      · exact .inr (.inr (.inl h))
      · exact .inr (.inr (.inr (.inl h)))
      · have hnone := h h0
        simp only [ledger, availableReadySlots] at hnone
        omega
    · have htake := htake h0
      apply h.keep
      constructor <;> simp only [ledger, setRequest, availableReadySlots] <;> omega
  · simp only [keepsWakes, afterLoss, hpc, hi, Option.any_some, hacq, hready, ne_eq,
      not_false_eq_true, decide_true, Bool.and_self, if_true, Option.all_some,
      decide_eq_true_eq] at hkeep
    have hle := availableReadySlots_acquire_le maxConcurrent hi
    apply hkeep.keep
    constructor <;> simp only [ledger, setRequest] <;> omega

/-- The steps of the attempt. -/
theorem covered_attemptStep {s t : State} {l : Label}
    (h : (ledger maxConcurrent s).Covered maxConcurrent)
    (hkeep : keepsWakes maxConcurrent s l = true)
    (hs : attemptStep maxConcurrent s l = some t) :
    (ledger maxConcurrent t).Covered maxConcurrent := by
  cases attemptStep_effect hs with
  | lock id token hpc _ =>
    refine covered_move (.locked token) h hpc rfl rfl rfl (Nat.le_refl _) ?_ ?_ <;>
      cases token <;> decide
  | keepTurn id hpc =>
    exact covered_move (.passed true) h hpc rfl rfl rfl (Nat.le_refl _) (by decide) (by decide)
  | queueEmpty id hpc _ =>
    exact covered_move .lockedPending h hpc rfl rfl rfl (Nat.le_refl _) (by decide) (by decide)
  | queueBusy id hpc _ =>
    exact covered_move (.joining false false) h hpc rfl rfl rfl (Nat.le_refl _) (by decide)
      (by decide)
  | pendingEmpty id hpc _ =>
    exact covered_move (.passed false) h hpc rfl rfl rfl (Nat.le_refl _) (by decide) (by decide)
  | pendingBusy id hpc _ =>
    exact covered_move (.joining false false) h hpc rfl rfl rfl (Nat.le_refl _) (by decide)
      (by decide)
  | beginScan id order token hpc _ =>
    refine covered_move (.scanning token order none) h hpc rfl rfl rfl (Nat.le_refl _) ?_ ?_ <;>
      cases token <;> exact Nat.le_refl _
  | scan id token inst rest best hpc =>
    refine covered_move _ h hpc rfl rfl rfl (Nat.le_refl _) ?_ ?_ <;>
      cases token <;> exact Nat.le_refl _
  | acquire id token inst seen i hpc hinst hroom =>
    cases token with
    | false =>
      exact covered_move (.serving false inst) h hpc rfl rfl rfl
        (availableReadySlots_acquire_le maxConcurrent hinst) (Nat.le_refl _) (Nat.le_refl _)
    | true => exact covered_acquire_token h hkeep hpc hinst hroom
  | noneFits id token best hpc =>
    refine covered_move (.planning token) h hpc rfl rfl rfl (Nat.le_refl _) ?_ ?_ <;>
      cases token <;> exact Nat.le_refl _
  | admitted id token hpc =>
    refine covered_move (.spawning token) h hpc rfl rfl rfl (Nat.le_refl _) ?_ ?_ <;>
      cases token <;> decide
  | blocked id token hpc =>
    apply covered_of_owesRecheck (AList.lookup_insert s.requests)
    cases token <;> rfl
  | evict id token hpc =>
    rcases hpc with hpc | hpc
    · refine covered_move (.retiring token) h hpc rfl rfl rfl (Nat.le_refl _) ?_ ?_ <;>
        cases token <;> decide
    · refine covered_move (.retiring token) h hpc rfl rfl rfl (Nat.le_refl _) ?_ ?_ <;>
        cases token <;> decide
  | reaped id token hpc =>
    refine covered_move (.trying token) h hpc rfl rfl rfl (Nat.le_refl _) ?_ ?_ <;>
      cases token <;> decide
  | replan id token hpc =>
    refine covered_move (.trying token) h hpc rfl rfl rfl (Nat.le_refl _) ?_ ?_ <;>
      cases token <;> decide

/-- The steps after the attempt. -/
theorem covered_serveStep {s t : State} {l : Label}
    (h : (ledger maxConcurrent s).Covered maxConcurrent)
    (hkeep : keepsWakes maxConcurrent s l = true) (hs : serveStep s l = some t) :
    (ledger maxConcurrent t).Covered maxConcurrent := by
  cases serveStep_effect hs with
  | spawned id inst draining token hpc hnew =>
    have hfree := Table.sum_insert_of_notMem hnew ⟨1, .starting, draining, true⟩
      fun _ i => readySlots maxConcurrent i
    have hnone : readySlots maxConcurrent ⟨1, .starting, draining, true⟩ = 0 := by
      simp [readySlots]
    cases token with
    | false =>
      refine covered_move (.serving false inst) h hpc rfl rfl rfl ?_ (Nat.le_refl _)
        (Nat.le_refl _)
      simp only [availableReadySlots]
      omega
    | true =>
      simp only [keepsWakes, afterLoss, hpc, Option.all_some, decide_eq_true_eq] at hkeep
      have htokens := Table.count_insert_add hpc (.serving true inst) Pc.carriesWake
      have hrechecks := Table.count_insert_add hpc (.serving true inst) Pc.owesRecheck
      simp only [Pc.carriesWake, Pc.owesRecheck, Bool.toNat_false, Bool.toNat_true]
        at htokens hrechecks
      apply hkeep.keep
      constructor <;> simp only [ledger, setRequest, availableReadySlots] <;> omega
  | spawnBlocked id token hpc =>
    apply covered_of_owesRecheck (AList.lookup_insert s.requests)
    cases token <;> rfl
  | giveBackServing id inst hpc =>
    exact covered_move (.serving false inst) h hpc rfl rfl rfl (Nat.le_refl _) (Nat.le_refl _)
      (Nat.le_refl _)
  | giveBackBlocked id hpc => exact covered_of_owesRecheck (AList.lookup_insert s.requests) rfl
  | finish id waker afterLoad token inst hpc hwaker =>
    have hend : (ledger maxConcurrent { endRequest s id with
        tokenRemovers := if token then id :: s.tokenRemovers else s.tokenRemovers }).Covered
        maxConcurrent := covered_end h hpc rfl rfl rfl rfl rfl rfl
    exact covered_startWaker _ hend hwaker
  | retry id waker inst hpc hwaker =>
    have hmove : (ledger maxConcurrent (setRequest s id .checking)).Covered maxConcurrent :=
      covered_move .checking h hpc rfl rfl rfl (Nat.le_refl _) (Nat.le_refl _) (Nat.le_refl _)
    exact covered_startWaker _ hmove hwaker
  | park id waker inst hpc hwaker =>
    have hmove : (ledger maxConcurrent (setRequest s id .parked)).Covered maxConcurrent :=
      covered_move .parked h hpc rfl rfl rfl (Nat.le_refl _) (Nat.le_refl _) (Nat.le_refl _)
    exact covered_startWaker _ hmove hwaker
  | unpark id hpc =>
    exact covered_move .checking h hpc rfl rfl rfl (Nat.le_refl _) (by decide) (by decide)
  | dropChecking id waker hpc hwaker =>
    have hend : (ledger maxConcurrent (endRequest s id)).Covered maxConcurrent :=
      covered_end h hpc rfl rfl rfl rfl rfl rfl
    exact covered_startWaker _ hend hwaker
  | dropTrying id waker token hpc hwaker =>
    -- The wake of a token goes over to the new task.
    have htokens := Table.count_erase_add hpc Pc.carriesWake
    have hrechecks := Table.count_erase_add hpc Pc.owesRecheck
    have hone : (Pc.trying token).carriesWake.toNat ≤ 1 := by cases token <;> decide
    have hnone : (Pc.trying token).owesRecheck.toNat = 0 := rfl
    show (ledger maxConcurrent (setWaker { endRequest s id with
      pending := if token then remove s.pending id else s.pending } waker
      { pc := .popping, budget := 1 })).Covered maxConcurrent
    rw [ledger_setWaker_new _ (by exact hwaker)]
    apply h.keep
    constructor <;>
      simp only [ledger, endRequest, Waker.owesCount_popping, Waker.wakesAll_popping,
        Waker.wakes_popping, Waker.reach_popping] <;> omega

private theorem covered_deliver {s : State} {w id : Nat} {k : Waker} {recheck : Recheck}
    (h : (ledger maxConcurrent s).Covered maxConcurrent) (hok : k.Ok)
    (hw : s.wakers.lookup w = some k) (hpc : k.pc = .promoted id)
    (hr : s.requests.lookup id = some (.queued .silent recheck)) :
    (ledger maxConcurrent
      (afterDelivery (setRequest s id (.queued .permit recheck)) w k)).Covered maxConcurrent := by
  have htokens := Table.count_insert_add hr (.queued .permit recheck) Pc.carriesWake
  have hrechecks := Table.count_insert_add hr (.queued .permit recheck) Pc.owesRecheck
  have hgain : (Pc.queued .permit recheck).carriesWake.toNat =
      (Pc.queued .silent recheck).carriesWake.toNat + 1 := rfl
  have hsame : (Pc.queued .permit recheck).owesRecheck =
      (Pc.queued .silent recheck).owesRecheck := by cases recheck <;> rfl
  rw [hsame] at hrechecks
  simp only [Waker.Ok, hpc] at hok
  have howes : k.owesCount.toNat = 0 := by simp [Waker.owesCount, hpc]
  have hall : k.wakesAll = k.all := by simp [Waker.wakesAll, hpc]
  have hwakes : k.wakes = k.budget := by simp [Waker.wakes, hpc]
  have hreach : k.reach = k.budget - 1 := by simp [Waker.reach, hpc]
  unfold afterDelivery
  split
  · next ha =>
    -- This task goes on until the queue is empty.
    refine .inr (.inr (.inl ?_))
    apply Table.count_pos (AList.lookup_insert s.wakers)
    exact ha
  · next ha =>
    have hnot : k.wakesAll.toNat = 0 := by simp [hall, ha]
    split
    · next hlast =>
      have h₁ := Table.count_erase_add hw Waker.owesCount
      have h₂ := Table.count_erase_add hw Waker.wakesAll
      have h₃ := Table.sum_erase_add hw fun _ k => k.wakes
      have h₄ := Table.sum_erase_add hw fun _ k => k.reach
      apply h.keep
      constructor <;> simp only [ledger, setRequest] <;> omega
    · have h₁ := Table.count_insert_add hw { k with pc := .popping, budget := k.budget - 1 }
        Waker.owesCount
      have h₂ := Table.count_insert_add hw { k with pc := .popping, budget := k.budget - 1 }
        Waker.wakesAll
      have h₃ := Table.sum_insert_add hw { k with pc := .popping, budget := k.budget - 1 }
        fun _ k => k.wakes
      have h₄ := Table.sum_insert_add hw { k with pc := .popping, budget := k.budget - 1 }
        fun _ k => k.reach
      rw [Waker.owesCount_popping] at h₁
      rw [Waker.wakes_popping] at h₃
      rw [Waker.reach_popping] at h₄
      apply h.keep
      constructor <;> simp only [ledger, setRequest, setWaker] <;> omega

private theorem covered_pop {s : State} {w id : Nat} {k : Waker} {rest : List Nat}
    (h : (ledger maxConcurrent s).Covered maxConcurrent) (hok : k.Ok)
    (hw : s.wakers.lookup w = some k) (hpc : k.pc = .popping) (hq : s.queue = id :: rest) :
    (ledger maxConcurrent
      { setWaker s w { k with pc := .popped id } with queue := rest }).Covered maxConcurrent := by
  simp only [Waker.Ok, hpc] at hok
  have h₁ := Table.count_insert_add hw { k with pc := .popped id } Waker.owesCount
  have h₂ := Table.count_insert_add hw { k with pc := .popped id } Waker.wakesAll
  have h₃ := Table.sum_insert_add hw { k with pc := .popped id } fun _ k => k.wakes
  have h₄ := Table.sum_insert_add hw { k with pc := .popped id } fun _ k => k.reach
  have howes : ({ k with pc := .popped id } : Waker).owesCount = k.owesCount := by
    simp [Waker.owesCount, hpc]
  have hall : ({ k with pc := .popped id } : Waker).wakesAll = k.wakesAll := by
    simp [Waker.wakesAll, hpc]
  have hwakes : ({ k with pc := .popped id } : Waker).wakes = k.wakes := by
    simp [Waker.wakes, hpc]
  have hreach : ({ k with pc := .popped id } : Waker).reach + 1 = k.reach := by
    simp only [Waker.reach, hpc]
    omega
  rw [howes] at h₁
  rw [hall] at h₂
  rw [hwakes] at h₃
  apply h.keep
  constructor <;> simp only [ledger, setWaker, hq, List.length_cons] <;> omega

private theorem readySlots_release_le (maxConcurrent : Nat) (i : Instance) :
    readySlots maxConcurrent { i with inFlight := i.inFlight - 1 } ≤
      readySlots maxConcurrent i + if maxConcurrent = 0 then 0 else 1 := by
  unfold readySlots
  dsimp only
  split
  · split <;> omega
  · omega

private theorem covered_releaseSlot {s : State} {w inst : Nat} {k : Waker} {afterLoad : Bool}
    (h : (ledger maxConcurrent s).Covered maxConcurrent) (hw : s.wakers.lookup w = some k)
    (hpc : k.pc = .releasing inst afterLoad) :
    (ledger maxConcurrent { setWaker s w { pc := .popping, budget := 1 } with
      instances := s.instances.modify inst fun i => { i with inFlight := i.inFlight - 1 }
      }).Covered maxConcurrent := by
  have h₁ := Table.count_insert_add hw { pc := .popping, budget := 1 } Waker.owesCount
  have h₂ := Table.count_insert_add hw { pc := .popping, budget := 1 } Waker.wakesAll
  have h₃ := Table.sum_insert_add hw { pc := .popping, budget := 1 } fun _ k => k.wakes
  have h₄ := Table.sum_insert_add hw { pc := .popping, budget := 1 } fun _ k => k.reach
  have howes : k.owesCount.toNat = 0 := by simp [Waker.owesCount, hpc]
  have hall : k.wakesAll.toNat = 0 := by simp [Waker.wakesAll, hpc]
  have hwakes : k.wakes = 0 := by simp [Waker.wakes, hpc]
  have hreach : k.reach = 0 := by simp [Waker.reach, hpc]
  rw [Waker.wakes_popping] at h₃
  rw [Waker.reach_popping] at h₄
  have hfree := Table.sum_modify_le (t := s.instances) (k := inst)
    (w := fun _ i => readySlots maxConcurrent i) (readySlots_release_le maxConcurrent)
  apply h.keep
  constructor <;> simp only [ledger, setWaker, availableReadySlots] <;> split at hfree <;> omega

private theorem covered_readSpare {s : State} {w inst : Nat} {budget : Nat}
    {all cancellable : Bool} (hkeep : keepsWakes maxConcurrent s (.readSpare w) = true)
    (hw : s.wakers.lookup w = some ⟨.readied inst, budget, all, cancellable⟩) :
    (ledger maxConcurrent (setWaker s w
      { pc := .popping
        budget := spareSlots maxConcurrent s.instances inst + 1
        all := maxConcurrent == 0 })).Covered maxConcurrent := by
  simp only [keepsWakes, afterLoss, hw, Option.all_some, decide_eq_true_eq] at hkeep
  generalize spareSlots maxConcurrent s.instances inst + 1 = spare at hkeep ⊢
  have h₁ := Table.count_insert_add hw ⟨.popping, spare, maxConcurrent == 0, false⟩ Waker.owesCount
  have h₂ := Table.count_insert_add hw ⟨.popping, spare, maxConcurrent == 0, false⟩ Waker.wakesAll
  have h₃ := Table.sum_insert_add hw ⟨.popping, spare, maxConcurrent == 0, false⟩
    fun _ k => k.wakes
  have h₄ := Table.sum_insert_add hw ⟨.popping, spare, maxConcurrent == 0, false⟩
    fun _ k => k.reach
  have howes : (⟨.readied inst, budget, all, cancellable⟩ : Waker).owesCount.toNat = 1 := rfl
  have hall : (⟨.readied inst, budget, all, cancellable⟩ : Waker).wakesAll.toNat = 0 := rfl
  have hwakes : (⟨.readied inst, budget, all, cancellable⟩ : Waker).wakes = 0 := rfl
  have hreach : (⟨.readied inst, budget, all, cancellable⟩ : Waker).reach = 0 := rfl
  rw [Waker.owesCount_popping, Bool.toNat_false] at h₁
  rw [Waker.wakesAll_popping] at h₂
  rw [Waker.wakes_popping] at h₃
  rw [Waker.reach_popping] at h₄
  apply hkeep.keep
  constructor <;> simp only [ledger, setWaker] <;> omega

private theorem covered_cancelWaker {s t : State} {w : Nat} {k : Waker}
    (hkeep : keepsWakes maxConcurrent s (.cancelWaker w) = true)
    (hw : s.wakers.lookup w = some k) (ht : t.wakers = s.wakers.erase w)
    (hq : t.queue = s.queue) (hi : t.instances = s.instances)
    (htokens : Table.count t.requests Pc.carriesWake = Table.count s.requests Pc.carriesWake)
    (hrechecks : Table.count t.requests Pc.owesRecheck = Table.count s.requests Pc.owesRecheck) :
    (ledger maxConcurrent t).Covered maxConcurrent := by
  simp only [keepsWakes, afterLoss, hw, Option.all_some, decide_eq_true_eq] at hkeep
  have h₁ := Table.count_erase_add hw Waker.owesCount
  have h₂ := Table.count_erase_add hw Waker.wakesAll
  have h₃ := Table.sum_erase_add hw fun _ k => k.wakes
  have h₄ := Table.sum_erase_add hw fun _ k => k.reach
  apply hkeep.keep
  constructor <;> simp only [ledger, ht, hq, hi, htokens, hrechecks] <;> omega

/-- The steps of the waking tasks. -/
theorem covered_wakerStep {s t : State} {l : Label}
    (h : (ledger maxConcurrent s).Covered maxConcurrent) (hwakers : WakersOk s)
    (hkeep : keepsWakes maxConcurrent s l = true)
    (hs : wakerStep maxConcurrent s l = some t) :
    (ledger maxConcurrent t).Covered maxConcurrent := by
  cases wakerStep_effect hs with
  | startWaker w cancellable hnew => exact covered_startWaker _ h hnew
  | releaseSlot w inst budget afterLoad all cancellable hw _ =>
    exact covered_releaseSlot h hw rfl
  | readSpare w inst budget all cancellable hw => exact covered_readSpare hkeep hw
  | nobodyWaits w k hw hpc hqueue =>
    refine .inr (.inr (.inr (.inl ?_)))
    simp [ledger, hqueue]
  | pop w id k rest hw hpc hqueue => exact covered_pop h (hwakers w k hw) hw hpc hqueue
  | promote w id k hw hpc =>
    apply covered_setWaker { k with pc := .promoted id } h hw <;>
      simp [Waker.owesCount, Waker.wakesAll, Waker.wakes, Waker.reach, hpc]
  | deliver w id k recheck hw hpc hrequest =>
    exact covered_deliver h (hwakers w k hw) hw hpc hrequest
  | refuse w id k hw hpc _ =>
    apply covered_setWaker { k with pc := .refused id } h hw <;>
      simp [Waker.owesCount, Waker.wakesAll, Waker.wakes, Waker.reach, hpc]
  | discard w id k hw hpc =>
    apply covered_setWaker { k with pc := .popping } h hw <;>
      simp [Waker.owesCount, Waker.wakesAll, Waker.wakes, Waker.reach, hpc]
  | cancelClosing w id k recheck hw _ hrequest =>
    refine covered_cancelWaker hkeep hw rfl rfl rfl ?_ ?_
    · have htokens := Table.count_insert_add hrequest (.queued .closed recheck) Pc.carriesWake
      exact Nat.add_right_cancel htokens
    · have hrechecks := Table.count_insert_add hrequest (.queued .closed recheck) Pc.owesRecheck
      have hsame : (Pc.queued .closed recheck).owesRecheck =
          (Pc.queued .silent recheck).owesRecheck := by cases recheck <;> rfl
      rw [hsame] at hrechecks
      exact Nat.add_right_cancel hrechecks
  | cancelPopped w id k hw | cancelRefused w id k hw | cancelEmpty w k hw =>
    exact covered_cancelWaker hkeep hw rfl rfl rfl rfl rfl

/-- The steps of the instances. -/
theorem covered_instanceStep {s t : State} {l : Label}
    (h : (ledger maxConcurrent s).Covered maxConcurrent)
    (hkeep : keepsWakes maxConcurrent s l = true) (hs : instanceStep s l = some t) :
    (ledger maxConcurrent t).Covered maxConcurrent := by
  cases instanceStep_effect hs with
  | prewarmed inst hnew =>
    apply covered_instances h
    have hfree := Table.sum_insert_of_notMem hnew ⟨0, .starting, false, true⟩
      fun _ i => readySlots maxConcurrent i
    have hnone : readySlots maxConcurrent ⟨0, .starting, false, true⟩ = 0 := by
      simp [readySlots]
    unfold availableReadySlots
    omega
  | becomeReady inst w i _ _ hw =>
    refine .inr (.inl ?_)
    exact Table.count_pos (AList.lookup_insert s.wakers) rfl
  | failLoad inst i hinst _ =>
    apply covered_instances h
    have hfree := Table.sum_insert_add hinst { i with status := .failed }
      fun _ i => readySlots maxConcurrent i
    have hnone : readySlots maxConcurrent { i with status := .failed } = 0 := by
      simp [readySlots]
    unfold availableReadySlots
    omega
  | drain inst =>
    apply covered_instances h
    refine Table.sum_modify_le (c := 0) fun i => ?_
    simp [readySlots]
  | cancelDrain inst w hw =>
    simp only [keepsWakes, afterLoss, Option.all_some, decide_eq_true_eq] at hkeep
    have h₁ := Table.count_insert_of_notMem hw { pc := .popping, budget := 1 } Waker.owesCount
    have h₂ := Table.count_insert_of_notMem hw { pc := .popping, budget := 1 } Waker.wakesAll
    have h₃ := Table.sum_insert_of_notMem hw { pc := .popping, budget := 1 } fun _ k => k.wakes
    have h₄ := Table.sum_insert_of_notMem hw { pc := .popping, budget := 1 } fun _ k => k.reach
    rw [Waker.wakes_popping] at h₃
    rw [Waker.reach_popping] at h₄
    apply hkeep.keep
    constructor <;> simp only [ledger, setWaker] <;> omega
  | die inst =>
    apply covered_instances h
    refine Table.sum_modify_le (c := 0) fun i => ?_
    simp [readySlots]
  | retire inst =>
    apply covered_instances h
    unfold availableReadySlots
    cases hi : s.instances.lookup inst with
    | none =>
      rw [Table.erase_of_notMem (AList.lookup_eq_none.mp hi)]
    | some i =>
      have hfree := Table.sum_erase_add hi fun _ i => readySlots maxConcurrent i
      omega

/-- Every step that gives no wake away without cover keeps the slots covered. -/
theorem covered_step {s t : State} {l : Label} (hsound : (line s).Sound) (hwakers : WakersOk s)
    (h : (ledger maxConcurrent s).Covered maxConcurrent)
    (hkeep : keepsWakes maxConcurrent s l = true) (hs : step maxConcurrent s l = some t) :
    (ledger maxConcurrent t).Covered maxConcurrent := by
  unfold step at hs
  split at hs
  all_goals first
    | exact covered_queueStep hsound h hkeep hs
    | exact covered_attemptStep h hkeep hs
    | exact covered_serveStep h hkeep hs
    | exact covered_wakerStep h hwakers hkeep hs
    | exact covered_instanceStep h hkeep hs

end Llamesh.Waiters
