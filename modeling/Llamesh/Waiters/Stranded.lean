import Llamesh.Waiters.Fairness
import Llamesh.Waiters.Wakes

/-!
# No request sleeps in front of a free slot

A state is stuck when every task waits for something outside the node, a live request is queued, no
permit or token is under way, and a ready instance has a free slot. Where every step that can lose
a wake leaves the slots covered, no run comes to such a state.
-/

namespace Llamesh.Waiters

open Transition

variable {maxConcurrent : Nat}

/-- Waits for a permit, a backend, evicted processes, a spawned process, or capacity. -/
def Pc.blocked : Pc → Bool
  | .queued .silent .done | .serving false _ | .retiring false | .spawning false | .parked => true
  | _ => false

/-- Waits for the end of a load. -/
def Waker.blocked (s : State) (k : Waker) : Bool :=
  match k.pc with
  | .releasing inst true =>
    (s.instances.lookup inst).any fun i => decide (i.status = .starting)
  | _ => false

/-- Every task waits, while a request is queued and a ready instance could serve it. -/
def stuck (maxConcurrent : Nat) (s : State) : Bool :=
  (s.requests.entries.all fun e => e.2.blocked) &&
    (s.wakers.entries.all fun e => e.2.blocked s) &&
    s.entryRemovers.isEmpty && s.tokenRemovers.isEmpty && s.pending.isEmpty &&
    (s.queue.any fun id => receiverAlive s id) &&
    s.instances.entries.any fun e => decide (0 < readySlots maxConcurrent e.2)

private theorem blocked_request {pc : Pc} (h : pc.blocked = true) :
    pc.owesRecheck = false ∧ pc.carriesWake = false := by
  unfold Pc.blocked at h
  split at h
  · exact ⟨rfl, rfl⟩
  · exact ⟨rfl, rfl⟩
  · exact ⟨rfl, rfl⟩
  · exact ⟨rfl, rfl⟩
  · exact ⟨rfl, rfl⟩
  · cases h

private theorem blocked_waker {s : State} {k : Waker} (h : k.blocked s = true) :
    k.owesCount = false ∧ k.wakesAll = false ∧ k.wakes = 0 ∧ k.reach = 0 := by
  unfold Waker.blocked at h
  split at h
  · next hpc => simp [Waker.owesCount, Waker.wakesAll, Waker.wakes, Waker.reach, hpc]
  · cases h

/-- In a stuck state the free slots are not covered. -/
theorem not_covered_of_stuck {s : State} (h : stuck maxConcurrent s = true) :
    ¬(ledger maxConcurrent s).Covered maxConcurrent := by
  simp only [stuck, Bool.and_eq_true, List.all_eq_true] at h
  obtain ⟨⟨⟨⟨⟨⟨hrequests, hwakers⟩, -⟩, -⟩, -⟩, hqueue⟩, hfree⟩ := h
  have hreq : ∀ {id pc}, s.requests.lookup id = some pc →
      pc.owesRecheck = false ∧ pc.carriesWake = false :=
    fun hpc => blocked_request (hrequests _ (AList.mem_lookup_iff.mp hpc))
  have hwak : ∀ {w k}, s.wakers.lookup w = some k →
      k.owesCount = false ∧ k.wakesAll = false ∧ k.wakes = 0 ∧ k.reach = 0 :=
    fun hk => blocked_waker (hwakers _ (AList.mem_lookup_iff.mp hk))
  have hrechecks : (ledger maxConcurrent s).rechecks = 0 :=
    Table.count_eq_zero fun id pc hpc => (hreq hpc).1
  have htokens : (ledger maxConcurrent s).tokens = 0 :=
    Table.count_eq_zero fun id pc hpc => (hreq hpc).2
  have hcounts : (ledger maxConcurrent s).counts = 0 :=
    Table.count_eq_zero fun w k hk => (hwak hk).1
  have hall : (ledger maxConcurrent s).wakesAll = 0 :=
    Table.count_eq_zero fun w k hk => (hwak hk).2.1
  have hwakes : (ledger maxConcurrent s).wakes = 0 :=
    Table.sum_eq_zero fun w k hk => (hwak hk).2.2.1
  have hreach : (ledger maxConcurrent s).reach = 0 :=
    Table.sum_eq_zero fun w k hk => (hwak hk).2.2.2
  have hqueued : 0 < (ledger maxConcurrent s).queued := by
    obtain ⟨id, hid, -⟩ := List.any_eq_true.mp hqueue
    exact List.length_pos_of_mem hid
  have hslots : 0 < (ledger maxConcurrent s).free := by
    obtain ⟨e, he, hpos⟩ := List.any_eq_true.mp hfree
    have hle := Table.le_sum (AList.mem_lookup_iff.mpr he) fun _ i => readySlots maxConcurrent i
    exact Nat.lt_of_lt_of_le (of_decide_eq_true hpos) hle
  unfold Ledger.Covered
  omega

/-- The line is sound, running tasks have wakes left, and the free slots are covered. -/
private structure WakeInv (maxConcurrent : Nat) (s : State) : Prop where
  sound : (line s).Sound
  wakers : WakersOk s
  covered : (ledger maxConcurrent s).Covered maxConcurrent

private theorem wakeInv_init : WakeInv maxConcurrent State.init where
  sound := sound_init
  wakers := by
    intro w k hk
    simp [State.init] at hk
  covered := .inr (.inr (.inr (.inl (Nat.le_refl 0))))

private theorem wakeInv_step {s t : State} {l : Label} (h : WakeInv maxConcurrent s)
    (hkeep : keepsWakes maxConcurrent s l = true) (hs : step maxConcurrent s l = some t) :
    WakeInv maxConcurrent t where
  sound := sound_step h.sound hs
  wakers := wakersOk_step h.wakers hs
  covered := covered_step h.sound h.wakers h.covered hkeep hs

/-- In a run whose steps give no wake away without cover, no state is stuck. -/
theorem wakes_conserved {labels : List Label} {s : State}
    (hrun : exec (step maxConcurrent) State.init labels = some s)
    (hkeep : Along (step maxConcurrent) (fun s l => keepsWakes maxConcurrent s l = true)
      State.init labels) : stuck maxConcurrent s = false := by
  have hinv : WakeInv maxConcurrent s :=
    exec_invariant_along (fun _ _ _ h hc hs => wakeInv_step h hc hs) wakeInv_init hkeep hrun
  by_contra hstuck
  rw [Bool.not_eq_false] at hstuck
  exact not_covered_of_stuck hstuck hinv.covered

/-- The second request is woken while the third finds its token pending and decides to join the
queue. -/
def thirdYields : List Label :=
  coldStart ++ secondQueues ++
    ([.finish 0 102 false, .releaseSlot 102, .wake 102, .wake 102, .wake 102,
      .arrive, .checkQueue 2, .checkPending 2, .settle 2 false,
      .receive 1, .lock 1, .recheckQueue 1, .beginScan 1 [7], .scan 1, .choose 1,
      .giveBack 1] : List Label)

/-- The third request is in the queue when the second is done. -/
def joinsInTime : List Label :=
  thirdYields ++ ([.enqueue 2, .finish 1 103 false, .releaseSlot 103, .wake 103] : List Label)

/-- No request is stuck. -/
theorem joinsInTime_conserves :
    ∃ s, exec (step 1) State.init joinsInTime = some s ∧ stuck 1 s = false := by
  have hrun : (exec (step 1) State.init joinsInTime).isSome = true := by decide +kernel
  have hkeep : Along (step 1) (fun s l => keepsWakes 1 s l = true) State.init joinsInTime :=
    along_of_checkAlong (by decide +kernel)
  obtain ⟨s, hs⟩ := Option.isSome_iff_exists.mp hrun
  exact ⟨s, hs, wakes_conserved hs hkeep⟩

/-- The second request is done, and its waking task finds the queue empty, before the third is in
it; the fairness path makes no re-check after it enqueues. -/
def joinsTooLate : List Label :=
  thirdYields ++ ([.finish 1 103 false, .releaseSlot 103, .wake 103, .enqueue 2] : List Label)

/-- The third request sleeps in front of an idle instance. -/
theorem third_sleeps_before_idle_instance :
    ∃ s, exec (step 1) State.init joinsTooLate = some s ∧ stuck 1 s = true := by
  have hrun : ((exec (step 1) State.init joinsTooLate).any fun s => stuck 1 s) = true := by
    decide +kernel
  exact Option.any_eq_true _ _ |>.mp hrun

end Llamesh.Waiters
