import Llamesh.Shutdown.Walk

/-!
# A returned shutdown strands nobody

Once the shutdown has taken its snapshot no request joins a queue. A capacity
wait that begins without seeing the drain was created before the shutdown's
`notify_waiters`. So after the return every queue is empty and every wait is over
or about to be.
-/

namespace Llamesh.Shutdown

open Transition Queue

universe u

variable {κ : Type u} [DecidableEq κ]

/-! ### Requests keep the invariant -/

private theorem inv_moveRequest {s : State κ} (h : Inv s) (id : Nat)
    {requests : Table Nat (RequestPc κ)}
    (hold : ∀ k pc, requests.lookup k = some pc → k ≠ id → s.requests.lookup k = some pc)
    (hself : ∀ pc, requests.lookup id = some pc → (∀ key token, pc ≠ .waiting key token) ∧
      (∀ calls, pc.calls? = some calls → calls ≤ s.notifyCalls) ∧
      ∀ calls c, pc.waits? = some calls → s.shutdown = .returned c → calls < c) :
    Inv { s with requests } := by
  have hback : ∀ k key token, requests.lookup k = some (.waiting key token) →
      s.requests.lookup k = some (.waiting key token) := by
    intro k key token hl
    by_cases hk : k = id
    · rw [hk] at hl
      exact absurd rfl ((hself _ hl).1 key token)
    · exact hold k _ hl hk
  constructor
  · intro k key token hl
    exact h.token_lt k key token (hback k key token hl)
  · intro k k' key key' token hl hl'
    exact h.token_unique k k' key key' token (hback _ _ _ hl) (hback _ _ _ hl')
  · intro key token hm
    refine ⟨(h.removed key token hm).1, fun k key' hl => ?_⟩
    exact (h.removed key token hm).2 k key' (hback k key' token hl)
  · intro k key token hl
    exact h.waiting k key token (hback k key token hl)
  · exact h.flag
  · exact h.ahead
  · intro k pc calls hl hc
    by_cases hk : k = id
    · rw [hk] at hl
      exact (hself pc hl).2.1 calls hc
    · exact h.calls_le k pc calls (hold k pc hl hk) hc
  · intro k pc calls c hl hw hc
    by_cases hk : k = id
    · rw [hk] at hl
      exact (hself pc hl).2.2 calls c hw hc
    · exact h.calls_lt k pc calls c (hold k pc hl hk) hw hc
  · exact h.returned_le

private theorem inv_setRequest {s : State κ} (h : Inv s) {id : Nat} {pc : RequestPc κ}
    (hpc : ∀ key token, pc ≠ .waiting key token)
    (hcalls : ∀ calls, pc.calls? = some calls → calls ≤ s.notifyCalls)
    (hwaits : ∀ calls c, pc.waits? = some calls → s.shutdown = .returned c → calls < c) :
    Inv (setRequest s id pc) := by
  refine inv_moveRequest h id ?_ ?_
  · intro k q hl hk
    rw [AList.lookup_insert_ne hk] at hl
    exact hl
  · intro q hl
    rw [AList.lookup_insert] at hl
    obtain rfl := Option.some.inj hl
    exact ⟨hpc, hcalls, hwaits⟩

private theorem inv_endRequest {s : State κ} (h : Inv s) (id : Nat) : Inv (endRequest s id) := by
  refine inv_moveRequest h id ?_ ?_
  · intro k q hl _
    exact (Table.lookup_erase_eq_some.mp hl).2
  · intro q hl
    exact absurd rfl (Table.lookup_erase_eq_some.mp hl).1

private theorem inv_giveUp {s : State κ} (h : Inv s) {id : Nat} {key : κ} {token : Nat}
    (hl : s.requests.lookup id = some (.waiting key token)) :
    Inv { endRequest s id with removers := (key, token) :: s.removers } := by
  have hend := inv_endRequest h id
  refine ⟨hend.token_lt, hend.token_unique, ?_, hend.waiting, hend.flag, hend.ahead, hend.calls_le,
    hend.calls_lt, hend.returned_le⟩
  intro k t hm
  rcases List.mem_cons.mp hm with heq | hm
  · obtain ⟨rfl, rfl⟩ := Prod.mk.inj heq
    refine ⟨h.token_lt id k t hl, fun j key' hj => ?_⟩
    obtain ⟨hne, hj⟩ := Table.lookup_erase_eq_some.mp hj
    exact hne (h.token_unique j id key' k t hj hl)
  · exact hend.removed k t hm

private theorem inv_queues {s : State κ} (h : Inv s) {queues : Queues κ}
    (hshrinks : ∀ key token, token ∈ queueOf queues key → token ∈ queueOf s.queues key)
    (hkept : ∀ id key token, s.requests.lookup id = some (.waiting key token) →
      token ∈ queueOf s.queues key → token ∈ queueOf queues key) :
    Inv { s with queues } := by
  refine ⟨h.token_lt, h.token_unique, h.removed, ?_, h.flag, ?_, h.calls_le, h.calls_lt,
    h.returned_le⟩
  · intro id key token hl
    rcases h.waiting id key token hl with hq | hh | hw
    · exact .inl (hkept id key token hl hq)
    · exact .inr (.inl hh)
    · exact .inr (.inr hw)
  · intro key hk
    exact h.ahead key (queue_nonempty_of_shrinks hshrinks hk)

private theorem inv_removeEntry {s : State κ} (h : Inv s) {key : κ} {token : Nat}
    (hm : (key, token) ∈ s.removers) :
    Inv { s with
      queues := removeQueueEntry s.queues key token
      removers := s.removers.erase (key, token) } := by
  have hq : Inv { s with queues := removeQueueEntry s.queues key token } := by
    refine inv_queues h (fun _ _ hm => mem_removeQueueEntry hm) ?_
    intro id k t hl ht
    refine mem_removeQueueEntry_of_ne ht ?_
    rintro rfl
    exact (h.removed key t hm).2 id k hl
  refine ⟨hq.token_lt, hq.token_unique, ?_, hq.waiting, hq.flag, hq.ahead, hq.calls_le,
    hq.calls_lt, hq.returned_le⟩
  intro k t hm'
  exact hq.removed k t (List.mem_of_mem_erase hm')

private theorem enqueue_shrinks_or_new {limits : QueueLimits κ} {closed : Nat → Bool}
    {queues rest : Queues κ} {key : κ} {token : Nat} {r : Except QueueFull Unit}
    (h : enqueue limits closed queues key token = (r, rest)) {k : κ} {t : Nat}
    (ht : t ∈ queueOf rest k) : t ∈ queueOf queues k ∨ r = .ok () := by
  rcases enqueue_cases h with ⟨-, rfl⟩ | ⟨-, rfl⟩ | ⟨hr, -⟩
  · exact .inl ht
  · left
    rw [queueOf_setQueue] at ht
    split at ht
    · next hk =>
      rw [hk]
      exact (List.mem_filter.mp ht).1
    · exact ht
  · exact .inr hr

omit [DecidableEq κ] in
private theorem closed_of_waiting {s : State κ} {id : Nat} {key : κ} {token : Nat}
    (hl : s.requests.lookup id = some (.waiting key token)) :
    (!receiverAlive s.requests token) = false := by
  rw [receiverAlive_iff.mpr ⟨id, key, hl⟩]
  rfl

private theorem inv_enqueued {limits : QueueLimits κ} {s : State κ} (h : Inv s) {id : Nat}
    {key : κ} {queues : Queues κ} (hopen : s.shutdown.published = false)
    (he : enqueue limits (fun t => !receiverAlive s.requests t) s.queues key s.nextToken =
      (.ok (), queues)) :
    Inv (setRequest { s with queues, nextToken := s.nextToken + 1 } id
      (.waiting key s.nextToken)) := by
  constructor
  · intro k key' token hl
    rcases Table.lookup_insert_eq_some.mp hl with ⟨-, heq⟩ | ⟨-, hl⟩
    · obtain ⟨-, rfl⟩ := RequestPc.waiting.inj heq
      exact Nat.lt_succ_self _
    · exact Nat.lt_succ_of_lt (h.token_lt k key' token hl)
  · intro k k' key₁ key₂ token hl hl'
    rcases Table.lookup_insert_eq_some.mp hl with ⟨hk, heq⟩ | ⟨-, hl⟩ <;>
      rcases Table.lookup_insert_eq_some.mp hl' with ⟨hk', heq'⟩ | ⟨-, hl'⟩
    · rw [hk, hk']
    · obtain ⟨-, rfl⟩ := RequestPc.waiting.inj heq
      exact absurd (h.token_lt k' key₂ _ hl') (Nat.lt_irrefl _)
    · obtain ⟨-, rfl⟩ := RequestPc.waiting.inj heq'
      exact absurd (h.token_lt k key₁ _ hl) (Nat.lt_irrefl _)
    · exact h.token_unique k k' key₁ key₂ token hl hl'
  · intro key' token hm
    obtain ⟨hlt, hno⟩ := h.removed key' token hm
    refine ⟨Nat.lt_succ_of_lt hlt, fun k key'' hl => ?_⟩
    rcases Table.lookup_insert_eq_some.mp hl with ⟨-, heq⟩ | ⟨-, hl⟩
    · obtain ⟨-, rfl⟩ := RequestPc.waiting.inj heq
      exact Nat.lt_irrefl _ hlt
    · exact hno k key'' hl
  · intro k key' token hl
    rcases Table.lookup_insert_eq_some.mp hl with ⟨-, heq⟩ | ⟨-, hl⟩
    · obtain ⟨rfl, rfl⟩ := RequestPc.waiting.inj heq
      exact .inl (mem_enqueue he)
    · rcases h.waiting k key' token hl with hq | hh | hw
      · exact .inl (mem_enqueue_of_open he hq (closed_of_waiting hl))
      · exact .inr (.inl hh)
      · exact .inr (.inr hw)
  · exact h.flag
  · intro k _
    show s.shutdown.Ahead k
    cases hs : s.shutdown with
    | waking pc => cases pc <;> simp_all [ShutdownPc.published, ShutdownPc.Ahead, WakePc.Ahead]
    | returned c => simp [hs, ShutdownPc.published] at hopen
    | _ => trivial
  · intro k pc calls hl hc
    rcases Table.lookup_insert_eq_some.mp hl with ⟨-, rfl⟩ | ⟨-, hl⟩
    · cases hc
    · exact h.calls_le k pc calls hl hc
  · intro k pc calls c hl hw hc
    rcases Table.lookup_insert_eq_some.mp hl with ⟨-, rfl⟩ | ⟨-, hl⟩
    · cases hw
    · exact h.calls_lt k pc calls c hl hw hc
  · exact h.returned_le

private theorem inv_enqueueStep {limits : QueueLimits κ} {s : State κ} (h : Inv s) {id : Nat}
    {key : κ} {sees : Bool} (hload : lockedLoad s sees = true) :
    Inv (enqueueStep limits s id key sees) := by
  unfold enqueueStep
  split
  · exact inv_endRequest h id
  · next hsees =>
    have hopen : s.shutdown.published = false := by
      simp only [lockedLoad, hsees, Bool.false_eq_true, if_false, Bool.or_eq_true,
        Bool.not_eq_true'] at hload
      rcases hload with hd | hp
      · by_contra hpub
        have hidle : s.shutdown ≠ .idle := by
          intro hi
          simp [hi, ShutdownPc.published] at hpub
        rw [h.flag hidle] at hd
        cases hd
      · exact hp
    split
    · next queues he => exact inv_enqueued h hopen he
    · next e queues he =>
      have hq : Inv { s with queues } := by
        refine inv_queues h ?_ fun _ _ _ hl ht => mem_enqueue_of_open he ht (closed_of_waiting hl)
        intro k t ht
        rcases enqueue_shrinks_or_new he ht with ht | hr
        · exact ht
        · cases hr
      exact inv_endRequest hq id

private theorem inv_checkDraining {s : State κ} (h : Inv s) {id calls : Nat} {sees : Bool}
    (hl : s.requests.lookup id = some (.subscribed calls))
    (hload : subscribedLoad s calls sees = true) :
    Inv (if sees then endRequest s id else setRequest s id (.checked calls)) := by
  split
  · exact inv_endRequest h id
  · next hsees =>
    refine inv_setRequest h (by simp) ?_ ?_
    · intro n hn
      obtain rfl := Option.some.inj hn
      exact h.calls_le id _ calls hl rfl
    · intro n c hn hc
      obtain rfl := Option.some.inj hn
      have hd : s.draining = true := h.flag (by simp [hc])
      simpa [subscribedLoad, hsees, hc, hd] using hload

private theorem inv_requestStep {limits : QueueLimits κ} {s t : State κ} {l : Label κ} (h : Inv s)
    (hstep : requestStep limits s l = some t) : Inv t := by
  have hrun : ∀ id, Inv (setRequest s id .running) := fun id =>
    inv_setRequest h (by simp) (by simp [RequestPc.calls?]) (by simp [RequestPc.waits?])
  cases l <;> simp only [requestStep, guarded_eq_some, reduceCtorEq] at hstep
  case arrive id =>
    obtain ⟨-, rfl⟩ := hstep
    exact hrun id
  case enqueue id key sees =>
    obtain ⟨⟨-, hload⟩, rfl⟩ := hstep
    exact inv_enqueueStep h hload
  case receive id =>
    split at hstep
    · split at hstep
      · obtain rfl := Option.some.inj hstep
        exact hrun id
      · obtain rfl := Option.some.inj hstep
        exact inv_endRequest h id
      · cases hstep
    · cases hstep
  case giveUp id =>
    split at hstep
    · next key token hl =>
      obtain rfl := Option.some.inj hstep
      exact inv_giveUp h hl
    · cases hstep
  case subscribe id =>
    obtain ⟨-, rfl⟩ := hstep
    refine inv_setRequest h (by simp) ?_ (by simp [RequestPc.waits?])
    intro n hn
    obtain rfl := Option.some.inj hn
    exact Nat.le_refl _
  case checkDraining id sees =>
    split at hstep
    · next calls hl =>
      rw [guarded_eq_some] at hstep
      obtain ⟨hload, rfl⟩ := hstep
      exact inv_checkDraining h hl hload
    · cases hstep
  case skipWait id =>
    split at hstep
    · obtain rfl := Option.some.inj hstep
      exact hrun id
    · cases hstep
  case park id =>
    split at hstep
    · next calls hl =>
      obtain rfl := Option.some.inj hstep
      refine inv_setRequest h (by simp) ?_ ?_
      · intro n hn
        exact h.calls_le id _ n hl hn
      · intro n c hn hc
        exact h.calls_lt id _ n c hl hn hc
    · cases hstep
  case capacityWake id =>
    split at hstep
    · rw [guarded_eq_some] at hstep
      obtain ⟨-, rfl⟩ := hstep
      exact hrun id
    · cases hstep
  case leave id =>
    split at hstep
    · cases hstep
    · obtain rfl := Option.some.inj hstep
      exact inv_endRequest h id
    · cases hstep
  case removeEntry key token =>
    obtain ⟨hm, rfl⟩ := hstep
    exact inv_removeEntry h hm

/-- A step is a step of a request, a wake or the shutdown. -/
theorem step_cases {limits : QueueLimits κ} {s t : State κ} {l : Label κ}
    (h : step limits s l = some t) :
    requestStep limits s l = some t ∨ wakerStep s l = some t ∨ shutdownStep s l = some t := by
  cases l
  case startWaker | wake | cancelWaker => exact .inr (.inl h)
  case beginShutdown | shutdownWake => exact .inr (.inr h)
  all_goals exact .inl h

/-- Every atomic piece keeps the invariant. -/
theorem inv_step {limits : QueueLimits κ} {s t : State κ} {l : Label κ} (h : Inv s)
    (hstep : step limits s l = some t) : Inv t := by
  rcases step_cases hstep with hr | hr | hr
  · exact inv_requestStep h hr
  · exact inv_wakerStep h hr
  · exact inv_shutdownStep h hr

/-! ### After the shutdown has returned -/

private theorem enqueueStep_shutdown (limits : QueueLimits κ) (s : State κ) (id : Nat) (key : κ)
    (sees : Bool) : (enqueueStep limits s id key sees).shutdown = s.shutdown := by
  unfold enqueueStep
  split
  · rfl
  · split <;> rfl

private theorem requestStep_shutdown {limits : QueueLimits κ} {s t : State κ} {l : Label κ}
    (h : requestStep limits s l = some t) : t.shutdown = s.shutdown := by
  cases l <;> simp only [requestStep, guarded_eq_some, reduceCtorEq] at h
  case arrive | subscribe | removeEntry =>
    obtain ⟨-, rfl⟩ := h
    rfl
  case enqueue =>
    obtain ⟨-, rfl⟩ := h
    exact enqueueStep_shutdown ..
  case receive =>
    split at h
    · split at h
      · obtain rfl := Option.some.inj h
        rfl
      · obtain rfl := Option.some.inj h
        rfl
      · cases h
    · cases h
  case checkDraining =>
    split at h
    · rw [guarded_eq_some] at h
      obtain ⟨-, rfl⟩ := h
      split <;> rfl
    · cases h
  case giveUp | skipWait | park =>
    split at h
    · obtain rfl := Option.some.inj h
      rfl
    · cases h
  case capacityWake =>
    split at h
    · rw [guarded_eq_some] at h
      obtain ⟨-, rfl⟩ := h
      rfl
    · cases h
  case leave =>
    split at h
    · cases h
    · obtain rfl := Option.some.inj h
      rfl
    · cases h

private theorem wakerStep_shutdown {s t : State κ} {l : Label κ} (h : wakerStep s l = some t) :
    t.shutdown = s.shutdown := by
  cases l <;> simp only [wakerStep, guarded_eq_some, reduceCtorEq] at h
  case startWaker =>
    obtain ⟨-, rfl⟩ := h
    rfl
  case wake =>
    split at h
    · split at h
      · next hwalk =>
        obtain rfl := Option.some.inj h
        exact (walk_effect hwalk).shutdown
      · next hwalk =>
        obtain rfl := Option.some.inj h
        exact (walk_effect hwalk).shutdown
    · cases h
  case cancelWaker =>
    split at h
    · split at h
      · obtain rfl := Option.some.inj h
        rfl
      · obtain rfl := Option.some.inj h
        rfl
    · cases h

private theorem returned_step {limits : QueueLimits κ} {s t : State κ} {l : Label κ} {c : Nat}
    (hc : s.shutdown = .returned c) (h : step limits s l = some t) :
    t.shutdown = .returned c := by
  rcases step_cases h with hr | hr | hr
  · rw [requestStep_shutdown hr, hc]
  · rw [wakerStep_shutdown hr, hc]
  · cases l <;> simp [shutdownStep, hc] at hr

/-- Nobody is stranded: the queues are empty, a request that waits for an entry has been given
its wake or is in the hands of a running wake, and one that waits for capacity has been notified. -/
structure NobodyStranded (s : State κ) : Prop where
  queues : ∀ key, queueOf s.queues key = []
  waiting : ∀ id key token, s.requests.lookup id = some (.waiting key token) →
    Held s token ∨ (s.wakes.lookup token).isSome
  parked : ∀ id calls, s.requests.lookup id = some (.parked calls) → calls < s.notifyCalls

/-- From the return of the shutdown on, in every state, nobody is stranded. -/
theorem returned_shutdown_strands_nobody (limits : QueueLimits κ) (s : State κ)
    (hs : Reachable (step limits) State.init s) (c : Nat) (hc : s.shutdown = .returned c)
    (ls : List (Label κ)) (t : State κ) (ht : exec (step limits) s ls = some t) :
    t.shutdown = .returned c ∧ NobodyStranded t := by
  have hstable : t.shutdown = .returned c :=
    exec_invariant (fun _ _ _ => returned_step) hc ht
  have hinv : Inv t := by
    apply exec_invariant (fun _ _ _ => inv_step) _ ht
    exact hs.invariant (fun _ _ _ => inv_step) inv_init
  have hempty : ∀ key, queueOf t.queues key = [] := by
    intro key
    by_contra hk
    have ha := hinv.ahead key hk
    rw [hstable] at ha
    exact ha
  refine ⟨hstable, hempty, ?_, ?_⟩
  · intro id key token hl
    rcases hinv.waiting id key token hl with hq | hw
    · rw [hempty key] at hq
      cases hq
    · exact hw
  · intro id calls hl
    have hlt := hinv.calls_lt id _ calls c hl rfl hstable
    have hle := hinv.returned_le c hstable
    omega

/-- Two requests wait in queues and one for capacity when the shutdown runs; a third request still
misses the store under the lock before the snapshot. -/
def drainRun : List (Label Nat) :=
  [.arrive 0, .enqueue 0 5 false, .arrive 1, .subscribe 1, .checkDraining 1 false, .park 1,
    .arrive 2, .beginShutdown, .enqueue 2 6 false, .shutdownWake, .shutdownWake, .shutdownWake,
    .shutdownWake, .shutdownWake, .shutdownWake, .shutdownWake, .shutdownWake, .shutdownWake,
    .shutdownWake, .shutdownWake, .shutdownWake]

/-- The theorem applies to that run and what follows it. -/
theorem drainRun_strands_nobody :
    ∃ s t : State Nat, exec (step ⟨0, fun _ => 0⟩) State.init drainRun = some s ∧
      exec (step ⟨0, fun _ => 0⟩) s [.receive 0, .capacityWake 1] = some t ∧
      s.shutdown = .returned 1 ∧ NobodyStranded t :=
  ⟨_, _, rfl, rfl, rfl, (returned_shutdown_strands_nobody ⟨0, fun _ => 0⟩ _ ⟨drainRun, rfl⟩ 1 rfl
    [.receive 0, .capacityWake 1] _ rfl).2⟩

end Llamesh.Shutdown
