import Llamesh.Queue.Structure

/-!
# No entry and no token is left behind

Every queue entry has an armed guard or a task that will remove it, and every pending token has a
permit, in a channel, with a request or with a waker, or a task that will give it back. Once these
have finished, nothing of a request is left, and the gauge of pending tokens is exact at any time.
-/

namespace Llamesh.Queue

open Transition

universe u

variable {κ : Type u}

/-- The entry a waker has taken and not sent. -/
def Waker.entry : Waker κ → Option (κ × Nat)
  | .taking _ => none
  | .popped key token | .promoted key token | .refused key token => some (key, token)

/-- The permit a waker has. -/
def Waker.permit : Waker κ → Option (κ × Nat)
  | .taking _ | .popped _ _ => none
  | .promoted key token | .refused key token => some (key, token)

private theorem Waker.entry_of_permit {pc : Waker κ} {entry : κ × Nat}
    (h : pc.permit = some entry) :
    pc.entry = some entry := by
  cases pc with
  | taking => cases h
  | popped => cases h
  | promoted => exact h
  | refused => exact h

variable [DecidableEq κ] {limits : QueueLimits κ} {s t : State κ} {l : Label κ} {key k : κ}
  {token : Nat}

/-! ### The gauge -/

/-- The gauge counts the pending tokens. -/
def Gauged (s : State κ) : Prop :=
  s.pendingTokens = Table.sum s.pending fun _ set => set.length

private theorem length_filter_ne_add_count (queue : List Nat) (token : Nat) :
    (queue.filter fun t => decide (t ≠ token)).length + queue.count token = queue.length := by
  have hsplit := List.length_eq_countP_add_countP (fun t => t == token) (l := queue)
  have hfilter : (queue.filter fun t => decide (t ≠ token)).length =
      queue.countP fun a => decide ¬(a == token) = true := by
    rw [List.countP_eq_length_filter]
    simp
  rw [List.count, hfilter]
  omega

private theorem Gauged.removeToken (h : Gauged s) (hone : occurrences s.pending token ≤ 1)
    (key : κ) : Gauged (s.removeToken key token) := by
  unfold Gauged at h ⊢
  have hsum := sum_setQueue (f := fun _ set => set.length) s.pending key
    ((queueOf s.pending key).filter fun t => decide (t ≠ token)) rfl
  have hlength := length_filter_ne_add_count (queueOf s.pending key) token
  have hcount := Nat.le_trans (count_le_occurrences s.pending key token) hone
  have hpending : (s.removeToken key token).pending =
      setQueue s.pending key ((queueOf s.pending key).filter fun t => decide (t ≠ token)) := rfl
  rw [hpending]
  unfold State.removeToken
  dsimp only at hsum ⊢
  split
  · next hmem =>
    have hpos := List.count_pos_iff.mpr hmem
    omega
  · next hmem =>
    have hzero := List.count_eq_zero.mpr hmem
    omega

private theorem Gauged.promoteToken (h : Gauged s) (key : κ) (token : Nat) :
    Gauged (s.promoteToken key token) := by
  unfold Gauged State.promoteToken Queue.promote at *
  dsimp only
  split
  · exact h
  · have hsum := sum_setQueue (f := fun _ set => set.length) s.pending key
      (queueOf s.pending key ++ [token]) rfl
    simp only [List.length_append, List.length_singleton] at hsum
    omega

omit [DecidableEq κ] in
private theorem gauged_dropReceiver (h : Gauged s) (token : Nat) (w : Waiter κ) (phase : Phase) :
    Gauged (dropReceiver s token w phase) := by
  unfold dropReceiver State.spawnTokenRemover
  split <;> exact h

private theorem gauged_waiterStep {w : Waiter κ} (h : Gauged s) (honce : Once s)
    (hs : waiterStep s token w l = some t) : Gauged t := by
  have hone : occurrences s.pending token ≤ 1 := by
    have hplaces := honce.atMost token
    unfold State.places at hplaces
    omega
  unfold waiterStep at hs
  split at hs
  · obtain ⟨-, rfl⟩ := guarded_eq_some.mp hs
    exact h
  · obtain ⟨-, rfl⟩ := guarded_eq_some.mp hs
    exact gauged_dropReceiver h token w _
  · obtain ⟨-, rfl⟩ := guarded_eq_some.mp hs
    exact h
  · obtain ⟨-, rfl⟩ := guarded_eq_some.mp hs
    exact h
  · split at hs
    · cases hs
      exact h
    · cases hs
  · split at hs
    · cases hs
      exact gauged_dropReceiver (h.removeToken hone w.key) token w _
    · cases hs
  · obtain ⟨-, rfl⟩ := guarded_eq_some.mp hs
    exact h.removeToken hone w.key
  · obtain ⟨-, rfl⟩ := guarded_eq_some.mp hs
    have hdrop := gauged_dropReceiver h token w .gone
    unfold State.spawnEntryRemover State.spawnTokenRemover
    split <;> split <;> exact hdrop
  · cases hs

private theorem gauged_wakerStep {waker : Nat} {pc : Waker κ} (h : Gauged s) (honce : Once s)
    (hs : wakerStep s waker pc l = some t) : Gauged t := by
  unfold wakerStep at hs
  split at hs
  · split at hs
    · cases hs
      exact h
    · cases hs
      exact h
  · next key token _ =>
    cases hs
    exact h.promoteToken key token
  · split at hs
    · split at hs
      · cases hs
        exact h
      · cases hs
        exact h
    · cases hs
      exact h
  · next key token _ =>
    cases hs
    have hplaces := honce.atMost token
    unfold State.places at hplaces
    exact h.removeToken (by omega) key
  · cases hs
    exact h
  · cases hs
    exact h
  · cases hs
    exact h
  · cases hs

private theorem gauged_step (h : Gauged s) (honce : Once s) (hs : step limits s l = some t) :
    Gauged t := by
  rcases step_cases hs with ⟨key, rfl⟩ | ⟨token, w, -, hs⟩ | ⟨waker, key, -, rfl⟩ |
    ⟨waker, pc, -, hs⟩ | ⟨key, token, -, rfl⟩ | ⟨key, token, -, rfl⟩
  · unfold enqueueStep
    split <;> exact h
  · exact gauged_waiterStep h honce hs
  · exact h
  · exact gauged_wakerStep h honce hs
  · exact h
  · have hplaces := honce.atMost token
    unfold State.places at hplaces
    exact h.removeToken (by omega) key

/-! ### Who removes an entry or a token -/

/-- Someone has the permit of a pending token. -/
def PermitHeld (s : State κ) (key : κ) (token : Nat) (w : Waiter κ) : Prop :=
  w.permit = true ∨ w.phase = .holding ∨
    (∃ waker pc, s.wakers.lookup waker = some pc ∧ pc.permit = some (key, token)) ∨
    (key, token) ∈ s.tokenRemovers

/-- The request of every queue entry and of every pending token is known, and someone will remove
the entry or give the token back. -/
structure Owned (s : State κ) : Prop where
  given : ∀ token w, s.waiters.lookup token = some w → token < s.tokenCounter
  queued : ∀ key token, token ∈ queueOf s.queues key → ∃ w, s.waiters.lookup token = some w ∧
    w.key = key ∧ (w.phase.armed = true ∨ (key, token) ∈ s.entryRemovers)
  pending : ∀ key token, token ∈ queueOf s.pending key → ∃ w, s.waiters.lookup token = some w ∧
    w.key = key ∧ PermitHeld s key token w
  wakers : ∀ waker pc key token, s.wakers.lookup waker = some pc → pc.entry = some (key, token) →
    (key, token) ∈ s.taken ∧ ∃ w, s.waiters.lookup token = some w ∧ w.key = key
  permits : ∀ token w, s.waiters.lookup token = some w → w.permit = true →
    w.phase.receiving = true ∧ (w.key, token) ∈ s.taken

private theorem owned_init : Owned (State.init : State κ) where
  given _ _ h := by cases h
  queued _ _ h := by cases h
  pending _ _ h := by cases h
  wakers _ _ _ _ h := by cases h
  permits _ _ h := by cases h

private theorem Owned.waiter (h : Owned s) {w : Waiter κ} (w' : Waiter κ)
    (hw : s.waiters.lookup token = some w) (hkey : w'.key = w.key)
    (hwaiters : t.waiters = s.waiters.insert token w') (hwakers : t.wakers = s.wakers)
    (htaken : t.taken = s.taken) (hc : t.tokenCounter = s.tokenCounter)
    (hq : ∀ k, queueOf t.queues k ⊆ queueOf s.queues k)
    (hp : ∀ k, queueOf t.pending k ⊆ queueOf s.pending k)
    (he : s.entryRemovers ⊆ t.entryRemovers) (hr : s.tokenRemovers ⊆ t.tokenRemovers)
    (harmed : token ∈ queueOf t.queues w.key → w.phase.armed = true →
      w'.phase.armed = true ∨ (w.key, token) ∈ t.entryRemovers)
    (hheld : token ∈ queueOf t.pending w.key → w.permit = true ∨ w.phase = .holding →
      w'.permit = true ∨ w'.phase = .holding ∨ (w.key, token) ∈ t.tokenRemovers)
    (hpermit : w'.permit = true → w.permit = true ∧ w'.phase.receiving = true) : Owned t where
  -- only its own entry of the table changes, and what it still had is removed, kept, or handed to a
  -- task
  given tok v hv := by
    rw [hc]
    rw [hwaiters] at hv
    rcases Table.lookup_insert_eq_some.mp hv with ⟨rfl, -⟩ | ⟨-, hv⟩
    · exact h.given tok w hw
    · exact h.given tok v hv
  queued key tok hmem := by
    obtain ⟨v, hv, hvkey, hown⟩ := h.queued key tok (hq key hmem)
    rw [hwaiters, Table.lookup_insert_eq]
    split
    · next heq =>
      subst heq
      obtain rfl : v = w := Option.some.inj (hv.symm.trans hw)
      refine ⟨w', rfl, hkey.trans hvkey, ?_⟩
      subst hvkey
      rcases hown with hown | hown
      · exact harmed hmem hown
      · exact Or.inr (he hown)
    · exact ⟨v, hv, hvkey, hown.imp_right fun hmem => he hmem⟩
  pending key tok hmem := by
    obtain ⟨v, hv, hvkey, hown⟩ := h.pending key tok (hp key hmem)
    rw [hwaiters, Table.lookup_insert_eq]
    unfold PermitHeld at hown ⊢
    rw [hwakers]
    split
    · next heq =>
      subst heq
      obtain rfl : v = w := Option.some.inj (hv.symm.trans hw)
      refine ⟨w', rfl, hkey.trans hvkey, ?_⟩
      subst hvkey
      rcases hown with hown | hown | hown | hown
      · rcases hheld hmem (Or.inl hown) with hp | hh | hr
        · exact Or.inl hp
        · exact Or.inr (Or.inl hh)
        · exact Or.inr (Or.inr (Or.inr hr))
      · rcases hheld hmem (Or.inr hown) with hp | hh | hr
        · exact Or.inl hp
        · exact Or.inr (Or.inl hh)
        · exact Or.inr (Or.inr (Or.inr hr))
      · exact Or.inr (Or.inr (Or.inl hown))
      · exact Or.inr (Or.inr (Or.inr (hr hown)))
    · refine ⟨v, hv, hvkey, ?_⟩
      rcases hown with hown | hown | hown | hown
      · exact Or.inl hown
      · exact Or.inr (Or.inl hown)
      · exact Or.inr (Or.inr (Or.inl hown))
      · exact Or.inr (Or.inr (Or.inr (hr hown)))
  wakers waker pc key tok hpc hentry := by
    rw [hwakers] at hpc
    obtain ⟨ht, v, hv, hvkey⟩ := h.wakers waker pc key tok hpc hentry
    refine ⟨htaken ▸ ht, ?_⟩
    rw [hwaiters, Table.lookup_insert_eq]
    split
    · next heq =>
      subst heq
      obtain rfl : v = w := Option.some.inj (hv.symm.trans hw)
      exact ⟨w', rfl, hkey.trans hvkey⟩
    · exact ⟨v, hv, hvkey⟩
  permits tok v hv hpv := by
    rw [hwaiters] at hv
    rw [htaken]
    rcases Table.lookup_insert_eq_some.mp hv with ⟨rfl, rfl⟩ | ⟨-, hv⟩
    · obtain ⟨hold, hreceiving⟩ := hpermit hpv
      exact ⟨hreceiving, hkey ▸ (h.permits tok w hw hold).2⟩
    · exact h.permits tok v hv hpv

omit [DecidableEq κ] in
private theorem mem_spawnTokenRemover {spawns : Bool} {entry : κ × Nat} :
    entry ∈ (s.spawnTokenRemover spawns key token).tokenRemovers ↔
      spawns = true ∧ entry = (key, token) ∨ entry ∈ s.tokenRemovers := by
  unfold State.spawnTokenRemover
  cases spawns <;> simp

omit [DecidableEq κ] in
private theorem mem_spawnEntryRemover {spawns : Bool} {entry : κ × Nat} :
    entry ∈ (s.spawnEntryRemover spawns key token).entryRemovers ↔
      spawns = true ∧ entry = (key, token) ∨ entry ∈ s.entryRemovers := by
  unfold State.spawnEntryRemover
  cases spawns <;> simp

omit [DecidableEq κ] in
@[simp] private theorem waiters_spawnTokenRemover (s : State κ) (spawns : Bool) (key : κ)
    (token : Nat) : (s.spawnTokenRemover spawns key token).waiters = s.waiters := by
  unfold State.spawnTokenRemover
  split <;> rfl

omit [DecidableEq κ] in
@[simp] private theorem waiters_spawnEntryRemover (s : State κ) (spawns : Bool) (key : κ)
    (token : Nat) : (s.spawnEntryRemover spawns key token).waiters = s.waiters := by
  unfold State.spawnEntryRemover
  split <;> rfl

omit [DecidableEq κ] in
@[simp] private theorem entryRemovers_spawnTokenRemover (s : State κ) (spawns : Bool) (key : κ)
    (token : Nat) : (s.spawnTokenRemover spawns key token).entryRemovers = s.entryRemovers := by
  unfold State.spawnTokenRemover
  split <;> rfl

omit [DecidableEq κ] in
@[simp] private theorem tokenRemovers_spawnEntryRemover (s : State κ) (spawns : Bool) (key : κ)
    (token : Nat) : (s.spawnEntryRemover spawns key token).tokenRemovers = s.tokenRemovers := by
  unfold State.spawnEntryRemover
  split <;> rfl

private theorem token_notMem_removeQueueEntry (queues : Queues κ) (key : κ) (token : Nat) :
    token ∉ queueOf (removeQueueEntry queues key token) key := by
  rw [queueOf_removeQueueEntry, if_pos rfl]
  simp

private theorem removeQueueEntry_subset (queues : Queues κ) (key : κ) (token : Nat) (k : κ) :
    queueOf (removeQueueEntry queues key token) k ⊆ queueOf queues k :=
  fun _ => mem_removeQueueEntry

private theorem owned_dropReceiver (h : Owned s) {w : Waiter κ}
    (hw : s.waiters.lookup token = some w) {phase : Phase}
    (harmed : w.phase.armed = true → phase.armed = true)
    (hholding : token ∈ queueOf s.pending w.key → w.phase ≠ .holding) :
    Owned (dropReceiver s token w phase) := by
  have hcore := core_dropReceiver s token w phase
  have hremovers : ∀ entry, entry ∈ (dropReceiver s token w phase).tokenRemovers ↔
      w.permit = true ∧ entry = (w.key, token) ∨ entry ∈ s.tokenRemovers :=
    fun _ => mem_spawnTokenRemover
  have hpending : (dropReceiver s token w phase).pending = s.pending :=
    congrArg Core.pending hcore
  refine h.waiter { w with phase, permit := false } hw rfl ?_
    (congrArg Core.wakers hcore) (congrArg Core.taken hcore) (congrArg Core.tokenCounter hcore)
    ?_ ?_ ?_ ?_ ?_ ?_ ?_
  · simp [dropReceiver, State.setWaiter]
  · intro k
    rw [show (dropReceiver s token w phase).queues = s.queues from congrArg Core.queues hcore]
    exact fun _ hmem => hmem
  · intro k
    rw [hpending]
    exact fun _ hmem => hmem
  · simp [dropReceiver, State.setWaiter]
  · intro entry hmem
    exact (hremovers entry).mpr (Or.inr hmem)
  · intro _ hw
    exact Or.inl (harmed hw)
  · rintro hmem (hp | hh)
    · exact Or.inr (Or.inr ((hremovers _).mpr (Or.inl ⟨hp, rfl⟩)))
    · rw [hpending] at hmem
      exact absurd hh (hholding hmem)
  · intro hp
    cases hp

private theorem Owned.removeToken (h : Owned s) (key : κ) (token : Nat) :
    Owned (s.removeToken key token) where
  given := h.given
  queued := h.queued
  pending k tok hmem := h.pending k tok (mem_removeQueueEntry hmem)
  wakers := h.wakers
  permits := h.permits

private theorem owned_cancel (h : Owned s) {w : Waiter κ} (hw : s.waiters.lookup token = some w) :
    Owned (((dropReceiver s token w .gone).spawnEntryRemover w.phase.armed w.key
      token).spawnTokenRemover (w.phase == .holding) w.key token) := by
  have hcore : (((dropReceiver s token w .gone).spawnEntryRemover w.phase.armed w.key
      token).spawnTokenRemover (w.phase == .holding) w.key token).core = s.core := by simp
  have hq := congrArg Core.queues hcore
  have hp := congrArg Core.pending hcore
  refine h.waiter { w with phase := .gone, permit := false } hw rfl ?_
    (congrArg Core.wakers hcore) (congrArg Core.taken hcore) (congrArg Core.tokenCounter hcore)
    ?_ ?_ ?_ ?_ ?_ ?_ ?_
  · simp [dropReceiver, State.setWaiter]
  · intro k
    rw [show State.queues _ = s.queues from hq]
    exact fun _ hmem => hmem
  · intro k
    rw [show State.pending _ = s.pending from hp]
    exact fun _ hmem => hmem
  · intro entry hmem
    rw [entryRemovers_spawnTokenRemover, mem_spawnEntryRemover]
    exact Or.inr (by simpa [dropReceiver, State.setWaiter] using hmem)
  · intro entry hmem
    rw [mem_spawnTokenRemover, tokenRemovers_spawnEntryRemover, dropReceiver,
      mem_spawnTokenRemover]
    exact Or.inr (Or.inr hmem)
  · intro _ harmed
    rw [entryRemovers_spawnTokenRemover, mem_spawnEntryRemover]
    exact Or.inr (Or.inl ⟨harmed, rfl⟩)
  · intro _ hheld
    rw [mem_spawnTokenRemover, tokenRemovers_spawnEntryRemover, dropReceiver,
      mem_spawnTokenRemover]
    rcases hheld with hpermit | hholding
    · exact Or.inr (Or.inr (Or.inr (Or.inl ⟨hpermit, rfl⟩)))
    · exact Or.inr (Or.inr (Or.inl ⟨by simp [hholding], rfl⟩))
  · intro hp
    cases hp

private theorem owned_waiterStep {w : Waiter κ} (h : Owned s) (ho : Ordered s)
    (hw : s.waiters.lookup token = some w) (hs : waiterStep s token w l = some t) : Owned t := by
  have hsub : ∀ (queues : Queues κ) k, queueOf queues k ⊆ queueOf queues k := fun _ _ _ hm => hm
  unfold waiterStep at hs
  split at hs
  · -- A waiter whose channel has a permit is in no queue, so it may do without its guard.
    obtain ⟨⟨hphase, hpermit⟩, rfl⟩ := guarded_eq_some.mp hs
    have hnot := ho.notMem_queue (h.permits token w hw hpermit).2
    exact h.waiter { w with phase := .holding, permit := false } hw rfl rfl rfl rfl rfl
      (hsub _) (hsub _) (List.Subset.refl _) (List.Subset.refl _) (fun hmem => absurd hmem hnot)
      (fun _ _ => Or.inr (Or.inl rfl)) (fun hp => by cases hp)
  · obtain ⟨hphase, rfl⟩ := guarded_eq_some.mp hs
    exact owned_dropReceiver h hw (fun _ => rfl) (fun _ hh => by simp [hphase] at hh)
  · obtain ⟨hphase, rfl⟩ := guarded_eq_some.mp hs
    exact h.waiter { w with phase := .expiring true } hw rfl rfl rfl rfl rfl
      (hsub _) (hsub _) (List.Subset.refl _) (List.Subset.refl _) (fun _ _ => Or.inl rfl)
      (fun _ hheld => hheld.imp_right fun hh => absurd hh (by simp [hphase]))
      (fun hp => ⟨hp, rfl⟩)
  · obtain ⟨⟨hphase, hpermit, -⟩, rfl⟩ := guarded_eq_some.mp hs
    exact h.waiter { w with phase := .expiring false } hw rfl rfl rfl rfl rfl
      (hsub _) (hsub _) (List.Subset.refl _) (List.Subset.refl _) (fun _ _ => Or.inl rfl)
      (fun _ hheld => hheld.imp_right fun hh => absurd hh (by simp [hphase]))
      (fun hp => absurd hp (by simp [hpermit]))
  · split at hs
    · next rxOpen hphase =>
      cases hs
      exact h.waiter { w with phase := .expired rxOpen } hw rfl rfl rfl rfl rfl
        (removeQueueEntry_subset _ _ _) (hsub _) (List.Subset.refl _) (List.Subset.refl _)
        (fun hmem => absurd hmem (token_notMem_removeQueueEntry _ _ _))
        (fun _ hheld => hheld.imp_right fun hh => absurd hh (by simp [hphase]))
        (fun hp => ⟨hp, by simpa [hphase, Phase.receiving] using (h.permits token w hw hp).1⟩)
    · cases hs
  · split at hs
    · next rxOpen hphase =>
      cases hs
      exact owned_dropReceiver (h.removeToken w.key token) hw
        (fun hh => by simp [hphase, Phase.armed] at hh)
        (fun hmem => absurd hmem (token_notMem_removeQueueEntry _ _ _))
    · cases hs
  · obtain ⟨hphase, rfl⟩ := guarded_eq_some.mp hs
    exact h.waiter { w with phase := .gone } hw rfl rfl rfl rfl rfl (hsub _)
      (removeQueueEntry_subset _ _ _) (List.Subset.refl _) (List.Subset.refl _)
      (fun _ hh => absurd hh (by simp [hphase, Phase.armed]))
      (fun hmem => absurd hmem (token_notMem_removeQueueEntry _ _ _))
      (fun hp => absurd (h.permits token w hw hp).1 (by simp [hphase, Phase.receiving]))
  · obtain ⟨-, rfl⟩ := guarded_eq_some.mp hs
    exact owned_cancel h hw
  · cases hs

private theorem Owned.waker (h : Owned s) {waker : Nat} {pc : Waker κ} (pc' : Option (Waker κ))
    (hpc : s.wakers.lookup waker = some pc)
    (hwakers : ∀ k, t.wakers.lookup k = if k = waker then pc' else s.wakers.lookup k)
    (hwaiters : t.waiters = s.waiters) (htaken : s.taken ⊆ t.taken)
    (hc : t.tokenCounter = s.tokenCounter) (hq : ∀ k, queueOf t.queues k ⊆ queueOf s.queues k)
    (he : t.entryRemovers = s.entryRemovers) (hr : s.tokenRemovers ⊆ t.tokenRemovers)
    (hp : ∀ k tok, tok ∈ queueOf t.pending k →
      tok ∈ queueOf s.pending k ∨ ∃ p, pc' = some p ∧ p.permit = some (k, tok))
    (hheld : ∀ k tok, pc.permit = some (k, tok) → tok ∈ queueOf t.pending k →
      (∃ p, pc' = some p ∧ p.permit = some (k, tok)) ∨ (k, tok) ∈ t.tokenRemovers)
    (hnew : ∀ p k tok, pc' = some p → p.entry = some (k, tok) →
      (k, tok) ∈ t.taken ∧ ∃ w, s.waiters.lookup tok = some w ∧ w.key = k) : Owned t where
  -- `pc'` is where the waker goes on, if it does; its permit is with it, given back or left to a
  -- task
  given tok w hw := by
    rw [hc]
    rw [hwaiters] at hw
    exact h.given tok w hw
  queued key tok hmem := by
    rw [hwaiters, he]
    exact h.queued key tok (hq key hmem)
  pending key tok hmem := by
    have hhere : ∀ p, pc' = some p → p.permit = some (key, tok) →
        ∃ waker pc, t.wakers.lookup waker = some pc ∧ pc.permit = some (key, tok) := by
      intro p hp hpermit
      exact ⟨waker, p, by rw [hwakers, if_pos rfl, hp], hpermit⟩
    rw [hwaiters]
    rcases hp key tok hmem with hold | ⟨p, hp, hpermit⟩
    · obtain ⟨w, hw, hkey, hown⟩ := h.pending key tok hold
      refine ⟨w, hw, hkey, ?_⟩
      rcases hown with hown | hown | ⟨v, pcv, hpcv, hpermit⟩ | hown
      · exact Or.inl hown
      · exact Or.inr (Or.inl hown)
      · by_cases hv : v = waker
        · rw [hv, hpc] at hpcv
          obtain rfl := Option.some.inj hpcv
          rcases hheld key tok hpermit hmem with ⟨p, hp, hpermit⟩ | hmem
          · exact Or.inr (Or.inr (Or.inl (hhere p hp hpermit)))
          · exact Or.inr (Or.inr (Or.inr hmem))
        · exact Or.inr (Or.inr (Or.inl ⟨v, pcv, by rw [hwakers, if_neg hv, hpcv], hpermit⟩))
      · exact Or.inr (Or.inr (Or.inr (hr hown)))
    · obtain ⟨-, w, hw, hkey⟩ := hnew p key tok hp (Waker.entry_of_permit hpermit)
      exact ⟨w, hw, hkey, Or.inr (Or.inr (Or.inl (hhere p hp hpermit)))⟩
  wakers v pcv key tok hpcv hentry := by
    rw [hwakers] at hpcv
    rw [hwaiters]
    split at hpcv
    · exact hnew pcv key tok hpcv hentry
    · obtain ⟨ht, hw⟩ := h.wakers v pcv key tok hpcv hentry
      exact ⟨htaken ht, hw⟩
  permits tok w hw hpermit := by
    rw [hwaiters] at hw
    obtain ⟨hreceiving, ht⟩ := h.permits tok w hw hpermit
    exact ⟨hreceiving, htaken ht⟩

private theorem owned_send (h : Owned s) {waker : Nat} {w : Waiter κ}
    (hpc : s.wakers.lookup waker = some (.promoted key token))
    (hw : s.waiters.lookup token = some w) (hreceiving : w.phase.receiving = true) :
    Owned ((s.setWaiter token { w with permit := true }).endWaker waker) := by
  obtain ⟨htaken, v, hv, rfl⟩ := h.wakers waker _ key token hpc rfl
  obtain rfl : v = w := Option.some.inj (hv.symm.trans hw)
  have hlookup : ∀ tok, (s.waiters.insert token { v with permit := true }).lookup tok =
      if tok = token then some { v with permit := true } else s.waiters.lookup tok :=
    fun tok => Table.lookup_insert_eq ..
  constructor
  · intro tok u hu
    rcases Table.lookup_insert_eq_some.mp hu with ⟨rfl, -⟩ | ⟨-, hu⟩
    · exact h.given tok v hw
    · exact h.given tok u hu
  · intro k tok hmem
    obtain ⟨u, hu, hkey, hown⟩ := h.queued k tok hmem
    change ∃ w, (s.waiters.insert token _).lookup tok = some w ∧ _
    rw [hlookup]
    split
    · next heq =>
      subst heq
      obtain rfl : u = v := Option.some.inj (hu.symm.trans hw)
      exact ⟨_, rfl, hkey, hown⟩
    · exact ⟨u, hu, hkey, hown⟩
  · intro k tok hmem
    obtain ⟨u, hu, hkey, hown⟩ := h.pending k tok hmem
    change ∃ w, (s.waiters.insert token _).lookup tok = some w ∧ _
    rw [hlookup]
    split
    · next heq =>
      subst heq
      obtain rfl : u = v := Option.some.inj (hu.symm.trans hw)
      exact ⟨_, rfl, hkey, Or.inl rfl⟩
    · next hne =>
      refine ⟨u, hu, hkey, ?_⟩
      rcases hown with hown | hown | ⟨x, pcx, hpcx, hpermit⟩ | hown
      · exact Or.inl hown
      · exact Or.inr (Or.inl hown)
      · -- The waker that ends had another token.
        have hx : x ≠ waker := by
          rintro rfl
          rw [hpc] at hpcx
          obtain rfl := Option.some.inj hpcx
          cases hpermit
          exact hne rfl
        exact Or.inr (Or.inr (Or.inl ⟨x, pcx, Table.lookup_erase_eq_some.mpr ⟨hx, hpcx⟩, hpermit⟩))
      · exact Or.inr (Or.inr (Or.inr hown))
  · intro x pcx k tok hpcx hentry
    obtain ⟨ht, u, hu, hkey⟩ := h.wakers x pcx k tok (Table.lookup_erase_eq_some.mp hpcx).2 hentry
    refine ⟨ht, ?_⟩
    change ∃ w, (s.waiters.insert token _).lookup tok = some w ∧ _
    rw [hlookup]
    split
    · next heq =>
      subst heq
      obtain rfl : u = v := Option.some.inj (hu.symm.trans hw)
      exact ⟨_, rfl, hkey⟩
    · exact ⟨u, hu, hkey⟩
  · intro tok u hu hpermit
    rcases Table.lookup_insert_eq_some.mp hu with ⟨rfl, rfl⟩ | ⟨-, hu⟩
    · exact ⟨hreceiving, htaken⟩
    · exact h.permits tok u hu hpermit

private theorem owned_wakerStep {waker : Nat} {pc : Waker κ} (h : Owned s)
    (hpc : s.wakers.lookup waker = some pc) (hs : wakerStep s waker pc l = some t) : Owned t := by
  have hinsert : ∀ (pc' : Waker κ) k, (s.wakers.insert waker pc').lookup k =
      if k = waker then some pc' else s.wakers.lookup k := fun _ _ => Table.lookup_insert_eq ..
  have herase : ∀ k, (s.wakers.erase waker).lookup k =
      if k = waker then none else s.wakers.lookup k := fun _ => Table.lookup_erase_eq ..
  have hrefl : ∀ (queues : Queues κ) k, queueOf queues k ⊆ queueOf queues k := fun _ _ _ hm => hm
  unfold wakerStep at hs
  split at hs
  · next key _ =>
    split at hs
    · next token rest hpop =>
      obtain ⟨hfront, hother⟩ := popFront_some hpop
      cases hs
      have hsub : ∀ k, queueOf rest k ⊆ queueOf s.queues k := by
        intro k tok hmem
        by_cases hk : k = key
        · subst hk
          rw [hfront]
          exact List.mem_cons_of_mem _ hmem
        · rwa [← hother k hk]
      refine h.waker (some (.popped key token)) hpc (hinsert _) rfl
        (List.subset_append_left _ _) rfl hsub rfl (List.Subset.refl _) (fun _ _ => Or.inl)
        (fun _ _ hpermit => by cases hpermit) ?_
      intro p k tok hp hentry
      cases hp
      cases hentry
      obtain ⟨w, hw, hkey, -⟩ := h.queued key token (by rw [hfront]; exact List.mem_cons_self)
      exact ⟨by simp, w, hw, hkey⟩
    · next rest hpop =>
      obtain ⟨-, hsame⟩ := popFront_none hpop
      cases hs
      exact h.waker none hpc herase rfl (List.Subset.refl _) rfl
        (fun k tok hmem => (hsame k) ▸ hmem) rfl (List.Subset.refl _) (fun _ _ => Or.inl)
        (fun _ _ hpermit => by cases hpermit) (fun _ _ _ hp => by cases hp)
  · next key token _ =>
    cases hs
    refine h.waker (some (.promoted key token)) hpc (hinsert _) rfl (List.Subset.refl _) rfl
      (hrefl _) rfl (List.Subset.refl _) ?_ (fun _ _ hpermit => by cases hpermit) ?_
    · intro k tok hmem
      change tok ∈ queueOf (Queue.promote s.pending key token) k at hmem
      unfold Queue.promote at hmem
      split at hmem
      · exact Or.inl hmem
      · rw [queueOf_setQueue] at hmem
        split at hmem
        · next heq =>
          subst heq
          rcases List.mem_append.mp hmem with hmem | hmem
          · exact Or.inl hmem
          · obtain rfl := List.mem_singleton.mp hmem
            exact Or.inr ⟨_, rfl, rfl⟩
        · exact Or.inl hmem
    · intro p k tok hp hentry
      cases hp
      exact h.wakers waker _ k tok hpc hentry
  · next key token _ =>
    have hrefused : Owned (s.setWaker waker (.refused key token)) := by
      refine h.waker (some (.refused key token)) hpc (hinsert _) rfl (List.Subset.refl _) rfl
        (hrefl _) rfl (List.Subset.refl _) (fun _ _ => Or.inl)
        (fun k tok hpermit _ => Or.inl ⟨_, rfl, hpermit⟩) ?_
      intro p k tok hp hentry
      cases hp
      exact h.wakers waker _ k tok hpc hentry
    split at hs
    · next w hw =>
      split at hs
      · next hreceiving =>
        cases hs
        exact owned_send h hpc hw hreceiving
      · cases hs
        exact hrefused
    · cases hs
      exact hrefused
  · next key token _ =>
    cases hs
    refine h.waker (some (.taking key)) hpc (hinsert _) rfl (List.Subset.refl _) rfl (hrefl _) rfl
      (List.Subset.refl _) (fun k tok hmem => Or.inl (mem_removeQueueEntry hmem)) ?_ ?_
    · intro k tok hpermit hmem
      cases hpermit
      exact absurd hmem (token_notMem_removeQueueEntry _ _ _)
    · intro p k tok hp hentry
      cases hp
      cases hentry
  · cases hs
    exact h.waker none hpc herase rfl (List.Subset.refl _) rfl (hrefl _) rfl (List.Subset.refl _)
      (fun _ _ => Or.inl) (fun _ _ hpermit => by cases hpermit) (fun _ _ _ hp => by cases hp)
  · cases hs
    exact h.waker none hpc herase rfl (List.Subset.refl _) rfl (hrefl _) rfl (List.Subset.refl _)
      (fun _ _ => Or.inl) (fun _ _ hpermit => by cases hpermit) (fun _ _ _ hp => by cases hp)
  · next key token _ =>
    cases hs
    refine h.waker none hpc herase rfl (List.Subset.refl _) rfl (hrefl _) rfl
      (List.subset_cons_self _ _) (fun _ _ => Or.inl) ?_ (fun _ _ _ hp => by cases hp)
    intro k tok hpermit _
    cases hpermit
    exact Or.inr List.mem_cons_self
  · cases hs

private theorem owned_enqueueStep (h : Owned s) (key : κ) : Owned (enqueueStep limits s key) := by
  unfold enqueueStep
  split
  · next queues henqueue =>
    have hfresh : s.waiters.lookup s.tokenCounter = none := by
      cases hw : s.waiters.lookup s.tokenCounter with
      | none => rfl
      | some w => exact absurd (h.given _ w hw) (Nat.lt_irrefl _)
    have hold : ∀ tok w, s.waiters.lookup tok = some w →
        (s.waiters.insert s.tokenCounter { key }).lookup tok = some w := by
      intro tok w hw
      rw [Table.lookup_insert_eq, if_neg, hw]
      rintro rfl
      rw [hfresh] at hw
      cases hw
    constructor
    · intro tok w hw
      change tok < s.tokenCounter + 1
      rcases Table.lookup_insert_eq_some.mp hw with ⟨rfl, -⟩ | ⟨-, hw⟩
      · exact Nat.lt_succ_self _
      · exact Nat.lt_succ_of_lt (h.given tok w hw)
    · intro k tok hmem
      change tok ∈ queueOf queues k at hmem
      have hcases : tok ∈ queueOf s.queues k ∨ k = key ∧ tok = s.tokenCounter := by
        rcases enqueue_cases henqueue with ⟨hr, -⟩ | ⟨hr, -⟩ | ⟨-, rfl⟩
        · cases hr
        · cases hr
        · rw [queueOf_setQueue] at hmem
          split at hmem
          · next heq =>
            subst heq
            rcases List.mem_append.mp hmem with hmem | hmem
            · exact Or.inl (List.mem_of_mem_filter hmem)
            · exact Or.inr ⟨rfl, List.mem_singleton.mp hmem⟩
          · exact Or.inl hmem
      rcases hcases with hmem | ⟨rfl, rfl⟩
      · obtain ⟨w, hw, hown⟩ := h.queued k tok hmem
        exact ⟨w, hold tok w hw, hown⟩
      · exact ⟨{ key := k }, AList.lookup_insert _, rfl, Or.inl rfl⟩
    · intro k tok hmem
      obtain ⟨w, hw, hown⟩ := h.pending k tok hmem
      exact ⟨w, hold tok w hw, hown⟩
    · intro waker pc k tok hpc hentry
      obtain ⟨ht, w, hw, hkey⟩ := h.wakers waker pc k tok hpc hentry
      exact ⟨ht, w, hold tok w hw, hkey⟩
    · intro tok w hw hpermit
      rcases Table.lookup_insert_eq_some.mp hw with ⟨-, rfl⟩ | ⟨-, hw⟩
      · cases hpermit
      · exact h.permits tok w hw hpermit
  · next e queues henqueue =>
    have hsub : ∀ k, queueOf queues k ⊆ queueOf s.queues k := by
      intro k tok hmem
      rcases enqueue_cases henqueue with ⟨-, rfl⟩ | ⟨-, rfl⟩ | ⟨hr, -⟩
      · exact hmem
      · rw [queueOf_setQueue] at hmem
        split at hmem
        · next heq =>
          subst heq
          exact List.mem_of_mem_filter hmem
        · exact hmem
      · cases hr
    exact ⟨h.given, fun k tok hmem => h.queued k tok (hsub k hmem), h.pending, h.wakers, h.permits⟩

private theorem owned_step (h : Owned s) (ho : Ordered s) (hs : step limits s l = some t) :
    Owned t := by
  rcases step_cases hs with ⟨key, rfl⟩ | ⟨token, w, hw, hs⟩ | ⟨waker, key, hnew, rfl⟩ |
    ⟨waker, pc, hpc, hs⟩ | ⟨key, token, -, rfl⟩ | ⟨key, token, -, rfl⟩
  · exact owned_enqueueStep h key
  · exact owned_waiterStep h ho hw hs
  · -- A new waker has nothing yet.
    have hne : ∀ v pc, s.wakers.lookup v = some pc → v ≠ waker := by
      rintro v pc hpc rfl
      exact hnew (AList.lookup_isSome.mp (by rw [hpc]; rfl))
    refine ⟨h.given, h.queued, ?_, ?_, h.permits⟩
    · intro k tok hmem
      obtain ⟨w, hw, hkey, hown⟩ := h.pending k tok hmem
      refine ⟨w, hw, hkey, ?_⟩
      rcases hown with hown | hown | ⟨v, pc, hpc, hpermit⟩ | hown
      · exact Or.inl hown
      · exact Or.inr (Or.inl hown)
      · exact Or.inr (Or.inr (Or.inl ⟨v, pc,
          Table.lookup_insert_eq_some.mpr (Or.inr ⟨hne v pc hpc, hpc⟩), hpermit⟩))
      · exact Or.inr (Or.inr (Or.inr hown))
    · intro v pc k tok hpc hentry
      rcases Table.lookup_insert_eq_some.mp hpc with ⟨-, rfl⟩ | ⟨-, hpc⟩
      · cases hentry
      · exact h.wakers v pc k tok hpc hentry
  · exact owned_wakerStep h hpc hs
  · refine ⟨h.given, ?_, h.pending, h.wakers, h.permits⟩
    intro k tok hmem
    obtain ⟨w, hw, hkey, hown⟩ := h.queued k tok (mem_removeQueueEntry hmem)
    refine ⟨w, hw, hkey, hown.imp_right fun hrem => ?_⟩
    refine (List.mem_erase_of_ne ?_).mpr hrem
    rintro ⟨rfl, rfl⟩
    exact token_notMem_removeQueueEntry _ _ _ hmem
  · refine ⟨h.given, h.queued, ?_, h.wakers, h.permits⟩
    intro k tok hmem
    obtain ⟨w, hw, hkey, hown⟩ := h.pending k tok (mem_removeQueueEntry hmem)
    refine ⟨w, hw, hkey, ?_⟩
    rcases hown with hown | hown | hown | hown
    · exact Or.inl hown
    · exact Or.inr (Or.inl hown)
    · exact Or.inr (Or.inr (Or.inl hown))
    · refine Or.inr (Or.inr (Or.inr ((List.mem_erase_of_ne ?_).mpr hown)))
      rintro ⟨rfl, rfl⟩
      exact token_notMem_removeQueueEntry _ _ _ hmem

/-! ### Every run -/

/-- What every step preserves. -/
structure Accounted (limits : QueueLimits κ) (s : State κ) : Prop where
  wellFormed : WellFormed limits s
  gauged : Gauged s
  owned : Owned s

private theorem accounted_of_exec {labels : List (Label κ)}
    (h : exec (step limits) State.init labels = some s) : Accounted limits s := by
  refine exec_invariant (P := Accounted limits) ?_ ⟨wellFormed_init, rfl, owned_init⟩ h
  intro s l t ha hs
  exact ⟨wellFormed_step ha.wellFormed hs, gauged_step ha.gauged ha.wellFormed.once hs,
    owned_step ha.owned ha.wellFormed.ordered hs⟩

/-- The request of a token is over, no waker is at its entry, and no task is left for it. -/
structure Finished (s : State κ) (token : Nat) : Prop where
  request : ∀ w, s.waiters.lookup token = some w → w.phase = .gone
  wakers : ∀ waker pc key, s.wakers.lookup waker = some pc → pc.entry ≠ some (key, token)
  entryRemovers : ∀ key, (key, token) ∉ s.entryRemovers
  tokenRemovers : ∀ key, (key, token) ∉ s.tokenRemovers

/-- Nothing of a finished request is queued. -/
theorem Owned.notMem_queues (h : Owned s) (hf : Finished s token) (key : κ) :
    token ∉ queueOf s.queues key := by
  intro hmem
  obtain ⟨w, hw, -, harmed | hremover⟩ := h.queued key token hmem
  · rw [hf.request w hw] at harmed
    cases harmed
  · exact hf.entryRemovers key hremover

/-- Nothing of a finished request is pending. -/
theorem Owned.notMem_pending (h : Owned s) (hf : Finished s token) (key : κ) :
    token ∉ queueOf s.pending key := by
  intro hmem
  obtain ⟨w, hw, -, hpermit | hholding | ⟨waker, pc, hpc, hpermit⟩ | hremover⟩ :=
    h.pending key token hmem
  · have hreceiving := (h.permits token w hw hpermit).1
    rw [hf.request w hw] at hreceiving
    cases hreceiving
  · rw [hf.request w hw] at hholding
    cases hholding
  · exact hf.wakers waker pc key hpc (Waker.entry_of_permit hpermit)
  · exact hf.tokenRemovers key hremover

private theorem lookup_eq_none_of_queueOf {queues : Queues κ} (h : NoEmpty queues)
    (hempty : ∀ token, token ∉ queueOf queues key) : queues.lookup key = none := by
  cases hk : queues.lookup key with
  | none => rfl
  | some queue =>
    refine absurd (List.eq_nil_iff_forall_not_mem.mpr fun token => ?_) (h key queue hk)
    have hnot := hempty token
    rwa [queueOf, hk, Option.getD_some] at hnot

/-- In every state of every run the gauge is the number of pending tokens; once a request, the
wakers at its entry and the tasks spawned for it have finished, it has no entry and no token left;
and once that holds of every request, both maps are empty. -/
theorem no_queue_leak (limits : QueueLimits κ) {labels : List (Label κ)} {s : State κ}
    (h : exec (step limits) State.init labels = some s) :
    s.pendingTokens = Table.sum s.pending (fun _ set => set.length) ∧
      (∀ token, Finished s token →
        ∀ key, token ∉ queueOf s.queues key ∧ token ∉ queueOf s.pending key) ∧
      ((∀ token, Finished s token) →
        ∀ key, s.queues.lookup key = none ∧ s.pending.lookup key = none) := by
  have ha := accounted_of_exec h
  refine ⟨ha.gauged, ?_, ?_⟩
  · intro token hf key
    exact ⟨ha.owned.notMem_queues hf key, ha.owned.notMem_pending hf key⟩
  · intro hf key
    constructor
    · exact lookup_eq_none_of_queueOf ha.wellFormed.noEmptyQueue fun token =>
        ha.owned.notMem_queues (hf token) key
    · exact lookup_eq_none_of_queueOf ha.wellFormed.noEmptySet fun token =>
        ha.owned.notMem_pending (hf token) key

omit [DecidableEq κ] in
private theorem finished_of_idle
    (hrequests : (s.waiters.entries.all fun e => e.2.phase == .gone) = true)
    (hwakers : s.wakers.entries = []) (hentries : s.entryRemovers = [])
    (htokens : s.tokenRemovers = []) (token : Nat) : Finished s token where
  request w hw := by
    have hgone := List.all_eq_true.mp hrequests ⟨token, w⟩ (AList.mem_lookup_iff.mp hw)
    simpa using hgone
  wakers waker pc key hpc := by
    have hmem := AList.mem_lookup_iff.mp hpc
    rw [hwakers] at hmem
    cases hmem
  entryRemovers key := by simp [hentries]
  tokenRemovers key := by simp [htokens]

/-- A request is dropped with the permit in its channel, and another while a waker is between
taking its entry and promoting it. -/
def droppedRequests : List (Label String) :=
  [.enqueue "m:p", .enqueue "m:p", .wake 0 "m:p", .pop 0, .promote 0, .send 0, .cancel 0,
    .wake 1 "m:p", .pop 1, .cancel 1, .promote 1, .send 1, .cancelWaker 1,
    .runTokenRemover "m:p" 0, .runEntryRemover "m:p" 1, .runEntryRemover "m:p" 0,
    .runTokenRemover "m:p" 1]

/-- Nothing of the two requests is left. -/
theorem droppedRequests_left_nothing :
    ∃ s, exec (step ⟨0, fun _ => 0⟩) State.init droppedRequests = some s ∧
      (∀ token, Finished s token) ∧
      ∀ key, s.queues.lookup key = none ∧ s.pending.lookup key = none := by
  have hrun : exec (step ⟨0, fun _ => 0⟩) State.init droppedRequests = some _ := rfl
  refine ⟨_, hrun, fun token => finished_of_idle rfl rfl rfl rfl token, ?_⟩
  exact (no_queue_leak ⟨0, fun _ => 0⟩ hrun).2.2 fun token => finished_of_idle rfl rfl rfl rfl token

end Llamesh.Queue
