import Llamesh.Library.Run

/-!
# Waiting for a load

The readiness task of an instance marks it ready or failed and wakes the requests that wait for it
(`src/instance.rs:923–996`); a request creates its `Notified` before it reads the status
(`src/node_state/mod.rs:1999–2013,2086–2099`). Of the requests that find the load failed one claims
the failure (`src/instance.rs:1034–1040`) and handles it, the others try again.

The ready status is set and announced under the status lock, the failed one is set under it and
announced afterwards. A `Notified` is the number of `notify_waiters` calls made before it was
created. A request may go away at any point.
-/

namespace Llamesh.Instance.Startup

open Transition

/-- The status of an instance. `src/instance.rs:571–576`. -/
inductive InstanceStatus where
  | starting
  | ready
  | failed
deriving DecidableEq, Repr

/-- The readiness task: `marked` is between the failed status and its announcement. -/
inductive TaskPc where
  | polling
  | marked
  | announced
deriving DecidableEq, Repr

/-- A request that holds a slot of the instance. -/
inductive WaiterPc where
  | subscribed (calls : Nat)
  | waiting (calls : Nat)
  | woken
  | served
  | handling
  | retrying
  | cancelled
deriving DecidableEq, Repr

/-- A loading instance and the requests that wait for it; `handlers` are those that have claimed its
failure, whether or not they have gone away since. -/
structure Load where
  status : InstanceStatus
  task : TaskPc
  notifyCalls : Nat
  claimed : Bool
  handlers : List Nat
  waiters : List WaiterPc
deriving DecidableEq, Repr

/-- A spawned instance. -/
def Load.init : Load := ⟨.starting, .polling, 0, false, [], []⟩

/-- What the readiness task and the requests do. -/
inductive Label where
  | markReady
  | setFailed
  | announceFailed
  | join
  | check (i : Nat)
  | wake (i : Nat)
  | recheck (i : Nat)
  | cancel (i : Nat)

/-- What a request makes of a status that is not `starting`, or after its wait:
`claim_startup_failure` decides who handles a failed load. -/
def Load.settle (s : Load) (i : Nat) : Load :=
  if s.status = .ready then { s with waiters := s.waiters.set i .served }
  else if s.claimed then { s with waiters := s.waiters.set i .retrying }
  else
    { s with
      claimed := true
      handlers := i :: s.handlers
      waiters := s.waiters.set i .handling }

/-- One step. -/
def step (s : Load) : Label → Option Load
  | .markReady =>
    guarded (s.task = .polling)
      { s with status := .ready, task := .announced, notifyCalls := s.notifyCalls + 1 }
  | .setFailed => guarded (s.task = .polling) { s with status := .failed, task := .marked }
  | .announceFailed =>
    guarded (s.task = .marked) { s with task := .announced, notifyCalls := s.notifyCalls + 1 }
  | .join => some { s with waiters := s.waiters ++ [.subscribed s.notifyCalls] }
  | .check i =>
    match s.waiters[i]? with
    | some (.subscribed calls) =>
      if s.status = .starting then some { s with waiters := s.waiters.set i (.waiting calls) }
      else some (s.settle i)
    | _ => none
  | .wake i =>
    match s.waiters[i]? with
    | some (.waiting calls) =>
      guarded (calls < s.notifyCalls) { s with waiters := s.waiters.set i .woken }
    | _ => none
  | .recheck i => guarded (s.waiters[i]? = some .woken) (s.settle i)
  | .cancel i => guarded (i < s.waiters.length) { s with waiters := s.waiters.set i .cancelled }

/-! ## The invariant -/

/-- What is known of request `i` by where it stands. -/
def WaiterPc.Sound (s : Load) (i : Nat) : WaiterPc → Prop
  | .subscribed calls => calls ≤ s.notifyCalls
  | .waiting calls => calls ≤ s.notifyCalls ∧ (s.task = .announced → calls < s.notifyCalls)
  | .woken => s.status ≠ .starting
  | .served => s.status = .ready
  | .handling => s.status = .failed ∧ s.handlers = [i]
  | .retrying => s.status = .failed ∧ ∃ j, j ≠ i ∧ s.handlers = [j]
  | .cancelled => True

/-- The invariant of a load. -/
structure LoadInv (s : Load) : Prop where
  polling : s.task = .polling ↔ s.status = .starting
  unannounced : s.task ≠ .announced → s.notifyCalls = 0
  claimed : if s.claimed then ∃ i, s.handlers = [i] else s.handlers = []
  failed : s.handlers ≠ [] → s.status = .failed
  handler : ∀ i ∈ s.handlers,
    s.waiters[i]? = some .handling ∨ s.waiters[i]? = some .cancelled
  waiters : ∀ (i : Nat) (w : WaiterPc), s.waiters[i]? = some w → w.Sound s i

variable {s t : Load} {label : Label} {w : WaiterPc} {i : Nat}

private theorem WaiterPc.Sound.of_same (h : w.Sound s i) (hstatus : t.status = s.status)
    (htask : t.task = s.task) (hcalls : t.notifyCalls = s.notifyCalls)
    (hhandlers : s.handlers ≠ [] → t.handlers = s.handlers) : w.Sound t i := by
  cases w with
  | subscribed calls =>
    simp only [Sound, hcalls] at h ⊢
    exact h
  | waiting calls =>
    simp only [Sound, hcalls, htask] at h ⊢
    exact h
  | woken =>
    simp only [Sound, hstatus] at h ⊢
    exact h
  | served =>
    simp only [Sound, hstatus] at h ⊢
    exact h
  | handling =>
    obtain ⟨hfailed, hhandler⟩ := h
    exact ⟨hstatus.trans hfailed, (hhandlers (by simp [hhandler])).trans hhandler⟩
  | retrying =>
    obtain ⟨hfailed, j, hj, hhandler⟩ := h
    exact ⟨hstatus.trans hfailed, j, hj, (hhandlers (by simp [hhandler])).trans hhandler⟩
  | cancelled => trivial

private theorem sound_set
    (hs : ∀ (j : Nat) (w : WaiterPc), s.waiters[j]? = some w → w.Sound s j) (hw : w.Sound t i)
    (hstatus : t.status = s.status) (htask : t.task = s.task)
    (hcalls : t.notifyCalls = s.notifyCalls)
    (hhandlers : s.handlers ≠ [] → t.handlers = s.handlers) :
    ∀ (j : Nat) (w' : WaiterPc), (s.waiters.set i w)[j]? = some w' → w'.Sound t j := by
  intro j w' hw'
  by_cases hj : i = j
  · subst hj
    rw [List.getElem?_set_self'] at hw'
    cases hold : s.waiters[i]? with
    | none => simp [hold] at hw'
    | some old =>
      obtain rfl : w = w' := by simpa [hold] using hw'
      exact hw
  · rw [List.getElem?_set_ne hj] at hw'
    exact (hs j w' hw').of_same hstatus htask hcalls hhandlers

private theorem handler_set (inv : LoadInv s) (hi : i ∉ s.handlers ∨ w = .cancelled) :
    ∀ j ∈ s.handlers,
      (s.waiters.set i w)[j]? = some .handling ∨ (s.waiters.set i w)[j]? = some .cancelled := by
  intro j hj
  have hbefore := inv.handler j hj
  by_cases hij : i = j
  · subst hij
    obtain rfl := hi.resolve_left (not_not_intro hj)
    right
    rw [List.getElem?_set_self']
    obtain hsome | hsome := hbefore <;> rw [hsome] <;> rfl
  · rwa [List.getElem?_set_ne hij]

private theorem notMem_handlers (inv : LoadInv s) (hi : s.waiters[i]? = some w)
    (hhandling : w ≠ .handling) (hcancelled : w ≠ .cancelled) : i ∉ s.handlers := by
  intro hmem
  obtain hsome | hsome := inv.handler i hmem
  · exact hhandling (Option.some.inj (hi.symm.trans hsome))
  · exact hcancelled (Option.some.inj (hi.symm.trans hsome))

private theorem loadInv_settle (inv : LoadInv s) (hknown : s.status ≠ .starting)
    (hi : s.waiters[i]? = some w) (hhandling : w ≠ .handling) (hcancelled : w ≠ .cancelled) :
    LoadInv (s.settle i) := by
  have hnot := notMem_handlers inv hi hhandling hcancelled
  unfold Load.settle
  split
  · next hready =>
    exact { inv with
      handler := handler_set inv (.inl hnot)
      waiters := sound_set inv.waiters hready rfl rfl rfl fun _ => rfl }
  · next hready =>
    have hfailed : s.status = .failed := by
      cases hstatus : s.status with
      | starting => exact absurd hstatus hknown
      | ready => exact absurd hstatus hready
      | failed => rfl
    have hclaim := inv.claimed
    split
    · next hclaimed =>
      rw [if_pos hclaimed] at hclaim
      obtain ⟨j, hj⟩ := hclaim
      have hne : j ≠ i := by
        rintro rfl
        simp [hj] at hnot
      exact { inv with
        handler := handler_set inv (.inl hnot)
        waiters := sound_set inv.waiters ⟨hfailed, j, hne, hj⟩ rfl rfl rfl fun _ => rfl }
    · next hunclaimed =>
      rw [if_neg hunclaimed] at hclaim
      refine ⟨inv.polling, inv.unannounced, ⟨i, by rw [hclaim]⟩, fun _ => hfailed, ?_, ?_⟩
      · intro j hj
        obtain rfl : j = i := by simpa [hclaim] using hj
        left
        rw [List.getElem?_set_self', hi]
        rfl
      · exact sound_set inv.waiters ⟨hfailed, by rw [hclaim]⟩ rfl rfl rfl (absurd hclaim)

private theorem sound_announce (inv : LoadInv s) {status : InstanceStatus}
    (hstatus : s.status ≠ .starting → status = s.status) (hknown : status ≠ .starting)
    (h : s.waiters[i]? = some w) :
    w.Sound
      { s with status := status, task := .announced, notifyCalls := s.notifyCalls + 1 } i := by
  have hsound := inv.waiters i w h
  cases w with
  | subscribed calls => exact Nat.le_succ_of_le hsound
  | waiting calls => exact ⟨Nat.le_succ_of_le hsound.1, fun _ => Nat.lt_succ_of_le hsound.1⟩
  | woken => exact hknown
  | served =>
    have hready : s.status = .ready := hsound
    exact (hstatus (by simp [hready])).trans hready
  | handling =>
    have hfailed : s.status = .failed := hsound.1
    exact ⟨(hstatus (by simp [hfailed])).trans hfailed, hsound.2⟩
  | retrying =>
    have hfailed : s.status = .failed := hsound.1
    exact ⟨(hstatus (by simp [hfailed])).trans hfailed, hsound.2⟩
  | cancelled => trivial

private theorem loadInv_markReady (inv : LoadInv s) (htask : s.task = .polling) :
    LoadInv { s with status := .ready, task := .announced, notifyCalls := s.notifyCalls + 1 } := by
  have hstarting := inv.polling.mp htask
  refine ⟨by simp, fun h => absurd rfl h, inv.claimed, fun hclaimed => ?_, inv.handler,
    fun i w hw => ?_⟩
  · have hfailed := inv.failed hclaimed
    simp [hstarting] at hfailed
  · exact sound_announce inv (fun h => absurd hstarting h) (by simp) hw

private theorem loadInv_setFailed (inv : LoadInv s) (htask : s.task = .polling) :
    LoadInv { s with status := .failed, task := .marked } := by
  have hstarting := inv.polling.mp htask
  refine ⟨by simp, fun _ => inv.unannounced (by simp [htask]), inv.claimed, fun _ => rfl,
    inv.handler, ?_⟩
  intro i w hw
  have hsound := inv.waiters i w hw
  cases w with
  | subscribed calls => exact hsound
  | waiting calls => exact ⟨hsound.1, fun h => by cases h⟩
  | woken => exact absurd hstarting hsound
  | served => simp [WaiterPc.Sound, hstarting] at hsound
  | handling => simp [WaiterPc.Sound, hstarting] at hsound
  | retrying => simp [WaiterPc.Sound, hstarting] at hsound
  | cancelled => trivial

private theorem loadInv_join (inv : LoadInv s) :
    LoadInv { s with waiters := s.waiters ++ [.subscribed s.notifyCalls] } := by
  refine { inv with handler := fun i hi => ?_, waiters := fun i w hw => ?_ }
  · refine (inv.handler i hi).imp (fun h => ?_) fun h => ?_
    · exact (List.getElem?_append_left (List.getElem?_eq_some_iff.mp h).1).trans h
    · exact (List.getElem?_append_left (List.getElem?_eq_some_iff.mp h).1).trans h
  · rcases Nat.lt_or_ge i s.waiters.length with hlt | hge
    · rw [List.getElem?_append_left hlt] at hw
      exact (inv.waiters i w hw).of_same rfl rfl rfl fun _ => rfl
    · rw [List.getElem?_append_right hge] at hw
      rw [List.mem_singleton.mp (List.mem_of_getElem? hw)]
      exact Nat.le_refl s.notifyCalls

private theorem loadInv_step (inv : LoadInv s) (h : step s label = some t) : LoadInv t := by
  cases label with
  | markReady =>
    obtain ⟨htask, rfl⟩ := guarded_eq_some.mp h
    exact loadInv_markReady inv htask
  | setFailed =>
    obtain ⟨htask, rfl⟩ := guarded_eq_some.mp h
    exact loadInv_setFailed inv htask
  | announceFailed =>
    obtain ⟨htask, rfl⟩ := guarded_eq_some.mp h
    have hknown : s.status ≠ .starting := by
      intro hstarting
      simp [inv.polling.mpr hstarting] at htask
    refine ⟨by simp [hknown], fun h => absurd rfl h, inv.claimed, inv.failed, inv.handler,
      fun i w hw => ?_⟩
    exact sound_announce inv (fun _ => rfl) hknown hw
  | join =>
    cases h
    exact loadInv_join inv
  | check i =>
    simp only [step] at h
    split at h
    · next calls hi =>
      have hsubscribed := inv.waiters _ _ hi
      have hnot := notMem_handlers inv hi (by simp) (by simp)
      split at h
      · next hstarting =>
        cases h
        -- the task is still polling, so the announcement is to come
        have htask := inv.polling.mpr hstarting
        refine { inv with
          handler := handler_set inv (.inl hnot)
          waiters := sound_set inv.waiters ⟨hsubscribed, ?_⟩ rfl rfl rfl fun _ => rfl }
        intro hannounced
        simp [htask] at hannounced
      · next hknown =>
        cases h
        exact loadInv_settle inv hknown hi (by simp) (by simp)
    · cases h
  | wake i =>
    simp only [step] at h
    split at h
    · next calls hi =>
      obtain ⟨hcalls, rfl⟩ := guarded_eq_some.mp h
      have hknown : s.status ≠ .starting := by
        intro hstarting
        have hzero := inv.unannounced (by simp [inv.polling.mpr hstarting])
        omega
      exact { inv with
        handler := handler_set inv (.inl (notMem_handlers inv hi (by simp) (by simp)))
        waiters := sound_set inv.waiters hknown rfl rfl rfl fun _ => rfl }
    · cases h
  | recheck i =>
    obtain ⟨hi, rfl⟩ := guarded_eq_some.mp h
    exact loadInv_settle inv (inv.waiters _ _ hi) hi (by simp) (by simp)
  | cancel i =>
    obtain ⟨-, rfl⟩ := guarded_eq_some.mp h
    exact { inv with
      handler := handler_set inv (.inr rfl)
      waiters := sound_set inv.waiters trivial rfl rfl rfl fun _ => rfl }

private theorem loadInv_init : LoadInv Load.init where
  polling := by decide
  unannounced := fun _ => rfl
  claimed := rfl
  failed := fun h => absurd rfl h
  handler := fun i hi => by cases hi
  waiters := fun i w hw => by cases hw

/-! ## Every interleaving -/

/-- A request is served only by a ready instance and treats a load as failed only when it has
failed; then it either handles the failure, as the one request that does, or tries again, another
one handling it; and a request that waits can go on after the announcement, and goes on only then
or when the load has failed. -/
theorem startup_outcome_shared (h : Reachable step Load.init s) :
    (∀ i w, s.waiters[i]? = some w →
      (w = .served → s.status = .ready) ∧
      (w = .handling → s.status = .failed ∧ s.handlers = [i]) ∧
      (w = .retrying → s.status = .failed ∧ ∃ j, j ≠ i ∧ s.handlers = [j]) ∧
      (w = .woken → s.status ≠ .starting) ∧
      (∀ calls, w = .waiting calls → s.task = .announced →
        (step s (.wake i)).isSome = true)) ∧
    s.handlers.length ≤ 1 := by
  have inv : LoadInv s :=
    h.invariant (fun _ _ _ inv hstep => loadInv_step inv hstep) loadInv_init
  refine ⟨fun i w hw => ⟨?_, ?_, ?_, ?_, ?_⟩, ?_⟩
  · rintro rfl
    exact inv.waiters _ _ hw
  · rintro rfl
    exact inv.waiters _ _ hw
  · rintro rfl
    exact inv.waiters _ _ hw
  · rintro rfl
    exact inv.waiters _ _ hw
  · rintro calls rfl htask
    have hcalls := (inv.waiters _ _ hw).2 htask
    simp only [step, hw, guarded, if_pos hcalls, Option.isSome_some]
  · have hclaimed := inv.claimed
    split at hclaimed
    · obtain ⟨i, hi⟩ := hclaimed
      simp [hi]
    · simp [hclaimed]

/-- One request waits when the load fails, another reads the status before the announcement. -/
def failedLoad : List Label :=
  [.join, .check 0, .join, .setFailed, .check 1, .announceFailed, .wake 0, .recheck 0]

/-- The second handles the failure and the first tries again. -/
theorem failedLoad_shared : ∃ s, exec step Load.init failedLoad = some s ∧
    s.waiters = [.retrying, .handling] ∧ s.status = .failed ∧ s.handlers = [1] := by
  have hrun : exec step Load.init failedLoad = some
      ⟨.failed, .announced, 1, true, [1], [.retrying, .handling]⟩ := by
    decide +kernel
  exact ⟨_, hrun, rfl, ((startup_outcome_shared ⟨failedLoad, hrun⟩).1 1 .handling rfl).2.1 rfl⟩

end Llamesh.Instance.Startup
