import Llamesh.Spawn.Ownership

/-!
# Ownership is kept by every step

The invariant of `Llamesh.Spawn.Ownership` over the pieces of the tasks, in the
order of the step function.
-/

namespace Llamesh.Spawn

open Transition Config SpawnReservations

variable {config : NodeConfig} {cookbook : Cookbook} {s s' : State}

private theorem inv_enterStep {l : Label} (h : Inv config cookbook s)
    (hs : enterStep config cookbook s l = some s') : Inv config cookbook s' := by
  cases l <;> simp only [enterStep, reduceCtorEq] at hs
  case arrive t request =>
    rw [guarded_eq_some] at hs
    obtain ⟨⟨hnew, hknown⟩, rfl⟩ := hs
    apply h.moves (t := t) rfl
    · refine ⟨by simp [Task.writes], ?_, trivial, by simp [Task.reservation]⟩
      intro p hp
      obtain rfl : request.profile = p := by simpa [Task.profile] using hp
      exact hknown
    · intro u task _ _
      exact keeps_refl rfl rfl rfl
    · simp [Task.reservation]
  case lock t =>
    split at hs
    · next request ht =>
      rw [guarded_eq_some] at hs
      obtain ⟨hfree, rfl⟩ := hs
      exact h.moveLock ht rfl rfl (fun _ => rfl) (by simp [hfree]) (fun _ => rfl) trivial
        (InstancesShrink.refl _)
    · cases hs
  case attach t id now =>
    split at hs
    · next request inst ht hinst =>
      rw [guarded_eq_some] at hs
      obtain ⟨-, rfl⟩ := hs
      have hok := h.tasks t _ ht
      have hm : InstancesShrink s.instances (s.instances.insert id
          { inst with inFlight := inst.inFlight + 1, lastActivity := now }) :=
        instancesShrink_insert hinst rfl rfl
      apply h.ends (t := t) rfl
      intro u task hu _
      exact keeps_of_free (hok.not_writing rfl hu) (fun _ _ => rfl) (fun _ _ hn => hm.notMem hn)
    · cases hs
  case prune t dead =>
    split at hs
    · next request ht =>
      rw [guarded_eq_some] at hs
      obtain ⟨-, rfl⟩ := hs
      have hok := h.tasks t _ ht
      exact h.moveLock ht rfl rfl (fun _ => rfl) (fun u hu hl => absurd hl (hok.not_writing rfl hu))
        (by simp [Task.writes]) trivial (instancesShrink_removeAll _ _)
    · cases hs

private theorem setScan_reservation (scan : Scan) (t : Task) :
    (t.setScan scan).reservation = t.reservation := by
  cases t <;> rfl

private theorem setScan_profile (scan : Scan) (t : Task) :
    (t.setScan scan).profile = t.profile := by
  cases t <;> rfl

private theorem setScan_hasChild (scan : Scan) (t : Task) :
    (t.setScan scan).hasChild = t.hasChild := by
  cases t <;> rfl

private theorem setScan_writes (scan : Scan) (t : Task) :
    (t.setScan scan).writes = t.writes := by
  cases t <;> rfl

private theorem current_setScan {t : Task} {old new : Scan} {registry : SpawnReservations}
    (hscan : t.scan = some old) (hsnap : new.snapshot = old.snapshot) {instances : Instances}
    (h : t.Current config instances registry) :
    (t.setScan new).Current config instances registry := by
  cases t <;> simp only [Task.scan, reduceCtorEq, Option.some.injEq] at hscan
  case planning request required scan =>
    subst hscan
    simp only [Task.setScan, Task.Current] at h ⊢
    rw [hsnap]
    exact h
  case resampling => trivial
  case observing => trivial

private theorem inv_accountStep {l : Label} (h : Inv config cookbook s)
    (hs : accountStep config s l = some s') : Inv config cookbook s' := by
  cases l <;> simp only [accountStep, reduceCtorEq] at hs
  case snapshot t required =>
    split at hs
    · next request ht =>
      cases hs
      exact h.moveTask ht rfl rfl (fun _ => rfl) (fun _ => rfl) (Shrinks.refl _)
    · cases hs
  case observe t =>
    split at hs
    · next readers hl =>
      rw [guarded_eq_some] at hs
      obtain ⟨hnew, rfl⟩ := hs
      apply h.moves (t := t) rfl
      · exact ⟨by simp [Task.writes], by simp [Task.profile], trivial, by simp [Task.reservation]⟩
      · intro u task _ _
        exact keeps_of_free (by simp [hl]) (fun _ _ => rfl) (fun _ _ hn => hn)
      · simp [Task.reservation]
    · cases hs
  case resample t =>
    split at hs
    · next request id readers ht hl =>
      cases hs
      exact h.moveLock ht rfl rfl (fun _ => rfl) (by simp [hl]) (by simp [Task.writes]) trivial
        (InstancesShrink.refl _)
    · cases hs
  case sample t id =>
    split at hs
    · next task ht =>
      split at hs
      · next scan hscan =>
        split at hs
        · next record hrecord =>
          cases hs
          apply h.moveTask ht (setScan_reservation _ _) (setScan_profile _ _)
          · rw [setScan_hasChild]
            exact fun hc => hc
          · rw [setScan_writes]
            exact fun hw => hw
          · have hsnap : (scan.sample s.processes id record).snapshot = scan.snapshot := rfl
            exact current_setScan hscan hsnap (h.tasks t task ht).current
        · cases hs
      · cases hs
    · cases hs
  case account t device =>
    split at hs
    · next task ht =>
      split at hs
      · next scan hscan =>
        rw [guarded_eq_some] at hs
        obtain ⟨-, rfl⟩ := hs
        have hafter := inv_observed h
          (⟨(scan.tally.accounting scan.snapshot device (Table.size s.instances)).resources,
            scan.retained⟩ :: s.observed)
        cases task <;> simp only [Task.scan, reduceCtorEq, Option.some.injEq] at hscan
        case planning request required scan' =>
          subst hscan
          exact hafter.moveTask ht rfl rfl (fun _ => rfl) (fun _ => rfl) (h.tasks t _ ht).current
        case resampling request id scan' =>
          subst hscan
          dsimp only
          split
          · exact inv_leave hafter ht
          · have hres : (Task.cleared request id).reservation = some id := rfl
            apply hafter.moveLock ht hres rfl (fun _ => rfl)
            · intro u _ hl
              have hlock : s.lock = .writing u := hl
              simp [hlock, Lock.drop, Task.writes]
            · simp [Task.writes]
            · trivial
            · exact InstancesShrink.refl _
        case observing scan' =>
          subst hscan
          exact inv_leave hafter ht
      · cases hs
    · cases hs

/-- Committed victims are taken out of the map. -/
theorem instancesShrink_withRevision {r : SpawnReservations} {revision : Nat}
    {m m' : Instances} {victims : List Nat}
    (h : r.withRevision revision (fun _ => removeAll m victims) = some m') :
    InstancesShrink m m' := by
  unfold withRevision at h
  split at h
  · cases h
    exact instancesShrink_removeAll m victims
  · cases h

private theorem current_admitted {instances : Instances} {order : List Nat} {request : Request}
    {accounting : ResourceAccounting} {required : Memory Nat} {plan : SpawnPlan}
    {registry : SpawnReservations}
    (hplan : planSpawn config instances order request.profile accounting required = .ok plan)
    (hv : plan.victims = []) (hs : Shrinks accounting.reservations registry) :
    (Task.admitted request required).Current config instances registry := by
  -- the registry may have shrunk since the accounting
  obtain ⟨hprofile, hnode, -⟩ := planSpawn_admits hplan hv
  have hpending := hs.profileCount_le request.profile.key
  have htotal := hs.nodeTotal_le
  simp only [Task.Current]
  omega

private theorem inv_admitStep {l : Label} (h : Inv config cookbook s)
    (hs : admitStep config s l = some s') : Inv config cookbook s' := by
  cases l <;> simp only [admitStep, reduceCtorEq] at hs
  case plan t order =>
    split at hs
    · next request required accounting ht =>
      rw [guarded_eq_some] at hs
      obtain ⟨-, rfl⟩ := hs
      split
      · exact inv_leave h ht
      · next plan hplan =>
        split
        · next hvictims =>
          have hcurrent := current_admitted hplan hvictims (h.tasks t _ ht).current
          exact h.moveTask ht rfl rfl (fun _ => rfl) (fun _ => rfl) hcurrent
        · exact h.moveTask ht rfl rfl (fun _ => rfl) (fun _ => rfl) trivial
    · cases hs
  case evict t =>
    split at hs
    · next request plan ht =>
      cases hs
      have hok := h.tasks t _ ht
      split
      · next instances hcommit =>
        exact h.moveLock ht rfl rfl (fun _ => rfl)
          (fun u hu hl => absurd hl (hok.not_writing rfl hu)) (by simp [Task.writes]) trivial
          (instancesShrink_withRevision hcommit)
      · exact h.moveLock ht rfl rfl (fun _ => rfl)
          (fun u hu hl => absurd hl (hok.not_writing rfl hu)) (by simp [Task.writes]) trivial
          (InstancesShrink.refl _)
    · cases hs
  case resume t =>
    split at hs
    · next request victims ht =>
      rw [guarded_eq_some] at hs
      obtain ⟨-, rfl⟩ := hs
      exact h.moveTask ht rfl rfl (fun _ => rfl) (by simp [Task.writes]) trivial
    · cases hs
  case reserve t id =>
    split at hs
    · next request required ht =>
      rw [guarded_eq_some] at hs
      obtain ⟨⟨hfresh, hmap⟩, rfl⟩ := hs
      have hok := h.tasks t _ ht
      -- The new entry is under an id that no task owns.
      have hother : ∀ u task k, s.tasks.lookup u = some task → task.reservation = some k →
          k ≠ id := by
        rintro u task k hu hk rfl
        obtain ⟨-, e, he, -⟩ := (h.tasks u task hu).owned k hk
        exact hfresh (AList.lookup_isSome.mp (by rw [he]; rfl))
      apply h.moves (t := t) rfl
      · refine ⟨by simp [Task.writes], hok.known, trivial, ?_⟩
        intro k hk
        obtain rfl : id = k := by simpa [Task.reservation] using hk
        have hentry : (s.registry.reserve id request.profile.key required).entries.lookup id =
            some ⟨request.profile.key, true, none, required, false⟩ := by
          simp [lookup_reserve]
        refine ⟨hmap, _, hentry, rfl, ?_, fun _ => rfl⟩
        intro p hp
        obtain rfl : request.profile = p := by simpa [Task.profile] using hp
        rfl
      · intro u task hu hlookup
        apply keeps_of_free (hok.not_writing rfl hu)
        · intro k hk
          simp [lookup_reserve, hother u task k hlookup hk]
        · exact fun _ _ hn => hn
      · intro u task k _ hlookup hk hnew
        obtain rfl : id = k := by simpa [Task.reservation] using hnew
        exact hother u task id hlookup hk rfl
    · cases hs

/-- A child is only started for a reservation without one. -/
theorem Inv.shrinks_exec (h : Inv config cookbook s) {t id : Nat} {request : Request}
    (ht : s.tasks.lookup t = some (.cleared request id)) (pid : Nat) :
    Shrinks s.registry (s.registry.updatePid id pid) := by
  obtain ⟨-, e, he, howned⟩ := (h.tasks t _ ht).owned id rfl
  apply shrinks_updatePid
  intro a ha
  rw [he] at ha
  cases ha
  exact howned.childless rfl

private theorem inv_spawnStep {l : Label} (h : Inv config cookbook s)
    (hs : spawnStep config s l = some s') : Inv config cookbook s' := by
  cases l <;> simp only [spawnStep, reduceCtorEq] at hs
  case exec t pid =>
    split at hs
    · next request id ht =>
      split at hs
      · next e he =>
        rw [guarded_eq_some] at hs
        obtain ⟨-, rfl⟩ := hs
        have hok := h.tasks t _ ht
        obtain ⟨hmap, e', he', howned⟩ := hok.owned id rfl
        obtain rfl : e = e' := by rw [he] at he'; exact Option.some.inj he'
        have hother : ∀ u task k, u ≠ t → s.tasks.lookup u = some task →
            task.reservation = some k → k ≠ id := by
          rintro u task k hu hlookup hk rfl
          exact hu (h.distinct u t task _ k hlookup ht hk rfl)
        apply h.moves (t := t) rfl
        · refine ⟨by simp [Task.writes], hok.known, trivial, ?_⟩
          intro k hk
          obtain rfl : id = k := by simpa [Task.reservation] using hk
          have hentry : (s.registry.updatePid id pid).entries.lookup id =
              some { e with pid := some pid } := by
            simp [lookup_updatePid, he]
          refine ⟨hmap, _, hentry, howned.pending, ?_, ?_⟩
          · exact howned.key
          · simp [Task.hasChild]
        · intro u task hu hlookup
          apply keeps_of_lock
          · rfl
          · exact h.shrinks_exec ht pid
          · intro k hk
            simp [lookup_updatePid, hother u task k hu hlookup hk]
          · exact InstancesShrink.refl _
        · intro u task k hu hlookup hk hnew
          obtain rfl : id = k := by simpa [Task.reservation] using hnew
          exact hother u task id hu hlookup hk rfl
      · cases hs
    · cases hs
  case execFailed t =>
    split at hs
    · next request id ht =>
      cases hs
      exact h.moveTask ht rfl rfl (fun _ => rfl) (by simp [Task.writes]) trivial
    · cases hs
  case insertLock t =>
    split at hs
    · next request id ht =>
      rw [guarded_eq_some] at hs
      obtain ⟨hfree, rfl⟩ := hs
      exact h.moveLock ht rfl rfl (by simp [Task.hasChild]) (by simp [hfree]) (fun _ => rfl)
        trivial (InstancesShrink.refl _)
    · cases hs
  case insert t now =>
    split at hs
    · next request id ht =>
      cases hs
      split
      · exact inv_leave h ht
      · have hok := h.tasks t _ ht
        apply h.ends (t := t) rfl
        intro u task hu hlookup
        have hother : ∀ k, task.reservation = some k → k ≠ id := by
          rintro k hk rfl
          exact hu (h.distinct u t task _ k hlookup ht hk rfl)
        apply keeps_of_free (hok.not_writing rfl hu)
        · intro k hk
          simp [lookup_markHandedOff, hother k hk]
        · intro k hk hn
          rw [AList.mem_insert]
          rintro (rfl | hm)
          · exact hother k hk rfl
          · exact hn hm
    · cases hs
  case leave t =>
    split at hs
    · next task ht =>
      cases hs
      exact inv_leave h ht
    · cases hs

private theorem inv_otherStep {l : Label} (h : Inv config cookbook s)
    (hs : otherStep s l = some s') :
    Inv config cookbook s' := by
  cases l <;> simp only [otherStep, reduceCtorEq] at hs
  case retire ids =>
    rw [guarded_eq_some] at hs
    obtain ⟨hfree, rfl⟩ := hs
    refine h.others rfl ?_
    intro t task _
    exact keeps_of_free (by simp [hfree]) (fun _ _ => rfl)
      (fun _ _ hn => (instancesShrink_removeAll _ _).notMem hn)
  case retired =>
    rw [guarded_eq_some] at hs
    obtain ⟨hfree, rfl⟩ := hs
    refine h.others rfl ?_
    intro t task _
    exact keeps_of_free (by simp [hfree]) (fun _ _ => rfl) (fun _ _ hn => hn)
  case ready id =>
    split at hs
    · next e he =>
      split at hs
      · rw [guarded_eq_some] at hs
        obtain ⟨hpending, rfl⟩ := hs
        refine h.others rfl ?_
        intro t task ht
        apply keeps_of_lock
        · rfl
        · exact shrinks_markReady _ _
        · intro k hk
          obtain ⟨-, e', he', howned⟩ := (h.tasks t task ht).owned k hk
          have hne : k ≠ id := by
            rintro rfl
            rw [he] at he'
            cases he'
            simp [howned.pending] at hpending
          simp [lookup_markReady, hne]
        · exact InstancesShrink.refl _
      · cases hs
    · cases hs
  case finish id =>
    rw [guarded_eq_some] at hs
    obtain ⟨hfree, rfl⟩ := hs
    refine h.others rfl ?_
    intro t task ht
    apply keeps_of_lock
    · rfl
    · exact shrinks_releaseMemory _ _
    · intro k hk
      have hne : k ≠ id := by
        rintro rfl
        exact hfree ⟨t, task⟩ (AList.mem_lookup_iff.mp ht) hk
      simp [lookup_releaseMemory, hne]
    · exact InstancesShrink.refl _
  case measure pid usage readable =>
    cases hs
    exact h.others rfl fun _ _ _ => keeps_refl rfl rfl rfl
  case release id now =>
    cases hs
    refine h.others rfl ?_
    intro t task _
    apply keeps_of_lock
    · rfl
    · exact Shrinks.refl _
    · exact fun _ _ => rfl
    · exact instancesShrink_modify _ _ (fun _ => rfl) (fun _ => rfl)
  case crash id =>
    cases hs
    refine h.others rfl ?_
    intro t task _
    apply keeps_of_lock
    · rfl
    · exact Shrinks.refl _
    · exact fun _ _ => rfl
    · exact instancesShrink_modify _ _ (fun _ => rfl) (fun _ => rfl)

/-- Every step keeps the invariant. -/
theorem inv_step {l : Label} (h : Inv config cookbook s) (hs : step config cookbook s l = some s') :
    Inv config cookbook s' := by
  cases l <;> simp only [step] at hs
  all_goals first
    | exact inv_enterStep h hs
    | exact inv_accountStep h hs
    | exact inv_admitStep h hs
    | exact inv_spawnStep h hs
    | exact inv_otherStep h hs

end Llamesh.Spawn
