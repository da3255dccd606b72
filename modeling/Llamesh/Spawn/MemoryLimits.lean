import Llamesh.Spawn.Memory

/-!
# The memory limits are kept

The invariant of `Llamesh.Spawn.Memory` over the steps of an accounting, the admission
it leads to and the reservation, and what follows for every run: the computed effective
memory, once within a limit, exceeds it by no more than the estimates retained for ready
processes that can no longer be read.
-/

namespace Llamesh.Spawn

open Transition Config SpawnReservations

variable {config : NodeConfig} {cookbook : Cookbook} {external : Nat} {s s' : State} {l : Label}

/-! ### The steps of an accounting -/

private theorem scanWithin_start (h : MemoryInv config external s) :
    ScanWithin config external s (.start s.registry) where
  linked := h.processes.linked
  within d hd hmax := by
    have hcommitted := h.committed d hd hmax
    have hsum : Table.sum (Scan.start s.registry).todo (fun _ r => level s.processes d r) =
        committedMemory s d := rfl
    have hobserved : (Scan.start s.registry).tally.observed.at d = 0 := by cases d <;> rfl
    have hpromised : (Scan.start s.registry).tally.promised.at d = 0 := by cases d <;> rfl
    omega

private theorem scanCovers_start (s : State) : ScanCovers s (.start s.registry) where
  known _ _ hr := hr
  covers d := by
    left
    have hzero : memoryOutside s (Scan.start s.registry).todo d = 0 := by
      apply Table.sum_eq_zero
      intro id e he
      have hmem : id ∈ (Scan.start s.registry).todo := AList.lookup_isSome.mp (by
        show (s.registry.entries.lookup id).isSome = true
        rw [he]
        rfl)
      rw [if_pos hmem]
    rw [hzero]
    exact Nat.zero_le _

private theorem scanWithin_sample {scan : Scan} {id : Nat} {r : MemoryCommitment}
    (h : ProcessInv s) (hw : ScanWithin config external s scan)
    (hr : scan.todo.lookup id = some r) :
    ScanWithin config external s (scan.sample s.processes id r) where
  linked k a ha := by
    have ha : (scan.todo.erase id).lookup k = some a := ha
    rw [Table.lookup_erase_eq_some] at ha
    exact hw.linked k a ha.2
  within d hd hmax := by
    have hwithin := hw.within d hd hmax
    have hsum := Table.sum_erase_add hr fun _ r => level s.processes d r
    have hsample := sample_eq_level h.ok (hw.linked id r hr) d
    have hobserved := tally_add_observed scan.tally s.processes id r d
    have hpromised := tally_add_promised scan.tally s.processes id r d
    have hretained : (scan.sample s.processes id r).retained.at d =
        scan.retained.at d + retainedOf s.processes r d := Memory.at_ofFn _ d
    simp only [Scan.sample] at hretained ⊢
    rw [hretained, hobserved, hpromised]
    unfold saturatingAdd
    omega

private theorem outside_sample {scan : Scan} {id : Nat} {r : MemoryCommitment}
    (h : ProcessInv s) (hw : ScanWithin config external s scan) (hc : ScanCovers s scan)
    (hsnap : Shrinks scan.snapshot s.registry) (hr : scan.todo.lookup id = some r)
    (d : Dimension) :
    memoryOutside s (scan.todo.erase id) d ≤
      memoryOutside s scan.todo d +
        (observedPart s.processes d r + promisedPart s.processes d r) := by
  have hmask : ∀ k, k ≠ id → (k ∈ scan.todo.erase id ↔ k ∈ scan.todo) := by
    intro k hk
    rw [AList.mem_erase]
    exact ⟨fun hm => hm.2, fun hm => ⟨hk, hm⟩⟩
  have hout : id ∉ scan.todo.erase id := by
    rw [AList.mem_erase]
    exact fun hm => hm.1 rfl
  -- Away from `id` the two sums agree.
  have hrest : ∀ t : Table Nat MemoryCommitment, id ∉ t →
      Table.sum t (fun k e => if k ∈ scan.todo.erase id then 0 else level s.processes d e) ≤
        Table.sum t fun k e => if k ∈ scan.todo then 0 else level s.processes d e := by
    intro t ht
    apply Table.sum_le_sum_of_lookup
    intro k e he
    have hk : k ≠ id := by
      rintro rfl
      exact ht (AList.lookup_isSome.mp (by rw [he]; rfl))
    refine ⟨e, he, ?_⟩
    rw [if_congr (hmask k hk) rfl rfl]
  unfold memoryOutside
  cases he : s.registry.entries.lookup id with
  | none =>
    have hle := hrest s.registry.entries (AList.lookup_eq_none.mp he)
    omega
  | some e =>
    have hle := hrest (s.registry.entries.erase id) (by
      rw [AList.mem_erase]
      exact fun hm => hm.1 rfl)
    have hnew := Table.sum_erase_add he fun k e =>
      if k ∈ scan.todo.erase id then 0 else level s.processes d e
    have hold := Table.sum_erase_add he fun k e =>
      if k ∈ scan.todo then 0 else level s.processes d e
    rw [if_neg hout] at hnew
    obtain ⟨r', hr', hev⟩ := hsnap id e he
    obtain rfl : r' = r := by
      rw [hc.known id r hr] at hr'
      exact (Option.some.inj hr').symm
    have hlinked := hw.linked id r' hr
    have hlevel := level_evolve h.ok hlinked (h.linked id e he) (ProcessesEvolve.refl _) hev d
    have hsample := sample_eq_level h.ok hlinked d
    omega

private theorem scanCovers_sample {scan : Scan} {id : Nat} {r : MemoryCommitment}
    (h : ProcessInv s) (hw : ScanWithin config external s scan) (hc : ScanCovers s scan)
    (hsnap : Shrinks scan.snapshot s.registry) (hr : scan.todo.lookup id = some r) :
    ScanCovers s (scan.sample s.processes id r) where
  known k a ha := by
    have ha : (scan.todo.erase id).lookup k = some a := ha
    rw [Table.lookup_erase_eq_some] at ha
    exact hc.known k a ha.2
  covers d := by
    have houtside := outside_sample h hw hc hsnap hr d
    have hcovers := hc.covers d
    have hobserved := tally_add_observed scan.tally s.processes id r d
    have hpromised := tally_add_promised scan.tally s.processes id r d
    show memoryOutside s (scan.todo.erase id) d ≤ _ ∨ _
    simp only [Scan.sample]
    rw [hobserved, hpromised]
    unfold saturatingAdd
    omega

/-! ### The result of an accounting -/

private theorem todo_empty {scan : Scan} (h : scan.todo.entries.isEmpty = true) :
    scan.todo = ∅ := by
  apply AList.ext
  exact List.isEmpty_iff.mp h

private theorem accounted_covers {t : Nat} {request : Request} {required : Memory Nat}
    {scan : Scan} {device : Option GpuMemorySnapshot} (hc : ScanCovers s scan)
    (ht : s.tasks.lookup t = some (.planning request required scan))
    (hdone : scan.todo.entries.isEmpty = true)
    (ha : deviceAssumed external s (.account t device) = true) (d : Dimension) :
    committedMemory s d + externalOf external d ≤
        (scan.tally.accounting scan.snapshot device
          (Table.size s.instances)).resources.effective d ∨
      u64Max ≤
        (scan.tally.accounting scan.snapshot device
          (Table.size s.instances)).resources.effective d := by
  rw [effective_accounting ht rfl ha]
  have hcovers := hc.covers d
  rw [todo_empty hdone, memoryOutside_empty] at hcovers
  unfold saturatingAdd
  omega

private theorem observation_within {t : Nat} {task : Task} {scan : Scan}
    {device : Option GpuMemorySnapshot} (hw : ScanWithin config external s scan)
    (ht : s.tasks.lookup t = some task) (hscan : task.scan = some scan)
    (ha : deviceAssumed external s (.account t device) = true) :
    ObservationWithin config external
      ⟨(scan.tally.accounting scan.snapshot device (Table.size s.instances)).resources,
        scan.retained⟩ := by
  have heffective := effective_accounting ht hscan ha scan.snapshot (Table.size s.instances)
  refine ⟨?_, ?_, ?_⟩
  · intro d hd
    rw [heffective d]
    by_cases hmax : maxMemory config d < u64Max
    · have hwithin := hw.within d hd hmax
      unfold saturatingAdd
      dsimp only
      omega
    · unfold saturatingAdd
      omega
  · intro d habove hmax
    rw [heffective d]
    unfold saturatingAdd
    omega
  · intro d
    rw [heffective d]
    unfold saturatingAdd
    omega

/-! ### The invariant -/

private theorem shrinks_of_writer (hi : Inv config cookbook s)
    (hs : step config cookbook s l = some s') {t : Nat} {task : Task}
    (ht : s.tasks.lookup t = some task) (ht' : s'.tasks.lookup t = some task)
    (hw : task.writes = true) : Shrinks s.registry s'.registry := by
  rcases step_effect hi hs with hquiet | hreserve | hinsert
  · exact hquiet.1
  · obtain ⟨u, request, required, id, hu, -, -, -, -, htasks⟩ := hreserve
    have hlock := (hi.tasks t task ht).holder hw
    rw [(hi.tasks u _ hu).holder rfl] at hlock
    obtain rfl : u = t := by simpa using hlock
    rw [htasks, AList.lookup_insert] at ht'
    cases ht'
    cases hw
  · obtain ⟨u, request, id, inst, -, -, -, -, hregistry, -⟩ := hinsert
    rw [hregistry]
    exact shrinks_markHandedOff _ _

private theorem taskMemory_step (h : MemoryInv config external s) (hi : Inv config cookbook s)
    (hm : MemoryStep s s') (ha : deviceAssumed external s l = true)
    (hs : step config cookbook s l = some s') {t : Nat} {task : Task}
    (ht : s'.tasks.lookup t = some task) : TaskMemory config external s' task := by
  -- Where the registry and the processes do not change, the facts are those of `s`.
  have hstay : s'.registry = s.registry → s'.processes = s.processes →
      TaskMemory config external s task → TaskMemory config external s' task := by
    intro hr _ hmem
    apply hmem.keep hm
    intro _
    rw [hr]
    exact Shrinks.refl _
  cases step_task hs ht with
  | same hsame =>
    exact (h.tasks t task hsame).keep hm fun hw => shrinks_of_writer hi hs hsame ht hw
  | plain hplain =>
    cases task <;> trivial
  | started hscan hr hp =>
    apply hstay hr hp
    cases task <;> simp only [Task.scan, Option.some.injEq, reduceCtorEq] at hscan
    case planning request required scan =>
      subst hscan
      exact ⟨scanWithin_start h, scanCovers_start s⟩
    case resampling request id scan =>
      subst hscan
      exact scanWithin_start h
    case observing scan =>
      subst hscan
      exact scanWithin_start h
  | sampled old scan id record hold hscan hrecord hnew hr hp =>
    subst hnew
    apply hstay hr hp
    have hfacts := h.tasks t old hold
    have hcurrent := (hi.tasks t old hold).current
    cases old <;> simp only [Task.scan, Option.some.injEq, reduceCtorEq] at hscan
    case planning request required scan' =>
      subst hscan
      exact ⟨scanWithin_sample h.processes hfacts.1 hrecord,
        scanCovers_sample h.processes hfacts.1 hfacts.2 hcurrent hrecord⟩
    case resampling request k scan' =>
      subst hscan
      exact scanWithin_sample h.processes hfacts hrecord
    case observing scan' =>
      subst hscan
      exact scanWithin_sample h.processes hfacts hrecord
  | accounted request required scan device accounting hold hdone hnew hl haccounting hr hp =>
    subst hnew hl haccounting
    apply hstay hr hp
    exact accounted_covers (h.tasks t _ hold).2 hold hdone ha
  | admitted order request required accounting plan hold hplan hvictims hnew hr hp =>
    subst hnew
    apply hstay hr hp
    intro d hmax
    have hfits := (planSpawn_admits hplan hvictims).2.2 d
    have hcovers := h.tasks t _ hold d
    unfold saturatingAdd at hfits
    omega

private theorem committed_reserve (h : MemoryInv config external s) (hr : Reserves s s')
    (d : Dimension) (hmax : maxMemory config d < u64Max) :
    committedMemory s' d + externalOf external d ≤ maxMemory config d := by
  obtain ⟨t, request, required, id, ht, hfresh, hregistry, -, hprocesses, -⟩ := hr
  have hfits := h.tasks t _ ht d hmax
  have hsum : committedMemory s' d = required.at d + committedMemory s d := by
    unfold committedMemory
    rw [hregistry, hprocesses]
    exact Table.sum_insert_of_notMem hfresh _ _
  omega

private theorem committed_step (h : MemoryInv config external s) (hi : Inv config cookbook s)
    (hm : MemoryStep s s') (hs : step config cookbook s l = some s') (d : Dimension)
    (hd : externalOf external d ≤ maxMemory config d) (hmax : maxMemory config d < u64Max) :
    committedMemory s' d + externalOf external d ≤ maxMemory config d := by
  have hcommitted := h.committed d hd hmax
  rcases step_effect hi hs with hquiet | hreserve | hinsert
  · have hle := hm.committed_le hquiet.1 d
    omega
  · exact committed_reserve h hreserve d hmax
  · obtain ⟨u, request, id, inst, -, -, -, -, hregistry, -⟩ := hinsert
    have hshrinks : Shrinks s.registry s'.registry := by
      rw [hregistry]
      exact shrinks_markHandedOff _ _
    have hle := hm.committed_le hshrinks d
    omega

private theorem scanWithin_of_task {task : Task} {scan : Scan}
    (h : TaskMemory config external s task) (hscan : task.scan = some scan) :
    ScanWithin config external s scan := by
  cases task <;> simp only [Task.scan, Option.some.injEq, reduceCtorEq] at hscan
  case planning request required scan' =>
    subst hscan
    exact h.1
  case resampling request id scan' =>
    subst hscan
    exact h
  case observing scan' =>
    subst hscan
    exact h

/-- Every step that meets the assumptions keeps the invariant. -/
theorem memoryInv_step (h : MemoryInv config external s) (hi : Inv config cookbook s)
    (hu : usageAssumed s l = true) (ha : deviceAssumed external s l = true)
    (hs : step config cookbook s l = some s') : MemoryInv config external s' := by
  obtain ⟨hprocesses, hevolve⟩ := processInv_step h.processes hi hu hs
  have hm : MemoryStep s s' := ⟨h.processes, hprocesses, hevolve⟩
  refine ⟨hprocesses, fun d hd hmax => committed_step h hi hm hs d hd hmax,
    fun t task ht => taskMemory_step h hi hm ha hs ht, ?_⟩
  rcases step_observed hs with hsame | ⟨t, device, task, scan, rfl, ht, hscan, -, hnew⟩
  · rw [hsame]
    exact h.observed
  · rw [hnew]
    intro o ho
    rcases List.mem_cons.mp ho with rfl | ho
    · exact observation_within (scanWithin_of_task (h.tasks t task ht) hscan) ht hscan ha
    · exact h.observed o ho

/-! ### Runs -/

/-- The assumptions on the processes and on the device. -/
def assumed (external : Nat) (s : State) (l : Label) : Bool :=
  usageAssumed s l && deviceAssumed external s l

/-- The invariants of ownership and of memory. -/
structure MemoryLimited (config : NodeConfig) (cookbook : Cookbook) (external : Nat) (s : State) :
    Prop where
  ownership : Inv config cookbook s
  memory : MemoryInv config external s

private theorem memoryLimited_run {as : List Label}
    (hassumed : Along (step config cookbook) (fun s l => assumed external s l = true) State.init as)
    (hrun : exec (step config cookbook) State.init as = some s) :
    MemoryLimited config cookbook external s := by
  refine exec_invariant_along ?_ ⟨inv_init config cookbook, memoryInv_init config external⟩
    hassumed hrun
  intro s l s' h ha hs
  rw [assumed, Bool.and_eq_true] at ha
  exact ⟨inv_step h.ownership hs, memoryInv_step h.memory h.ownership ha.1 ha.2 hs⟩

/-- An observation after one within a limit is above it by no more than it retained. -/
theorem ObservationWithin.after {later earlier : Observation}
    (hl : ObservationWithin config external later)
    (he : ObservationWithin config external earlier) (d : Dimension)
    (h : earlier.resources.effective d ≤ maxMemory config d) :
    later.resources.effective d ≤ maxMemory config d + later.retained.at d := by
  by_cases hext : externalOf external d ≤ maxMemory config d
  · exact hl.within d hext
  · by_cases hmax : maxMemory config d < u64Max
    · have habove := he.above d (by omega) hmax
      omega
    · have hbounded := hl.bounded d
      omega

/-- In every run under the assumptions, the effective memory computed by an accounting exceeds a
limit that an earlier one was within by no more than the estimates it retained for ready processes
that can no longer be read, and the memory that the registry stands for is within the limits with
the external part. -/
theorem effective_memory_within (config : NodeConfig) (cookbook : Cookbook) (external : Nat)
    (as : List Label) (s : State)
    (hassumed : Along (step config cookbook) (fun s l => assumed external s l = true) State.init as)
    (hrun : exec (step config cookbook) State.init as = some s) :
    s.observed.Pairwise (fun later earlier => ∀ d,
        earlier.resources.effective d ≤ maxMemory config d →
          later.resources.effective d ≤ maxMemory config d + later.retained.at d) ∧
      ∀ d, externalOf external d ≤ maxMemory config d → maxMemory config d < u64Max →
        committedMemory s d + externalOf external d ≤ maxMemory config d := by
  have hall := (memoryLimited_run hassumed hrun).memory
  constructor
  · apply List.pairwise_of_forall_mem_list
    intro later hlater earlier hearlier d hd
    exact (hall.observed later hlater).after (hall.observed earlier hearlier) d hd
  · exact hall.committed

private theorem load_model_noColon : ':' ∉ "m".toList := by decide

private theorem load_profile_noColon : ':' ∉ "p".toList := by decide

/-- A profile for two instances. -/
def loadProfile : Profile := ⟨⟨"m", load_model_noColon⟩, ⟨"p", load_profile_noColon⟩, some 2⟩

/-- Its cookbook. -/
def loadCookbook : Cookbook where
  profiles := [loadProfile]
  unique := by simp

/-- A node with 200 MiB of VRAM. -/
def loadConfig : NodeConfig := ⟨200, 1000, 3, ⟨1, 1⟩⟩

/-- A process admitted with 100 MiB becomes ready with 60 MiB, and the 140 MiB that are left are
reserved for a second request. Then the first process exits, and the memory is observed before its
child is reaped. -/
def exitBeforeReaped : List Label :=
  [.arrive 0 ⟨loadProfile, true⟩, .lock 0, .snapshot 0 ⟨100, 0⟩, .account 0 (some ⟨0, 200⟩),
    .plan 0 [], .reserve 0 10, .resample 0, .sample 0 10, .account 0 (some ⟨0, 200⟩),
    .exec 0 500, .insertLock 0, .insert 0 1, .measure 500 ⟨60, 0⟩ ⟨true, true⟩, .ready 10,
    .arrive 1 ⟨loadProfile, true⟩, .lock 1, .snapshot 1 ⟨140, 0⟩, .sample 1 10,
    .account 1 (some ⟨60, 200⟩), .plan 1 [10], .reserve 1 11,
    .measure 500 ⟨0, 0⟩ ⟨false, false⟩,
    .observe 2, .sample 2 10, .sample 2 11, .account 2 (some ⟨0, 200⟩)]

private theorem exitBeforeReaped_run :
    Along (step loadConfig loadCookbook) (fun s l => assumed 0 s l = true) State.init
        exitBeforeReaped ∧
      ∃ s, exec (step loadConfig loadCookbook) State.init exitBeforeReaped = some s ∧
        (s.observed.map fun o => o.resources.effective .vram) = [240, 60, 100, 0] ∧
        (s.observed.map fun o => o.retained.at .vram) = [100, 0, 0, 0] := by
  constructor
  · exact along_of_checkAlong (by decide +kernel)
  · have hrun : ((exec (step loadConfig loadCookbook) State.init exitBeforeReaped).any fun s =>
        decide ((s.observed.map fun o => o.resources.effective .vram) = [240, 60, 100, 0] ∧
          (s.observed.map fun o => o.retained.at .vram) = [100, 0, 0, 0])) = true := by
      decide +kernel
    obtain ⟨s, hs, hobserved⟩ := (Option.any_eq_true _ _).mp hrun
    exact ⟨s, hs, of_decide_eq_true hobserved⟩

/-- The run exceeds the limit by no more than is retained of the first process's estimate. -/
theorem exitBeforeReaped_within :
    ∃ s, exec (step loadConfig loadCookbook) State.init exitBeforeReaped = some s ∧
      (s.observed.map fun o => o.resources.effective .vram) = [240, 60, 100, 0] ∧
      (s.observed.map fun o => o.retained.at .vram) = [100, 0, 0, 0] ∧
      s.observed.Pairwise (fun later earlier => ∀ d,
        earlier.resources.effective d ≤ maxMemory loadConfig d →
          later.resources.effective d ≤ maxMemory loadConfig d + later.retained.at d) ∧
      ∀ d, externalOf 0 d ≤ maxMemory loadConfig d → maxMemory loadConfig d < u64Max →
        committedMemory s d + externalOf 0 d ≤ maxMemory loadConfig d := by
  obtain ⟨hassumed, s, hs, heffective, hretained⟩ := exitBeforeReaped_run
  exact ⟨s, hs, heffective, hretained,
    effective_memory_within loadConfig loadCookbook 0 exitBeforeReaped s hassumed hs⟩

/-- The effective memory was within the limit, and later is above it. -/
theorem effective_above_limit_after_exit :
    ¬∀ (config : NodeConfig) (cookbook : Cookbook) (external : Nat) (as : List Label) (s : State),
      Along (step config cookbook) (fun s l => assumed external s l = true) State.init as →
      exec (step config cookbook) State.init as = some s →
      s.observed.Pairwise fun later earlier => ∀ d,
        earlier.resources.effective d ≤ maxMemory config d →
          later.resources.effective d ≤ maxMemory config d := by
  intro h
  obtain ⟨hassumed, s, hs, heffective, -⟩ := exitBeforeReaped_run
  have hpairs := h loadConfig loadCookbook 0 exitBeforeReaped s hassumed hs
  have hvram : (s.observed.map fun o => o.resources.effective .vram).Pairwise
      fun later earlier => earlier ≤ 200 → later ≤ 200 :=
    List.pairwise_map.mpr (hpairs.imp fun hpair => hpair .vram)
  rw [heffective] at hvram
  exact absurd hvram (by decide)

end Llamesh.Spawn
