import Llamesh.Spawn.Victims

/-!
# The credit of an eviction

`resource_accounting_for_instances` (`src/node_state/mod.rs:1086–1158`) as one
function of the registry, the instances map and the samples. The eviction loop
subtracts a victim's credit from the usage instead of accounting again. The two
agree: the usage after the victims is the accounting without them, on a device
that uses their observed memory less.
-/

namespace Llamesh.Spawn

open Config

/-! ### The accounting -/

/-- What the accounting reads of a mapped instance: `memory_reservation` is present for those the
scheduler spawned. -/
structure AccountedInstance where
  pid : Option Nat
  argsHash : String
  leased : Bool
  deriving DecidableEq, Repr

/-- One round of samples and the learned memory. -/
structure Samples where
  vram : Nat → Option Nat
  sysmem : Nat → Option Nat
  device : Option GpuMemorySnapshot
  learned : String → Option (Memory Nat)

namespace Samples

/-- The live memory of an entry's process. `src/node_state/mod.rs:1101–1106`. -/
def live (samples : Samples) (record : MemoryCommitment) : Memory (Option Nat) :=
  match record.pid with
  | some pid => ⟨samples.vram pid, samples.sysmem pid⟩
  | none => ⟨none, none⟩

/-- The memory of a process in the samples. `src/memory_sampler.rs:206–210`. -/
def sample (samples : Samples) (pid : Nat) : Memory Nat :=
  ⟨(samples.vram pid).getD 0, (samples.sysmem pid).getD 0⟩

/-- The memory an instance is accounted with. `src/node_state/mod.rs:1178–1194`. -/
def getMemoryForInstance (samples : Samples) (inst : AccountedInstance) : Memory Nat :=
  let learned := (samples.learned inst.argsHash).getD ⟨0, 0⟩
  match inst.pid.map samples.sample with
  | some live => if 0 < live.vram ∨ 0 < live.sysmem then live else learned
  | none => learned

/-- The samples when the device uses less. -/
def freeing (samples : Samples) (freed : Nat) : Samples :=
  { samples with device := samples.device.map fun g => { g with usedMb := g.usedMb - freed } }

end Samples

/-- The memory of an instance without a lease; `none` for one that has its own entry. -/
def unleasedMemory (samples : Samples) (inst : AccountedInstance) : Option (Memory Nat) :=
  if inst.leased then none else some (samples.getMemoryForInstance inst)

/-- One pass of the loop over the instances. `src/node_state/mod.rs:1132–1140`. -/
def Tally.addUnleased (t : Tally) (samples : Samples) (id : Nat) (inst : AccountedInstance) :
    Tally :=
  match unleasedMemory samples inst with
  | some memory =>
    { t with
      observed := .ofFn fun d => saturatingAdd (t.observed.at d) (memory.at d)
      instanceMemory := t.instanceMemory.insert id memory }
  | none => t

/-- The memory in use by some instances and reservations. `src/node_state/mod.rs:1086–1158`. -/
def resourceAccountingForInstances (samples : Samples) (reservations : SpawnReservations)
    (instances : Table Nat AccountedInstance) : ResourceAccounting :=
  let t := reservations.entries.entries.foldl
    (fun t e => t.add e.1 e.2 (samples.live e.2)) Tally.zero
  let t := instances.entries.foldl (fun t e => t.addUnleased samples e.1 e.2) t
  t.accounting reservations samples.device (Table.size instances)

/-! ### The sums it computes -/

/-- The memory an entry's process is observed with. -/
def Samples.observed (samples : Samples) (d : Dimension) (record : MemoryCommitment) : Nat :=
  ((samples.live record).at d).getD 0

/-- The memory promised to an entry's process beyond that. -/
def Samples.promised (samples : Samples) (d : Dimension) (record : MemoryCommitment) : Nat :=
  committed (record.estimate.at d) record.ready ((samples.live record).at d)

/-- The memory an instance counts for in the second loop. -/
def Samples.unleased (samples : Samples) (d : Dimension) (inst : AccountedInstance) : Nat :=
  ((unleasedMemory samples inst).map fun m => m.at d).getD 0

section Totals

variable (samples : Samples) (reservations : SpawnReservations)
  (instances : Table Nat AccountedInstance)

/-- All observed memory. -/
def observedTotal (d : Dimension) : Nat :=
  Table.sum reservations.entries (fun _ e => samples.observed d e) +
    Table.sum instances fun _ i => samples.unleased d i

/-- All promised memory. -/
def promisedTotal (d : Dimension) : Nat :=
  Table.sum reservations.entries fun _ e => samples.promised d e

/-- What the device uses beyond the observed memory. -/
def externalTotal : Dimension → Nat
  | .vram => (samples.device.map fun g => g.usedMb).getD 0 -
      observedTotal samples reservations instances .vram
  | .sysmem => 0

/-- The accounting stays within 64 bits. -/
def NoOverflow : Prop :=
  ∀ d, observedTotal samples reservations instances d +
    externalTotal samples reservations instances d + promisedTotal samples reservations d ≤ u64Max

end Totals

private theorem saturatingAdd_eq {a b : Nat} (h : a + b ≤ u64Max) : saturatingAdd a b = a + b :=
  Nat.min_eq_left h

private theorem saturatingAdd_min (a b : Nat) :
    saturatingAdd (min a u64Max) b = min (a + b) u64Max := by
  unfold saturatingAdd
  omega

private theorem foldl_add (samples : Samples) (l : List (Sigma fun _ : Nat => MemoryCommitment))
    (t : Tally) (d : Dimension) {a b : Nat} (ha : t.observed.at d = min a u64Max)
    (hb : t.promised.at d = min b u64Max) :
    (l.foldl (fun t e => t.add e.1 e.2 (samples.live e.2)) t).observed.at d =
        min (a + (l.map fun e => samples.observed d e.2).sum) u64Max ∧
      (l.foldl (fun t e => t.add e.1 e.2 (samples.live e.2)) t).promised.at d =
        min (b + (l.map fun e => samples.promised d e.2).sum) u64Max := by
  induction l generalizing t a b with
  | nil => simpa using ⟨ha, hb⟩
  | cons e l ih =>
    simp only [List.foldl_cons, List.map_cons, List.sum_cons, ← Nat.add_assoc]
    apply ih
    · simp only [Tally.add, Memory.at_ofFn, ha]
      exact saturatingAdd_min _ _
    · simp only [Tally.add, Memory.at_ofFn, hb]
      exact saturatingAdd_min _ _

private theorem foldl_addUnleased (samples : Samples)
    (l : List (Sigma fun _ : Nat => AccountedInstance)) (t : Tally) (d : Dimension) {a : Nat}
    (ha : t.observed.at d = min a u64Max) :
    (l.foldl (fun t e => t.addUnleased samples e.1 e.2) t).observed.at d =
        min (a + (l.map fun e => samples.unleased d e.2).sum) u64Max ∧
      (l.foldl (fun t e => t.addUnleased samples e.1 e.2) t).promised = t.promised := by
  induction l generalizing t a with
  | nil => simpa using ha
  | cons e l ih =>
    simp only [List.foldl_cons, List.map_cons, List.sum_cons, ← Nat.add_assoc]
    cases hm : unleasedMemory samples e.2 with
    | none =>
      have hskip : t.addUnleased samples e.1 e.2 = t := by simp [Tally.addUnleased, hm]
      have hzero : samples.unleased d e.2 = 0 := by simp [Samples.unleased, hm]
      rw [hskip, hzero]
      exact ih t ha
    | some memory =>
      have hval : samples.unleased d e.2 = memory.at d := by simp [Samples.unleased, hm]
      have hprom : (t.addUnleased samples e.1 e.2).promised = t.promised := by
        simp [Tally.addUnleased, hm]
      have hobs : (t.addUnleased samples e.1 e.2).observed.at d =
          min (a + samples.unleased d e.2) u64Max := by
        simp only [Tally.addUnleased, hm, Memory.at_ofFn, ha, hval]
        exact saturatingAdd_min _ _
      obtain ⟨hfold, hfoldProm⟩ := ih _ hobs
      exact ⟨hfold, hfoldProm.trans hprom⟩

section Accounting

variable {samples : Samples} {reservations : SpawnReservations}
  {instances : Table Nat AccountedInstance}

private theorem tally_totals (samples : Samples) (reservations : SpawnReservations)
    (instances : Table Nat AccountedInstance) (d : Dimension) :
    let t := reservations.entries.entries.foldl
      (fun t e => t.add e.1 e.2 (samples.live e.2)) Tally.zero
    let u := instances.entries.foldl (fun t e => t.addUnleased samples e.1 e.2) t
    u.observed.at d = min (observedTotal samples reservations instances d) u64Max ∧
      u.promised.at d = min (promisedTotal samples reservations d) u64Max := by
  have hzero : (Tally.zero.observed.at d = min 0 u64Max) ∧
      (Tally.zero.promised.at d = min 0 u64Max) := by cases d <;> exact ⟨rfl, rfl⟩
  obtain ⟨hobs, hprom⟩ :=
    foldl_add samples reservations.entries.entries Tally.zero d hzero.1 hzero.2
  obtain ⟨hobs', hprom'⟩ := foldl_addUnleased samples instances.entries _ d hobs
  rw [Nat.zero_add] at hprom hobs'
  exact ⟨hobs', by rw [hprom', hprom]; rfl⟩

/-- Without overflow the effective memory is the observed, the external and the promised part. -/
theorem effective_eq (h : NoOverflow samples reservations instances) (d : Dimension) :
    (resourceAccountingForInstances samples reservations instances).resources.effective d =
      observedTotal samples reservations instances d +
        externalTotal samples reservations instances d + promisedTotal samples reservations d := by
  obtain ⟨hobs, hprom⟩ := tally_totals samples reservations instances d
  have hbound := h d
  rw [Nat.min_eq_left (by omega)] at hobs hprom
  cases d with
  | vram =>
    simp only [Memory.at] at hobs hprom
    simp only [resourceAccountingForInstances, Tally.accounting, ResourceSnapshot.fromSamples,
      ResourceSnapshot.effective, hobs, hprom, externalTotal] at hbound ⊢
    exact saturatingAdd_eq hbound
  | sysmem =>
    simp only [Memory.at] at hobs hprom
    simp only [resourceAccountingForInstances, Tally.accounting, ResourceSnapshot.fromSamples,
      ResourceSnapshot.effective, hobs, hprom, externalTotal, Nat.add_zero] at hbound ⊢
    exact saturatingAdd_eq hbound

/-- The external part is what the device uses beyond the observed memory. -/
theorem externalVramMb_eq (h : NoOverflow samples reservations instances) :
    (resourceAccountingForInstances samples reservations instances).resources.externalVramMb =
      externalTotal samples reservations instances .vram := by
  obtain ⟨hobs, -⟩ := tally_totals samples reservations instances .vram
  have hbound := h .vram
  rw [Nat.min_eq_left (by omega)] at hobs
  simp only [Memory.at] at hobs
  simp only [resourceAccountingForInstances, Tally.accounting, ResourceSnapshot.fromSamples, hobs,
    externalTotal]

/-! ### The credit of one instance -/

/-- The observed memory of a mapped instance: of its entry, or its own when it has no lease. -/
def instanceObserved (samples : Samples) (reservations : SpawnReservations)
    (instances : Table Nat AccountedInstance) (d : Dimension) (id : Nat) : Nat :=
  match instances.lookup id with
  | some inst =>
    if inst.leased then ((reservations.entries.lookup id).map (samples.observed d)).getD 0
    else samples.unleased d inst
  | none => 0

/-- The memory promised to a mapped instance beyond that. -/
def instancePromised (samples : Samples) (reservations : SpawnReservations)
    (instances : Table Nat AccountedInstance) (d : Dimension) (id : Nat) : Nat :=
  match instances.lookup id with
  | some inst =>
    if inst.leased then ((reservations.entries.lookup id).map (samples.promised d)).getD 0 else 0
  | none => 0

private theorem instanceMemory_foldl_add (samples : Samples)
    (l : List (Sigma fun _ : Nat => MemoryCommitment)) (t : Tally) :
    (l.foldl (fun t e => t.add e.1 e.2 (samples.live e.2)) t).instanceMemory =
      l.foldl (fun u e => Table.insertSome u e.1 (some (Memory.ofFn fun d =>
        saturatingAdd (samples.observed d e.2) (samples.promised d e.2)))) t.instanceMemory := by
  induction l generalizing t with
  | nil => rfl
  | cons e l ih =>
    rw [List.foldl_cons, List.foldl_cons, ih]
    rfl

private theorem instanceMemory_foldl_addUnleased (samples : Samples)
    (l : List (Sigma fun _ : Nat => AccountedInstance)) (t : Tally) :
    (l.foldl (fun t e => t.addUnleased samples e.1 e.2) t).instanceMemory =
      l.foldl (fun u e => Table.insertSome u e.1 (unleasedMemory samples e.2))
        t.instanceMemory := by
  induction l generalizing t with
  | nil => rfl
  | cons e l ih =>
    rw [List.foldl_cons, List.foldl_cons, ih]
    congr 1
    unfold Tally.addUnleased
    cases unleasedMemory samples e.2 <;> rfl

private theorem lookup_instanceMemory (samples : Samples) (reservations : SpawnReservations)
    (instances : Table Nat AccountedInstance) (id : Nat) :
    (resourceAccountingForInstances samples reservations instances).instanceMemory.lookup id =
      ((instances.lookup id).bind (unleasedMemory samples)).or
        ((reservations.entries.lookup id).map fun e =>
          Memory.ofFn fun d => saturatingAdd (samples.observed d e) (samples.promised d e)) := by
  simp only [resourceAccountingForInstances, Tally.accounting, instanceMemory_foldl_addUnleased,
    instanceMemory_foldl_add]
  rw [Table.lookup_foldl_insertSome instances _ (fun _ i => unleasedMemory samples i) id,
    Table.lookup_foldl_insertSome reservations.entries _ (fun _ e => some (Memory.ofFn fun d =>
      saturatingAdd (samples.observed d e) (samples.promised d e))) id]
  cases reservations.entries.lookup id <;> rfl

/-- A mapped instance is credited with its observed and its promised memory. -/
theorem credit_eq (h : NoOverflow samples reservations instances) {id : Nat}
    (hid : id ∈ instances) (d : Dimension) :
    ((resourceAccountingForInstances samples reservations instances).credit id).at d =
      instanceObserved samples reservations instances d id +
        instancePromised samples reservations instances d id := by
  obtain ⟨inst, hinst⟩ := Option.isSome_iff_exists.mp (AList.lookup_isSome.mpr hid)
  have hbound := h d
  simp only [ResourceAccounting.credit, lookup_instanceMemory, instanceObserved, instancePromised,
    hinst, Option.bind_some]
  cases hleased : inst.leased with
  | false => simp [unleasedMemory, Samples.unleased, hleased]
  | true =>
    have hnone : unleasedMemory samples inst = none := by simp [unleasedMemory, hleased]
    rw [hnone, Option.none_or]
    cases hentry : reservations.entries.lookup id with
    | none => cases d <;> rfl
    | some e =>
      have hobs := Table.le_sum hentry fun _ e => samples.observed d e
      have hprom := Table.le_sum hentry fun _ e => samples.promised d e
      simp only [observedTotal, promisedTotal] at hbound
      simp only [Option.map_some, Option.getD_some, Memory.at_ofFn, if_true]
      exact saturatingAdd_eq (by omega)

/-! ### Removing instances -/

/-- The registry and the map without an instance: its process is gone, so its entry is as well. -/
def removeInstance (left : SpawnReservations × Table Nat AccountedInstance) (id : Nat) :
    SpawnReservations × Table Nat AccountedInstance :=
  match left.2.lookup id with
  | some inst => (if inst.leased then left.1.releaseMemory id else left.1, left.2.erase id)
  | none => left

/-- The registry and the map without the victims. -/
def removeInstances (left : SpawnReservations × Table Nat AccountedInstance)
    (victims : List Nat) : SpawnReservations × Table Nat AccountedInstance :=
  victims.foldl removeInstance left

private theorem sum_releaseMemory (reservations : SpawnReservations) (id : Nat)
    (f : MemoryCommitment → Nat) :
    Table.sum (reservations.releaseMemory id).entries (fun _ e => f e) +
      ((reservations.entries.lookup id).map f).getD 0 =
        Table.sum reservations.entries fun _ e => f e := by
  unfold SpawnReservations.releaseMemory
  split
  · next hid =>
    obtain ⟨e, he⟩ := Option.isSome_iff_exists.mp (AList.lookup_isSome.mpr hid)
    rw [he]
    exact Table.sum_erase_add he fun _ e => f e
  · next hid => simp [AList.lookup_eq_none.mpr hid]

private theorem totals_removeInstance (samples : Samples)
    (left : SpawnReservations × Table Nat AccountedInstance) (d : Dimension) (id : Nat) :
    observedTotal samples (removeInstance left id).1 (removeInstance left id).2 d +
        instanceObserved samples left.1 left.2 d id = observedTotal samples left.1 left.2 d ∧
      promisedTotal samples (removeInstance left id).1 d +
        instancePromised samples left.1 left.2 d id = promisedTotal samples left.1 d := by
  unfold removeInstance instanceObserved instancePromised
  cases hinst : left.2.lookup id with
  | none => exact ⟨rfl, rfl⟩
  | some inst =>
    have herase := Table.sum_erase_add hinst fun _ i => samples.unleased d i
    cases hleased : inst.leased with
    | false =>
      simp only [observedTotal, promisedTotal, hleased, Bool.false_eq_true, if_false]
      exact ⟨by omega, rfl⟩
    | true =>
      have hzero : samples.unleased d inst = 0 := by
        simp [Samples.unleased, unleasedMemory, hleased]
      have hobs := sum_releaseMemory left.1 id (samples.observed d)
      have hprom := sum_releaseMemory left.1 id (samples.promised d)
      simp only [observedTotal, promisedTotal, hleased, if_true]
      exact ⟨by omega, hprom⟩

private theorem lookup_removeInstance (left : SpawnReservations × Table Nat AccountedInstance)
    {id k : Nat} (hk : k ≠ id) :
    (removeInstance left id).1.entries.lookup k = left.1.entries.lookup k ∧
      (removeInstance left id).2.lookup k = left.2.lookup k := by
  unfold removeInstance
  split
  · next inst hinst =>
    refine ⟨?_, AList.lookup_erase_ne hk⟩
    dsimp only
    split
    · rw [SpawnReservations.lookup_releaseMemory, if_neg hk]
    · rfl
  · exact ⟨rfl, rfl⟩

private theorem instance_removeInstance (samples : Samples)
    {left : SpawnReservations × Table Nat AccountedInstance} {id k : Nat} (hk : k ≠ id)
    (d : Dimension) :
    instanceObserved samples (removeInstance left id).1 (removeInstance left id).2 d k =
        instanceObserved samples left.1 left.2 d k ∧
      instancePromised samples (removeInstance left id).1 (removeInstance left id).2 d k =
        instancePromised samples left.1 left.2 d k := by
  obtain ⟨hentry, hinst⟩ := lookup_removeInstance left hk
  simp only [instanceObserved, instancePromised, hentry, hinst]
  exact ⟨trivial, trivial⟩

private theorem totals_removeInstances (samples : Samples) (victims : List Nat)
    (left : SpawnReservations × Table Nat AccountedInstance) (hnd : victims.Nodup)
    (d : Dimension) :
    observedTotal samples (removeInstances left victims).1 (removeInstances left victims).2 d +
        (victims.map (instanceObserved samples left.1 left.2 d)).sum =
          observedTotal samples left.1 left.2 d ∧
      promisedTotal samples (removeInstances left victims).1 d +
        (victims.map (instancePromised samples left.1 left.2 d)).sum =
          promisedTotal samples left.1 d := by
  induction victims generalizing left with
  | nil => exact ⟨rfl, rfl⟩
  | cons v victims ih =>
    obtain ⟨hv, hnd⟩ := List.nodup_cons.mp hnd
    obtain ⟨hobs, hprom⟩ := ih (removeInstance left v) hnd
    obtain ⟨hobs', hprom'⟩ := totals_removeInstance samples left d v
    have hothers : ∀ k ∈ victims, k ≠ v := fun k hk hkv => hv (hkv ▸ hk)
    have hmapObs : victims.map (instanceObserved samples (removeInstance left v).1
        (removeInstance left v).2 d) = victims.map (instanceObserved samples left.1 left.2 d) :=
      List.map_congr_left fun k hk => (instance_removeInstance samples (hothers k hk) d).1
    have hmapProm : victims.map (instancePromised samples (removeInstance left v).1
        (removeInstance left v).2 d) = victims.map (instancePromised samples left.1 left.2 d) :=
      List.map_congr_left fun k hk => (instance_removeInstance samples (hothers k hk) d).2
    rw [hmapObs] at hobs
    rw [hmapProm] at hprom
    simp only [removeInstances, List.foldl_cons, List.map_cons, List.sum_cons] at hobs hprom ⊢
    omega

/-! ### The simulated usage -/

/-- The usage of the eviction loop after the victims. `src/node_state/mod.rs:1464–1467`. -/
def ResourceAccounting.simulated (accounting : ResourceAccounting) (victims : List Nat) :
    Memory Nat :=
  victims.foldl (fun usage id => .ofFn fun d => usage.at d - (accounting.credit id).at d)
    accounting.current

private theorem simulated_at (accounting : ResourceAccounting) (victims : List Nat)
    (d : Dimension) :
    (accounting.simulated victims).at d =
      accounting.resources.effective d -
        (victims.map fun id => (accounting.credit id).at d).sum := by
  have hstart : accounting.current.at d = accounting.resources.effective d := by cases d <;> rfl
  rw [ResourceAccounting.simulated, ← hstart]
  generalize accounting.current = usage
  induction victims generalizing usage with
  | nil => simp
  | cons v victims ih =>
    rw [List.foldl_cons, ih, Memory.at_ofFn, List.map_cons, List.sum_cons, Nat.sub_sub]

private theorem sum_credit (h : NoOverflow samples reservations instances) {victims : List Nat}
    (hm : ∀ v ∈ victims, v ∈ instances) (d : Dimension) :
    (victims.map fun id => ((resourceAccountingForInstances samples reservations
        instances).credit id).at d).sum =
      (victims.map (instanceObserved samples reservations instances d)).sum +
        (victims.map (instancePromised samples reservations instances d)).sum := by
  rw [← List.sum_map_add]
  exact congrArg List.sum (List.map_congr_left fun v hv => credit_eq h (hm v hv) d)

private theorem externalTotal_removeInstances (samples : Samples) (victims : List Nat)
    (left : SpawnReservations × Table Nat AccountedInstance) (hnd : victims.Nodup)
    (d : Dimension) :
    externalTotal (samples.freeing (victims.map (instanceObserved samples left.1 left.2
        .vram)).sum) (removeInstances left victims).1 (removeInstances left victims).2 d =
      externalTotal samples left.1 left.2 d := by
  cases d with
  | sysmem => rfl
  | vram =>
    have hobs := (totals_removeInstances samples victims left hnd .vram).1
    have hsame : observedTotal (samples.freeing (victims.map (instanceObserved samples left.1
        left.2 .vram)).sum) (removeInstances left victims).1 (removeInstances left victims).2
        .vram = observedTotal samples (removeInstances left victims).1
          (removeInstances left victims).2 .vram := rfl
    simp only [externalTotal, hsame]
    cases hdev : samples.device with
    | none => simp [Samples.freeing, hdev]
    | some g =>
      simp only [Samples.freeing, hdev, Option.map_some, Option.getD_some]
      omega

/-- The usage simulated after the victims is the accounting without them, with the same external
part, when the device uses their observed memory less. No subtraction of the loop clamps. -/
theorem eviction_credit_exact (samples : Samples) (reservations : SpawnReservations)
    (instances : Table Nat AccountedInstance) (victims : List Nat)
    (h : NoOverflow samples reservations instances) (hnd : victims.Nodup)
    (hm : ∀ v ∈ victims, v ∈ instances) :
    let accounting := resourceAccountingForInstances samples reservations instances
    let freed := (victims.map (instanceObserved samples reservations instances .vram)).sum
    let left := removeInstances (reservations, instances) victims
    let recomputed := resourceAccountingForInstances (samples.freeing freed) left.1 left.2
    (∀ d, recomputed.resources.effective d = (accounting.simulated victims).at d) ∧
      recomputed.resources.externalVramMb = accounting.resources.externalVramMb ∧
      ∀ before v after, victims = before ++ v :: after →
        (∀ d, (accounting.credit v).at d ≤ (accounting.simulated before).at d) ∧
        1 ≤ Table.size instances + reservations.nodeTotal - before.length := by
  intro accounting freed left recomputed
  have htotals (d : Dimension) : observedTotal (samples.freeing freed) left.1 left.2 d +
        (victims.map (instanceObserved samples reservations instances d)).sum =
          observedTotal samples reservations instances d ∧
      promisedTotal (samples.freeing freed) left.1 d +
        (victims.map (instancePromised samples reservations instances d)).sum =
          promisedTotal samples reservations d :=
    totals_removeInstances samples victims (reservations, instances) hnd d
  have hexternal (d : Dimension) : externalTotal (samples.freeing freed) left.1 left.2 d =
      externalTotal samples reservations instances d :=
    externalTotal_removeInstances samples victims (reservations, instances) hnd d
  have hnow : NoOverflow (samples.freeing freed) left.1 left.2 := by
    intro d
    have hbound := h d
    obtain ⟨hobs, hprom⟩ := htotals d
    rw [hexternal d]
    omega
  have heffective (d : Dimension) : accounting.resources.effective d =
      observedTotal samples reservations instances d +
        externalTotal samples reservations instances d + promisedTotal samples reservations d :=
    effective_eq h d
  refine ⟨fun d => ?_, ?_, ?_⟩
  · have hsum : (victims.map fun id => (accounting.credit id).at d).sum =
        (victims.map (instanceObserved samples reservations instances d)).sum +
          (victims.map (instancePromised samples reservations instances d)).sum :=
      sum_credit h hm d
    obtain ⟨hobs, hprom⟩ := htotals d
    rw [effective_eq hnow d, simulated_at, heffective, hsum, hexternal d]
    omega
  · rw [externalVramMb_eq hnow, externalVramMb_eq h]
    exact hexternal .vram
  · intro before v after hsplit
    have hsub : (before ++ [v]).Sublist victims := by
      rw [hsplit]
      exact (List.Sublist.refl before).append (List.singleton_sublist.mpr List.mem_cons_self)
    have hmem : ∀ w ∈ before ++ [v], w ∈ instances := fun w hw => hm w (hsub.subset hw)
    refine ⟨fun d => ?_, ?_⟩
    · -- the credits up to and including this victim are part of the usage
      have hsum : ((before ++ [v]).map fun id => (accounting.credit id).at d).sum =
          ((before ++ [v]).map (instanceObserved samples reservations instances d)).sum +
            ((before ++ [v]).map (instancePromised samples reservations instances d)).sum :=
        sum_credit h hmem d
      obtain ⟨hobs, hprom⟩ := totals_removeInstances samples (before ++ [v])
        (reservations, instances) (hsub.nodup hnd) d
      rw [simulated_at, heffective]
      rw [List.map_append, List.sum_append, List.map_singleton, List.sum_singleton] at hsum
      dsimp only at hobs hprom
      omega
    · have hcard : (before ++ [v]).length ≤ Table.size instances := by
        have hkeys : (before ++ [v]).Subperm instances.keys :=
          List.subperm_of_subset (hsub.nodup hnd) fun w hw => AList.mem_keys.mp (hmem w hw)
        have hlen := hkeys.length_le
        rwa [AList.keys, List.keys, List.length_map] at hlen
      rw [List.length_append, List.length_singleton] at hcard
      omega

end Accounting

/-- A device with 60 MB in use, 45 MB of it by three processes. -/
def sharedDevice : Samples where
  vram := fun pid => if pid = 10 then some 30 else if pid = 11 then some 10 else some 5
  sysmem := fun _ => none
  device := some ⟨60, 100⟩
  learned := fun _ => none

/-- A ready process and one that is still loading. -/
def loadingRegistry : SpawnReservations where
  entries := ((∅ : Table Nat MemoryCommitment).insert 1
    ⟨"m:p", false, some 10, ⟨40, 7⟩, true⟩).insert 2 ⟨"m:q", false, some 11, ⟨50, 7⟩, false⟩
  revision := 0

/-- The instances of the two, and one without a lease. -/
def sharedInstances : Table Nat AccountedInstance :=
  (((∅ : Table Nat AccountedInstance).insert 1 ⟨some 10, "a", true⟩).insert 2
    ⟨some 11, "b", true⟩).insert 3 ⟨some 12, "c", false⟩

/-- Evicting the loading instance and the one without a lease leaves 45 MB in use. -/
theorem eviction_credit_of_loading :
    NoOverflow sharedDevice loadingRegistry sharedInstances ∧
      ((resourceAccountingForInstances sharedDevice loadingRegistry sharedInstances).simulated
        [2, 3]).at .vram = 45 ∧
      (resourceAccountingForInstances (sharedDevice.freeing 15)
        (removeInstances (loadingRegistry, sharedInstances) [2, 3]).1
        (removeInstances (loadingRegistry, sharedInstances) [2, 3]).2).resources.effective .vram =
          45 := by
  have hno : NoOverflow sharedDevice loadingRegistry sharedInstances := by
    intro d
    cases d <;> decide
  have hsim : ((resourceAccountingForInstances sharedDevice loadingRegistry
      sharedInstances).simulated [2, 3]).at .vram = 45 := by decide
  have hexact := (eviction_credit_exact sharedDevice loadingRegistry sharedInstances [2, 3] hno
    (by decide) (by decide)).1 .vram
  exact ⟨hno, hsim, hexact.trans hsim⟩

end Llamesh.Spawn
