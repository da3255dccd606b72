import Llamesh.Spawn.Levels

/-!
# The memory limits

The memory that the entries of the registry stand for, with the external part, stays
within `max_vram_mb` and `max_sysmem_mb`: an accounting counts every entry at its
level or above, and the write lock keeps other admissions out until the reservation
is made. What an accounting computes exceeds a limit by no more than the estimates it
retains for ready processes that can no longer be read.
-/

namespace Llamesh.Spawn

open Transition Config SpawnReservations

variable {config : NodeConfig} {cookbook : Cookbook} {external : Nat} {s s' : State} {l : Label}

/-- The external part of the effective memory: there is none of system memory. -/
def externalOf (external : Nat) : Dimension → Nat
  | .vram => external
  | .sysmem => 0

/-! ### The results of an accounting -/

/-- Under the assumption on the device, the effective memory is the observed, the external and the
promised part. -/
theorem effective_accounting {t : Nat} {task : Task} {scan : Scan}
    {device : Option GpuMemorySnapshot} (ht : s.tasks.lookup t = some task)
    (hscan : task.scan = some scan) (ha : deviceAssumed external s (.account t device) = true)
    (reservations : SpawnReservations) (mapped : Nat) (d : Dimension) :
    (scan.tally.accounting reservations device mapped).resources.effective d =
      saturatingAdd (scan.tally.observed.at d + externalOf external d)
        (scan.tally.promised.at d) := by
  simp only [deviceAssumed, ht, hscan, Option.bind_some] at ha
  cases d with
  | sysmem => rfl
  | vram =>
    cases device with
    | none =>
      obtain rfl : external = 0 := by simpa using ha
      simp [Tally.accounting, ResourceSnapshot.fromSamples, ResourceSnapshot.effective, Memory.at,
        externalOf]
    | some snapshot =>
      have hused : snapshot.usedMb = scan.tally.observed.vram + external := by simpa using ha
      simp [Tally.accounting, ResourceSnapshot.fromSamples, ResourceSnapshot.effective, Memory.at,
        externalOf, hused]

/-- What a commitment adds to the observed memory. -/
theorem tally_add_observed (t : Tally) (ps : Table Nat Process) (id : Nat) (r : MemoryCommitment)
    (d : Dimension) :
    (t.add id r (sampleOf ps r)).observed.at d =
      saturatingAdd (t.observed.at d) (observedPart ps d r) :=
  Memory.at_ofFn _ d

/-- What a commitment adds to the promised memory. -/
theorem tally_add_promised (t : Tally) (ps : Table Nat Process) (id : Nat) (r : MemoryCommitment)
    (d : Dimension) :
    (t.add id r (sampleOf ps r)).promised.at d =
      saturatingAdd (t.promised.at d) (promisedPart ps d r) :=
  Memory.at_ofFn _ d

/-! ### The invariant -/

/-- The memory of the entries that are not in `todo`. -/
def memoryOutside (s : State) (todo : Table Nat MemoryCommitment) (d : Dimension) : Nat :=
  Table.sum s.registry.entries fun id e => if id ∈ todo then 0 else level s.processes d e

/-- Outside the empty table is every entry. -/
theorem memoryOutside_empty (s : State) (d : Dimension) :
    memoryOutside s ∅ d = committedMemory s d := by
  simp [memoryOutside, committedMemory]

/-- What a running accounting still comes to is within the limits, but for what it retains. -/
structure ScanWithin (config : NodeConfig) (external : Nat) (s : State) (scan : Scan) : Prop where
  linked : ∀ id r, scan.todo.lookup id = some r → Linked s.processes r
  within : ∀ d, externalOf external d ≤ maxMemory config d → maxMemory config d < u64Max →
    scan.tally.observed.at d + scan.tally.promised.at d +
        Table.sum scan.todo (fun _ r => level s.processes d r) + externalOf external d ≤
      maxMemory config d + scan.retained.at d

/-- The accounting of a plan covers the entries it sampled, or is saturated. -/
structure ScanCovers (s : State) (scan : Scan) : Prop where
  known : ∀ id r, scan.todo.lookup id = some r → scan.snapshot.entries.lookup id = some r
  covers : ∀ d,
    memoryOutside s scan.todo d ≤ scan.tally.observed.at d + scan.tally.promised.at d ∨
      u64Max ≤ scan.tally.observed.at d + scan.tally.promised.at d

/-- What the invariant says of a task. -/
def TaskMemory (config : NodeConfig) (external : Nat) (s : State) : Task → Prop
  | .planning _ _ scan => ScanWithin config external s scan ∧ ScanCovers s scan
  | .resampling _ _ scan | .observing scan => ScanWithin config external s scan
  | .accounted _ _ accounting => ∀ d,
    committedMemory s d + externalOf external d ≤ accounting.resources.effective d ∨
      u64Max ≤ accounting.resources.effective d
  | .admitted _ required => ∀ d, maxMemory config d < u64Max →
    committedMemory s d + externalOf external d + required.at d ≤ maxMemory config d
  | _ => True

/-- What the invariant says of a computed `ResourceSnapshot`. -/
structure ObservationWithin (config : NodeConfig) (external : Nat) (o : Observation) : Prop where
  within : ∀ d, externalOf external d ≤ maxMemory config d →
    o.resources.effective d ≤ maxMemory config d + o.retained.at d
  above : ∀ d, maxMemory config d < externalOf external d → maxMemory config d < u64Max →
    maxMemory config d < o.resources.effective d
  bounded : ∀ d, o.resources.effective d ≤ u64Max

/-- The invariant of the memory. -/
structure MemoryInv (config : NodeConfig) (external : Nat) (s : State) : Prop where
  processes : ProcessInv s
  committed : ∀ d, externalOf external d ≤ maxMemory config d → maxMemory config d < u64Max →
    committedMemory s d + externalOf external d ≤ maxMemory config d
  tasks : ∀ t task, s.tasks.lookup t = some task → TaskMemory config external s task
  observed : ∀ o ∈ s.observed, ObservationWithin config external o

/-- The memory is accounted for at first. -/
theorem memoryInv_init (config : NodeConfig) (external : Nat) :
    MemoryInv config external State.init where
  processes := processInv_init
  committed d hd _ := by
    have hzero : committedMemory State.init d = 0 := rfl
    omega
  tasks t task h := by simp [State.init] at h
  observed o h := by simp [State.init] at h

/-! ### Tasks that do not move -/

/-- A step without a reservation, as the memory of others sees it. -/
structure MemoryStep (s s' : State) : Prop where
  before : ProcessInv s
  after : ProcessInv s'
  evolve : ProcessesEvolve s.processes s'.processes

private theorem MemoryStep.outside_le (h : MemoryStep s s') (hs : Shrinks s.registry s'.registry)
    (todo : Table Nat MemoryCommitment) (d : Dimension) :
    memoryOutside s' todo d ≤ memoryOutside s todo d := by
  apply Table.sum_le_sum_of_lookup
  intro id e' he'
  obtain ⟨e, he, hev⟩ := hs id e' he'
  refine ⟨e, he, ?_⟩
  split
  · exact Nat.le_refl _
  · exact level_evolve h.after.ok (h.before.linked id e he) (h.after.linked id e' he') h.evolve hev
      d

/-- A registry that shrinks commits no more memory. -/
theorem MemoryStep.committed_le (h : MemoryStep s s') (hs : Shrinks s.registry s'.registry)
    (d : Dimension) : committedMemory s' d ≤ committedMemory s d := by
  rw [← memoryOutside_empty, ← memoryOutside_empty]
  exact h.outside_le hs ∅ d

/-- A scan stays within the limits. -/
theorem ScanWithin.keep {scan : Scan} (hw : ScanWithin config external s scan)
    (h : MemoryStep s s') : ScanWithin config external s' scan where
  linked id r hr := (hw.linked id r hr).evolve h.evolve
  within d hd hmax := by
    have hle : Table.sum scan.todo (fun _ r => level s'.processes d r) ≤
        Table.sum scan.todo fun _ r => level s.processes d r := by
      apply Table.sum_le_sum_of_lookup
      intro id r hr
      have hlinked := hw.linked id r hr
      exact ⟨r, hr, level_evolve h.after.ok hlinked (hlinked.evolve h.evolve) h.evolve
        (Evolves.refl r) d⟩
    have hwithin := hw.within d hd hmax
    omega

/-- A scan goes on covering the registry. -/
theorem ScanCovers.keep {scan : Scan} (hc : ScanCovers s scan) (h : MemoryStep s s')
    (hs : Shrinks s.registry s'.registry) : ScanCovers s' scan where
  known := hc.known
  covers d := by
    have hle := h.outside_le hs scan.todo d
    have hcovers := hc.covers d
    omega

/-- A task that only watches keeps its facts, and one that plans keeps them while nothing is
reserved. -/
theorem TaskMemory.keep {task : Task} (ht : TaskMemory config external s task)
    (h : MemoryStep s s') (hs : task.writes = true → Shrinks s.registry s'.registry) :
    TaskMemory config external s' task := by
  cases task with
  | planning request required scan =>
    exact ⟨ht.1.keep h, ht.2.keep h (hs rfl)⟩
  | resampling request id scan => exact ScanWithin.keep ht h
  | observing scan => exact ScanWithin.keep ht h
  | accounted request required accounting =>
    intro d
    have hle := h.committed_le (hs rfl) d
    have hcovers := ht d
    omega
  | admitted request required =>
    intro d hmax
    have hle := h.committed_le (hs rfl) d
    have hfits := ht d hmax
    omega
  | _ => trivial

end Llamesh.Spawn
