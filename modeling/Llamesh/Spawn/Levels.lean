import Llamesh.Spawn.Scans

/-!
# The memory a commitment stands for

A commitment counts at its estimate until its process is ready and was readable
since, and at the memory of the process from then on. Under the assumptions on the
processes this level never rises, and an accounting that samples an entry counts
its level, plus what is retained of its estimate when the process is no longer
readable.
-/

namespace Llamesh.Spawn

open Transition Config SpawnReservations

variable {config : NodeConfig} {cookbook : Cookbook} {s s' : State} {l : Label}

/-- The memory a record stands for. -/
def level (processes : Table Nat Process) (d : Dimension) (record : MemoryCommitment) : Nat :=
  match processOf processes record with
  | some p => if record.ready && p.seen.at d then p.usage.at d else record.estimate.at d
  | none => record.estimate.at d

/-- The memory of all entries of the registry. -/
def committedMemory (s : State) (d : Dimension) : Nat :=
  Table.sum s.registry.entries fun _ e => level s.processes d e

/-- A loading process stays within its estimate, and a ready one does not grow. -/
def usageAssumed (s : State) : Label → Bool
  | .measure pid usage _ =>
    match s.processes.lookup pid with
    | some p =>
      let bound := if p.ready then p.usage else p.estimate
      decide (usage.vram ≤ bound.vram) && decide (usage.sysmem ≤ bound.sysmem)
    | none => true
  | _ => true

/-- The sampled device usage is what an accounting observed and the external part; without a device
there is no external part. -/
def deviceAssumed (external : Nat) (s : State) : Label → Bool
  | .account t device =>
    match (s.tasks.lookup t).bind Task.scan with
    | some scan =>
      match device with
      | some snapshot => snapshot.usedMb == scan.tally.observed.vram + external
      | none => external == 0
    | none => true
  | _ => true

/-! ### Processes -/

/-- What holds of every process. -/
structure ProcessOk (p : Process) : Prop where
  usage : ∀ d, p.usage.at d ≤ p.estimate.at d
  seen : p.ready = true → ∀ d, p.readable.at d = true → p.seen.at d = true

/-- What a process becomes by any step. -/
structure ProcessEvolves (p p' : Process) : Prop where
  estimate : p'.estimate = p.estimate
  ready : p.ready = true → p'.ready = true
  seen : p.ready = true → ∀ d, p.seen.at d = true →
    p'.seen.at d = true ∧ p'.usage.at d ≤ p.usage.at d

/-- Every process is still there. -/
def ProcessesEvolve (ps ps' : Table Nat Process) : Prop :=
  ∀ pid p, ps.lookup pid = some p → ∃ p', ps'.lookup pid = some p' ∧ ProcessEvolves p p'

/-- The process of a record is the one it was admitted for, and ready when the record is. -/
def Linked (processes : Table Nat Process) (r : MemoryCommitment) : Prop :=
  ∀ pid, r.pid = some pid →
    ∃ p, processes.lookup pid = some p ∧ p.estimate = r.estimate ∧ (r.ready = true → p.ready = true)

/-- A process that stays has evolved. -/
theorem ProcessEvolves.refl (p : Process) : ProcessEvolves p p :=
  ⟨rfl, fun h => h, fun _ _ h => ⟨h, Nat.le_refl _⟩⟩

/-- So have processes that stay. -/
theorem ProcessesEvolve.refl (ps : Table Nat Process) : ProcessesEvolve ps ps :=
  fun _ p h => ⟨p, h, ProcessEvolves.refl p⟩

/-- A commitment stays linked to its process. -/
theorem Linked.evolve {ps ps' : Table Nat Process} {r : MemoryCommitment} (h : Linked ps r)
    (hev : ProcessesEvolve ps ps') : Linked ps' r := by
  intro pid hpid
  obtain ⟨p, hp, hest, hready⟩ := h pid hpid
  obtain ⟨p', hp', hev⟩ := hev pid p hp
  exact ⟨p', hp', hev.estimate.trans hest, fun hr => hev.ready (hready hr)⟩

/-- The process of a linked record. -/
theorem Linked.processOf_cases {ps : Table Nat Process} {r : MemoryCommitment}
    (h : Linked ps r) :
    processOf ps r = none ∧ r.pid = none ∨
      ∃ pid p, r.pid = some pid ∧ ps.lookup pid = some p ∧ processOf ps r = some p ∧
        p.estimate = r.estimate ∧ (r.ready = true → p.ready = true) := by
  cases hpid : r.pid with
  | none => exact .inl ⟨by simp [processOf, hpid], rfl⟩
  | some pid =>
    obtain ⟨p, hp, hest, hready⟩ := h pid hpid
    exact .inr ⟨pid, p, rfl, hp, by simp [processOf, hpid, hp], hest, hready⟩

/-- All processes of a state. -/
def ProcessesOk (ps : Table Nat Process) : Prop := ∀ pid p, ps.lookup pid = some p → ProcessOk p

/-- A record never stands for more than its estimate. -/
theorem level_le_estimate {ps : Table Nat Process} {r : MemoryCommitment} (hok : ProcessesOk ps)
    (h : Linked ps r) (d : Dimension) : level ps d r ≤ r.estimate.at d := by
  unfold level
  obtain ⟨hnone, -⟩ | ⟨pid, p, -, hp, hsome, hest, -⟩ := h.processOf_cases
  · rw [hnone]
  · rw [hsome]
    dsimp only
    split
    · rw [← hest]
      exact (hok pid p hp).usage d
    · exact Nat.le_refl _

/-- The level of a record does not rise while the record and the processes evolve. -/
theorem level_evolve {ps ps' : Table Nat Process} {r r' : MemoryCommitment}
    (hok' : ProcessesOk ps') (h : Linked ps r) (h' : Linked ps' r')
    (hev : ProcessesEvolve ps ps') (hr : Evolves r r') (d : Dimension) :
    level ps' d r' ≤ level ps d r := by
  have hle : level ps' d r' ≤ r.estimate.at d := by
    have hest := level_le_estimate hok' h' d
    rwa [hr.estimate] at hest
  obtain ⟨hnone, -⟩ | ⟨pid, p, hpid, hp, hsome, -, hready⟩ := h.processOf_cases
  · have hlevel : level ps d r = r.estimate.at d := by rw [level, hnone]
    rw [hlevel]
    exact hle
  · by_cases hcase : (r.ready && p.seen.at d) = true
    · -- From here on the level is the memory of the process.
      have hlevel : level ps d r = p.usage.at d := by
        rw [level, hsome]
        exact if_pos hcase
      rw [Bool.and_eq_true] at hcase
      obtain ⟨p', hp', hpev⟩ := hev pid p hp
      obtain ⟨hseen', husage⟩ := hpev.seen (hready hcase.1) d hcase.2
      have hsome' : processOf ps' r' = some p' := by
        simp [processOf, hr.pid pid hpid, hp']
      rw [hlevel, level, hsome']
      simp only [hr.ready hcase.1, hseen', Bool.and_self, if_true]
      exact husage
    · have hlevel : level ps d r = r.estimate.at d := by
        rw [level, hsome]
        exact if_neg hcase
      rw [hlevel]
      exact hle

/-! ### Samples -/

/-- The observed part of a sample. -/
def observedPart (ps : Table Nat Process) (d : Dimension) (r : MemoryCommitment) : Nat :=
  ((sampleOf ps r).at d).getD 0

/-- The promised part of a sample. -/
def promisedPart (ps : Table Nat Process) (d : Dimension) (r : MemoryCommitment) : Nat :=
  committed (r.estimate.at d) r.ready ((sampleOf ps r).at d)

/-- A sample counts the level of its record, and what is retained. -/
theorem sample_eq_level {ps : Table Nat Process} {r : MemoryCommitment} (hok : ProcessesOk ps)
    (h : Linked ps r) (d : Dimension) :
    observedPart ps d r + promisedPart ps d r = level ps d r + retainedOf ps r d := by
  unfold observedPart promisedPart level retainedOf sampleOf
  obtain ⟨hnone, -⟩ | ⟨pid, p, -, hp, hsome, hest, hready⟩ := h.processOf_cases
  · rw [hnone]
    cases d <;> simp [Memory.at, committed]
  · rw [hsome]
    have husage := (hok pid p hp).usage d
    have hseen := (hok pid p hp).seen
    rw [hest] at husage
    simp only [Process.sample, Memory.at_ofFn, committed]
    cases hr : r.ready with
    | false =>
      cases hd : p.readable.at d with
      | true =>
        simp
        omega
      | false => simp
    | true =>
      cases hd : p.readable.at d with
      | true => simp [hseen (hready hr) d hd]
      | false =>
        cases hs : p.seen.at d with
        | true =>
          simp
          omega
        | false => simp

/-! ### Steps -/

private theorem evolve_modify {ps : Table Nat Process} {pid : Nat} {f : Process → Process}
    (hf : ∀ p, ps.lookup pid = some p → ProcessEvolves p (f p)) :
    ProcessesEvolve ps (ps.modify pid f) := by
  intro k p hp
  rw [Table.lookup_modify]
  by_cases hk : k = pid
  · subst hk
    exact ⟨f p, by simp [hp], hf p hp⟩
  · exact ⟨p, by simp [hk, hp], ProcessEvolves.refl p⟩

private theorem ok_modify {ps : Table Nat Process} {pid : Nat} {f : Process → Process}
    (hok : ProcessesOk ps) (hf : ∀ p, ps.lookup pid = some p → ProcessOk (f p)) :
    ProcessesOk (ps.modify pid f) := by
  intro k p hp
  rw [Table.lookup_modify] at hp
  by_cases hk : k = pid
  · subst hk
    simp only [if_true, Option.map_eq_some_iff] at hp
    obtain ⟨q, hq, rfl⟩ := hp
    exact hf q hq
  · rw [if_neg hk] at hp
    exact hok k p hp

private theorem markReady_evolves (p : Process) : ProcessEvolves p p.markReady where
  estimate := rfl
  ready _ := rfl
  seen hr d hd := ⟨by simp [Process.markReady, hr, hd], Nat.le_refl _⟩

private theorem markReady_ok {p : Process} (h : ProcessOk p) : ProcessOk p.markReady where
  usage := h.usage
  seen _ d hd := by
    cases hr : p.ready with
    | true => simpa [Process.markReady, hr] using h.seen hr d hd
    | false => simpa [Process.markReady, hr] using hd

private theorem usage_le {pid : Nat} {usage : Memory Nat} {readable : Memory Bool} {p : Process}
    (ha : usageAssumed s (.measure pid usage readable) = true)
    (hp : s.processes.lookup pid = some p) (d : Dimension) :
    usage.at d ≤ if p.ready then p.usage.at d else p.estimate.at d := by
  simp only [usageAssumed, hp, Bool.and_eq_true, decide_eq_true_eq] at ha
  cases hr : p.ready <;> cases d <;> simp_all [Memory.at]

private theorem measure_evolves {p : Process} {usage : Memory Nat} {readable : Memory Bool}
    (hu : ∀ d, usage.at d ≤ if p.ready then p.usage.at d else p.estimate.at d) :
    ProcessEvolves p (p.measure usage readable) where
  estimate := rfl
  ready h := h
  seen hr d hd := by
    refine ⟨by simp [Process.measure, hd], ?_⟩
    have hle := hu d
    rw [if_pos hr] at hle
    exact hle

private theorem measure_ok {p : Process} {usage : Memory Nat} {readable : Memory Bool}
    (h : ProcessOk p) (hu : ∀ d, usage.at d ≤ if p.ready then p.usage.at d else p.estimate.at d) :
    ProcessOk (p.measure usage readable) where
  usage d := by
    have hle := hu d
    have hest := h.usage d
    show usage.at d ≤ p.estimate.at d
    split at hle
    · omega
    · exact hle
  seen hr d hd := by
    have hready : p.ready = true := hr
    have hreadable : readable.at d = true := hd
    simp [Process.measure, hready, hreadable]

/-- The entries of the registry and their processes. -/
structure ProcessInv (s : State) : Prop where
  ok : ProcessesOk s.processes
  linked : ∀ id e, s.registry.entries.lookup id = some e → Linked s.processes e
  launched : ∀ id e, s.registry.entries.lookup id = some e → e.pid = none → e.ready = false

/-- The processes are sound at first. -/
theorem processInv_init : ProcessInv State.init where
  ok pid p h := by simp [State.init] at h
  linked id e h := by simp [State.init, SpawnReservations.empty] at h
  launched id e h := by simp [State.init, SpawnReservations.empty] at h

private theorem processInv_same (h : ProcessInv s) (hp : s'.processes = s.processes)
    (hr : PidsKept s.registry s'.registry) : ProcessInv s' where
  ok := hp ▸ h.ok
  linked id e' he' pid hpid := by
    rcases hr id e' he' with ⟨hnone, -⟩ | ⟨e, he, hpe, hre, hee⟩
    · rw [hnone] at hpid
      cases hpid
    · rw [hp, hre, hee]
      exact h.linked id e he pid (hpe ▸ hpid)
  launched id e' he' hnone := by
    rcases hr id e' he' with ⟨-, hfalse⟩ | ⟨e, he, hpe, hre, -⟩
    · exact hfalse
    · rw [hre]
      exact h.launched id e he (hpe ▸ hnone)

private theorem processInv_spawned (h : ProcessInv s) (hi : Inv config cookbook s)
    {t id pid : Nat} {request : Request} {e : MemoryCommitment}
    (ht : s.tasks.lookup t = some (.cleared request id))
    (he : s.registry.entries.lookup id = some e) (hnew : pid ∉ s.processes)
    (hr : s'.registry = s.registry.updatePid id pid)
    (hp : s'.processes = s.processes.insert pid (.fresh e.estimate)) :
    ProcessInv s' ∧ ProcessesEvolve s.processes s'.processes := by
  have hev : ProcessesEvolve s.processes s'.processes := by
    intro k p hk
    have hne : k ≠ pid := by
      rintro rfl
      exact hnew (AList.lookup_isSome.mp (by rw [hk]; rfl))
    exact ⟨p, by rw [hp, AList.lookup_insert_ne hne, hk], ProcessEvolves.refl p⟩
  have hloading : e.ready = false := by
    obtain ⟨-, e', he', howned⟩ := (hi.tasks t _ ht).owned id rfl
    rw [he] at he'
    cases he'
    exact h.launched id e he (howned.childless rfl)
  refine ⟨⟨?_, ?_, ?_⟩, hev⟩
  · intro k p hk
    rw [hp, Table.lookup_insert_eq_some] at hk
    obtain ⟨-, rfl⟩ | ⟨-, hk⟩ := hk
    · constructor
      · intro d
        cases d <;> exact Nat.zero_le _
      · simp [Process.fresh]
    · exact h.ok k p hk
  · intro k e' he'
    rw [hr, lookup_updatePid] at he'
    split at he'
    · next hk =>
      subst hk
      rw [he, Option.map_some] at he'
      cases he'
      intro q hq
      obtain rfl : pid = q := by simpa using hq
      refine ⟨.fresh e.estimate, by rw [hp, AList.lookup_insert], rfl, ?_⟩
      intro hready
      have hready : e.ready = true := hready
      rw [hloading] at hready
      cases hready
    · exact (h.linked k e' he').evolve hev
  · intro k e' he' hnone
    rw [hr, lookup_updatePid] at he'
    split at he'
    · next hk =>
      subst hk
      rw [he, Option.map_some] at he'
      cases he'
      cases hnone
    · exact h.launched k e' he' hnone

private theorem processInv_ready (h : ProcessInv s) {id pid : Nat} {e : MemoryCommitment}
    (he : s.registry.entries.lookup id = some e) (hpid : e.pid = some pid)
    (hr : s'.registry = s.registry.markReady id)
    (hp : s'.processes = s.processes.modify pid Process.markReady) :
    ProcessInv s' ∧ ProcessesEvolve s.processes s'.processes := by
  have hev : ProcessesEvolve s.processes s'.processes := by
    rw [hp]
    exact evolve_modify fun p _ => markReady_evolves p
  refine ⟨⟨?_, ?_, ?_⟩, hev⟩
  · rw [hp]
    exact ok_modify h.ok fun p hlookup => markReady_ok (h.ok pid p hlookup)
  · intro k e' he'
    rw [hr, lookup_markReady] at he'
    split at he'
    · next hk =>
      subst hk
      rw [he, Option.map_some] at he'
      cases he'
      intro q hq
      obtain rfl : pid = q := by simpa [hpid] using hq
      obtain ⟨p, hlookup, hest, -⟩ := h.linked k e he pid hpid
      refine ⟨p.markReady, ?_, hest, fun _ => rfl⟩
      simp [hp, Table.lookup_modify, hlookup]
    · exact (h.linked k e' he').evolve hev
  · intro k e' he' hnone
    rw [hr, lookup_markReady] at he'
    split at he'
    · next hk =>
      subst hk
      rw [he, Option.map_some] at he'
      cases he'
      have hnone : e.pid = none := hnone
      rw [hpid] at hnone
      cases hnone
    · exact h.launched k e' he' hnone

private theorem processInv_measured (h : ProcessInv s) {pid : Nat} {usage : Memory Nat}
    {readable : Memory Bool} (ha : usageAssumed s (.measure pid usage readable) = true)
    (hr : s'.registry = s.registry)
    (hp : s'.processes = s.processes.modify pid fun p => p.measure usage readable) :
    ProcessInv s' ∧ ProcessesEvolve s.processes s'.processes := by
  have hev : ProcessesEvolve s.processes s'.processes := by
    rw [hp]
    apply evolve_modify
    intro p hlookup
    exact measure_evolves (usage_le ha hlookup)
  refine ⟨⟨?_, ?_, hr ▸ h.launched⟩, hev⟩
  · rw [hp]
    apply ok_modify h.ok
    intro p hlookup
    exact measure_ok (h.ok pid p hlookup) (usage_le ha hlookup)
  · rw [hr]
    exact fun id e he => (h.linked id e he).evolve hev

/-- Processes evolve in every step, and stay linked to their entries. -/
theorem processInv_step (h : ProcessInv s) (hi : Inv config cookbook s)
    (ha : usageAssumed s l = true) (hs : step config cookbook s l = some s') :
    ProcessInv s' ∧ ProcessesEvolve s.processes s'.processes := by
  cases step_process hs with
  | same hp hr =>
    refine ⟨processInv_same h hp hr, ?_⟩
    rw [hp]
    exact ProcessesEvolve.refl _
  | spawned t id pid request e ht he hnew hr hp => exact processInv_spawned h hi ht he hnew hr hp
  | ready id pid e he hpid hr hp => exact processInv_ready h he hpid hr hp
  | measured pid usage readable hl hr hp =>
    subst hl
    exact processInv_measured h ha hr hp

end Llamesh.Spawn
