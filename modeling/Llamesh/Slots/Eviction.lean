import Llamesh.Slots.Conserved

/-!
# Evictions and slots

The tasks that remove instances from the map, over the slots of `Llamesh.Slots.Model`: the idle
sweep (`src/node_state/mod.rs:4010–4120`), the first stage of the cold-OOM eviction
(`src/node_state/mod.rs:1513–1560`) and the capacity eviction of an attempt
(`src/node_state/mod.rs:2475–2480,2605–2657`). The map lock is explicit: sweeps gather victims under
its read side, let go of it, and verify and remove them under its write side; an attempt holds the
write side while it looks for a slot, plans and removes. A slot is only acquired by the attempt that
has the write side (`src/node_state/mod.rs:2591–2600`), a new instance is inserted under it with its
slot claimed, and slots are released at any time.

Which idle instances a sweep takes, and which candidates a plan needs, is decided by the clock, the
cookbook and the memory accounting, and is free here. So is whether the revision of a plan is still
current.
-/

namespace Llamesh.Slots.Eviction

open Transition

/-- Why a sweep takes an instance. The first three are those of `check_idle_instances`; a crashed
instance is reclaimed and retires as `error`. -/
inductive Reason where
  | idle
  | drained
  | crashed
  | coldOom
  deriving DecidableEq, Repr

/-- The instance is taken under the read side of the lock.
`src/node_state/mod.rs:1520–1528,4024–4067`. -/
def Reason.selects (i : Instance) : Reason → Bool
  | .crashed => !i.alive
  | .drained => i.alive && i.draining && decide (i.inFlight = 0)
  | .idle => i.alive && !i.draining && decide (i.inFlight = 0)
  | .coldOom => decide (i.inFlight = 0) && decide (i.status ≠ .failed) && !i.draining

/-- The instance is still a victim under the write side.
`src/node_state/mod.rs:1546–1551,4084–4091`. -/
def Reason.confirms (i : Instance) : Reason → Bool
  | .crashed => true
  | .idle | .coldOom => decide (i.inFlight = 0)
  | .drained => i.draining && decide (i.inFlight = 0)

/-- A sweep that gathers victims under the read side, and then waits for the write side. -/
inductive Sweep where
  | gathering (victims : List (Nat × Reason))
  | gathered (victims : List (Nat × Reason))
  deriving DecidableEq, Repr

/-- Who has the write side of the map lock: an attempt of a request, before its plan, with the
candidates of its plan, or with its victims; a sweep that verifies its victims; or the task that
retires what was removed. -/
inductive Writer where
  | attempt (id : Nat)
  | planning (id : Nat) (candidates : List Nat)
  | planned (id : Nat) (victims : List Nat)
  | verifying (todo confirmed : List (Nat × Reason))
  | retiring
  deriving DecidableEq, Repr

/-- The request whose attempt has the lock. -/
def Writer.request : Writer → Option Nat
  | .attempt id | .planning id _ | .planned id _ => some id
  | .verifying _ _ | .retiring => none

/-- The slots, the sweeps under the read side or waiting, and the writer. -/
structure State where
  slots : Slots.State
  sweeps : Table Nat Sweep
  writer : Option Writer

/-- Startup. -/
def State.init : State := ⟨.init, ∅, none⟩

/-- The steps. `slots` is a step of a request that needs no map lock, `retireOther` a removal that
is none of these evictions. -/
inductive Label where
  | slots (l : Slots.Label)
  | lockMap (id : Nat)
  | acquire (id inst : Nat)
  | endAttempt (id : Nat)
  | reclaimCrashed (id : Nat) (victims : List Nat)
  | plan (id : Nat)
  | addCandidate (inst : Nat)
  | choose (victims : List Nat)
  | commit
  | replan
  | publish (id inst : Nat) (reserveSlot : Bool)
  | beginSweep (sweep : Nat)
  | gather (sweep inst : Nat) (reason : Reason)
  | endGathering (sweep : Nat)
  | lockForRemoval (sweep : Nat)
  | verify
  | remove
  | dropSweep (sweep : Nat)
  | dropVerification
  | unlockRetired
  | retireOther (inst : Nat)
  deriving DecidableEq, Repr

/-- A step of a request that takes no map lock. -/
def free : Slots.Label → Bool
  | .acquire _ _ | .publish _ _ _ | .retire _ => false
  | _ => true

/-- The task a step of the slots belongs to. -/
def taskOf : Slots.Label → Option Nat
  | .arrive id | .prewarm id | .acquire id _ | .beginSpawn id | .spawnFailed id | .publish id _ _
  | .retryAfterFailure id _ | .detach id | .respond id | .streamEnd id _ | .drop id
  | .release id _ => some id
  | .setStatus _ _ | .setDraining _ _ | .exit _ | .retire _ => none

/-- A sweep holds the read side. -/
def Sweep.reading : Sweep → Bool
  | .gathering _ => true
  | .gathered _ => false

namespace State

/-- The write side can be taken. -/
def lockFree (s : State) : Bool :=
  s.writer.isNone && !s.sweeps.entries.any fun e => e.2.reading

/-- `instances.remove` of each victim. -/
def removeAll (s : State) (victims : List Nat) : State :=
  let unmap := fun (slots : Slots.State) (inst : Nat) =>
    modifyInstance slots inst fun i => { i with mapped := false }
  { s with slots := victims.foldl unmap s.slots }

/-- The instance is in the map. -/
def mapped (s : State) (inst : Nat) : Bool := (s.slots.instances.lookup inst).any (·.mapped)

end State

variable (maxConcurrent : Nat)

/-- The steps of the writer. -/
def writerStep (s : State) : Writer → Label → Option State
  | .attempt id, .acquire id' inst =>
    if id' = id then
      (Slots.step maxConcurrent s.slots (.acquire id inst)).map fun slots =>
        { s with slots, writer := none }
    else none
  -- `src/node_state/mod.rs:2515–2548`.
  | .attempt id, .reclaimCrashed id' victims =>
    guarded (id' = id ∧ ∀ inst ∈ victims, s.mapped inst = true ∧
        (s.slots.instances.lookup inst).all (fun i => !i.alive) = true)
      { s.removeAll victims with writer := some .retiring }
  | .attempt id, .plan id' => guarded (id' = id) { s with writer := some (.planning id []) }
  -- `src/node_state/mod.rs:1436–1444`.
  | .planning id candidates, .addCandidate inst =>
    match s.slots.instances.lookup inst with
    | some i =>
      guarded (i.mapped = true ∧ i.inFlight = 0)
        { s with writer := some (.planning id (inst :: candidates)) }
    | none => none
  | .planning id candidates, .choose victims =>
    guarded (∀ inst ∈ victims, inst ∈ candidates) { s with writer := some (.planned id victims) }
  -- `with_revision` runs the removal while the revision is current, and the lock goes to the task
  -- that retires the victims; otherwise the attempt starts again.
  | .planned _ victims, .commit => some { s.removeAll victims with writer := some .retiring }
  | .planned _ _, .replan => some { s with writer := none }
  | .verifying ((inst, reason) :: todo) confirmed, .verify =>
    match s.slots.instances.lookup inst with
    | some i =>
      if i.mapped && reason.confirms i then
        some { s with writer := some (.verifying todo ((inst, reason) :: confirmed)) }
      else some { s with writer := some (.verifying todo confirmed) }
    | none => some { s with writer := some (.verifying todo confirmed) }
  | .verifying [] confirmed, .remove =>
    some { s.removeAll (confirmed.map (·.1)) with writer := some .retiring }
  | .verifying _ _, .dropVerification => some { s with writer := none }
  | .retiring, .unlockRetired => some { s with writer := none }
  | writer, .endAttempt id => guarded (writer.request = some id) { s with writer := none }
  | _, _ => none

/-- The steps of a sweep before it has the write side. -/
def sweepStep (s : State) (sweep : Nat) : Sweep → Label → Option State
  | .gathering victims, .gather _ inst reason =>
    match s.slots.instances.lookup inst with
    | some i =>
      guarded (i.mapped = true ∧ reason.selects i = true)
        { s with sweeps := s.sweeps.insert sweep (.gathering ((inst, reason) :: victims)) }
    | none => none
  | .gathering victims, .endGathering _ =>
    some { s with sweeps := s.sweeps.insert sweep (.gathered victims) }
  | .gathered victims, .lockForRemoval _ =>
    guarded (s.lockFree = true)
      { s with sweeps := s.sweeps.erase sweep, writer := some (.verifying victims []) }
  | _, .dropSweep _ => some { s with sweeps := s.sweeps.erase sweep }
  | _, _ => none

/-- One step. -/
def step (s : State) (l : Label) : Option State :=
  match l with
  | .slots l =>
    if free l && (taskOf l).all (fun id => s.writer.bind Writer.request ≠ some id) then
      (Slots.step maxConcurrent s.slots l).map fun slots => { s with slots }
    else none
  | .lockMap id => guarded (s.lockFree = true) { s with writer := some (.attempt id) }
  | .publish id inst reserveSlot =>
    if s.lockFree then
      (Slots.step maxConcurrent s.slots (.publish id inst reserveSlot)).map fun slots =>
        { s with slots }
    else none
  | .beginSweep sweep =>
    guarded (s.writer = none ∧ sweep ∉ s.sweeps)
      { s with sweeps := s.sweeps.insert sweep (.gathering []) }
  | .retireOther inst => guarded (s.lockFree = true) (s.removeAll [inst])
  | .gather sweep _ _ | .endGathering sweep | .lockForRemoval sweep | .dropSweep sweep =>
    (s.sweeps.lookup sweep).bind fun pc => sweepStep s sweep pc l
  | .acquire _ _ | .endAttempt _ | .reclaimCrashed _ _ | .plan _ | .addCandidate _ | .choose _
  | .commit | .replan | .verify | .remove | .dropVerification | .unlockRetired =>
    s.writer.bind fun w => writerStep maxConcurrent s w l

variable {maxConcurrent} {s t : State} {l : Label} {inst : Nat}

/-! ### Removing instances -/

private theorem removeAll_cons (s : State) (inst : Nat) (victims : List Nat) :
    s.removeAll (inst :: victims) = (s.removeAll [inst]).removeAll victims := rfl

/-- A removal leaves the tasks. -/
@[simp] theorem tasks_removeAll (s : State) (victims : List Nat) :
    (s.removeAll victims).slots.tasks = s.slots.tasks := by
  induction victims generalizing s with
  | nil => rfl
  | cons inst victims ih =>
    rw [removeAll_cons, ih]
    rfl

/-- A removal leaves the counters. -/
@[simp] theorem inFlight_removeAll (s : State) (victims : List Nat) (i : Nat) :
    inFlight (s.removeAll victims).slots.instances i = inFlight s.slots.instances i := by
  induction victims generalizing s with
  | nil => rfl
  | cons inst victims ih =>
    rw [removeAll_cons, ih]
    exact inFlight_modify s.slots.instances inst (f := fun i => { i with mapped := false })
      (fun _ => rfl) i

private theorem mapped_removeAll (s : State) (victims : List Nat) (i : Nat) :
    (s.removeAll victims).mapped i = (s.mapped i && !victims.contains i) := by
  induction victims generalizing s with
  | nil => simp [State.removeAll]
  | cons inst victims ih =>
    have hone : (s.removeAll [inst]).mapped i = (s.mapped i && !(i == inst)) := by
      change ((s.slots.instances.modify inst _).lookup i).any (·.mapped) = _
      rw [Table.lookup_modify, State.mapped]
      by_cases h : i = inst
      · cases s.slots.instances.lookup i <;> simp [h]
      · simp [h]
    rw [removeAll_cons, ih, hone, List.contains_cons]
    cases i == inst <;> simp

/-! ### What a step of the slots does to an instance -/

/-- An instance that is known and not in the map. -/
def Retired (slots : Slots.State) (inst : Nat) : Prop :=
  ∃ i, slots.instances.lookup inst = some i ∧ i.mapped = false

private theorem retired_modify {slots : Slots.State} (h : Retired slots inst) (j : Nat)
    {f : Instance → Instance} (hf : ∀ i, i.mapped = false → (f i).mapped = false) :
    Retired (modifyInstance slots j f) inst := by
  obtain ⟨i, hi, hmapped⟩ := h
  unfold Retired modifyInstance
  dsimp only
  rw [Table.lookup_modify, hi]
  split
  · exact ⟨f i, rfl, hf i hmapped⟩
  · exact ⟨i, rfl, hmapped⟩

private theorem retired_insert_new {slots : Slots.State} (h : Retired slots inst) {j : Nat}
    (hj : j ∉ slots.instances) (i : Instance) (tasks : Table Nat Task) :
    Retired ⟨slots.instances.insert j i, tasks⟩ inst := by
  obtain ⟨i', hi, hmapped⟩ := h
  have hne : inst ≠ j := by
    rintro rfl
    exact hj (AList.lookup_isSome.mp (by rw [hi]; rfl))
  exact ⟨i', by rw [Table.lookup_insert_eq, if_neg hne, hi], hmapped⟩

/-- A retired instance stays retired, and acquires no slot. -/
theorem retired_slots_step {slots slots' : Slots.State} {l : Slots.Label}
    (h : Retired slots inst) (hs : Slots.step maxConcurrent slots l = some slots') :
    Retired slots' inst ∧ l.acquires inst = 0 := by
  have hfresh : ∀ j, j ∉ slots.instances → j ≠ inst := by
    rintro j hj rfl
    obtain ⟨i, hi, -⟩ := h
    exact hj (AList.lookup_isSome.mp (by rw [hi]; rfl))
  cases l with
  | acquire id j =>
    simp only [Slots.step] at hs
    split at hs
    · next i _ hi =>
      obtain ⟨⟨hmapped, -⟩, rfl⟩ := guarded_eq_some.mp hs
      -- Only a mapped instance is acquired, so it is another one.
      have hne : inst ≠ j := by
        rintro rfl
        obtain ⟨i', hi', hretired⟩ := h
        rw [hi] at hi'
        cases hi'
        rw [hmapped] at hretired
        cases hretired
      obtain ⟨i', hi', hretired⟩ := h
      refine ⟨⟨i', ?_, hretired⟩, if_neg (Ne.symm hne)⟩
      dsimp only
      rw [Table.lookup_insert_eq, if_neg hne, hi']
    · cases hs
  | publish id j reserveSlot =>
    cases reserveSlot with
    | true =>
      obtain ⟨⟨-, hnew⟩, rfl⟩ := guarded_eq_some.mp hs
      exact ⟨retired_insert_new h hnew _ _, if_neg (hfresh j hnew)⟩
    | false =>
      obtain ⟨⟨-, hnew⟩, rfl⟩ := guarded_eq_some.mp hs
      exact ⟨retired_insert_new h hnew _ _, rfl⟩
  | release id j =>
    simp only [Slots.step] at hs
    split at hs
    · obtain ⟨-, rfl⟩ := guarded_eq_some.mp hs
      exact ⟨retired_modify h j fun _ hi => hi, rfl⟩
    · cases hs
  | setStatus j status =>
    cases hs
    exact ⟨retired_modify h j fun _ hi => hi, rfl⟩
  | setDraining j draining =>
    cases hs
    exact ⟨retired_modify h j fun _ hi => hi, rfl⟩
  | exit j =>
    cases hs
    exact ⟨retired_modify h j fun _ hi => hi, rfl⟩
  | retire j =>
    cases hs
    exact ⟨retired_modify h j fun _ _ => rfl, rfl⟩
  | arrive id =>
    obtain ⟨-, rfl⟩ := guarded_eq_some.mp hs
    exact ⟨h, rfl⟩
  | prewarm id =>
    obtain ⟨-, rfl⟩ := guarded_eq_some.mp hs
    exact ⟨h, rfl⟩
  | beginSpawn id =>
    simp only [Slots.step] at hs
    split at hs <;> cases hs <;> exact ⟨h, rfl⟩
  | spawnFailed id =>
    simp only [Slots.step] at hs
    split at hs <;> cases hs <;> exact ⟨h, rfl⟩
  | retryAfterFailure id release =>
    simp only [Slots.step] at hs
    split at hs
    · obtain ⟨-, rfl⟩ := guarded_eq_some.mp hs
      exact ⟨h, rfl⟩
    · cases hs
  | detach id =>
    simp only [Slots.step] at hs
    split at hs
    · obtain ⟨-, rfl⟩ := guarded_eq_some.mp hs
      exact ⟨h, rfl⟩
    · cases hs
  | respond id =>
    simp only [Slots.step] at hs
    split at hs <;> cases hs
    exact ⟨h, rfl⟩
  | streamEnd id release =>
    simp only [Slots.step] at hs
    split at hs
    · obtain ⟨-, rfl⟩ := guarded_eq_some.mp hs
      exact ⟨h, rfl⟩
    · cases hs
  | drop id =>
    simp only [Slots.step] at hs
    split at hs
    · split at hs <;> cases hs <;> exact ⟨h, rfl⟩
    · cases hs

/-- An instance stays known. -/
theorem mem_instances_step {slots slots' : Slots.State} {l : Slots.Label}
    (hs : Slots.step maxConcurrent slots l = some slots') (h : inst ∈ slots.instances) :
    inst ∈ slots'.instances := by
  have hmodify : ∀ j (f : Instance → Instance), inst ∈ slots.instances.modify j f := by
    intro j f
    rw [← AList.lookup_isSome] at h ⊢
    rw [Table.lookup_modify]
    split
    · rwa [Option.isSome_map]
    · exact h
  have hinsert : ∀ j i, inst ∈ slots.instances.insert j i :=
    fun j i => (AList.mem_insert _).mpr (Or.inr h)
  cases step_change hs with
  | join => exact h
  | move => exact h
  | leave => exact h
  | handOver => exact h
  | mark j f => exact hmodify j f
  | acquire id j i => exact hinsert j _
  | claim id j => exact hinsert j _
  | publish id j => exact hinsert j _
  | release id j => exact hmodify j _

/-! ### What a step does -/

/-- The instances a writer has found idle and will remove. A crashed instance is not among them. -/
def Writer.victims : Writer → List Nat
  | .planning _ candidates => candidates
  | .planned _ victims => victims
  | .verifying _ confirmed => (confirmed.filter fun v => decide (v.2 ≠ .crashed)).map (·.1)
  | .attempt _ | .retiring => []

/-- The instances a writer has found and will remove, for whatever reason. -/
def Writer.found : Writer → List Nat
  | .planning _ candidates => candidates
  | .planned _ victims => victims
  | .verifying _ confirmed => confirmed.map (·.1)
  | .attempt _ | .retiring => []

/-- The idle victims of the writer, if there is one. -/
def State.victims (s : State) : List Nat := s.writer.elim [] Writer.victims

/-- All that the writer will remove, if there is one. -/
def State.found (s : State) : List Nat := s.writer.elim [] Writer.found

/-- What a step does to the slots and to the victims: a step of a request that acquires nothing, one
that acquires with no victims left behind, removals, or a victim that was found, idle or crashed. -/
inductive Effect (maxConcurrent : Nat) (s t : State) : Prop
  | request (l : Slots.Label) (hs : Slots.step maxConcurrent s.slots l = some t.slots)
      (hl : ∀ inst, l.acquires inst = 0) (hw : t.writer = s.writer)
  | acquire (l : Slots.Label) (hs : Slots.step maxConcurrent s.slots l = some t.slots)
      (hw : t.found = [])
  | removal (victims : List Nat) (hs : t.slots = (s.removeAll victims).slots)
      (hw : t.found = [])
  | found (hs : t.slots = s.slots)
      (hk : ∀ inst ∈ t.found, inst ∈ s.found ∨ inst ∈ s.slots.instances)
      (hw : ∀ inst ∈ t.victims, inst ∈ s.victims ∨ inFlight s.slots.instances inst = 0)

private theorem victims_eq_nil (h : s.found = []) : s.victims = [] := by
  unfold State.found at h
  unfold State.victims
  cases hw : s.writer with
  | none => rfl
  | some w =>
    rw [hw] at h
    cases w with
    | attempt id => rfl
    | planning id candidates => exact h
    | planned id victims => exact h
    | verifying todo confirmed =>
      have hnil : confirmed = [] := List.map_eq_nil_iff.mp h
      subst hnil
      rfl
    | retiring => rfl

private theorem mem_of_lookup {slots : Slots.State} {i : Instance}
    (h : slots.instances.lookup inst = some i) : inst ∈ slots.instances :=
  AList.lookup_isSome.mp (by rw [h]; rfl)

private theorem effect_unlock (s : State) : Effect maxConcurrent s { s with writer := none } :=
  .found rfl (fun _ h => by cases h) fun _ h => by cases h

private theorem effect_writerStep {w : Writer} (hw : s.writer = some w)
    (hs : writerStep maxConcurrent s w l = some t) : Effect maxConcurrent s t := by
  have hvictims : s.victims = w.victims := by rw [State.victims, hw]; rfl
  have hfound : s.found = w.found := by rw [State.found, hw]; rfl
  unfold writerStep at hs
  split at hs
  · next id id' inst =>
    split at hs
    · obtain ⟨slots, hslots, rfl⟩ := Option.map_eq_some_iff.mp hs
      exact .acquire _ hslots rfl
    · cases hs
  · next victims =>
    obtain ⟨-, rfl⟩ := guarded_eq_some.mp hs
    exact .removal victims rfl rfl
  · obtain ⟨-, rfl⟩ := guarded_eq_some.mp hs
    exact .found rfl (fun _ h => by cases h) fun _ h => by cases h
  · next id candidates inst =>
    split at hs
    · next i hi =>
      obtain ⟨⟨-, hidle⟩, rfl⟩ := guarded_eq_some.mp hs
      refine .found rfl (fun j hj => ?_) fun j hj => ?_
      · rw [hfound]
        rcases List.mem_cons.mp hj with rfl | hj
        · exact Or.inr (mem_of_lookup hi)
        · exact Or.inl hj
      · rw [hvictims]
        rcases List.mem_cons.mp hj with rfl | hj
        · exact Or.inr ((inFlight_of_lookup hi).trans hidle)
        · exact Or.inl hj
    · cases hs
  · next id candidates victims =>
    obtain ⟨hsub, rfl⟩ := guarded_eq_some.mp hs
    refine .found rfl (fun j hj => Or.inl ?_) fun j hj => Or.inl ?_
    · rw [hfound]
      exact hsub j hj
    · rw [hvictims]
      exact hsub j hj
  · next victims =>
    cases hs
    exact .removal victims rfl rfl
  · cases hs
    exact effect_unlock s
  · next inst reason todo confirmed =>
    have hskip : Effect maxConcurrent s { s with writer := some (.verifying todo confirmed) } := by
      refine .found rfl (fun j hj => Or.inl ?_) fun j hj => Or.inl ?_
      · rw [hfound]
        exact hj
      · rw [hvictims]
        exact hj
    split at hs
    · next i hi =>
      split at hs
      · next hconfirms =>
        cases hs
        refine .found rfl (fun j hj => ?_) fun j hj => ?_
        · rw [hfound]
          rcases List.mem_cons.mp hj with rfl | hj
          · exact Or.inr (mem_of_lookup hi)
          · exact Or.inl hj
        rw [hvictims]
        change j ∈ (((inst, reason) :: confirmed).filter _).map _ at hj
        rw [List.filter_cons] at hj
        split at hj
        · next hreason =>
          rcases List.mem_cons.mp hj with rfl | hj
          · -- Every reason but a crash is confirmed on an idle instance.
            refine Or.inr ?_
            rw [inFlight_of_lookup hi]
            simp only [Bool.and_eq_true] at hconfirms
            cases reason with
            | crashed => simp at hreason
            | idle => simpa [Reason.confirms] using hconfirms.2
            | coldOom => simpa [Reason.confirms] using hconfirms.2
            | drained =>
              have hboth := hconfirms.2
              simp only [Reason.confirms, Bool.and_eq_true, decide_eq_true_eq] at hboth
              exact hboth.2
          · exact Or.inl hj
        · exact Or.inl hj
      · cases hs
        exact hskip
    · cases hs
      exact hskip
  · next confirmed =>
    cases hs
    exact .removal _ rfl rfl
  · cases hs
    exact effect_unlock s
  · cases hs
    exact effect_unlock s
  · obtain ⟨-, rfl⟩ := guarded_eq_some.mp hs
    exact effect_unlock s
  · cases hs

private theorem effect_sweepStep {sweep : Nat} {pc : Sweep}
    (hs : sweepStep s sweep pc l = some t) : Effect maxConcurrent s t := by
  unfold sweepStep at hs
  split at hs
  · split at hs
    · obtain ⟨-, rfl⟩ := guarded_eq_some.mp hs
      exact .found rfl (fun _ h => Or.inl h) fun _ h => Or.inl h
    · cases hs
  · cases hs
    exact .found rfl (fun _ h => Or.inl h) fun _ h => Or.inl h
  · obtain ⟨-, rfl⟩ := guarded_eq_some.mp hs
    refine .found rfl (fun _ h => by cases h) fun _ h => by cases h
  · cases hs
    exact .found rfl (fun _ h => Or.inl h) fun _ h => Or.inl h
  · cases hs

private theorem found_of_lockFree (h : s.lockFree = true) : s.found = [] := by
  unfold State.lockFree at h
  rw [Bool.and_eq_true, Option.isNone_iff_eq_none] at h
  rw [State.found, h.1]
  rfl

private theorem effect_step (hs : step maxConcurrent s l = some t) : Effect maxConcurrent s t := by
  have hwriter : s.writer.bind (fun w => writerStep maxConcurrent s w l) = some t →
      Effect maxConcurrent s t := by
    intro h
    obtain ⟨w, hw, h⟩ := Option.bind_eq_some_iff.mp h
    exact effect_writerStep hw h
  have hsweep : ∀ sweep, (s.sweeps.lookup sweep).bind (fun pc => sweepStep s sweep pc l) = some t →
      Effect maxConcurrent s t := by
    intro sweep h
    obtain ⟨pc, -, h⟩ := Option.bind_eq_some_iff.mp h
    exact effect_sweepStep h
  cases l with
  | slots l =>
    simp only [step] at hs
    split at hs
    · next hfree =>
      obtain ⟨slots, hslots, rfl⟩ := Option.map_eq_some_iff.mp hs
      refine .request l hslots (fun inst => ?_) rfl
      rw [Bool.and_eq_true] at hfree
      cases l <;> first | rfl | cases hfree.1
    · cases hs
  | lockMap id =>
    obtain ⟨-, rfl⟩ := guarded_eq_some.mp hs
    exact .found rfl (fun _ h => by cases h) fun _ h => by cases h
  | publish id inst reserveSlot =>
    simp only [step] at hs
    split at hs
    · next hfree =>
      obtain ⟨slots, hslots, rfl⟩ := Option.map_eq_some_iff.mp hs
      exact .acquire _ hslots (found_of_lockFree hfree)
    · cases hs
  | beginSweep sweep =>
    obtain ⟨-, rfl⟩ := guarded_eq_some.mp hs
    exact .found rfl (fun _ h => Or.inl h) fun _ h => Or.inl h
  | retireOther inst =>
    obtain ⟨hfree, rfl⟩ := guarded_eq_some.mp hs
    exact .removal [inst] rfl (found_of_lockFree hfree)
  | gather sweep inst reason => exact hsweep sweep hs
  | endGathering sweep => exact hsweep sweep hs
  | lockForRemoval sweep => exact hsweep sweep hs
  | dropSweep sweep => exact hsweep sweep hs
  | acquire id inst => exact hwriter hs
  | endAttempt id => exact hwriter hs
  | reclaimCrashed id victims => exact hwriter hs
  | plan id => exact hwriter hs
  | addCandidate inst => exact hwriter hs
  | choose victims => exact hwriter hs
  | commit => exact hwriter hs
  | replan => exact hwriter hs
  | verify => exact hwriter hs
  | remove => exact hwriter hs
  | dropVerification => exact hwriter hs
  | unlockRetired => exact hwriter hs

/-! ### Victims are idle -/

/-- The counts agree with the owners, what the writer removes is known, and its idle victims have no
request. -/
structure Inv (s : State) : Prop where
  counts : ∀ i, inFlight s.slots.instances i = holders s.slots.tasks i
  known : ∀ inst ∈ s.found, inst ∈ s.slots.instances
  idle : ∀ inst ∈ s.victims, inFlight s.slots.instances inst = 0

private theorem inv_init : Inv State.init :=
  ⟨fun _ => rfl, fun _ h => (by cases h), fun _ h => (by cases h)⟩

private theorem counts_slots_step {l : Slots.Label}
    (h : ∀ i, inFlight s.slots.instances i = holders s.slots.tasks i)
    (hs : Slots.step maxConcurrent s.slots l = some t.slots) (i : Nat) :
    inFlight t.slots.instances i = holders t.slots.tasks i := by
  have hcount := inFlight_step hs i (release_le h hs i)
  have hholders := holders_step hs i
  have hi := h i
  omega

private theorem idle_slots_step {l : Slots.Label} (h : Inv s)
    (hs : Slots.step maxConcurrent s.slots l = some t.slots) (hl : l.acquires inst = 0)
    (hidle : inFlight s.slots.instances inst = 0) : inFlight t.slots.instances inst = 0 := by
  have hcount := inFlight_step hs inst (release_le h.counts hs inst)
  omega

private theorem inv_step (h : Inv s) (hs : step maxConcurrent s l = some t) : Inv t := by
  cases effect_step hs with
  | request l hs hl hw =>
    have hvictims : t.victims = s.victims := by rw [State.victims, hw, State.victims]
    have hfound : t.found = s.found := by rw [State.found, hw, State.found]
    refine ⟨counts_slots_step h.counts hs, fun inst hinst => ?_, fun inst hinst => ?_⟩
    · exact mem_instances_step hs (h.known inst (hfound ▸ hinst))
    · exact idle_slots_step h hs (hl inst) (h.idle inst (hvictims ▸ hinst))
  | acquire l hs hw =>
    refine ⟨counts_slots_step h.counts hs, ?_, ?_⟩ <;> simp [hw, victims_eq_nil hw]
  | removal victims hs hw =>
    refine ⟨fun i => ?_, ?_, ?_⟩
    · rw [hs, inFlight_removeAll, tasks_removeAll]
      exact h.counts i
    · simp [hw]
    · simp [victims_eq_nil hw]
  | found hs hk hw =>
    refine ⟨hs ▸ h.counts, fun inst hinst => ?_, fun inst hinst => ?_⟩
    · rw [hs]
      exact (hk inst hinst).elim (h.known inst) id
    · rw [hs]
      exact (hw inst hinst).elim (h.idle inst) id

private theorem inv_of_exec {labels : List Label}
    (h : exec (step maxConcurrent) State.init labels = some s) : Inv s :=
  exec_invariant (fun _ _ _ => inv_step) inv_init h

/-! ### Removed instances -/

private theorem retired_removeAll (h : Retired s.slots inst) (victims : List Nat) :
    Retired (s.removeAll victims).slots inst := by
  induction victims generalizing s with
  | nil => exact h
  | cons j victims ih =>
    rw [removeAll_cons]
    exact ih (retired_modify h j fun _ _ => rfl)

/-- A removed instance stays removed. -/
theorem retired_step (h : Retired s.slots inst) (hs : step maxConcurrent s l = some t) :
    Retired t.slots inst := by
  cases effect_step hs with
  | request l hs _ _ => exact (retired_slots_step h hs).1
  | acquire l hs _ => exact (retired_slots_step h hs).1
  | removal victims hs _ => exact hs ▸ retired_removeAll h victims
  | found hs _ _ => exact hs ▸ h

/-- A removed instance that has no request gets none. -/
theorem idle_step (hi : Inv s) (h : Retired s.slots inst)
    (hidle : inFlight s.slots.instances inst = 0) (hs : step maxConcurrent s l = some t) :
    inFlight t.slots.instances inst = 0 := by
  cases effect_step hs with
  | request l hs hl _ => exact idle_slots_step hi hs (hl inst) hidle
  | acquire l hs _ => exact idle_slots_step hi hs (retired_slots_step h hs).2 hidle
  | removal victims hs _ =>
    rw [hs, inFlight_removeAll]
    exact hidle
  | found hs _ _ => exact hs ▸ hidle

/-- A removed instance stays removed in every run. -/
theorem retired_exec {labels : List Label} (h : Retired s.slots inst)
    (ht : exec (step maxConcurrent) s labels = some t) : Retired t.slots inst :=
  exec_invariant (P := fun s => Retired s.slots inst) (fun _ _ _ => retired_step) h ht

/-- A removed instance that has no request gets none in any run. -/
theorem idle_exec {labels : List Label} (hi : Inv s) (h : Retired s.slots inst)
    (hidle : inFlight s.slots.instances inst = 0)
    (ht : exec (step maxConcurrent) s labels = some t) :
    inFlight t.slots.instances inst = 0 := by
  have hall := exec_invariant
    (P := fun s => Inv s ∧ Retired s.slots inst ∧ inFlight s.slots.instances inst = 0)
    (fun _ _ _ h hs => ⟨inv_step h.1 hs, retired_step h.2.1 hs, idle_step h.1 h.2.1 h.2.2 hs⟩)
    ⟨hi, h, hidle⟩ ht
  exact hall.2.2

/-- No attempt acquires a slot of a retired instance. -/
theorem acquire_eq_none (h : Retired s.slots inst) (id : Nat) :
    step maxConcurrent s (.acquire id inst) = none := by
  by_contra hne
  obtain ⟨t, ht⟩ := Option.ne_none_iff_exists'.mp hne
  obtain ⟨w, -, ht⟩ := Option.bind_eq_some_iff.mp ht
  cases w with
  | attempt id' =>
    simp only [writerStep] at ht
    split at ht
    · obtain ⟨slots, hslots, -⟩ := Option.map_eq_some_iff.mp ht
      have hzero := (retired_slots_step h hslots).2
      simp [Slots.Label.acquires] at hzero
    · cases ht
  | planning id' candidates => cases ht
  | planned id' victims => cases ht
  | verifying todo confirmed => cases todo <;> cases ht
  | retiring => cases ht

/-- Why an instance leaves the map at `commit` or `remove`. -/
inductive Cause where
  | capacity
  | swept (reason : Reason)
  deriving DecidableEq, Repr

/-- What the writer removes. -/
def removals (s : State) : Label → List (Nat × Cause)
  | .commit =>
    match s.writer with
    | some (.planned _ victims) => victims.map fun inst => (inst, .capacity)
    | _ => []
  | .remove =>
    match s.writer with
    | some (.verifying [] confirmed) => confirmed.map fun v => (v.1, .swept v.2)
    | _ => []
  | _ => []

private theorem mem_removeAll (h : inst ∈ s.slots.instances) (victims : List Nat) :
    inst ∈ (s.removeAll victims).slots.instances := by
  induction victims generalizing s with
  | nil => exact h
  | cons j victims ih =>
    rw [removeAll_cons]
    have hretire : Slots.step 0 s.slots (.retire j) = some (s.removeAll [j]).slots := rfl
    exact ih (mem_instances_step hretire h)

private theorem retired_of_removeAll {victims : List Nat} (hknown : inst ∈ s.slots.instances)
    (hmem : inst ∈ victims) (ht : t.slots = (s.removeAll victims).slots) :
    Retired t.slots inst := by
  have hunmapped : (s.removeAll victims).mapped inst = false := by
    rw [mapped_removeAll, List.contains_iff_mem.mpr hmem]
    simp
  obtain ⟨i, hi⟩ := Option.isSome_iff_exists.mp
    (AList.lookup_isSome.mpr (mem_removeAll hknown victims))
  rw [State.mapped, hi, Option.any_some] at hunmapped
  exact ⟨i, by rw [ht, hi], hunmapped⟩

private theorem mem_found_of_removals {cause : Cause} (h : (inst, cause) ∈ removals s l) :
    inst ∈ s.found := by
  unfold removals at h
  split at h
  · split at h
    · next id victims hw =>
      obtain ⟨j, hj, heq⟩ := List.mem_map.mp h
      cases heq
      rw [State.found, hw]
      exact hj
    · cases h
  · split at h
    · next confirmed hw =>
      obtain ⟨v, hv, heq⟩ := List.mem_map.mp h
      cases heq
      rw [State.found, hw]
      exact List.mem_map.mpr ⟨v, hv, rfl⟩
    · cases h
  · cases h

private theorem mem_victims_of_removals {cause : Cause} (h : (inst, cause) ∈ removals s l)
    (hcause : cause ≠ .swept .crashed) : inst ∈ s.victims := by
  unfold removals at h
  split at h
  · split at h
    · next id victims hw =>
      obtain ⟨j, hj, heq⟩ := List.mem_map.mp h
      cases heq
      rw [State.victims, hw]
      exact hj
    · cases h
  · split at h
    · next confirmed hw =>
      obtain ⟨v, hv, heq⟩ := List.mem_map.mp h
      cases heq
      rw [State.victims, hw]
      refine List.mem_map.mpr ⟨v, List.mem_filter.mpr ⟨hv, ?_⟩, rfl⟩
      rw [decide_eq_true_eq]
      exact fun heq => hcause (by rw [heq])
    · cases h
  · cases h

private theorem slots_of_removals {cause : Cause} (h : (inst, cause) ∈ removals s l)
    (hs : step maxConcurrent s l = some t) :
    t.slots = (s.removeAll ((removals s l).map (·.1))).slots := by
  unfold removals at h ⊢
  split at h
  · split at h
    · next request victims hw =>
      simp only [step, hw, Option.bind_some, writerStep, Option.some.injEq] at hs
      have hid : ((fun v : Nat × Cause => v.1) ∘ fun inst => (inst, Cause.capacity)) = id := rfl
      rw [← hs, List.map_map, hid, List.map_id]
    · cases h
  · split at h
    · next confirmed hw =>
      simp only [step, hw, Option.bind_some, writerStep, Option.some.injEq] at hs
      rw [← hs, List.map_map]
      rfl
    · cases h
  · cases h

private theorem mem_removals_of_unmapped (hl : l = .commit ∨ l = .remove)
    (hs : step maxConcurrent s l = some t) (hmapped : s.mapped inst = true)
    (hgone : t.mapped inst = false) : ∃ cause, (inst, cause) ∈ removals s l := by
  have hmem : ∀ victims, t.slots = (s.removeAll victims).slots → inst ∈ victims := by
    intro victims ht
    have hunmapped : (s.removeAll victims).mapped inst = false := by
      rw [State.mapped, ← ht]
      exact hgone
    rw [mapped_removeAll, hmapped, Bool.true_and, Bool.not_eq_false'] at hunmapped
    exact List.contains_iff_mem.mp hunmapped
  rcases hl with rfl | rfl
  · obtain ⟨w, hw, hs⟩ := Option.bind_eq_some_iff.mp hs
    cases w with
    | planned id victims =>
      cases hs
      refine ⟨.capacity, ?_⟩
      simp only [removals, hw]
      exact List.mem_map.mpr ⟨inst, hmem victims rfl, rfl⟩
    | attempt id => cases hs
    | planning id candidates => cases hs
    | verifying todo confirmed => cases todo <;> cases hs
    | retiring => cases hs
  · obtain ⟨w, hw, hs⟩ := Option.bind_eq_some_iff.mp hs
    cases w with
    | verifying todo confirmed =>
      cases todo with
      | cons v todo => cases hs
      | nil =>
        cases hs
        obtain ⟨v, hv, rfl⟩ := List.mem_map.mp (hmem _ rfl)
        refine ⟨.swept v.2, ?_⟩
        simp only [removals, hw]
        exact List.mem_map.mpr ⟨v, hv, rfl⟩
    | attempt id => cases hs
    | planning id candidates => cases hs
    | planned id victims => cases hs
    | retiring => cases hs

/-- Two requests come for one idle instance: a sweep has gathered it, one request acquires it before
the sweep has the lock, and releases it; then the sweep removes it, and the second is too late. -/
def sweepDuringAcquire : List Label :=
  [.slots (.prewarm 0), .slots (.beginSpawn 0), .publish 0 7 false, .slots (.setStatus 7 .ready),
    .slots (.arrive 1), .slots (.arrive 2), .beginSweep 5, .gather 5 7 .idle, .endGathering 5,
    .lockMap 1, .acquire 1 7, .slots (.detach 1), .slots (.respond 1), .slots (.streamEnd 1 3),
    .slots (.release 3 7), .lockForRemoval 5, .verify]

/-- Instance 7 serves a request when its process exits, and the idle sweep finds it crashed. -/
def crashWhileServing : List Label :=
  [.slots (.prewarm 0), .slots (.beginSpawn 0), .publish 0 7 false, .slots (.setStatus 7 .ready),
    .slots (.arrive 1), .lockMap 1, .acquire 1 7, .slots (.detach 1), .slots (.exit 7),
    .beginSweep 5, .gather 5 7 .crashed, .endGathering 5, .lockForRemoval 5, .verify]

end Llamesh.Slots.Eviction
