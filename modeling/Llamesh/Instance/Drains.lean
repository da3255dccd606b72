import Llamesh.Instance.Drain
import Llamesh.Library.Run
import Llamesh.Library.Table

/-!
# The writers of the drain flags

The passes that drain instances for good (`reconcile_instances_with_cookbook`,
`drain_instances_for_binary_update`, the marking loop of
`evict_all_instances_gracefully`; `src/node_state/mod.rs:781–841,1564–1576,1663–1685`), the drain
for a competitor after a release (`src/router.rs:1492,1513–1544`) and `maybe_cancel_drains`
(`src/node_state/mod.rs:3894–3938`), in any interleaving.

A pass holds the read side of the map lock, and the read side of an instance lock while it loads
or stores the flags, so one of its labels is one load or store. The other two take the write side
of the instance lock, so their test and their stores are one label. Which instance has competitors
and which one matches the cookbook is decided outside the flags and is free here.
-/

namespace Llamesh.Drains

open Transition

/-- The mandatory drains. -/
inductive Drain where
  | orphaned
  | stage2
  | binaryUpdate
  deriving DecidableEq, Repr

/-- The first store. `src/node_state/mod.rs:825,1571–1572,1669`. -/
def Drain.storeFirst (d : DrainFlags) : Drain → DrainFlags
  | .orphaned | .stage2 => { d with draining := true }
  | .binaryUpdate => { d with drainingForCompetitor := false }

/-- The second store. `src/node_state/mod.rs:826,1573,1671–1673`. -/
def Drain.storeSecond (d : DrainFlags) : Drain → DrainFlags
  | .orphaned | .stage2 => { d with drainingForCompetitor := false }
  | .binaryUpdate => if !d.draining then { d with draining := true } else d

/-- How far a pass is with one instance. The instance lock is held except while the reconcile pass
resolves the instance's model. -/
inductive Stage where
  | reading (draining : Bool)
  | resolving
  | locked
  | stored
  deriving DecidableEq, Repr

/-- The read side of the instance lock is held. -/
def Stage.holdsLock : Stage → Bool
  | .reading _ | .locked | .stored => true
  | .resolving => false

/-- A pass over the map: the instances it met and left forced, those it kept because they match the
cookbook, and the one it is at. -/
structure Pass where
  drain : Drain
  met : List Nat := []
  kept : List Nat := []
  current : Option (Nat × Stage) := none
  deriving DecidableEq, Repr

/-- An instance, which its `Arc` clones keep after it leaves the map. -/
structure Instance where
  flags : DrainFlags
  mapped : Bool := true
  deriving DecidableEq, Repr

/-- The instances so far, the passes under way, the releases that saw their instance not draining,
and the candidates of each `maybe_cancel_drains` under way. -/
structure State where
  instances : Table Nat Instance
  passes : Table Nat Pass
  scheduling : List Nat
  cancelling : Table Nat (List Nat)

/-- Startup. -/
def State.init : State := ⟨∅, ∅, [], ∅⟩

/-- The steps of all tasks. -/
inductive Label where
  | insert (id : Nat) (replaced : Bool)
  | remove (id : Nat)
  | beginPass (p : Nat) (drain : Drain)
  | visit (p id : Nat)
  | readCompetitor (p : Nat)
  | keep (p : Nat)
  | orphan (p : Nat)
  | storeFirst (p : Nat)
  | storeSecond (p : Nat)
  | finishPass (p : Nat)
  | abandonPass (p : Nat)
  | release (id : Nat)
  | drainForCompetitor (id : Nat)
  | beginCancel (c : Nat)
  | addCandidate (c id : Nat)
  | cancelDrain (c id : Nat)
  | finishCancel (c : Nat)
  deriving DecidableEq, Repr

/-- A pass holds the read side of the lock of `id`. -/
def State.readLocked (s : State) (id : Nat) : Bool :=
  s.passes.entries.any fun e => e.2.current.any fun c => c.1 == id && c.2.holdsLock

/-- Every mapped instance was met or kept. -/
def State.visitedAll (s : State) (pass : Pass) : Bool :=
  s.instances.entries.all fun e =>
    !e.2.mapped || pass.met.contains e.1 || pass.kept.contains e.1

/-- Change the flags of an instance. -/
def State.setFlags (s : State) (id : Nat) (f : DrainFlags → DrainFlags) : State :=
  { s with instances := s.instances.modify id fun i => { i with flags := f i.flags } }

/-- Replace a pass. -/
def State.setPass (s : State) (p : Nat) (pass : Pass) : State :=
  { s with passes := s.passes.insert p pass }

/-- The next step of a pass that is at an instance with these flags. -/
def passStep (s : State) (p : Nat) (pass : Pass) (id : Nat) (flags : DrainFlags) :
    Stage → Label → Option State
  | .reading draining, .readCompetitor _ =>
    -- `already_forced` ends the visit; `src/node_state/mod.rs:796–803`.
    if draining && !flags.drainingForCompetitor then
      some (s.setPass p { pass with met := id :: pass.met, current := none })
    else some (s.setPass p { pass with current := some (id, .resolving) })
  | .resolving, .keep _ =>
    some (s.setPass p { pass with kept := id :: pass.kept, current := none })
  | .resolving, .orphan _ => some (s.setPass p { pass with current := some (id, .locked) })
  | .locked, .storeFirst _ =>
    some ((s.setFlags id pass.drain.storeFirst).setPass p
      { pass with current := some (id, .stored) })
  | .stored, .storeSecond _ =>
    some ((s.setFlags id pass.drain.storeSecond).setPass p
      { pass with met := id :: pass.met, current := none })
  | _, _ => none

/-- The stage a visit starts in: the reconcile pass first reads the flags. -/
def Drain.firstStage (flags : DrainFlags) : Drain → Stage
  | .orphaned => .reading flags.draining
  | .stage2 | .binaryUpdate => .locked

/-- A step of pass `p`. -/
def stepOfPass (s : State) (p : Nat) (l : Label) : Option State :=
  match s.passes.lookup p with
  | none => none
  | some pass =>
    match pass.current with
    | none => none
    | some (id, stage) =>
      match s.instances.lookup id with
      | none => none
      | some i => passStep s p pass id i.flags stage l

/-- A pass moves on to a mapped instance that it has not met. -/
def visit (s : State) (p id : Nat) : Option State :=
  match s.passes.lookup p, s.instances.lookup id with
  | some pass, some i =>
    guarded (pass.current = none ∧ i.mapped = true ∧ id ∉ pass.met ∧ id ∉ pass.kept)
      (s.setPass p { pass with current := some (id, pass.drain.firstStage i.flags) })
  | _, _ => none

/-- A pass ends: complete, or dropped at an await, where it holds no instance lock. -/
def endPass (s : State) (p : Nat) (complete : Bool) : Option State :=
  match s.passes.lookup p with
  | none => none
  | some pass =>
    guarded (if complete then pass.current = none ∧ s.visitedAll pass = true
        else pass.current.all (fun c => !c.2.holdsLock) = true)
      { s with passes := s.passes.erase p }

/-- One step. -/
def step (s : State) : Label → Option State
  | .insert id replaced =>
    -- The map lock is free, and the flag is set before the instance is shared;
    -- `src/node_state/mod.rs:2935–2963`.
    guarded (id ∉ s.instances ∧ s.passes.entries = [])
      { s with instances := s.instances.insert id { flags := { draining := replaced } } }
  | .remove id =>
    guarded (id ∈ s.instances ∧ s.passes.entries = [])
      { s with instances := s.instances.modify id fun i => { i with mapped := false } }
  | .beginPass p drain => guarded (p ∉ s.passes) (s.setPass p { drain })
  | .visit p id => visit s p id
  | .readCompetitor p => stepOfPass s p (.readCompetitor p)
  | .keep p => stepOfPass s p (.keep p)
  | .orphan p => stepOfPass s p (.orphan p)
  | .storeFirst p => stepOfPass s p (.storeFirst p)
  | .storeSecond p => stepOfPass s p (.storeSecond p)
  | .finishPass p => endPass s p true
  | .abandonPass p => endPass s p false
  | .release id =>
    match s.instances.lookup id with
    | some i =>
      guarded (s.readLocked id = false)
        (if !i.flags.draining then { s with scheduling := id :: s.scheduling } else s)
    | none => none
  | .drainForCompetitor id =>
    guarded (id ∈ s.scheduling ∧ s.readLocked id = false)
      { s.setFlags id .drainForCompetitor with scheduling := s.scheduling.erase id }
  | .beginCancel c => guarded (c ∉ s.cancelling) { s with cancelling := s.cancelling.insert c [] }
  | .addCandidate c id =>
    match s.cancelling.lookup c, s.instances.lookup id with
    | some candidates, some i =>
      guarded (i.mapped = true)
        (if i.flags.drainingForCompetitor then
          { s with cancelling := s.cancelling.insert c (id :: candidates) } else s)
    | _, _ => none
  | .cancelDrain c id =>
    match s.cancelling.lookup c with
    | some candidates =>
      guarded (id ∈ candidates ∧ s.readLocked id = false)
        { s.setFlags id .cancelDrain with
          cancelling := s.cancelling.insert c (candidates.erase id) }
    | none => none
  | .finishCancel c => guarded (c ∈ s.cancelling) { s with cancelling := s.cancelling.erase c }

variable {s t : State} {l : Label} {p id : Nat} {pass : Pass} {i : Instance}

/-! ### What a step does to the flags of one instance -/

/-- The changes of an instance's flags. Both changes under the write side of the lock need it free
of readers. -/
inductive Writes (locked : Bool) : DrainFlags → DrainFlags → Prop
  | none (d : DrainFlags) : Writes locked d d
  | first (drain : Drain) (d : DrainFlags) : Writes locked d (drain.storeFirst d)
  | second (drain : Drain) (d : DrainFlags) : Writes locked d (drain.storeSecond d)
  | competitor (d : DrainFlags) (hfree : locked = false) : Writes locked d d.drainForCompetitor
  | cancel (d : DrainFlags) (hfree : locked = false) : Writes locked d d.cancelDrain

/-- No write undoes a forced drain. -/
theorem Writes.forced {locked : Bool} {d d' : DrainFlags} (h : Writes locked d d')
    (hd : d.forced = true) : d'.forced = true := by
  cases h with
  | none => exact hd
  | first drain =>
    rcases d with ⟨_ | _, _ | _⟩ <;> cases drain <;> first | rfl | cases hd
  | second drain =>
    rcases d with ⟨_ | _, _ | _⟩ <;> cases drain <;> first | rfl | cases hd
  | competitor =>
    by_contra h
    rw [DrainFlags.forced_of_forced_drainForCompetitor (Bool.eq_false_of_not_eq_true h)] at hd
    cases hd
  | cancel =>
    by_contra h
    rw [DrainFlags.forced_of_forced_cancelDrain (Bool.eq_false_of_not_eq_true h)] at hd
    cases hd

/-- Under the read side of the lock an instance only starts to drain. -/
theorem Writes.draining {d d' : DrainFlags} (h : Writes true d d') (hd : d.draining = true) :
    d'.draining = true := by
  cases h with
  | none => exact hd
  | first drain => cases drain <;> simp [Drain.storeFirst, hd]
  | second drain => cases drain <;> simp [Drain.storeSecond, hd]
  | competitor _ hfree => cases hfree
  | cancel _ hfree => cases hfree

/-- Under the read side of the lock the competitor flag is only cleared. -/
theorem Writes.competitor_false {d d' : DrainFlags} (h : Writes true d d')
    (hd : d.drainingForCompetitor = false) : d'.drainingForCompetitor = false := by
  cases h with
  | none => exact hd
  | first drain => cases drain <;> simp [Drain.storeFirst, hd]
  | second drain =>
    cases drain <;> simp only [Drain.storeSecond]
    split <;> exact hd
  | competitor _ hfree => cases hfree
  | cancel _ hfree => cases hfree

/-- Every instance of `s` is still there in `t`, its flags changed by at most one write. -/
def Moves (s t : State) : Prop :=
  ∀ id i, s.instances.lookup id = some i →
    ∃ i', t.instances.lookup id = some i' ∧ Writes (s.readLocked id) i.flags i'.flags

private theorem moves_of_instances_eq (h : t.instances = s.instances) : Moves s t := by
  intro id i hi
  exact ⟨i, by rw [h, hi], .none _⟩

private theorem moves_of_modify {f : Instance → Instance} {j : Nat}
    (h : t.instances = s.instances.modify j f)
    (hf : ∀ i, Writes (s.readLocked j) i.flags (f i).flags) : Moves s t := by
  intro id i hi
  rw [h, Table.lookup_modify, hi]
  by_cases hid : id = j
  · subst hid
    exact ⟨f i, by simp, hf i⟩
  · exact ⟨i, by simp [hid], .none _⟩

private theorem stepOfPass_cases (h : stepOfPass s p l = some t) :
    ∃ pass id stage i, s.passes.lookup p = some pass ∧ pass.current = some (id, stage) ∧
      s.instances.lookup id = some i ∧ passStep s p pass id i.flags stage l = some t := by
  unfold stepOfPass at h
  split at h
  · cases h
  · next pass hpass =>
    split at h
    · cases h
    · next id stage hcurrent =>
      split at h
      · cases h
      · next i hi => exact ⟨pass, id, stage, i, hpass, hcurrent, hi, h⟩

private theorem moves_passStep {stage : Stage} {flags : DrainFlags}
    (h : passStep s p pass id flags stage l = some t) : Moves s t := by
  unfold passStep at h
  split at h
  · split at h <;> cases h <;> exact moves_of_instances_eq rfl
  · cases h
    exact moves_of_instances_eq rfl
  · cases h
    exact moves_of_instances_eq rfl
  · cases h
    exact moves_of_modify rfl fun i => .first pass.drain i.flags
  · cases h
    exact moves_of_modify rfl fun i => .second pass.drain i.flags
  · cases h

private theorem moves_stepOfPass (h : stepOfPass s p l = some t) : Moves s t := by
  obtain ⟨pass, id, stage, i, -, -, -, h⟩ := stepOfPass_cases h
  exact moves_passStep h

private theorem moves_step (h : step s l = some t) : Moves s t := by
  cases l with
  | insert j replaced =>
    obtain ⟨⟨hnew, -⟩, rfl⟩ := guarded_eq_some.mp h
    intro id i hi
    have hne : id ≠ j := by
      rintro rfl
      exact hnew (AList.lookup_isSome.mp (by rw [hi]; rfl))
    exact ⟨i, by simp [AList.lookup_insert_ne hne, hi], .none _⟩
  | remove j =>
    obtain ⟨-, rfl⟩ := guarded_eq_some.mp h
    exact moves_of_modify rfl fun i => .none _
  | beginPass p drain =>
    obtain ⟨-, rfl⟩ := guarded_eq_some.mp h
    exact moves_of_instances_eq rfl
  | visit p j =>
    simp only [step, visit] at h
    split at h
    · obtain ⟨-, rfl⟩ := guarded_eq_some.mp h
      exact moves_of_instances_eq rfl
    · cases h
  | readCompetitor p => exact moves_stepOfPass h
  | keep p => exact moves_stepOfPass h
  | orphan p => exact moves_stepOfPass h
  | storeFirst p => exact moves_stepOfPass h
  | storeSecond p => exact moves_stepOfPass h
  | finishPass p =>
    simp only [step, endPass] at h
    split at h
    · cases h
    · obtain ⟨-, rfl⟩ := guarded_eq_some.mp h
      exact moves_of_instances_eq rfl
  | abandonPass p =>
    simp only [step, endPass] at h
    split at h
    · cases h
    · obtain ⟨-, rfl⟩ := guarded_eq_some.mp h
      exact moves_of_instances_eq rfl
  | release j =>
    simp only [step] at h
    split at h
    · obtain ⟨-, rfl⟩ := guarded_eq_some.mp h
      split <;> exact moves_of_instances_eq rfl
    · cases h
  | drainForCompetitor j =>
    obtain ⟨⟨-, hfree⟩, rfl⟩ := guarded_eq_some.mp h
    exact moves_of_modify rfl fun i => .competitor i.flags hfree
  | beginCancel c =>
    obtain ⟨-, rfl⟩ := guarded_eq_some.mp h
    exact moves_of_instances_eq rfl
  | addCandidate c j =>
    simp only [step] at h
    split at h
    · obtain ⟨-, rfl⟩ := guarded_eq_some.mp h
      split <;> exact moves_of_instances_eq rfl
    · cases h
  | cancelDrain c j =>
    simp only [step] at h
    split at h
    · obtain ⟨⟨-, hfree⟩, rfl⟩ := guarded_eq_some.mp h
      exact moves_of_modify rfl fun i => .cancel i.flags hfree
    · cases h
  | finishCancel c =>
    obtain ⟨-, rfl⟩ := guarded_eq_some.mp h
    exact moves_of_instances_eq rfl

/-! ### What the passes have established -/

/-- What a stage relies on while it holds the lock of an instance with these flags. -/
def Stage.ok (drain : Drain) (flags : DrainFlags) : Stage → Prop
  | .reading draining => drain = .orphaned ∧ (draining = true → flags.draining = true)
  | .resolving => drain = .orphaned
  | .locked => True
  | .stored =>
    match drain with
    | .orphaned | .stage2 => flags.draining = true
    | .binaryUpdate => flags.drainingForCompetitor = false

/-- What holds of a pass over these instances. -/
structure PassOk (instances : Table Nat Instance) (pass : Pass) : Prop where
  current : ∀ id stage, pass.current = some (id, stage) →
    ∃ i, instances.lookup id = some i ∧ stage.ok pass.drain i.flags
  met : ∀ id ∈ pass.met, ∃ i, instances.lookup id = some i ∧ i.flags.forced = true
  kept : pass.drain ≠ .orphaned → pass.kept = []

/-- Every pass under way is as it should be. -/
def Inv (s : State) : Prop :=
  ∀ p pass, s.passes.lookup p = some pass → PassOk s.instances pass

private theorem inv_init : Inv State.init := by
  intro p pass h
  cases h

/-- The second store completes the drain. -/
theorem Stage.ok.forced_storeSecond {drain : Drain} {flags : DrainFlags}
    (h : Stage.stored.ok drain flags) : (drain.storeSecond flags).forced = true := by
  rcases flags with ⟨_ | _, _ | _⟩ <;> cases drain <;> first | rfl | cases h

/-- The first store of a drain is what the second one relies on. -/
theorem Drain.stored_ok (drain : Drain) (flags : DrainFlags) :
    Stage.stored.ok drain (drain.storeFirst flags) := by
  cases drain <;> rfl

/-- What a stage relies on lasts while it holds the lock. -/
theorem Stage.ok.writes {drain : Drain} {stage : Stage} {d d' : DrainFlags}
    (h : stage.ok drain d) (hw : stage.holdsLock = true → Writes true d d') :
    stage.ok drain d' := by
  cases stage with
  | reading draining => exact ⟨h.1, fun hd => (hw rfl).draining (h.2 hd)⟩
  | resolving => exact h
  | locked => trivial
  | stored =>
    have hw := hw rfl
    cases drain with
    | orphaned => exact hw.draining h
    | stage2 => exact hw.draining h
    | binaryUpdate => exact hw.competitor_false h

private theorem readLocked_of_current {stage : Stage} (hp : s.passes.lookup p = some pass)
    (hc : pass.current = some (id, stage)) (hlock : stage.holdsLock = true) :
    s.readLocked id = true := by
  unfold State.readLocked
  rw [List.any_eq_true]
  exact ⟨⟨p, pass⟩, AList.mem_lookup_iff.mp hp, by simp [hc, hlock]⟩

/-- A step keeps what holds of a pass that it does not advance. -/
theorem PassOk.moves (h : PassOk s.instances pass) (hp : s.passes.lookup p = some pass)
    (hm : Moves s t) : PassOk t.instances pass := by
  refine ⟨?_, ?_, h.kept⟩
  · intro id stage hc
    obtain ⟨i, hi, hok⟩ := h.current id stage hc
    obtain ⟨i', hi', hw⟩ := hm id i hi
    refine ⟨i', hi', hok.writes fun hlock => ?_⟩
    rwa [readLocked_of_current hp hc hlock] at hw
  · intro id hid
    obtain ⟨i, hi, hforced⟩ := h.met id hid
    obtain ⟨i', hi', hw⟩ := hm id i hi
    exact ⟨i', hi', hw.forced hforced⟩

private theorem inv_of_passes_eq (h : Inv s) (hm : Moves s t) (hp : t.passes = s.passes) :
    Inv t := by
  intro p pass hpass
  rw [hp] at hpass
  exact (h p pass hpass).moves hpass hm

private theorem inv_of_setPass (h : Inv s) (hm : Moves s t) {pass' : Pass}
    (hp : t.passes = s.passes.insert p pass') (hok : PassOk t.instances pass') : Inv t := by
  intro q pass hpass
  rw [hp, Table.lookup_insert_eq_some] at hpass
  rcases hpass with ⟨rfl, rfl⟩ | ⟨hne, hpass⟩
  · exact hok
  · exact (h q pass hpass).moves hpass hm

private theorem inv_of_erase (h : Inv s) (hm : Moves s t) (hp : t.passes = s.passes.erase p) :
    Inv t := by
  intro q pass hpass
  rw [hp, Table.lookup_erase_eq_some] at hpass
  exact (h q pass hpass.2).moves hpass.2 hm

private theorem PassOk.meet {instances : Table Nat Instance} (h : PassOk instances pass)
    (hi : instances.lookup id = some i) (hforced : i.flags.forced = true) :
    PassOk instances { pass with met := id :: pass.met, current := none } := by
  refine ⟨fun _ _ hc => (by cases hc), fun j hj => ?_, h.kept⟩
  rcases List.mem_cons.mp hj with rfl | hj
  · exact ⟨i, hi, hforced⟩
  · exact h.met j hj

private theorem PassOk.enter {instances : Table Nat Instance} {stage : Stage}
    (h : PassOk instances pass) (hi : instances.lookup id = some i)
    (hok : stage.ok pass.drain i.flags) :
    PassOk instances { pass with current := some (id, stage) } := by
  refine ⟨fun j stage' hc => ?_, h.met, h.kept⟩
  cases hc
  exact ⟨i, hi, hok⟩

private theorem inv_passStep {stage : Stage} (h : Inv s) (hp : s.passes.lookup p = some pass)
    (hc : pass.current = some (id, stage)) (hi : s.instances.lookup id = some i)
    (hstep : passStep s p pass id i.flags stage l = some t) : Inv t := by
  have hm := moves_passStep hstep
  have hpass := h p pass hp
  have hpass' : PassOk t.instances pass := hpass.moves hp hm
  obtain ⟨j, hj, hok⟩ := hpass.current id stage hc
  obtain rfl : j = i := Option.some.inj (hj.symm.trans hi)
  unfold passStep at hstep
  split at hstep
  · next draining _ =>
    split at hstep
    · next hforced =>
      cases hstep
      refine inv_of_setPass h hm rfl (hpass.meet hi ?_)
      simp only [Bool.and_eq_true, Bool.not_eq_eq_eq_not, Bool.not_true] at hforced
      simp [DrainFlags.forced, hok.2 hforced.1, hforced.2]
    · cases hstep
      exact inv_of_setPass h hm rfl (hpass.enter hi hok.1)
  · cases hstep
    refine inv_of_setPass h hm rfl ⟨fun _ _ hc => (by cases hc), hpass.met, fun hne => ?_⟩
    exact absurd hok hne
  · cases hstep
    exact inv_of_setPass h hm rfl (hpass.enter hi trivial)
  · cases hstep
    have hi' : (s.instances.modify id
        fun i => { i with flags := pass.drain.storeFirst i.flags }).lookup id =
          some { j with flags := pass.drain.storeFirst j.flags } := by
      rw [Table.lookup_modify, if_pos rfl, hi]
      rfl
    exact inv_of_setPass h hm rfl (hpass'.enter hi' (Drain.stored_ok pass.drain j.flags))
  · cases hstep
    have hi' : (s.instances.modify id
        fun i => { i with flags := pass.drain.storeSecond i.flags }).lookup id =
          some { j with flags := pass.drain.storeSecond j.flags } := by
      rw [Table.lookup_modify, if_pos rfl, hi]
      rfl
    exact inv_of_setPass h hm rfl (hpass'.meet hi' hok.forced_storeSecond)
  · cases hstep

private theorem inv_stepOfPass (h : Inv s) (hstep : stepOfPass s p l = some t) : Inv t := by
  obtain ⟨pass, id, stage, i, hp, hc, hi, hstep⟩ := stepOfPass_cases hstep
  exact inv_passStep h hp hc hi hstep

private theorem inv_endPass (h : Inv s) (hm : Moves s t) {complete : Bool}
    (hstep : endPass s p complete = some t) : Inv t := by
  unfold endPass at hstep
  split at hstep
  · cases hstep
  · obtain ⟨-, rfl⟩ := guarded_eq_some.mp hstep
    exact inv_of_erase h hm rfl

private theorem inv_step (h : Inv s) (hstep : step s l = some t) : Inv t := by
  have hm := moves_step hstep
  cases l with
  | insert j replaced =>
    obtain ⟨-, rfl⟩ := guarded_eq_some.mp hstep
    exact inv_of_passes_eq h hm rfl
  | remove j =>
    obtain ⟨-, rfl⟩ := guarded_eq_some.mp hstep
    exact inv_of_passes_eq h hm rfl
  | beginPass p drain =>
    obtain ⟨-, rfl⟩ := guarded_eq_some.mp hstep
    refine inv_of_setPass h hm rfl
      ⟨fun _ _ hc => (by cases hc), fun j hj => (by cases hj), fun _ => rfl⟩
  | visit p j =>
    simp only [step, visit] at hstep
    split at hstep
    · next pass i hp hi =>
      obtain ⟨-, rfl⟩ := guarded_eq_some.mp hstep
      refine inv_of_setPass h hm rfl ((h p pass hp).enter hi ?_)
      cases hd : pass.drain with
      | orphaned => exact ⟨rfl, fun hd => hd⟩
      | stage2 => trivial
      | binaryUpdate => trivial
    · cases hstep
  | readCompetitor p => exact inv_stepOfPass h hstep
  | keep p => exact inv_stepOfPass h hstep
  | orphan p => exact inv_stepOfPass h hstep
  | storeFirst p => exact inv_stepOfPass h hstep
  | storeSecond p => exact inv_stepOfPass h hstep
  | finishPass p => exact inv_endPass h hm hstep
  | abandonPass p => exact inv_endPass h hm hstep
  | release j =>
    simp only [step] at hstep
    split at hstep
    · obtain ⟨-, rfl⟩ := guarded_eq_some.mp hstep
      exact inv_of_passes_eq h hm (by split <;> rfl)
    · cases hstep
  | drainForCompetitor j =>
    obtain ⟨-, rfl⟩ := guarded_eq_some.mp hstep
    exact inv_of_passes_eq h hm rfl
  | beginCancel c =>
    obtain ⟨-, rfl⟩ := guarded_eq_some.mp hstep
    exact inv_of_passes_eq h hm rfl
  | addCandidate c j =>
    simp only [step] at hstep
    split at hstep
    · obtain ⟨-, rfl⟩ := guarded_eq_some.mp hstep
      exact inv_of_passes_eq h hm (by split <;> rfl)
    · cases hstep
  | cancelDrain c j =>
    simp only [step] at hstep
    split at hstep
    · obtain ⟨-, rfl⟩ := guarded_eq_some.mp hstep
      exact inv_of_passes_eq h hm rfl
    · cases hstep
  | finishCancel c =>
    obtain ⟨-, rfl⟩ := guarded_eq_some.mp hstep
    exact inv_of_passes_eq h hm rfl

/-- What every run establishes. -/
theorem inv_of_exec {labels : List Label} (h : exec step State.init labels = some s) : Inv s :=
  exec_invariant (fun _ _ _ => inv_step) inv_init h

/-! ### Mandatory drains over whole runs -/

/-- Instance `id` drains, and not for a competitor. -/
def State.Forced (s : State) (id : Nat) : Prop :=
  ∃ i, s.instances.lookup id = some i ∧ i.flags.forced = true

/-- A forced instance stays forced. -/
theorem forced_exec {labels : List Label} (ht : exec step s labels = some t) (h : s.Forced id) :
    t.Forced id := by
  refine exec_invariant (P := fun s => s.Forced id) ?_ h ht
  rintro s l t ⟨i, hi, hforced⟩ hstep
  obtain ⟨i', hi', hw⟩ := moves_step hstep id i hi
  exact ⟨i', hi', hw.forced hforced⟩

/-- A pass is done with an instance after its second store, which leaves it forced. -/
theorem forced_of_storeSecond (h : Inv s) (hp : s.passes.lookup p = some pass)
    (hc : pass.current = some (id, .stored)) (hstep : step s (.storeSecond p) = some t) :
    t.Forced id := by
  obtain ⟨pass', id', stage, i, hp', hc', hi, hpassStep⟩ := stepOfPass_cases hstep
  obtain rfl : pass' = pass := Option.some.inj (hp'.symm.trans hp)
  rw [hc] at hc'
  cases hc'
  cases hpassStep
  have hok := inv_step h hstep p { pass' with met := id :: pass'.met, current := none }
    (AList.lookup_insert _)
  exact hok.met id List.mem_cons_self

/-- When a pass has gone through the map, each mapped instance is forced or was kept. -/
theorem forced_of_finishPass (h : Inv s) (hp : s.passes.lookup p = some pass)
    (hstep : step s (.finishPass p) = some t) (hi : s.instances.lookup id = some i)
    (hmapped : i.mapped = true) (hkept : id ∉ pass.kept) : t.Forced id := by
  have hm := moves_step hstep
  simp only [step, endPass, hp, guarded_eq_some, if_pos] at hstep
  obtain ⟨⟨-, hall⟩, -⟩ := hstep
  rw [State.visitedAll, List.all_eq_true] at hall
  have hvisited := hall ⟨id, i⟩ (AList.mem_lookup_iff.mp hi)
  simp only [hmapped, Bool.not_true, Bool.false_or, Bool.or_eq_true, List.contains_iff_mem]
    at hvisited
  rcases hvisited with hmet | hk
  · obtain ⟨j, hj, hforced⟩ := (h p pass hp).met id hmet
    obtain ⟨j', hj', hw⟩ := hm id j hj
    exact ⟨j', hj', hw.forced hforced⟩
  · exact absurd hk hkept

/-- Mandatory drains last, and a mandatory drain forces every instance it meets, whatever flags it
had. Only the reconcile pass keeps instances, those that match the cookbook. -/
theorem mandatory_drain_kept {before after : List Label} {s t : State}
    (hs : exec step State.init before = some s) (ht : exec step s after = some t) :
    (∀ id, s.Forced id → t.Forced id) ∧
      (∀ p pass id u, t.passes.lookup p = some pass → pass.current = some (id, .stored) →
        step t (.storeSecond p) = some u → u.Forced id) ∧
      (∀ p pass u, t.passes.lookup p = some pass → step t (.finishPass p) = some u →
        ∀ id i, t.instances.lookup id = some i → i.mapped = true → id ∉ pass.kept → u.Forced id) ∧
      ∀ p pass, t.passes.lookup p = some pass → pass.drain ≠ .orphaned → pass.kept = [] := by
  have hinv : Inv t := inv_of_exec (exec_append_eq_some.mpr ⟨s, hs, ht⟩)
  refine ⟨fun id => forced_exec ht, ?_, ?_, ?_⟩
  · intro p pass id u hp hc hstep
    exact forced_of_storeSecond hinv hp hc hstep
  · intro p pass u hp hstep id i hi hmapped hkept
    exact forced_of_finishPass hinv hp hstep hi hmapped hkept
  · intro p pass hp
    exact (hinv p pass hp).kept

/-- An instance drains for a competitor while a binary update runs, and a cancellation that saw the
competitor flag comes too late. -/
def updateDuringCancel : List Label :=
  [.insert 0 false, .release 0, .drainForCompetitor 0, .beginCancel 5, .addCandidate 5 0,
    .beginPass 7 .binaryUpdate, .visit 7 0, .storeFirst 7, .storeSecond 7]

/-- The drain stays forced. -/
theorem updateDuringCancel_forced :
    ∃ s t, exec step State.init updateDuringCancel = some s ∧
      exec step s [.finishPass 7, .cancelDrain 5 0] = some t ∧ s.Forced 0 ∧ t.Forced 0 := by
  have hrun : exec step State.init
      (updateDuringCancel ++ [.finishPass 7, .cancelDrain 5 0]) = some _ := rfl
  obtain ⟨s, hs, ht⟩ := exec_append_eq_some.mp hrun
  have hforced : s.Forced 0 := by
    cases hs
    exact ⟨_, rfl, rfl⟩
  exact ⟨s, _, hs, ht, hforced, (mandatory_drain_kept hs ht).1 0 hforced⟩

end Llamesh.Drains
