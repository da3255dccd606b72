import Llamesh.Slots.Model

/-!
# Slots are conserved

In every reachable state the count of an instance is the number of tasks that own
one of its slots. A step that acquires a slot adds one to both, and a release
takes one from both, so the saturating decrement never acts on zero.
-/

namespace Llamesh.Slots

open Transition

/-- The instance whose slot a task owns. -/
def Task.slot : Task → Option Nat
  | .guarded inst | .routed inst | .slotRelease inst | .guardRelease inst => some inst
  | .cleanup inst => some inst
  | .responding pending => pending
  | .requesting | .prewarming | .spawning _ => none

/-- Whether a task owns a slot of the instance `i`. -/
def Task.owns (i : Nat) (task : Task) : Nat := if task.slot = some i then 1 else 0

/-- The number of live owners of a slot of the instance `i`. -/
def holders (tasks : Table Nat Task) (i : Nat) : Nat := Table.sum tasks fun _ task => task.owns i

/-- The count of the instance `i`, zero before it is shared. -/
def inFlight (instances : Table Nat Instance) (i : Nat) : Nat :=
  match instances.lookup i with
  | some inst => inst.inFlight
  | none => 0

/-- The slots of `i` that a label acquires. -/
def Label.acquires (i : Nat) : Label → Nat
  | .acquire _ inst | .publish _ inst true => if inst = i then 1 else 0
  | _ => 0

/-- The slots of `i` that a label releases. -/
def Label.releases (i : Nat) : Label → Nat
  | .release _ inst => if inst = i then 1 else 0
  | _ => 0

/-! ### Owners -/

private theorem holders_insert_new {tasks : Table Nat Task} {id : Nat} (h : id ∉ tasks)
    (task : Task)
    (i : Nat) : holders (tasks.insert id task) i = holders tasks i + task.owns i := by
  simp only [holders, Table.sum_insert_of_notMem h]
  omega

private theorem holders_insert {tasks : Table Nat Task} {id : Nat} {old : Task}
    (h : tasks.lookup id = some old) (task : Task) (i : Nat) :
    holders (tasks.insert id task) i + old.owns i = holders tasks i + task.owns i :=
  Table.sum_insert_add h task fun _ task => task.owns i

private theorem holders_erase {tasks : Table Nat Task} {id : Nat} {task : Task}
    (h : tasks.lookup id = some task) (i : Nat) :
    holders (tasks.erase id) i + task.owns i = holders tasks i :=
  Table.sum_erase_add h fun _ task => task.owns i

/-- Handing a slot to a new task keeps the number of owners. -/
theorem holders_handOver {tasks : Table Nat Task} {id new : Nat} {old rest release : Task}
    (h : tasks.lookup id = some old) (hn : new ∉ tasks) (hrest : rest.slot = none)
    (hslot : release.slot = old.slot) (i : Nat) :
    holders ((tasks.insert id rest).insert new release) i = holders tasks i := by
  have hnew : new ∉ tasks.insert id rest := by
    rw [AList.mem_insert]
    rintro (rfl | hm)
    · exact hn (AList.lookup_isSome.mp (by simp [h]))
    · exact hn hm
  have h₁ := holders_insert_new hnew release i
  have h₂ := holders_insert h rest i
  simp only [Task.owns, hrest, hslot, reduceCtorEq, if_false] at h₁ h₂
  omega

/-- A dropped task leaves an owner of the same slot. -/
theorem slot_dropped {task : Task} :
    (∀ rest, task.dropped = some rest → rest.slot = task.slot) ∧
      (task.dropped = none → task.slot = none) := by
  constructor
  · intro rest h
    cases task with
    | responding pending =>
      cases pending with
      | none => cases h
      | some inst => cases h; rfl
    | requesting | prewarming | spawning => cases h
    | guarded | routed | slotRelease | guardRelease | cleanup => cases h; rfl
  · intro h
    cases task with
    | responding pending =>
      cases pending with
      | none => rfl
      | some inst => cases h
    | requesting | prewarming | spawning => rfl
    | guarded | routed | slotRelease | guardRelease | cleanup => cases h

/-- A release task owns the slot it releases. -/
theorem slot_of_releases {instances : Table Nat Instance} {task : Task} {i : Nat}
    (h : task.releases instances = some i) : task.slot = some i := by
  cases task <;> simp only [Task.releases, reduceCtorEq] at h <;> simp only [Task.slot]
  case slotRelease inst =>
    split at h
    · split at h
      · cases h
      · exact h
    · cases h
  all_goals exact h

/-! ### What a step does -/

/-- A label that neither acquires nor releases a slot. -/
def Label.Idle (l : Label) : Prop := ∀ i, l.acquires i = 0 ∧ l.releases i = 0

/-- What a step can do to the owners and the counts. -/
inductive Change (maxConcurrent : Nat) (s : State) : Label → State → Prop
  | join {l : Label} (id : Nat) (task : Task) (hidle : l.Idle) (hfree : id ∉ s.tasks)
      (hslot : task.slot = none) : Change maxConcurrent s l (setTask s id task)
  | move {l : Label} (id : Nat) (old task : Task) (hidle : l.Idle)
      (hold : s.tasks.lookup id = some old) (hslot : task.slot = old.slot) :
      Change maxConcurrent s l (setTask s id task)
  | leave {l : Label} (id : Nat) (old : Task) (hidle : l.Idle)
      (hold : s.tasks.lookup id = some old) (hslot : old.slot = none) :
      Change maxConcurrent s l { s with tasks := s.tasks.erase id }
  | handOver {l : Label} (id new : Nat) (old rest task : Task) (hidle : l.Idle)
      (hold : s.tasks.lookup id = some old) (hfree : new ∉ s.tasks) (hrest : rest.slot = none)
      (hslot : task.slot = old.slot) :
      Change maxConcurrent s l { s with tasks := (s.tasks.insert id rest).insert new task }
  | mark {l : Label} (inst : Nat) (f : Instance → Instance) (hidle : l.Idle)
      (hcount : ∀ i, (f i).inFlight = i.inFlight) :
      Change maxConcurrent s l (modifyInstance s inst f)
  | acquire (id inst : Nat) (i : Instance) (hold : s.tasks.lookup id = some .requesting)
      (hinst : s.instances.lookup inst = some i) (hroom : acquirable maxConcurrent i = true) :
      Change maxConcurrent s (.acquire id inst)
        { instances := s.instances.insert inst { i with inFlight := i.inFlight + 1 }
          tasks := s.tasks.insert id (.guarded inst) }
  | claim (id inst : Nat) (hold : s.tasks.lookup id = some (.spawning true))
      (hnew : inst ∉ s.instances) :
      Change maxConcurrent s (.publish id inst true)
        { instances := s.instances.insert inst { inFlight := 1 }
          tasks := s.tasks.insert id (.guarded inst) }
  | publish (id inst : Nat) (hold : s.tasks.lookup id = some (.spawning false))
      (hnew : inst ∉ s.instances) :
      Change maxConcurrent s (.publish id inst false)
        { instances := s.instances.insert inst { inFlight := 0 }, tasks := s.tasks.erase id }
  | release (id inst : Nat) (task : Task) (hold : s.tasks.lookup id = some task)
      (hslot : task.slot = some inst) :
      Change maxConcurrent s (.release id inst)
        { instances := decrement s.instances inst, tasks := s.tasks.erase id }

/-- Every step makes one of the changes. -/
theorem step_change {maxConcurrent : Nat} {s t : State} {l : Label}
    (h : step maxConcurrent s l = some t) : Change maxConcurrent s l t := by
  cases l with
  | arrive id | prewarm id =>
    simp only [step, guarded_eq_some] at h
    obtain ⟨hfree, rfl⟩ := h
    exact .join id _ (fun _ => ⟨rfl, rfl⟩) hfree rfl
  | acquire id inst =>
    simp only [step] at h
    split at h
    · next i hold hinst =>
      rw [guarded_eq_some] at h
      obtain ⟨hroom, rfl⟩ := h
      exact .acquire id inst i hold hinst hroom.2
    · cases h
  | beginSpawn id =>
    simp only [step] at h
    split at h
    · next hold =>
      obtain rfl := Option.some.inj h
      exact .move id _ _ (fun _ => ⟨rfl, rfl⟩) hold rfl
    · next hold =>
      obtain rfl := Option.some.inj h
      exact .move id _ _ (fun _ => ⟨rfl, rfl⟩) hold rfl
    · cases h
  | spawnFailed id =>
    simp only [step] at h
    split at h
    · next hold =>
      obtain rfl := Option.some.inj h
      exact .move id _ _ (fun _ => ⟨rfl, rfl⟩) hold rfl
    · next hold =>
      obtain rfl := Option.some.inj h
      exact .leave id _ (fun _ => ⟨rfl, rfl⟩) hold rfl
    · cases h
  | publish id inst reserveSlot =>
    cases reserveSlot with
    | true =>
      simp only [step, guarded_eq_some] at h
      obtain ⟨⟨hold, hnew⟩, rfl⟩ := h
      exact .claim id inst hold hnew
    | false =>
      simp only [step, guarded_eq_some] at h
      obtain ⟨⟨hold, hnew⟩, rfl⟩ := h
      exact .publish id inst hold hnew
  | retryAfterFailure id release | streamEnd id release =>
    simp only [step] at h
    split at h
    · next inst hold =>
      rw [guarded_eq_some] at h
      obtain ⟨hfree, rfl⟩ := h
      exact .handOver id release _ _ _ (fun _ => ⟨rfl, rfl⟩) hold hfree rfl rfl
    · cases h
  | detach id =>
    simp only [step] at h
    split at h
    · next inst hold =>
      rw [guarded_eq_some] at h
      obtain ⟨-, rfl⟩ := h
      exact .move id _ _ (fun _ => ⟨rfl, rfl⟩) hold rfl
    · cases h
  | respond id =>
    simp only [step] at h
    split at h
    · next inst hold =>
      obtain rfl := Option.some.inj h
      exact .move id _ _ (fun _ => ⟨rfl, rfl⟩) hold rfl
    · cases h
  | drop id =>
    simp only [step] at h
    split at h
    · next task hold =>
      split at h
      · next rest hdropped =>
        obtain rfl := Option.some.inj h
        exact .move id task rest (fun _ => ⟨rfl, rfl⟩) hold (slot_dropped.1 rest hdropped)
      · next hdropped =>
        obtain rfl := Option.some.inj h
        exact .leave id task (fun _ => ⟨rfl, rfl⟩) hold (slot_dropped.2 hdropped)
    · cases h
  | release id inst =>
    simp only [step] at h
    split at h
    · next task hold =>
      rw [guarded_eq_some] at h
      obtain ⟨hreleases, rfl⟩ := h
      exact .release id inst task hold (slot_of_releases hreleases)
    · cases h
  | setStatus inst | setDraining inst | exit inst | retire inst =>
    obtain rfl := Option.some.inj h
    exact .mark inst _ (fun _ => ⟨rfl, rfl⟩) fun _ => rfl

/-- The number of owners changes by what the label acquires and releases. -/
theorem holders_step {maxConcurrent : Nat} {s t : State} {l : Label}
    (h : step maxConcurrent s l = some t) (i : Nat) :
    holders t.tasks i + l.releases i = holders s.tasks i + l.acquires i := by
  cases step_change h with
  | join id task hidle hfree hslot =>
    have hjoin := holders_insert_new hfree task i
    rw [Task.owns, hslot, if_neg (by simp)] at hjoin
    rw [(hidle i).1, (hidle i).2]
    exact hjoin
  | move id old task hidle hold hslot =>
    have hmove := holders_insert hold task i
    rw [Task.owns, Task.owns, hslot] at hmove
    rw [(hidle i).1, (hidle i).2]
    exact Nat.add_right_cancel hmove
  | leave id old hidle hold hslot =>
    have hleave := holders_erase hold i
    rw [Task.owns, hslot, if_neg (by simp)] at hleave
    rw [(hidle i).1, (hidle i).2]
    exact hleave
  | handOver id new old rest task hidle hold hfree hrest hslot =>
    rw [(hidle i).1, (hidle i).2]
    exact holders_handOver hold hfree hrest hslot i
  | mark inst f hidle _ =>
    rw [(hidle i).1, (hidle i).2]
    rfl
  | acquire id inst _ hold _ _ =>
    simpa [Task.owns, Task.slot, Label.acquires, Label.releases] using
      holders_insert hold (.guarded inst) i
  | claim id inst hold _ =>
    simpa [Task.owns, Task.slot, Label.acquires, Label.releases] using
      holders_insert hold (.guarded inst) i
  | publish id inst hold _ => exact holders_erase hold i
  | release id inst task hold hslot =>
    simpa [Task.owns, hslot, Label.acquires, Label.releases] using holders_erase hold i

/-! ### Counts -/

private theorem inFlight_insert (instances : Table Nat Instance) (j : Nat) (inst : Instance)
    (i : Nat) :
    inFlight (instances.insert j inst) i =
      if i = j then inst.inFlight else inFlight instances i := by
  simp only [inFlight, Table.lookup_insert_eq]
  by_cases h : i = j <;> simp [h]

/-- A change of an instance that keeps its count keeps every count. -/
theorem inFlight_modify (instances : Table Nat Instance) (j : Nat) {f : Instance → Instance}
    (hf : ∀ inst, (f inst).inFlight = inst.inFlight) (i : Nat) :
    inFlight (instances.modify j f) i = inFlight instances i := by
  simp only [inFlight, Table.lookup_modify]
  by_cases h : i = j
  · rw [if_pos h]
    cases instances.lookup i <;> simp [hf]
  · rw [if_neg h]

private theorem inFlight_decrement (instances : Table Nat Instance) (j i : Nat) :
    inFlight (decrement instances j) i =
      inFlight instances i - if j = i then 1 else 0 := by
  simp only [inFlight, decrement, Table.lookup_modify]
  by_cases h : i = j
  · subst h
    simp only [if_true]
    cases instances.lookup i <;> simp
  · rw [if_neg h, if_neg (Ne.symm h)]
    rfl

/-- The counter of an instance that is there. -/
theorem inFlight_of_lookup {instances : Table Nat Instance} {i : Nat} {inst : Instance}
    (h : instances.lookup i = some inst) : inFlight instances i = inst.inFlight := by
  simp only [inFlight, h]

private theorem inFlight_insert_add {instances : Table Nat Instance} {j n : Nat} {inst : Instance}
    (h : inst.inFlight = inFlight instances j + n) (i : Nat) :
    inFlight (instances.insert j inst) i = inFlight instances i + if j = i then n else 0 := by
  rw [inFlight_insert]
  by_cases hj : i = j
  · subst hj
    rw [if_pos rfl, if_pos rfl, h]
  · rw [if_neg hj, if_neg (Ne.symm hj), Nat.add_zero]

private theorem inFlight_of_notMem {instances : Table Nat Instance} {j : Nat}
    (h : j ∉ instances) : inFlight instances j = 0 := by
  rw [inFlight, AList.lookup_eq_none.mpr h]

/-- The counts change by what the label acquires and releases, when a release finds a slot. -/
theorem inFlight_step {maxConcurrent : Nat} {s t : State} {l : Label}
    (h : step maxConcurrent s l = some t) (i : Nat) (hpos : l.releases i ≤ inFlight s.instances i) :
    inFlight t.instances i + l.releases i = inFlight s.instances i + l.acquires i := by
  cases step_change h with
  -- The first four do not touch the instances.
  | join id task hidle _ _ =>
    rw [(hidle i).1, (hidle i).2]
    rfl
  | move id old task hidle _ _ =>
    rw [(hidle i).1, (hidle i).2]
    rfl
  | leave id old hidle _ _ => rw [(hidle i).1, (hidle i).2]
  | handOver id new old rest task hidle _ _ _ _ => rw [(hidle i).1, (hidle i).2]
  | mark inst f hidle hcount =>
    rw [(hidle i).1, (hidle i).2]
    exact inFlight_modify s.instances inst hcount i
  | acquire id inst old _ hinst _ =>
    have hcount : old.inFlight + 1 = inFlight s.instances inst + 1 := by
      rw [inFlight_of_lookup hinst]
    exact inFlight_insert_add hcount i
  | claim id inst _ hnew =>
    have hcount : 1 = inFlight s.instances inst + 1 := by rw [inFlight_of_notMem hnew]
    exact inFlight_insert_add hcount i
  | publish id inst _ hnew =>
    have hcount : 0 = inFlight s.instances inst + 0 := by rw [inFlight_of_notMem hnew]
    have hinsert := @inFlight_insert_add s.instances inst 0 { inFlight := 0 } hcount i
    rw [ite_self] at hinsert
    exact hinsert
  | release id inst task _ _ =>
    simp only [Label.acquires, Label.releases, inFlight_decrement] at hpos ⊢
    omega

/-! ### The invariant -/

/-- The counts agree with the owners, stay within the limit, and the run has acquired what it has
released and what is still owned. -/
structure Inv (maxConcurrent : Nat) (ls : List Label) (s : State) : Prop where
  counts : ∀ i, inFlight s.instances i = holders s.tasks i
  bounded : maxConcurrent ≠ 0 → ∀ i, inFlight s.instances i ≤ maxConcurrent
  balance : ∀ i, (ls.map fun l => l.acquires i).sum =
    (ls.map fun l => l.releases i).sum + inFlight s.instances i

/-- A release finds a slot. -/
theorem release_le {maxConcurrent : Nat} {s t : State} {l : Label}
    (hc : ∀ i, inFlight s.instances i = holders s.tasks i)
    (h : step maxConcurrent s l = some t) (i : Nat) : l.releases i ≤ inFlight s.instances i := by
  have hh := holders_step h i
  rw [hc i]
  cases l with
  | release id inst => simp only [Label.acquires] at hh; omega
  | _ => exact Nat.zero_le _

/-- A slot is acquired only below the limit. -/
theorem acquire_bound {maxConcurrent : Nat} {s t : State} {l : Label}
    (hm : maxConcurrent ≠ 0) (h : step maxConcurrent s l = some t) (i : Nat)
    (ha : l.acquires i ≠ 0) : inFlight s.instances i + l.acquires i ≤ maxConcurrent := by
  have hself : ∀ inst, (if inst = i then 1 else 0) ≠ 0 → inst = i := by
    intro inst hne
    by_contra hother
    exact hne (if_neg hother)
  cases step_change h with
  | join id task hidle _ _ => exact absurd (hidle i).1 ha
  | move id old task hidle _ _ => exact absurd (hidle i).1 ha
  | leave id old hidle _ _ => exact absurd (hidle i).1 ha
  | handOver id new old rest task hidle _ _ _ _ => exact absurd (hidle i).1 ha
  | mark inst f hidle _ => exact absurd (hidle i).1 ha
  | acquire id inst old _ hinst hroom =>
    obtain rfl := hself inst ha
    simp only [acquirable, hasCapacity, Bool.and_eq_true, Bool.or_eq_true, beq_iff_eq,
      decide_eq_true_eq] at hroom
    simp only [Label.acquires, inFlight_of_lookup hinst, if_true]
    omega
  | claim id inst _ hnew =>
    obtain rfl := hself inst ha
    simp only [Label.acquires, inFlight_of_notMem hnew, if_true]
    omega
  | publish id inst _ _ => exact absurd rfl ha
  | release id inst task _ _ => exact absurd rfl ha

/-- Every step keeps the invariant. -/
theorem inv_step {maxConcurrent : Nat} {ls : List Label} {s t : State} {l : Label}
    (hi : Inv maxConcurrent ls s) (h : step maxConcurrent s l = some t) :
    Inv maxConcurrent (ls ++ [l]) t := by
  have hcount := fun i => inFlight_step h i (release_le hi.counts h i)
  constructor
  · intro i
    have hh := holders_step h i
    have hs := hi.counts i
    have hi' := hcount i
    omega
  · intro hm i
    have hb := hi.bounded hm i
    have hi' := hcount i
    by_cases ha : l.acquires i = 0
    · omega
    · have hab := acquire_bound hm h i ha
      omega
  · intro i
    have hbal := hi.balance i
    have hi' := hcount i
    simp only [List.map_append, List.sum_append, List.map_cons, List.map_nil, List.sum_cons,
      List.sum_nil]
    omega

/-- After every run, the count of a shared instance is the number of live owners of its slots and
within the limit, the acquired slots are the released ones and those still owned, and a release
never acts on a count of zero. -/
theorem slots_conserved (maxConcurrent : Nat) (ls : List Label) (s : State)
    (h : exec (step maxConcurrent) .init ls = some s) :
    (∀ i inst, s.instances.lookup i = some inst →
      inst.inFlight = holders s.tasks i ∧
      (ls.map fun l => l.acquires i).sum =
        (ls.map fun l => l.releases i).sum + holders s.tasks i ∧
      (maxConcurrent ≠ 0 → inst.inFlight ≤ maxConcurrent)) ∧
    ∀ id i t, step maxConcurrent s (.release id i) = some t →
      ∃ inst, s.instances.lookup i = some inst ∧ 0 < inst.inFlight := by
  have hinv : Inv maxConcurrent ls s := by
    refine exec_trace_invariant (C := fun _ _ => True) (P := Inv maxConcurrent) ?_ ?_ ls s ?_ h
    · exact ⟨fun _ => rfl, fun _ _ => Nat.zero_le _, fun _ => rfl⟩
    · intro ls s l t _ hi _ hstep
      exact inv_step hi hstep
    · exact along_true _ _
  constructor
  · intro i inst hl
    have hcount := inFlight_of_lookup hl
    have heq := hinv.counts i
    have hbal := hinv.balance i
    refine ⟨by omega, by omega, fun hm => ?_⟩
    have hb := hinv.bounded hm i
    omega
  · intro id i t hstep
    have hle := release_le hinv.counts hstep i
    simp only [Label.releases, if_true, inFlight] at hle
    split at hle
    · next inst hl => exact ⟨inst, hl, hle⟩
    · omega

/-- Two requests on one instance: the first streams a response to its end, the second is cancelled
while it holds the guard. -/
def sharedInstanceRun : List Label :=
  [.arrive 0, .beginSpawn 0, .publish 0 7 true, .arrive 1, .acquire 1 7, .setStatus 7 .ready,
    .detach 0, .respond 0, .streamEnd 0 2, .drop 0, .drop 1, .release 2 7]

/-- The theorem applies to that run, and to the release that is still scheduled. -/
theorem sharedInstance_conserved :
    ∃ s, exec (step 2) .init sharedInstanceRun = some s ∧ holders s.tasks 7 = 1 ∧
      (∀ i inst, s.instances.lookup i = some inst → inst.inFlight = holders s.tasks i) ∧
      ∃ inst, s.instances.lookup 7 = some inst ∧ 0 < inst.inFlight :=
  ⟨_, rfl, rfl, fun i inst hl => ((slots_conserved 2 sharedInstanceRun _ rfl).1 i inst hl).1,
    (slots_conserved 2 sharedInstanceRun _ rfl).2 1 7 _ rfl⟩

end Llamesh.Slots
