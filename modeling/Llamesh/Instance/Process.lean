import Llamesh.Library.Run

/-!
# The process of an instance and its memory commitment

An admitted spawn holds a memory commitment, which the spawn guard, the instance and the task that
reaps its process share (`src/node_state/spawn_reservations.rs:182–262`). The handle of the process
stands in a slot of the instance: `spawn` puts it there (`src/instance.rs:772–856`), and `stop`,
`is_alive` and the drop of the instance take it out and pass it on (`src/instance.rs:632–700`,
`src/instance.rs:998–1016,1042–1094`). Callers of `stop` may go away at any point, a poll of the
process may fail, and the process may exit at any time.

Whatever happens, the commitment of a process stays in the registry until the process is reaped,
goes then, and goes once. A retried spawn makes a new instance under the same commitment.
-/

namespace Llamesh.Instance.Process

open Transition

/-- The process; a crash is an exit that is neither clean nor by `SIGTERM`. -/
inductive Proc where
  | absent
  | running
  | exited (crashed : Bool)
deriving DecidableEq, Repr

/-- The task of `reap_child`: a graceful one kills only after ten seconds or a failed wait. Without
a runtime a thread does the same by polling. `src/instance.rs:634–691`. -/
structure Reaper where
  killing : Bool
deriving DecidableEq, Repr

/-- One commitment with its owners. `releases` are the times its entry was taken out of the
registry, `reaped` is when a wait or a poll has returned the exit of the process, `signalled` when
the node has sent it a signal, and `crashes` what it has added to `INSTANCES_CRASHED_TOTAL`. -/
structure Child where
  process : Proc
  slot : Bool
  reapers : List Reaper
  instance_ : Bool
  spawnGuard : Bool
  finished : Bool
  releases : Nat
  reaped : Bool
  signalled : Bool
  crashes : Nat
deriving DecidableEq, Repr

/-- A spawn that has been admitted. -/
def Child.init : Child := ⟨.absent, false, [], false, true, false, 0, false, false, 0⟩

/-- What the tasks that share an instance do. -/
inductive Label where
  | newInstance
  | spawned
  | spawnFailed
  /-- The guard goes, after its handoff or with a request that is cancelled. -/
  | dropGuard
  | exit (crashed : Bool)
  | stop
  | isAlive
  /-- `is_alive`, and the poll fails. -/
  | pollFailed
  | dropInstance
  /-- Ten seconds have passed, or a wait has failed. -/
  | escalate (i : Nat)
  | reaped (i : Nat)

/-- `finish`: only the first call takes the entry out of the registry.
`src/node_state/spawn_reservations.rs:233–244`. -/
def Child.finish (c : Child) : Child :=
  if c.finished then c else { c with finished := true, releases := c.releases + 1 }

/-- The commitment has an owner. -/
def Child.owned (c : Child) : Bool := c.instance_ || c.spawnGuard || !c.reapers.isEmpty

/-- The last owner that goes finishes the commitment.
`src/node_state/spawn_reservations.rs:256–260`. -/
def Child.settle (c : Child) : Child := if c.owned then c else c.finish

/-- `reap_child` of the handle in the slot. -/
def Child.reap (c : Child) (graceful : Bool) : Child :=
  { c with slot := false, reapers := c.reapers ++ [⟨!graceful⟩], signalled := true }

/-- One step. -/
def step (c : Child) : Label → Option Child
  | .newInstance =>
    guarded (c.spawnGuard = true ∧ c.instance_ = false ∧ c.process = .absent)
      { c with instance_ := true }
  | .spawned =>
    guarded (c.instance_ = true ∧ c.process = .absent) { c with process := .running, slot := true }
  | .spawnFailed =>
    guarded (c.instance_ = true ∧ c.process = .absent) (Child.settle { c with instance_ := false })
  | .dropGuard => guarded (c.spawnGuard = true) (Child.settle { c with spawnGuard := false })
  | .exit crashed => guarded (c.process = .running) { c with process := .exited crashed }
  | .stop => guarded (c.instance_ = true) (if c.slot then c.reap true else c)
  | .isAlive =>
    guarded (c.instance_ = true)
      (match c.slot, c.process with
      | true, .exited crashed =>
        Child.finish { c with
          slot := false
          reaped := true
          crashes := if crashed then c.crashes + 1 else c.crashes }
      | _, _ => c)
  | .pollFailed => guarded (c.instance_ = true) (if c.slot then c.reap false else c)
  | .dropInstance =>
    guarded (c.instance_ = true)
      (Child.settle { (if c.slot then c.reap false else c) with instance_ := false })
  | .escalate i =>
    guarded (i < c.reapers.length) { c with reapers := c.reapers.set i ⟨true⟩ }
  | .reaped i =>
    guarded (i < c.reapers.length ∧ ∃ crashed, c.process = .exited crashed)
      (Child.finish { c with reapers := c.reapers.eraseIdx i, reaped := true })

/-! ## The invariant -/

/-- Where the handle of the process is. -/
inductive Handle (c : Child) : Prop where
  /-- The process was not started. -/
  | none (hprocess : c.process = .absent) (hslot : c.slot = false) (hreapers : c.reapers = [])
      (hreaped : c.reaped = false) (howned : c.finished = !c.owned)
  | slot (hprocess : c.process ≠ .absent) (hslot : c.slot = true) (hreapers : c.reapers = [])
      (hreaped : c.reaped = false) (hinstance : c.instance_ = true) (hheld : c.finished = false)
  | reaper (r : Reaper) (hprocess : c.process ≠ .absent) (hslot : c.slot = false)
      (hreapers : c.reapers = [r]) (hreaped : c.reaped = false) (hheld : c.finished = false)
  /-- The process was reaped. -/
  | gone (crashed : Bool) (hprocess : c.process = .exited crashed) (hslot : c.slot = false)
      (hreapers : c.reapers = []) (hreaped : c.reaped = true) (hfinished : c.finished = true)

/-- The node signals only a process it has taken the handle of, and counts a crash only of one it
has not signalled. -/
structure Counted (c : Child) : Prop where
  once : c.crashes ≤ 1
  signalled : c.signalled = true → c.process ≠ .absent ∧ c.slot = false ∧ c.crashes = 0
  crashed : c.crashes ≠ 0 → c.process = .exited true ∧ c.slot = false

variable {c d : Child} {label : Label}

private theorem finish_eq (c : Child) :
    c.finish = { c with finished := true, releases := c.releases + (!c.finished).toNat } := by
  unfold Child.finish
  split
  · next hfinished =>
    cases c
    cases hfinished
    rfl
  · next h => simp [h]

private theorem settle_eq (c : Child) :
    c.settle = { c with
      finished := c.finished || !c.owned
      releases := c.releases + (!c.finished && !c.owned).toNat } := by
  unfold Child.settle
  split
  · next h => simp [h]
  · next h => simp [finish_eq, h]

private theorem handle_settle (h : Handle c) {instance_ spawnGuard : Bool}
    (hslot : c.slot = true → instance_ = true)
    (hinstance : c.instance_ = false → instance_ = false)
    (hguard : c.spawnGuard = false → spawnGuard = false) :
    Handle (Child.settle { c with instance_ := instance_, spawnGuard := spawnGuard }) := by
  rw [settle_eq]
  cases h with
  | none hprocess hempty hreapers hreaped howned =>
    refine .none hprocess hempty hreapers hreaped ?_
    simp only [howned, hreapers, Child.owned, List.isEmpty_nil, Bool.not_true, Bool.or_false]
    cases hi : c.instance_ <;> cases hg : c.spawnGuard <;> simp_all
  | slot hprocess hfull hreapers hreaped _ hheld =>
    exact .slot hprocess hfull hreapers hreaped (hslot hfull)
      (by simp [Child.owned, hheld, hslot hfull])
  | reaper r hprocess hempty hreapers hreaped hheld =>
    exact .reaper r hprocess hempty hreapers hreaped (by simp [Child.owned, hheld, hreapers])
  | gone crashed hprocess hempty hreapers hreaped hfinished =>
    exact .gone crashed hprocess hempty hreapers hreaped (by simp [hfinished])

private theorem Handle.of_absent (h : Handle c) (habsent : c.process = .absent) :
    c.slot = false ∧ c.reapers = [] ∧ c.reaped = false ∧ c.finished = !c.owned := by
  cases h with
  | none _ hempty hreapers hreaped howned => exact ⟨hempty, hreapers, hreaped, howned⟩
  | slot hprocess => exact absurd habsent hprocess
  | reaper _ hprocess => exact absurd habsent hprocess
  | gone _ hprocess => simp [habsent] at hprocess

private theorem Handle.of_slot (h : Handle c) (hfull : c.slot = true) :
    c.process ≠ .absent ∧ c.reapers = [] ∧ c.reaped = false ∧ c.instance_ = true ∧
      c.finished = false := by
  cases h with
  | none _ hempty => simp [hfull] at hempty
  | slot hprocess _ hreapers hreaped hinstance hheld =>
    exact ⟨hprocess, hreapers, hreaped, hinstance, hheld⟩
  | reaper _ _ hempty => simp [hfull] at hempty
  | gone _ _ hempty => simp [hfull] at hempty

private theorem Handle.of_reaper (h : Handle c) {i : Nat} (hi : i < c.reapers.length) :
    i = 0 ∧ (∃ r, c.reapers = [r]) ∧ c.process ≠ .absent ∧ c.slot = false ∧ c.reaped = false ∧
      c.finished = false := by
  cases h with
  | none _ _ hreapers => simp [hreapers] at hi
  | slot _ _ hreapers => simp [hreapers] at hi
  | reaper r hprocess hempty hreapers hreaped hheld =>
    exact ⟨by simpa [hreapers] using hi, ⟨r, hreapers⟩, hprocess, hempty, hreaped, hheld⟩
  | gone _ _ _ hreapers => simp [hreapers] at hi

private theorem handle_reap (h : Handle c) (hfull : c.slot = true) (graceful : Bool) :
    Handle (c.reap graceful) := by
  obtain ⟨hprocess, hreapers, hreaped, -, hheld⟩ := h.of_slot hfull
  exact .reaper ⟨!graceful⟩ hprocess rfl (by simp [Child.reap, hreapers]) hreaped hheld

private theorem handle_isAlive (h : Handle c) {crashed : Bool} (hfull : c.slot = true)
    (hexited : c.process = .exited crashed) {crashes : Nat} :
    Handle (Child.finish { c with slot := false, reaped := true, crashes := crashes }) := by
  rw [finish_eq]
  obtain ⟨-, hreapers, -⟩ := h.of_slot hfull
  exact .gone crashed hexited rfl hreapers rfl rfl

private theorem handle_step (h : Handle c) (hstep : step c label = some d) : Handle d := by
  cases label with
  | newInstance =>
    obtain ⟨⟨hguard, -, habsent⟩, rfl⟩ := guarded_eq_some.mp hstep
    obtain ⟨hempty, hreapers, hreaped, howned⟩ := h.of_absent habsent
    exact .none habsent hempty hreapers hreaped (by simpa [Child.owned, hguard] using howned)
  | spawned =>
    obtain ⟨⟨hinstance, habsent⟩, rfl⟩ := guarded_eq_some.mp hstep
    obtain ⟨-, hreapers, hreaped, howned⟩ := h.of_absent habsent
    exact .slot (by simp) rfl hreapers hreaped hinstance
      (by simpa [Child.owned, hinstance] using howned)
  | spawnFailed =>
    obtain ⟨⟨-, habsent⟩, rfl⟩ := guarded_eq_some.mp hstep
    obtain ⟨hempty, -⟩ := h.of_absent habsent
    exact handle_settle h (fun hfull => by simp [hfull] at hempty) (fun _ => rfl) id
  | dropGuard =>
    obtain ⟨-, rfl⟩ := guarded_eq_some.mp hstep
    exact handle_settle h (fun hfull => (h.of_slot hfull).2.2.2.1) id fun _ => rfl
  | exit crashed =>
    obtain ⟨hrunning, rfl⟩ := guarded_eq_some.mp hstep
    cases h with
    | none hprocess => simp [hrunning] at hprocess
    | slot _ hfull hreapers hreaped hinstance hheld =>
      exact .slot (by simp) hfull hreapers hreaped hinstance hheld
    | reaper r _ hempty hreapers hreaped hheld =>
      exact .reaper r (by simp) hempty hreapers hreaped hheld
    | gone _ hprocess => simp [hrunning] at hprocess
  | stop =>
    obtain ⟨-, rfl⟩ := guarded_eq_some.mp hstep
    split
    · next hfull => exact handle_reap h hfull true
    · exact h
  | isAlive =>
    obtain ⟨-, rfl⟩ := guarded_eq_some.mp hstep
    split
    · next crashed hfull hexited => exact handle_isAlive h hfull hexited
    · exact h
  | pollFailed =>
    obtain ⟨-, rfl⟩ := guarded_eq_some.mp hstep
    split
    · next hfull => exact handle_reap h hfull false
    · exact h
  | dropInstance =>
    obtain ⟨-, rfl⟩ := guarded_eq_some.mp hstep
    split
    · next hfull =>
      exact handle_settle (handle_reap h hfull false) (fun hslot => by cases hslot)
        (fun _ => rfl) id
    · next hempty =>
      exact handle_settle h (fun hfull => absurd hfull hempty) (fun _ => rfl) id
  | escalate i =>
    obtain ⟨hi, rfl⟩ := guarded_eq_some.mp hstep
    obtain ⟨hzero, ⟨r, hreapers⟩, hprocess, hempty, hreaped, hheld⟩ := h.of_reaper hi
    exact .reaper ⟨true⟩ hprocess hempty (by simp [hreapers, hzero]) hreaped hheld
  | reaped i =>
    obtain ⟨⟨hi, crashed, hexited⟩, rfl⟩ := guarded_eq_some.mp hstep
    obtain ⟨hzero, ⟨r, hreapers⟩, -, hempty, -, -⟩ := h.of_reaper hi
    rw [finish_eq]
    exact .gone crashed hexited hempty (by simp [hreapers, hzero]) rfl rfl

/-- The entry was taken out of the registry once, or it is there. -/
def Child.Once (c : Child) : Prop := c.releases = c.finished.toNat

private theorem once_finish (h : c.Once) : c.finish.Once := by
  rw [finish_eq]
  change c.releases + _ = 1
  rw [h]
  cases c.finished <;> rfl

private theorem once_settle (h : c.Once) : c.settle.Once := by
  unfold Child.settle
  split
  · exact h
  · exact once_finish h

private theorem once_step (h : c.Once) (hstep : step c label = some d) : d.Once := by
  cases label with
  | spawnFailed =>
    obtain ⟨-, rfl⟩ := guarded_eq_some.mp hstep
    exact once_settle h
  | dropGuard =>
    obtain ⟨-, rfl⟩ := guarded_eq_some.mp hstep
    exact once_settle h
  | stop =>
    obtain ⟨-, rfl⟩ := guarded_eq_some.mp hstep
    split <;> exact h
  | isAlive =>
    obtain ⟨-, rfl⟩ := guarded_eq_some.mp hstep
    split
    · exact once_finish h
    · exact h
  | pollFailed =>
    obtain ⟨-, rfl⟩ := guarded_eq_some.mp hstep
    split <;> exact h
  | dropInstance =>
    obtain ⟨-, rfl⟩ := guarded_eq_some.mp hstep
    refine once_settle ?_
    split <;> exact h
  | reaped i =>
    obtain ⟨-, rfl⟩ := guarded_eq_some.mp hstep
    exact once_finish h
  | _ =>
    obtain ⟨-, rfl⟩ := guarded_eq_some.mp hstep
    exact h

private theorem Counted.of_slot (h : Counted c) (hfull : c.slot = true) :
    c.signalled = false ∧ c.crashes = 0 := by
  constructor
  · by_contra hsignalled
    have hslot := (h.signalled (by simpa using hsignalled)).2.1
    simp [hfull] at hslot
  · by_contra hcrashes
    have hslot := (h.crashed hcrashes).2
    simp [hfull] at hslot

private theorem counted_reap (h : Counted c) (hhandle : Handle c) (hfull : c.slot = true)
    (graceful : Bool) : Counted (c.reap graceful) where
  once := h.once
  signalled := fun _ => ⟨(hhandle.of_slot hfull).1, rfl, (h.of_slot hfull).2⟩
  crashed := fun hcrashes => absurd (h.of_slot hfull).2 hcrashes

private theorem counted_isAlive (h : Counted c) {crashed : Bool} (hfull : c.slot = true)
    (hexited : c.process = .exited crashed) :
    Counted (Child.finish { c with
      slot := false
      reaped := true
      crashes := if crashed then c.crashes + 1 else c.crashes }) := by
  rw [finish_eq]
  obtain ⟨hunsignalled, hzero⟩ := h.of_slot hfull
  refine ⟨?_, fun hsignalled => ?_, fun hcrashes => ?_⟩
  · cases crashed <;> simp [hzero]
  · change c.signalled = true at hsignalled
    simp [hunsignalled] at hsignalled
  · cases crashed with
    | false => simp [hzero] at hcrashes
    | true => exact ⟨hexited, rfl⟩

private theorem counted_settle (h : Counted c) {instance_ spawnGuard : Bool} :
    Counted (Child.settle { c with instance_ := instance_, spawnGuard := spawnGuard }) := by
  rw [settle_eq]
  exact { h with }

private theorem counted_step (h : Counted c) (hhandle : Handle c)
    (hstep : step c label = some d) : Counted d := by
  cases label with
  | newInstance =>
    obtain ⟨-, rfl⟩ := guarded_eq_some.mp hstep
    exact { h with }
  | spawned =>
    obtain ⟨⟨-, habsent⟩, rfl⟩ := guarded_eq_some.mp hstep
    refine ⟨h.once, fun hsignalled => ?_, fun hcrashes => ?_⟩
    · exact absurd habsent (h.signalled hsignalled).1
    · have hexited := (h.crashed hcrashes).1
      simp [habsent] at hexited
  | spawnFailed =>
    obtain ⟨-, rfl⟩ := guarded_eq_some.mp hstep
    exact counted_settle h
  | dropGuard =>
    obtain ⟨-, rfl⟩ := guarded_eq_some.mp hstep
    exact counted_settle h
  | exit crashed =>
    obtain ⟨hrunning, rfl⟩ := guarded_eq_some.mp hstep
    refine ⟨h.once, fun hsignalled => ⟨by simp, (h.signalled hsignalled).2⟩, fun hcrashes => ?_⟩
    have hexited := (h.crashed hcrashes).1
    simp [hrunning] at hexited
  | stop =>
    obtain ⟨-, rfl⟩ := guarded_eq_some.mp hstep
    split
    · next hfull => exact counted_reap h hhandle hfull true
    · exact h
  | isAlive =>
    obtain ⟨-, rfl⟩ := guarded_eq_some.mp hstep
    split
    · next crashed hfull hexited => exact counted_isAlive h hfull hexited
    · exact h
  | pollFailed =>
    obtain ⟨-, rfl⟩ := guarded_eq_some.mp hstep
    split
    · next hfull => exact counted_reap h hhandle hfull false
    · exact h
  | dropInstance =>
    obtain ⟨-, rfl⟩ := guarded_eq_some.mp hstep
    split
    · next hfull => exact counted_settle (counted_reap h hhandle hfull false)
    · exact counted_settle h
  | escalate i =>
    obtain ⟨-, rfl⟩ := guarded_eq_some.mp hstep
    exact { h with }
  | reaped i =>
    obtain ⟨-, rfl⟩ := guarded_eq_some.mp hstep
    rw [finish_eq]
    exact { h with }

/-! ## Every interleaving -/

/-- The commitment of a process that was started is in the registry until the process is reaped, and
not longer; until then the handle is in the slot or with one task that reaps; a commitment in the
registry has an owner, and is taken out once; and a crash is counted at most once, and only of a
process the node has not signalled. -/
theorem commitment_held_while_running (h : Reachable step Child.init c) :
    (c.process ≠ .absent → (c.finished = true ↔ c.reaped = true)) ∧
    (c.process = .running → c.reaped = false) ∧
    (c.process ≠ .absent → c.reaped = false →
      c.slot = true ∧ c.reapers = [] ∨ c.slot = false ∧ ∃ r, c.reapers = [r]) ∧
    (c.finished = false → c.owned = true) ∧
    (c.releases = if c.finished then 1 else 0) ∧
    c.crashes ≤ 1 ∧ (c.crashes = 1 → c.process = .exited true ∧ c.signalled = false) := by
  have inv : Handle c ∧ c.Once ∧ Counted c := by
    refine h.invariant (P := fun c => Handle c ∧ c.Once ∧ Counted c) ?_ ?_
    · rintro c label d ⟨hhandle, honce, hcounted⟩ hstep
      exact ⟨handle_step hhandle hstep, once_step honce hstep, counted_step hcounted hhandle hstep⟩
    · exact ⟨.none rfl rfl rfl rfl rfl, rfl, Nat.zero_le _, (fun h => by cases h),
        fun h => absurd rfl h⟩
  obtain ⟨hhandle, honce, hcounted⟩ := inv
  refine ⟨fun hprocess => ?_, fun hrunning => ?_, fun hprocess hreaped => ?_, fun hheld => ?_, ?_,
    hcounted.once, ?_⟩
  · cases hhandle with
    | none habsent => exact absurd habsent hprocess
    | slot _ _ _ hreaped _ hheld => simp [hreaped, hheld]
    | reaper _ _ _ _ hreaped hheld => simp [hreaped, hheld]
    | gone _ _ _ _ hreaped hfinished => simp [hreaped, hfinished]
  · cases hhandle with
    | none _ _ _ hreaped => exact hreaped
    | slot _ _ _ hreaped => exact hreaped
    | reaper _ _ _ _ hreaped => exact hreaped
    | gone _ hexited => simp [hrunning] at hexited
  · cases hhandle with
    | none habsent => exact absurd habsent hprocess
    | slot _ hfull hreapers => exact .inl ⟨hfull, hreapers⟩
    | reaper r _ hempty hreapers => exact .inr ⟨hempty, r, hreapers⟩
    | gone _ _ _ _ hgone => simp [hreaped] at hgone
  · cases hhandle with
    | none _ _ _ _ howned => simpa [hheld] using howned
    | slot _ _ _ _ hinstance => simp [Child.owned, hinstance]
    | reaper r _ _ hreapers => simp [Child.owned, hreapers]
    | gone _ _ _ _ _ hfinished => simp [hheld] at hfinished
  · rw [honce]
    cases c.finished <;> rfl
  · intro hone
    refine ⟨(hcounted.crashed (by simp [hone])).1, ?_⟩
    by_contra hsignalled
    have hzero := (hcounted.signalled (by simpa using hsignalled)).2.2
    simp [hone] at hzero

/-- A cancelled request leaves a process behind, whose instance is dropped and which is then
killed and reaped. -/
def abandonedSpawn : List Label :=
  [.newInstance, .spawned, .dropGuard, .dropInstance, .escalate 0, .exit true, .reaped 0]

/-- The commitment outlives every other owner and the exit of the process, until it is reaped, and
no crash is counted. -/
theorem abandonedSpawn_held : ∃ c,
    exec step Child.init (abandonedSpawn.take 6) = some c ∧ c.process = .exited true ∧
      c.instance_ = false ∧ c.spawnGuard = false ∧ ¬ c.finished = true ∧
      ∃ d, exec step c (abandonedSpawn.drop 6) = some d ∧ d.finished = true ∧ d.releases = 1 ∧
        d.crashes = 0 := by
  have hrun : exec step Child.init (abandonedSpawn.take 6) = some
      ⟨.exited true, false, [⟨true⟩], false, false, false, 0, false, true, 0⟩ := by
    decide +kernel
  refine ⟨_, hrun, rfl, rfl, rfl, ?_, _, rfl, rfl, rfl, rfl⟩
  rw [(commitment_held_while_running ⟨_, hrun⟩).1 (by decide)]
  decide

end Llamesh.Instance.Process
