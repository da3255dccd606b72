/-!
# Drain flags of an instance

`draining` and `draining_for_competitor` of `src/instance.rs:601–606`. An
instance that drains takes no new request. A drain for a competing model can be
cancelled; a forced drain (binary update, cookbook reload) never is.
-/

namespace Llamesh

/-- The two drain flags. `src/instance.rs:601–606`. -/
structure DrainFlags where
  draining : Bool := false
  drainingForCompetitor : Bool := false
  deriving DecidableEq, Repr

namespace DrainFlags

/-- `already_forced` of the reload pass. `src/node_state/mod.rs:796–797`. -/
def forced (d : DrainFlags) : Bool := d.draining && !d.drainingForCompetitor

/-- A mandatory drain for a binary update; the competitor flag is cleared first.
`src/node_state/mod.rs:1668–1674`. -/
def drainForBinaryUpdate (d : DrainFlags) : DrainFlags :=
  let d := { d with drainingForCompetitor := false }
  if !d.draining then { d with draining := true } else d

/-- A mandatory drain of an instance that no longer matches the cookbook.
`src/node_state/mod.rs:825–826`. -/
def drainOrphaned (_ : DrainFlags) : DrainFlags :=
  { draining := true, drainingForCompetitor := false }

/-- The scheduler's drain for a competing model. `src/router.rs:1527–1532`. -/
def drainForCompetitor (d : DrainFlags) : DrainFlags :=
  if !d.draining then { draining := true, drainingForCompetitor := true } else d

/-- Cancel the scheduler's drain. `src/node_state/mod.rs:3918–3927`. -/
def cancelDrain (d : DrainFlags) : DrainFlags :=
  if !d.drainingForCompetitor then d
  else { draining := false, drainingForCompetitor := false }

/-- A drain for a new binary is forced. -/
@[simp] theorem forced_drainForBinaryUpdate (d : DrainFlags) :
    d.drainForBinaryUpdate.forced = true := by
  rcases d with ⟨_ | _, _ | _⟩ <;> rfl

/-- A drain of an orphaned instance is forced. -/
@[simp] theorem forced_drainOrphaned (d : DrainFlags) : d.drainOrphaned.forced = true := rfl

/-- A forced drain is not taken over by the scheduler. -/
theorem forced_of_forced_drainForCompetitor {d : DrainFlags}
    (h : d.drainForCompetitor.forced = false) : d.forced = false := by
  rcases d with ⟨_ | _, _ | _⟩ <;> simp_all [forced, drainForCompetitor]

/-- A forced drain is not cancelled. -/
theorem forced_of_forced_cancelDrain {d : DrainFlags} (h : d.cancelDrain.forced = false) :
    d.forced = false := by
  rcases d with ⟨_ | _, _ | _⟩ <;> simp_all [forced, cancelDrain]

/-- An instance that does not drain is not forced to. -/
theorem forced_of_not_draining {d : DrainFlags} (h : d.draining = false) : d.forced = false := by
  simp [forced, h]

end DrainFlags

end Llamesh
