import Llamesh.Library.Run
import Llamesh.Library.Table

/-!
# The wedge watchdog

The detector's decision on one activity sample (`src/wedge_detector.rs`) and the watchdog that takes
the samples tick after tick and stops an instance once it has looked wedged for the whole window
(`src/node_state/mod.rs:4132–4340`, the only task that runs it is at `src/main.rs:502–522`). A tick
reads the instances one by one under the read side of the map lock, samples CPU and GPU with no lock
held, decides under the leaf lock of its own state, and then verifies and removes each victim under
the write side. Other tasks change the instances at any point in between.

What `/proc` and NVML answer is free at each tick. The CPU rate is computed in any number type with
the operations of `f64`.
-/

namespace Llamesh.Wedge

open Transition

/-! ### The decision on one sample -/

/-- `CPU_EPS_CORES`. -/
def cpuEpsCores (F : Type) [OfScientific F] : F := 0.02

/-- `GPU_EPS_UTIL`. -/
def gpuEpsUtil : Nat := 1

/-- One activity sample of an instance, with the thresholds to judge it. -/
structure WedgeInputs (F : Type) where
  inFlight : Nat
  awaitingDownstream : Nat
  cpuBusyCores : Option F
  gpuSmUtil : Option Nat
  gpuPresent : Bool
  cpuOnly : Bool
  gpuUtilTrusted : Bool
  cpuEpsCores : F
  gpuEpsUtil : Nat

/-- `WedgeVerdict`. -/
inductive WedgeVerdict where
  | notWedged
  | wedgedThisTick
  deriving DecidableEq, Repr

variable {F : Type} [LT F] [DecidableLT F]

/-- Whether an instance looks wedged in a single sample. `src/wedge_detector.rs:83–141`. -/
def evaluateWedge (i : WedgeInputs F) : WedgeVerdict :=
  if i.inFlight ≤ i.awaitingDownstream then .notWedged
  else
    match i.cpuBusyCores with
    | none => .notWedged
    | some cpu =>
      if i.cpuEpsCores < cpu then .notWedged
      else
        match i.gpuSmUtil with
        | some util => if util ≤ i.gpuEpsUtil then .wedgedThisTick else .notWedged
        | none =>
          if i.gpuPresent then
            if i.gpuUtilTrusted then .wedgedThisTick else .notWedged
          else if i.cpuOnly then .wedgedThisTick
          else .notWedged

/-- An instance that looks wedged has a request that waits on it, and its CPU was readable. -/
theorem evaluateWedge_eq_wedged {i : WedgeInputs F} (h : evaluateWedge i = .wedgedThisTick) :
    i.awaitingDownstream < i.inFlight ∧ ∃ cpu, i.cpuBusyCores = some cpu := by
  unfold evaluateWedge at h
  split at h
  · cases h
  · next hheld =>
    refine ⟨Nat.lt_of_not_le hheld, ?_⟩
    cases hcpu : i.cpuBusyCores with
    | none =>
      rw [hcpu] at h
      cases h
    | some cpu => exact ⟨cpu, rfl⟩

variable [LE F] [DecidableLE F] [NatCast F] [Add F] [Mul F] [Div F] [OfScientific F]

/-- `Duration::as_secs_f64` of a number of nanoseconds. -/
def asSecsF64 (nanos : Nat) : F :=
  ((nanos / 1000000000 : Nat) : F) + ((nanos % 1000000000 : Nat) : F) / ((1000000000 : Nat) : F)

/-- Busy cores between two readings of the cumulative ticks. `src/wedge_detector.rs:149–160`. -/
def cpuBusyCores (busyNow busyPrev ticksPerSec : Nat) (intervalSecs : F) : F :=
  if ticksPerSec = 0 ∨ intervalSecs ≤ ((0 : Nat) : F) then ((0 : Nat) : F)
  else ((busyNow - busyPrev : Nat) : F) / ((ticksPerSec : F) * intervalSecs)

/-! ### The state -/

variable {ι : Type} [DecidableEq ι]

/-- What the watchdog reads of an instance. Instants are nanoseconds. -/
structure Instance where
  pid : Option Nat
  ready : Bool
  inFlightRequests : Nat
  streamsAwaitingDownstream : Nat
  lastActivity : Nat
  deriving DecidableEq, Repr

/-- A candidate of a tick, as it was read. -/
structure Candidate (ι : Type) where
  id : ι
  pid : Nat
  inFlight : Nat
  awaitingDownstream : Nat
  lastActivity : Nat
  deriving DecidableEq, Repr

/-- `InstanceWedgeState`. -/
structure InstanceWedgeState where
  pid : Nat
  prevBusyTicks : Nat
  prevSampleAt : Nat
  wedgedSince : Option Nat
  deriving DecidableEq, Repr

/-- `WedgeDetectorState`. -/
structure WedgeDetectorState (ι : Type) where
  perInstance : Table ι InstanceWedgeState
  gpuLastSeenTs : Option Nat
  gpuUtilTrusted : Bool

/-- An entry of `to_kill`. -/
structure Order (ι : Type) where
  id : ι
  pid : Nat
  wedgedFor : Nat
  sampledLastActivity : Nat
  deriving DecidableEq, Repr

/-- What the samplers answer in one tick: whether there is a GPU, the cumulative CPU ticks of each
candidate whose process could be read, and the GPU sweep. -/
structure Samples (ι : Type) where
  gpuPresent : Bool
  cpuNow : ι → Option Nat
  gpuUtil : Table Nat Nat
  gpuNewTs : Option Nat
  gpuUsable : Bool

/-- The configuration the watchdog reads, and the clock ticks of the system. -/
structure Config where
  windowMs : Nat
  cpuOnly : Bool
  ticksPerSec : Nat
  deriving DecidableEq, Repr

/-- `Duration::from_millis(window_ms)`. -/
def Config.window (cfg : Config) : Nat := cfg.windowMs * 1000000

/-- One candidate as a tick judged it. -/
structure Judgement (ι : Type) where
  candidate : Candidate ι
  busyNow : Option Nat
  verdict : WedgeVerdict
  deriving DecidableEq, Repr

/-- One tick: its instant and its judgements. -/
structure Tick (ι : Type) where
  now : Nat
  judged : List (Judgement ι)
  deriving DecidableEq, Repr

/-- A stop: the order, what was verified under the lock, and the ticks until then, newest first. -/
structure Stop (ι : Type) where
  order : Order ι
  seen : Instance
  ticks : List (Tick ι)
  deriving DecidableEq, Repr

/-- Where the watchdog's task is. -/
inductive Phase (ι : Type) where
  | idle
  | snapshot (todo : List ι) (candidates : List (Candidate ι))
  | sampling (candidates : List (Candidate ι))
  | killing (orders : List (Order ι))
  | removing (order : Order ι) (seen : Instance) (orders : List (Order ι))

/-- The task has the map lock. -/
def Phase.locked : Phase ι → Bool
  | .snapshot _ _ | .removing _ _ _ => true
  | .idle | .sampling _ | .killing _ => false

/-- The node as the watchdog sees it, with the ticks and stops so far, newest first. -/
structure State (ι : Type) where
  now : Nat
  instances : Table ι Instance
  detector : WedgeDetectorState ι
  phase : Phase ι
  ticks : List (Tick ι)
  stops : List (Stop ι)

/-- Startup. -/
def State.init : State ι := ⟨0, ∅, ⟨∅, none, false⟩, .idle, [], []⟩

/-! ### A tick -/

/-- An instance as a candidate: one that is ready, holds a slot and has a process.
`src/node_state/mod.rs:4136–4160`. -/
def candidateOf (id : ι) (inst : Instance) : Option (Candidate ι) :=
  if inst.inFlightRequests = 0 ∨ inst.ready = false then none
  else inst.pid.map fun pid =>
    ⟨id, pid, inst.inFlightRequests, inst.streamsAwaitingDownstream, inst.lastActivity⟩

variable (F) in
/-- The CPU rate against the previous sample of this very process.
`src/node_state/mod.rs:4211–4225`. -/
def cpuBusy (cfg : Config) (now pid : Nat) :
    Option InstanceWedgeState → Option Nat → Option F
  | some prev, some busy =>
    if prev.pid = pid then
      some (cpuBusyCores busy prev.prevBusyTicks cfg.ticksPerSec
        (asSecsF64 (now - prev.prevSampleAt)))
    else none
  | _, _ => none

variable (F) in
/-- The inputs of the decision. `src/node_state/mod.rs:4227–4243`. -/
def wedgeInputs (cfg : Config) (samples : Samples ι) (trusted : Bool) (now : Nat)
    (prev : Option InstanceWedgeState) (c : Candidate ι) : WedgeInputs F where
  inFlight := c.inFlight
  awaitingDownstream := c.awaitingDownstream
  cpuBusyCores := cpuBusy F cfg now c.pid prev (samples.cpuNow c.id)
  gpuSmUtil := if samples.gpuUsable then samples.gpuUtil.lookup c.pid else none
  gpuPresent := samples.gpuPresent
  cpuOnly := cfg.cpuOnly
  gpuUtilTrusted := trusted
  cpuEpsCores := Wedge.cpuEpsCores F
  gpuEpsUtil := Wedge.gpuEpsUtil

/-- The entry of a candidate, inserted at its first observation and reset on a respawn.
`src/node_state/mod.rs:4245–4258`. -/
def entryFor (now : Nat) (prev : Option InstanceWedgeState) (busyNow : Option Nat) (pid : Nat) :
    InstanceWedgeState :=
  let st := prev.getD ⟨pid, busyNow.getD 0, now, none⟩
  if st.pid ≠ pid then { st with pid := pid, wedgedSince := none } else st

/-- The streak after the verdict. `src/node_state/mod.rs:4260–4271`. -/
def since (now : Nat) (st : InstanceWedgeState) : WedgeVerdict → Option Nat
  | .wedgedThisTick => some (st.wedgedSince.getD now)
  | .notWedged => none

/-- Advance the CPU baseline, when the CPU was readable. `src/node_state/mod.rs:4274–4277`. -/
def InstanceWedgeState.advance (st : InstanceWedgeState) (now : Nat) :
    Option Nat → InstanceWedgeState
  | none => st
  | some busy => { st with prevBusyTicks := busy, prevSampleAt := now }

/-- The state of the loop over the candidates: the bookkeeping, the judgements, newest first, and
the orders in their order. -/
structure Loop (ι : Type) where
  perInstance : Table ι InstanceWedgeState
  judged : List (Judgement ι)
  toKill : List (Order ι)

variable (F) in
/-- The verdict on a candidate. -/
def verdictOf (cfg : Config) (samples : Samples ι) (trusted : Bool) (now : Nat)
    (table : Table ι InstanceWedgeState) (c : Candidate ι) : WedgeVerdict :=
  evaluateWedge (wedgeInputs F cfg samples trusted now (table.lookup c.id) c)

variable (F) in
/-- The body of the loop. `src/node_state/mod.rs:4208–4278`. -/
def judge (cfg : Config) (samples : Samples ι) (trusted : Bool) (now : Nat) (loop : Loop ι)
    (c : Candidate ι) : Loop ι :=
  let busyNow := samples.cpuNow c.id
  let verdict := verdictOf F cfg samples trusted now loop.perInstance c
  let st := entryFor now (loop.perInstance.lookup c.id) busyNow c.pid
  let wedgedSince := since now st verdict
  let wedgedFor := now - wedgedSince.getD now
  { perInstance :=
      loop.perInstance.insert c.id ({ st with wedgedSince := wedgedSince }.advance now busyNow)
    judged := ⟨c, busyNow, verdict⟩ :: loop.judged
    toKill :=
      if verdict = .wedgedThisTick ∧ cfg.window ≤ wedgedFor then
        loop.toKill ++ [⟨c.id, c.pid, wedgedFor, c.lastActivity⟩]
      else loop.toKill }

/-- The latch: some process reported a GPU utilization above the threshold. -/
def latch (d : WedgeDetectorState ι) (samples : Samples ι) : Bool :=
  d.gpuUtilTrusted || samples.gpuUtil.entries.any fun e => decide (gpuEpsUtil < e.2)

variable (F) in
/-- The loop over the candidates, from the bookkeeping of the instances that still hold a slot. -/
def judgeAll (cfg : Config) (samples : Samples ι) (now : Nat) (d : WedgeDetectorState ι)
    (candidates : List (Candidate ι)) : Loop ι :=
  let live := d.perInstance.retain (candidates.map (·.id))
  candidates.foldl (judge F cfg samples (latch d samples && samples.gpuUsable) now) ⟨live, [], []⟩

variable (F) in
/-- The decision of a tick, under the leaf lock. `src/node_state/mod.rs:4183–4280`. -/
def State.decided (s : State ι) (cfg : Config) (samples : Samples ι)
    (candidates : List (Candidate ι)) : State ι :=
  let loop := judgeAll F cfg samples s.now s.detector candidates
  { s with
    detector :=
      ⟨loop.perInstance, samples.gpuNewTs.or s.detector.gpuLastSeenTs, latch s.detector samples⟩
    phase := .killing loop.toKill
    ticks := ⟨s.now, loop.judged⟩ :: s.ticks }

/-- `still_wedged`, under the write side of the map lock. `src/node_state/mod.rs:4312–4315`. -/
def stillWedged (o : Order ι) (inst : Instance) : Bool :=
  decide (inst.streamsAwaitingDownstream < inst.inFlightRequests) &&
    decide (inst.pid = some o.pid) && decide (inst.lastActivity = o.sampledLastActivity)

/-- The steps. The last four are those of other tasks: time passes, a request, a stream, the process
or its readiness changes an instance, or an instance comes into the map or leaves it. -/
inductive Label (ι : Type) where
  | beginTick (ids : List ι)
  | read
  | endSnapshot
  | decide (samples : Samples ι)
  | recheck
  | remove
  | endTick
  | elapse (nanos : Nat)
  | change (id : ι) (inst : Instance)
  | insert (id : ι) (inst : Instance)
  | unmap (id : ι)

variable (F) in
/-- One step. `beginTick` takes the map lock with the ids in the order of the iteration. -/
def step (cfg : Config) (s : State ι) : Label ι → Option (State ι)
  | .beginTick ids =>
    match s.phase with
    | .idle => guarded (ids.Perm s.instances.keys) { s with phase := .snapshot ids [] }
    | _ => none
  | .read =>
    match s.phase with
    | .snapshot (id :: todo) candidates =>
      let found := (s.instances.lookup id).bind (candidateOf id)
      some { s with phase := .snapshot todo (candidates ++ found.toList) }
    | _ => none
  | .endSnapshot =>
    match s.phase with
    | .snapshot [] candidates => some { s with phase := .sampling candidates }
    | _ => none
  | .decide samples =>
    match s.phase with
    | .sampling candidates => some (s.decided F cfg samples candidates)
    | _ => none
  | .recheck =>
    match s.phase with
    | .killing (o :: orders) =>
      match s.instances.lookup o.id with
      | none => some { s with phase := .killing orders }
      | some inst =>
        if stillWedged o inst then some { s with phase := .removing o inst orders }
        else some { s with phase := .killing orders }
    | _ => none
  | .remove =>
    match s.phase with
    | .removing o seen orders =>
      some { s with
        instances := s.instances.erase o.id
        phase := .killing orders
        stops := ⟨o, seen, s.ticks⟩ :: s.stops }
    | _ => none
  | .endTick =>
    match s.phase with
    | .killing [] => some { s with phase := .idle }
    | _ => none
  | .elapse nanos => some { s with now := s.now + nanos }
  | .change id inst => some { s with instances := s.instances.modify id fun _ => inst }
  | .insert id inst =>
    guarded (s.phase.locked = false) { s with instances := s.instances.insert id inst }
  | .unmap id => guarded (s.phase.locked = false) { s with instances := s.instances.erase id }

end Llamesh.Wedge
