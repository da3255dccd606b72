import Llamesh.Library.Run
import Mathlib.Algebra.Group.Nat.Defs

/-!
# Circuit breaker for peer connections

`src/circuit_breaker.rs` and the breaker block of `NodeConfig::validate`
(`src/config.rs:259–297`). Instants and durations are nanoseconds. The `u32`
counters are `UInt32`: the source uses plain `+=`, which wraps in a release
build. One clock reading stands for the readings an operation takes while it
holds the circuits lock.
-/

namespace Llamesh.CircuitBreaker

/-- Circuit breaker states; `opened` is the source's `Open`.
`src/circuit_breaker.rs:20–28`. -/
inductive CircuitState where
  | closed
  | opened
  | halfOpen
  deriving DecidableEq, Repr

/-- Outcome of a dispatch admission check. `src/circuit_breaker.rs:31–43`. -/
inductive DispatchDecision where
  | admitted (probeTicket : Bool)
  | denied
  deriving DecidableEq, Repr

/-- Per-peer circuit state. `src/circuit_breaker.rs:46–63`. -/
structure PeerCircuit where
  state : CircuitState
  failureCount : UInt32
  successCount : UInt32
  lastFailure : Option Nat
  lastStateChange : Nat
  consecutiveOpens : UInt32
  openedAt : Nat
  created : Nat
  lastProbeMs : Nat
  deriving DecidableEq, Repr

/-- The settings of the circuit breaker. `src/circuit_breaker.rs:111–142`. -/
structure CircuitBreakerConfig where
  failureThreshold : UInt32 := 5
  successThreshold : UInt32 := 2
  openDurationBaseMs : UInt64 := 5000
  openDurationMaxMs : UInt64 := 60000
  halfOpenProbeIntervalMs : UInt64 := 1000
  enabled : Bool := true
  deriving DecidableEq, Repr

/-- The circuits map, by peer node id. -/
abbrev Circuits := String → Option PeerCircuit

/-- The breaker checks of `NodeConfig::validate` for a node in cluster mode.
`src/config.rs:259–297`. -/
def validate (cb : CircuitBreakerConfig) : Except String Unit :=
  if cb.enabled then
    if cb.failureThreshold = 0 then
      .error "cluster.circuit_breaker.failure_threshold is 0; the circuit would open without any failures, blocking all traffic to a peer. Set it to at least 1, or disable the circuit breaker."
    else if cb.successThreshold = 0 then
      .error "cluster.circuit_breaker.success_threshold is 0; a half-open circuit would close without a successful recovery probe. Set it to at least 1."
    else if cb.openDurationBaseMs = 0 then
      .error "cluster.circuit_breaker.open_duration_base_ms is 0; the open-state backoff would collapse to zero, so a failing peer is re-probed with no spacing. Set a positive base backoff."
    else if cb.openDurationMaxMs = 0 then
      .error "cluster.circuit_breaker.open_duration_max_ms is 0; a zero cap forces every backoff to zero, so a failing peer is re-probed with no spacing. Set a positive maximum backoff."
    else if cb.openDurationBaseMs > cb.openDurationMaxMs then
      .error s!"cluster.circuit_breaker.open_duration_base_ms ({cb.openDurationBaseMs}) is greater than open_duration_max_ms ({cb.openDurationMaxMs}); the base backoff is immediately capped to the maximum, so the exponential backoff never takes effect. Set base <= max."
    else .ok ()
  else .ok ()

/-- Nanoseconds in a millisecond. -/
def nanosPerMilli : Nat := 1000000

/-- `Duration::as_millis` of a span in nanoseconds, truncated to `u64`. -/
def asMillis (nanos : Nat) : Nat := nanos / nanosPerMilli % 2 ^ 64

/-- `u64::saturating_mul`. -/
def saturatingMul (a b : Nat) : Nat := min (a * b) (2 ^ 64 - 1)

/-- Backoff in milliseconds by consecutive opens. `src/circuit_breaker.rs:515–527`. -/
def calculateBackoff (cfg : CircuitBreakerConfig) (consecutiveOpens : UInt32) : Nat :=
  let exponent := min (consecutiveOpens.toNat - 1) 10
  min (saturatingMul cfg.openDurationBaseMs.toNat (2 ^ exponent)) cfg.openDurationMaxMs.toNat

/-- The backoff as a duration in nanoseconds. -/
def backoffNanos (cfg : CircuitBreakerConfig) (consecutiveOpens : UInt32) : Nat :=
  calculateBackoff cfg consecutiveOpens * nanosPerMilli

namespace PeerCircuit

/-- A fresh circuit. `src/circuit_breaker.rs:65–79`. -/
def fresh (now : Nat) : PeerCircuit where
  state := .closed
  failureCount := 0
  successCount := 0
  lastFailure := none
  lastStateChange := now
  consecutiveOpens := 0
  openedAt := now
  created := now
  lastProbeMs := 0

/-- Forget probe pacing. `src/circuit_breaker.rs:105–107`. -/
def resetProbe (c : PeerCircuit) : PeerCircuit := { c with lastProbeMs := 0 }

/-- Try to claim a recovery probe slot; the compare-and-swap succeeds because the claim is
one step. `src/circuit_breaker.rs:86–102`. -/
def tryClaimProbe (c : PeerCircuit) (now : Nat) (intervalMs : UInt64) : Bool × PeerCircuit :=
  let nowMs := max (asMillis (now - c.created)) 1
  if intervalMs = 0 then (true, { c with lastProbeMs := nowMs })
  else if c.lastProbeMs ≠ 0 ∧ nowMs - c.lastProbeMs < intervalMs.toNat then (false, c)
  else (true, { c with lastProbeMs := nowMs })

/-- Close a recovering circuit; the success count is kept. `src/circuit_breaker.rs:544–557`. -/
def closeAfterRecovery (c : PeerCircuit) (now : Nat) : PeerCircuit :=
  { c with
    state := .closed
    lastStateChange := now
    failureCount := 0
    consecutiveOpens := 0 }.resetProbe

/-- The transition of `record_success` on the peer's circuit, and whether it advanced a
recovery. `src/circuit_breaker.rs:338–385`. -/
def recordSuccess (cfg : CircuitBreakerConfig) (now : Nat) (probeTicket : Bool)
    (c : PeerCircuit) : PeerCircuit × Bool :=
  match c.state with
  | .halfOpen =>
    if !probeTicket then (c, false)
    else
      let c := { c with successCount := c.successCount + 1 }
      if c.successCount ≥ cfg.successThreshold then (c.closeAfterRecovery now, true)
      else (c, false)
  | .closed => ({ c with failureCount := 0 }, false)
  | .opened =>
    if probeTicket then
      let c := { c with lastStateChange := now, successCount := 1 }
      -- Probe pacing persists through the transition to half-open.
      if c.successCount ≥ cfg.successThreshold then (c.closeAfterRecovery now, true)
      else ({ c with state := .halfOpen }, true)
    else (c, false)

/-- The transition of `record_failure` on the peer's circuit.
`src/circuit_breaker.rs:398–496`. -/
def recordFailure (cfg : CircuitBreakerConfig) (now : Nat) (probeTicket : Bool)
    (c : PeerCircuit) : PeerCircuit :=
  let c := { c with failureCount := c.failureCount + 1, lastFailure := some now }
  match c.state with
  | .closed =>
    if c.failureCount ≥ cfg.failureThreshold then
      { c with
        state := .opened
        lastStateChange := now
        openedAt := now
        consecutiveOpens := c.consecutiveOpens + 1
        successCount := 0 }.resetProbe
    else c
  | .halfOpen =>
    if probeTicket then
      { c with
        state := .opened
        lastStateChange := now
        consecutiveOpens := c.consecutiveOpens + 1
        successCount := 0 }.resetProbe
    else c
  | .opened =>
    if probeTicket then
      { c with
        lastStateChange := now
        consecutiveOpens := c.consecutiveOpens + 1
        successCount := 0 }.resetProbe
    else c

end PeerCircuit

/-- `circuits.entry(peer_id).or_default()`. -/
def entry (circuits : Circuits) (peerId : String) (now : Nat) : PeerCircuit :=
  (circuits peerId).getD (PeerCircuit.fresh now)

/-- Whether a peer passes candidate filtering; read-only. `src/circuit_breaker.rs:237–266`. -/
def shouldAllowSync (cfg : CircuitBreakerConfig) (circuits : Circuits) (now : Nat)
    (peerId : String) (contended : Bool) : Bool :=
  if !cfg.enabled || contended then true
  else match circuits peerId with
    | none => true
    | some c =>
      match c.state with
      | .closed => true
      | .halfOpen => true
      | .opened => decide (now - c.lastStateChange ≥ backoffNanos cfg c.consecutiveOpens)

/-- Claim the right to dispatch to a peer; `contended` is a failed `try_read`.
`src/circuit_breaker.rs:278–322`. -/
def tryClaimDispatchSync (cfg : CircuitBreakerConfig) (circuits : Circuits) (now : Nat)
    (peerId : String) (contended : Bool) : DispatchDecision × Circuits :=
  if !cfg.enabled || contended then (.admitted false, circuits)
  else match circuits peerId with
    | none => (.admitted false, circuits)
    | some c =>
      let probe := c.tryClaimProbe now cfg.halfOpenProbeIntervalMs
      match c.state with
      | .closed => (.admitted false, circuits)
      | .halfOpen =>
        (if probe.1 then .admitted true else .denied,
          Function.update circuits peerId (some probe.2))
      | .opened =>
        if now - c.lastStateChange ≥ backoffNanos cfg c.consecutiveOpens then
          (if probe.1 then .admitted true else .denied,
            Function.update circuits peerId (some probe.2))
        else (.denied, circuits)

/-- Record a successful request. `src/circuit_breaker.rs:330–386`. -/
def recordSuccess (cfg : CircuitBreakerConfig) (circuits : Circuits) (now : Nat)
    (peerId : String) (probeTicket : Bool) : Circuits × Bool :=
  if !cfg.enabled then (circuits, false)
  else
    let r := (entry circuits peerId now).recordSuccess cfg now probeTicket
    (Function.update circuits peerId (some r.1), r.2)

/-- Record a failed request. `src/circuit_breaker.rs:390–497`. -/
def recordFailure (cfg : CircuitBreakerConfig) (circuits : Circuits) (now : Nat)
    (peerId : String) (probeTicket : Bool) : Circuits :=
  if !cfg.enabled then circuits
  else Function.update circuits peerId
    (some ((entry circuits peerId now).recordFailure cfg now probeTicket))

/-- Remove the named circuits, returning how many existed. `src/circuit_breaker.rs:561–587`. -/
def forget (circuits : Circuits) : List String → Circuits × Nat
  | [] => (circuits, 0)
  | key :: keys =>
    let rest := forget (Function.update circuits key none) keys
    (rest.1, rest.2 + if (circuits key).isSome then 1 else 0)

/-! ### Runs of the breaker -/

/-- One operation on the breaker. Results carry the ticket their dispatch was given. -/
inductive Op where
  | claim (peerId : String) (contended : Bool)
  | success (peerId : String) (probeTicket : Bool)
  | failure (peerId : String) (probeTicket : Bool)
  | forget (keys : List String)
  deriving DecidableEq, Repr

/-- An operation and the instant it reads while it holds the circuits lock. -/
structure Event where
  now : Nat
  op : Op
  deriving DecidableEq, Repr

/-- The circuits and the latest instant read; the clock is monotonic. -/
structure Breaker where
  circuits : Circuits
  clock : Nat

/-- `CircuitBreaker::new`: no circuit exists yet. -/
def Breaker.init : Breaker := ⟨fun _ => none, 0⟩

/-- The circuits after one operation. -/
def apply (cfg : CircuitBreakerConfig) (circuits : Circuits) (now : Nat) : Op → Circuits
  | .claim p contended => (tryClaimDispatchSync cfg circuits now p contended).2
  | .success p ticket => (recordSuccess cfg circuits now p ticket).1
  | .failure p ticket => recordFailure cfg circuits now p ticket
  | .forget keys => (forget circuits keys).1

/-- An operation is enabled at any instant that is not before the last one. -/
def step (cfg : CircuitBreakerConfig) (s : Breaker) (e : Event) : Option Breaker :=
  if s.clock ≤ e.now then some ⟨apply cfg s.circuits e.now e.op, e.now⟩ else none

/-- What a step does, with its guard. -/
theorem step_eq_some {cfg : CircuitBreakerConfig} {s t : Breaker} {e : Event} :
    step cfg s e = some t ↔ s.clock ≤ e.now ∧ t = ⟨apply cfg s.circuits e.now e.op, e.now⟩ := by
  unfold step
  split
  · next h => simp [h, eq_comm]
  · next h => simp [h]

/-- The checks a validated, enabled configuration has passed. -/
theorem validate_ok {cfg : CircuitBreakerConfig} (hv : validate cfg = .ok ())
    (he : cfg.enabled = true) :
    cfg.failureThreshold ≠ 0 ∧ cfg.successThreshold ≠ 0 ∧ cfg.openDurationBaseMs ≠ 0 ∧
      cfg.openDurationMaxMs ≠ 0 ∧ cfg.openDurationBaseMs ≤ cfg.openDurationMaxMs := by
  unfold validate at hv
  rw [if_pos he] at hv
  split at hv
  · cases hv
  split at hv
  · cases hv
  split at hv
  · cases hv
  split at hv
  · cases hv
  split at hv
  · cases hv
  · next hf hs hb hm hc => exact ⟨hf, hs, hb, hm, UInt64.not_lt.mp hc⟩

end Llamesh.CircuitBreaker
