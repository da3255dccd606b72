import Llamesh.CircuitBreaker.Operations

/-!
# The open window

When a circuit opens or reopens, `record_failure` announces a block for the
backoff now in effect (`src/circuit_breaker.rs:413–420`), and the module header
lets Open become HalfOpen only once that backoff has elapsed. A ticket is not
tied to the window its probe was admitted in, so a probe admitted before a
reopening can still end the new window. This module proves the window for the
runs in which that does not happen and gives a run in which it does.
-/

namespace Llamesh.CircuitBreaker

open Transition

/-- The step from `s` to `t` opened or reopened the circuit of `p`, leaving `c`. -/
def Opens (s t : Breaker) (p : String) (c : PeerCircuit) : Prop :=
  t.circuits p = some c ∧ c.state = .opened ∧ c.lastStateChange = t.clock ∧
    ∀ b, s.circuits p = some b → b.state = .opened → b.consecutiveOpens ≠ c.consecutiveOpens

/-- The end of the window of an open circuit. -/
def windowEnd (cfg : CircuitBreakerConfig) (c : PeerCircuit) : Nat :=
  c.lastStateChange + backoffNanos cfg c.consecutiveOpens

/-- In the run of `evs`, no claim that reads the circuits is admitted inside a window that an
earlier event opened. -/
def OpenWindowKept (cfg : CircuitBreakerConfig) (evs : List Event) : Prop :=
  ∀ pre e mid claim post s t u p c,
    evs = pre ++ e :: (mid ++ claim :: post) →
    exec (step cfg) .init pre = some s → step cfg s e = some t → Opens s t p c →
    exec (step cfg) t mid = some u → u.clock ≤ claim.now →
    claim.op = .claim p false → claim.now < windowEnd cfg c →
    (tryClaimDispatchSync cfg u.circuits claim.now p false).1 = .denied

/-- A ticketed result that ends or restarts an open window wrongly: a success inside the window,
or a failure inside it that overflows the open count. -/
def lateProbeResult (cfg : CircuitBreakerConfig) (s : Breaker) (e : Event) : Bool :=
  match e.op with
  | .success p true => (s.circuits p).any fun c =>
      decide (c.state = .opened) && decide (e.now < windowEnd cfg c)
  | .failure p true => (s.circuits p).any fun c =>
      decide (c.state = .opened) && decide (e.now < windowEnd cfg c) &&
        decide (c.consecutiveOpens = 4294967295)
  | _ => false

/-- The steps of the runs in question: claims and results, none of them a late probe result. -/
def windowStep (cfg : CircuitBreakerConfig) (s : Breaker) (e : Event) : Bool :=
  match e.op with
  | .forget _ => false
  | _ => !lateProbeResult cfg s e

private theorem windowStep_iff {cfg : CircuitBreakerConfig} {s : Breaker} {e : Event} :
    windowStep cfg s e = true ↔
      (∀ keys, e.op ≠ .forget keys) ∧ lateProbeResult cfg s e = false := by
  unfold windowStep
  cases e.op <;> simp

/-- A window of `p` that ends at `limit` is over, or the circuit is open at least until then. -/
private def Blocked (cfg : CircuitBreakerConfig) (p : String) (limit : Nat) (s : Breaker) : Prop :=
  limit ≤ s.clock ∨ ∃ c, s.circuits p = some c ∧ c.state = .opened ∧
    c.lastStateChange ≤ s.clock ∧ limit ≤ windowEnd cfg c

private theorem blocked_success {cfg : CircuitBreakerConfig} {s : Breaker} {e : Event}
    {p : String} {c : PeerCircuit} (ticket : Bool)
    (hl : lateProbeResult cfg s e = false) (ho : e.op = .success p ticket)
    (hc : s.circuits p = some c) (hs : c.state = .opened) (hn : e.now < windowEnd cfg c) :
    ((entry s.circuits p e.now).recordSuccess cfg e.now ticket).1 = c := by
  cases ticket with
  | false => simp [entry, hc, PeerCircuit.recordSuccess, hs]
  | true => simp [lateProbeResult, ho, hc, hs, hn] at hl

private theorem blocked_failure {cfg : CircuitBreakerConfig} {s : Breaker} {e : Event}
    {p : String} {c : PeerCircuit} (ticket : Bool)
    (hl : lateProbeResult cfg s e = false) (ho : e.op = .failure p ticket)
    (hc : s.circuits p = some c) (hs : c.state = .opened) (hle : c.lastStateChange ≤ e.now)
    (hn : e.now < windowEnd cfg c) :
    ∃ d, (entry s.circuits p e.now).recordFailure cfg e.now ticket = d ∧ d.state = .opened ∧
      d.lastStateChange ≤ e.now ∧ windowEnd cfg c ≤ windowEnd cfg d := by
  refine ⟨_, rfl, ?_⟩
  cases ticket with
  | false =>
    simp only [entry, hc, Option.getD_some, PeerCircuit.recordFailure, hs, windowEnd,
      Bool.false_eq_true, if_false]
    exact ⟨trivial, hle, Nat.le_refl _⟩
  | true =>
    have hm : c.consecutiveOpens ≠ 4294967295 := by
      intro he
      simp [lateProbeResult, ho, hc, hs, hn, he] at hl
    have hb := backoffNanos_succ cfg hm
    simp only [entry, hc, Option.getD_some, PeerCircuit.recordFailure, hs, windowEnd, if_true,
      PeerCircuit.resetProbe]
    refine ⟨trivial, Nat.le_refl _, ?_⟩
    omega

private theorem blocked_step {cfg : CircuitBreakerConfig} {s t : Breaker} {e : Event}
    {p : String} {limit : Nat} (hb : Blocked cfg p limit s) (hw : windowStep cfg s e = true)
    (h : step cfg s e = some t) : Blocked cfg p limit t := by
  obtain ⟨hle, htc, heff⟩ := step_effect h p
  rw [windowStep_iff] at hw
  by_cases hlimit : limit ≤ e.now
  · exact .inl (by rw [htc]; exact hlimit)
  right
  rw [htc]
  obtain hdone | ⟨c, hc, hs, hlc, hend⟩ := hb
  · exact absurd (Nat.le_trans hdone hle) hlimit
  have hlc' : c.lastStateChange ≤ e.now := Nat.le_trans hlc hle
  have hn : e.now < windowEnd cfg c := by omega
  -- The circuit is open inside its window, so each effect either keeps or extends it.
  generalize t.circuits p = r at heff
  cases heff with
  | same _ _ => exact ⟨c, hc, hs, hlc', hend⟩
  | probe d contended ms _ hd =>
    obtain rfl : c = d := Option.some.inj (hc.symm.trans hd)
    exact ⟨_, rfl, hs, hlc', hend⟩
  | success ticket ho he =>
    rw [blocked_success ticket hw.2 ho hc hs hn]
    exact ⟨c, rfl, hs, hlc', hend⟩
  | failure ticket ho he =>
    obtain ⟨d, hd, hds, hdl, hde⟩ := blocked_failure ticket hw.2 ho hc hs hlc' hn
    exact ⟨d, congrArg some hd, hds, hdl, Nat.le_trans hend hde⟩
  | forget keys ho hp => exact absurd ho (hw.1 keys)

private theorem enabled_of_opens {cfg : CircuitBreakerConfig} {s t : Breaker} {e : Event}
    {p : String} {c : PeerCircuit} (h : step cfg s e = some t) (ho : Opens s t p c) :
    cfg.enabled = true := by
  obtain ⟨hc, hs, -, hne⟩ := ho
  obtain ⟨-, -, heff⟩ := step_effect h p
  rw [hc] at heff
  generalize hr : some c = r at heff
  cases heff with
  | same _ _ => exact absurd rfl (hne c hr.symm hs)
  | probe d contended ms _ hd =>
    obtain rfl := Option.some.inj hr
    exact absurd rfl (hne d hd hs)
  | success ticket _ he => exact he
  | failure ticket _ he => exact he
  | forget keys _ _ => cases hr

/-- In every run without a late probe result, no claim is admitted inside an open window. -/
theorem openWindowKept_of_no_late_probe (cfg : CircuitBreakerConfig) (evs : List Event)
    (hw : Along (step cfg) (fun s e => windowStep cfg s e = true) .init evs) :
    OpenWindowKept cfg evs := by
  intro pre e mid claim post s t u p c hevs hpre he ho hmid hclock hop hlt
  subst hevs
  have henabled := enabled_of_opens he ho
  have hsuffix := ((along_append hpre).mp hw).2
  have hmidw : Along (step cfg) (fun s e => windowStep cfg s e = true) t mid :=
    ((along_append hmid).mp (hsuffix.2 t he)).1
  have hstart : Blocked cfg p (windowEnd cfg c) t :=
    .inr ⟨c, ho.1, ho.2.1, Nat.le_of_eq ho.2.2.1, Nat.le_refl _⟩
  have hend : Blocked cfg p (windowEnd cfg c) u :=
    exec_invariant_along (fun _ _ _ => blocked_step) hstart hmidw hmid
  obtain hdone | ⟨d, hd, hds, hdl, hde⟩ := hend
  · omega
  · rw [tryClaimDispatchSync_window henabled hd hds (Nat.le_trans hdl hclock)
      (Nat.lt_of_lt_of_le hlt hde)]

/-- A configuration with a short backoff and an unpaced second probe. -/
def quickProbeConfig : CircuitBreakerConfig :=
  { failureThreshold := 1, openDurationBaseMs := 10, halfOpenProbeIntervalMs := 1 }

/-- Two probes are admitted after the first window; one fails and reopens the circuit at 12 ms
until 32 ms, the other then succeeds and a claim follows at 14 ms. -/
def lateSuccessRun : List Event :=
  [⟨0, .failure "peer" false⟩, ⟨10000000, .claim "peer" false⟩, ⟨11000000, .claim "peer" false⟩,
    ⟨12000000, .failure "peer" true⟩, ⟨13000000, .success "peer" true⟩,
    ⟨14000000, .claim "peer" false⟩]

/-- A probe admitted before a reopening ends the window of that reopening. -/
theorem openWindow_ended_by_late_success :
    validate quickProbeConfig = .ok () ∧ ¬ OpenWindowKept quickProbeConfig lateSuccessRun := by
  refine ⟨rfl, fun h => ?_⟩
  have hd := h (lateSuccessRun.take 3) ⟨12000000, .failure "peer" true⟩
    [⟨13000000, .success "peer" true⟩] ⟨14000000, .claim "peer" false⟩ [] _ _ _ "peer" _ rfl rfl rfl
    ⟨rfl, rfl, rfl, ?_⟩ rfl (by decide) rfl (by decide)
  · revert hd
    decide
  · intro b hb _
    obtain rfl := Option.some.inj hb
    decide

/-- The theorem applies to a run with claims, a reopening and late ticketless results. -/
theorem openWindowKept_reopening_run :
    OpenWindowKept quickProbeConfig [⟨0, .failure "peer" false⟩, ⟨10000000, .claim "peer" false⟩,
      ⟨12000000, .failure "peer" true⟩, ⟨13000000, .success "peer" false⟩,
      ⟨14000000, .claim "peer" false⟩] := by
  apply openWindowKept_of_no_late_probe
  apply along_of_checkAlong
  decide

end Llamesh.CircuitBreaker
