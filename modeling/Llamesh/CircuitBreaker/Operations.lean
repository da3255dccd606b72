import Llamesh.CircuitBreaker.Model
import Mathlib.Data.List.Basic

/-!
# What one breaker operation can do

Frame lemmas for the operations and one inversion of a step, seen from a single
peer's circuit. The invariants and the open window are derived from it without
unfolding the operations again.
-/

namespace Llamesh.CircuitBreaker

open Transition

/-! ### Frame lemmas for single operations -/

/-- Probe pacing is all a probe claim can change. -/
theorem PeerCircuit.tryClaimProbe_eq (c : PeerCircuit) (now : Nat) (interval : UInt64) :
    (c.tryClaimProbe now interval).2 =
      { c with lastProbeMs := (c.tryClaimProbe now interval).2.lastProbeMs } := by
  unfold PeerCircuit.tryClaimProbe
  dsimp only
  split
  · rfl
  · split <;> rfl

/-- A claim inside the open window is denied and changes nothing. -/
theorem tryClaimDispatchSync_window {cfg : CircuitBreakerConfig} {circuits : Circuits}
    {now : Nat} {p : String} {c : PeerCircuit} (he : cfg.enabled = true)
    (hc : circuits p = some c) (hs : c.state = .opened) (hl : c.lastStateChange ≤ now)
    (hw : now < c.lastStateChange + backoffNanos cfg c.consecutiveOpens) :
    tryClaimDispatchSync cfg circuits now p false = (.denied, circuits) := by
  have hn : ¬ now - c.lastStateChange ≥ backoffNanos cfg c.consecutiveOpens := by omega
  simp [tryClaimDispatchSync, he, hc, hs, hn]

/-- A claim changes at most the probe pacing of the peer it names. -/
theorem tryClaimDispatchSync_circuits (cfg : CircuitBreakerConfig) (circuits : Circuits)
    (now : Nat) (p : String) (contended : Bool) :
    (tryClaimDispatchSync cfg circuits now p contended).2 = circuits ∨
      ∃ c ms, circuits p = some c ∧ (tryClaimDispatchSync cfg circuits now p contended).2 =
        Function.update circuits p (some { c with lastProbeMs := ms }) := by
  have hprobe (c : PeerCircuit) : ∃ ms, Function.update circuits p
      (some (c.tryClaimProbe now cfg.halfOpenProbeIntervalMs).2) =
        Function.update circuits p (some { c with lastProbeMs := ms }) :=
    ⟨_, by rw [PeerCircuit.tryClaimProbe_eq]⟩
  unfold tryClaimDispatchSync
  split
  · exact .inl rfl
  split
  · exact .inl rfl
  · next c hc =>
    obtain ⟨ms, hms⟩ := hprobe c
    dsimp only
    split
    · exact .inl rfl
    · exact .inr ⟨c, ms, hc, hms⟩
    · split
      · exact .inr ⟨c, ms, hc, hms⟩
      · exact .inl rfl

/-- A denied claim changes nothing. -/
theorem tryClaimDispatchSync_denied {cfg : CircuitBreakerConfig} {circuits : Circuits}
    {now : Nat} {p : String} {contended : Bool}
    (h : (tryClaimDispatchSync cfg circuits now p contended).1 = .denied) :
    (tryClaimDispatchSync cfg circuits now p contended).2 = circuits := by
  -- a probe that is not claimed leaves the circuit, and so its own entry
  have hprobe : ∀ c, circuits p = some c →
      (if (c.tryClaimProbe now cfg.halfOpenProbeIntervalMs).1 then DispatchDecision.admitted true
        else .denied) = .denied →
      Function.update circuits p (some (c.tryClaimProbe now cfg.halfOpenProbeIntervalMs).2) =
        circuits := by
    intro c hc hdenied
    have hkept : (c.tryClaimProbe now cfg.halfOpenProbeIntervalMs).2 = c := by
      unfold PeerCircuit.tryClaimProbe at hdenied ⊢
      dsimp only at hdenied ⊢
      split at hdenied
      · simp at hdenied
      · next hinterval =>
        rw [if_neg hinterval]
        split at hdenied
        · next htaken => rw [if_pos htaken]
        · simp at hdenied
    rw [hkept, ← hc, Function.update_eq_self]
  unfold tryClaimDispatchSync at h ⊢
  split at h
  · cases h
  · next hon =>
    rw [if_neg hon]
    split at h
    · cases h
    · next c hc =>
      dsimp only at h ⊢
      split at h
      · cases h
      · exact hprobe c hc h
      · split at h
        · next hbackoff =>
          rw [if_pos hbackoff]
          exact hprobe c hc h
        · next hbackoff => rw [if_neg hbackoff]

/-- Forgetting leaves a circuit as it was or removes it. -/
theorem forget_circuits (circuits : Circuits) (keys : List String) (p : String) :
    (forget circuits keys).1 p = if p ∈ keys then none else circuits p := by
  induction keys generalizing circuits with
  | nil => simp [forget]
  | cons key keys ih =>
    simp only [forget, ih, List.mem_cons]
    by_cases hp : p = key
    · subst p
      simp
    · simp [hp]

/-! ### The backoff does not shrink -/

/-- Below the `u32` maximum the next open count is the successor. -/
theorem toNat_succ {n : UInt32} (h : n ≠ 4294967295) : (n + 1).toNat = n.toNat + 1 := by
  have hn : n.toNat ≠ 4294967295 := fun he => h (UInt32.toNat_inj.mp he)
  have hlt := n.toNat_lt
  rw [UInt32.toNat_add]
  simp only [UInt32.reduceToNat]
  omega

/-- The backoff is monotone in the open count. -/
theorem calculateBackoff_mono (cfg : CircuitBreakerConfig) {m n : UInt32}
    (h : m.toNat ≤ n.toNat) : calculateBackoff cfg m ≤ calculateBackoff cfg n := by
  have he : min (m.toNat - 1) 10 ≤ min (n.toNat - 1) 10 := by omega
  have hp : 2 ^ min (m.toNat - 1) 10 ≤ 2 ^ min (n.toNat - 1) 10 :=
    Nat.pow_le_pow_right (by decide) he
  have hm := Nat.mul_le_mul_left cfg.openDurationBaseMs.toNat hp
  simp only [calculateBackoff, saturatingMul]
  omega

/-- Where the multiplication saturates, the configured maximum caps it anyway. -/
theorem calculateBackoff_eq (cfg : CircuitBreakerConfig) (n : UInt32) :
    calculateBackoff cfg n =
      min (cfg.openDurationBaseMs.toNat * 2 ^ min (n.toNat - 1) 10)
        cfg.openDurationMaxMs.toNat := by
  have hmax := cfg.openDurationMaxMs.toNat_lt
  simp only [calculateBackoff, saturatingMul]
  omega

/-- The backoff is the base doubled with every further open, ten times at most, and capped at the
maximum. The power fits into 64 bits and so does the backoff, which grows with the open count
between the smaller of base and maximum and the maximum. -/
theorem calculateBackoff_exact (cfg : CircuitBreakerConfig) (n : UInt32) :
    calculateBackoff cfg n =
        min (cfg.openDurationBaseMs.toNat * 2 ^ min (n.toNat - 1) 10)
          cfg.openDurationMaxMs.toNat ∧
      2 ^ min (n.toNat - 1) 10 < 2 ^ 64 ∧ calculateBackoff cfg n < 2 ^ 64 ∧
      (∀ m : UInt32, n ≤ m → calculateBackoff cfg n ≤ calculateBackoff cfg m) ∧
      min cfg.openDurationBaseMs.toNat cfg.openDurationMaxMs.toNat ≤ calculateBackoff cfg n ∧
      calculateBackoff cfg n ≤ cfg.openDurationMaxMs.toNat := by
  have hmax := cfg.openDurationMaxMs.toNat_lt
  have hpow : 2 ^ min (n.toNat - 1) 10 ≤ 2 ^ 10 :=
    Nat.pow_le_pow_right (by decide) (Nat.min_le_right _ _)
  have hgrown : cfg.openDurationBaseMs.toNat ≤
      cfg.openDurationBaseMs.toNat * 2 ^ min (n.toNat - 1) 10 :=
    Nat.le_mul_of_pos_right _ (Nat.two_pow_pos _)
  have heq := calculateBackoff_eq cfg n
  refine ⟨heq, by omega, by omega, ?_, by omega, by omega⟩
  intro m hm
  exact calculateBackoff_mono cfg (UInt32.le_iff_toNat_le.mp hm)

/-- A further open without overflow never shortens the backoff. -/
theorem backoffNanos_succ (cfg : CircuitBreakerConfig) {n : UInt32} (h : n ≠ 4294967295) :
    backoffNanos cfg n ≤ backoffNanos cfg (n + 1) :=
  Nat.mul_le_mul_right _ (calculateBackoff_mono cfg (by rw [toNat_succ h]; omega))

/-! ### One step, seen from one peer -/

/-- Everything a step can do to the circuit of `p`. -/
inductive Effect (cfg : CircuitBreakerConfig) (s : Breaker) (e : Event) (p : String) :
    Option PeerCircuit → Prop where
  | same (hs : ∀ ticket, e.op = .success p ticket → cfg.enabled = false)
      (hf : ∀ ticket, e.op = .failure p ticket → cfg.enabled = false) :
      Effect cfg s e p (s.circuits p)
  | probe (c : PeerCircuit) (contended : Bool) (ms : Nat) (ho : e.op = .claim p contended)
      (hc : s.circuits p = some c) : Effect cfg s e p (some { c with lastProbeMs := ms })
  | success (ticket : Bool) (ho : e.op = .success p ticket) (he : cfg.enabled = true) :
      Effect cfg s e p (some ((entry s.circuits p e.now).recordSuccess cfg e.now ticket).1)
  | failure (ticket : Bool) (ho : e.op = .failure p ticket) (he : cfg.enabled = true) :
      Effect cfg s e p (some ((entry s.circuits p e.now).recordFailure cfg e.now ticket))
  | forget (keys : List String) (ho : e.op = .forget keys) (hp : p ∈ keys) : Effect cfg s e p none

/-- The inversion of a step: its effect on each circuit, and the clock it leaves. -/
theorem step_effect {cfg : CircuitBreakerConfig} {s t : Breaker} {e : Event}
    (h : step cfg s e = some t) (p : String) :
    s.clock ≤ e.now ∧ t.clock = e.now ∧ Effect cfg s e p (t.circuits p) := by
  obtain ⟨hclock, rfl⟩ := step_eq_some.mp h
  refine ⟨hclock, rfl, ?_⟩
  rcases e with ⟨now, op⟩
  cases op with
  | claim q contended =>
    have hsame : Effect cfg s ⟨now, .claim q contended⟩ p (s.circuits p) :=
      .same (by simp) (by simp)
    simp only [apply]
    rcases tryClaimDispatchSync_circuits cfg s.circuits now q contended with h | ⟨c, ms, hc, h⟩
    · rw [h]
      exact hsame
    · rw [h]
      by_cases hp : p = q
      · subst q
        rw [Function.update_self]
        exact .probe c contended ms rfl hc
      · rw [Function.update_of_ne hp]
        exact hsame
  | success q ticket =>
    simp only [apply, recordSuccess]
    split
    · next he => exact .same (fun _ _ => by simpa using he) (fun _ _ => by simpa using he)
    · next he =>
      by_cases hp : p = q
      · subst q
        simp only [Function.update_self]
        exact .success ticket rfl (by simpa using he)
      · simp only [Function.update_of_ne hp]
        exact .same (by simp [Ne.symm hp]) (by simp)
  | failure q ticket =>
    simp only [apply, recordFailure]
    split
    · next he => exact .same (fun _ _ => by simpa using he) (fun _ _ => by simpa using he)
    · next he =>
      by_cases hp : p = q
      · subst q
        simp only [Function.update_self]
        exact .failure ticket rfl (by simpa using he)
      · simp only [Function.update_of_ne hp]
        exact .same (by simp) (by simp [Ne.symm hp])
  | forget keys =>
    simp only [apply, forget_circuits]
    split
    · next hp => exact .forget keys rfl hp
    · exact .same (by simp) (by simp)

end Llamesh.CircuitBreaker
