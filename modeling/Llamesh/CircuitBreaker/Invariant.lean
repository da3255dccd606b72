import Llamesh.CircuitBreaker.Window
import Mathlib.Data.List.Count

/-!
# Reachable states and ticket attribution

The state of a circuit and its counters agree in every reachable state, results
without a ticket do not drive recovery, and a circuit closes only through the
ticketed successes recorded since it last opened. The open count is a wrapping
`u32`, so the results hold for runs that do not reopen a circuit at its maximum;
`src/circuit_breaker.rs:444,473` increment it without a check.
-/

namespace Llamesh.CircuitBreaker

open Transition

/-- A ticketed failure that reopens a circuit at the largest open count. -/
def overflowingReopen (s : Breaker) (e : Event) : Bool :=
  match e.op with
  | .failure p true => (s.circuits p).any fun c =>
      decide (c.state ≠ .closed) && decide (c.consecutiveOpens = 4294967295)
  | _ => false

/-- The steps of runs in which no open count overflows. -/
def countedStep (s : Breaker) (e : Event) : Bool := !overflowingReopen s e

/-- A circuit's state agrees with its counters. -/
structure PeerCircuit.Consistent (cfg : CircuitBreakerConfig) (c : PeerCircuit) : Prop where
  closed_iff : c.state = .closed ↔ c.consecutiveOpens = 0
  failures : c.state = .closed → c.failureCount < cfg.failureThreshold
  successes : c.state = .halfOpen → c.successCount < cfg.successThreshold
  opened : c.state = .opened → c.successCount = 0

/-- Every circuit of the breaker is consistent, and none exists while it is disabled. -/
def Consistent (cfg : CircuitBreakerConfig) (s : Breaker) : Prop :=
  (cfg.enabled = false → ∀ p, s.circuits p = none) ∧
    ∀ p c, s.circuits p = some c → c.Consistent cfg

private theorem succ_ne_zero {n : UInt32} (h : n ≠ 4294967295) : n + 1 ≠ 0 := by
  intro hz
  have hn := toNat_succ h
  rw [hz] at hn
  simp at hn

private theorem succ_le_of_lt {m n : UInt32} (h : m < n) : (m + 1).toNat = m.toNat + 1 := by
  apply toNat_succ
  intro he
  subst he
  have hn := n.toNat_lt
  rw [UInt32.lt_iff_toNat_lt] at h
  simp only [UInt32.reduceToNat] at h
  omega

private theorem consistent_fresh {cfg : CircuitBreakerConfig} (hv : validate cfg = .ok ())
    (he : cfg.enabled = true) (now : Nat) : (PeerCircuit.fresh now).Consistent cfg := by
  have hf := (validate_ok hv he).1
  refine ⟨by simp [PeerCircuit.fresh], fun _ => ?_, by simp [PeerCircuit.fresh],
    by simp [PeerCircuit.fresh]⟩
  exact UInt32.pos_iff_ne_zero.mpr hf

private theorem consistent_entry {cfg : CircuitBreakerConfig} (hv : validate cfg = .ok ())
    (he : cfg.enabled = true) {s : Breaker} (hs : Consistent cfg s) (p : String) (now : Nat) :
    (entry s.circuits p now).Consistent cfg := by
  unfold entry
  cases hc : s.circuits p with
  | none => exact consistent_fresh hv he now
  | some c => exact hs.2 p c hc

private theorem consistent_closeAfterRecovery {cfg : CircuitBreakerConfig}
    (hf : 0 < cfg.failureThreshold) (c : PeerCircuit) (now : Nat) :
    (c.closeAfterRecovery now).Consistent cfg :=
  ⟨by simp [PeerCircuit.closeAfterRecovery, PeerCircuit.resetProbe], fun _ => hf,
    by simp [PeerCircuit.closeAfterRecovery, PeerCircuit.resetProbe],
    by simp [PeerCircuit.closeAfterRecovery, PeerCircuit.resetProbe]⟩

/-- Recording a success keeps a circuit consistent. -/
theorem PeerCircuit.Consistent.recordSuccess {cfg : CircuitBreakerConfig}
    (hv : validate cfg = .ok ()) (he : cfg.enabled = true) {c : PeerCircuit}
    (hc : c.Consistent cfg) (now : Nat) (ticket : Bool) :
    (c.recordSuccess cfg now ticket).1.Consistent cfg := by
  have hf := UInt32.pos_iff_ne_zero.mpr (validate_ok hv he).1
  obtain ⟨hiff, hfail, hsucc, hzero⟩ := hc
  cases hs : c.state with
  | closed =>
    simp only [PeerCircuit.recordSuccess, hs]
    exact ⟨by simpa [hs] using hiff, fun _ => hf, by simp, by simp⟩
  | halfOpen =>
    simp only [PeerCircuit.recordSuccess, hs]
    split
    · exact ⟨hiff, hfail, hsucc, hzero⟩
    split
    · exact consistent_closeAfterRecovery hf _ now
    · next hn => exact ⟨by simpa [hs] using hiff, by simp, fun _ => UInt32.not_le.mp hn, by simp⟩
  | opened =>
    simp only [PeerCircuit.recordSuccess, hs]
    split
    · split
      · exact consistent_closeAfterRecovery hf _ now
      · next hn => exact ⟨by simpa [hs] using hiff, by simp, fun _ => UInt32.not_le.mp hn, by simp⟩
    · exact ⟨hiff, hfail, hsucc, hzero⟩

/-- Recording a failure keeps a circuit consistent unless the open count overflows. -/
theorem PeerCircuit.Consistent.recordFailure {cfg : CircuitBreakerConfig} {c : PeerCircuit}
    (hc : c.Consistent cfg) (now : Nat) (ticket : Bool)
    (hn : ticket = true → c.state ≠ .closed → c.consecutiveOpens ≠ 4294967295) :
    (c.recordFailure cfg now ticket).Consistent cfg := by
  obtain ⟨hiff, hfail, hsucc, hzero⟩ := hc
  cases hs : c.state with
  | closed =>
    have hz : c.consecutiveOpens = 0 := hiff.mp hs
    simp only [PeerCircuit.recordFailure, hs]
    split
    · exact ⟨by simp [resetProbe, hz], by simp [resetProbe], by simp [resetProbe],
        fun _ => rfl⟩
    · next hn =>
      exact ⟨by simpa [hs] using hiff, fun _ => UInt32.not_le.mp hn, by simp, by simp⟩
  | halfOpen =>
    simp only [PeerCircuit.recordFailure, hs]
    split
    · next ht =>
      have hm := succ_ne_zero (hn ht (by simp [hs]))
      exact ⟨by simpa [resetProbe] using hm, by simp [resetProbe], by simp [resetProbe],
        fun _ => rfl⟩
    · exact ⟨by simpa [hs] using hiff, by simp, fun _ => hsucc hs, by simp⟩
  | opened =>
    simp only [PeerCircuit.recordFailure, hs]
    split
    · next ht =>
      have hm := succ_ne_zero (hn ht (by simp [hs]))
      exact ⟨by simpa [resetProbe] using hm, by simp [resetProbe], by simp [resetProbe],
        fun _ => rfl⟩
    · exact ⟨by simpa [hs] using hiff, by simp, by simp, fun _ => hzero hs⟩

/-- Every step without an overflow keeps the breaker consistent. -/
theorem consistent_step {cfg : CircuitBreakerConfig} (hv : validate cfg = .ok ())
    {s t : Breaker} {e : Event} (hs : Consistent cfg s) (hn : countedStep s e = true)
    (h : step cfg s e = some t) : Consistent cfg t := by
  constructor
  · intro hd p
    obtain ⟨-, -, heff⟩ := step_effect h p
    generalize t.circuits p = r at heff
    cases heff with
    | same _ _ => exact hs.1 hd p
    | probe c _ _ _ hc => rw [hs.1 hd p] at hc; cases hc
    | success _ _ he => rw [hd] at he; cases he
    | failure _ _ he => rw [hd] at he; cases he
    | forget _ _ _ => rfl
  · intro p c hc
    obtain ⟨-, -, heff⟩ := step_effect h p
    rw [hc] at heff
    generalize hr : some c = r at heff
    cases heff with
    | same _ _ => exact hs.2 p c hr.symm
    | probe d contended ms _ hd =>
      obtain rfl := Option.some.inj hr
      have hcd := hs.2 p d hd
      exact ⟨hcd.closed_iff, hcd.failures, hcd.successes, hcd.opened⟩
    | success ticket _ he =>
      obtain rfl := Option.some.inj hr
      exact (consistent_entry hv he hs p e.now).recordSuccess hv he e.now ticket
    | failure ticket ho he =>
      obtain rfl := Option.some.inj hr
      apply (consistent_entry hv he hs p e.now).recordFailure e.now ticket
      intro ht hclosed hmax
      subst ht
      unfold entry at hclosed hmax
      cases hd : s.circuits p with
      | none => simp [hd, PeerCircuit.fresh] at hclosed
      | some d =>
        simp only [hd, Option.getD_some] at hclosed hmax
        simp [countedStep, overflowingReopen, ho, hd, hclosed, hmax] at hn
    | forget _ _ _ => cases hr

/-! ### The history of a recovery -/

/-- Whether an event is a ticketed success for `p`. -/
def ticketedSuccess (p : String) (e : Event) : Bool := decide (e.op = .success p true)

/-- The run of `evs` opened or reopened the circuit of `p` and went on with `mid`, which has no
ticketed failure for `p`. -/
def OpenedBefore (cfg : CircuitBreakerConfig) (evs : List Event) (p : String)
    (mid : List Event) : Prop :=
  (∀ x ∈ mid, x.op ≠ .failure p true) ∧
    ∃ pre o s t c, evs = pre ++ o :: mid ∧ exec (step cfg) .init pre = some s ∧
      step cfg s o = some t ∧ Opens s t p c

private theorem OpenedBefore.concat {cfg : CircuitBreakerConfig} {evs mid : List Event}
    {p : String} {e : Event} (h : OpenedBefore cfg evs p mid) (he : e.op ≠ .failure p true) :
    OpenedBefore cfg (evs ++ [e]) p (mid ++ [e]) := by
  obtain ⟨hm, pre, o, s, t, c, hevs, hpre, ho, hop⟩ := h
  refine ⟨?_, pre, o, s, t, c, by simp [hevs], hpre, ho, hop⟩
  intro x hx
  rcases List.mem_append.mp hx with hx | hx
  · exact hm x hx
  · rw [List.mem_singleton.mp hx]
    exact he

/-- Every circuit that is not closed was opened in the run, and its success count is the number
of ticketed successes since. -/
private def History (cfg : CircuitBreakerConfig) (evs : List Event) (s : Breaker) : Prop :=
  ∀ p c, s.circuits p = some c → c.state ≠ .closed →
    ∃ mid, OpenedBefore cfg evs p mid ∧
      c.successCount.toNat = mid.countP (ticketedSuccess p)

private theorem countP_concat (p : String) (mid : List Event) (e : Event) :
    (mid ++ [e]).countP (ticketedSuccess p) =
      mid.countP (ticketedSuccess p) + if e.op = .success p true then 1 else 0 := by
  rw [List.countP_append, List.countP_singleton]
  simp [ticketedSuccess]

private theorem recordSuccess_cases {cfg : CircuitBreakerConfig} {c : PeerCircuit}
    (hc : c.Consistent cfg) (hs : c.state ≠ .closed) (now : Nat) (ticket : Bool) :
    (ticket = false ∧ (c.recordSuccess cfg now ticket).1 = c) ∨
    (ticket = true ∧ (c.recordSuccess cfg now ticket).1.state ≠ .closed ∧
      (c.recordSuccess cfg now ticket).1.successCount = c.successCount + 1) ∨
    (ticket = true ∧ (c.recordSuccess cfg now ticket).1.state = .closed ∧
      cfg.successThreshold ≤ c.successCount + 1) := by
  cases ticket with
  | false =>
    left
    cases hst : c.state <;> simp_all [PeerCircuit.recordSuccess]
  | true =>
    right
    cases hst : c.state with
    | closed => exact absurd hst hs
    | halfOpen =>
      by_cases ht : c.successCount + 1 ≥ cfg.successThreshold
      · simp [PeerCircuit.recordSuccess, hst, ht, PeerCircuit.closeAfterRecovery,
          PeerCircuit.resetProbe]
      · simp [PeerCircuit.recordSuccess, hst, ht]
    | opened =>
      have hz := hc.opened hst
      by_cases ht : 1 ≥ cfg.successThreshold
      · simp [PeerCircuit.recordSuccess, hst, ht, hz, PeerCircuit.closeAfterRecovery,
          PeerCircuit.resetProbe]
      · simp [PeerCircuit.recordSuccess, hst, ht, hz]

private theorem recordFailure_cases (cfg : CircuitBreakerConfig) (c : PeerCircuit) (now : Nat)
    (ticket : Bool) :
    ((c.recordFailure cfg now ticket).state = .opened ∧
      (c.recordFailure cfg now ticket).lastStateChange = now ∧
      (c.recordFailure cfg now ticket).successCount = 0 ∧
      (c.recordFailure cfg now ticket).consecutiveOpens = c.consecutiveOpens + 1) ∨
    ((c.state = .closed ∨ ticket = false) ∧
      (c.recordFailure cfg now ticket).state = c.state ∧
      (c.recordFailure cfg now ticket).lastStateChange = c.lastStateChange ∧
      (c.recordFailure cfg now ticket).successCount = c.successCount ∧
      (c.recordFailure cfg now ticket).consecutiveOpens = c.consecutiveOpens) := by
  cases hst : c.state with
  | closed =>
    by_cases ht : c.failureCount + 1 ≥ cfg.failureThreshold
    · simp [PeerCircuit.recordFailure, hst, ht, PeerCircuit.resetProbe]
    · simp [PeerCircuit.recordFailure, hst, ht]
  | halfOpen => cases ticket <;> simp [PeerCircuit.recordFailure, hst, PeerCircuit.resetProbe]
  | opened => cases ticket <;> simp [PeerCircuit.recordFailure, hst, PeerCircuit.resetProbe]

private theorem history_step {cfg : CircuitBreakerConfig} {evs : List Event} {s t : Breaker}
    {e : Event} (hrun : exec (step cfg) .init evs = some s) (hcons : Consistent cfg s)
    (hs : History cfg evs s) (h : step cfg s e = some t) : History cfg (evs ++ [e]) t := by
  intro p c hc hne
  obtain ⟨-, htc, heff⟩ := step_effect h p
  rw [hc] at heff
  generalize hr : some c = r at heff
  cases heff with
  | same hsu hfa =>
    obtain ⟨mid, hopen, hcount⟩ := hs p c hr.symm hne
    have henabled : cfg.enabled ≠ false := fun hd => by simp [hcons.1 hd p] at hr
    refine ⟨mid ++ [e], hopen.concat fun he => henabled (hfa true he), ?_⟩
    rw [countP_concat, if_neg fun he => henabled (hsu true he), hcount]
    rfl
  | probe d contended ms ho hd =>
    obtain rfl := Option.some.inj hr
    obtain ⟨mid, hopen, hcount⟩ := hs p d hd hne
    refine ⟨mid ++ [e], hopen.concat (by simp [ho]), ?_⟩
    rw [countP_concat, if_neg (by simp [ho])]
    exact hcount
  | success ticket ho he =>
    obtain rfl := Option.some.inj hr
    unfold entry at hne ⊢
    cases hd : s.circuits p with
    | none => simp [hd, PeerCircuit.recordSuccess, PeerCircuit.fresh] at hne
    | some d =>
      simp only [hd, Option.getD_some] at hne ⊢
      have hdc := hcons.2 p d hd
      have hdn : d.state ≠ .closed := by
        intro hcl
        simp [PeerCircuit.recordSuccess, hcl] at hne
      obtain ⟨mid, hopen, hcount⟩ := hs p d hd hdn
      refine ⟨mid ++ [e], hopen.concat (by simp [ho]), ?_⟩
      rw [countP_concat, ho]
      rcases recordSuccess_cases hdc hdn e.now ticket with
        ⟨ht, hsame⟩ | ⟨ht, _, hsc⟩ | ⟨ht, hcl, _⟩
      · rw [hsame, ht, hcount]
        simp
      · have hlt : d.successCount.toNat + 1 = (d.successCount + 1).toNat := by
          cases hst : d.state with
          | closed => exact absurd hst hdn
          | halfOpen => exact (succ_le_of_lt (hdc.successes hst)).symm
          | opened => simp [hdc.opened hst]
        rw [hsc, ht, ← hlt, hcount]
        simp
      · exact absurd hcl hne
  | failure ticket ho he =>
    obtain rfl := Option.some.inj hr
    rcases recordFailure_cases cfg (entry s.circuits p e.now) e.now ticket with
      ⟨hst, hlc, hsc, hco⟩ | ⟨hkeep, hst, hlc, hsc, hco⟩
    · refine ⟨[], ⟨by simp, evs, e, s, t, _, rfl, hrun, h, hc, hst, hlc.trans htc.symm, ?_⟩, ?_⟩
      · intro b hb _ heq
        rw [hco] at heq
        simp [entry, hb] at heq
      · rw [hsc]
        rfl
    · rw [hst] at hne
      unfold entry at hne hsc hkeep ⊢
      cases hd : s.circuits p with
      | none => simp [hd, PeerCircuit.fresh] at hne
      | some d =>
        simp only [hd, Option.getD_some] at hne hsc hkeep ⊢
        obtain ⟨mid, hopen, hcount⟩ := hs p d hd hne
        have ht : ticket = false := hkeep.resolve_left hne
        refine ⟨mid ++ [e], hopen.concat (by simp [ho, ht]), ?_⟩
        rw [countP_concat, if_neg (by simp [ho]), hsc, hcount]
        rfl
  | forget _ _ _ => cases hr

private theorem invariant_run {cfg : CircuitBreakerConfig} (hv : validate cfg = .ok ())
    {evs : List Event} {s : Breaker}
    (hc : Along (step cfg) (fun s e => countedStep s e = true) .init evs)
    (h : exec (step cfg) .init evs = some s) : Consistent cfg s ∧ History cfg evs s := by
  refine exec_trace_invariant (P := fun evs s => Consistent cfg s ∧ History cfg evs s)
    ⟨⟨fun _ _ => rfl, by simp [Breaker.init]⟩, by simp [History, Breaker.init]⟩ ?_ evs s hc h
  intro as s e t hrun hi hce ht
  exact ⟨consistent_step hv hi.1 hce ht, history_step hrun hi.1 hi.2 ht⟩

/-- The peers an operation names. -/
def Op.Names (p : String) : Op → Prop
  | .claim q _ | .success q _ | .failure q _ => q = p
  | .forget keys => p ∈ keys

/-- An operation leaves every circuit it does not name. -/
theorem step_of_not_names {cfg : CircuitBreakerConfig} {s t : Breaker} {e : Event}
    (h : step cfg s e = some t) {p : String} (hp : ¬ e.op.Names p) :
    t.circuits p = s.circuits p := by
  obtain ⟨-, -, heff⟩ := step_effect h p
  generalize t.circuits p = r at heff
  cases heff with
  | same _ _ => rfl
  | probe _ _ _ ho _ => exact absurd (by simp [Op.Names, ho]) hp
  | success _ ho _ => exact absurd (by simp [Op.Names, ho]) hp
  | failure _ ho _ => exact absurd (by simp [Op.Names, ho]) hp
  | forget _ ho hk => exact absurd (by simpa [Op.Names, ho] using hk) hp

/-- A result without a ticket leaves the state, window and counters of a circuit that is open or
half-open. -/
theorem ticketless_result {cfg : CircuitBreakerConfig} {s t : Breaker} {e : Event}
    (h : step cfg s e = some t) {p : String} {b : PeerCircuit} (hb : s.circuits p = some b)
    (hn : b.state ≠ .closed) (ho : e.op = .success p false ∨ e.op = .failure p false) :
    ∃ c, t.circuits p = some c ∧ c.state = b.state ∧ windowEnd cfg c = windowEnd cfg b ∧
      c.consecutiveOpens = b.consecutiveOpens ∧ c.successCount = b.successCount := by
  obtain ⟨-, -, heff⟩ := step_effect h p
  generalize t.circuits p = r at heff
  cases heff with
  | same _ _ => exact ⟨b, hb, rfl, rfl, rfl, rfl⟩
  | probe _ _ _ hc _ => simp [hc] at ho
  | success ticket hc _ =>
    obtain rfl : ticket = false := by simpa [hc] using ho
    have hsame : (b.recordSuccess cfg e.now false).1 = b := by
      cases hst : b.state <;> simp_all [PeerCircuit.recordSuccess]
    simp only [entry, hb, Option.getD_some, hsame]
    exact ⟨b, rfl, rfl, rfl, rfl, rfl⟩
  | failure ticket hc _ =>
    obtain rfl : ticket = false := by simpa [hc] using ho
    simp only [entry, hb, Option.getD_some]
    rcases recordFailure_cases cfg b e.now false with ⟨hst, _, _, hco⟩ | ⟨-, hst, hlc, hsc, hco⟩
    · cases hbs : b.state <;> simp_all [PeerCircuit.recordFailure]
    · exact ⟨_, rfl, hst, by simp [windowEnd, hlc, hco], hco, hsc⟩
  | forget _ hc _ => simp [hc] at ho

private theorem closing_step {cfg : CircuitBreakerConfig} {evs : List Event} {s t : Breaker}
    {e : Event} (hcons : Consistent cfg s) (hhist : History cfg evs s)
    (hthr : cfg.enabled = true → cfg.successThreshold ≠ 0)
    (h : step cfg s e = some t) {p : String} {b c : PeerCircuit} (hb : s.circuits p = some b)
    (hbn : b.state ≠ .closed) (hc : t.circuits p = some c) (hcl : c.state = .closed) :
    e.op = .success p true ∧ ∃ mid, OpenedBefore cfg evs p mid ∧
      (mid ++ [e]).countP (ticketedSuccess p) = cfg.successThreshold.toNat := by
  obtain ⟨-, -, heff⟩ := step_effect h p
  rw [hc] at heff
  generalize hr : some c = r at heff
  cases heff with
  | same _ _ =>
    obtain rfl := Option.some.inj (hr.trans hb)
    exact absurd hcl hbn
  | probe d contended ms _ hd =>
    obtain rfl := Option.some.inj hr
    obtain rfl := Option.some.inj (hb.symm.trans hd)
    exact absurd hcl hbn
  | success ticket ho he =>
    obtain rfl := Option.some.inj hr
    simp only [entry, hb, Option.getD_some] at hcl
    have hbc := hcons.2 p b hb
    obtain ⟨mid, hopen, hcount⟩ := hhist p b hb hbn
    rcases recordSuccess_cases hbc hbn e.now ticket with
      ⟨-, hsame⟩ | ⟨-, hne, -⟩ | ⟨ht, -, hle⟩
    · rw [hsame] at hcl
      exact absurd hcl hbn
    · exact absurd hcl hne
    · subst ht
      refine ⟨ho, mid, hopen, ?_⟩
      rw [countP_concat, if_pos ho, ← hcount]
      rw [UInt32.le_iff_toNat_le] at hle
      cases hst : b.state with
      | closed => exact absurd hst hbn
      | halfOpen =>
        have hlt := hbc.successes hst
        rw [succ_le_of_lt hlt] at hle
        rw [UInt32.lt_iff_toNat_lt] at hlt
        omega
      | opened =>
        have hpos := UInt32.pos_iff_ne_zero.mpr (hthr he)
        rw [UInt32.lt_iff_toNat_lt] at hpos
        simp only [hbc.opened hst, UInt32.zero_add, UInt32.toNat_one, UInt32.toNat_zero]
          at hle hpos ⊢
        omega
  | failure ticket ho he =>
    obtain rfl := Option.some.inj hr
    simp only [entry, hb, Option.getD_some] at hcl
    rcases recordFailure_cases cfg b e.now ticket with ⟨hst, -⟩ | ⟨-, hst, -⟩
    · rw [hst] at hcl
      cases hcl
    · rw [hst] at hcl
      exact absurd hcl hbn
  | forget _ _ _ => cases hr

/-- In every state that a run without an overflowing reopening reaches, the circuits agree with
their counters, and the next operation respects tickets, other peers and the recovery history. -/
theorem reachable_breaker (cfg : CircuitBreakerConfig) (hv : validate cfg = .ok ())
    (evs : List Event) (s : Breaker)
    (hc : Along (step cfg) (fun s e => countedStep s e = true) .init evs)
    (hrun : exec (step cfg) .init evs = some s) :
    (∀ p c, s.circuits p = some c →
      (c.state = .closed ↔ c.consecutiveOpens = 0) ∧
      (c.state = .closed → c.failureCount < cfg.failureThreshold) ∧
      (c.state = .halfOpen → c.successCount < cfg.successThreshold)) ∧
    ∀ e t, step cfg s e = some t →
      (∀ p b, s.circuits p = some b → b.state ≠ .closed →
        (e.op = .success p false ∨ e.op = .failure p false) →
        ∃ c, t.circuits p = some c ∧ c.state = b.state ∧ windowEnd cfg c = windowEnd cfg b ∧
          c.consecutiveOpens = b.consecutiveOpens ∧ c.successCount = b.successCount) ∧
      (∀ p, ¬ e.op.Names p → t.circuits p = s.circuits p) ∧
      (∀ p b c, s.circuits p = some b → b.state ≠ .closed → t.circuits p = some c →
        c.state = .closed → e.op = .success p true ∧ ∃ mid, OpenedBefore cfg evs p mid ∧
          (mid ++ [e]).countP (ticketedSuccess p) = cfg.successThreshold.toNat) := by
  obtain ⟨hcons, hhist⟩ := invariant_run hv hc hrun
  constructor
  · intro p c hpc
    have hcc := hcons.2 p c hpc
    exact ⟨hcc.closed_iff, hcc.failures, hcc.successes⟩
  · intro e t ht
    refine ⟨fun p b hb hbn ho => ticketless_result ht hb hbn ho,
      fun p hp => step_of_not_names ht hp, ?_⟩
    intro p b c hb hbn hpc hcl
    exact closing_step hcons hhist (fun he => (validate_ok hv he).2.1) ht hb hbn hpc hcl

/-- A run that opens, fails a probe, recovers and forgets a circuit. -/
def recoveryRun : List Event :=
  [⟨0, .failure "peer" false⟩, ⟨10000000, .claim "peer" false⟩, ⟨12000000, .failure "peer" true⟩,
    ⟨32000000, .claim "peer" false⟩, ⟨33000000, .success "peer" true⟩,
    ⟨34000000, .success "peer" true⟩, ⟨35000000, .failure "other" false⟩,
    ⟨36000000, .forget ["peer"]⟩]

/-- The theorem applies to the recovery run. -/
theorem reachable_breaker_recovery_run :
    ∃ s c : _, exec (step quickProbeConfig) .init recoveryRun = some s ∧
      s.circuits "other" = some c ∧ (c.state = .closed ↔ c.consecutiveOpens = 0) := by
  refine ⟨_, _, rfl, rfl, ?_⟩
  have hc : Along (step quickProbeConfig) (fun s e => countedStep s e = true) .init recoveryRun :=
    along_of_checkAlong (by decide)
  exact ((reachable_breaker quickProbeConfig rfl recoveryRun _ hc rfl).1 "other" _ rfl).1

/-! ### The open count overflows -/

/-- A configuration with a constant backoff of one millisecond. -/
def constantBackoffConfig : CircuitBreakerConfig :=
  { failureThreshold := 1, openDurationBaseMs := 1, openDurationMaxMs := 1,
    halfOpenProbeIntervalMs := 0 }

/-- One failed probe: a claim and its ticketed failure. -/
def failedProbe (now : Nat) : List Event :=
  [⟨now, .claim "peer" false⟩, ⟨now, .failure "peer" true⟩]

/-- A first failure opens the circuit, and then `n` probes fail, one each millisecond. -/
def failedProbes : Nat → List Event
  | 0 => [⟨0, .failure "peer" false⟩]
  | n + 1 => failedProbes n ++ failedProbe ((n + 1) * nanosPerMilli)

private theorem backoff_constantBackoff (n : UInt32) :
    backoffNanos constantBackoffConfig n = nanosPerMilli := by
  have hpos : 1 ≤ 2 ^ min (n.toNat - 1) 10 := Nat.one_le_two_pow
  have hc : calculateBackoff constantBackoffConfig n = 1 := by
    simp only [calculateBackoff, saturatingMul, constantBackoffConfig]
    change min (min (1 * _) _) 1 = 1
    omega
  rw [backoffNanos, hc, Nat.one_mul]

private theorem claim_constantBackoff {circuits : Circuits} {c : PeerCircuit} {now : Nat}
    (hc : circuits "peer" = some c) (hs : c.state = .opened)
    (hw : c.lastStateChange + nanosPerMilli ≤ now) :
    ∃ ms, tryClaimDispatchSync constantBackoffConfig circuits now "peer" false =
      (.admitted true, Function.update circuits "peer" (some { c with lastProbeMs := ms })) := by
  have helapsed : now - c.lastStateChange ≥
      backoffNanos constantBackoffConfig c.consecutiveOpens := by
    rw [backoff_constantBackoff]
    omega
  refine ⟨max (asMillis (now - c.created)) 1, ?_⟩
  have hclaim : c.tryClaimProbe now constantBackoffConfig.halfOpenProbeIntervalMs =
      (true, { c with lastProbeMs := max (asMillis (now - c.created)) 1 }) := rfl
  unfold tryClaimDispatchSync
  rw [if_neg (by decide), hc]
  simp only [hs, if_pos helapsed, hclaim, if_true]

private theorem exec_failedProbe {s : Breaker} {c : PeerCircuit} {now : Nat}
    (hle : s.clock ≤ now) (hc : s.circuits "peer" = some c) (hs : c.state = .opened)
    (hw : c.lastStateChange + nanosPerMilli ≤ now) :
    ∃ t d, exec (step constantBackoffConfig) s (failedProbe now) = some t ∧ t.clock = now ∧
      t.circuits "peer" = some d ∧ d.state = .opened ∧ d.lastStateChange = now ∧
      d.consecutiveOpens = c.consecutiveOpens + 1 := by
  obtain ⟨ms, hclaim⟩ := claim_constantBackoff hc hs hw
  let d := PeerCircuit.recordFailure constantBackoffConfig now true { c with lastProbeMs := ms }
  have hfail : recordFailure constantBackoffConfig
      (Function.update s.circuits "peer" (some { c with lastProbeMs := ms })) now "peer" true =
      Function.update s.circuits "peer" (some d) := by
    simp [recordFailure, constantBackoffConfig, entry, d]
  refine ⟨⟨Function.update s.circuits "peer" (some d), now⟩, d, ?_, rfl, by simp, ?_⟩
  · simp only [failedProbe, exec_cons, step, if_pos hle, Option.bind_some, Nat.le_refl, if_true,
      exec_nil, apply, hclaim, hfail]
  · simp [d, PeerCircuit.recordFailure, hs, PeerCircuit.resetProbe]

private theorem exec_failedProbes (n : Nat) :
    ∃ s c, exec (step constantBackoffConfig) .init (failedProbes n) = some s ∧
      s.clock = n * nanosPerMilli ∧ s.circuits "peer" = some c ∧ c.state = .opened ∧
      c.lastStateChange = n * nanosPerMilli ∧ c.consecutiveOpens = UInt32.ofNat (n + 1) := by
  induction n with
  | zero => exact ⟨_, _, rfl, rfl, rfl, rfl, rfl, rfl⟩
  | succ n ih =>
    obtain ⟨s, c, hrun, hclock, hc, hs, hl, ho⟩ := ih
    have hnext : (n + 1) * nanosPerMilli = n * nanosPerMilli + nanosPerMilli := Nat.succ_mul ..
    have hle : s.clock ≤ (n + 1) * nanosPerMilli := by omega
    have hw : c.lastStateChange + nanosPerMilli ≤ (n + 1) * nanosPerMilli := by omega
    obtain ⟨t, d, hprobe, htclock, hd, hds, hdl, hdo⟩ := exec_failedProbe hle hc hs hw
    refine ⟨t, d, exec_append_eq_some.mpr ⟨s, hrun, hprobe⟩, htclock, hd, hds, hdl, ?_⟩
    rw [hdo, ho, UInt32.ofNat_add (n + 1) 1]
    rfl

/-- After `2 ^ 32 - 1` failed probes the circuit is open with an open count of zero. -/
theorem open_with_zero_opens :
    validate constantBackoffConfig = .ok () ∧
      ∃ s c, exec (step constantBackoffConfig) .init (failedProbes 4294967295) = some s ∧
        s.circuits "peer" = some c ∧ ¬ (c.state = .closed ↔ c.consecutiveOpens = 0) := by
  obtain ⟨s, c, hrun, -, hc, hs, -, ho⟩ := exec_failedProbes 4294967295
  refine ⟨rfl, s, c, hrun, hc, ?_⟩
  have hz : c.consecutiveOpens = 0 := by
    rw [ho]
    decide
  intro hiff
  rw [hiff.mpr hz] at hs
  cases hs

end Llamesh.CircuitBreaker
