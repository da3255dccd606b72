import Llamesh.CircuitBreaker.Operations
import Llamesh.Library.Table

/-!
# Probe pacing under concurrent claims

`try_claim_dispatch_sync` holds only a read guard of the circuits map, so several
claims run `try_claim_probe` at once and meet in the atomic `last_probe_ms`
(`src/circuit_breaker.rs:86–102,278–322`). Here a claim is one label for each
access it makes: the state check under the guard, the clock sample, the load and
the compare-and-swap. Results and `forget` take the write lock, so they run only
while no claim is under way.
-/

namespace Llamesh.CircuitBreaker.Probes

open Transition

/-! ### The stages of a claim -/

/-- A claim inside `try_claim_probe`: before the clock sample, before the load, and before the
compare-and-swap, with the locals it holds. -/
inductive Claimant where
  | sampling (peerId : String)
  | loading (peerId : String) (nowMs : Nat)
  | swapping (peerId : String) (nowMs last : Nat)
  deriving DecidableEq, Repr

/-- The peer a claim is for. -/
def Claimant.peerId : Claimant → String
  | .sampling p => p
  | .loading p _ => p
  | .swapping p _ _ => p

/-- `now_ms` of a claim that samples the clock at `now`. `src/circuit_breaker.rs:89`. -/
def sampledMs (c : PeerCircuit) (now : Nat) : Nat := max (asMillis (now - c.created)) 1

/-- The decision of `try_claim_dispatch_sync` when it does not reach `try_claim_probe`, and
`none` when it does. `src/circuit_breaker.rs:279–321`. -/
def claimVerdict (cfg : CircuitBreakerConfig) (circuits : Circuits) (now : Nat)
    (peerId : String) (contended : Bool) : Option DispatchDecision :=
  if !cfg.enabled || contended then some (.admitted false)
  else match circuits peerId with
    | none => some (.admitted false)
    | some c =>
      match c.state with
      | .closed => some (.admitted false)
      | .halfOpen => none
      | .opened =>
        if now - c.lastStateChange ≥ backoffNanos cfg c.consecutiveOpens then none
        else some .denied

/-- The breaker with the claims under way. -/
structure SharedBreaker where
  circuits : Circuits
  clock : Nat
  claimants : Table Nat Claimant

namespace SharedBreaker

/-- `CircuitBreaker::new`. -/
def init : SharedBreaker := ⟨fun _ => none, 0, ∅⟩

/-- The breaker without its claims. -/
def breaker (s : SharedBreaker) : Breaker := ⟨s.circuits, s.clock⟩

/-- The claim returns. -/
def finish (s : SharedBreaker) (id : Nat) : SharedBreaker :=
  { s with claimants := s.claimants.erase id }

/-- The claim goes on to its next stage. -/
def advance (s : SharedBreaker) (id : Nat) (k : Claimant) : SharedBreaker :=
  { s with claimants := s.claimants.insert id k }

/-- The claim writes its sample to the probe slot and is admitted with a ticket. -/
def takeSlot (s : SharedBreaker) (id : Nat) (p : String) (c : PeerCircuit) (nowMs : Nat) :
    SharedBreaker :=
  { s with circuits := Function.update s.circuits p (some { c with lastProbeMs := nowMs }) }.finish
    id

end SharedBreaker

/-- The production operations, with the instants they read. A claim is named by `id` while it is
under way. -/
inductive Label where
  | claim (id now : Nat) (peerId : String) (contended : Bool)
  | sample (id now : Nat)
  | load (id : Nat)
  | swap (id : Nat)
  | check (now : Nat) (peerId : String) (contended : Bool)
  | success (now : Nat) (peerId : String) (probeTicket : Bool)
  | failure (now : Nat) (peerId : String) (probeTicket : Bool)
  | forget (now : Nat) (keys : List String)
  deriving DecidableEq, Repr

/-- An eligibility check, as routing makes for each candidate. -/
def Label.isCheck : Label → Bool
  | .check _ _ _ => true
  | _ => false

/-- A claim under way and its peer's circuit, which the read guard keeps in the map. -/
def claimantAt (s : SharedBreaker) (id : Nat) : Option (Claimant × PeerCircuit) :=
  (s.claimants.lookup id).bind fun k => (s.circuits k.peerId).map fun c => (k, c)

/-- The load of the probe slot and the test on it; without an interval the slot is stored to.
`src/circuit_breaker.rs:90–97`. -/
def loadStep (cfg : CircuitBreakerConfig) (s : SharedBreaker) (id : Nat) (p : String)
    (c : PeerCircuit) (nowMs : Nat) : SharedBreaker :=
  if cfg.halfOpenProbeIntervalMs = 0 then s.takeSlot id p c nowMs
  else if c.lastProbeMs ≠ 0 ∧ nowMs - c.lastProbeMs < cfg.halfOpenProbeIntervalMs.toNat then
    s.finish id
  else s.advance id (.swapping p nowMs c.lastProbeMs)

/-- The compare-and-swap. `src/circuit_breaker.rs:99–101`. -/
def swapStep (s : SharedBreaker) (id : Nat) (p : String) (c : PeerCircuit) (nowMs last : Nat) :
    SharedBreaker :=
  if c.lastProbeMs = last then s.takeSlot id p c nowMs else s.finish id

/-- An operation under the write lock; it waits for the claims under way. -/
def writeStep (cfg : CircuitBreakerConfig) (s : SharedBreaker) (now : Nat) (op : Op) :
    Option SharedBreaker :=
  guarded (s.clock ≤ now ∧ s.claimants.entries = [])
    { s with circuits := apply cfg s.circuits now op, clock := now }

/-- One access of one operation. -/
def step (cfg : CircuitBreakerConfig) (s : SharedBreaker) : Label → Option SharedBreaker
  | .claim id now p contended =>
    guarded (s.clock ≤ now ∧ s.claimants.lookup id = none)
      (match claimVerdict cfg s.circuits now p contended with
      | some _ => { s with clock := now }
      | none => { s with clock := now }.advance id (.sampling p))
  | .sample id now =>
    match claimantAt s id with
    | some (.sampling p, c) =>
      guarded (s.clock ≤ now) ({ s with clock := now }.advance id (.loading p (sampledMs c now)))
    | _ => none
  | .load id =>
    match claimantAt s id with
    | some (.loading p nowMs, c) => some (loadStep cfg s id p c nowMs)
    | _ => none
  | .swap id =>
    match claimantAt s id with
    | some (.swapping p nowMs last, c) => some (swapStep s id p c nowMs last)
    | _ => none
  -- `should_allow_sync` reads the circuit and the clock; its answer is `shouldAllowSync`.
  | .check now _ _ => guarded (s.clock ≤ now) { s with clock := now }
  | .success now p ticket => writeStep cfg s now (.success p ticket)
  | .failure now p ticket => writeStep cfg s now (.failure p ticket)
  | .forget now keys => writeStep cfg s now (.forget keys)

/-- The peer and the sampled time of the ticketed admission a step makes. -/
def admission (cfg : CircuitBreakerConfig) (s : SharedBreaker) : Label → Option (String × Nat)
  | .load id =>
    match claimantAt s id with
    | some (.loading p nowMs, _) =>
      if cfg.halfOpenProbeIntervalMs = 0 then some (p, nowMs) else none
    | _ => none
  | .swap id =>
    match claimantAt s id with
    | some (.swapping p nowMs last, c) => if c.lastProbeMs = last then some (p, nowMs) else none
    | _ => none
  | _ => none

/-! ### What one access can do -/

/-- A claim under way with its circuit. -/
theorem claimantAt_eq_some {s : SharedBreaker} {id : Nat} {k : Claimant} {c : PeerCircuit} :
    claimantAt s id = some (k, c) ↔
      s.claimants.lookup id = some k ∧ s.circuits k.peerId = some c := by
  unfold claimantAt
  cases s.claimants.lookup id with
  | none => simp
  | some j =>
    simp only [Option.bind_some, Option.map_eq_some_iff, Prod.mk.injEq, Option.some.injEq]
    constructor
    · rintro ⟨d, hd, rfl, rfl⟩
      exact ⟨rfl, hd⟩
    · rintro ⟨rfl, hd⟩
      exact ⟨c, hd, rfl, rfl⟩

/-- What an access does to the circuits: nothing, one ticketed admission, or one operation of the
breaker while no claim is under way. -/
inductive Access (cfg : CircuitBreakerConfig) (s : SharedBreaker) (l : Label)
    (t : SharedBreaker) : Prop where
  | quiet (hc : t.circuits = s.circuits) (ha : admission cfg s l = none)
  | admitted (p : String) (c : PeerCircuit) (nowMs : Nat)
      (ha : admission cfg s l = some (p, nowMs)) (hp : s.circuits p = some c)
      (hc : t.circuits = Function.update s.circuits p (some { c with lastProbeMs := nowMs }))
  | write (e : Event) (hop : ∀ p contended, e.op ≠ .claim p contended)
      (hs : CircuitBreaker.step cfg s.breaker e = some t.breaker)
      (hk : s.claimants.entries = []) (ha : admission cfg s l = none)

private theorem access_writeStep {cfg : CircuitBreakerConfig} {s t : SharedBreaker} {l : Label}
    {now : Nat} {op : Op} (hop : ∀ p contended, op ≠ .claim p contended)
    (ha : admission cfg s l = none) (h : writeStep cfg s now op = some t) :
    Access cfg s l t := by
  simp only [writeStep, guarded_eq_some] at h
  obtain ⟨⟨hclock, hk⟩, rfl⟩ := h
  exact .write ⟨now, op⟩ hop (step_eq_some.mpr ⟨hclock, rfl⟩) hk ha

/-- The inversion of an access. -/
theorem step_access {cfg : CircuitBreakerConfig} {s t : SharedBreaker} {l : Label}
    (h : step cfg s l = some t) : Access cfg s l t := by
  cases l with
  | claim id now p contended =>
    simp only [step, guarded_eq_some] at h
    obtain ⟨-, rfl⟩ := h
    refine .quiet ?_ rfl
    split <;> rfl
  | sample id now =>
    simp only [step] at h
    split at h
    · simp only [guarded_eq_some] at h
      obtain ⟨-, rfl⟩ := h
      exact .quiet rfl rfl
    · cases h
  | load id =>
    simp only [step] at h
    split at h
    · next p nowMs c hk =>
      obtain rfl := Option.some.inj h
      unfold loadStep
      split
      · next hz =>
        exact .admitted p c nowMs (by simp [admission, hk, hz]) (claimantAt_eq_some.mp hk).2 rfl
      · next hz =>
        split
        · exact .quiet rfl (by simp [admission, hk, hz])
        · exact .quiet rfl (by simp [admission, hk, hz])
    · cases h
  | swap id =>
    simp only [step] at h
    split at h
    · next p nowMs last c hk =>
      obtain rfl := Option.some.inj h
      unfold swapStep
      split
      · next heq =>
        exact .admitted p c nowMs (by simp [admission, hk, heq]) (claimantAt_eq_some.mp hk).2 rfl
      · next hne => exact .quiet rfl (by simp [admission, hk, hne])
    · cases h
  | check now p contended =>
    simp only [step, guarded_eq_some] at h
    obtain ⟨-, rfl⟩ := h
    exact .quiet rfl rfl
  | success now p ticket => exact access_writeStep (by simp) rfl h
  | failure now p ticket => exact access_writeStep (by simp) rfl h
  | forget now keys => exact access_writeStep (by simp) rfl h

/-! ### The claims under way -/

/-- The circuit is in its recovery phase at `now`: half-open, or open with its backoff elapsed. -/
def Recovering (cfg : CircuitBreakerConfig) (c : PeerCircuit) (now : Nat) : Prop :=
  c.state = .halfOpen ∨
    c.state = .opened ∧ backoffNanos cfg c.consecutiveOpens ≤ now - c.lastStateChange

/-- A claim reaches `try_claim_probe` exactly for a circuit in its recovery phase. -/
theorem claimVerdict_eq_none {cfg : CircuitBreakerConfig} {circuits : Circuits} {now : Nat}
    {p : String} {contended : Bool} :
    claimVerdict cfg circuits now p contended = none ↔
      cfg.enabled = true ∧ contended = false ∧ ∃ c, circuits p = some c ∧ Recovering cfg c now := by
  unfold claimVerdict Recovering
  split
  · next hoff => cases he : cfg.enabled <;> simp_all
  · next hon =>
    simp only [Bool.or_eq_true, Bool.not_eq_true', not_or, Bool.not_eq_false,
      Bool.not_eq_true] at hon
    split
    · next hc => simp [hc]
    · next c hc =>
      cases hs : c.state with
      | closed => simp [hc, hs]
      | halfOpen => simp [hon, hc, hs]
      | opened => simp [hon, hc, hs]

/-- What a claim under way knows of its circuit. The sampled instant lies in the recovery phase,
and a claim about to swap found its slot free at the value it loaded. -/
def Claimant.Sound (cfg : CircuitBreakerConfig) (c : PeerCircuit) (clock : Nat) :
    Claimant → Prop
  | .sampling _ => Recovering cfg c clock
  | .loading _ nowMs => ∃ now, Recovering cfg c now ∧ nowMs = sampledMs c now
  | .swapping _ nowMs last =>
    (∃ now, Recovering cfg c now ∧ nowMs = sampledMs c now) ∧ cfg.halfOpenProbeIntervalMs ≠ 0 ∧
      (last ≠ 0 → last + cfg.halfOpenProbeIntervalMs.toNat ≤ nowMs)

/-- The breaker is enabled and the circuit of the claim's peer is there and sound for it. -/
def ClaimSound (cfg : CircuitBreakerConfig) (s : SharedBreaker) (k : Claimant) : Prop :=
  cfg.enabled = true ∧ ∃ c, s.circuits k.peerId = some c ∧ k.Sound cfg c s.clock

/-- Every claim under way is sound. -/
def Sound (cfg : CircuitBreakerConfig) (s : SharedBreaker) : Prop :=
  ∀ id k, s.claimants.lookup id = some k → ClaimSound cfg s k

/-- A circuit stays in its recovery phase while only the clock moves. -/
theorem Recovering.mono {cfg : CircuitBreakerConfig} {c : PeerCircuit} {m n : Nat} (hle : m ≤ n)
    (h : Recovering cfg c m) : Recovering cfg c n := by
  obtain hs | ⟨hs, hb⟩ := h
  · exact .inl hs
  · exact .inr ⟨hs, by omega⟩

/-- A probe and the passing of time leave a claim sound. -/
theorem Claimant.Sound.probed {cfg : CircuitBreakerConfig} {c : PeerCircuit} {m n : Nat}
    {k : Claimant} (hle : m ≤ n) (ms : Nat) (h : k.Sound cfg c m) :
    k.Sound cfg { c with lastProbeMs := ms } n := by
  cases k with
  | sampling p => exact Recovering.mono hle h
  | loading p nowMs => exact h
  | swapping p nowMs last => exact h

/-- The claims stay sound when the circuits change in their probe slots only and every claim is an
old one or a sound one. -/
theorem Sound.of_probed {cfg : CircuitBreakerConfig} {s t : SharedBreaker} (hs : Sound cfg s)
    (hclock : s.clock ≤ t.clock)
    (hc : ∀ p c, s.circuits p = some c → ∃ ms, t.circuits p = some { c with lastProbeMs := ms })
    (hk : ∀ id k, t.claimants.lookup id = some k →
      s.claimants.lookup id = some k ∨ ClaimSound cfg t k) : Sound cfg t := by
  intro id k hlookup
  obtain hold | hnew := hk id k hlookup
  · obtain ⟨hen, c, hp, hsound⟩ := hs id k hold
    obtain ⟨ms, hms⟩ := hc _ c hp
    exact ⟨hen, _, hms, hsound.probed hclock ms⟩
  · exact hnew

private theorem kept_circuits {s t : SharedBreaker} (h : t.circuits = s.circuits) (p : String)
    (c : PeerCircuit) (hc : s.circuits p = some c) :
    ∃ ms, t.circuits p = some { c with lastProbeMs := ms } := ⟨c.lastProbeMs, by rw [h, hc]⟩

private theorem admitted_circuits {s : SharedBreaker} {id : Nat} {p : String} {c : PeerCircuit}
    {nowMs : Nat} (hp : s.circuits p = some c) (q : String) (d : PeerCircuit)
    (hd : s.circuits q = some d) :
    ∃ ms, (s.takeSlot id p c nowMs).circuits q = some { d with lastProbeMs := ms } := by
  simp only [SharedBreaker.takeSlot, SharedBreaker.finish]
  by_cases hq : q = p
  · subst hq
    obtain rfl : c = d := Option.some.inj (hp.symm.trans hd)
    exact ⟨nowMs, by rw [Function.update_self]⟩
  · exact ⟨d.lastProbeMs, by rw [Function.update_of_ne hq, hd]⟩

private theorem lookup_finish {s : SharedBreaker} {id j : Nat} {k : Claimant}
    (h : (s.finish id).claimants.lookup j = some k) : s.claimants.lookup j = some k :=
  (Table.lookup_erase_eq_some.mp h).2

private theorem lookup_advance {s : SharedBreaker} {id j : Nat} {k l : Claimant}
    (h : (s.advance id l).claimants.lookup j = some k) :
    s.claimants.lookup j = some k ∨ k = l := by
  obtain ⟨-, rfl⟩ | ⟨-, hold⟩ := Table.lookup_insert_eq_some.mp h
  · exact .inr rfl
  · exact .inl hold

private theorem sound_advance {cfg : CircuitBreakerConfig} {s : SharedBreaker} {id now : Nat}
    {k : Claimant} (hs : Sound cfg s) (hclock : s.clock ≤ now)
    (hk : ClaimSound cfg { s with clock := now } k) :
    Sound cfg ({ s with clock := now }.advance id k) := by
  refine hs.of_probed hclock (kept_circuits rfl) fun j l hl => ?_
  obtain hold | rfl := lookup_advance hl
  · exact .inl hold
  · exact .inr hk

private theorem sound_finish {cfg : CircuitBreakerConfig} {s : SharedBreaker} (id : Nat)
    (hs : Sound cfg s) : Sound cfg (s.finish id) :=
  hs.of_probed (Nat.le_refl _) (kept_circuits rfl) fun _ _ hl => .inl (lookup_finish hl)

private theorem sound_takeSlot {cfg : CircuitBreakerConfig} {s : SharedBreaker} (id : Nat)
    {p : String} {c : PeerCircuit} (nowMs : Nat) (hs : Sound cfg s) (hp : s.circuits p = some c) :
    Sound cfg (s.takeSlot id p c nowMs) :=
  hs.of_probed (Nat.le_refl _) (admitted_circuits hp) fun _ _ hl => .inl (lookup_finish hl)

private theorem sound_write {cfg : CircuitBreakerConfig} {s t : SharedBreaker} {now : Nat}
    {op : Op} (h : writeStep cfg s now op = some t) : Sound cfg t := by
  simp only [writeStep, guarded_eq_some] at h
  obtain ⟨⟨-, hk⟩, rfl⟩ := h
  intro id k hlookup
  have hmem := AList.mem_lookup_iff.mp (Option.mem_def.mpr hlookup)
  rw [hk] at hmem
  exact absurd hmem List.not_mem_nil

/-- Every access keeps the claims under way sound. -/
theorem sound_step {cfg : CircuitBreakerConfig} {s t : SharedBreaker} {l : Label}
    (hs : Sound cfg s) (h : step cfg s l = some t) : Sound cfg t := by
  cases l with
  | claim id now p contended =>
    simp only [step, guarded_eq_some] at h
    obtain ⟨⟨hclock, -⟩, rfl⟩ := h
    split
    · exact hs.of_probed hclock (kept_circuits rfl) fun _ _ hl => .inl hl
    · next hv =>
      obtain ⟨hen, -, c, hc, hrec⟩ := claimVerdict_eq_none.mp hv
      exact sound_advance hs hclock ⟨hen, c, hc, hrec⟩
  | sample id now =>
    simp only [step] at h
    split at h
    · next p c hk =>
      simp only [guarded_eq_some] at h
      obtain ⟨hclock, rfl⟩ := h
      obtain ⟨hlookup, hc⟩ := claimantAt_eq_some.mp hk
      obtain ⟨hen, d, hd, hrec⟩ := hs id _ hlookup
      obtain rfl : c = d := Option.some.inj (hc.symm.trans hd)
      exact sound_advance hs hclock ⟨hen, c, hc, now, Recovering.mono hclock hrec, rfl⟩
    · cases h
  | load id =>
    simp only [step] at h
    split at h
    · next p nowMs c hk =>
      obtain rfl := Option.some.inj h
      obtain ⟨hlookup, hc⟩ := claimantAt_eq_some.mp hk
      obtain ⟨hen, d, hd, hsample⟩ := hs id _ hlookup
      obtain rfl : c = d := Option.some.inj (hc.symm.trans hd)
      unfold loadStep
      split
      · exact sound_takeSlot id nowMs hs hc
      · next hz =>
        split
        · exact sound_finish id hs
        · next hfree =>
          refine sound_advance hs (Nat.le_refl _) ⟨hen, c, hc, hsample, hz, fun hlast => ?_⟩
          have hge := Nat.not_lt.mp fun hlt => hfree ⟨hlast, hlt⟩
          have hpos : 0 < cfg.halfOpenProbeIntervalMs.toNat :=
            Nat.pos_of_ne_zero fun h0 => hz (UInt64.toNat_inj.mp h0)
          omega
    · cases h
  | swap id =>
    simp only [step] at h
    split at h
    · next p nowMs last c hk =>
      obtain rfl := Option.some.inj h
      obtain ⟨-, hc⟩ := claimantAt_eq_some.mp hk
      unfold swapStep
      split
      · exact sound_takeSlot id nowMs hs hc
      · exact sound_finish id hs
    · cases h
  | check now p contended =>
    simp only [step, guarded_eq_some] at h
    obtain ⟨hclock, rfl⟩ := h
    exact hs.of_probed hclock (kept_circuits rfl) fun _ _ hl => .inl hl
  | success now p ticket => exact sound_write h
  | failure now p ticket => exact sound_write h
  | forget now keys => exact sound_write h

/-- The claims under way are sound in every run. -/
theorem sound_exec {cfg : CircuitBreakerConfig} {ls : List Label} {t : SharedBreaker}
    (h : exec (step cfg) .init ls = some t) : Sound cfg t := by
  refine exec_invariant (P := Sound cfg) (fun _ _ _ => sound_step) ?_ h
  intro id k hlookup
  cases hlookup

/-! ### Admissions -/

/-- A ticketed admission: its sample lies in the recovery phase, and with an interval the slot it
takes is empty or that interval old. -/
theorem admission_spec {cfg : CircuitBreakerConfig} {s : SharedBreaker} {l : Label} {p : String}
    {nowMs : Nat} (hs : Sound cfg s) (h : admission cfg s l = some (p, nowMs)) :
    cfg.enabled = true ∧ ∃ c, s.circuits p = some c ∧
      (∃ now, Recovering cfg c now ∧ nowMs = sampledMs c now) ∧
      (cfg.halfOpenProbeIntervalMs ≠ 0 → c.lastProbeMs ≠ 0 →
        c.lastProbeMs + cfg.halfOpenProbeIntervalMs.toNat ≤ nowMs) := by
  cases l with
  | load id =>
    simp only [admission] at h
    split at h
    · next q ms c hk =>
      split at h
      · next hz =>
        obtain ⟨rfl, rfl⟩ := Prod.mk.inj (Option.some.inj h)
        obtain ⟨hlookup, hc⟩ := claimantAt_eq_some.mp hk
        obtain ⟨hen, d, hd, hsample⟩ := hs id _ hlookup
        obtain rfl : c = d := Option.some.inj (hc.symm.trans hd)
        exact ⟨hen, c, hc, hsample, fun hne => absurd hz hne⟩
      · cases h
    · cases h
  | swap id =>
    simp only [admission] at h
    split at h
    · next q ms last c hk =>
      split at h
      · next heq =>
        obtain ⟨rfl, rfl⟩ := Prod.mk.inj (Option.some.inj h)
        obtain ⟨hlookup, hc⟩ := claimantAt_eq_some.mp hk
        obtain ⟨hen, d, hd, hsample, -, hgap⟩ := hs id _ hlookup
        obtain rfl : c = d := Option.some.inj (hc.symm.trans hd)
        subst heq
        exact ⟨hen, c, hc, hsample, fun _ => hgap⟩
      · cases h
    · cases h
  | claim id now q contended => cases h
  | sample id now => cases h
  | check now q contended => cases h
  | success now q ticket => cases h
  | failure now q ticket => cases h
  | forget now keys => cases h

/-! ### Pacing -/

/-- The circuit was forgotten, closed or reopened. -/
def Interrupted : Option PeerCircuit → Option PeerCircuit → Prop
  | some _, none => True
  | some b, some c => b.state ≠ .closed ∧ (c.state = .closed ∨
      c.state = .opened ∧ (b.state = .halfOpen ∨ b.consecutiveOpens ≠ c.consecutiveOpens))
  | none, _ => False

/-- The access neither forgets, closes nor reopens the circuit of `p`. -/
def Uninterrupted (cfg : CircuitBreakerConfig) (p : String) (s : SharedBreaker) (l : Label) :
    Prop :=
  ∀ t, step cfg s l = some t → ¬ Interrupted (s.circuits p) (t.circuits p)

/-- In the run of `ls`, two ticketed admissions to one peer with no interruption of its circuit
between them sampled times at least the probe interval apart. -/
def Paced (cfg : CircuitBreakerConfig) (ls : List Label) : Prop :=
  ∀ pre a mid b post s t u p t₁ t₂,
    ls = pre ++ a :: (mid ++ b :: post) →
    exec (step cfg) .init pre = some s → step cfg s a = some t →
    admission cfg s a = some (p, t₁) →
    exec (step cfg) t mid = some u → Along (step cfg) (Uninterrupted cfg p) t mid →
    admission cfg u b = some (p, t₂) →
    t₁ + cfg.halfOpenProbeIntervalMs.toNat ≤ t₂

/-- The circuit of `p` is recovering since a probe sampled at `t₁`. -/
private def ProbedSince (p : String) (t₁ : Nat) (s : SharedBreaker) : Prop :=
  0 < t₁ ∧ ∃ c, s.circuits p = some c ∧ c.state ≠ .closed ∧ t₁ ≤ c.lastProbeMs

private theorem recordSuccess_probed {cfg : CircuitBreakerConfig} {c : PeerCircuit} (now : Nat)
    (ticket : Bool) (hs : c.state ≠ .closed)
    (hi : ¬ Interrupted (some c) (some (c.recordSuccess cfg now ticket).1)) :
    (c.recordSuccess cfg now ticket).1.state ≠ .closed ∧
      (c.recordSuccess cfg now ticket).1.lastProbeMs = c.lastProbeMs := by
  have hopen : (c.recordSuccess cfg now ticket).1.state ≠ .closed := fun h => hi ⟨hs, .inl h⟩
  refine ⟨hopen, ?_⟩
  revert hopen
  unfold PeerCircuit.recordSuccess
  cases hc : c.state with
  | closed => exact absurd hc hs
  | halfOpen =>
    dsimp only
    split
    · exact fun _ => rfl
    split
    · exact fun hopen => absurd rfl hopen
    · exact fun _ => rfl
  | opened =>
    dsimp only
    split
    · split
      · exact fun hopen => absurd rfl hopen
      · exact fun _ => rfl
    · exact fun _ => rfl

private theorem recordFailure_probed {cfg : CircuitBreakerConfig} {c : PeerCircuit} (now : Nat)
    (ticket : Bool) (hs : c.state ≠ .closed)
    (hi : ¬ Interrupted (some c) (some (c.recordFailure cfg now ticket))) :
    (c.recordFailure cfg now ticket).state ≠ .closed ∧
      (c.recordFailure cfg now ticket).lastProbeMs = c.lastProbeMs := by
  revert hi
  unfold PeerCircuit.recordFailure
  cases hc : c.state with
  | closed => exact absurd hc hs
  | halfOpen =>
    dsimp only
    split
    · exact fun hi => absurd ⟨hs, .inr ⟨rfl, .inl hc⟩⟩ hi
    · exact fun _ => ⟨by simp, rfl⟩
  | opened =>
    dsimp only
    split
    · refine fun hi => absurd ⟨hs, .inr ⟨rfl, .inr ?_⟩⟩ hi
      simp [PeerCircuit.resetProbe]
    · exact fun _ => ⟨by simp, rfl⟩

private theorem entry_of_some {circuits : Circuits} {p : String} {c : PeerCircuit}
    (h : circuits p = some c) (now : Nat) : entry circuits p now = c := by simp [entry, h]

private theorem probedSince_step {cfg : CircuitBreakerConfig} {s t : SharedBreaker} {l : Label}
    {p : String} {t₁ : Nat} (hi : cfg.halfOpenProbeIntervalMs ≠ 0) (hs : Sound cfg s)
    (hp : ProbedSince p t₁ s) (hu : Uninterrupted cfg p s l) (h : step cfg s l = some t) :
    ProbedSince p t₁ t := by
  obtain ⟨hpos, c, hc, hstate, hle⟩ := hp
  have hkept := hu t h
  rw [hc] at hkept
  refine ⟨hpos, ?_⟩
  cases step_access h with
  | quiet hq _ => exact ⟨c, by rw [hq, hc], hstate, hle⟩
  | admitted q d nowMs ha hq ht =>
    rw [ht]
    by_cases hpq : p = q
    · subst q
      obtain ⟨-, b, hb, -, hgap⟩ := admission_spec hs ha
      obtain rfl : c = d := Option.some.inj (hc.symm.trans hq)
      obtain rfl : c = b := Option.some.inj (hc.symm.trans hb)
      have hnext := hgap hi (by omega)
      exact ⟨_, Function.update_self .., hstate, by simp only; omega⟩
    · exact ⟨c, by rw [Function.update_of_ne hpq, hc], hstate, hle⟩
  | write e hop hw _ _ =>
    have heff := (step_effect hw p).2.2
    have ht : t.breaker.circuits p = t.circuits p := rfl
    rw [ht] at heff
    generalize hr : t.circuits p = r at heff hkept
    cases heff with
    | same _ _ => exact ⟨c, hc, hstate, hle⟩
    | probe d contended ms ho _ => exact absurd ho (hop p contended)
    | success ticket _ _ =>
      have hentry : entry s.breaker.circuits p e.now = c := entry_of_some hc e.now
      rw [hentry] at hkept ⊢
      obtain ⟨hopen, hslot⟩ := recordSuccess_probed e.now ticket hstate hkept
      exact ⟨_, rfl, hopen, by rw [hslot]; exact hle⟩
    | failure ticket _ _ =>
      have hentry : entry s.breaker.circuits p e.now = c := entry_of_some hc e.now
      rw [hentry] at hkept ⊢
      obtain ⟨hopen, hslot⟩ := recordFailure_probed e.now ticket hstate hkept
      exact ⟨_, rfl, hopen, by rw [hslot]; exact hle⟩
    | forget keys _ _ => exact absurd trivial hkept

private theorem probedSince_admission {cfg : CircuitBreakerConfig} {s t : SharedBreaker}
    {l : Label} {p : String} {t₁ : Nat} (hs : Sound cfg s) (h : step cfg s l = some t)
    (ha : admission cfg s l = some (p, t₁)) : ProbedSince p t₁ t := by
  obtain ⟨-, c, hc, ⟨now, hrec, hms⟩, -⟩ := admission_spec hs ha
  have hstate : c.state ≠ .closed := by
    obtain hstate | ⟨hstate, -⟩ := hrec <;> simp [hstate]
  refine ⟨by rw [hms]; exact Nat.lt_of_lt_of_le Nat.one_pos (Nat.le_max_right _ _), ?_⟩
  cases step_access h with
  | quiet _ hn => rw [hn] at ha; cases ha
  | admitted q d ms hd hq ht =>
    obtain ⟨rfl, rfl⟩ := Prod.mk.inj (Option.some.inj (hd.symm.trans ha))
    obtain rfl : c = d := Option.some.inj (hc.symm.trans hq)
    refine ⟨{ c with lastProbeMs := ms }, ?_, hstate, Nat.le_refl _⟩
    rw [ht, Function.update_self]
  | write _ _ _ _ hn => rw [hn] at ha; cases ha

/-- With a probe interval every run is paced. -/
theorem paced_of_interval {cfg : CircuitBreakerConfig} (hi : cfg.halfOpenProbeIntervalMs ≠ 0)
    (ls : List Label) : Paced cfg ls := by
  intro pre a mid b post s t u p t₁ t₂ _ hpre ha hadm₁ hmid hun hadm₂
  have hsound : Sound cfg t := sound_step (sound_exec hpre) ha
  have hinv : Sound cfg u ∧ ProbedSince p t₁ u := by
    refine exec_invariant_along (P := fun s => Sound cfg s ∧ ProbedSince p t₁ s) ?_
      ⟨hsound, probedSince_admission (sound_exec hpre) ha hadm₁⟩ hun hmid
    intro s l t hs hun hstep
    exact ⟨sound_step hs.1 hstep, probedSince_step hi hs.1 hs.2 hun hstep⟩
  obtain ⟨hu, hpos, c, hc, -, hle⟩ := hinv
  obtain ⟨-, d, hd, -, hgap⟩ := admission_spec hu hadm₂
  obtain rfl : c = d := Option.some.inj (hc.symm.trans hd)
  have hnext := hgap hi (by omega)
  omega

/-! ### Eligibility checks -/

/-- Two breakers that differ at most in how far the second one's clock lags. -/
private structure Lags (s r : SharedBreaker) : Prop where
  circuits : r.circuits = s.circuits
  claimants : r.claimants = s.claimants
  clock : r.clock ≤ s.clock

private theorem Lags.claimantAt {s r : SharedBreaker} (h : Lags s r) (id : Nat) :
    claimantAt r id = claimantAt s id := by
  simp only [Probes.claimantAt, h.circuits, h.claimants]

private theorem Lags.writeStep {cfg : CircuitBreakerConfig} {s r t : SharedBreaker} {now : Nat}
    {op : Op} (hl : Lags s r) (h : writeStep cfg s now op = some t) :
    ∃ u, Probes.writeStep cfg r now op = some u ∧ Lags t u := by
  simp only [Probes.writeStep, guarded_eq_some] at h ⊢
  obtain ⟨⟨hclock, hk⟩, rfl⟩ := h
  have hle : r.clock ≤ now := Nat.le_trans hl.clock hclock
  refine ⟨_, ⟨⟨hle, by rw [hl.claimants, hk]⟩, rfl⟩, ?_⟩
  exact ⟨by simp only [hl.circuits], hl.claimants, Nat.le_refl _⟩

private theorem Lags.finish {s r : SharedBreaker} (h : Lags s r) (id : Nat) :
    Lags (s.finish id) (r.finish id) :=
  ⟨h.circuits, by simp only [SharedBreaker.finish, h.claimants], h.clock⟩

private theorem Lags.advance {s r : SharedBreaker} (h : Lags s r) (id : Nat) (k : Claimant) :
    Lags (s.advance id k) (r.advance id k) :=
  ⟨h.circuits, by simp only [SharedBreaker.advance, h.claimants], h.clock⟩

private theorem Lags.takeSlot {s r : SharedBreaker} (h : Lags s r) (id : Nat) (p : String)
    (c : PeerCircuit) (nowMs : Nat) : Lags (s.takeSlot id p c nowMs) (r.takeSlot id p c nowMs) := by
  unfold SharedBreaker.takeSlot
  apply Lags.finish
  exact ⟨by simp only [h.circuits], h.claimants, h.clock⟩

private theorem Lags.step {cfg : CircuitBreakerConfig} {s r t : SharedBreaker} {l : Label}
    (hl : Lags s r) (hn : l.isCheck = false) (h : step cfg s l = some t) :
    ∃ u, Probes.step cfg r l = some u ∧ Lags t u := by
  cases l with
  | claim id now p contended =>
    simp only [Probes.step, guarded_eq_some] at h ⊢
    obtain ⟨⟨hclock, hfree⟩, rfl⟩ := h
    refine ⟨_, ⟨⟨Nat.le_trans hl.clock hclock, by rw [hl.claimants, hfree]⟩, rfl⟩, ?_⟩
    have hnow : Lags { s with clock := now } { r with clock := now } :=
      ⟨hl.circuits, hl.claimants, Nat.le_refl _⟩
    have hverdict : claimVerdict cfg r.circuits now p contended =
        claimVerdict cfg s.circuits now p contended := by rw [hl.circuits]
    rw [hverdict]
    split
    · exact hnow
    · exact hnow.advance id _
  | sample id now =>
    simp only [Probes.step, hl.claimantAt] at h ⊢
    split at h
    · simp only [guarded_eq_some] at h ⊢
      obtain ⟨hclock, rfl⟩ := h
      refine ⟨_, ⟨Nat.le_trans hl.clock hclock, rfl⟩, Lags.advance ?_ id _⟩
      exact ⟨hl.circuits, hl.claimants, Nat.le_refl _⟩
    · cases h
  | load id =>
    simp only [Probes.step, hl.claimantAt] at h ⊢
    split at h
    · obtain rfl := Option.some.inj h
      refine ⟨_, rfl, ?_⟩
      unfold loadStep
      split
      · exact hl.takeSlot id _ _ _
      split
      · exact hl.finish id
      · exact hl.advance id _
    · cases h
  | swap id =>
    simp only [Probes.step, hl.claimantAt] at h ⊢
    split at h
    · obtain rfl := Option.some.inj h
      refine ⟨_, rfl, ?_⟩
      unfold swapStep
      split
      · exact hl.takeSlot id _ _ _
      · exact hl.finish id
    · cases h
  | check now p contended => cases hn
  | success now p ticket => exact hl.writeStep h
  | failure now p ticket => exact hl.writeStep h
  | forget now keys => exact hl.writeStep h

private theorem Lags.check {cfg : CircuitBreakerConfig} {s r t : SharedBreaker} {l : Label}
    (hl : Lags s r) (hc : l.isCheck = true) (h : Probes.step cfg s l = some t) : Lags t r := by
  cases l with
  | check now p contended =>
    simp only [Probes.step, guarded_eq_some] at h
    obtain ⟨hclock, rfl⟩ := h
    exact ⟨hl.circuits, hl.claimants, Nat.le_trans hl.clock hclock⟩
  | claim id now p contended => cases hc
  | sample id now => cases hc
  | load id => cases hc
  | swap id => cases hc
  | success now p ticket => cases hc
  | failure now p ticket => cases hc
  | forget now keys => cases hc

private theorem exec_without_checks {cfg : CircuitBreakerConfig} {ls : List Label}
    {s r t : SharedBreaker} (hl : Lags s r) (h : exec (step cfg) s ls = some t) :
    ∃ u, exec (step cfg) r (ls.filter fun l => !l.isCheck) = some u ∧ Lags t u := by
  induction ls generalizing s r with
  | nil =>
    obtain rfl : s = t := by simpa using h
    exact ⟨r, rfl, hl⟩
  | cons l ls ih =>
    obtain ⟨m, hm, hrest⟩ := exec_cons_eq_some.mp h
    cases hc : l.isCheck with
    | true =>
      rw [List.filter_cons_of_neg (by simp [hc])]
      exact ih (hl.check hc hm) hrest
    | false =>
      rw [List.filter_cons_of_pos (by simp [hc])]
      obtain ⟨n, hn, hmn⟩ := hl.step hc hm
      obtain ⟨u, hu, htu⟩ := ih hmn hrest
      exact ⟨u, exec_cons_eq_some.mpr ⟨n, hn, hu⟩, htu⟩

/-- With a probe interval, uninterrupted ticketed admissions to a peer are an interval apart in
every run, and eligibility checks take no probe slot: without them the run leaves the same
circuits and claims. -/
theorem probes_paced_and_checks_free {cfg : CircuitBreakerConfig}
    (hi : 0 < cfg.halfOpenProbeIntervalMs) (ls : List Label) :
    Paced cfg ls ∧ ∀ t, exec (step cfg) .init ls = some t →
      ∃ u, exec (step cfg) .init (ls.filter fun l => !l.isCheck) = some u ∧
        u.circuits = t.circuits ∧ u.claimants = t.claimants := by
  refine ⟨paced_of_interval (UInt64.pos_iff_ne_zero.mp hi) ls, fun t ht => ?_⟩
  obtain ⟨u, hu, hl⟩ := exec_without_checks ⟨rfl, rfl, Nat.le_refl _⟩ ht
  exact ⟨u, hu, hl.circuits, hl.claimants⟩

/-- One failure opens a circuit, for 10 ms. -/
def recoveringConfig : CircuitBreakerConfig := { failureThreshold := 1, openDurationBaseMs := 10 }

/-- The circuit opens, two claims contend for its first probe, and both load an empty slot. -/
def contendedProbe : List Label :=
  [.failure 0 "peer" false, .claim 1 12000000 "peer" false, .claim 2 12000000 "peer" false,
    .sample 1 12000000, .sample 2 13000000, .load 1, .load 2]

/-- The second claim loses its swap, the first probe half-opens the circuit, a claim inside the
interval is turned away, and the next one comes to its swap. -/
def pacedProbe : List Label :=
  [.swap 2, .check 14000000 "peer" false, .success 15000000 "peer" true,
    .claim 3 900000000 "peer" false, .sample 3 900000000, .load 3,
    .claim 4 1012000000 "peer" false, .sample 4 1012000000, .load 4]

/-- The interval holds across the half-open transition of a contended recovery. -/
theorem probes_paced_across_half_open :
    (∃ s u, exec (step recoveringConfig) .init contendedProbe = some s ∧
      admission recoveringConfig s (.swap 1) = some ("peer", 12) ∧
      exec (step recoveringConfig) s (.swap 1 :: pacedProbe) = some u ∧
      admission recoveringConfig u (.swap 4) = some ("peer", 1012)) ∧
    Paced recoveringConfig (contendedProbe ++ .swap 1 :: (pacedProbe ++ [.swap 4])) :=
  ⟨⟨_, _, rfl, rfl, rfl, rfl⟩, (probes_paced_and_checks_free (by decide) _).1⟩

end Llamesh.CircuitBreaker.Probes
