import Llamesh.Gossip.Model
import Mathlib.Algebra.Order.Floor.Div
import Mathlib.Tactic.Ring

/-!
# The cost of a cold start

`calculate_cold_start_cost` (`src/node_state/mod.rs:4454–4538`): what it adds to the score of a node
that has to spawn the model first. The `f64` arithmetic is exact here, and its values are whole
numbers. The cost of a node that evicts grows with the number of evictions, which is estimated from
the average instance, rounded down: it can pass the cost of a node that never fits the model, and
it can grow when memory becomes free.
-/

namespace Llamesh.Router

open Gossip

/-- `COLD_START_PENALTY`. -/
def coldStartPenalty : Nat := 30

/-- `EVICTION_BASE_PENALTY`. -/
def evictionBasePenalty : Nat := 500

/-- `EVICTION_PER_INSTANCE`. -/
def evictionPerInstance : Nat := 200

/-- `CANNOT_FIT_PENALTY`. -/
def cannotFitPenalty : Nat := 10000

/-- A memory has room for the requirement, which may be unknown. -/
def roomFor (memory required : Nat) : Bool := required == 0 || memory ≥ required

/-- The model fits without eviction. `src/node_state/mod.rs:4474–4475`. -/
def fitsAvailable (peer : PeerState) (vramRequired sysmemRequired : Nat) : Bool :=
  roomFor peer.availableVram vramRequired && roomFor peer.availableSysmem sysmemRequired

/-- The model fits when everything is evicted. `src/node_state/mod.rs:4486–4487`. -/
def fitsTotal (peer : PeerState) (vramRequired sysmemRequired : Nat) : Bool :=
  roomFor peer.maxVram vramRequired && roomFor peer.maxSysmem sysmemRequired

/-- The evictions one memory asks for. `src/node_state/mod.rs:4495–4530`. -/
def evictionsFor (activeInstances max available required : Nat) : Nat :=
  let deficit := required - available
  let used := max - available
  let avg := if used > 0 then used / activeInstances else 1
  if avg > 0 && deficit > 0 then deficit ⌈/⌉ avg else 0

/-- The estimated number of evictions. `src/node_state/mod.rs:4500–4535`. -/
def evictionCount (peer : PeerState) (vramRequired sysmemRequired : Nat) : Nat :=
  let count :=
    if peer.activeInstances = 0 then 1
    else
      max (max (evictionsFor peer.activeInstances peer.maxVram peer.availableVram vramRequired)
        (evictionsFor peer.activeInstances peer.maxSysmem peer.availableSysmem sysmemRequired)) 1
  min count peer.activeInstances

/-- The cost of a cold start at the peer. `src/node_state/mod.rs:4460–4538`. -/
def calculateColdStartCost (peer : PeerState) (vramRequired sysmemRequired : Nat) : Nat :=
  if vramRequired == 0 && sysmemRequired == 0 then coldStartPenalty
  else if fitsAvailable peer vramRequired sysmemRequired then coldStartPenalty
  else if !fitsTotal peer vramRequired sysmemRequired then cannotFitPenalty
  else evictionBasePenalty + evictionCount peer vramRequired sysmemRequired * evictionPerInstance

/-! ### The tiers -/

/-- The free memory of a node is part of its total. -/
structure WithinTotal (peer : PeerState) : Prop where
  vram : peer.availableVram ≤ peer.maxVram
  sysmem : peer.availableSysmem ≤ peer.maxSysmem

/-- In one memory, `k` instances of the average size make up for what is missing. A memory whose
average rounds to zero is not counted. -/
def CoversIn (activeInstances max available required k : Nat) : Prop :=
  (max - available) / activeInstances = 0 ∨
    required ≤ available + k * ((max - available) / activeInstances)

/-- `k` instances of the average size make up for what is missing in both memories. -/
def Covers (peer : PeerState) (vramRequired sysmemRequired k : Nat) : Prop :=
  CoversIn peer.activeInstances peer.maxVram peer.availableVram vramRequired k ∧
    CoversIn peer.activeInstances peer.maxSysmem peer.availableSysmem sysmemRequired k

instance (activeInstances max available required k : Nat) :
    Decidable (CoversIn activeInstances max available required k) :=
  inferInstanceAs (Decidable (_ ∨ _))

instance (peer : PeerState) (vramRequired sysmemRequired k : Nat) :
    Decidable (Covers peer vramRequired sysmemRequired k) :=
  inferInstanceAs (Decidable (_ ∧ _))

section

variable {peer peer' : PeerState} {vram sysmem k : Nat}

/-- There is room for what fits. -/
@[simp] theorem roomFor_iff {memory required : Nat} :
    roomFor memory required = true ↔ required ≤ memory := by
  simp only [roomFor, Bool.or_eq_true, beq_iff_eq, decide_eq_true_eq]
  omega

private theorem fitsAvailable_iff :
    fitsAvailable peer vram sysmem = true ↔
      vram ≤ peer.availableVram ∧ sysmem ≤ peer.availableSysmem := by
  simp [fitsAvailable]

private theorem fitsTotal_iff :
    fitsTotal peer vram sysmem = true ↔ vram ≤ peer.maxVram ∧ sysmem ≤ peer.maxSysmem := by
  simp [fitsTotal]

/-- A model that fits now costs the cold start only. -/
theorem cost_of_fitsAvailable (h : fitsAvailable peer vram sysmem = true) :
    calculateColdStartCost peer vram sysmem = coldStartPenalty := by
  unfold calculateColdStartCost
  rw [if_pos h, ite_self]

private theorem coldStartPenalty_le :
    coldStartPenalty ≤ calculateColdStartCost peer vram sysmem := by
  unfold calculateColdStartCost
  split
  · exact le_rfl
  · split
    · exact le_rfl
    · split
      · decide
      · unfold coldStartPenalty evictionBasePenalty
        omega

/-- A model that never fits costs the same everywhere. -/
theorem cost_of_not_fitsTotal (hwithin : WithinTotal peer)
    (h : fitsTotal peer vram sysmem = false) :
    calculateColdStartCost peer vram sysmem = cannotFitPenalty := by
  have htotal : ¬ (vram ≤ peer.maxVram ∧ sysmem ≤ peer.maxSysmem) := by
    rw [← fitsTotal_iff, h]
    exact Bool.false_ne_true
  have hvram := hwithin.vram
  have hsysmem := hwithin.sysmem
  have hnow : ¬ fitsAvailable peer vram sysmem = true := by
    rw [fitsAvailable_iff]
    omega
  have hknown : ¬ (vram == 0 && sysmem == 0) = true := by
    simp only [Bool.and_eq_true, beq_iff_eq]
    omega
  unfold calculateColdStartCost
  rw [if_neg hknown, if_neg hnow, if_pos (by simp [h])]

/-- Between the two, a model costs its evictions. -/
theorem cost_of_evictions (hnow : fitsAvailable peer vram sysmem = false)
    (htotal : fitsTotal peer vram sysmem = true) :
    calculateColdStartCost peer vram sysmem =
      evictionBasePenalty + evictionCount peer vram sysmem * evictionPerInstance := by
  have hknown : ¬ (vram == 0 && sysmem == 0) = true := by
    rw [Bool.and_eq_true, beq_iff_eq, beq_iff_eq]
    rintro ⟨rfl, rfl⟩
    have hfits : fitsAvailable peer 0 0 = true := rfl
    rw [hnow] at hfits
    cases hfits
  unfold calculateColdStartCost
  rw [if_neg hknown, if_neg (by simp [hnow]), if_neg (by simp [htotal])]

/-- What one memory asks for is at most `k` evictions exactly when these cover it. -/
theorem evictionsFor_le_iff {activeInstances max available required : Nat}
    (hrequired : required ≤ max) :
    evictionsFor activeInstances max available required ≤ k ↔
      CoversIn activeInstances max available required k := by
  unfold evictionsFor CoversIn
  dsimp only
  by_cases hused : max - available > 0
  · rw [if_pos hused]
    generalize (max - available) / activeInstances = avg
    by_cases hcounts : avg > 0 ∧ required - available > 0
    · have hbool : (decide (avg > 0) && decide (required - available > 0)) = true := by
        simpa using hcounts
      rw [if_pos hbool, ceilDiv_le_iff_le_mul hcounts.1, Nat.mul_comm]
      omega
    · have hbool : ¬ (decide (avg > 0) && decide (required - available > 0)) = true := by
        simpa using hcounts
      rw [if_neg hbool]
      refine iff_of_true (Nat.zero_le k) ?_
      by_cases havg : avg = 0
      · exact .inl havg
      · right
        have hle : required ≤ available := by omega
        exact Nat.le_add_right_of_le hle
  · -- Nothing is used, so nothing is missing either.
    have hnone : required - available = 0 := by omega
    have havg : (max - available) / activeInstances = 0 := by
      rw [show max - available = 0 by omega, Nat.zero_div]
    rw [hnone]
    exact iff_of_true (by simp) (.inl havg)

/-- The estimate is at most `k` when there are no more instances, or `k` of them suffice. -/
theorem evictionCount_le_iff (htotal : fitsTotal peer vram sysmem = true)
    (hk : k < peer.activeInstances) :
    evictionCount peer vram sysmem ≤ k ↔ 0 < k ∧ Covers peer vram sysmem k := by
  obtain ⟨hvram, hsysmem⟩ := fitsTotal_iff.mp htotal
  unfold evictionCount Covers
  dsimp only
  rw [if_neg (by omega), ← evictionsFor_le_iff hvram, ← evictionsFor_le_iff hsysmem]
  omega

private theorem evictionCount_le (peer : PeerState) (vram sysmem : Nat) :
    evictionCount peer vram sysmem ≤ peer.activeInstances := by
  unfold evictionCount
  exact Nat.min_le_right _ _

private theorem evictionCount_pos (peer : PeerState) (vram sysmem : Nat)
    (h : 0 < peer.activeInstances) : 0 < evictionCount peer vram sysmem := by
  unfold evictionCount
  dsimp only
  rw [if_neg (by omega)]
  omega

end

/-- A node that can fit the model costs less than one that never can exactly when the model fits in
its free memory, or it has fewer than 48 instances, or 47 of the average size cover what is
missing. -/
theorem feasible_costs_less_iff (feasible infeasible : PeerState)
    (vramRequired sysmemRequired : Nat)
    (hwithin : WithinTotal infeasible)
    (hfits : fitsTotal feasible vramRequired sysmemRequired = true)
    (hnever : fitsTotal infeasible vramRequired sysmemRequired = false) :
    calculateColdStartCost feasible vramRequired sysmemRequired <
        calculateColdStartCost infeasible vramRequired sysmemRequired ↔
      fitsAvailable feasible vramRequired sysmemRequired = true ∨
        feasible.activeInstances < 48 ∨ Covers feasible vramRequired sysmemRequired 47 := by
  rw [cost_of_not_fitsTotal hwithin hnever]
  cases hnow : fitsAvailable feasible vramRequired sysmemRequired with
  | true =>
    rw [cost_of_fitsAvailable hnow]
    exact iff_of_true (by decide) (.inl rfl)
  | false =>
    rw [cost_of_evictions hnow hfits]
    have hcount : evictionBasePenalty +
        evictionCount feasible vramRequired sysmemRequired * evictionPerInstance <
          cannotFitPenalty ↔ evictionCount feasible vramRequired sysmemRequired ≤ 47 := by
      unfold evictionBasePenalty evictionPerInstance cannotFitPenalty
      omega
    rw [hcount]
    by_cases hactive : feasible.activeInstances < 48
    · have hle := evictionCount_le feasible vramRequired sysmemRequired
      exact iff_of_true (by omega) (.inr (.inl hactive))
    · rw [evictionCount_le_iff hfits (by omega)]
      simp [hactive]

/-- Nodes with only these memories and instances. -/
def nodeWith (activeInstances maxVram availableVram : Nat) : PeerState :=
  { placeholder ⟨"node-a", "http://10.0.0.2:9000"⟩ 0 with
    activeInstances := activeInstances
    maxVram := maxVram
    availableVram := availableVram }

/-- A node of 24 GB that could evict two instances costs less than one of 8 GB for 16 GB. -/
theorem feasible_costs_less_two_evictions :
    Covers (nodeWith 3 24000 0) 16000 0 47 ∧
      calculateColdStartCost (nodeWith 3 24000 0) 16000 0 <
        calculateColdStartCost (nodeWith 1 8000 2000) 16000 0 := by
  have hcovers : Covers (nodeWith 3 24000 0) 16000 0 47 := by decide
  exact ⟨hcovers, (feasible_costs_less_iff (nodeWith 3 24000 0) (nodeWith 1 8000 2000) 16000 0
    ⟨by decide, by decide⟩ (by decide) (by decide)).mpr (.inr (.inr hcovers))⟩

/-- A node that would evict all of its 48 instances costs more than one that never fits. -/
theorem feasible_costs_more :
    ¬ ∀ (feasible infeasible : PeerState) (vramRequired sysmemRequired : Nat),
      WithinTotal feasible → WithinTotal infeasible →
      fitsTotal feasible vramRequired sysmemRequired = true →
      fitsTotal infeasible vramRequired sysmemRequired = false →
      calculateColdStartCost feasible vramRequired sysmemRequired <
        calculateColdStartCost infeasible vramRequired sysmemRequired := by
  intro h
  have hcost := h (nodeWith 48 49152 0) (nodeWith 1 24576 2000) 49152 0 ⟨by decide, by decide⟩
    ⟨by decide, by decide⟩ (by decide) (by decide)
  exact absurd hcost (by decide)

/-! ### Freed memory -/

/-- The same node with more free memory. -/
structure Freed (before after : PeerState) : Prop where
  same : after = { before with
    availableVram := after.availableVram, availableSysmem := after.availableSysmem }
  vram : before.availableVram ≤ after.availableVram
  sysmem : before.availableSysmem ≤ after.availableSysmem

section

variable {before after : PeerState} {vram sysmem : Nat}

private theorem Freed.activeInstances_eq (h : Freed before after) :
    after.activeInstances = before.activeInstances := by
  rw [h.same]

private theorem Freed.fitsTotal_eq (h : Freed before after) :
    fitsTotal after vram sysmem = fitsTotal before vram sysmem := by
  rw [h.same]
  rfl

private theorem Freed.fitsAvailable_of_before (h : Freed before after)
    (hfits : fitsAvailable before vram sysmem = true) : fitsAvailable after vram sysmem = true := by
  have hvram := h.vram
  have hsysmem := h.sysmem
  rw [fitsAvailable_iff] at hfits ⊢
  omega

/-- Freed memory does not raise the number of evictions exactly when no number of instances that
was enough before is no longer enough. -/
theorem Freed.evictionCount_le_iff (h : Freed before after)
    (htotal : fitsTotal before vram sysmem = true) :
    evictionCount after vram sysmem ≤ evictionCount before vram sysmem ↔
      ∀ k, 0 < k → k < before.activeInstances →
        Covers before vram sysmem k → Covers after vram sysmem k := by
  have hactive := h.activeInstances_eq
  have htotal' : fitsTotal after vram sysmem = true := h.fitsTotal_eq.trans htotal
  constructor
  · intro hle k hpos hk hcovers
    have hbefore := (Router.evictionCount_le_iff htotal hk).mpr ⟨hpos, hcovers⟩
    exact ((Router.evictionCount_le_iff htotal' (by omega)).mp (hle.trans hbefore)).2
  · intro hcovers
    have hall := evictionCount_le after vram sysmem
    by_cases hlast : evictionCount before vram sysmem < before.activeInstances
    · have hpos := evictionCount_pos before vram sysmem (by omega)
      have hself := ((Router.evictionCount_le_iff htotal hlast).mp le_rfl).2
      exact (Router.evictionCount_le_iff htotal' (by omega)).mpr
        ⟨hpos, hcovers _ hpos hlast hself⟩
    · omega

/-- Freed memory does not raise the cost exactly when the model fits then, or never does, or the
number of evictions is not raised. -/
theorem Freed.cost_le_iff (h : Freed before after) (hwithin : WithinTotal before)
    (hwithin' : WithinTotal after) :
    calculateColdStartCost after vram sysmem ≤ calculateColdStartCost before vram sysmem ↔
      fitsAvailable after vram sysmem = true ∨ fitsTotal before vram sysmem = false ∨
        evictionCount after vram sysmem ≤ evictionCount before vram sysmem := by
  cases hnow : fitsAvailable after vram sysmem with
  | true =>
    refine iff_of_true ?_ (.inl rfl)
    rw [cost_of_fitsAvailable hnow]
    exact coldStartPenalty_le
  | false =>
    cases htotal : fitsTotal before vram sysmem with
    | false =>
      rw [cost_of_not_fitsTotal hwithin htotal,
        cost_of_not_fitsTotal hwithin' (h.fitsTotal_eq.trans htotal)]
      exact iff_of_true le_rfl (.inr (.inl rfl))
    | true =>
      have hbefore : fitsAvailable before vram sysmem = false := by
        rw [Bool.eq_false_iff]
        intro hfits
        rw [h.fitsAvailable_of_before hfits] at hnow
        cases hnow
      rw [cost_of_evictions hbefore htotal, cost_of_evictions hnow (h.fitsTotal_eq.trans htotal)]
      simp only [Bool.false_eq_true, Bool.true_eq_false, false_or]
      unfold evictionPerInstance
      omega

end

/-! ### The remainder of the average -/

/-- What the instances do not share evenly of a memory grows by no more than a share of the freed
memory; or less than a megabyte for each instance is left in use. -/
def RemainderKept (activeInstances used used' : Nat) : Prop :=
  used' < activeInstances ∨
    (activeInstances - 1) * (used' % activeInstances) ≤
      (used - used') + (activeInstances - 1) * (used % activeInstances)

instance (activeInstances used used' : Nat) :
    Decidable (RemainderKept activeInstances used used') :=
  inferInstanceAs (Decidable (_ ∨ _))

/-- The bound on the remainders bounds how far the average falls. -/
theorem average_drop_iff {n used used' : Nat} (hn : 0 < n) (h : used' ≤ used) :
    (n - 1) * (used' % n) ≤ (used - used') + (n - 1) * (used % n) ↔
      (n - 1) * (used / n) ≤ (used - used') + (n - 1) * (used' / n) := by
  obtain ⟨m, rfl⟩ : ∃ m, n = m + 1 := ⟨n - 1, by omega⟩
  obtain ⟨freed, rfl⟩ := Nat.exists_eq_add_of_le h
  have hbefore := Nat.div_add_mod (used' + freed) (m + 1)
  have hafter := Nat.div_add_mod used' (m + 1)
  generalize (used' + freed) / (m + 1) = avg at hbefore ⊢
  generalize (used' + freed) % (m + 1) = rest at hbefore ⊢
  generalize used' / (m + 1) = avg' at hafter ⊢
  generalize used' % (m + 1) = rest' at hafter ⊢
  subst hafter
  rw [Nat.add_sub_cancel, Nat.add_sub_cancel_left]
  -- `m` times what is left of the sum, against `m + 1` times what is freed.
  have hsum : m * ((m + 1) * avg + rest) = m * ((m + 1) * avg' + rest' + freed) := by rw [hbefore]
  have hscale : m * avg ≤ freed + m * avg' ↔
      (m + 1) * (m * avg) ≤ (m + 1) * (freed + m * avg') :=
    (Nat.mul_le_mul_left_iff (Nat.succ_pos m)).symm
  have hleft : (m + 1) * (m * avg) + m * rest = m * ((m + 1) * avg + rest) := by ring
  have hright : m * ((m + 1) * avg' + rest' + freed) + freed =
      (m + 1) * (freed + m * avg') + m * rest' := by ring
  omega

/-- Where the remainder is kept, what was enough in one memory stays enough. -/
theorem CoversIn.of_remainderKept {activeInstances max available available' required k : Nat}
    (hk : k < activeInstances) (hfree : available ≤ available') (hmax : available' ≤ max)
    (hkept : RemainderKept activeInstances (max - available) (max - available'))
    (h : CoversIn activeInstances max available required k) :
    CoversIn activeInstances max available' required k := by
  have hpos : 0 < activeInstances := by omega
  have hused : max - available' ≤ max - available := by omega
  unfold CoversIn at h ⊢
  by_cases hnone : (max - available') / activeInstances = 0
  · exact .inl hnone
  right
  have hmany : activeInstances ≤ max - available' := by
    by_contra hfew
    exact hnone (Nat.div_eq_of_lt (by omega))
  have hdrop := (average_drop_iff hpos hused).mp (hkept.resolve_left (by omega))
  have hmono := Nat.div_le_div_right (c := activeInstances) hused
  generalize (max - available) / activeInstances = avg at *
  generalize (max - available') / activeInstances = avg' at *
  obtain ⟨drop, rfl⟩ := Nat.exists_eq_add_of_le hmono
  have hcovers : required ≤ available + k * (avg' + drop) := h.resolve_left (by omega)
  have hshare : k * drop ≤ (activeInstances - 1) * drop := Nat.mul_le_mul_right _ (by omega)
  rw [Nat.mul_add] at hdrop hcovers
  omega

/-- Where the remainder grows too much, all instances but one cover a requirement of this memory
before and not after. -/
theorem exists_required_of_not_remainderKept {activeInstances max available available' : Nat}
    (hactive : 0 < activeInstances) (hfree : available ≤ available') (hmax : available' ≤ max)
    (h : ¬ RemainderKept activeInstances (max - available) (max - available')) :
    ∃ required, required ≤ max ∧ 1 < activeInstances ∧
      CoversIn activeInstances max available required (activeInstances - 1) ∧
      ¬ CoversIn activeInstances max available' required (activeInstances - 1) := by
  have hused : max - available' ≤ max - available := by omega
  obtain ⟨hmany, hdrop⟩ := not_or.mp h
  rw [average_drop_iff hactive hused] at hdrop
  refine ⟨available + (activeInstances - 1) * ((max - available) / activeInstances), ?_, ?_,
    .inr le_rfl, ?_⟩
  · have hall : activeInstances * ((max - available) / activeInstances) ≤ max - available :=
      Nat.mul_div_le _ _
    have hone : (activeInstances - 1) * ((max - available) / activeInstances) ≤
        activeInstances * ((max - available) / activeInstances) :=
      Nat.mul_le_mul_right _ (Nat.sub_le _ _)
    omega
  · by_contra hone
    obtain rfl : activeInstances = 1 := by omega
    simp at hdrop
  · rintro (hnone | hcovers)
    · have hpos := Nat.div_pos (Nat.le_of_not_lt hmany) hactive
      omega
    · omega

section

variable {before after : PeerState}

/-- A requirement that a number of instances covered before, and no longer covers, costs more. -/
theorem Freed.cost_lt (h : Freed before after) (hwithin : WithinTotal before)
    (hwithin' : WithinTotal after) {vram sysmem k : Nat} (hpos : 0 < k)
    (hk : k < before.activeInstances) (htotal : fitsTotal before vram sysmem = true)
    (hcovers : Covers before vram sysmem k) (hnot : ¬ Covers after vram sysmem k) :
    ¬ calculateColdStartCost after vram sysmem ≤ calculateColdStartCost before vram sysmem := by
  have hnow : fitsAvailable after vram sysmem = false := by
    rw [Bool.eq_false_iff, Ne, fitsAvailable_iff]
    rintro ⟨hvram, hsysmem⟩
    exact hnot ⟨.inr (Nat.le_add_right_of_le hvram), .inr (Nat.le_add_right_of_le hsysmem)⟩
  rw [h.cost_le_iff hwithin hwithin', hnow, htotal, h.evictionCount_le_iff htotal]
  simp only [Bool.false_eq_true, Bool.true_eq_false, false_or]
  exact fun hall => hnot (hall k hpos hk hcovers)

/-- Freed memory raises no cost when the remainder of each memory is kept. -/
theorem Freed.cost_le (h : Freed before after) (hwithin : WithinTotal before)
    (hwithin' : WithinTotal after)
    (hvram : RemainderKept before.activeInstances (before.maxVram - before.availableVram)
      (before.maxVram - after.availableVram))
    (hsysmem : RemainderKept before.activeInstances (before.maxSysmem - before.availableSysmem)
      (before.maxSysmem - after.availableSysmem)) (vram sysmem : Nat) :
    calculateColdStartCost after vram sysmem ≤ calculateColdStartCost before vram sysmem := by
  rw [h.cost_le_iff hwithin hwithin']
  cases htotal : fitsTotal before vram sysmem with
  | false => exact .inr (.inl rfl)
  | true =>
    refine .inr (.inr ((h.evictionCount_le_iff htotal).mpr fun k _ hk hcovers => ?_))
    have hmaxVram : after.maxVram = before.maxVram := by rw [h.same]
    have hmaxSysmem : after.maxSysmem = before.maxSysmem := by rw [h.same]
    unfold Covers at hcovers ⊢
    rw [h.activeInstances_eq, hmaxVram, hmaxSysmem]
    exact ⟨hcovers.1.of_remainderKept hk h.vram (hmaxVram ▸ hwithin'.vram) hvram,
      hcovers.2.of_remainderKept hk h.sysmem (hmaxSysmem ▸ hwithin'.sysmem) hsysmem⟩

end

/-- Freed memory raises the cost of no model exactly when, in each memory, the remainder of the used
memory by the instances grows at most by a share of what is freed. -/
theorem cost_mono_iff (before after : PeerState) (hfreed : Freed before after)
    (hwithin : WithinTotal before) (hwithin' : WithinTotal after) :
    (∀ vramRequired sysmemRequired,
      calculateColdStartCost after vramRequired sysmemRequired ≤
        calculateColdStartCost before vramRequired sysmemRequired) ↔
      RemainderKept before.activeInstances (before.maxVram - before.availableVram)
          (before.maxVram - after.availableVram) ∧
        RemainderKept before.activeInstances (before.maxSysmem - before.availableSysmem)
          (before.maxSysmem - after.availableSysmem) := by
  refine ⟨fun hmono => ?_, fun h => hfreed.cost_le hwithin hwithin' h.1 h.2⟩
  have hmaxVram : after.maxVram = before.maxVram := by rw [hfreed.same]
  have hmaxSysmem : after.maxSysmem = before.maxSysmem := by rw [hfreed.same]
  have hfreeVram : after.availableVram ≤ before.maxVram := hmaxVram ▸ hwithin'.vram
  have hfreeSysmem : after.availableSysmem ≤ before.maxSysmem := hmaxSysmem ▸ hwithin'.sysmem
  obtain hactive | hactive := Nat.eq_zero_or_pos before.activeInstances
  · rw [hactive]
    exact ⟨.inr (by simp), .inr (by simp)⟩
  -- A memory whose remainder grows too much has a model that costs more.
  refine ⟨?_, ?_⟩
  · by_contra hnot
    obtain ⟨required, htotal, hmany, hcovers, hshort⟩ :=
      exists_required_of_not_remainderKept hactive hfreed.vram hfreeVram hnot
    refine hfreed.cost_lt hwithin hwithin' (k := before.activeInstances - 1) (by omega) (by omega)
      (fitsTotal_iff.mpr ⟨htotal, Nat.zero_le _⟩) ⟨hcovers, .inr (Nat.zero_le _)⟩ ?_
      (hmono required 0)
    rintro ⟨hafter, -⟩
    rw [hfreed.activeInstances_eq, hmaxVram] at hafter
    exact hshort hafter
  · by_contra hnot
    obtain ⟨required, htotal, hmany, hcovers, hshort⟩ :=
      exists_required_of_not_remainderKept hactive hfreed.sysmem hfreeSysmem hnot
    refine hfreed.cost_lt hwithin hwithin' (k := before.activeInstances - 1) (by omega) (by omega)
      (fitsTotal_iff.mpr ⟨Nat.zero_le _, htotal⟩) ⟨.inr (Nat.zero_le _), hcovers⟩ ?_
      (hmono 0 required)
    rintro ⟨-, hafter⟩
    rw [hfreed.activeInstances_eq, hmaxSysmem] at hafter
    exact hshort hafter

/-- A node of 24 GB with three instances that frees 9 GB costs less for 16 GB. -/
theorem cost_mono_freed_instance :
    Freed (nodeWith 3 24000 0) (nodeWith 3 24000 9000) ∧
      calculateColdStartCost (nodeWith 3 24000 9000) 16000 0 ≤
        calculateColdStartCost (nodeWith 3 24000 0) 16000 0 := by
  have hfreed : Freed (nodeWith 3 24000 0) (nodeWith 3 24000 9000) :=
    ⟨rfl, by decide, by decide⟩
  have hmono := (cost_mono_iff _ _ hfreed ⟨by decide, by decide⟩ ⟨by decide, by decide⟩).mpr
    ⟨by decide, by decide⟩
  exact ⟨hfreed, hmono 16000 0⟩

/-- With one megabyte more free, three evictions are estimated in place of two. -/
theorem cost_raised_by_freed_memory :
    ¬ ∀ (before after : PeerState) (vramRequired sysmemRequired : Nat), Freed before after →
      WithinTotal before → WithinTotal after →
      calculateColdStartCost after vramRequired sysmemRequired ≤
        calculateColdStartCost before vramRequired sysmemRequired := by
  intro h
  have hcost := h (nodeWith 3 24000 0) (nodeWith 3 24000 1) 16000 0 ⟨rfl, by decide, by decide⟩
    ⟨by decide, by decide⟩ ⟨by decide, by decide⟩
  exact absurd hcost (by decide)

end Llamesh.Router
