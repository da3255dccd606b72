import Llamesh.Gossip.Advertised
import Llamesh.Router.ColdStart
import Mathlib.Data.Rat.Defs
import Mathlib.Algebra.Order.Ring.Rat
import Mathlib.Tactic.Linarith
import Mathlib.Tactic.NormNum

/-!
# The score of a node

`calculate_node_score` (`src/node_state/mod.rs:4387–4452`), evaluated in exact arithmetic. Whether a
peer supports a model is decided up to ASCII case, but its statistics and its loaded models are
looked up by their exact text: two peers that spell a model differently are scored alike exactly
when the requested key is found at the same places of both.
-/

namespace Llamesh.Router

open Gossip

/-- The number an `f64` stands for; JSON has only finite ones. -/
def f64Value (bits : UInt64) : ℚ :=
  let exponent := (bits >>> 52 &&& 0x7FF).toNat
  let fraction := (bits &&& 0xFFFFFFFFFFFFF).toNat
  let magnitude : ℚ :=
    if exponent = 0 then fraction / 2 ^ 1074
    else (2 ^ 52 + fraction) * 2 ^ exponent / 2 ^ 1075
  if bits >>> 63 = 0 then magnitude else -magnitude

/-- The score of a peer for a request. `src/node_state/mod.rs:4402–4452`. -/
def calculateNodeScore (peer : PeerState) (modelKey : String) (localMemoryEstimate : Nat × Nat)
    (effectiveCurrentRequests : Nat) : ℚ :=
  let stats := peer.modelStats.lookup modelKey
  let tps := (stats.map fun s => f64Value s.tps).getD 0
  let required := ((stats.map fun s => (s.vramMb, s.sysmemMb)).filter
    fun r => r.1 > 0 || r.2 > 0).getD localMemoryEstimate
  let modelInstanceCount := (stats.map (·.instanceCount)).getD 0
  let modelLoaded := peer.loadedModels.any fun m => m == modelKey
  let loadScore : ℚ := peer.totalQueueLength * 50 + effectiveCurrentRequests * 50
  let coldStartCost : ℚ :=
    if modelLoaded then
      if modelInstanceCount > 0 then 0 else 0
    else calculateColdStartCost peer required.1 required.2
  let tpsBonus := min tps 200 * 5
  let remainingSlots := peer.maxInstances - peer.activeInstances
  let headroomBonus : ℚ := min (remainingSlots : ℚ) 4 * 50
  loadScore + coldStartCost - tpsBonus - headroomBonus

/-! ### Spellings -/

/-- Two states of a peer that differ in the ASCII case of the model names only. -/
structure CaseVariants (p q : PeerState) : Prop where
  same : q = { p with
    supportedModels := q.supportedModels
    loadedModels := q.loadedModels
    modelStats := q.modelStats }
  supported : List.Forall₂ (fun a b => eqIgnoreAsciiCase a b = true) p.supportedModels
    q.supportedModels
  loaded : List.Forall₂ (fun a b => eqIgnoreAsciiCase a b = true) p.loadedModels q.loadedModels
  stats : List.Forall₂ (fun a b => eqIgnoreAsciiCase a.1 b.1 = true ∧ a.2 = b.2) p.modelStats
    q.modelStats

/-- Two states of a peer with the same model names; the statistics and everything else may
differ. -/
structure SameNames (p q : PeerState) : Prop where
  supported : q.supportedModels = p.supportedModels
  loaded : q.loadedModels = p.loadedModels
  stats : q.modelStats.map Prod.fst = p.modelStats.map Prod.fst

/-- The key is found at the same places. -/
structure FoundAlike (p q : PeerState) (modelKey : String) : Prop where
  loaded : modelKey ∈ p.loadedModels ↔ modelKey ∈ q.loadedModels
  stats : (p.modelStats.map Prod.fst).idxOf? modelKey = (q.modelStats.map Prod.fst).idxOf? modelKey

/-- A request finds the model on both peers or on neither, and both have the same score for it. -/
structure RoutedAlike (p q : PeerState) (modelName profileId : String) : Prop where
  supports : peerSupportsProfile p modelName profileId = peerSupportsProfile q modelName profileId
  score : ∀ (localMemoryEstimate : Nat × Nat) (effectiveCurrentRequests : Nat),
    calculateNodeScore p (modelName ++ ":" ++ profileId) localMemoryEstimate
        effectiveCurrentRequests =
      calculateNodeScore q (modelName ++ ":" ++ profileId) localMemoryEstimate
        effectiveCurrentRequests

/-- Entries of one text up to ASCII case are accepted for the same requests. -/
theorem peerSupportsProfile_congr {p q : PeerState}
    (h : List.Forall₂ (fun a b => eqIgnoreAsciiCase a b = true) p.supportedModels
      q.supportedModels) (modelName profileId : String) :
    peerSupportsProfile p modelName profileId = peerSupportsProfile q modelName profileId := by
  have hentry : ∀ {a b : String}, eqIgnoreAsciiCase a b = true → ∀ text,
      eqIgnoreAsciiCase a text = eqIgnoreAsciiCase b text := by
    intro a b hab text
    rw [eqIgnoreAsciiCase_iff, Text.AsciiCaseEq] at hab
    simp only [eqIgnoreAsciiCase, hab]
  unfold peerSupportsProfile
  generalize p.supportedModels = ps at h ⊢
  generalize q.supportedModels = qs at h ⊢
  induction h with
  | nil => rfl
  | cons hab _ ih =>
    rw [List.any_cons, List.any_cons, ih, hentry hab, hentry hab]

/-- The statistics of a key are those at the place where it is first found. -/
theorem lookup_eq_bind_idxOf (stats : List (String × PeerModelStats)) (modelKey : String) :
    stats.lookup modelKey =
      ((stats.map Prod.fst).idxOf? modelKey).bind fun i => (stats.map Prod.snd)[i]? := by
  induction stats with
  | nil => rfl
  | cons entry stats ih =>
    rw [List.lookup_cons, List.map_cons, List.map_cons, List.idxOf?_cons, ih]
    by_cases hkey : entry.1 = modelKey
    · simp [hkey]
    · rw [if_neg (by simpa using hkey), beq_false_of_ne (Ne.symm hkey), Option.bind_map]
      rfl

private theorem CaseVariants.values_eq {p q : PeerState} (h : CaseVariants p q) :
    p.modelStats.map Prod.snd = q.modelStats.map Prod.snd := by
  have hstats := h.stats
  generalize p.modelStats = ps at hstats ⊢
  generalize q.modelStats = qs at hstats ⊢
  induction hstats with
  | nil => rfl
  | cons hab _ ih => rw [List.map_cons, List.map_cons, hab.2, ih]

private theorem CaseVariants.counts_eq {p q : PeerState} (h : CaseVariants p q) :
    q.totalQueueLength = p.totalQueueLength ∧ q.maxInstances = p.maxInstances ∧
      q.activeInstances = p.activeInstances := by
  rw [h.same]
  exact ⟨rfl, rfl, rfl⟩

/-- Peers where the key is found alike have the same score. -/
theorem CaseVariants.score_eq {p q : PeerState} (h : CaseVariants p q) {modelKey : String}
    (hfound : FoundAlike p q modelKey) (localMemoryEstimate : Nat × Nat)
    (effectiveCurrentRequests : Nat) :
    calculateNodeScore p modelKey localMemoryEstimate effectiveCurrentRequests =
      calculateNodeScore q modelKey localMemoryEstimate effectiveCurrentRequests := by
  have hstats : p.modelStats.lookup modelKey = q.modelStats.lookup modelKey := by
    rw [lookup_eq_bind_idxOf, lookup_eq_bind_idxOf, hfound.stats, h.values_eq]
  have hloaded : (p.loadedModels.any fun m => m == modelKey) =
      q.loadedModels.any fun m => m == modelKey := by
    rw [Bool.eq_iff_iff]
    simpa using hfound.loaded
  have hcost : ∀ vram sysmem,
      calculateColdStartCost q vram sysmem = calculateColdStartCost p vram sysmem := by
    intro vram sysmem
    rw [h.same]
    rfl
  obtain ⟨hqueue, hmax, hactive⟩ := h.counts_eq
  unfold calculateNodeScore
  simp only [hstats, hloaded, hcost, hqueue, hmax, hactive]

/-! ### Probes -/

/-- Statistics of ten tokens per second at one place of the list, and of none elsewhere. -/
def probeStats (place : Option Nat) (i : Nat) : PeerModelStats :=
  { tps := if place = some i then 0x4024000000000000 else 0
    queueLen := 0
    vramMb := 0
    sysmemMb := 0
    instanceCount := 0 }

/-- The peer with the statistics of a probe. -/
def probe (peer : PeerState) (place : Option Nat) : PeerState :=
  { peer with modelStats := peer.modelStats.mapIdx fun i entry => (entry.1, probeStats place i) }

private theorem f64Value_ten : f64Value 0x4024000000000000 = 10 := by
  have hexponent : ((0x4024000000000000 : UInt64) >>> 52 &&& 0x7FF).toNat = 1026 := by decide
  have hfraction : ((0x4024000000000000 : UInt64) &&& 0xFFFFFFFFFFFFF).toNat = 2 ^ 50 := by decide
  have hsign : (0x4024000000000000 : UInt64) >>> 63 = 0 := by decide
  have hpow : (2 : ℚ) ^ 1075 = 2 ^ 1026 * 2 ^ 49 := pow_add 2 1026 49
  have hne : (2 : ℚ) ^ 1026 ≠ 0 := pow_ne_zero _ two_ne_zero
  unfold f64Value
  rw [hexponent, hfraction, if_pos hsign]
  rw [if_neg (by decide), hpow, mul_comm, mul_div_mul_left _ _ hne]
  norm_num

private theorem f64Value_zero : f64Value 0 = 0 := by
  have hexponent : ((0 : UInt64) >>> 52 &&& 0x7FF).toNat = 0 := by decide
  have hfraction : ((0 : UInt64) &&& 0xFFFFFFFFFFFFF).toNat = 0 := by decide
  have hsign : (0 : UInt64) >>> 63 = 0 := by decide
  unfold f64Value
  rw [hexponent, hfraction, if_pos hsign]
  norm_num

section

variable {p q : PeerState} {place : Option Nat} {modelKey : String}

private theorem sameNames_probe (p : PeerState) (place : Option Nat) : SameNames p
    (probe p place) := by
  refine ⟨rfl, rfl, ?_⟩
  apply List.ext_getElem?
  intro i
  simp only [probe, List.getElem?_map, List.getElem?_mapIdx, Option.map_map]
  rfl

private theorem CaseVariants.probe (h : CaseVariants p q) :
    CaseVariants (probe p place) (probe q place) := by
  refine ⟨?_, h.supported, h.loaded, ?_⟩
  · unfold Router.probe
    rw [h.same]
  · rw [List.forall₂_iff_get]
    obtain ⟨hlength, hget⟩ := List.forall₂_iff_get.mp h.stats
    refine ⟨by simpa [Router.probe] using hlength, ?_⟩
    intro i hi hi'
    simp only [Router.probe, List.length_mapIdx] at hi hi'
    have hentry := hget i hi hi'
    simpa [Router.probe] using hentry.1

private theorem lookup_probe :
    (probe p place).modelStats.lookup modelKey =
      ((p.modelStats.map Prod.fst).idxOf? modelKey).map (probeStats place) := by
  rw [lookup_eq_bind_idxOf, (sameNames_probe p place).stats]
  cases hplace : (p.modelStats.map Prod.fst).idxOf? modelKey with
  | none => rfl
  | some i =>
    have hi : i < p.modelStats.length := by
      have hlt := (List.findIdx?_eq_some_iff_getElem.mp hplace).1
      simpa using hlt
    simp [probe, hi]

/-- The score of a probe: the cold start counts when the key is not loaded, the bonus when it is
found at the place. -/
theorem score_probe :
    calculateNodeScore (probe p place) modelKey (0, 0) 0 =
      (p.totalQueueLength : ℚ) * 50 + (if modelKey ∈ p.loadedModels then 0 else 30) -
        (if ∃ i, place = some i ∧ (p.modelStats.map Prod.fst).idxOf? modelKey = some i then 50
          else 0) -
        min ((p.maxInstances - p.activeInstances : Nat) : ℚ) 4 * 50 := by
  have htps : (((probe p place).modelStats.lookup modelKey).map fun s => f64Value s.tps).getD 0 =
      if ∃ i, place = some i ∧ (p.modelStats.map Prod.fst).idxOf? modelKey = some i then 10
        else 0 := by
    rw [lookup_probe]
    cases (p.modelStats.map Prod.fst).idxOf? modelKey with
    | none => simp
    | some j =>
      by_cases hplace : place = some j
      · simp [probeStats, hplace, f64Value_ten]
      · simp [probeStats, hplace, f64Value_zero]
  have hrequired : ((((probe p place).modelStats.lookup modelKey).map
      fun s => (s.vramMb, s.sysmemMb)).filter fun r => r.1 > 0 || r.2 > 0).getD (0, 0) =
        (0, 0) := by
    rw [lookup_probe]
    cases (p.modelStats.map Prod.fst).idxOf? modelKey <;> rfl
  have hcost : calculateColdStartCost (probe p place) 0 0 = 30 := rfl
  unfold calculateNodeScore
  simp only [htps, hrequired, hcost, ite_self]
  have hloaded : ((probe p place).loadedModels.any fun m => m == modelKey) = true ↔
      modelKey ∈ p.loadedModels := by
    simp [probe]
  rw [if_congr hloaded rfl rfl]
  have hqueue : (probe p place).totalQueueLength = p.totalQueueLength := rfl
  have hslots : (probe p place).maxInstances - (probe p place).activeInstances =
      p.maxInstances - p.activeInstances := rfl
  have hbonus : ∀ (c : Prop) [Decidable c],
      min (if c then (10 : ℚ) else 0) 200 * 5 = if c then 50 else 0 := by
    intro c _
    split <;> norm_num
  rw [hqueue, hslots, hbonus]
  norm_num

end

/-- The spelling of a peer's model names makes no difference to a request, whatever the numbers the
peer reports, exactly when the requested key is found at the same places. -/
theorem routed_alike_iff (p q : PeerState) (modelName profileId : String) (h : CaseVariants p q) :
    (∀ p' q', SameNames p p' → SameNames q q' → CaseVariants p' q' →
        RoutedAlike p' q' modelName profileId) ↔
      FoundAlike p q (modelName ++ ":" ++ profileId) := by
  constructor
  · intro halike
    have hscore := fun place =>
      (halike _ _ (sameNames_probe p place) (sameNames_probe q place) h.probe).score (0, 0) 0
    obtain ⟨hqueue, hmax, hactive⟩ := h.counts_eq
    simp only [score_probe, hqueue, hmax, hactive] at hscore
    generalize modelName ++ ":" ++ profileId = modelKey at hscore ⊢
    -- A probe of no place compares the loaded models alone.
    have hloaded : modelKey ∈ p.loadedModels ↔ modelKey ∈ q.loadedModels := by
      have hnone := hscore none
      simp only [reduceCtorEq, false_and, exists_false, if_false] at hnone
      by_cases hp : modelKey ∈ p.loadedModels <;> by_cases hq : modelKey ∈ q.loadedModels <;>
        simp only [hp, hq, if_true, if_false] at hnone ⊢ <;> linarith
    refine ⟨hloaded, Option.ext fun i => ?_⟩
    have hplace := hscore (some i)
    simp only [Option.some.injEq, exists_eq_left', if_congr hloaded rfl rfl] at hplace
    constructor
    · intro hp
      by_contra hq
      rw [if_pos hp, if_neg hq] at hplace
      linarith
    · intro hq
      by_contra hp
      rw [if_neg hp, if_pos hq] at hplace
      linarith
  · intro hfound p' q' hp hq hvariants
    refine ⟨peerSupportsProfile_congr hvariants.supported _ _, fun estimate requests => ?_⟩
    refine hvariants.score_eq ⟨?_, ?_⟩ estimate requests
    · rw [hp.loaded, hq.loaded]
      exact hfound.loaded
    · rw [hp.stats, hq.stats]
      exact hfound.stats

/-- Peers that advertise one model under this key and have it loaded, with its statistics. -/
def peerSpelling (key : String) : PeerState :=
  { nodeWith 1 24000 8000 with
    supportedModels := [key]
    loadedModels := [key]
    modelStats := [(key, ⟨0x4024000000000000, 0, 7000, 0, 1⟩)] }

/-- A request for `qwen:fast` is routed alike to peers that advertise `Qwen:fast` and
`QWEN:fast`. -/
theorem routed_alike_other_spelling :
    CaseVariants (peerSpelling "Qwen:fast") (peerSpelling "QWEN:fast") ∧
      peerSupportsProfile (peerSpelling "Qwen:fast") "qwen" "fast" = true ∧
      RoutedAlike (peerSpelling "Qwen:fast") (peerSpelling "QWEN:fast") "qwen" "fast" := by
  have hvariants : CaseVariants (peerSpelling "Qwen:fast") (peerSpelling "QWEN:fast") :=
    ⟨rfl, .cons (by decide) .nil, .cons (by decide) .nil, .cons ⟨by decide, rfl⟩ .nil⟩
  have hfound : FoundAlike (peerSpelling "Qwen:fast") (peerSpelling "QWEN:fast")
      ("qwen" ++ ":" ++ "fast") := ⟨by decide, by decide⟩
  exact ⟨hvariants, by decide, (routed_alike_iff _ _ "qwen" "fast" hvariants).mpr hfound _ _
    ⟨rfl, rfl, rfl⟩ ⟨rfl, rfl, rfl⟩ hvariants⟩

/-- Both peers support the request, and the one that spells the loaded model `Qwen:fast` pays for a
cold start. -/
theorem spelling_changes_score :
    ∃ p q, CaseVariants p q ∧ peerSupportsProfile p "qwen" "fast" = true ∧
      peerSupportsProfile q "qwen" "fast" = true ∧ ¬ RoutedAlike p q "qwen" "fast" := by
  refine ⟨probe (peerSpelling "qwen:fast") none, probe (peerSpelling "Qwen:fast") none,
    ⟨rfl, .cons (by decide) .nil, .cons (by decide) .nil, .cons ⟨by decide, rfl⟩ .nil⟩,
    by decide, by decide, fun h => ?_⟩
  have hscore := h.score (0, 0) 0
  have hloaded : "qwen" ++ ":" ++ "fast" ∈ (peerSpelling "qwen:fast").loadedModels := by decide
  have hunloaded : "qwen" ++ ":" ++ "fast" ∉ (peerSpelling "Qwen:fast").loadedModels := by decide
  rw [score_probe, score_probe, if_pos hloaded, if_neg hunloaded] at hscore
  simp [peerSpelling] at hscore

end Llamesh.Router
