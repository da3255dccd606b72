import Mathlib.Data.Finset.Sort
import Mathlib.Data.String.Basic

/-!
# The metrics of one argument hash

`HashMetrics` (`src/metrics.rs:8–105`): the counters, latency samples and memory
peaks that are kept under the hash of a profile's launch arguments. The atomics
and the contents of the mutexes are plain values here.
-/

namespace Llamesh.Metrics

/-- How many latency samples are kept. `src/metrics.rs:94`. -/
def maxSamples : Nat := 100

/-- `src/metrics.rs:10–34`. The last observed model parameters are only carried along; `π` is
their type. -/
structure HashMetrics (π : Type) where
  requestsTotal : Nat
  errorsTotal : Nat
  tokensGeneratedTotal : Nat
  totalLatencyMs : Nat
  latencySamples : List Nat
  samples_le : latencySamples.length ≤ maxSamples
  peakVramMb : Nat
  peakSysmemMb : Nat
  sampleCount : Nat
  lastMemoryUpdate : String
  displayNames : Finset String
  parsedParams : Option π

namespace HashMetrics

variable {π : Type}

/-- `Default`. `src/metrics.rs:49–64`. -/
def default : HashMetrics π where
  requestsTotal := 0
  errorsTotal := 0
  tokensGeneratedTotal := 0
  totalLatencyMs := 0
  latencySamples := []
  samples_le := Nat.zero_le _
  peakVramMb := 0
  peakSysmemMb := 0
  sampleCount := 0
  lastMemoryUpdate := ""
  displayNames := ∅
  parsedParams := none

/-- A copy, field by field. `src/metrics.rs:67–83`. -/
def cloneForMigration (m : HashMetrics π) : HashMetrics π where
  requestsTotal := m.requestsTotal
  errorsTotal := m.errorsTotal
  tokensGeneratedTotal := m.tokensGeneratedTotal
  totalLatencyMs := m.totalLatencyMs
  latencySamples := m.latencySamples
  samples_le := m.samples_le
  peakVramMb := m.peakVramMb
  peakSysmemMb := m.peakSysmemMb
  sampleCount := m.sampleCount
  lastMemoryUpdate := m.lastMemoryUpdate
  displayNames := m.displayNames
  parsedParams := m.parsedParams

/-- A clone for the migration has the same metrics. -/
@[simp] theorem cloneForMigration_eq (m : HashMetrics π) : m.cloneForMigration = m := rfl

/-- The oldest sample makes room for the next. `src/metrics.rs:91–98`. -/
def observeLatency (m : HashMetrics π) (ms : Nat) : HashMetrics π where
  __ := m
  totalLatencyMs := (m.totalLatencyMs + ms) % 2 ^ 64
  latencySamples :=
    (if maxSamples ≤ m.latencySamples.length then m.latencySamples.tail else m.latencySamples) ++
      [ms]
  samples_le := by
    have h := m.samples_le
    have hpos : 0 < maxSamples := by decide
    rw [List.length_append, List.length_singleton]
    split
    · rw [List.length_tail]
      omega
    · omega

/-- The sample at 95 % of the sorted samples. `src/metrics.rs:1082–1091`. The index is the floor of
a float product, which is the quotient below for as many samples as there can be. -/
def p95LatencyMs (m : HashMetrics π) : Nat :=
  let samples := m.latencySamples.mergeSort
  samples.getD (min ((samples.length - 1) * 95 / 100) (samples.length - 1)) 0

end HashMetrics

end Llamesh.Metrics
