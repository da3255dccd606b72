import Llamesh.Library.FileOps
import Llamesh.Library.Run
import Llamesh.Metrics.Labels
import Llamesh.Metrics.Migration

/-!
# The metrics of a node and their snapshot

`Metrics` with what outlives a restart (`src/metrics.rs:185–245`), the snapshot that is written to
`metrics_path`, and its reading back (`src/metrics.rs:444–466,504–567,697–798`). Requests go on
while a snapshot is taken: every atomic is read by itself, so the fields of a snapshot may be of
different moments. The gauges, which start fresh, are left out.

The floats and the JSON text are parameters. A float that is written and read again may differ in
its last digit; the integers and the names do not.
-/

namespace Llamesh.Metrics

/-- The counters that are kept. -/
inductive Counter where
  | requestsTotal
  | errorsTotal
  | queueDropsFull
  | queueDropsTimeout
  | queueDropsGlobalLimit
  | wedgedInstancesKilledTotal
deriving DecidableEq, Repr

/-- The metrics of the node that are kept. `src/metrics.rs:185–245`. -/
structure NodeMetrics (π : Type) where
  totals : Counter → Nat
  hashMetrics : Table String (HashMetrics π)

variable {φ π : Type}

/-- `Metrics::new`. -/
def NodeMetrics.new : NodeMetrics π := ⟨fun _ => 0, ∅⟩

/-- The learned peaks, once there is a sample. `src/metrics.rs:648–660`. -/
def NodeMetrics.getLearnedMemory (m : NodeMetrics π) (argsHash : String) : Option (Nat × Nat) :=
  (m.hashMetrics.lookup argsHash).bind fun h =>
    if h.sampleCount = 0 then none else some (h.peakVramMb, h.peakSysmemMb)

/-! ## Changes -/

/-- The atomic operations on the metrics of a hash. `observe_memory` is the first four in order,
`observe_latency` is `addLatency` and `pushSample`. `src/metrics.rs:91–134`. -/
inductive Update (π : Type) where
  | maxVram (mb : Nat)
  | maxSysmem (mb : Nat)
  | countSample
  | stamp (now : String)
  | addLatency (ms : Nat)
  | pushSample (ms : Nat)
  | addRequest
  | addError
  | addTokens (n : Nat)
  | addDisplayName (name : String)
  | setParsedParams (params : π)

/-- The atomics wrap around. -/
def Update.apply (m : HashMetrics π) : Update π → HashMetrics π
  | maxVram mb => { m with peakVramMb := max m.peakVramMb mb }
  | maxSysmem mb => { m with peakSysmemMb := max m.peakSysmemMb mb }
  | countSample => { m with sampleCount := (m.sampleCount + 1) % 2 ^ 64 }
  | stamp now => { m with lastMemoryUpdate := now }
  | addLatency ms => { m with totalLatencyMs := (m.totalLatencyMs + ms) % 2 ^ 64 }
  | pushSample ms => { m.observeLatency ms with totalLatencyMs := m.totalLatencyMs }
  | addRequest => { m with requestsTotal := (m.requestsTotal + 1) % 2 ^ 64 }
  | addError => { m with errorsTotal := (m.errorsTotal + 1) % 2 ^ 64 }
  | addTokens n => { m with tokensGeneratedTotal := (m.tokensGeneratedTotal + n) % 2 ^ 64 }
  | addDisplayName name => { m with displayNames := insert name m.displayNames }
  | setParsedParams params => { m with parsedParams := some params }

/-- `get_hash_metrics`, which adds an entry where there is none. `src/metrics.rs:632–645`. -/
def NodeMetrics.getHashMetrics (m : NodeMetrics π) (argsHash : String) : NodeMetrics π :=
  if argsHash ∈ m.hashMetrics then m
  else { m with hashMetrics := m.hashMetrics.insert argsHash .default }

/-! ## The snapshot -/

/-- The float operations of the snapshot: `latency as f64 / reqs as f64`, `0.0` and
`(avg * reqs as f64) as u64`. -/
structure Floats (φ : Type) where
  average : Nat → Nat → φ
  zero : φ
  product : φ → Nat → Nat

/-- The metrics of a hash in a snapshot. `src/metrics.rs:391–423`. -/
structure HashMetricsSnapshot (φ π : Type) where
  displayNames : List String
  requestsTotal : Nat
  errorsTotal : Nat
  tokensGeneratedTotal : Nat
  avgLatencyMs : φ
  totalLatencyMs : Nat
  p95LatencyMs : Nat
  peakVramMb : Nat
  peakSysmemMb : Nat
  sampleCount : Nat
  parsedModelParams : Option π

/-- `src/metrics.rs:247–333`, as far as it is read back. -/
structure MetricsSnapshot (φ π : Type) where
  totals : Counter → Nat
  hashes : Table String (HashMetricsSnapshot φ π)

/-- What is read of the metrics of a hash. -/
inductive Field where
  | requestsTotal
  | totalLatencyMs
  | latencySamples
  | displayNames
  | errorsTotal
  | tokensGeneratedTotal
  | peakVramMb
  | peakSysmemMb
  | sampleCount
  | parsedParams
deriving DecidableEq, Repr

/-- The fields in the order they are read in. `src/metrics.rs:707–747`. -/
def Field.all : List Field :=
  [requestsTotal, totalLatencyMs, latencySamples, displayNames, errorsTotal, tokensGeneratedTotal,
    peakVramMb, peakSysmemMb, sampleCount, parsedParams]

/-- The counters in the order they are read in. `src/metrics.rs:755–763`. -/
def Counter.all : List Counter :=
  [requestsTotal, errorsTotal, queueDropsFull, queueDropsTimeout, queueDropsGlobalLimit,
    wedgedInstancesKilledTotal]

/-- One load of an atomic or of what is under a lock. -/
inductive Read where
  | hash (key : String) (field : Field)
  | total (counter : Counter)
deriving DecidableEq, Repr

variable (floats : Floats φ)

/-- Before anything is read. -/
def HashMetricsSnapshot.blank : HashMetricsSnapshot φ π where
  displayNames := []
  requestsTotal := 0
  errorsTotal := 0
  tokensGeneratedTotal := 0
  avgLatencyMs := floats.zero
  totalLatencyMs := 0
  p95LatencyMs := 0
  peakVramMb := 0
  peakSysmemMb := 0
  sampleCount := 0
  parsedModelParams := none

/-- What sorting the names rests on. -/
theorem isTrans_names : IsTrans String fun a b => a ≤ b := inferInstance

private theorem antisymm_names : Std.Antisymm fun a b : String => a ≤ b := inferInstance

attribute [local instance] isTrans_names antisymm_names in
/-- One field of a hash. `src/metrics.rs:707–747`. -/
def HashMetricsSnapshot.read (m : HashMetrics π) (v : HashMetricsSnapshot φ π) :
    Field → HashMetricsSnapshot φ π
  | .requestsTotal => { v with requestsTotal := m.requestsTotal }
  | .totalLatencyMs =>
    { v with
      totalLatencyMs := m.totalLatencyMs
      avgLatencyMs :=
        if 0 < v.requestsTotal then floats.average m.totalLatencyMs v.requestsTotal
        else floats.zero }
  | .latencySamples => { v with p95LatencyMs := m.p95LatencyMs }
  | .displayNames => { v with displayNames := m.displayNames.sort }
  | .errorsTotal => { v with errorsTotal := m.errorsTotal }
  | .tokensGeneratedTotal => { v with tokensGeneratedTotal := m.tokensGeneratedTotal }
  | .peakVramMb => { v with peakVramMb := m.peakVramMb }
  | .peakSysmemMb => { v with peakSysmemMb := m.peakSysmemMb }
  | .sampleCount => { v with sampleCount := m.sampleCount }
  | .parsedParams => { v with parsedModelParams := m.parsedParams }

/-- All that is read for a snapshot. The map is locked for reading, so its keys stay. -/
def NodeMetrics.reads (m : NodeMetrics π) : List Read :=
  m.hashMetrics.keys.flatMap (fun key => Field.all.map (Read.hash key)) ++
    Counter.all.map Read.total

/-- One read. `src/metrics.rs:697–798`. -/
def MetricsSnapshot.read (m : NodeMetrics π) (s : MetricsSnapshot φ π) : Read → MetricsSnapshot φ π
  | .hash key field =>
    match m.hashMetrics.lookup key with
    | some h =>
      let v := (s.hashes.lookup key).getD (.blank floats)
      { s with hashes := s.hashes.insert key (v.read floats h field) }
    | none => s
  | .total counter => { s with totals := Function.update s.totals counter (m.totals counter) }

/-- A snapshot before its first read. -/
def MetricsSnapshot.blank : MetricsSnapshot φ π := ⟨fun _ => 0, ∅⟩

/-! ## Reading back -/

/-- `src/metrics.rs:514–539`. A snapshot of an old version has only the average. -/
def HashMetrics.ofSnapshot (v : HashMetricsSnapshot φ π) : HashMetrics π where
  requestsTotal := v.requestsTotal
  errorsTotal := v.errorsTotal
  tokensGeneratedTotal := v.tokensGeneratedTotal
  totalLatencyMs :=
    if 0 < v.totalLatencyMs then v.totalLatencyMs
    else floats.product v.avgLatencyMs v.requestsTotal
  latencySamples := []
  samples_le := Nat.zero_le _
  peakVramMb := v.peakVramMb
  peakSysmemMb := v.peakSysmemMb
  sampleCount := v.sampleCount
  lastMemoryUpdate := ""
  displayNames := v.displayNames.toFinset
  parsedParams := v.parsedModelParams

/-- The metrics a snapshot is restored to. `src/metrics.rs:504–567`. -/
def NodeMetrics.fromSnapshot (snapshot : MetricsSnapshot φ π) : NodeMetrics π where
  totals := snapshot.totals
  hashMetrics :=
    snapshot.hashes.entries.foldl (fun map e => map.insert e.1 (.ofSnapshot floats e.2)) ∅

/-- `migrate_args_hashes` in place. `src/metrics.rs:468–502`. -/
def NodeMetrics.migrate (sha256 : List UInt8 → Vector UInt8 32) (m : NodeMetrics π)
    (cookbook : CookbookFile.Cookbook) : NodeMetrics π :=
  { m with hashMetrics := (migrateArgsHashes sha256 m.hashMetrics cookbook).1 }

/-- The JSON text of a snapshot, and what it is read as. -/
structure Json (φ π : Type) where
  encode : MetricsSnapshot φ π → List UInt8
  decode : List UInt8 → Option (MetricsSnapshot φ π)

/-- The fields that are written and read without a float. -/
def HashMetricsSnapshot.integers (v : HashMetricsSnapshot φ π) : List Nat :=
  [v.requestsTotal, v.errorsTotal, v.tokensGeneratedTotal, v.totalLatencyMs, v.p95LatencyMs,
    v.peakVramMb, v.peakSysmemMb, v.sampleCount]

/-- What is written is read again, up to the digits of the floats. -/
def Json.ReadsBack (json : Json φ π) (s : MetricsSnapshot φ π) : Prop :=
  ∃ t, json.decode (json.encode s) = some t ∧ t.totals = s.totals ∧
    ∀ key, (t.hashes.lookup key).map (fun v => (v.displayNames, v.integers)) =
      (s.hashes.lookup key).map fun v => (v.displayNames, v.integers)

/-- `Metrics::load` of the bytes at the path, if there are any; `none` also when they cannot be
read. `src/metrics.rs:444–466`. -/
def NodeMetrics.load (json : Json φ π) (sha256 : List UInt8 → Vector UInt8 32)
    (bytes : Option (List UInt8)) (cookbook : CookbookFile.Cookbook) : NodeMetrics π :=
  match bytes.bind json.decode with
  | some snapshot => (NodeMetrics.fromSnapshot floats snapshot).migrate sha256 cookbook
  | none => .new

end Llamesh.Metrics
