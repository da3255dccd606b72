import Llamesh.Spawn.Accounting

/-!
# Which instances are evicted

`pick_victims_from_accounting` (`src/node_state/mod.rs:1407–1509`) evicts idle
instances one by one, least recent activity first, until memory and the instance
count fit. The usage after a list of victims is stated here in closed form, and
the loop is compared with it: it stops at the first prefix that fits, and fails
exactly when the eviction of every idle instance would not be enough.
-/

namespace Llamesh.Spawn

open Config

/-! ### The usage after an eviction -/

/-- The memory an instance is credited with. `src/node_state/mod.rs:1430–1434`. -/
def ResourceAccounting.credit (accounting : ResourceAccounting) (id : Nat) : Memory Nat :=
  (accounting.instanceMemory.lookup id).getD ⟨0, 0⟩

/-- The usage and the count an eviction starts from. `src/node_state/mod.rs:1424–1426`. -/
def ResourceAccounting.current (accounting : ResourceAccounting) : Memory Nat :=
  ⟨accounting.resources.effectiveVramMb, accounting.resources.effectiveSysmemMb⟩

/-- The usage after the candidates are evicted. -/
def Memory.after (current : Memory Nat) (evicted : List Candidate) : Memory Nat :=
  .ofFn fun d => current.at d - (evicted.map fun c => c.memory.at d).sum

/-- The requirement fits both memory limits on top of a usage. -/
def MemoryFits (config : NodeConfig) (required current : Memory Nat) : Prop :=
  ∀ d, saturatingAdd (current.at d) (required.at d) ≤ maxMemory config d

/-- One more instance fits on top of a count. -/
def CountFits (config : NodeConfig) (count : Nat) : Prop := count < config.maxInstancesPerNode

/-- Memory and the instance count fit after the candidates are evicted. -/
def FitsAfter (config : NodeConfig) (required current : Memory Nat) (count : Nat)
    (evicted : List Candidate) : Prop :=
  MemoryFits config required (current.after evicted) ∧ CountFits config (count - evicted.length)

/-- The test of the loop. -/
theorem fits_iff {config : NodeConfig} {required current : Memory Nat} {count : Nat} :
    fits config required current count = true ↔
      MemoryFits config required current ∧ CountFits config count := by
  simp only [fits, Bool.and_eq_true, decide_eq_true_eq, MemoryFits, CountFits]
  constructor
  · rintro ⟨⟨hv, hs⟩, hc⟩
    refine ⟨fun d => ?_, hc⟩
    cases d with
    | vram => exact hv
    | sysmem => exact hs
  · rintro ⟨hm, hc⟩
    exact ⟨⟨hm .vram, hm .sysmem⟩, hc⟩

/-- Without victims no memory is freed. -/
@[simp] theorem Memory.after_nil (current : Memory Nat) : current.after [] = current := by
  simp [Memory.after, Memory.ofFn, Memory.at]

/-- Before any eviction. -/
@[simp] theorem fitsAfter_nil {config : NodeConfig} {required current : Memory Nat}
    {count : Nat} : FitsAfter config required current count [] ↔
      MemoryFits config required current ∧ CountFits config count := by
  simp [FitsAfter]

/-- Evicting one more candidate takes its memory away. -/
theorem Memory.after_concat (current : Memory Nat) (evicted : List Candidate) (c : Candidate) :
    current.after (evicted ++ [c]) =
      .ofFn fun d => (current.after evicted).at d - c.memory.at d := by
  simp only [Memory.after, Memory.at_ofFn, List.map_append, List.map_cons, List.map_nil,
    List.sum_append, List.sum_cons, List.sum_nil, Nat.add_zero, Nat.sub_sub]

/-- Evicting more leaves less. -/
theorem Memory.after_le (current : Memory Nat) {l m : List Candidate} (h : l <+: m)
    (d : Dimension) : (current.after m).at d ≤ (current.after l).at d := by
  obtain ⟨r, rfl⟩ := h
  simp only [Memory.after, Memory.at_ofFn, List.map_append, List.sum_append]
  omega

/-- What fits keeps fitting as more is evicted. -/
theorem FitsAfter.mono {config : NodeConfig} {required current : Memory Nat} {count : Nat}
    {l m : List Candidate} (hp : l <+: m) (h : FitsAfter config required current count l) :
    FitsAfter config required current count m := by
  refine ⟨fun d => ?_, ?_⟩
  · have hle := Memory.after_le current hp d
    have hfit := h.1 d
    simp only [saturatingAdd] at hfit ⊢
    omega
  · have hle := hp.length_le
    have hfit := h.2
    simp only [CountFits] at hfit ⊢
    omega

/-! ### The loop -/

variable {config : NodeConfig} {required current : Memory Nat} {count : Nat}

/-- What the loop returns when `evicted` does not fit yet and `rest` is left: the shortest longer
prefix that fits, or the error that names what is short without any of the rest. -/
private inductive Outcome (config : NodeConfig) (required current : Memory Nat) (count : Nat)
    (evicted rest : List Candidate) : Except NodeError (List Nat) → Prop where
  | fits (l : List Candidate) (hl : l <+: rest)
      (hfit : FitsAfter config required current count (evicted ++ l))
      (hleast : ∀ m, m <+: rest → FitsAfter config required current count (evicted ++ m) →
        l.length ≤ m.length) :
      Outcome config required current count evicted rest (.ok ((evicted ++ l).map (·.id)))
  | countShort (hmem : MemoryFits config required (current.after (evicted ++ rest)))
      (hcount : ¬ CountFits config (count - (evicted ++ rest).length)) :
      Outcome config required current count evicted rest (.error .maxInstancesNode)
  | memoryShort (hmem : ¬ MemoryFits config required (current.after (evicted ++ rest))) :
      Outcome config required current count evicted rest (.error .insufficientResources)

private theorem memoryFits_iff {config : NodeConfig} {required current : Memory Nat} :
    MemoryFits config required current ↔
      saturatingAdd current.vram required.vram ≤ config.maxVramMb ∧
        saturatingAdd current.sysmem required.sysmem ≤ config.maxSysmemMb := by
  constructor
  · intro h
    exact ⟨h .vram, h .sysmem⟩
  · rintro ⟨hv, hs⟩ d
    cases d with
    | vram => exact hv
    | sysmem => exact hs

private theorem Outcome.skip {evicted rest : List Candidate} {c : Candidate}
    {r : Except NodeError (List Nat)}
    (hn : ¬ FitsAfter config required current count evicted)
    (h : Outcome config required current count (evicted ++ [c]) rest r) :
    Outcome config required current count evicted (c :: rest) r := by
  cases h with
  | fits l hl hfit hleast =>
    rw [List.append_assoc, List.singleton_append] at hfit ⊢
    refine .fits (c :: l) (List.cons_prefix_cons.mpr ⟨rfl, hl⟩) hfit ?_
    intro m hm hmfit
    cases m with
    | nil =>
      rw [List.append_nil] at hmfit
      exact absurd hmfit hn
    | cons b m =>
      obtain ⟨rfl, hrest⟩ := List.cons_prefix_cons.mp hm
      have hle := hleast m hrest (by rwa [List.append_assoc, List.singleton_append])
      exact Nat.succ_le_succ hle
  | countShort hmem hcount =>
    rw [List.append_assoc, List.singleton_append] at hmem hcount
    exact .countShort hmem hcount
  | memoryShort hmem =>
    rw [List.append_assoc, List.singleton_append] at hmem
    exact .memoryShort hmem

private theorem evictUntilFits_outcome (rest evicted : List Candidate)
    (hn : ¬ FitsAfter config required current count evicted) :
    Outcome config required current count evicted rest
      (evictUntilFits config required rest (current.after evicted) (count - evicted.length)
        (evicted.map (·.id))) := by
  induction rest generalizing evicted with
  | nil =>
    unfold evictUntilFits
    split
    · next hmem =>
      have hfits : MemoryFits config required (current.after (evicted ++ [])) := by
        rw [List.append_nil]
        exact memoryFits_iff.mpr hmem
      refine .countShort hfits ?_
      rw [List.append_nil] at hfits ⊢
      exact fun hcount => hn ⟨hfits, hcount⟩
    · next hmem =>
      refine .memoryShort ?_
      rw [List.append_nil]
      exact fun hfits => hmem (memoryFits_iff.mp hfits)
  | cons c rest ih =>
    have hafter := (Memory.after_concat current evicted c).symm
    have hcount : count - evicted.length - 1 = count - (evicted ++ [c]).length := by
      rw [List.length_append]
      exact Nat.sub_sub _ _ _
    have hids : evicted.map (·.id) ++ [c.id] = (evicted ++ [c]).map (·.id) := by simp
    unfold evictUntilFits
    dsimp only
    rw [hafter, hcount, hids]
    split
    · next hfit =>
      refine .fits [c] (List.cons_prefix_cons.mpr ⟨rfl, List.nil_prefix⟩) (fits_iff.mp hfit) ?_
      intro m hm hmfit
      cases m with
      | nil =>
        rw [List.append_nil] at hmfit
        exact absurd hmfit hn
      | cons b m => simp
    · next hfit => exact .skip hn (ih (evicted ++ [c]) fun h => hfit (fits_iff.mpr h))

/-! ### The idle instances -/

/-- The idle instances with their credits, each once, least recent activity first. -/
structure IdleByActivity (instances : Instances) (accounting : ResourceAccounting)
    (idle : List Candidate) : Prop where
  mem_iff : ∀ c, c ∈ idle ↔ ∃ inst, instances.lookup c.id = some inst ∧ inst.inFlight = 0 ∧
    c = ⟨c.id, inst.lastActivity, accounting.credit c.id⟩
  nodup : (idle.map (·.id)).Nodup
  sorted : idle.Pairwise fun a b => a.lastActivity ≤ b.lastActivity

private theorem mem_candidates {instances : Instances} {order : List Nat}
    {accounting : ResourceAccounting} (ho : order.Perm instances.keys) (c : Candidate) :
    c ∈ candidates instances order accounting ↔
      ∃ inst, instances.lookup c.id = some inst ∧ inst.inFlight = 0 ∧
        c = ⟨c.id, inst.lastActivity, accounting.credit c.id⟩ := by
  simp only [candidates, List.mem_filterMap]
  constructor
  · rintro ⟨id, -, hc⟩
    split at hc
    · next inst hinst =>
      split at hc
      · next hidle =>
        obtain rfl := Option.some.inj hc
        exact ⟨inst, hinst, hidle, rfl⟩
      · cases hc
    · cases hc
  · rintro ⟨inst, hinst, hidle, hc⟩
    refine ⟨c.id, ho.mem_iff.mpr (Table.mem_keys_of_lookup hinst), ?_⟩
    simp only [hinst, hidle, if_true]
    exact congrArg some hc.symm

private theorem map_id_candidates (instances : Instances) (order : List Nat)
    (accounting : ResourceAccounting) :
    ((candidates instances order accounting).map (·.id)).Sublist order := by
  induction order with
  | nil => exact List.nil_sublist _
  | cons id order ih =>
    rw [candidates, List.filterMap_cons]
    split
    · exact ih.cons id
    · next c hc =>
      have hid : c.id = id := by
        split at hc
        · split at hc
          · obtain rfl := Option.some.inj hc
            rfl
          · cases hc
        · cases hc
      rw [List.map_cons, hid]
      exact ih.cons_cons id

/-- However the map is read, the sorted candidates are the idle instances. -/
theorem idleByActivity_candidates {instances : Instances} {order : List Nat}
    (accounting : ResourceAccounting) (ho : order.Perm instances.keys) :
    IdleByActivity instances accounting
      ((candidates instances order accounting).insertionSort
        fun a b => a.lastActivity ≤ b.lastActivity) := by
  have hperm := List.perm_insertionSort (fun a b : Candidate => a.lastActivity ≤ b.lastActivity)
    (candidates instances order accounting)
  refine ⟨fun c => ?_, ?_, ?_⟩
  · rw [hperm.mem_iff]
    exact mem_candidates ho c
  · rw [(hperm.map _).nodup_iff]
    exact (map_id_candidates instances order accounting).nodup
      (ho.nodup_iff.mpr instances.keys_nodup)
  · have htotal : Std.Total fun a b : Candidate => a.lastActivity ≤ b.lastActivity :=
      ⟨fun a b => Nat.le_total _ _⟩
    have htrans : IsTrans Candidate fun a b => a.lastActivity ≤ b.lastActivity :=
      ⟨fun _ _ _ => Nat.le_trans⟩
    exact List.pairwise_insertionSort _ _

/-! ### The whole selection -/

private theorem pickVictims_outcome (config : NodeConfig) (instances : Instances)
    (order : List Nat) (accounting : ResourceAccounting) (required : Memory Nat) :
    Outcome config required accounting.current
      (Table.size instances + accounting.reservations.nodeTotal) []
      ((candidates instances order accounting).insertionSort
        fun a b => a.lastActivity ≤ b.lastActivity)
      (pickVictimsFromAccounting config instances order accounting required) := by
  have hpick : pickVictimsFromAccounting config instances order accounting required =
      if fits config required accounting.current
          (Table.size instances + accounting.reservations.nodeTotal) then .ok []
      else evictUntilFits config required ((candidates instances order accounting).insertionSort
        fun a b => a.lastActivity ≤ b.lastActivity) accounting.current
        (Table.size instances + accounting.reservations.nodeTotal) [] := rfl
  rw [hpick]
  split
  · next hfit =>
    refine .fits [] List.nil_prefix ?_ fun _ _ _ => Nat.zero_le _
    exact fitsAfter_nil.mpr (fits_iff.mp hfit)
  · next hfit =>
    have hloop := evictUntilFits_outcome ((candidates instances order accounting).insertionSort
      fun a b => a.lastActivity ≤ b.lastActivity) []
      fun h => hfit (fits_iff.mpr (fitsAfter_nil.mp h))
    simpa using hloop

/-- The selection returns victims exactly when evicting every idle instance makes memory and the
count fit. The victims are then the shortest prefix of the idle instances, least recent activity
first, after which they fit, so there is none exactly when they fit already. The node's instance
limit is reported exactly when memory would fit and the count would not. -/
theorem pickVictims_exact (config : NodeConfig) (instances : Instances) (order : List Nat)
    (accounting : ResourceAccounting) (required : Memory Nat)
    (ho : order.Perm instances.keys) :
    ∃ idle, IdleByActivity instances accounting idle ∧
      let pick := pickVictimsFromAccounting config instances order accounting required
      let count := Table.size instances + accounting.reservations.nodeTotal
      let FitsWithout := FitsAfter config required accounting.current count
      ((∃ victims, pick = .ok victims) ↔ FitsWithout idle) ∧
      (∀ victims, pick = .ok victims → ∃ l, l <+: idle ∧ victims = l.map (·.id) ∧
        FitsWithout l ∧ ∀ m, m <+: idle → FitsWithout m → l.length ≤ m.length) ∧
      (pick = .ok [] ↔ FitsWithout []) ∧
      (pick = .error .maxInstancesNode ↔
        MemoryFits config required (accounting.current.after idle) ∧
          ¬ CountFits config (count - idle.length)) := by
  refine ⟨_, idleByActivity_candidates accounting ho, ?_⟩
  have hout := pickVictims_outcome config instances order accounting required
  dsimp only
  generalize (candidates instances order accounting).insertionSort
    (fun a b => a.lastActivity ≤ b.lastActivity) = idle at hout
  generalize pickVictimsFromAccounting config instances order accounting required = pick at hout
  cases hout with
  | fits l hl hfit hleast =>
    simp only [List.nil_append] at hfit hleast ⊢
    have hall := hfit.mono hl
    refine ⟨⟨fun _ => hall, fun _ => ⟨_, rfl⟩⟩, ?_, ⟨fun h => ?_, fun h => ?_⟩, ?_⟩
    · intro victims hv
      obtain rfl := Except.ok.inj hv
      exact ⟨l, hl, rfl, hfit, hleast⟩
    · obtain rfl : l = [] := List.map_eq_nil_iff.mp (Except.ok.inj h)
      exact hfit
    · obtain rfl : l = [] := List.length_eq_zero_iff.mp
        (Nat.le_zero.mp (hleast [] List.nil_prefix h))
      rfl
    · exact ⟨fun h => (by cases h), fun h => absurd hall.2 h.2⟩
  | countShort hmem hcount =>
    simp only [List.nil_append] at hmem hcount
    have hnone : ∀ l, l <+: idle → ¬ FitsAfter config required accounting.current
        (Table.size instances + accounting.reservations.nodeTotal) l :=
      fun l hl h => hcount (h.mono hl).2
    refine ⟨⟨fun h => ?_, fun h => absurd h (hnone idle List.prefix_rfl)⟩, ?_, ⟨fun h => ?_,
      fun h => absurd h (hnone [] List.nil_prefix)⟩, fun _ => ⟨hmem, hcount⟩, fun _ => rfl⟩
    · obtain ⟨_, h⟩ := h
      cases h
    · intro _ h
      cases h
    · cases h
  | memoryShort hmem =>
    simp only [List.nil_append] at hmem
    have hnone : ∀ l, l <+: idle → ¬ FitsAfter config required accounting.current
        (Table.size instances + accounting.reservations.nodeTotal) l :=
      fun l hl h => hmem (h.mono hl).1
    refine ⟨⟨fun h => ?_, fun h => absurd h (hnone idle List.prefix_rfl)⟩, ?_, ⟨fun h => ?_,
      fun h => absurd h (hnone [] List.nil_prefix)⟩, fun h => ?_, fun h => absurd h.1 hmem⟩
    · obtain ⟨_, h⟩ := h
      cases h
    · intro _ h
      cases h
    · cases h
    · cases h

/-- A node for two instances with 100 MB of each memory. -/
def smallNode : NodeConfig := ⟨100, 100, 2, ⟨1, 2⟩⟩

private theorem idle_model_noColon : ':' ∉ "m".toList := by decide

private theorem idle_first_noColon : ':' ∉ "p".toList := by decide

private theorem idle_second_noColon : ':' ∉ "q".toList := by decide

/-- Two idle instances, the second one used last. -/
def idlePair : Instances :=
  ((∅ : Instances).insert 1
      ⟨⟨"m", idle_model_noColon⟩, ⟨"p", idle_first_noColon⟩, 0, 5, true⟩).insert 2
    ⟨⟨"m", idle_model_noColon⟩, ⟨"q", idle_second_noColon⟩, 0, 9, true⟩

/-- Each of the two holds 40 MB of VRAM. -/
def pairAccounting : ResourceAccounting :=
  { resources := .fromSamples 80 0 none 2
    reservations := .empty
    instanceMemory := ((∅ : Table Nat (Memory Nat)).insert 1 ⟨40, 0⟩).insert 2 ⟨40, 0⟩ }

/-- A model of 50 MB takes the place of the instance that was used first. -/
theorem pickVictims_least_recent :
    pickVictimsFromAccounting smallNode idlePair [2, 1] pairAccounting ⟨50, 0⟩ = .ok [1] ∧
      ∃ idle, IdleByActivity idlePair pairAccounting idle ∧
        FitsAfter smallNode ⟨50, 0⟩ pairAccounting.current 2 idle := by
  have hpick : pickVictimsFromAccounting smallNode idlePair [2, 1] pairAccounting ⟨50, 0⟩ =
      .ok [1] := by decide
  obtain ⟨idle, hidle, hok, -⟩ :=
    pickVictims_exact smallNode idlePair [2, 1] pairAccounting ⟨50, 0⟩ (by decide)
  exact ⟨hpick, idle, hidle, hok.mp ⟨_, hpick⟩⟩

end Llamesh.Spawn
