import Llamesh.Spawn.Effect

/-!
# The instance limits

In every reachable state the mapped instances and the pending reservations stay
within `max_instances_per_node`, and those of one `model:profile` within its
`effective_max_instances`. A reservation takes the place its plan found free under
the write lock, an insertion turns a pending reservation into a mapped instance,
and every other step only gives places back. The re-checks before an insertion
count the map only, where the request's own pending reservation is still to come.
-/

namespace Llamesh.Spawn

open Transition Config SpawnReservations

variable {config : NodeConfig} {cookbook : Cookbook} {s s' : State}

/-- The mapped and pending instances are within the limits. -/
structure CountsWithin (config : NodeConfig) (cookbook : Cookbook) (instances : Instances)
    (registry : SpawnReservations) : Prop where
  node : Table.size instances + registry.nodeTotal ≤ config.maxInstancesPerNode
  profile : ∀ p ∈ cookbook.profiles,
    countProfileInstances instances p + registry.profileCount p.key ≤
      p.effectiveMaxInstances config.modelDefaults

private theorem countsWithin_init (config : NodeConfig) (cookbook : Cookbook) :
    CountsWithin config cookbook State.init.instances State.init.registry where
  node := Nat.zero_le _
  profile _ _ := Nat.zero_le _

private theorem CountsWithin.quiet (h : CountsWithin config cookbook s.instances s.registry)
    (hq : Quiet s s') : CountsWithin config cookbook s'.instances s'.registry where
  node := by
    have hnode := h.node
    have hpending := hq.1.nodeTotal_le
    have hsize := hq.2.size_le
    omega
  profile p hp := by
    have hprofile := h.profile p hp
    have hpending := hq.1.profileCount_le p.key
    have hcount := hq.2.count_le p
    omega

private theorem CountsWithin.reserve (h : CountsWithin config cookbook s.instances s.registry)
    (hi : Inv config cookbook s) (hr : Reserves s s') :
    CountsWithin config cookbook s'.instances s'.registry := by
  obtain ⟨t, request, required, id, ht, hfresh, hregistry, hmap, -⟩ := hr
  have hok := hi.tasks t _ ht
  have hplace := hok.current
  simp only [Task.Current] at hplace
  rw [hregistry, hmap]
  constructor
  · rw [nodeTotal_reserve hfresh]
    omega
  · intro p hp
    rw [profileCount_reserve hfresh]
    by_cases hkey : request.profile.key = p.key
    · obtain rfl := cookbook.eq_of_key (hok.known request.profile rfl) hp hkey
      have htrue : (request.profile.key == request.profile.key).toNat = 1 := by simp
      omega
    · have hfalse : (request.profile.key == p.key).toNat = 0 := by simp [hkey]
      have hprofile := h.profile p hp
      omega

private theorem count_insert {instances : Instances} {id : Nat} (h : id ∉ instances)
    {inst : Instance} {q : Profile} (hm : inst.model = q.model) (hp : inst.profileId = q.id)
    (p : Profile) :
    countProfileInstances (instances.insert id inst) p =
      (decide (q.model = p.model) && decide (q.id = p.id)).toNat +
        countProfileInstances instances p := by
  unfold countProfileInstances
  rw [Table.count_insert_of_notMem h, hm, hp]

private theorem size_insert {instances : Instances} {id : Nat} (h : id ∉ instances)
    (inst : Instance) : Table.size (instances.insert id inst) = 1 + Table.size instances := by
  rw [Table.size_eq_count, Table.size_eq_count, Table.count_insert_of_notMem h]
  rfl

private theorem CountsWithin.insert (h : CountsWithin config cookbook s.instances s.registry)
    (hi : Inv config cookbook s) (hins : Inserts config s s') :
    CountsWithin config cookbook s'.instances s'.registry := by
  obtain ⟨t, request, id, inst, ht, -, hmodel, hprofileId, hregistry, hmap⟩ := hins
  have hok := hi.tasks t _ ht
  obtain ⟨hnew, e, he, howned⟩ := hok.owned id rfl
  rw [hregistry, hmap]
  constructor
  · -- The handoff takes back what the insertion adds.
    have hpending := nodeTotal_markHandedOff he howned.pending
    have hnode := h.node
    rw [size_insert hnew]
    omega
  · intro p hp
    have hpending := profileCount_markHandedOff he howned.pending p.key
    have hprofile := h.profile p hp
    rw [howned.key request.profile rfl] at hpending
    rw [count_insert hnew hmodel hprofileId]
    by_cases hkey : request.profile.key = p.key
    · obtain rfl := cookbook.eq_of_key (hok.known request.profile rfl) hp hkey
      simp only [decide_true, Bool.and_true, BEq.rfl, Bool.toNat_true] at hpending ⊢
      omega
    · have hnames : (decide (request.profile.model = p.model) &&
          decide (request.profile.id = p.id)).toNat = 0 := by
        have hne : ¬(request.profile.model = p.model ∧ request.profile.id = p.id) := by
          rintro ⟨hm, hid⟩
          exact hkey (by rw [Profile.key, Profile.key, hm, hid])
        simpa using hne
      omega

/-- Every step keeps the counts within the limits. -/
theorem countsWithin_step {l : Label} (h : CountsWithin config cookbook s.instances s.registry)
    (hi : Inv config cookbook s) (hs : step config cookbook s l = some s') :
    CountsWithin config cookbook s'.instances s'.registry := by
  rcases step_effect hi hs with hquiet | hreserve | hinsert
  · exact h.quiet hquiet
  · exact h.reserve hi hreserve
  · exact h.insert hi hinsert

/-- A request that is about to insert still counts among the pending spawns, so the map alone is
below the limits. -/
theorem CountsWithin.recheck_passes (h : CountsWithin config cookbook s.instances s.registry)
    (hi : Inv config cookbook s) {t id : Nat} {request : Request}
    (ht : s.tasks.lookup t = some (.inserting request id)) :
    recheck config s.instances request.profile = none := by
  have hok := hi.tasks t _ ht
  obtain ⟨-, e, he, howned⟩ := hok.owned id rfl
  have hprofile := h.profile request.profile (hok.known request.profile rfl)
  have hnode := h.node
  have hone : 0 < s.registry.profileCount request.profile.key := by
    apply Table.count_pos he
    simp [howned.pending, howned.key request.profile rfl]
  have htotal : 0 < s.registry.nodeTotal := Table.count_pos he howned.pending
  unfold recheck
  rw [if_neg (by omega), if_neg (by omega)]

/-- The invariant behind the limits. -/
structure Limited (config : NodeConfig) (cookbook : Cookbook) (s : State) : Prop where
  ownership : Inv config cookbook s
  counts : CountsWithin config cookbook s.instances s.registry

private theorem limited_init (config : NodeConfig) (cookbook : Cookbook) :
    Limited config cookbook State.init :=
  ⟨inv_init config cookbook, countsWithin_init config cookbook⟩

private theorem limited_step {l : Label} (h : Limited config cookbook s)
    (hs : step config cookbook s l = some s') : Limited config cookbook s' :=
  ⟨inv_step h.ownership hs, countsWithin_step h.counts h.ownership hs⟩

/-- In every reachable state the mapped instances and the pending reservations are within the limit
of the node and, for each profile, within its own, and the re-check of a request that is about to
insert its instance does not reject it. -/
theorem instance_counts_within (config : NodeConfig) (cookbook : Cookbook) (s : State)
    (hs : Reachable (step config cookbook) State.init s) :
    Table.size s.instances + s.registry.nodeTotal ≤ config.maxInstancesPerNode ∧
      (∀ p ∈ cookbook.profiles,
        countProfileInstances s.instances p + s.registry.profileCount p.key ≤
          p.effectiveMaxInstances config.modelDefaults) ∧
      ∀ t request id, s.tasks.lookup t = some (.inserting request id) →
        recheck config s.instances request.profile = none := by
  have hall : Limited config cookbook s :=
    hs.invariant (fun _ _ _ h hstep => limited_step h hstep) (limited_init config cookbook)
  refine ⟨hall.counts.node, hall.counts.profile, ?_⟩
  intro t request id ht
  exact hall.counts.recheck_passes hall.ownership ht

private theorem pair_model_noColon : ':' ∉ "m".toList := by decide

private theorem pair_profile_noColon : ':' ∉ "p".toList := by decide

/-- A profile that may run twice. -/
def pairProfile : Profile := ⟨⟨"m", pair_model_noColon⟩, ⟨"p", pair_profile_noColon⟩, some 2⟩

/-- Its cookbook. -/
def pairCookbook : Cookbook where
  profiles := [pairProfile]
  unique := by simp

/-- A node for three instances. -/
def pairConfig : NodeConfig := ⟨200, 1000, 3, ⟨1, 1⟩⟩

/-- Two requests hold a reservation each, and the first of them is about to insert its process. -/
def concurrentSpawns : List Label :=
  [.arrive 0 ⟨pairProfile, true⟩, .arrive 1 ⟨pairProfile, true⟩, .lock 0,
    .snapshot 0 ⟨100, 50⟩, .account 0 none, .plan 0 [], .reserve 0 10, .lock 1,
    .snapshot 1 ⟨100, 50⟩, .sample 1 10, .account 1 none, .plan 1 [], .reserve 1 11,
    .resample 0, .sample 0 11, .sample 0 10, .account 0 none, .exec 0 500, .insertLock 0]

/-- The limits on a run with two spawns at once. -/
theorem concurrentSpawns_within :
    ∃ s, Reachable (step pairConfig pairCookbook) State.init s ∧ s.registry.nodeTotal = 2 ∧
      s.tasks.lookup 0 = some (.inserting ⟨pairProfile, true⟩ 10) ∧
      Table.size s.instances + s.registry.nodeTotal ≤ pairConfig.maxInstancesPerNode ∧
      (∀ p ∈ pairCookbook.profiles,
        countProfileInstances s.instances p + s.registry.profileCount p.key ≤
          p.effectiveMaxInstances pairConfig.modelDefaults) ∧
      ∀ t request id, s.tasks.lookup t = some (.inserting request id) →
        recheck pairConfig s.instances request.profile = none :=
  ⟨_, ⟨concurrentSpawns, rfl⟩, rfl, rfl,
    instance_counts_within pairConfig pairCookbook _ ⟨concurrentSpawns, rfl⟩⟩

end Llamesh.Spawn
