import Llamesh.Reload.Model

/-!
# Definitions a request holds across reloads

The index is rebuilt before the version is bumped, so a definition resolved
after reading version `v` is from the `v`th cookbook or a later one. The moves of
a request keep this, and its last comparison is with an index that is not older
than the version it checked.
-/

namespace Llamesh.Reload

open Transition

universe u v w

variable {K : Type u} {P : Type v} {H : Type w}

/-- `profile` is a definition of `key` from the cookbook `version` or a later one. -/
def State.DefinedSince (s : State K P H) (key : K) (version : Nat) (profile : P) : Prop :=
  ∃ n index, version ≤ n ∧ s.indexAt n = some index ∧ index key = some profile

/-- A definition of `key` from the cookbook `version` or a later one has the args hash. -/
def State.HashedSince (hash : P → H) (s : State K P H) (key : K) (version : Nat)
    (argsHash : H) : Prop :=
  ∃ n index, version ≤ n ∧ s.indexAt n = some index ∧ (index key).map hash = some argsHash

/-- The version a request has read before its definition. -/
def RequestPc.version : RequestPc P → Nat
  | .sampled v | .holding v _ | .refreshing v _ _ | .refreshed v _ _ _ | .spawning v _
  | .started v _ | .seen v _ _ | .compared v _ _ _ | .checked v _ _ _ => v

/-- The definition a request holds. -/
def RequestPc.profile? : RequestPc P → Option P
  | .sampled _ => none
  | .holding _ p | .refreshing _ p _ | .refreshed _ p _ _ | .spawning _ p
  | .started _ p | .seen _ p _ | .compared _ p _ _ | .checked _ p _ _ => some p

/-- What holds of the versions a request has read besides the one it adopted. -/
def RequestPc.Checked (hash : P → H) (s : State K P H) (key : K) : RequestPc P → Prop
  | .refreshing _ _ observed => observed ≤ s.version
  | .refreshed _ _ observed resolved =>
    observed ≤ s.version ∧ ∀ current, resolved = some current → s.DefinedSince key observed current
  | .seen _ _ versionSeen => versionSeen ≤ s.version
  | .compared _ p versionSeen replaced =>
    replaced = false → s.HashedSince hash key versionSeen (hash p)
  | .checked _ p versionChecked replaced =>
    replaced = false → s.HashedSince hash key versionChecked (hash p)
  | _ => True

/-- What holds of a request. -/
structure Request.Ok (hash : P → H) (s : State K P H) (r : Request K P) : Prop where
  version_le : r.pc.version ≤ s.version
  defined : ∀ p, r.pc.profile? = some p → s.DefinedSince r.key r.pc.version p
  checked : r.pc.Checked hash s r.key

/-- The reload in progress still has to look at the instance `id`. -/
def ReloadPc.Pending (id : Nat) : ReloadPc → Prop
  | .idle => False
  | .rebuilt | .written | .bumped => True
  | .reconciling remaining => id ∈ remaining
  | .inspected remaining j alreadyForced => id ∈ remaining ∨ id = j ∧ alreadyForced = false
  | .orphaned remaining j => id ∈ remaining ∨ id = j

/-- The rebuilt index is one cookbook ahead of the version until the bump. -/
def ReloadPc.ahead : ReloadPc → Nat
  | .rebuilt | .written => 1
  | _ => 0

/-- The instance was started with the args of the definition its key resolves to now. -/
def State.Matches (hash : P → H) (s : State K P H) (inst : Instance K H) : Prop :=
  (s.index inst.key).map hash = some inst.argsHash

/-- The invariant of reloads and spawns. -/
structure Inv (hash : P → H) (s : State K P H) : Prop where
  epoch : s.past.length = s.version + s.reload.ahead
  requests : ∀ id r, s.requests.lookup id = some r → r.Ok hash s
  instances : ∀ id inst, s.instances.lookup id = some inst → inst.flags.forced = false →
    s.Matches hash inst ∨ s.reload.Pending id

/-- The invariant holds before the first reload. -/
theorem inv_init (hash : P → H) (index : Index K P) :
    Inv hash (State.init index : State K P H) where
  epoch := rfl
  requests id r h := by simp [State.init] at h
  instances id inst h := by simp [State.init] at h

/-! ### The history of indexes -/

/-- The index of the newest version is the current one. -/
theorem indexAt_current (s : State K P H) : s.indexAt s.past.length = some s.index := by
  simp [State.indexAt]

/-- Only versions up to the current one have an index. -/
theorem le_of_indexAt {s : State K P H} {n : Nat} {index : Index K P}
    (h : s.indexAt n = some index) : n ≤ s.past.length := by
  obtain ⟨hn, -⟩ := List.getElem?_eq_some_iff.mp h
  rw [List.length_append, List.length_singleton] at hn
  omega

/-- The history of `t` extends the history of `s`. -/
structure Extends (s t : State K P H) : Prop where
  version_le : s.version ≤ t.version
  indexAt : ∀ n index, s.indexAt n = some index → t.indexAt n = some index

/-- A step that leaves the indexes and the version extends the history. -/
theorem Extends.of_eq {s t : State K P H} (hp : t.past = s.past) (hi : t.index = s.index)
    (hv : s.version ≤ t.version) : Extends s t where
  version_le := hv
  indexAt n index h := by
    simp only [State.indexAt, hp, hi] at h ⊢
    exact h

/-- A rebuild appends to the history. -/
theorem extends_rebuild (s : State K P H) (index : Index K P) (pc : ReloadPc) :
    Extends s { s with past := s.past ++ [s.index], index, reload := pc } where
  version_le := Nat.le_refl _
  indexAt n old h := by
    obtain ⟨hn, -⟩ := List.getElem?_eq_some_iff.mp h
    simp only [State.indexAt] at h ⊢
    rw [List.getElem?_append_left hn]
    exact h

variable {hash : P → H} {s t : State K P H}

/-- A later index does not undo what an earlier one defined. -/
theorem State.DefinedSince.extend (hx : Extends s t) {key : K} {version : Nat} {profile : P}
    (h : s.DefinedSince key version profile) : t.DefinedSince key version profile := by
  obtain ⟨n, index, hn, hix, hp⟩ := h
  exact ⟨n, index, hn, hx.indexAt n index hix, hp⟩

/-- Nor the hash it gave. -/
theorem State.HashedSince.extend (hx : Extends s t) {key : K} {version : Nat} {argsHash : H}
    (h : s.HashedSince hash key version argsHash) : t.HashedSince hash key version argsHash := by
  obtain ⟨n, index, hn, hix, hp⟩ := h
  exact ⟨n, index, hn, hx.indexAt n index hix, hp⟩

/-- What holds of a request survives every later reload. -/
theorem Request.Ok.extend (hx : Extends s t) {r : Request K P} (h : r.Ok hash s) :
    r.Ok hash t := by
  refine ⟨Nat.le_trans h.version_le hx.version_le, fun p hp => .extend hx (h.defined p hp), ?_⟩
  have hc := h.checked
  cases hpc : r.pc <;> simp only [hpc, RequestPc.Checked] at hc ⊢
  · exact Nat.le_trans hc hx.version_le
  · exact ⟨Nat.le_trans hc.1 hx.version_le, fun q hq => .extend hx (hc.2 q hq)⟩
  · exact Nat.le_trans hc hx.version_le
  · exact fun hr => .extend hx (hc hr)
  · exact fun hr => .extend hx (hc hr)

/-- A definition resolved now is not older than any version read before. -/
theorem definedSince_now (h : Inv hash s) {key : K} {version : Nat} {profile : P}
    (hv : version ≤ s.version) (hp : s.index key = some profile) :
    s.DefinedSince key version profile := by
  have he := h.epoch
  exact ⟨s.past.length, s.index, by omega, indexAt_current s, hp⟩

/-! ### Comparisons -/

variable [DecidableEq H]

/-- Nothing is replaced where the index has the same hash. -/
theorem replacedBy_eq_false {index : Index K P} {key : K} {argsHash : H} :
    replacedBy hash index key argsHash = false ↔ (index key).map hash = some argsHash := by
  unfold replacedBy
  cases index key <;> simp

/-- A comparison made now is with a cookbook not older than any version read before. -/
theorem hashedSince_now (h : Inv hash s) {key : K} {version : Nat} {argsHash : H}
    (hv : version ≤ s.version) (hr : replacedBy hash s.index key argsHash = false) :
    s.HashedSince hash key version argsHash := by
  have he := h.epoch
  exact ⟨s.past.length, s.index, by omega, indexAt_current s, replacedBy_eq_false.mp hr⟩

/-! ### Moves of a request -/

/-- What a request is moved to, with what the step has read. -/
inductive Moved (hash : P → H) (s : State K P H) (id : Nat) (key : K) : RequestPc P → Prop
  | arrived : Moved hash s id key (.sampled s.version)
  | resolved {v p} (hl : s.requests.lookup id = some ⟨key, .sampled v⟩)
      (hp : s.index key = some p) : Moved hash s id key (.holding v p)
  | observed {v p} (hl : s.requests.lookup id = some ⟨key, .holding v p⟩) :
      Moved hash s id key (.refreshing v p s.version)
  | refreshed {v p o} (hl : s.requests.lookup id = some ⟨key, .refreshing v p o⟩) :
      Moved hash s id key (.refreshed v p o (s.index key))
  | retried {v p o r} (hl : s.requests.lookup id = some ⟨key, .refreshed v p o r⟩) :
      Moved hash s id key (.holding v p)
  | adopted {v p q} (hl : s.requests.lookup id = some ⟨key, .refreshed v p s.version (some q)⟩) :
      Moved hash s id key (.holding s.version q)
  | spawning {v p} (hl : s.requests.lookup id = some ⟨key, .holding v p⟩) :
      Moved hash s id key (.spawning v p)
  | started {v p} (hl : s.requests.lookup id = some ⟨key, .spawning v p⟩) :
      Moved hash s id key (.started v p)
  | failed {v p} (hl : s.requests.lookup id = some ⟨key, .spawning v p⟩) :
      Moved hash s id key (.holding v p)
  | rejected {v p c r} (hl : s.requests.lookup id = some ⟨key, .checked v p c r⟩) :
      Moved hash s id key (.holding v p)
  | seen {v p} (hl : s.requests.lookup id = some ⟨key, .started v p⟩) :
      Moved hash s id key (.seen v p s.version)
  | compared {v p w} (hl : s.requests.lookup id = some ⟨key, .seen v p w⟩) :
      Moved hash s id key
        (.compared v p w (decide (w ≠ v) && replacedBy hash s.index key (hash p)))
  | checked {v p w r} (hl : s.requests.lookup id = some ⟨key, .compared v p w r⟩) :
      Moved hash s id key (.checked v p s.version (r || decide (s.version ≠ w)))

/-- What a resolving step does: the request is moved, or it leaves. -/
theorem resolveStep_moved (hash : P → H) {l : Label K P} (h : resolveStep s l = some t) :
    ∃ id, (∃ key pc, Moved hash s id key pc ∧ t = setPc s id key pc) ∨
      t = { s with requests := s.requests.erase id } := by
  cases l <;> simp only [resolveStep, guarded_eq_some, reduceCtorEq] at h
  case arrive id key =>
    obtain ⟨-, rfl⟩ := h
    exact ⟨id, .inl ⟨key, _, .arrived, rfl⟩⟩
  case resolve id =>
    refine ⟨id, ?_⟩
    split at h
    · next key v hl =>
      split at h
      · next p hp => exact .inl ⟨key, _, .resolved hl hp, (Option.some.inj h).symm⟩
      · exact .inr (Option.some.inj h).symm
    · cases h
  case refreshObserve id =>
    refine ⟨id, ?_⟩
    split at h
    · next key v p hl =>
      rw [guarded_eq_some] at h
      exact .inl ⟨key, _, .observed hl, h.2.symm⟩
    · cases h
  case refreshResolve id =>
    refine ⟨id, ?_⟩
    split at h
    · next key v p o hl => exact .inl ⟨key, _, .refreshed hl, (Option.some.inj h).symm⟩
    · cases h
  case refreshRecheck id =>
    refine ⟨id, ?_⟩
    split at h
    · next key v p o r hl =>
      split at h
      · exact .inl ⟨key, _, .retried hl, (Option.some.inj h).symm⟩
      · next ho =>
        obtain rfl : s.version = o := not_not.mp ho
        cases r with
        | some q => exact .inl ⟨key, _, .adopted hl, (Option.some.inj h).symm⟩
        | none => exact .inr (Option.some.inj h).symm
    · cases h
  case leave id =>
    obtain ⟨-, rfl⟩ := h
    exact ⟨id, .inr rfl⟩

/-- What a spawning step does: the request is moved, or its instance is inserted. -/
theorem spawnStep_moved {l : Label K P} (h : spawnStep hash s l = some t) :
    (∃ id key pc, Moved hash s id key pc ∧ t = setPc s id key pc) ∨
    ∃ id key v p c r instanceId binarySwap,
      s.requests.lookup id = some ⟨key, .checked v p c r⟩ ∧ s.reload.inPass = false ∧
      t = { s with
        requests := s.requests.erase id
        instances := s.instances.insert instanceId
          { key, argsHash := hash p,
            flags := { draining := binarySwap || (r || decide (s.version ≠ c)) } } } := by
  cases l <;> simp only [spawnStep, reduceCtorEq] at h
  case beginSpawn id =>
    split at h
    · next key v p hl => exact .inl ⟨id, key, _, .spawning hl, (Option.some.inj h).symm⟩
    · cases h
  case execProcess id =>
    split at h
    · next key v p hl => exact .inl ⟨id, key, _, .started hl, (Option.some.inj h).symm⟩
    · cases h
  case spawnFailed id =>
    split at h
    · next key v p hl => exact .inl ⟨id, key, _, .failed hl, (Option.some.inj h).symm⟩
    · next key v p c r hl => exact .inl ⟨id, key, _, .rejected hl, (Option.some.inj h).symm⟩
    · cases h
  case seeVersion id =>
    split at h
    · next key v p hl => exact .inl ⟨id, key, _, .seen hl, (Option.some.inj h).symm⟩
    · cases h
  case compareProfile id =>
    split at h
    · next key v p w hl => exact .inl ⟨id, key, _, .compared hl, (Option.some.inj h).symm⟩
    · cases h
  case checkVersion id =>
    split at h
    · next key v p w r hl => exact .inl ⟨id, key, _, .checked hl, (Option.some.inj h).symm⟩
    · cases h
  case insertInstance id instanceId binarySwap =>
    split at h
    · next key v p c r hl =>
      rw [guarded_eq_some] at h
      obtain ⟨⟨hpass, -⟩, rfl⟩ := h
      exact .inr ⟨id, key, v, p, c, r, instanceId, binarySwap, hl, hpass, rfl⟩
    · cases h

/-- A moved request is in order. -/
theorem Moved.ok (h : Inv hash s) {id : Nat} {key : K} {pc : RequestPc P}
    (hm : Moved hash s id key pc) : Request.Ok hash s ⟨key, pc⟩ := by
  cases hm with
  | arrived => exact ⟨Nat.le_refl _, fun p hp => (by cases hp), trivial⟩
  | resolved hl hp =>
    have hr := h.requests id _ hl
    refine ⟨hr.version_le, fun q hq => ?_, trivial⟩
    obtain rfl := Option.some.inj hq
    exact definedSince_now h hr.version_le hp
  | observed hl =>
    have hr := h.requests id _ hl
    exact ⟨hr.version_le, hr.defined, Nat.le_refl s.version⟩
  | refreshed hl =>
    have hr := h.requests id _ hl
    exact ⟨hr.version_le, hr.defined, hr.checked, fun q hq => definedSince_now h hr.checked hq⟩
  | retried hl | failed hl | rejected hl | spawning hl | started hl =>
    have hr := h.requests id _ hl
    exact ⟨hr.version_le, hr.defined, trivial⟩
  | adopted hl =>
    have hr := h.requests id _ hl
    refine ⟨Nat.le_refl _, fun q hq => ?_, trivial⟩
    obtain rfl := Option.some.inj hq
    exact hr.checked.2 _ rfl
  | seen hl =>
    have hr := h.requests id _ hl
    exact ⟨hr.version_le, hr.defined, Nat.le_refl s.version⟩
  | @compared v p w hl =>
    have hr := h.requests id _ hl
    refine ⟨hr.version_le, hr.defined, fun hrep => ?_⟩
    rcases Bool.and_eq_false_iff.mp hrep with hw | hsame
    · -- The version did not move, so the definition is the adopted one.
      obtain rfl : w = v := by simpa using hw
      obtain ⟨n, index, hn, hix, hp⟩ := hr.defined p rfl
      exact ⟨n, index, hn, hix, by rw [hp]; rfl⟩
    · exact hashedSince_now h hr.checked hsame
  | @checked v p w r hl =>
    have hr := h.requests id _ hl
    refine ⟨hr.version_le, hr.defined, fun hrep => ?_⟩
    obtain ⟨hrf, hw⟩ := Bool.or_eq_false_iff.mp hrep
    obtain rfl : s.version = w := by simpa using hw
    exact hr.checked hrf

/-- A moved request has read no older version than before. -/
theorem Moved.version_le {id : Nat} {key : K} {pc : RequestPc P} (hm : Moved hash s id key pc)
    {v : Nat} (hv : v ≤ s.version)
    (hr : ∀ r, s.requests.lookup id = some r → v ≤ r.pc.version) : v ≤ pc.version := by
  cases hm with
  | arrived | adopted hl => exact hv
  | resolved hl hp => exact hr _ hl
  | observed hl | refreshed hl | retried hl | spawning hl | started hl | failed hl | rejected hl
  | seen hl | compared hl | checked hl => exact hr _ hl

end Llamesh.Reload
