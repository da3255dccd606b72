import Llamesh.Library.Table
import Llamesh.Config.Profile

/-!
# In-flight spawn reservations

The registry of pending spawns and of the memory of loading, running and stopping
processes (`src/node_state/spawn_reservations.rs`). An entry is made by `reserve`
and removed by `finish`. Between the two it loses its pending mark at the handoff
to the instances map, and gains a process id and the mark of readiness.
-/

namespace Llamesh.Spawn

/-- The two kinds of memory a process is admitted with, as the pairs of the source. -/
structure Memory (α : Type) where
  vram : α
  sysmem : α
  deriving DecidableEq, Repr

/-- One kind of memory. -/
inductive Dimension where
  | vram
  | sysmem
  deriving DecidableEq, Repr

/-- The component of one kind. -/
def Memory.at {α : Type} (m : Memory α) : Dimension → α
  | .vram => m.vram
  | .sysmem => m.sysmem

/-- Build a pair from a function of the kind. -/
def Memory.ofFn {α : Type} (f : Dimension → α) : Memory α := ⟨f .vram, f .sysmem⟩

/-- The part of a memory that is given by its parts. -/
@[simp] theorem Memory.at_ofFn {α : Type} (f : Dimension → α) (d : Dimension) :
    (Memory.ofFn f).at d = f d := by
  cases d <;> rfl

/-- One process-memory commitment. `src/node_state/spawn_reservations.rs:13–21`. -/
structure MemoryCommitment where
  key : String
  pending : Bool
  pid : Option Nat
  estimate : Memory Nat
  ready : Bool
  deriving DecidableEq, Repr

/-- The registry, and a copy of it. `src/node_state/spawn_reservations.rs:23–49`. -/
structure SpawnReservations where
  entries : Table Nat MemoryCommitment
  revision : Nat

/-- The empty registry. -/
def SpawnReservations.empty : SpawnReservations := ⟨∅, 0⟩

namespace SpawnReservations

/-- Spawns still pending admission for a key. `src/node_state/spawn_reservations.rs:31–37`. -/
def profileCount (r : SpawnReservations) (key : String) : Nat :=
  Table.count r.entries fun e => e.pending && e.key == key

/-- Spawns still pending admission. `src/node_state/spawn_reservations.rs:39–42`. -/
def nodeTotal (r : SpawnReservations) : Nat := Table.count r.entries fun e => e.pending

/-- `revision.wrapping_add(1)` on 64 bits. -/
def nextRevision (revision : Nat) : Nat := (revision + 1) % 2 ^ 64

/-- Run `f` only if the registry has not changed. `src/node_state/spawn_reservations.rs:93–104`. -/
def withRevision {α : Type} (r : SpawnReservations) (revision : Nat) (f : Unit → α) : Option α :=
  if r.revision = revision then some (f ()) else none

/-- Record an in-flight spawn. `src/node_state/spawn_reservations.rs:110–130`. -/
def reserve (r : SpawnReservations) (id : Nat) (key : String) (estimate : Memory Nat) :
    SpawnReservations :=
  { entries := r.entries.insert id
      { key := key, pending := true, pid := none, estimate := estimate, ready := false }
    revision := nextRevision r.revision }

/-- Change the entry of `id` where `changes` holds, and only then the revision. The three updates
of an entry have this shape. -/
def update (r : SpawnReservations) (id : Nat) (changes : MemoryCommitment → Bool)
    (f : MemoryCommitment → MemoryCommitment) : SpawnReservations :=
  match r.entries.lookup id with
  | some e =>
    if changes e then
      { entries := r.entries.insert id (f e), revision := nextRevision r.revision }
    else r
  | none => r

/-- Marks an entry as handed off. `src/node_state/spawn_reservations.rs:144–157`. -/
def markHandedOff (r : SpawnReservations) (id : Nat) : SpawnReservations :=
  r.update id (fun e => e.pending) fun e => { e with pending := false }

/-- Sets the process of an entry. `src/node_state/spawn_reservations.rs:159–167`. -/
def updatePid (r : SpawnReservations) (id pid : Nat) : SpawnReservations :=
  r.update id (fun e => e.pid != some pid) fun e => { e with pid := some pid }

/-- Marks the process of an entry as ready. `src/node_state/spawn_reservations.rs:169–177`. -/
def markReady (r : SpawnReservations) (id : Nat) : SpawnReservations :=
  r.update id (fun e => !e.ready) fun e => { e with ready := true }

/-- Removes an entry. `src/node_state/spawn_reservations.rs:179–184`. -/
def releaseMemory (r : SpawnReservations) (id : Nat) : SpawnReservations :=
  if id ∈ r.entries then
    { entries := r.entries.erase id, revision := nextRevision r.revision }
  else r

/-! ### Entries after an operation -/

/-- A reservation adds its entry. -/
theorem lookup_reserve (r : SpawnReservations) (id k : Nat) (key : String) (est : Memory Nat) :
    (r.reserve id key est).entries.lookup k =
      if k = id then some ⟨key, true, none, est, false⟩ else r.entries.lookup k :=
  Table.lookup_insert_eq r.entries id k _

/-- A release removes its entry. -/
theorem lookup_releaseMemory (r : SpawnReservations) (id k : Nat) :
    (r.releaseMemory id).entries.lookup k = if k = id then none else r.entries.lookup k := by
  unfold releaseMemory
  split
  · exact Table.lookup_erase_eq r.entries id k
  · next hid =>
    by_cases hk : k = id
    · subst hk
      simpa using AList.lookup_eq_none.mpr hid
    · simp [hk]

private theorem lookup_update (r : SpawnReservations) (id k : Nat)
    {changes : MemoryCommitment → Bool} {f : MemoryCommitment → MemoryCommitment}
    (hf : ∀ e, changes e = false → f e = e) :
    (r.update id changes f).entries.lookup k =
      if k = id then (r.entries.lookup k).map f else r.entries.lookup k := by
  unfold update
  cases he : r.entries.lookup id with
  | none =>
    by_cases hk : k = id
    · subst hk
      simp [he]
    · simp [hk]
  | some e =>
    show (if changes e then _ else r : SpawnReservations).entries.lookup k = _
    split
    · rw [Table.lookup_insert_eq]
      by_cases hk : k = id
      · subst hk
        simp [he]
      · simp [hk]
    · next hc =>
      by_cases hk : k = id
      · subst hk
        simp [he, hf e (Bool.eq_false_iff.mpr hc)]
      · simp [hk]

/-- A handoff marks its entry. -/
theorem lookup_markHandedOff (r : SpawnReservations) (id k : Nat) :
    (r.markHandedOff id).entries.lookup k =
      if k = id then (r.entries.lookup k).map fun e => { e with pending := false }
      else r.entries.lookup k := by
  apply lookup_update
  intro e he
  cases e
  simp_all

/-- A process is set in its entry. -/
theorem lookup_updatePid (r : SpawnReservations) (id pid k : Nat) :
    (r.updatePid id pid).entries.lookup k =
      if k = id then (r.entries.lookup k).map fun e => { e with pid := some pid }
      else r.entries.lookup k := by
  apply lookup_update
  intro e he
  cases e
  simp_all

/-- A process is marked ready in its entry. -/
theorem lookup_markReady (r : SpawnReservations) (id k : Nat) :
    (r.markReady id).entries.lookup k =
      if k = id then (r.entries.lookup k).map fun e => { e with ready := true }
      else r.entries.lookup k := by
  apply lookup_update
  intro e he
  cases e
  simp_all

/-! ### Operations that admit nothing -/

/-- What an entry becomes by every operation but its removal: the admission is the same, and the
pending mark, the process id and readiness only move one way. -/
structure Evolves (e e' : MemoryCommitment) : Prop where
  key : e'.key = e.key
  estimate : e'.estimate = e.estimate
  pending : e'.pending = true → e.pending = true
  pid : ∀ p, e.pid = some p → e'.pid = some p
  ready : e.ready = true → e'.ready = true

/-- A commitment that stays has evolved. -/
theorem Evolves.refl (e : MemoryCommitment) : Evolves e e :=
  ⟨rfl, rfl, id, fun _ h => h, id⟩

/-- Evolving twice is evolving. -/
theorem Evolves.trans {a b c : MemoryCommitment} (h₁ : Evolves a b) (h₂ : Evolves b c) :
    Evolves a c where
  key := h₂.key.trans h₁.key
  estimate := h₂.estimate.trans h₁.estimate
  pending h := h₁.pending (h₂.pending h)
  pid p h := h₂.pid p (h₁.pid p h)
  ready h := h₂.ready (h₁.ready h)

/-- Every entry of the second registry evolved from one of the first. -/
def Shrinks (r r' : SpawnReservations) : Prop :=
  ∀ id e', r'.entries.lookup id = some e' → ∃ e, r.entries.lookup id = some e ∧ Evolves e e'

/-- A registry shrinks to itself. -/
theorem Shrinks.refl (r : SpawnReservations) : Shrinks r r :=
  fun _ e h => ⟨e, h, Evolves.refl e⟩

/-- Shrinking twice is shrinking. -/
theorem Shrinks.trans {a b c : SpawnReservations} (h₁ : Shrinks a b) (h₂ : Shrinks b c) :
    Shrinks a c := by
  intro id e'' h
  obtain ⟨e', he', hev'⟩ := h₂ id e'' h
  obtain ⟨e, he, hev⟩ := h₁ id e' he'
  exact ⟨e, he, hev.trans hev'⟩

private theorem shrinks_of_map {r r' : SpawnReservations} {id : Nat}
    {f : MemoryCommitment → MemoryCommitment}
    (hl : ∀ k, r'.entries.lookup k =
      if k = id then (r.entries.lookup k).map f else r.entries.lookup k)
    (hf : ∀ e, r.entries.lookup id = some e → Evolves e (f e)) : Shrinks r r' := by
  intro k e' h
  rw [hl k] at h
  by_cases hk : k = id
  · subst hk
    simp only [if_true, Option.map_eq_some_iff] at h
    obtain ⟨e, he, rfl⟩ := h
    exact ⟨e, he, hf e he⟩
  · rw [if_neg hk] at h
    exact ⟨e', h, Evolves.refl e'⟩

/-- A handoff shrinks the registry. -/
theorem shrinks_markHandedOff (r : SpawnReservations) (id : Nat) :
    Shrinks r (r.markHandedOff id) := by
  apply shrinks_of_map (r.lookup_markHandedOff id)
  intro e _
  exact ⟨rfl, rfl, by simp, fun _ h => h, fun h => h⟩

/-- A process id is only set once. -/
theorem shrinks_updatePid {r : SpawnReservations} {id pid : Nat}
    (h : ∀ e, r.entries.lookup id = some e → e.pid = none) : Shrinks r (r.updatePid id pid) := by
  apply shrinks_of_map (r.lookup_updatePid id pid)
  intro e he
  have hnone := h e he
  exact ⟨rfl, rfl, fun h => h, by simp [hnone], fun h => h⟩

/-- Marking a process ready shrinks the registry. -/
theorem shrinks_markReady (r : SpawnReservations) (id : Nat) : Shrinks r (r.markReady id) := by
  apply shrinks_of_map (r.lookup_markReady id)
  intro e _
  exact ⟨rfl, rfl, fun h => h, fun _ h => h, by simp⟩

/-- A release shrinks the registry. -/
theorem shrinks_releaseMemory (r : SpawnReservations) (id : Nat) :
    Shrinks r (r.releaseMemory id) := by
  intro k e' h
  rw [lookup_releaseMemory] at h
  by_cases hk : k = id
  · simp [hk] at h
  · rw [if_neg hk] at h
    exact ⟨e', h, Evolves.refl e'⟩

/-- Without a `reserve` no key gains pending spawns. -/
theorem Shrinks.profileCount_le {r r' : SpawnReservations} (h : Shrinks r r') (key : String) :
    r'.profileCount key ≤ r.profileCount key := by
  apply Table.count_le_count_of_lookup
  intro id e' he'
  obtain ⟨e, he, hev⟩ := h id e' he'
  refine ⟨e, he, ?_⟩
  simp only [Bool.and_eq_true, beq_iff_eq]
  exact fun hp => ⟨hev.pending hp.1, by rw [← hev.key, hp.2]⟩

/-- Without a `reserve` the node gains no pending spawns. -/
theorem Shrinks.nodeTotal_le {r r' : SpawnReservations} (h : Shrinks r r') :
    r'.nodeTotal ≤ r.nodeTotal := by
  apply Table.count_le_count_of_lookup
  intro id e' he'
  obtain ⟨e, he, hev⟩ := h id e' he'
  exact ⟨e, he, hev.pending⟩

/-! ### Counts of an admission and of a handoff -/

/-- A new reservation is counted for its profile. -/
theorem profileCount_reserve {r : SpawnReservations} {id : Nat} (h : id ∉ r.entries)
    (key : String) (est : Memory Nat) (k : String) :
    (r.reserve id key est).profileCount k = (key == k).toNat + r.profileCount k := by
  unfold profileCount reserve
  rw [Table.count_insert_of_notMem h]
  simp

/-- A new reservation is counted for the node. -/
theorem nodeTotal_reserve {r : SpawnReservations} {id : Nat} (h : id ∉ r.entries)
    (key : String) (est : Memory Nat) : (r.reserve id key est).nodeTotal = 1 + r.nodeTotal := by
  unfold nodeTotal reserve
  rw [Table.count_insert_of_notMem h]
  simp

private theorem markHandedOff_entries {r : SpawnReservations} {id : Nat} {e : MemoryCommitment}
    (h : r.entries.lookup id = some e) (hp : e.pending = true) :
    (r.markHandedOff id).entries = r.entries.insert id { e with pending := false } := by
  simp [markHandedOff, update, h, hp]

/-- A handoff is counted off for its profile. -/
theorem profileCount_markHandedOff {r : SpawnReservations} {id : Nat} {e : MemoryCommitment}
    (h : r.entries.lookup id = some e) (hp : e.pending = true) (k : String) :
    (r.markHandedOff id).profileCount k + (e.key == k).toNat = r.profileCount k := by
  unfold profileCount
  rw [markHandedOff_entries h hp]
  have hcount := Table.count_insert_add h { e with pending := false }
    fun e => e.pending && e.key == k
  simpa [hp] using hcount

/-- A handoff is counted off for the node. -/
theorem nodeTotal_markHandedOff {r : SpawnReservations} {id : Nat} {e : MemoryCommitment}
    (h : r.entries.lookup id = some e) (hp : e.pending = true) :
    (r.markHandedOff id).nodeTotal + 1 = r.nodeTotal := by
  unfold nodeTotal
  rw [markHandedOff_entries h hp]
  have hcount := Table.count_insert_add h { e with pending := false } fun e => e.pending
  simpa [hp] using hcount

end SpawnReservations

end Llamesh.Spawn
