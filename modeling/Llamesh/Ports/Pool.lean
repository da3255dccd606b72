import Llamesh.Library.Run
import Llamesh.Library.Table
import Mathlib.Data.Finset.Basic

/-!
# The port pool

`PortPool` and `PortLease` (`src/node_state/port_pool.rs`) with the instances the
ports are handed to. A port is taken under the write lock of the used set. It
belongs to a lease until the instance is in the map, then to the instance, and
after that to the task that releases it: `retire_instances`
(`src/node_state/mod.rs:1313–1354`), or the task that a dropped lease spawns when
the lock is contended. A drop outside of a runtime ends with the process.
-/

namespace Llamesh.Ports

open Transition

/-! ### Allocation -/

/-- A range of ports with both its ends. `src/config.rs:516–519`. -/
structure PortRange where
  first : UInt16
  last : UInt16
  deriving DecidableEq, Repr

/-- The ports of the instances. `src/config.rs:510–513`. -/
structure LlamaCppPorts where
  ports : Option (List UInt16)
  ranges : Option (List PortRange)
  deriving DecidableEq, Repr

/-- Why there is no port. `src/node_state/port_pool.rs:10–16`. -/
inductive PortError where
  | noAvailablePorts
  | portInUse (port : UInt16)
  deriving DecidableEq, Repr

/-- The ports from `first` on, below `limit`. -/
def portsBelow (first limit : Nat) : List UInt16 :=
  (List.range' first (limit - first)).map UInt16.ofNat

/-- The ports in the order they are tried: the configured ones, or the ephemeral ones from a random
start on. `src/node_state/port_pool.rs:116–150`. -/
def candidates (config : Option LlamaCppPorts) (start : UInt16) : List UInt16 :=
  match config with
  | some config =>
    config.ports.getD [] ++
      (config.ranges.getD []).flatMap fun r => portsBelow r.first.toNat (r.last.toNat + 1)
  | none => portsBelow start.toNat 20000 ++ portsBelow 10000 start.toNat

/-- The first candidate from position `i` on that is not used and that the system can bind; `os`
answers the check of each position. -/
def scan (used : Finset UInt16) (os : Nat → Bool) : Nat → List UInt16 → Option UInt16
  | _, [] => none
  | i, port :: ports => if port ∉ used ∧ os i then some port else scan used os (i + 1) ports

/-- The first candidate that is free. `src/node_state/port_pool.rs:113–156`. -/
def getAvailablePort (config : Option LlamaCppPorts) (start : UInt16) (os : Nat → Bool)
    (used : Finset UInt16) : Except PortError UInt16 :=
  match scan used os 0 (candidates config start) with
  | some port => .ok port
  | none => .error .noAvailablePorts

/-- Takes a port if the pool does not use it. `src/node_state/port_pool.rs:183–190`. -/
def reserveSpecificPort (port : UInt16) (used : Finset UInt16) : Except PortError UInt16 :=
  if port ∈ used then .error (.portInUse port) else .ok port

/-! ### Owners -/

/-- The used ports, and who has each of them. -/
structure Pool where
  used : Finset UInt16
  leases : Table Nat UInt16
  mapped : Table Nat UInt16
  deferred : Table Nat UInt16

namespace Pool

/-- `PortPool::new`. -/
def init : Pool := ⟨∅, ∅, ∅, ∅⟩

/-- A port leaves the pool with a lease. -/
def take (s : Pool) (lease : Nat) (port : UInt16) : Pool :=
  { s with used := insert port s.used, leases := s.leases.insert lease port }

end Pool

/-- The operations on the pool. Leases, instances and release tasks have names of their own, which
are not used again while they are live. -/
inductive Label where
  | getAvailablePort (lease : Nat) (start : UInt16) (os : Nat → Bool)
  | reserveSpecificPort (lease : Nat) (port : UInt16)
  | release (lease : Nat)
  | drop (lease : Nat) (contended : Bool) (task : Nat)
  | handoff (lease inst : Nat)
  | retire (inst task : Nat)
  | runRelease (task : Nat)

/-- A new lease, or the pool as it was when there is no port. -/
def leased (s : Pool) (lease : Nat) : Except PortError UInt16 → Pool
  | .ok port => s.take lease port
  | .error _ => s

/-- One operation. A victim of `retire_instances` leaves the map together with the transfer to its
task, as there is no await between them. -/
def step (config : Option LlamaCppPorts) (s : Pool) : Label → Option Pool
  | .getAvailablePort lease start os =>
    guarded (s.leases.lookup lease = none ∧ 10000 ≤ start ∧ start < 20000)
      (leased s lease (getAvailablePort config start os s.used))
  | .reserveSpecificPort lease port =>
    guarded (s.leases.lookup lease = none) (leased s lease (reserveSpecificPort port s.used))
  | .release lease =>
    (s.leases.lookup lease).map fun port =>
      { s with used := s.used.erase port, leases := s.leases.erase lease }
  | .drop lease contended task =>
    (s.leases.lookup lease).bind fun port =>
      if contended then
        guarded (s.deferred.lookup task = none)
          { s with leases := s.leases.erase lease, deferred := s.deferred.insert task port }
      else some { s with used := s.used.erase port, leases := s.leases.erase lease }
  | .handoff lease inst =>
    (s.leases.lookup lease).bind fun port =>
      guarded (s.mapped.lookup inst = none)
        { s with leases := s.leases.erase lease, mapped := s.mapped.insert inst port }
  | .retire inst task =>
    (s.mapped.lookup inst).bind fun port =>
      guarded (s.deferred.lookup task = none)
        { s with mapped := s.mapped.erase inst, deferred := s.deferred.insert task port }
  | .runRelease task =>
    (s.deferred.lookup task).map fun port =>
      { s with used := s.used.erase port, deferred := s.deferred.erase task }

/-- What a port can be held by. -/
inductive Holder where
  | lease (id : Nat)
  | inst (id : Nat)
  deriving DecidableEq, Repr

/-- The port a live lease or a mapped instance holds. -/
def Pool.port (s : Pool) : Holder → Option UInt16
  | .lease id => s.leases.lookup id
  | .inst id => s.mapped.lookup id

/-! ### The scan -/

/-- The scan finds nothing exactly when every candidate is used or cannot be bound. -/
theorem scan_eq_none {used : Finset UInt16} {os : Nat → Bool} {ports : List UInt16} {i : Nat} :
    scan used os i ports = none ↔
      ∀ j p, ports[j]? = some p → p ∈ used ∨ os (i + j) = false := by
  induction ports generalizing i with
  | nil => simp [scan]
  | cons port ports ih =>
    rw [scan]
    constructor
    · intro h j p hp
      split at h
      · cases h
      · next hnot =>
        cases j with
        | zero =>
          obtain rfl : port = p := by simpa using hp
          by_contra hc
          rw [not_or, Bool.not_eq_false] at hc
          exact hnot hc
        | succ j =>
          have hrest := ih.mp h j p (by simpa using hp)
          rwa [Nat.add_assoc, Nat.add_comm 1 j] at hrest
    · intro h
      have hhead : port ∈ used ∨ os i = false := h 0 port rfl
      have hskip : ¬ (port ∉ used ∧ os i = true) := by
        rintro ⟨hfree, hos⟩
        rw [hos] at hhead
        exact hhead.elim hfree Bool.noConfusion
      rw [if_neg hskip, ih]
      intro j p hp
      have hrest := h (j + 1) p (by simpa using hp)
      rwa [Nat.add_assoc, Nat.add_comm 1 j]

/-- What the scan finds is not used. -/
theorem notMem_of_scan {used : Finset UInt16} {os : Nat → Bool} {ports : List UInt16} {i : Nat}
    {p : UInt16} (h : scan used os i ports = some p) : p ∉ used := by
  induction ports generalizing i with
  | nil => cases h
  | cons port ports ih =>
    rw [scan] at h
    split at h
    · next hfree =>
      obtain rfl := Option.some.inj h
      exact hfree.1
    · exact ih h

/-- The allocation fails exactly when every candidate is used or cannot be bound. -/
theorem getAvailablePort_error {config : Option LlamaCppPorts} {start : UInt16} {os : Nat → Bool}
    {used : Finset UInt16} :
    getAvailablePort config start os used = .error .noAvailablePorts ↔
      ∀ i p, (candidates config start)[i]? = some p → p ∈ used ∨ os i = false := by
  unfold getAvailablePort
  have hscan : scan used os 0 (candidates config start) = none ↔
      ∀ i p, (candidates config start)[i]? = some p → p ∈ used ∨ os (0 + i) = false := scan_eq_none
  simp only [Nat.zero_add] at hscan
  rw [← hscan]
  cases scan used os 0 (candidates config start) <;> simp

/-! ### One owner for each used port -/

/-- How many leases, instances and release tasks have a port. -/
def Pool.owners (s : Pool) (p : UInt16) : Nat :=
  Table.count s.leases (· == p) + Table.count s.mapped (· == p) + Table.count s.deferred (· == p)

/-- Every used port has one owner, and no other port has one. -/
def Owned (s : Pool) : Prop := ∀ p, s.owners p = if p ∈ s.used then 1 else 0

private theorem count_insert {t : Table Nat UInt16} {k : Nat} (h : t.lookup k = none)
    (port p : UInt16) :
    Table.count (t.insert k port) (· == p) =
      (if port = p then 1 else 0) + Table.count t (· == p) := by
  rw [Table.count_insert_of_notMem (AList.lookup_eq_none.mp h)]
  by_cases hp : port = p <;> simp [hp]

private theorem count_erase {t : Table Nat UInt16} {k : Nat} {port : UInt16}
    (h : t.lookup k = some port) (p : UInt16) :
    Table.count (t.erase k) (· == p) + (if port = p then 1 else 0) =
      Table.count t (· == p) := by
  rw [← Table.count_erase_add h]
  by_cases hp : port = p <;> simp [hp]

private theorem owned_take {s : Pool} {lease : Nat} {port : UInt16} (h : Owned s)
    (hfresh : s.leases.lookup lease = none) (hfree : port ∉ s.used) :
    Owned (s.take lease port) := by
  intro p
  have hp := h p
  simp only [Pool.owners, Pool.take, count_insert hfresh, Finset.mem_insert] at hp ⊢
  by_cases hport : port = p
  · subst hport
    simp only [hfree, if_false] at hp
    simp only [true_or, if_true]
    omega
  · simp only [hport, Ne.symm hport, false_or, if_false]
    omega

private theorem owned_leased {s : Pool} {lease : Nat} {r : Except PortError UInt16} (h : Owned s)
    (hfresh : s.leases.lookup lease = none) (hfree : ∀ port, r = .ok port → port ∉ s.used) :
    Owned (leased s lease r) := by
  cases r with
  | ok port => exact owned_take h hfresh (hfree port rfl)
  | error e => exact h

private theorem owned_erase {s : Pool} {port : UInt16} (h : Owned s) {t : Pool}
    (hused : t.used = s.used.erase port)
    (howners : ∀ p, t.owners p + (if port = p then 1 else 0) = s.owners p) : Owned t := by
  intro p
  have hp := h p
  have ho := howners p
  simp only [hused, Finset.mem_erase]
  by_cases hport : port = p
  · subst hport
    simp only [if_true] at ho
    simp only [ne_eq, not_true, false_and, if_false]
    split at hp <;> omega
  · simp only [hport, if_false] at ho
    simp only [ne_eq, Ne.symm hport, not_false_iff, true_and]
    omega

private theorem owned_move {s t : Pool} (h : Owned s) (hused : t.used = s.used)
    (howners : ∀ p, t.owners p = s.owners p) : Owned t := by
  intro p
  simp only [howners, hused]
  exact h p

/-- Every operation keeps one owner for each used port. -/
theorem owned_step {config : Option LlamaCppPorts} {s t : Pool} {l : Label} (h : Owned s)
    (hs : step config s l = some t) : Owned t := by
  cases l with
  | getAvailablePort lease start os =>
    simp only [step, guarded_eq_some] at hs
    obtain ⟨⟨hfresh, -⟩, rfl⟩ := hs
    refine owned_leased h hfresh fun port hport => ?_
    unfold getAvailablePort at hport
    split at hport
    · next p hp =>
      obtain rfl := Except.ok.inj hport
      exact notMem_of_scan hp
    · cases hport
  | reserveSpecificPort lease port =>
    simp only [step, guarded_eq_some] at hs
    obtain ⟨hfresh, rfl⟩ := hs
    refine owned_leased h hfresh fun p hp => ?_
    unfold reserveSpecificPort at hp
    split at hp
    · cases hp
    · next hfree =>
      obtain rfl := Except.ok.inj hp
      exact hfree
  | release lease =>
    simp only [step, Option.map_eq_some_iff] at hs
    obtain ⟨port, hlease, rfl⟩ := hs
    refine owned_erase h rfl fun p => ?_
    have hcount := count_erase hlease p
    simp only [Pool.owners]
    omega
  | drop lease contended task =>
    simp only [step, Option.bind_eq_some_iff] at hs
    obtain ⟨port, hlease, hs⟩ := hs
    have hcount := count_erase hlease
    split at hs
    · simp only [guarded_eq_some] at hs
      obtain ⟨htask, rfl⟩ := hs
      refine owned_move h rfl fun p => ?_
      have hp := hcount p
      simp only [Pool.owners, count_insert htask]
      omega
    · obtain rfl := Option.some.inj hs
      refine owned_erase h rfl fun p => ?_
      have hp := hcount p
      simp only [Pool.owners]
      omega
  | handoff lease inst =>
    simp only [step, Option.bind_eq_some_iff, guarded_eq_some] at hs
    obtain ⟨port, hlease, hinst, rfl⟩ := hs
    refine owned_move h rfl fun p => ?_
    have hcount := count_erase hlease p
    simp only [Pool.owners, count_insert hinst]
    omega
  | retire inst task =>
    simp only [step, Option.bind_eq_some_iff, guarded_eq_some] at hs
    obtain ⟨port, hinst, htask, rfl⟩ := hs
    refine owned_move h rfl fun p => ?_
    have hcount := count_erase hinst p
    simp only [Pool.owners, count_insert htask]
    omega
  | runRelease task =>
    simp only [step, Option.map_eq_some_iff] at hs
    obtain ⟨port, htask, rfl⟩ := hs
    refine owned_erase h rfl fun p => ?_
    have hcount := count_erase htask p
    simp only [Pool.owners]
    omega

/-- Every run keeps one owner for each used port. -/
theorem owned_exec {config : Option LlamaCppPorts} {labels : List Label} {s : Pool}
    (h : exec (step config) .init labels = some s) : Owned s :=
  exec_invariant (P := Owned) (fun _ _ _ => owned_step) (fun _ => rfl) h

/-! ### Exclusivity -/

private theorem count_pos {t : Table Nat UInt16} {k : Nat} {p : UInt16} (h : t.lookup k = some p) :
    0 < Table.count t (· == p) :=
  Table.count_pos h (beq_self_eq_true p)

private theorem one_lt_count {t : Table Nat UInt16} {j k : Nat} {p : UInt16}
    (hj : t.lookup j = some p) (hk : t.lookup k = some p) (hne : j ≠ k) :
    1 < Table.count t (· == p) := by
  have hrest : (t.erase k).lookup j = some p := Table.lookup_erase_eq_some.mpr ⟨hne, hj⟩
  have hpos := count_pos hrest
  have herase := count_erase hk p
  simp only [if_true] at herase
  omega

private theorem exists_lookup_of_count {t : Table Nat UInt16} {p : UInt16}
    (h : 0 < Table.count t (· == p)) : ∃ k, t.lookup k = some p := by
  by_contra hnone
  have hzero : Table.count t (· == p) = 0 := by
    refine Table.count_eq_zero fun k a ha => ?_
    rw [beq_eq_false_iff_ne]
    rintro rfl
    exact hnone ⟨k, ha⟩
  omega

private theorem Owned.owners_le_one {s : Pool} (h : Owned s) (p : UInt16) : s.owners p ≤ 1 := by
  rw [h p]
  split <;> omega

private theorem Owned.mem_used_iff {s : Pool} (h : Owned s) (p : UInt16) :
    p ∈ s.used ↔ 0 < s.owners p := by
  rw [h p]
  split <;> simp [*]

private theorem Owned.holder_unique {s : Pool} (h : Owned s) {a b : Holder} {p : UInt16}
    (ha : s.port a = some p) (hb : s.port b = some p) : a = b := by
  have hle := h.owners_le_one p
  unfold Pool.owners at hle
  cases a with
  | lease j =>
    have hj := count_pos (t := s.leases) ha
    cases b with
    | lease k =>
      by_contra hne
      have htwo := one_lt_count (t := s.leases) ha hb fun hjk => hne (congrArg Holder.lease hjk)
      omega
    | inst k =>
      have hk := count_pos (t := s.mapped) hb
      omega
  | inst j =>
    have hj := count_pos (t := s.mapped) ha
    cases b with
    | lease k =>
      have hk := count_pos (t := s.leases) hb
      omega
    | inst k =>
      by_contra hne
      have htwo := one_lt_count (t := s.mapped) ha hb fun hjk => hne (congrArg Holder.inst hjk)
      omega

private theorem Owned.not_deferred {s : Pool} (h : Owned s) {a : Holder} {task : Nat} {p : UInt16}
    (ha : s.port a = some p) : s.deferred.lookup task ≠ some p := by
  intro htask
  have hle := h.owners_le_one p
  have hpos := count_pos htask
  unfold Pool.owners at hle
  cases a with
  | lease j =>
    have hj := count_pos (t := s.leases) ha
    omega
  | inst j =>
    have hj := count_pos (t := s.mapped) ha
    omega

private theorem owners_pos_iff (s : Pool) (p : UInt16) :
    0 < s.owners p ↔ (∃ a, s.port a = some p) ∨ ∃ task, s.deferred.lookup task = some p := by
  constructor
  · intro h
    rw [Pool.owners, Nat.add_pos_iff_pos_or_pos, Nat.add_pos_iff_pos_or_pos] at h
    obtain (hlease | hinst) | htask := h
    · obtain ⟨k, hk⟩ := exists_lookup_of_count hlease
      exact .inl ⟨.lease k, hk⟩
    · obtain ⟨k, hk⟩ := exists_lookup_of_count hinst
      exact .inl ⟨.inst k, hk⟩
    · exact .inr (exists_lookup_of_count htask)
  · unfold Pool.owners
    rintro (⟨_ | _, hk⟩ | ⟨task, htask⟩)
    · have hpos := count_pos (t := s.leases) hk
      omega
    · have hpos := count_pos (t := s.mapped) hk
      omega
    · have hpos := count_pos htask
      omega

/-- In every run no port has two holders, the used ports are the held ones and those whose release
is scheduled, each with one owner, and an allocation fails exactly when every candidate is used or
cannot be bound. -/
theorem ports_exclusive (config : Option LlamaCppPorts) (labels : List Label) (s : Pool)
    (h : exec (step config) .init labels = some s) :
    (∀ a b p, s.port a = some p → s.port b = some p → a = b) ∧
      (∀ a task p, s.port a = some p → s.deferred.lookup task ≠ some p) ∧
      (∀ p, p ∈ s.used ↔ (∃ a, s.port a = some p) ∨ ∃ task, s.deferred.lookup task = some p) ∧
      ∀ start os, getAvailablePort config start os s.used = .error .noAvailablePorts ↔
        ∀ i p, (candidates config start)[i]? = some p → p ∈ s.used ∨ os i = false := by
  have howned := owned_exec h
  refine ⟨fun a b p => howned.holder_unique, fun a task p => howned.not_deferred, fun p => ?_,
    fun start os => getAvailablePort_error⟩
  rw [howned.mem_used_iff, owners_pos_iff]

/-- A cancelled spawn gives its port back in a task. The port is not given out before the task ran,
and the lease that gets it afterwards keeps it through the retirement of another instance. -/
theorem ports_exclusive_after_cancel :
    exec (step (some ⟨some [8080], some [⟨8081, 8082⟩]⟩)) .init
      [.getAvailablePort 0 10000 fun _ => true, .drop 0 true 0,
        .getAvailablePort 1 10000 fun _ => true, .handoff 1 0, .runRelease 0,
        .getAvailablePort 2 10000 fun _ => true, .retire 0 1] =
        some ⟨{8080, 8081}, AList.insert 2 8080 ∅, ∅, AList.insert 1 8081 ∅⟩ ∧
      (∀ task, (AList.insert 1 8081 ∅ : Table Nat UInt16).lookup task ≠ some 8080) := by
  have hrun : exec (step (some ⟨some [8080], some [⟨8081, 8082⟩]⟩)) .init
      [.getAvailablePort 0 10000 fun _ => true, .drop 0 true 0,
        .getAvailablePort 1 10000 fun _ => true, .handoff 1 0, .runRelease 0,
        .getAvailablePort 2 10000 fun _ => true, .retire 0 1] =
        some ⟨{8080, 8081}, AList.insert 2 8080 ∅, ∅, AList.insert 1 8081 ∅⟩ := by
    rfl
  exact ⟨hrun, fun task => (ports_exclusive _ _ _ hrun).2.1 (.lease 2) task 8080 rfl⟩

end Llamesh.Ports
