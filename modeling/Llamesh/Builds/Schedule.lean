import Llamesh.Library.Run
import Mathlib.Data.List.Nodup
import Mathlib.Logic.Function.Basic

/-!
# Who builds when

Three paths call `update_and_build`: the initial build at startup, which is retried with backoff
(`src/main.rs:331–397`), the scheduled update checks with retries of their own
(`src/main.rs:400–466`), and the rebuild endpoint (`src/api.rs:252–297`). They share
`rebuild_lock`, which none holds while it sleeps. The initial build is over when another path has
swapped the binary since it began: it compares the generation before each retry and again under the
lock, since it may have waited for that very build. The endpoint first refuses a request that is not
authorized, and one that comes while the node drains; the draining may begin after it has looked.

The lock is fair and is handed to the first in line, so it is the line itself, with the holder at
its head.
-/

namespace Llamesh.Builds.Schedule

open Transition

/-- `INITIAL_BUILD_RETRY_DELAYS`, in seconds. `src/main.rs:35–42`. -/
def initialBuildRetryDelays : List Nat := [10, 30, 60, 120, 300, 600]

/-- `SCHEDULED_UPDATE_RETRY_DELAYS`, in seconds. `src/main.rs:51–55`. -/
def scheduledUpdateRetryDelays : List Nat := [30, 120, 300]

/-- Who calls `update_and_build`. -/
inductive Builder where
  | initial
  | scheduled
  | manual (id : Nat)
deriving DecidableEq, Repr

/-- Where a builder is. -/
inductive Pc where
  | idle
  /-- A request that may rebuild, before it tries the lock. -/
  | admitted
  /-- An attempt begins, before it asks for the lock. -/
  | ready
  /-- In line for the lock, or just given it. -/
  | inLine
  | building
  /-- In `update_and_build`, after the swap. -/
  | swapped
  | sleeping
  | finished
deriving DecidableEq, Repr

/-- In line for the lock or its holder. -/
def Pc.Queued (pc : Pc) : Prop := pc = .inLine ∨ pc = .building ∨ pc = .swapped

/-- In `update_and_build`. -/
def Pc.Running (pc : Pc) : Prop := pc = .building ∨ pc = .swapped

instance (pc : Pc) : Decidable pc.Running := inferInstanceAs (Decidable (_ ∨ _))

/-- What the endpoint answers. `src/api.rs:252–297`. -/
inductive Answer where
  | unauthorized
  | nodeDraining
  | accepted
  | conflict
deriving DecidableEq, Repr

/-- The node. `swaps` are the builders that have swapped the binary, each at the generation that is
its position. -/
structure Node where
  generation : Nat
  line : List Builder
  pc : Builder → Pc
  /-- The attempt of `retry_with_backoff`, from 1. -/
  attempt : Builder → Nat
  startupGeneration : Nat
  swaps : List Builder
  draining : Bool
  answer : Nat → Option Answer

/-- The start of the node. -/
def Node.init : Node where
  generation := 0
  line := []
  pc := fun _ => .idle
  attempt := fun _ => 1
  startupGeneration := 0
  swaps := []
  draining := false
  answer := fun _ => none

/-- What can happen. -/
inductive Label where
  | startInitial
  /-- A tick of the interval that finds the lock free; another is skipped. -/
  | tick
  /-- The endpoint is called, with the result of `check_auth`. -/
  | rebuild (id : Nat) (authorized : Bool)
  | tryLock (id : Nat)
  /-- A shutdown begins. -/
  | drain
  | lock (b : Builder)
  | enter (b : Builder)
  | swap (b : Builder)
  | succeed (b : Builder)
  | fail (b : Builder)
  | wake (b : Builder)

/-- The builder goes on at `pc`. -/
def Node.go (s : Node) (b : Builder) (pc : Pc) : Node :=
  { s with pc := Function.update s.pc b pc }

/-- The holder gives the lock to the next in line and goes on at `pc`. -/
def Node.leave (s : Node) (b : Builder) (pc : Pc) : Node :=
  { s.go b pc with line := s.line.tail }

/-- The endpoint answers a request that does not build. -/
def Node.refuse (s : Node) (id : Nat) (answer : Answer) : Node :=
  { s.go (.manual id) .finished with answer := Function.update s.answer id (some answer) }

/-- Where a builder is after its last attempt. -/
def Builder.over : Builder → Pc
  | .scheduled => .idle
  | _ => .finished

/-- The delays between the attempts of a builder. -/
def Builder.delays : Builder → List Nat
  | .initial => initialBuildRetryDelays
  | .scheduled => scheduledUpdateRetryDelays
  | .manual _ => []

/-- `should_retry`. -/
def Node.shouldRetry (s : Node) : Builder → Bool
  | .initial => s.generation == s.startupGeneration
  | _ => true

/-- One step. `retry_with_backoff` is `src/util.rs:24–76`. -/
def step (s : Node) : Label → Option Node
  | .startInitial =>
    guarded (s.pc .initial = .idle)
      { s.go .initial .ready with startupGeneration := s.generation }
  | .tick =>
    guarded (s.pc .scheduled = .idle ∧ s.line = [])
      { s.go .scheduled .ready with attempt := Function.update s.attempt .scheduled 1 }
  | .rebuild id authorized =>
    guarded (s.pc (.manual id) = .idle)
      (if authorized then
        if s.draining then s.refuse id .nodeDraining else s.go (.manual id) .admitted
      else s.refuse id .unauthorized)
  | .tryLock id =>
    guarded (s.pc (.manual id) = .admitted)
      (if s.line = [] then
        { s.go (.manual id) .building with
          line := [.manual id]
          answer := Function.update s.answer id (some .accepted) }
      else s.refuse id .conflict)
  | .drain => some { s with draining := true }
  | .lock b =>
    guarded (s.pc b = .ready) { s.go b .inLine with line := s.line ++ [b] }
  | .enter b =>
    guarded (s.pc b = .inLine ∧ s.line.head? = some b)
      -- only the initial build looks at the generation again
      (if b = .initial ∧ s.startupGeneration < s.generation then s.leave b b.over
        else s.go b .building)
  | .swap b =>
    guarded (s.pc b = .building)
      { s.go b .swapped with generation := s.generation + 1, swaps := s.swaps ++ [b] }
  | .succeed b => guarded ((s.pc b).Running) (s.leave b b.over)
  | .fail b =>
    guarded (s.pc b = .building)
      (if (b.delays[s.attempt b - 1]?).isSome then s.leave b .sleeping else s.leave b b.over)
  | .wake b =>
    guarded (s.pc b = .sleeping)
      (if s.shouldRetry b then
          { s.go b .ready with attempt := Function.update s.attempt b (s.attempt b + 1) }
        else s.go b b.over)

/-! ## The invariant -/

/-- The invariant. -/
structure Inv (s : Node) : Prop where
  line : ∀ b, b ∈ s.line ↔ (s.pc b).Queued
  nodup : s.line.Nodup
  holder : ∀ b, (s.pc b).Running → s.line.head? = some b
  /-- The initial build runs only while no path has swapped since it began. -/
  fresh : s.pc .initial = .building → s.generation = s.startupGeneration
  swaps : s.swaps.length = s.generation
  unstarted : s.pc .initial = .idle → Builder.initial ∉ s.swaps
  first : ∀ i : Nat, s.swaps[i]? = some .initial → i = s.startupGeneration
  startup : s.startupGeneration ≤ s.generation
  attempts : ∀ b, 1 ≤ s.attempt b ∧ s.attempt b ≤ b.delays.length + 1
  sleeping : ∀ b, s.pc b = .sleeping → s.attempt b ≤ b.delays.length

variable {s t : Node} {b : Builder} {pc : Pc} {label : Label}

private theorem forall_go {P : Builder → Pc → Prop} (h : ∀ b, P b (s.pc b)) (hb : P b pc)
    (other : Builder) : P other ((s.go b pc).pc other) := by
  simp only [Node.go]
  by_cases heq : other = b
  · subst heq
    rwa [Function.update_self]
  · rw [Function.update_of_ne heq]
    exact h other

private theorem running_unique (inv : Inv s) {b b' : Builder} (h : (s.pc b).Running)
    (h' : (s.pc b').Running) : b = b' :=
  Option.some.inj ((inv.holder b h).symm.trans (inv.holder b' h'))

private theorem inv_go (inv : Inv s) (hqueued : pc.Queued ↔ (s.pc b).Queued)
    (hrunning : pc.Running → s.line.head? = some b)
    (hfresh : b = .initial → pc = .building → s.generation = s.startupGeneration)
    (hidle : b = .initial → pc ≠ .idle)
    (hsleeping : pc = .sleeping → s.attempt b ≤ b.delays.length) : Inv (s.go b pc) := by
  refine { inv with line := ?_, holder := ?_, fresh := ?_, unstarted := ?_, sleeping := ?_ }
  · refine forall_go (P := fun b pc => b ∈ s.line ↔ pc.Queued) inv.line ?_
    exact (inv.line b).trans hqueued.symm
  · exact forall_go (P := fun b pc => pc.Running → s.line.head? = some b) inv.holder hrunning
  · exact forall_go
      (P := fun b pc => b = .initial → pc = .building → s.generation = s.startupGeneration)
      (fun b hb => hb ▸ inv.fresh) hfresh .initial rfl
  · exact forall_go (P := fun b pc => b = .initial → pc = .idle → Builder.initial ∉ s.swaps)
      (fun b hb => hb ▸ inv.unstarted) (fun hb h => absurd h (hidle hb)) .initial rfl
  · exact forall_go (P := fun b pc => pc = .sleeping → s.attempt b ≤ b.delays.length)
      inv.sleeping hsleeping

private theorem inv_leave (inv : Inv s) (hhead : s.line.head? = some b) (hqueued : ¬ pc.Queued)
    (hidle : b = .initial → pc ≠ .idle)
    (hsleeping : pc = .sleeping → s.attempt b ≤ b.delays.length) : Inv (s.leave b pc) := by
  obtain ⟨rest, hline⟩ : ∃ rest, s.line = b :: rest := List.head?_eq_some_iff.mp hhead
  have hnodup := inv.nodup
  rw [hline, List.nodup_cons] at hnodup
  have htail : s.line.tail = rest := by rw [hline, List.tail_cons]
  have hrunning : ¬ pc.Running := fun h => hqueued (.inr h)
  refine { inv with
    line := ?_, nodup := ?_, holder := ?_, fresh := ?_, unstarted := ?_, sleeping := ?_ }
  · change ∀ other, other ∈ s.line.tail ↔ ((s.go b pc).pc other).Queued
    rw [htail]
    intro other
    by_cases heq : other = b
    · subst heq
      simp only [Node.go, Function.update_self]
      exact iff_of_false hnodup.1 hqueued
    · simp only [Node.go, Function.update_of_ne heq]
      rw [← inv.line other, hline, List.mem_cons, or_iff_right heq]
  · change s.line.tail.Nodup
    rw [htail]
    exact hnodup.2
  · -- the one that ran is the one that leaves
    intro other hother
    change ((s.go b pc).pc other).Running at hother
    by_cases heq : other = b
    · subst heq
      simp only [Node.go, Function.update_self] at hother
      exact absurd hother hrunning
    · simp only [Node.go, Function.update_of_ne heq] at hother
      have hother := inv.holder other hother
      rw [hhead] at hother
      exact absurd (Option.some.inj hother).symm heq
  · exact forall_go
      (P := fun b pc => b = .initial → pc = .building → s.generation = s.startupGeneration)
      (fun b hb => hb ▸ inv.fresh) (fun _ h => absurd (.inr (.inl h)) hqueued) .initial rfl
  · exact forall_go (P := fun b pc => b = .initial → pc = .idle → Builder.initial ∉ s.swaps)
      (fun b hb => hb ▸ inv.unstarted) (fun hb h => absurd h (hidle hb)) .initial rfl
  · exact forall_go (P := fun b pc => pc = .sleeping → s.attempt b ≤ b.delays.length)
      inv.sleeping hsleeping

private theorem not_queued_over (b : Builder) : ¬ b.over.Queued := by
  cases b <;> simp [Builder.over, Pc.Queued]

private theorem over_ne_sleeping (b : Builder) : b.over ≠ .sleeping := by
  cases b <;> simp [Builder.over]

private theorem inv_over (inv : Inv s) (hhead : s.line.head? = some b) :
    Inv (s.leave b b.over) := by
  refine inv_leave inv hhead (not_queued_over b) (fun hb => ?_)
    fun h => absurd h (over_ne_sleeping b)
  rw [hb]
  decide

private theorem inv_swap (inv : Inv s) (hbuilding : s.pc b = .building) :
    Inv { s.go b .swapped with
      generation := s.generation + 1, swaps := s.swaps ++ [b] } := by
  -- the holder is the only one that runs
  have hrunning : (s.pc b).Running := .inl hbuilding
  have hgo : Inv (s.go b .swapped) := by
    refine inv_go inv ?_ (fun _ => inv.holder b hrunning) (fun _ h => by cases h)
      (fun _ h => by cases h) fun h => by cases h
    exact iff_of_true (.inr (.inr rfl)) (.inr hrunning)
  refine { hgo with fresh := ?_, swaps := ?_, unstarted := ?_, first := ?_, startup := ?_ }
  · intro hinitial
    change (s.go b .swapped).pc .initial = .building at hinitial
    by_cases heq : Builder.initial = b
    · simp only [Node.go, ← heq, Function.update_self] at hinitial
      cases hinitial
    · simp only [Node.go, Function.update_of_ne heq] at hinitial
      exact absurd (running_unique inv (.inl hinitial) hrunning) heq
  · change (s.swaps ++ [b]).length = s.generation + 1
    rw [List.length_append, inv.swaps, List.length_singleton]
  · intro hidle
    change (s.go b .swapped).pc .initial = .idle at hidle
    by_cases heq : Builder.initial = b
    · simp only [Node.go, ← heq, Function.update_self] at hidle
      cases hidle
    · simp only [Node.go, Function.update_of_ne heq] at hidle
      intro hmem
      rcases List.mem_append.mp hmem with hmem | hmem
      · exact inv.unstarted hidle hmem
      · exact heq (List.mem_singleton.mp hmem)
  · intro i hi
    change (s.swaps ++ [b])[i]? = some .initial at hi
    rcases Nat.lt_or_ge i s.swaps.length with hlt | hge
    · rw [List.getElem?_append_left hlt] at hi
      exact inv.first i hi
    · have hlt := (List.getElem?_eq_some_iff.mp hi).1
      rw [List.length_append, List.length_singleton] at hlt
      have hlast : i = s.swaps.length := by omega
      rw [hlast, List.getElem?_concat_length] at hi
      rw [Option.some.inj hi] at hbuilding
      exact hlast.trans (inv.swaps.trans (inv.fresh hbuilding))
  · exact Nat.le_succ_of_le inv.startup

private theorem inv_startInitial (inv : Inv s) (hidle : s.pc .initial = .idle) :
    Inv { s.go .initial .ready with startupGeneration := s.generation } := by
  have hgo : Inv (s.go .initial .ready) := by
    refine inv_go inv ?_ (fun h => by rcases h with h | h <;> cases h) (fun _ h => by cases h)
      (fun _ h => by cases h) fun h => by cases h
    rw [hidle]
    simp [Pc.Queued]
  refine { hgo with fresh := fun _ => rfl, first := fun i hi => ?_, startup := Nat.le_refl _ }
  exact absurd (List.mem_of_getElem? hi) (inv.unstarted hidle)

private theorem inv_tick (inv : Inv s) (hidle : s.pc .scheduled = .idle) :
    Inv { s.go .scheduled .ready with attempt := Function.update s.attempt .scheduled 1 } := by
  have hgo : Inv (s.go .scheduled .ready) := by
    refine inv_go inv ?_ (fun h => by rcases h with h | h <;> cases h) (fun _ h => by cases h)
      (fun _ h => by cases h) fun h => by cases h
    rw [hidle]
    simp [Pc.Queued]
  refine { hgo with attempts := fun b => ?_, sleeping := fun b hb => ?_ }
  · change 1 ≤ Function.update s.attempt .scheduled 1 b ∧ _
    by_cases heq : b = .scheduled
    · subst heq
      simp only [Function.update_self]
      exact ⟨Nat.le_refl 1, by decide⟩
    · simp only [Function.update_of_ne heq]
      exact inv.attempts b
  · change Function.update s.attempt .scheduled 1 b ≤ _
    by_cases heq : b = .scheduled
    · subst heq
      simp only [Function.update_self]
      decide
    · rw [Function.update_of_ne heq]
      exact hgo.sleeping b hb

private theorem inv_request {id : Nat} (inv : Inv s) (hbefore : ¬ (s.pc (.manual id)).Queued)
    (hqueued : ¬ pc.Queued) (hsleeping : pc ≠ .sleeping) : Inv (s.go (.manual id) pc) :=
  inv_go inv (iff_of_false hqueued hbefore) (fun h => absurd (.inr h) hqueued)
    (fun h => by cases h) (fun h => by cases h) fun h => absurd h hsleeping

private theorem inv_refuse {id : Nat} (inv : Inv s) (hbefore : ¬ (s.pc (.manual id)).Queued)
    (answer : Answer) : Inv (s.refuse id answer) := by
  have hgo : Inv (s.go (.manual id) .finished) :=
    inv_request inv hbefore (by simp [Pc.Queued]) (by simp)
  exact { hgo with }

private theorem inv_accept {id : Nat} (inv : Inv s) (hline : s.line = []) :
    Inv { s.go (.manual id) .building with
      line := [.manual id]
      answer := Function.update s.answer id (some .accepted) } := by
  have hnone : ∀ b, ¬ (s.pc b).Queued := fun b h => by
    rw [← inv.line b, hline] at h
    cases h
  refine { inv with
    line := ?_, nodup := List.nodup_singleton _, holder := ?_, fresh := ?_, unstarted := ?_,
    sleeping := ?_ }
  · intro other
    change other ∈ [Builder.manual id] ↔ ((s.go _ _).pc other).Queued
    by_cases heq : other = .manual id
    · subst heq
      simp [Node.go, Pc.Queued]
    · simp only [Node.go, Function.update_of_ne heq, List.mem_singleton]
      exact iff_of_false heq (hnone other)
  · refine forall_go (P := fun b pc => pc.Running → [Builder.manual id].head? = some b)
      (fun b h => absurd (.inr h) (hnone b)) (fun _ => rfl)
  · exact inv.fresh
  · exact inv.unstarted
  · exact forall_go (P := fun b pc => pc = .sleeping → s.attempt b ≤ b.delays.length)
      inv.sleeping fun h => by cases h

private theorem inv_lock (inv : Inv s) (hready : s.pc b = .ready) :
    Inv { s.go b .inLine with line := s.line ++ [b] } := by
  have hnotMem : b ∉ s.line := by
    rw [inv.line b, hready]
    simp [Pc.Queued]
  refine { inv with
    line := ?_, nodup := ?_, holder := ?_, fresh := ?_, unstarted := ?_, sleeping := ?_ }
  · intro other
    change other ∈ s.line ++ [b] ↔ ((s.go _ _).pc other).Queued
    by_cases heq : other = b
    · subst heq
      simp [Node.go, Pc.Queued]
    · simp only [Node.go, Function.update_of_ne heq]
      rw [← inv.line other, List.mem_append, List.mem_singleton, or_iff_left heq]
  · have hnodup := inv.nodup.concat hnotMem
    rwa [List.concat_eq_append] at hnodup
  · refine forall_go (P := fun other pc => pc.Running → (s.line ++ [b]).head? = some other) ?_
      fun h => by rcases h with h | h <;> cases h
    intro other hrunning
    have hhead := inv.holder other hrunning
    rw [List.head?_append, hhead, Option.some_or]
  · exact forall_go
      (P := fun b pc => b = .initial → pc = .building → s.generation = s.startupGeneration)
      (fun b hb => hb ▸ inv.fresh) (fun _ h => by cases h) .initial rfl
  · exact forall_go (P := fun b pc => b = .initial → pc = .idle → Builder.initial ∉ s.swaps)
      (fun b hb => hb ▸ inv.unstarted) (fun _ h => by cases h) .initial rfl
  · exact forall_go (P := fun b pc => pc = .sleeping → s.attempt b ≤ b.delays.length)
      inv.sleeping fun h => by cases h

private theorem inv_retry (inv : Inv s) (hsleeping : s.pc b = .sleeping) :
    Inv { s.go b .ready with attempt := Function.update s.attempt b (s.attempt b + 1) } := by
  have hle := inv.sleeping b hsleeping
  have hgo : Inv (s.go b .ready) := by
    refine inv_go inv ?_ (fun h => by rcases h with h | h <;> cases h) (fun _ h => by cases h)
      (fun _ h => by cases h) fun h => by cases h
    rw [hsleeping]
    simp [Pc.Queued]
  refine { hgo with attempts := fun other => ?_, sleeping := fun other hother => ?_ }
  · change 1 ≤ Function.update s.attempt b (s.attempt b + 1) other ∧ _
    by_cases heq : other = b
    · subst heq
      simp only [Function.update_self]
      exact ⟨Nat.le_add_left 1 _, Nat.succ_le_succ hle⟩
    · simp only [Function.update_of_ne heq]
      exact inv.attempts other
  · change Function.update s.attempt b (s.attempt b + 1) other ≤ _
    by_cases heq : other = b
    · subst heq
      change (s.go other .ready).pc other = .sleeping at hother
      simp only [Node.go, Function.update_self] at hother
      cases hother
    · rw [Function.update_of_ne heq]
      exact hgo.sleeping other hother

private theorem inv_step (inv : Inv s) (h : step s label = some t) : Inv t := by
  cases label with
  | startInitial =>
    obtain ⟨hidle, rfl⟩ := guarded_eq_some.mp h
    exact inv_startInitial inv hidle
  | tick =>
    obtain ⟨⟨hidle, -⟩, rfl⟩ := guarded_eq_some.mp h
    exact inv_tick inv hidle
  | rebuild id authorized =>
    obtain ⟨hidle, rfl⟩ := guarded_eq_some.mp h
    have hbefore : ¬ (s.pc (.manual id)).Queued := by simp [hidle, Pc.Queued]
    split
    · split
      · exact inv_refuse inv hbefore _
      · exact inv_request inv hbefore (by simp [Pc.Queued]) (by simp)
    · exact inv_refuse inv hbefore _
  | tryLock id =>
    obtain ⟨hadmitted, rfl⟩ := guarded_eq_some.mp h
    split
    · next hline => exact inv_accept inv hline
    · exact inv_refuse inv (by simp [hadmitted, Pc.Queued]) _
  | drain =>
    cases h
    exact { inv with }
  | lock b =>
    obtain ⟨hready, rfl⟩ := guarded_eq_some.mp h
    exact inv_lock inv hready
  | enter b =>
    obtain ⟨⟨hinLine, hhead⟩, rfl⟩ := guarded_eq_some.mp h
    split
    · exact inv_over inv hhead
    · next hstays =>
      refine inv_go inv ?_ (fun _ => hhead) (fun hb _ => ?_) (fun _ h => by cases h)
        fun h => by cases h
      · exact iff_of_true (.inr (.inl rfl)) (.inl hinLine)
      · have hle := inv.startup
        have hnot : ¬ s.startupGeneration < s.generation := fun hlt => hstays ⟨hb, hlt⟩
        omega
  | swap b =>
    obtain ⟨hbuilding, rfl⟩ := guarded_eq_some.mp h
    exact inv_swap inv hbuilding
  | succeed b =>
    obtain ⟨hrunning, rfl⟩ := guarded_eq_some.mp h
    exact inv_over inv (inv.holder b hrunning)
  | fail b =>
    obtain ⟨hbuilding, rfl⟩ := guarded_eq_some.mp h
    have hhead := inv.holder b (.inl hbuilding)
    split
    · next hdelay =>
      refine inv_leave inv hhead (by simp [Pc.Queued]) (fun _ h => by cases h) fun _ => ?_
      obtain ⟨delay, hget⟩ := Option.isSome_iff_exists.mp hdelay
      have hlt := (List.getElem?_eq_some_iff.mp hget).1
      omega
    · exact inv_over inv hhead
  | wake b =>
    obtain ⟨hsleeping, rfl⟩ := guarded_eq_some.mp h
    split
    · exact inv_retry inv hsleeping
    · refine inv_go inv ?_ (fun h => absurd (.inr h) (not_queued_over b)) (fun _ h => ?_)
        (fun hb => ?_) fun h => absurd h (over_ne_sleeping b)
      · rw [hsleeping]
        exact iff_of_false (not_queued_over b) (by simp [Pc.Queued])
      · exact absurd (.inr (.inl h)) (not_queued_over b)
      · rw [hb]
        decide

private theorem inv_init : Inv Node.init where
  line := fun b => by simp [Node.init, Pc.Queued]
  nodup := List.nodup_nil
  holder := fun b h => by rcases h with h | h <;> cases h
  fresh := fun h => by cases h
  swaps := rfl
  unstarted := fun _ h => by cases h
  first := fun i h => by cases h
  startup := Nat.le_refl 0
  attempts := fun b => ⟨Nat.le_refl 1, Nat.le_add_left 1 _⟩
  sleeping := fun b h => by cases h

/-! ## Every interleaving -/

private theorem rebuild_admitted {id : Nat} (hidle : s.pc (.manual id) = .idle)
    (authorized : Bool) : ∃ t, step s (.rebuild id authorized) = some t ∧
      (t.pc (.manual id) = .admitted ↔ authorized = true ∧ s.draining = false) := by
  refine ⟨_, guarded_eq_some.mpr ⟨hidle, rfl⟩, ?_⟩
  cases authorized <;> cases hdraining : s.draining <;> simp [Node.refuse, Node.go]

private theorem rebuild_accepted (inv : Inv s) {id : Nat}
    (hadmitted : s.pc (.manual id) = .admitted) : ∃ t, step s (.tryLock id) = some t ∧
      (t.pc (.manual id) = .building ∧ t.answer id = some .accepted ↔
        ∀ b, ¬ (s.pc b).Queued) := by
  refine ⟨_, guarded_eq_some.mpr ⟨hadmitted, rfl⟩, ?_⟩
  have hquiet : s.line = [] ↔ ∀ b, ¬ (s.pc b).Queued := by
    rw [List.eq_nil_iff_forall_not_mem]
    exact forall_congr' fun b => not_congr (inv.line b)
  rw [← hquiet]
  split
  · next hline => simp [Node.go, hline]
  · next hline => simp [Node.refuse, Node.go, hline]

/-- The first attempt fails, and the second waits for a rebuild that succeeds. -/
def overtaken : List Label :=
  [.startInitial, .lock .initial, .enter .initial, .fail .initial, .wake .initial, .rebuild 0 true,
    .tryLock 0, .lock .initial, .swap (.manual 0), .succeed (.manual 0), .enter .initial]

end Llamesh.Builds.Schedule
