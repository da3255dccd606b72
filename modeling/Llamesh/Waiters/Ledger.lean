import Llamesh.Waiters.Model

/-!
# Wakes under way

The numbers that decide whether the waiters of a profile are woken for its free slots: the tasks
that will still count slots and wake for them, the wakes the running tasks still owe, the woken
requests that have not used their token, the entries in the queue and the free slots of ready
instances. `Covered` says that the free slots or the entries do not exceed the wakes.
-/

namespace Llamesh.Waiters

/-- Holds a token and has not found out yet whether there is a slot. -/
def Pc.carriesWake : Pc → Bool
  | .queued .permit _ | .trying true | .locked true | .passed true | .scanning true _ _
  | .planning true | .retiring true | .spawning true => true
  | _ => false

/-- Will count the free slots and wake for them: `wake_queue_if_admissible` is ahead. -/
def Pc.owesRecheck : Pc → Bool
  | .returning | .joining true _ | .queued _ .due | .queued _ (.counted _) => true
  | _ => false

/-- Will count the slots of the instance it has marked ready. -/
def Waker.owesCount (k : Waker) : Bool :=
  match k.pc with
  | .readied _ => true
  | _ => false

/-- Wakes until the queue is empty. -/
def Waker.wakesAll (k : Waker) : Bool :=
  match k.pc with
  | .releasing _ _ | .readied _ => false
  | _ => k.all

/-- The requests a waking task will still wake. -/
def Waker.wakes (k : Waker) : Nat :=
  match k.pc with
  | .releasing _ _ | .readied _ => 0
  | _ => k.budget

/-- The entries a waking task can still take out of the queue. -/
def Waker.reach (k : Waker) : Nat :=
  match k.pc with
  | .releasing _ _ | .readied _ => 0
  | .popped _ | .promoted _ => k.budget - 1
  | .popping | .refused _ => k.budget

section Popping

variable (budget : Nat) (all cancellable : Bool)

/-- A waker that pops has counted. -/
@[simp] theorem Waker.owesCount_popping :
    (⟨.popping, budget, all, cancellable⟩ : Waker).owesCount = false := rfl

/-- Whether a waker that pops wakes all. -/
@[simp] theorem Waker.wakesAll_popping :
    (⟨.popping, budget, all, cancellable⟩ : Waker).wakesAll = all := rfl

/-- A waker that pops wakes as many as it may. -/
@[simp] theorem Waker.wakes_popping :
    (⟨.popping, budget, all, cancellable⟩ : Waker).wakes = budget := rfl

/-- A waker that pops reaches as many as it may. -/
@[simp] theorem Waker.reach_popping :
    (⟨.popping, budget, all, cancellable⟩ : Waker).reach = budget := rfl

end Popping

/-- The numbers of a state. -/
structure Ledger where
  rechecks : Nat
  counts : Nat
  wakesAll : Nat
  wakes : Nat
  reach : Nat
  tokens : Nat
  queued : Nat
  free : Nat
  deriving DecidableEq, Repr

/-- The ledger of a state. -/
def ledger (maxConcurrent : Nat) (s : State) : Ledger :=
  { rechecks := Table.count s.requests Pc.owesRecheck
    counts := Table.count s.wakers Waker.owesCount
    wakesAll := Table.count s.wakers Waker.wakesAll
    wakes := Table.sum s.wakers fun _ k => k.wakes
    reach := Table.sum s.wakers fun _ k => k.reach
    tokens := Table.count s.requests Pc.carriesWake
    queued := s.queue.length
    free := availableReadySlots maxConcurrent s.instances }

namespace Ledger

/-- Slots or requests are counted again, the queue is emptied, every entry can be reached, or there
is a wake for every free slot; with unlimited concurrency a slot serves any number of requests. -/
def Covered (maxConcurrent : Nat) (a : Ledger) : Prop :=
  0 < a.rechecks ∨ 0 < a.counts ∨ 0 < a.wakesAll ∨ a.queued ≤ a.reach ∨
    a.free ≤ a.tokens + a.wakes ∧ (maxConcurrent = 0 → a.free = 0)

instance (maxConcurrent : Nat) (a : Ledger) : Decidable (a.Covered maxConcurrent) :=
  inferInstanceAs (Decidable (_ ∨ _ ∨ _ ∨ _ ∨ _ ∧ _))

/-- A change that gives no wake away and frees no slot without a wake for it. -/
structure Keeps (maxConcurrent : Nat) (a b : Ledger) : Prop where
  rechecks : a.rechecks ≤ b.rechecks
  counts : a.counts ≤ b.counts
  wakesAll : a.wakesAll ≤ b.wakesAll
  reach : b.queued + a.reach ≤ a.queued + b.reach
  wakes : b.free + (a.tokens + a.wakes) ≤ a.free + (b.tokens + b.wakes)
  free : maxConcurrent = 0 → a.free = 0 → b.free = 0

/-- What is covered stays covered. -/
theorem Covered.keep {maxConcurrent : Nat} {a b : Ledger} (ha : a.Covered maxConcurrent)
    (h : Keeps maxConcurrent a b) : b.Covered maxConcurrent := by
  obtain ⟨h₁, h₂, h₃, h₄, h₅, h₆⟩ := h
  rcases ha with ha | ha | ha | ha | ⟨ha, hz⟩
  · exact .inl (by omega)
  · exact .inr (.inl (by omega))
  · exact .inr (.inr (.inl (by omega)))
  · exact .inr (.inr (.inr (.inl (by omega))))
  · exact .inr (.inr (.inr (.inr ⟨by omega, fun h0 => h₆ h0 (hz h0)⟩)))

end Ledger

/-! ### Steps that can lose a wake -/

/-- The ledger after a step that gives a wake away, frees slots, or lets a request sleep without a
re-check: a request of the fairness path enqueues, a re-check or a ready instance's slots are
counted, a request leaves that holds a token or owes a re-check, a woken request takes a slot of an
instance that is not ready or spawns one, a drain is cancelled, and a waking task is dropped. -/
def afterLoss (maxConcurrent : Nat) (s : State) : Label → Option Ledger
  | .enqueue id =>
    match s.requests.lookup id with
    | some (.joining false _) =>
      some { ledger maxConcurrent s with
        queued := (s.queue.filter fun k => receiverAlive s k).length + 1 }
    | _ => none
  | .readPending id _ =>
    match s.requests.lookup id with
    | some (.queued _ (.counted available)) =>
      let before := ledger maxConcurrent s
      let budget := available - s.pending.length
      some { before with
        rechecks := before.rechecks - 1
        wakes := before.wakes + budget
        reach := before.reach + budget }
    | _ => none
  | .leave id =>
    match s.requests.lookup id with
    | some pc =>
      let before := ledger maxConcurrent s
      if pc.carriesWake || pc.owesRecheck then
        some { before with
          tokens := before.tokens - pc.carriesWake.toNat
          rechecks := before.rechecks - pc.owesRecheck.toNat }
      else none
    | none => none
  | .choose id =>
    match s.requests.lookup id with
    | some (.scanning true [] (some best)) =>
      if (s.instances.lookup best.1).any fun i =>
          acquirable maxConcurrent i && decide (i.status ≠ .ready) then
        let before := ledger maxConcurrent s
        some { before with tokens := before.tokens - 1 }
      else none
    | _ => none
  | .spawned id _ _ =>
    match s.requests.lookup id with
    | some (.spawning true) =>
      let before := ledger maxConcurrent s
      some { before with tokens := before.tokens - 1 }
    | _ => none
  | .readSpare w =>
    match s.wakers.lookup w with
    | some ⟨.readied inst, _, _, _⟩ =>
      let before := ledger maxConcurrent s
      let budget := spareSlots maxConcurrent s.instances inst + 1
      some { before with
        counts := before.counts - 1
        wakesAll := before.wakesAll + (maxConcurrent == 0).toNat
        wakes := before.wakes + budget
        reach := before.reach + budget }
    | _ => none
  | .cancelDrain inst _ =>
    let before := ledger maxConcurrent s
    some { before with
      wakes := before.wakes + 1
      reach := before.reach + 1
      free := availableReadySlots maxConcurrent
        (s.instances.modify inst fun i => { i with draining := false }) }
  | .cancelWaker w =>
    match s.wakers.lookup w with
    | some k =>
      let before := ledger maxConcurrent s
      some { before with
        counts := before.counts - k.owesCount.toNat
        wakesAll := before.wakesAll - k.wakesAll.toNat
        wakes := before.wakes - k.wakes
        reach := before.reach - k.reach }
    | none => none
  | _ => none

/-- A step that can lose a wake is taken only where what is left is covered. -/
def keepsWakes (maxConcurrent : Nat) (s : State) (l : Label) : Bool :=
  (afterLoss maxConcurrent s l).all fun a => decide (a.Covered maxConcurrent)

end Llamesh.Waiters
