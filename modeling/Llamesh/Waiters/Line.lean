import Mathlib.Logic.Function.Basic

/-!
# The line of one profile

What the queue of a profile is for, without the code that runs it: requests stand in a line, waking
tasks take the first entry out of it, make its token pending and then send the permit. A request
without a token passes when it finds no pending token; that the line is empty too is not part of
the rule, since the code reads the queue before the tokens and not with them.

`Sound` says where the entry and the token of a request are.
-/

namespace Llamesh.Waiters

/-- How a request stands: `attempting` holds no token and passed the last check, `served` took a
slot or is admitted, `again` was woken, gave its token back and has not joined the line again, and
the entry of a `dropped` one is lost. -/
inductive Standing where
  | idle
  | attempting
  | served
  | again
  | waiting
  | dropped
  | woken
  deriving DecidableEq, Repr

/-- The entry a waking task has in its hand: taken out of the line, its token pending, or refused by
its request. -/
inductive Hand where
  | taken (id : Nat)
  | promoted (id : Nat)
  | refused (id : Nat)
  deriving DecidableEq, Repr

/-- The line, the pending tokens, how every request stands, what every waking task has in its hand,
and the requests whose entry or token is still to be removed. -/
structure Line where
  queue : List Nat
  pending : List Nat
  next : Nat
  standing : Nat → Option Standing
  hand : Nat → Option Hand
  removers : List Nat

namespace Line

/-- The steps whose condition matters to fairness. -/
inductive Event where
  | pass (id : Nat)
  | join (id : Nat)
  | other
  deriving DecidableEq, Repr

/-- A request stands otherwise, or is gone. -/
def stand (a : Line) (id : Nat) (st : Option Standing) : Line :=
  { a with standing := Function.update a.standing id st }

/-- A waking task has something else in its hand. -/
def handle (a : Line) (w : Nat) (h : Option Hand) : Line :=
  { a with hand := Function.update a.hand w h }

/-- A waking task holds the entry of a request. -/
def Holds (a : Line) (w id : Nat) : Prop :=
  a.hand w = some (.taken id) ∨ a.hand w = some (.promoted id)

/-- What can happen in the line. -/
inductive Step : Event → Line → Line → Prop where
  | stay (a : Line) : Step .other a a
  | arrive (a : Line) : Step .other a { a.stand a.next (some .idle) with next := a.next + 1 }
  | pass {a : Line} {id : Nat} (hidle : a.standing id = some .idle) (hpending : a.pending = []) :
      Step (.pass id) a (a.stand id (some .attempting))
  | serve {a : Line} {id : Nat} (hatt : a.standing id = some .attempting) :
      Step .other a (a.stand id (some .served))
  | quit {a : Line} {id : Nat}
      (hout : a.standing id = some .attempting ∨ a.standing id = some .served) :
      Step .other a (a.stand id (some .idle))
  | join {a : Line} {id : Nat} {keep : Nat → Bool}
      (hfree : a.standing id = some .idle ∨ a.standing id = some .again)
      (hkeep : ∀ k, a.standing k = some .waiting → keep k = true) :
      Step (.join id) a { a.stand id (some .waiting) with queue := a.queue.filter keep ++ [id] }
  | leave {a : Line} {id : Nat} {removers : List Nat} (hid : a.standing id ≠ none)
      (hsub : ∀ k ∈ removers, k = id ∨ k ∈ a.removers) :
      Step .other a { a.stand id none with removers := removers }
  | giveBack {a : Line} {id : Nat} {st : Option Standing} (hwoken : a.standing id = some .woken)
      (hst : st = none ∨ st = some .served ∨ st = some .again) :
      Step .other a { a.stand id st with pending := a.pending.filter fun k => decide (k ≠ id) }
  | removeEntry {a : Line} {id : Nat} {removers : List Nat} (hid : id ∈ a.removers)
      (hsub : ∀ k ∈ removers, k ∈ a.removers) :
      Step .other a
        { a with queue := a.queue.filter fun k => decide (k ≠ id), removers := removers }
  | removeToken {a : Line} {id : Nat} {removers : List Nat} (hid : id ∈ a.removers)
      (hsub : ∀ k ∈ removers, k ∈ a.removers) :
      Step .other a
        { a with pending := a.pending.filter fun k => decide (k ≠ id), removers := removers }
  | take {a : Line} {w id : Nat} {rest : List Nat} (hhand : a.hand w = none)
      (hqueue : a.queue = id :: rest) :
      Step .other a { a.handle w (some (.taken id)) with queue := rest }
  | promote {a : Line} {w id : Nat} {pending : List Nat} (hhand : a.hand w = some (.taken id))
      (hpending : ∀ k, k ∈ pending ↔ k ∈ a.pending ∨ k = id) :
      Step .other a { a.handle w (some (.promoted id)) with pending := pending }
  | deliver {a : Line} {w id : Nat} (hhand : a.hand w = some (.promoted id))
      (hwait : a.standing id = some .waiting) :
      Step .other a ((a.stand id (some .woken)).handle w none)
  | refuse {a : Line} {w id : Nat} (hhand : a.hand w = some (.promoted id))
      (hwait : a.standing id ≠ some .waiting) : Step .other a (a.handle w (some (.refused id)))
  | discard {a : Line} {w id : Nat} (hhand : a.hand w = some (.refused id)) :
      Step .other a
        { a.handle w none with pending := a.pending.filter fun k => decide (k ≠ id) }
  | lose {a : Line} {w id : Nat} (hhand : a.hand w = some (.taken id))
      (hwait : a.standing id = some .waiting) :
      Step .other a ((a.stand id (some .dropped)).handle w none)
  | drop {a : Line} {w id : Nat} (hhand : a.hand w = some (.taken id))
      (hwait : a.standing id ≠ some .waiting) : Step .other a (a.handle w none)
  | forget {a : Line} {w id : Nat} {removers : List Nat} (hhand : a.hand w = some (.refused id))
      (hsub : ∀ k ∈ removers, k = id ∨ k ∈ a.removers) :
      Step .other a { a.handle w none with removers := removers }

/-- The entry of a request is in the line or in the hand of a waking task. -/
def Entry (a : Line) (id : Nat) : Prop := id ∈ a.queue ∨ ∃ w, a.Holds w id

/-- Something of a request that left is still to be removed. -/
def Stale (a : Line) (id : Nat) : Prop := id ∈ a.removers ∨ ∃ w, a.hand w = some (.refused id)

/-- Every entry is in one place, and belongs to a request that waits or is gone; a waiting request
has an entry, and the token of a woken one is pending. -/
structure Sound (a : Line) : Prop where
  nodup : a.queue.Nodup
  held_notMem : ∀ w id, a.Holds w id → id ∉ a.queue
  held_unique : ∀ v w id, a.Holds v id → a.Holds w id → v = w
  entry_live : ∀ id, a.Entry id → a.standing id = some .waiting ∨ a.standing id = none
  stale_gone : ∀ id, a.Stale id → a.standing id = none
  waiting_entry : ∀ id, a.standing id = some .waiting → a.Entry id
  promoted_pending : ∀ w id, a.hand w = some (.promoted id) → a.standing id = some .waiting →
    id ∈ a.pending
  woken_pending : ∀ id, a.standing id = some .woken → id ∈ a.pending
  lt_next : ∀ id, a.standing id ≠ none ∨ a.Entry id ∨ a.Stale id → id < a.next

/-! ### What the changes do -/

/-- The standing of one request is set. -/
@[simp] theorem stand_standing (a : Line) (id k : Nat) (st : Option Standing) :
    (a.stand id st).standing k = if k = id then st else a.standing k := by
  simp [stand, Function.update_apply]

/-- The hand of one waker is set. -/
@[simp] theorem handle_hand (a : Line) (w v : Nat) (h : Option Hand) :
    (a.handle w h).hand v = if v = w then h else a.hand v := by
  simp [handle, Function.update_apply]

/-- A request that waits nowhere has no entry. -/
theorem Sound.not_entry {a : Line} (ha : a.Sound) {id : Nat} {st : Standing}
    (hst : a.standing id = some st) (hne : st ≠ .waiting) : ¬a.Entry id := by
  intro he
  rcases ha.entry_live id he with h | h <;> simp_all

/-- Nothing of a request that is there is still to be removed. -/
theorem Sound.not_stale {a : Line} (ha : a.Sound) {id : Nat} {st : Standing}
    (hst : a.standing id = some st) : ¬a.Stale id := by
  intro hs
  have h := ha.stale_gone id hs
  simp_all

end Line

end Llamesh.Waiters
