import Llamesh.Waiters.Line
import Llamesh.Waiters.Model

/-!
# Reading the line off a state

`line` forgets the instances, the lock and the code between two checks, and keeps how every request
stands and what every waking task has in its hand. The lemmas say what the changes of a state do to
its line.
-/

namespace Llamesh.Waiters

open Transition

/-- How a request stands. -/
def Pc.standing : Pc → Standing
  | .joining _ true => .again
  | .queued .silent _ => .waiting
  | .queued .closed _ => .dropped
  | .passed false | .scanning false _ _ | .planning false => .attempting
  | .spawning false | .serving false _ => .served
  | pc => if pc.hasToken then .woken else .idle

/-- What a waking task has in its hand. -/
def WakerPc.hand : WakerPc → Option Hand
  | .popped id => some (.taken id)
  | .promoted id => some (.promoted id)
  | .refused id => some (.refused id)
  | _ => none

/-- How the requests stand. -/
def standings (requests : Table Nat Pc) (id : Nat) : Option Standing :=
  (requests.lookup id).map Pc.standing

/-- What the waking tasks have in their hands. -/
def hands (wakers : Table Nat Waker) (w : Nat) : Option Hand :=
  (wakers.lookup w).bind fun k => k.pc.hand

/-- The line of a state. -/
def line (s : State) : Line :=
  { queue := s.queue
    pending := s.pending
    next := s.next
    standing := standings s.requests
    hand := hands s.wakers
    removers := s.entryRemovers ++ s.tokenRemovers }

/-- What a step does in the line. -/
def event (s : State) : Label → Line.Event
  | .recheckPending id => if s.pending = [] then .pass id else .other
  | .enqueue id => .join id
  | _ => .other

/-! ### What the changes of a state do to its line -/

/-- A request that moves has a new standing. -/
@[simp] theorem standings_insert (t : Table Nat Pc) (id : Nat) (pc : Pc) :
    standings (t.insert id pc) = Function.update (standings t) id (some pc.standing) := by
  funext k
  rw [Function.update_apply, standings, Table.lookup_insert_eq]
  split <;> rfl

/-- A request that ends has none. -/
@[simp] theorem standings_erase (t : Table Nat Pc) (id : Nat) :
    standings (t.erase id) = Function.update (standings t) id none := by
  funext k
  rw [Function.update_apply, standings, Table.lookup_erase_eq]
  split <;> rfl

/-- A waker that moves has a new hand. -/
@[simp] theorem hands_insert (t : Table Nat Waker) (w : Nat) (k : Waker) :
    hands (t.insert w k) = Function.update (hands t) w k.pc.hand := by
  funext v
  rw [Function.update_apply, hands, Table.lookup_insert_eq]
  split <;> rfl

/-- A waker that ends has none. -/
@[simp] theorem hands_erase (t : Table Nat Waker) (w : Nat) :
    hands (t.erase w) = Function.update (hands t) w none := by
  funext v
  rw [Function.update_apply, hands, Table.lookup_erase_eq]
  split <;> rfl

/-- A request that moves without standing otherwise leaves the line as it is. -/
theorem standings_insert_same {t : Table Nat Pc} {id : Nat} {pc pc' : Pc}
    (h : t.lookup id = some pc) (hsame : pc'.standing = pc.standing) :
    standings (t.insert id pc') = standings t := by
  have hid : standings t id = some pc'.standing := by rw [standings, h, hsame]; rfl
  rw [standings_insert, ← hid, Function.update_eq_self]

/-- A waking task that moves with the same in its hand leaves the line as it is. -/
theorem hands_insert_same {t : Table Nat Waker} {w : Nat} {k : Waker}
    (h : hands t w = k.pc.hand) : hands (t.insert w k) = hands t := by
  rw [hands_insert, ← h, Function.update_eq_self]

/-- A waking task that ends with nothing in its hand leaves the line as it is. -/
theorem hands_erase_same {t : Table Nat Waker} {w : Nat} (h : hands t w = none) :
    hands (t.erase w) = hands t := by
  rw [hands_erase, ← h, Function.update_eq_self]

/-- There is nothing in the hand of a task that has not started. -/
theorem hands_of_notMem {t : Table Nat Waker} {w : Nat} (h : w ∉ t) : hands t w = none := by
  rw [hands, AList.lookup_eq_none.mpr h]
  rfl

/-- A request moves without standing otherwise. -/
theorem refines_move {s t : State} {id : Nat} {pc : Pc} (pc' : Pc)
    (hpc : s.requests.lookup id = some pc) (hsame : pc'.standing = pc.standing)
    (ht : line t = line (setRequest s id pc')) : Line.Step .other (line s) (line t) := by
  have hline : line (setRequest s id pc') = line s := by
    simp only [line, setRequest, standings_insert_same hpc hsame]
  rw [ht, hline]
  exact .stay _

/-- A request moves. -/
theorem line_setRequest (s : State) (id : Nat) (pc : Pc) :
    line (setRequest s id pc) = (line s).stand id (some pc.standing) := by
  simp only [line, setRequest, standings_insert, Line.stand]

/-- A request ends. -/
theorem line_endRequest (s : State) (id : Nat) :
    line (endRequest s id) = (line s).stand id none := by
  simp only [line, endRequest, standings_erase, Line.stand]

/-- How a request of the state stands in the line. -/
theorem standing_of_lookup {s : State} {id : Nat} {pc : Pc}
    (h : s.requests.lookup id = some pc) : (line s).standing id = some pc.standing := by
  simp [line, standings, h]

/-- A request without a token gives its attempt up, or what it got by it. -/
theorem refines_quit {s t : State} {id : Nat} {pc : Pc} (pc' : Pc)
    (hpc : s.requests.lookup id = some pc)
    (hout : pc.standing = .attempting ∨ pc.standing = .served) (hidle : pc'.standing = .idle)
    (ht : line t = line (setRequest s id pc')) : Line.Step .other (line s) (line t) := by
  rw [ht, line_setRequest, hidle]
  apply Line.Step.quit
  rw [standing_of_lookup hpc]
  simpa using hout

/-- A request without a token takes a slot, or is admitted. -/
theorem refines_serve {s t : State} {id : Nat} {pc : Pc} (pc' : Pc)
    (hpc : s.requests.lookup id = some pc) (hatt : pc.standing = .attempting)
    (hserved : pc'.standing = .served) (ht : line t = line (setRequest s id pc')) :
    Line.Step .other (line s) (line t) := by
  rw [ht, line_setRequest, hserved]
  apply Line.Step.serve
  rw [standing_of_lookup hpc, hatt]

/-- A request ends and leaves nothing to be removed. -/
theorem refines_end {s t : State} {id : Nat} {pc : Pc}
    (hpc : s.requests.lookup id = some pc) (ht : line t = line (endRequest s id)) :
    Line.Step .other (line s) (line t) := by
  rw [ht, line_endRequest]
  refine .leave ?_ fun k hk => .inr hk
  rw [standing_of_lookup hpc]
  simp

/-- A step that the line does not show. -/
theorem refines_stay {s t : State} (ht : line t = line s) :
    Line.Step .other (line s) (line t) := by
  rw [ht]
  exact .stay _

/-- A waking task that starts has nothing in its hand. -/
theorem line_startWaker {s : State} {w : Nat} {k : Waker} (hw : hands s.wakers w = none)
    (hk : k.pc.hand = none) : line { s with wakers := s.wakers.insert w k } = line s := by
  simp only [line]
  rw [hands_insert_same (hw.trans hk.symm)]

/-- What a waking task of the state has in its hand. -/
theorem hand_of_lookup {s : State} {w : Nat} {k : Waker}
    (h : s.wakers.lookup w = some k) : hands s.wakers w = k.pc.hand := by
  rw [hands, h]
  rfl

/-- A request that waits on no channel does not wait in the line. -/
theorem standing_ne_waiting {s : State} {id : Nat}
    (h : ∀ r, s.requests.lookup id ≠ some (.queued .silent r)) :
    (line s).standing id ≠ some .waiting := by
  simp only [line, standings]
  cases hpc : s.requests.lookup id with
  | none => simp
  | some pc =>
    rw [hpc] at h
    simp only [Option.map_some, ne_eq, Option.some.injEq]
    intro hst
    unfold Pc.standing at hst
    split at hst <;> simp_all
    split at hst <;> simp_all

end Llamesh.Waiters
