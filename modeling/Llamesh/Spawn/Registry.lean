import Llamesh.Library.Run
import Llamesh.Spawn.Reservations

/-!
# Reservations and their owners

`MemoryReservation` and `SpawnReservation` (`src/node_state/spawn_reservations.rs:186–290`)
over the registry: a guard and any number of `Arc` clones own a reservation, each owner may call
`set_pid`, `mark_ready` and `finish`, the guard also `handoff`, and the last owner finishes the
reservation as it is dropped. One label is the code of a call between two places where another
thread can run: a call takes the registry lock and the callback lock one after the other.

The `finished` flag lets one `finish` past the swap and `handoff` has the guard to itself, so a
reservation has at most one of each under way. Identifiers are ULIDs, which do not repeat. The
`debug_assert` of `mark_handed_off` is absent, as in the release profile.
-/

namespace Llamesh.Spawn.Registry

open Transition

/-- How far the finish of a reservation is. The flag `finished` is set at every stage but the
first; `src/node_state/spawn_reservations.rs:230–240`. -/
inductive FinishStage where
  | notBegun
  | releasing
  | taking
  | running
  | returned
  deriving DecidableEq, Repr

/-- How far the handoff of a reservation is. The flag `handed_off` is set at every stage but the
first; `src/node_state/spawn_reservations.rs:277–284`. -/
inductive HandoffStage where
  | notBegun
  | clearing
  | marking
  | returned
  deriving DecidableEq, Repr

/-- A call that has read `finished` as unset and has its update of the entry to make. -/
inductive Update where
  | pid (pid : Nat)
  | ready
  deriving DecidableEq, Repr

/-- A reservation: whether the guard exists, the number of other owners, the calls under way, and
the callback. `notifies` says that it was reserved with one, `onAbandon` that it is still there. -/
structure Reservation where
  notifies : Bool
  onAbandon : Bool
  guard : Bool := true
  clones : Nat := 0
  finish : FinishStage := .notBegun
  handoff : HandoffStage := .notBegun
  updates : List Update := []
  deriving DecidableEq, Repr

/-- The registry, every reservation made so far, and the callbacks in the order they ran. -/
structure State where
  registry : SpawnReservations
  reservations : Table Nat Reservation
  ran : List Nat

/-- Startup. -/
def State.init : State := ⟨.empty, ∅, []⟩

/-- The pieces of the calls. `finishPiece`, `handoffPiece` and `updatePiece` run the next piece of
a call under way. -/
inductive Label where
  | reserve (id : Nat) (key : String) (estimate : Memory Nat) (notifies : Bool)
  | clone (id : Nat)
  | setPid (id pid : Nat)
  | markReady (id : Nat)
  | finish (id : Nat)
  | handoff (id : Nat)
  | dropClone (id : Nat)
  | dropGuard (id : Nat)
  | updatePiece (id : Nat) (update : Update)
  | finishPiece (id : Nat)
  | handoffPiece (id : Nat)
  deriving DecidableEq, Repr

namespace Reservation

/-- Someone can call the reservation. -/
def owned (r : Reservation) : Bool := r.guard || decide (0 < r.clones)

/-- No call borrows the reservation. -/
def idle (r : Reservation) : Bool :=
  r.updates.isEmpty && (r.finish == .notBegun || r.finish == .returned) &&
    (r.handoff == .notBegun || r.handoff == .returned)

/-- The guard is not borrowed by a handoff. -/
def guardFree (r : Reservation) : Bool :=
  r.guard && (r.handoff == .notBegun || r.handoff == .returned)

/-- `finished.swap(true)`; only the first call goes on. -/
def beginFinish (r : Reservation) : Reservation :=
  if r.finish = .notBegun then { r with finish := .releasing } else r

/-- `if self.handed_off { return } self.handed_off = true`. -/
def beginHandoff (r : Reservation) : Reservation :=
  if r.handoff = .notBegun then { r with handoff := .clearing } else r

/-- `if !self.finished.load()`, before the update itself. -/
def beginUpdate (r : Reservation) (update : Update) : Reservation :=
  if r.finish = .notBegun then { r with updates := update :: r.updates } else r

/-- The drop of the `MemoryReservation` with its last owner. -/
def dropped (r : Reservation) : Reservation := if r.owned then r else r.beginFinish

end Reservation

/-- Replace a reservation. -/
def setReservation (s : State) (id : Nat) (r : Reservation) : State :=
  { s with reservations := s.reservations.insert id r }

/-- One piece of `finish`: the entry, then the callback, then its run.
`src/node_state/spawn_reservations.rs:231–239`. -/
def finishPiece (s : State) (id : Nat) (r : Reservation) : Option State :=
  match r.finish with
  | .releasing =>
    some { setReservation s id { r with finish := .taking } with
      registry := s.registry.releaseMemory id }
  | .taking =>
    some (setReservation s id
      { r with onAbandon := false, finish := if r.onAbandon then .running else .returned })
  | .running =>
    some { setReservation s id { r with finish := .returned } with ran := id :: s.ran }
  | .notBegun | .returned => none

/-- One piece of `handoff`: the callback, then the entry.
`src/node_state/spawn_reservations.rs:282–283`. -/
def handoffPiece (s : State) (id : Nat) (r : Reservation) : Option State :=
  match r.handoff with
  | .clearing =>
    some (setReservation s id { r with onAbandon := false, handoff := .marking })
  | .marking =>
    some { setReservation s id { r with handoff := .returned } with
      registry := s.registry.markHandedOff id }
  | .notBegun | .returned => none

/-- The update of a `set_pid` or a `mark_ready`. -/
def applyUpdate (registry : SpawnReservations) (id : Nat) : Update → SpawnReservations
  | .pid pid => registry.updatePid id pid
  | .ready => registry.markReady id

/-- The steps of a call on a reservation that exists. -/
def callStep (s : State) (id : Nat) (r : Reservation) : Label → Option State
  | .clone _ => guarded (r.owned = true) (setReservation s id { r with clones := r.clones + 1 })
  | .setPid _ pid => guarded (r.owned = true) (setReservation s id (r.beginUpdate (.pid pid)))
  | .markReady _ => guarded (r.owned = true) (setReservation s id (r.beginUpdate .ready))
  | .finish _ => guarded (r.owned = true) (setReservation s id r.beginFinish)
  | .handoff _ => guarded (r.guardFree = true) (setReservation s id r.beginHandoff)
  -- The last owner cannot go while a call borrows the reservation.
  | .dropClone _ =>
    let rest := { r with clones := r.clones - 1 }
    guarded (0 < r.clones ∧ (rest.owned = false → r.idle = true))
      (setReservation s id rest.dropped)
  | .dropGuard _ =>
    let rest := { r with guard := false }
    guarded (r.guardFree = true ∧ (rest.owned = false → r.idle = true))
      (setReservation s id rest.dropped)
  | .updatePiece _ update =>
    guarded (update ∈ r.updates)
      { setReservation s id { r with updates := r.updates.erase update } with
        registry := applyUpdate s.registry id update }
  | .finishPiece _ => finishPiece s id r
  | .handoffPiece _ => handoffPiece s id r
  | .reserve _ _ _ _ => none

/-- The reservation a label is about. -/
def Label.id : Label → Nat
  | .reserve id _ _ _ | .clone id | .setPid id _ | .markReady id | .finish id | .handoff id
  | .dropClone id | .dropGuard id | .updatePiece id _ | .finishPiece id | .handoffPiece id => id

/-- One piece of one call. -/
def step (s : State) (l : Label) : Option State :=
  match l with
  | .reserve id key estimate notifies =>
    guarded (id ∉ s.reservations)
      { setReservation s id { notifies, onAbandon := notifies } with
        registry := s.registry.reserve id key estimate }
  | _ =>
    match s.reservations.lookup l.id with
    | some r => callStep s l.id r l
    | none => none

/-! ### What the registry and the callbacks are for -/

/-- A reservation has finished once its entry was released. -/
def Reservation.hasFinished (r : Reservation) : Bool :=
  decide (r.finish ≠ .notBegun ∧ r.finish ≠ .releasing)

/-- A reservation has been handed off once its entry was marked. -/
def Reservation.hasHandedOff (r : Reservation) : Bool := decide (r.handoff = .returned)

/-- How often the callback of a reservation has run. -/
def State.runs (s : State) (id : Nat) : Nat := s.ran.count id

/-- An entry is there while its reservation has not finished, and it is pending while the
reservation has not been handed off. -/
structure TracksEntries (s : State) : Prop where
  reserved : ∀ id, id ∈ s.registry.entries → id ∈ s.reservations
  live : ∀ id r, s.reservations.lookup id = some r →
    (id ∈ s.registry.entries ↔ r.hasFinished = false)
  pending : ∀ id r e, s.reservations.lookup id = some r → s.registry.entries.lookup id = some e →
    (e.pending = true ↔ r.hasHandedOff = false)

/-- The callbacks that have run in `t`, after the earlier state `s`: none twice, none before the
entry is gone, none without a finish, one where the finish had returned before a handoff began, and
none where the handoff had returned before a finish began. -/
structure NotifiesOnce (s t : State) : Prop where
  atMostOnce : ∀ id, t.runs id ≤ 1
  afterRelease : ∀ id, 0 < t.runs id → id ∉ t.registry.entries
  finished : ∀ id, 0 < t.runs id →
    ∃ r, t.reservations.lookup id = some r ∧ r.notifies = true ∧ r.finish = .returned
  abandoned : ∀ id r, s.reservations.lookup id = some r → r.notifies = true →
    r.finish = .returned → r.handoff = .notBegun → t.runs id = 1
  handedOff : ∀ id r, s.reservations.lookup id = some r → r.handoff = .returned →
    r.finish = .notBegun → t.runs id = 0

/-- The two registries hold the same entries. -/
def SameEntries (r r' : SpawnReservations) : Prop :=
  ∀ id, r.entries.lookup id = r'.entries.lookup id

/-- The steps of a run that change the entries. -/
def mutations : State → List Label → Nat
  | _, [] => 0
  | s, l :: ls =>
    match step s l with
    | some t => (if t.registry.entries = s.registry.entries then 0 else 1) + mutations t ls
    | none => 0

/-! ### What a step does to one reservation -/

/-- A reservation, its entry, and the runs of its callback. -/
structure View where
  reservation : Reservation
  entry : Option MemoryCommitment
  runs : Nat

/-- What stays the same when only the owners and the updates under way change. -/
structure Shared (r r' : Reservation) : Prop where
  notifies : r'.notifies = r.notifies
  onAbandon : r'.onAbandon = r.onAbandon
  handoff : r'.handoff = r.handoff

/-- The pieces of the calls, for the reservation they are about. -/
inductive Moves : View → View → Prop
  | share {r r' : Reservation} (e : Option MemoryCommitment) (n : Nat) (hsame : Shared r r')
      (hfinish : r'.finish = r.finish) : Moves ⟨r, e, n⟩ ⟨r', e, n⟩
  | update {r r' : Reservation} (e : Option MemoryCommitment) (n : Nat)
      (f : MemoryCommitment → MemoryCommitment) (hsame : Shared r r')
      (hfinish : r'.finish = r.finish) (hf : ∀ c, (f c).pending = c.pending) :
      Moves ⟨r, e, n⟩ ⟨r', e.map f, n⟩
  | beginFinish {r r' : Reservation} (e : Option MemoryCommitment) (n : Nat) (hsame : Shared r r')
      (hfinish : r.finish = .notBegun) (hfinish' : r'.finish = .releasing) :
      Moves ⟨r, e, n⟩ ⟨r', e, n⟩
  | release {r : Reservation} (e : Option MemoryCommitment) (n : Nat)
      (hfinish : r.finish = .releasing) : Moves ⟨r, e, n⟩ ⟨{ r with finish := .taking }, none, n⟩
  | take {r : Reservation} (e : Option MemoryCommitment) (n : Nat) (hfinish : r.finish = .taking) :
      Moves ⟨r, e, n⟩
        ⟨{ r with onAbandon := false, finish := if r.onAbandon then .running else .returned }, e, n⟩
  | run {r : Reservation} (e : Option MemoryCommitment) (n : Nat) (hfinish : r.finish = .running) :
      Moves ⟨r, e, n⟩ ⟨{ r with finish := .returned }, e, n + 1⟩
  | beginHandoff {r : Reservation} (e : Option MemoryCommitment) (n : Nat)
      (hhandoff : r.handoff = .notBegun) :
      Moves ⟨r, e, n⟩ ⟨{ r with handoff := .clearing }, e, n⟩
  | clear {r : Reservation} (e : Option MemoryCommitment) (n : Nat)
      (hhandoff : r.handoff = .clearing) :
      Moves ⟨r, e, n⟩ ⟨{ r with onAbandon := false, handoff := .marking }, e, n⟩
  | mark {r : Reservation} (e : Option MemoryCommitment) (n : Nat)
      (hhandoff : r.handoff = .marking) :
      Moves ⟨r, e, n⟩
        ⟨{ r with handoff := .returned }, e.map fun c => { c with pending := false }, n⟩

variable {s t : State} {l : Label} {id : Nat} {r r' : Reservation}

/-- What there is of a reservation in a state. -/
def State.view (s : State) (id : Nat) : Option View :=
  (s.reservations.lookup id).map fun r => ⟨r, s.registry.entries.lookup id, s.runs id⟩

private theorem view_eq_some {v : View} :
    s.view id = some v ↔ s.reservations.lookup id = some v.reservation ∧
      s.registry.entries.lookup id = v.entry ∧ s.runs id = v.runs := by
  unfold State.view
  rw [Option.map_eq_some_iff]
  constructor
  · rintro ⟨r, hr, rfl⟩
    exact ⟨hr, rfl, rfl⟩
  · rintro ⟨hr, he, hn⟩
    refine ⟨v.reservation, hr, ?_⟩
    rw [he, hn]

/-- A reservation that was not made is not seen in the registry. -/
def Unseen (s : State) (id : Nat) : Prop :=
  id ∉ s.reservations ∧ s.registry.entries.lookup id = none ∧ s.runs id = 0

/-- The change of a step to one identifier: none, a new reservation, or a piece of a call. -/
inductive Steps (s t : State) (id : Nat) : Prop
  | same (hview : t.view id = s.view id) (hunseen : Unseen s id → Unseen t id)
  | reserve (notifies : Bool) (c : MemoryCommitment) (hnew : id ∉ s.reservations)
      (hpending : c.pending = true)
      (hview : t.view id = some ⟨{ notifies, onAbandon := notifies }, some c, s.runs id⟩)
  | moves (v w : View) (hv : s.view id = some v) (hw : t.view id = some w) (hmoves : Moves v w)

private theorem steps_set {registry : SpawnReservations} {ran : List Nat} {n : Nat}
    {e : Option MemoryCommitment} (hr : s.reservations.lookup id = some r)
    (hentries : ∀ k, k ≠ id → registry.entries.lookup k = s.registry.entries.lookup k)
    (hruns : ∀ k, k ≠ id → ran.count k = s.runs k)
    (he : registry.entries.lookup id = e) (hn : ran.count id = n)
    (hmoves : Moves ⟨r, s.registry.entries.lookup id, s.runs id⟩ ⟨r', e, n⟩) (k : Nat) :
    Steps s ⟨registry, s.reservations.insert id r', ran⟩ k := by
  by_cases hk : k = id
  · subst hk
    refine .moves _ ⟨r', e, n⟩ (view_eq_some.mpr ⟨hr, rfl, rfl⟩) ?_ hmoves
    exact view_eq_some.mpr ⟨AList.lookup_insert s.reservations, he, hn⟩
  · refine .same ?_ ?_
    · show Option.map (fun r => View.mk r (registry.entries.lookup k) (ran.count k))
        ((s.reservations.insert id r').lookup k) = _
      rw [AList.lookup_insert_ne hk, hentries k hk, hruns k hk]
      rfl
    · rintro ⟨hnew, hentry, hrun⟩
      refine ⟨?_, (hentries k hk).trans hentry, (hruns k hk).trans hrun⟩
      show k ∉ s.reservations.insert id r'
      rw [AList.mem_insert]
      exact not_or.mpr ⟨hk, hnew⟩

private theorem steps_setReservation (hr : s.reservations.lookup id = some r)
    (hmoves : Moves ⟨r, s.registry.entries.lookup id, s.runs id⟩
      ⟨r', s.registry.entries.lookup id, s.runs id⟩) (k : Nat) :
    Steps s (setReservation s id r') k :=
  steps_set hr (fun _ _ => rfl) (fun _ _ => rfl) rfl rfl hmoves k

private theorem moves_beginFinish (e : Option MemoryCommitment) (n : Nat) (hsame : Shared r r')
    (hfinish : r'.finish = r.finish) : Moves ⟨r, e, n⟩ ⟨r'.beginFinish, e, n⟩ := by
  unfold Reservation.beginFinish
  split
  · next hf =>
    exact .beginFinish e n ⟨hsame.notifies, hsame.onAbandon, hsame.handoff⟩ (hfinish ▸ hf) rfl
  · exact .share e n hsame hfinish

private theorem moves_dropped (e : Option MemoryCommitment) (n : Nat) (hsame : Shared r r')
    (hfinish : r'.finish = r.finish) : Moves ⟨r, e, n⟩ ⟨r'.dropped, e, n⟩ := by
  unfold Reservation.dropped
  split
  · exact .share e n hsame hfinish
  · exact moves_beginFinish e n hsame hfinish

private theorem moves_beginHandoff (r : Reservation) (e : Option MemoryCommitment) (n : Nat) :
    Moves ⟨r, e, n⟩ ⟨r.beginHandoff, e, n⟩ := by
  unfold Reservation.beginHandoff
  split
  · next hh => exact .beginHandoff e n hh
  · exact .share e n ⟨rfl, rfl, rfl⟩ rfl

private theorem moves_beginUpdate (r : Reservation) (update : Update)
    (e : Option MemoryCommitment) (n : Nat) : Moves ⟨r, e, n⟩ ⟨r.beginUpdate update, e, n⟩ := by
  unfold Reservation.beginUpdate
  split
  · exact .share e n ⟨rfl, rfl, rfl⟩ rfl
  · exact .share e n ⟨rfl, rfl, rfl⟩ rfl

private theorem lookup_applyUpdate (registry : SpawnReservations) (id : Nat) (update : Update) :
    ∃ f : MemoryCommitment → MemoryCommitment, (∀ c, (f c).pending = c.pending) ∧
      ∀ k, (applyUpdate registry id update).entries.lookup k =
        if k = id then (registry.entries.lookup k).map f else registry.entries.lookup k := by
  cases update with
  | pid pid =>
    exact ⟨fun c => { c with pid := some pid }, fun _ => rfl, registry.lookup_updatePid id pid⟩
  | ready => exact ⟨fun c => { c with ready := true }, fun _ => rfl, registry.lookup_markReady id⟩

private theorem steps_finishPiece (hr : s.reservations.lookup id = some r)
    (hs : finishPiece s id r = some t) (k : Nat) : Steps s t k := by
  unfold finishPiece at hs
  split at hs
  · next hf =>
    cases hs
    refine steps_set hr ?_ (fun _ _ => rfl) ?_ rfl (.release _ _ hf) k
    · intro k hk
      rw [SpawnReservations.lookup_releaseMemory, if_neg hk]
    · rw [SpawnReservations.lookup_releaseMemory, if_pos rfl]
  · next hf =>
    cases hs
    exact steps_setReservation hr (.take _ _ hf) k
  · next hf =>
    cases hs
    refine steps_set hr (fun _ _ => rfl) ?_ rfl ?_ (.run _ _ hf) k
    · intro k hk
      exact List.count_cons_of_ne (Ne.symm hk)
    · exact List.count_cons_self
  · cases hs
  · cases hs

private theorem steps_handoffPiece (hr : s.reservations.lookup id = some r)
    (hs : handoffPiece s id r = some t) (k : Nat) : Steps s t k := by
  unfold handoffPiece at hs
  split at hs
  · next hh =>
    cases hs
    exact steps_setReservation hr (.clear _ _ hh) k
  · next hh =>
    cases hs
    refine steps_set hr ?_ (fun _ _ => rfl) ?_ rfl (.mark _ _ hh) k
    · intro k hk
      rw [SpawnReservations.lookup_markHandedOff, if_neg hk]
    · rw [SpawnReservations.lookup_markHandedOff, if_pos rfl]
  · cases hs
  · cases hs

private theorem steps_callStep (hr : s.reservations.lookup id = some r)
    (hs : callStep s id r l = some t) (k : Nat) : Steps s t k := by
  cases l <;> simp only [callStep, guarded_eq_some, reduceCtorEq] at hs
  case clone =>
    obtain ⟨-, rfl⟩ := hs
    refine steps_setReservation hr (.share _ _ ?_ ?_) k
    · exact ⟨rfl, rfl, rfl⟩
    · rfl
  case setPid _ pid =>
    obtain ⟨-, rfl⟩ := hs
    exact steps_setReservation hr (moves_beginUpdate r (.pid pid) _ _) k
  case markReady =>
    obtain ⟨-, rfl⟩ := hs
    exact steps_setReservation hr (moves_beginUpdate r .ready _ _) k
  case finish =>
    obtain ⟨-, rfl⟩ := hs
    exact steps_setReservation hr (moves_beginFinish _ _ ⟨rfl, rfl, rfl⟩ rfl) k
  case handoff =>
    obtain ⟨-, rfl⟩ := hs
    exact steps_setReservation hr (moves_beginHandoff r _ _) k
  case dropClone =>
    obtain ⟨-, rfl⟩ := hs
    refine steps_setReservation hr (moves_dropped _ _ ?_ ?_) k
    · exact ⟨rfl, rfl, rfl⟩
    · rfl
  case dropGuard =>
    obtain ⟨-, rfl⟩ := hs
    refine steps_setReservation hr (moves_dropped _ _ ?_ ?_) k
    · exact ⟨rfl, rfl, rfl⟩
    · rfl
  case updatePiece _ update =>
    obtain ⟨-, rfl⟩ := hs
    obtain ⟨f, hf, hlookup⟩ := lookup_applyUpdate s.registry id update
    refine steps_set hr ?_ (fun _ _ => rfl) ?_ rfl (.update _ _ f ?_ ?_ hf) k
    · intro k hk
      rw [hlookup, if_neg hk]
    · rw [hlookup, if_pos rfl]
    · exact ⟨rfl, rfl, rfl⟩
    · rfl
  case finishPiece => exact steps_finishPiece hr hs k
  case handoffPiece => exact steps_handoffPiece hr hs k

private theorem ran_callStep (hs : callStep s id r l = some t) : s.ran.Sublist t.ran := by
  cases l <;> simp only [callStep, guarded_eq_some, reduceCtorEq] at hs
  case finishPiece =>
    unfold finishPiece at hs
    split at hs <;> cases hs
    · exact List.Sublist.refl _
    · exact List.Sublist.refl _
    · exact List.sublist_cons_self id s.ran
  case handoffPiece =>
    unfold handoffPiece at hs
    split at hs <;> cases hs
    · exact List.Sublist.refl _
    · exact List.Sublist.refl _
  all_goals
    obtain ⟨-, rfl⟩ := hs
    exact List.Sublist.refl _

/-- A step makes a reservation, or is a piece of a call on one. -/
theorem step_cases (hs : step s l = some t) :
    (∃ id key estimate notifies, l = .reserve id key estimate notifies ∧ id ∉ s.reservations ∧
      t = { setReservation s id { notifies, onAbandon := notifies } with
        registry := s.registry.reserve id key estimate }) ∨
    ∃ r, s.reservations.lookup l.id = some r ∧ callStep s l.id r l = some t := by
  unfold step at hs
  split at hs
  · next id key estimate notifies =>
    rw [guarded_eq_some] at hs
    exact .inl ⟨id, key, estimate, notifies, rfl, hs.1, hs.2.symm⟩
  · split at hs
    · next r hr => exact .inr ⟨r, hr, hs⟩
    · cases hs

/-- What a step does to each identifier. -/
theorem step_steps (hs : step s l = some t) (k : Nat) : Steps s t k := by
  rcases step_cases hs with ⟨id, key, estimate, notifies, rfl, hnew, rfl⟩ | ⟨r, hr, hs⟩
  · by_cases hk : k = id
    · subst hk
      refine .reserve notifies ⟨key, true, none, estimate, false⟩ hnew rfl ?_
      refine view_eq_some.mpr ⟨AList.lookup_insert s.reservations, ?_, rfl⟩
      exact (s.registry.lookup_reserve k k key estimate).trans (if_pos rfl)
    · have hentry : (s.registry.reserve id key estimate).entries.lookup k =
          s.registry.entries.lookup k :=
        (s.registry.lookup_reserve id k key estimate).trans (if_neg hk)
      refine .same ?_ ?_
      · show Option.map (fun r => View.mk r
          ((s.registry.reserve id key estimate).entries.lookup k) (s.runs k))
          ((s.reservations.insert id _).lookup k) = _
        rw [AList.lookup_insert_ne hk, hentry]
        rfl
      · rintro ⟨hnone, he, hn⟩
        refine ⟨?_, hentry.trans he, hn⟩
        show k ∉ s.reservations.insert id _
        rw [AList.mem_insert]
        exact not_or.mpr ⟨hk, hnone⟩
  · exact steps_callStep hr hs k

/-! ### Entries and callbacks over a run -/

/-- How a reservation, its entry and the runs of its callback fit together. -/
structure Coherent (v : View) : Prop where
  entry : v.entry.isSome = true ↔
    v.reservation.finish = .notBegun ∨ v.reservation.finish = .releasing
  pending : ∀ c, v.entry = some c → (c.pending = true ↔ v.reservation.handoff ≠ .returned)
  kept : v.reservation.onAbandon = true → v.reservation.notifies = true ∧
    v.reservation.finish ≠ .running ∧ v.reservation.finish ≠ .returned ∧
    (v.reservation.handoff = .notBegun ∨ v.reservation.handoff = .clearing)
  running : v.reservation.finish = .running → v.reservation.notifies = true ∧ v.runs = 0
  ran : 0 < v.runs → v.runs = 1 ∧ v.reservation.notifies = true ∧ v.reservation.finish = .returned
  accounted : v.reservation.notifies = true → v.reservation.onAbandon = true ∨
    v.reservation.handoff = .marking ∨ v.reservation.handoff = .returned ∨
    v.reservation.finish = .running ∨ v.runs = 1

private theorem coherent_reserve (notifies : Bool) {c : MemoryCommitment} (hc : c.pending = true) :
    Coherent ⟨{ notifies, onAbandon := notifies }, some c, 0⟩ := by
  constructor <;> simp_all

private theorem Coherent.runs_eq_zero {v : View} (h : Coherent v)
    (hfinish : v.reservation.finish ≠ .returned) : v.runs = 0 := by
  by_contra hpos
  exact hfinish (h.ran (Nat.pos_of_ne_zero hpos)).2.2

private theorem Moves.coherent {v w : View} (hm : Moves v w) (h : Coherent v) : Coherent w := by
  have hruns := h.runs_eq_zero
  obtain ⟨hentry, hpending, hkept, hrunning, hran, haccounted⟩ := h
  cases hm with
  | share e n hsame hfinish =>
    obtain ⟨hn, ho, hh⟩ := hsame
    refine ⟨?_, ?_, ?_, ?_, ?_, ?_⟩
    · simpa only [hfinish] using hentry
    · simpa only [hh] using hpending
    · simpa only [hn, ho, hh, hfinish] using hkept
    · simpa only [hn, hfinish] using hrunning
    · simpa only [hn, hfinish] using hran
    · simpa only [hn, ho, hh, hfinish] using haccounted
  | update e n f hsame hfinish hf =>
    obtain ⟨hn, ho, hh⟩ := hsame
    refine ⟨?_, ?_, ?_, ?_, ?_, ?_⟩
    · simpa only [Option.isSome_map, hfinish] using hentry
    · intro c hc
      obtain ⟨old, hold, rfl⟩ := Option.map_eq_some_iff.mp hc
      simpa only [hf, hh] using hpending old hold
    · simpa only [hn, ho, hh, hfinish] using hkept
    · simpa only [hn, hfinish] using hrunning
    · simpa only [hn, hfinish] using hran
    · simpa only [hn, ho, hh, hfinish] using haccounted
  | beginFinish e n hsame hfinish hfinish' =>
    obtain ⟨hn, ho, hh⟩ := hsame
    obtain rfl : n = 0 := hruns (by simp [hfinish])
    refine ⟨?_, ?_, ?_, ?_, nofun, ?_⟩
    · simpa [hfinish, hfinish'] using hentry
    · simpa only [hh] using hpending
    · simpa [hn, ho, hh, hfinish, hfinish'] using hkept
    · simp [hfinish']
    · simpa [hn, ho, hh, hfinish, hfinish'] using haccounted
  | release e n hfinish =>
    obtain rfl : n = 0 := hruns (by simp [hfinish])
    refine ⟨by simp, nofun, ?_, nofun, nofun, ?_⟩
    · simpa [hfinish] using hkept
    · simpa [hfinish] using haccounted
  | @take r e n hfinish =>
    -- A callback that is still there runs now, and none ran before.
    obtain rfl : n = 0 := hruns (by simp [hfinish])
    refine ⟨?_, hpending, nofun, ?_, nofun, ?_⟩
    · cases ho : r.onAbandon <;> simpa [ho, hfinish] using hentry
    · cases ho : r.onAbandon
      · simp
      · simpa [ho] using (hkept ho).1
    · cases ho : r.onAbandon
      · simpa [ho, hfinish] using haccounted
      · simp
  | run e n hfinish =>
    obtain ⟨hnotifies, rfl⟩ := hrunning hfinish
    refine ⟨?_, hpending, ?_, nofun, fun _ => ⟨rfl, hnotifies, rfl⟩, ?_⟩
    · simpa [hfinish] using hentry
    · exact fun ho => absurd hfinish (hkept ho).2.1
    · exact fun _ => .inr (.inr (.inr (.inr rfl)))
  | beginHandoff e n hhandoff =>
    refine ⟨hentry, ?_, ?_, hrunning, hran, ?_⟩
    · simpa [hhandoff] using hpending
    · simpa [hhandoff] using hkept
    · simpa [hhandoff] using haccounted
  | clear e n hhandoff =>
    refine ⟨hentry, ?_, nofun, hrunning, hran, fun _ => .inr (.inl rfl)⟩
    simpa [hhandoff] using hpending
  | mark e n hhandoff =>
    refine ⟨?_, ?_, ?_, hrunning, hran, fun _ => .inr (.inr (.inl rfl))⟩
    · simpa only [Option.isSome_map] using hentry
    · intro c hc
      obtain ⟨old, hold, rfl⟩ := Option.map_eq_some_iff.mp hc
      simp
    · intro ho
      have hstage := (hkept ho).2.2.2
      simp [hhandoff] at hstage

/-- Every reservation fits its entry and the runs of its callback. -/
structure Inv (s : State) : Prop where
  coherent : ∀ id v, s.view id = some v → Coherent v
  unseen : ∀ id, id ∉ s.reservations → Unseen s id

private theorem inv_init : Inv State.init where
  coherent id v h := by cases h
  unseen id h := ⟨h, rfl, rfl⟩

private theorem inv_step (h : Inv s) (hs : step s l = some t) : Inv t := by
  constructor
  · intro id w hw
    cases step_steps hs id with
    | same hview _ => exact h.coherent id w (hview ▸ hw)
    | reserve notifies c hnew hpending hview =>
      rw [hview, (h.unseen id hnew).2.2] at hw
      cases hw
      exact coherent_reserve notifies hpending
    | moves v w' hv hw' hmoves =>
      rw [hw'] at hw
      cases hw
      exact hmoves.coherent (h.coherent id v hv)
  · intro id hid
    have hnone : t.view id = none := by
      rw [State.view, AList.lookup_eq_none.mpr hid]
      rfl
    cases step_steps hs id with
    | same hview hunseen =>
      refine hunseen (h.unseen id ?_)
      rw [hview, State.view, Option.map_eq_none_iff] at hnone
      exact AList.lookup_eq_none.mp hnone
    | reserve notifies c hnew hpending hview => rw [hview] at hnone; cases hnone
    | moves v w hv hw hmoves => rw [hw] at hnone; cases hnone

private theorem inv_of_exec {labels : List Label} (hs : exec step State.init labels = some s) :
    Inv s :=
  exec_invariant (fun _ _ _ h hstep => inv_step h hstep) inv_init hs

private theorem Inv.coherent_of_lookup (h : Inv s) (hr : s.reservations.lookup id = some r) :
    Coherent ⟨r, s.registry.entries.lookup id, s.runs id⟩ :=
  h.coherent id _ (view_eq_some.mpr ⟨hr, rfl, rfl⟩)

private theorem Inv.tracksEntries (h : Inv s) : TracksEntries s where
  reserved id hid := by
    by_contra hnew
    exact absurd (AList.lookup_isSome.mpr hid) (by simp [(h.unseen id hnew).2.1])
  live id r hr := by
    have hentry := (h.coherent_of_lookup hr).entry
    rw [← AList.lookup_isSome, hentry]
    simp only [Reservation.hasFinished, decide_eq_false_iff_not]
    tauto
  pending id r e hr he := by
    have hpending := (h.coherent_of_lookup hr).pending e he
    rw [hpending, Reservation.hasHandedOff, decide_eq_false_iff_not]

private theorem Inv.reserved_of_runs (h : Inv s) (hruns : 0 < s.runs id) :
    ∃ r, s.reservations.lookup id = some r := by
  cases hr : s.reservations.lookup id with
  | some r => exact ⟨r, rfl⟩
  | none =>
    have hunseen := h.unseen id (AList.lookup_eq_none.mp hr)
    rw [hunseen.2.2] at hruns
    cases hruns

private theorem Inv.runs_le_one (h : Inv s) (id : Nat) : s.runs id ≤ 1 := by
  rcases Nat.eq_zero_or_pos (s.runs id) with hzero | hpos
  · omega
  · obtain ⟨r, hr⟩ := h.reserved_of_runs hpos
    exact Nat.le_of_eq ((h.coherent_of_lookup hr).ran hpos).1

private theorem Inv.runs_of_returned (h : Inv s) (hr : s.reservations.lookup id = some r)
    (hnotifies : r.notifies = true) (hfinish : r.finish = .returned)
    (hhandoff : r.handoff = .notBegun) : s.runs id = 1 := by
  have hc := h.coherent_of_lookup hr
  rcases hc.accounted hnotifies with ho | hm | hm | hm | hm
  · exact absurd hfinish (hc.kept ho).2.2.1
  · simp [hhandoff] at hm
  · simp [hhandoff] at hm
  · simp [hfinish] at hm
  · exact hm

/-- What has run stays run. -/
theorem runs_le_exec {labels : List Label} (h : exec step s labels = some t) (id : Nat) :
    s.runs id ≤ t.runs id := by
  refine exec_invariant (P := fun u => s.runs id ≤ u.runs id) ?_ (Nat.le_refl _) h
  intro u l w hle hstep
  refine Nat.le_trans hle ?_
  rcases step_cases hstep with ⟨k, key, estimate, notifies, rfl, hnew, rfl⟩ | ⟨r, hr, hcall⟩
  · exact Nat.le_refl _
  · exact (ran_callStep hcall).count_le id

/-- The callback is gone without having run. -/
def Spared (v : View) : Prop :=
  v.reservation.onAbandon = false ∧ v.reservation.finish ≠ .running ∧ v.runs = 0

private theorem Moves.spared {v w : View} (hm : Moves v w) (h : Spared v) : Spared w := by
  obtain ⟨ho, hr, hn⟩ := h
  cases hm with
  | share e n hsame hfinish => exact ⟨hsame.onAbandon.trans ho, hfinish ▸ hr, hn⟩
  | update e n f hsame hfinish hf => exact ⟨hsame.onAbandon.trans ho, hfinish ▸ hr, hn⟩
  | beginFinish e n hsame hfinish hfinish' =>
    exact ⟨hsame.onAbandon.trans ho, by simp [hfinish'], hn⟩
  | release e n hfinish => exact ⟨ho, by simp, hn⟩
  | take e n hfinish => exact ⟨rfl, by simp_all, hn⟩
  | run e n hfinish => exact absurd hfinish hr
  | beginHandoff e n hhandoff => exact ⟨ho, hr, hn⟩
  | clear e n hhandoff => exact ⟨rfl, hr, hn⟩
  | mark e n hhandoff => exact ⟨ho, hr, hn⟩

/-- A cleared callback stays cleared. -/
theorem spared_exec {labels : List Label} (hs : ∃ v, s.view id = some v ∧ Spared v)
    (h : exec step s labels = some t) : ∃ v, t.view id = some v ∧ Spared v := by
  refine exec_invariant (P := fun s => ∃ v, s.view id = some v ∧ Spared v) ?_ hs h
  rintro s l t ⟨v, hv, hspared⟩ hstep
  cases step_steps hstep id with
  | same hview _ => exact ⟨v, hview.trans hv, hspared⟩
  | reserve notifies c hnew hpending hview =>
    rw [State.view, AList.lookup_eq_none.mpr hnew] at hv
    cases hv
  | moves v' w hv' hw hmoves =>
    rw [hv'] at hv
    cases hv
    exact ⟨w, hw, hmoves.spared hspared⟩

/-- After a handoff that comes before the finish, the callback never runs. -/
theorem runs_of_handedOff {before after : List Label}
    (hs : exec step State.init before = some s) (ht : exec step s after = some t)
    (hr : s.reservations.lookup id = some r) (hhandoff : r.handoff = .returned)
    (hfinish : r.finish = .notBegun) : t.runs id = 0 := by
  have hview : s.view id = some ⟨r, s.registry.entries.lookup id, s.runs id⟩ :=
    view_eq_some.mpr ⟨hr, rfl, rfl⟩
  have hc := (inv_of_exec hs).coherent id _ hview
  have hspared : Spared ⟨r, s.registry.entries.lookup id, s.runs id⟩ := by
    refine ⟨?_, by simp [hfinish], ?_⟩
    · by_contra ho
      rcases (hc.kept (Bool.eq_true_of_not_eq_false ho)).2.2.2 with hh | hh
      · simp [hhandoff] at hh
      · simp [hhandoff] at hh
    · by_contra hpos
      have hreturned := (hc.ran (Nat.pos_of_ne_zero hpos)).2.2
      simp [hfinish] at hreturned
  obtain ⟨v, hv, hspared⟩ := spared_exec ⟨_, hview, hspared⟩ ht
  have hruns := (view_eq_some.mp hv).2.2
  exact hruns.trans hspared.2.2

private theorem notifiesOnce_of_exec {before after : List Label}
    (hs : exec step State.init before = some s) (ht : exec step s after = some t) :
    NotifiesOnce s t := by
  have h : Inv t := inv_of_exec (exec_append_eq_some.mpr ⟨s, hs, ht⟩)
  constructor
  · exact h.runs_le_one
  · intro id hpos
    obtain ⟨r, hr⟩ := h.reserved_of_runs hpos
    have hc := h.coherent_of_lookup hr
    have hreturned : r.finish = .returned := (hc.ran hpos).2.2
    rw [← AList.lookup_isSome, hc.entry, hreturned]
    simp
  · intro id hpos
    obtain ⟨r, hr⟩ := h.reserved_of_runs hpos
    exact ⟨r, hr, ((h.coherent_of_lookup hr).ran hpos).2⟩
  · intro id r hr hnotifies hfinish hhandoff
    have hone := (inv_of_exec hs).runs_of_returned hr hnotifies hfinish hhandoff
    have hle := runs_le_exec ht id
    have hmost := h.runs_le_one id
    omega
  · intro id r hr hhandoff hfinish
    exact runs_of_handedOff hs ht hr hhandoff hfinish

/-! ### The revision -/

/-- Either nothing changes, or an entry changes and the revision with it. -/
inductive Revises (r : SpawnReservations) : SpawnReservations → Prop
  | unchanged {r' : SpawnReservations} (heq : r' = r) : Revises r r'
  | changed {r' : SpawnReservations} (id : Nat)
      (hentry : r'.entries.lookup id ≠ r.entries.lookup id)
      (hrevision : r'.revision = SpawnReservations.nextRevision r.revision) : Revises r r'

private theorem nextRevision_ne (revision : Nat) :
    SpawnReservations.nextRevision revision ≠ revision := by
  unfold SpawnReservations.nextRevision
  omega

private theorem revises_update (registry : SpawnReservations) (id : Nat)
    {changes : MemoryCommitment → Bool} {f : MemoryCommitment → MemoryCommitment}
    (hf : ∀ c, changes c = true → f c ≠ c) : Revises registry (registry.update id changes f) := by
  unfold SpawnReservations.update
  split
  · next c hc =>
    split
    · next hchanges =>
      refine .changed id ?_ rfl
      rw [AList.lookup_insert, hc]
      exact fun h => hf c hchanges (Option.some.inj h)
    · exact .unchanged rfl
  · exact .unchanged rfl

private theorem revises_markHandedOff (registry : SpawnReservations) (id : Nat) :
    Revises registry (registry.markHandedOff id) := by
  apply revises_update
  intro c hc h
  have hpending := congrArg MemoryCommitment.pending h
  simp [hc] at hpending

private theorem revises_applyUpdate (registry : SpawnReservations) (id : Nat) (update : Update) :
    Revises registry (applyUpdate registry id update) := by
  cases update with
  | pid pid =>
    apply revises_update
    intro c hc h
    have hpid := congrArg MemoryCommitment.pid h
    simp [← hpid] at hc
  | ready =>
    apply revises_update
    intro c hc h
    have hready := congrArg MemoryCommitment.ready h
    simp [← hready] at hc

private theorem revises_releaseMemory (registry : SpawnReservations) (id : Nat) :
    Revises registry (registry.releaseMemory id) := by
  by_cases hid : id ∈ registry.entries
  · refine .changed id ?_ ?_
    · rw [SpawnReservations.lookup_releaseMemory, if_pos rfl]
      intro h
      exact absurd (AList.lookup_isSome.mpr hid) (by simp [← h])
    · rw [SpawnReservations.releaseMemory, if_pos hid]
  · rw [SpawnReservations.releaseMemory, if_neg hid]
    exact .unchanged rfl

private theorem revises_reserve {registry : SpawnReservations}
    (hid : registry.entries.lookup id = none)
    (key : String) (estimate : Memory Nat) :
    Revises registry (registry.reserve id key estimate) := by
  refine .changed id ?_ rfl
  rw [SpawnReservations.lookup_reserve, if_pos rfl, hid]
  simp

private theorem revises_callStep (hs : callStep s id r l = some t) :
    Revises s.registry t.registry := by
  cases l <;> simp only [callStep, guarded_eq_some, reduceCtorEq] at hs
  case updatePiece _ update =>
    obtain ⟨-, rfl⟩ := hs
    exact revises_applyUpdate s.registry id update
  case finishPiece =>
    unfold finishPiece at hs
    split at hs <;> cases hs
    · exact revises_releaseMemory s.registry id
    · exact .unchanged rfl
    · exact .unchanged rfl
  case handoffPiece =>
    unfold handoffPiece at hs
    split at hs <;> cases hs
    · exact .unchanged rfl
    · exact revises_markHandedOff s.registry id
  all_goals
    obtain ⟨-, rfl⟩ := hs
    exact .unchanged rfl

private theorem revises_step (h : Inv s) (hs : step s l = some t) :
    Revises s.registry t.registry := by
  rcases step_cases hs with ⟨id, key, estimate, notifies, rfl, hnew, rfl⟩ | ⟨r, hr, hs⟩
  · exact revises_reserve (h.unseen id hnew).2.1 key estimate
  · exact revises_callStep hs

private theorem Revises.revision_eq_iff {registry registry' : SpawnReservations}
    (h : Revises registry registry') :
    registry'.revision = registry.revision ↔ SameEntries registry registry' := by
  cases h with
  | unchanged heq => exact ⟨fun _ _ => by rw [heq], fun _ => by rw [heq]⟩
  | changed id hentry hrevision =>
    constructor
    · intro h
      exact absurd (hrevision.symm.trans h) (nextRevision_ne registry.revision)
    · intro h
      exact absurd (h id).symm hentry

/-- The revision counts the changes of the entries, modulo `2 ^ 64`. -/
theorem revision_exec {labels : List Label} (h : Inv s) (hbound : s.registry.revision < 2 ^ 64)
    (ht : exec step s labels = some t) :
    t.registry.revision = (s.registry.revision + mutations s labels) % 2 ^ 64 := by
  induction labels generalizing s with
  | nil =>
    obtain rfl : s = t := by simpa using ht
    simp only [mutations]
    omega
  | cons l labels ih =>
    obtain ⟨u, hu, hrest⟩ := exec_cons_eq_some.mp ht
    have hinv := inv_step h hu
    simp only [mutations, hu]
    cases revises_step h hu with
    | unchanged heq =>
      rw [ih hinv (heq ▸ hbound) hrest, heq, if_pos rfl]
      omega
    | changed id hentry hrevision =>
      have hne : u.registry.entries ≠ s.registry.entries := by
        intro heq
        rw [heq] at hentry
        exact hentry rfl
      unfold SpawnReservations.nextRevision at hrevision
      have hu' : u.registry.revision < 2 ^ 64 := by omega
      rw [ih hinv hu' hrest, if_neg hne]
      omega

private theorem mutations_le_length (s : State) (labels : List Label) :
    mutations s labels ≤ labels.length := by
  induction labels generalizing s with
  | nil => exact Nat.le_refl 0
  | cons l labels ih =>
    simp only [mutations, List.length_cons]
    split
    · next t _ =>
      have hrest := ih t
      split <;> omega
    · omega

private theorem entries_of_mutations {labels : List Label} (ht : exec step s labels = some t)
    (h : mutations s labels = 0) : t.registry.entries = s.registry.entries := by
  induction labels generalizing s with
  | nil =>
    obtain rfl : s = t := by simpa using ht
    rfl
  | cons l labels ih =>
    obtain ⟨u, hu, hrest⟩ := exec_cons_eq_some.mp ht
    simp only [mutations, hu] at h
    split at h
    · next heq => exact (ih hrest (by omega)).trans heq
    · omega

/-- Below `2 ^ 64` changes the revision of a snapshot is current exactly when no entry has changed
since. -/
theorem withRevision_isSome_iff {before after : List Label}
    (hs : exec step State.init before = some s) (ht : exec step s after = some t)
    (hbelow : mutations s after < 2 ^ 64) {α : Type} (f : Unit → α) :
    (t.registry.withRevision s.registry.revision f).isSome = true ↔ mutations s after = 0 := by
  have hinit := revision_exec inv_init (show (0 : Nat) < 2 ^ 64 by omega) hs
  have hrevision := revision_exec (inv_of_exec hs) (by omega) ht
  unfold SpawnReservations.withRevision
  split
  · simp only [Option.isSome_some, true_iff]
    omega
  · simp only [Option.isSome_none, Bool.false_eq_true, false_iff]
    omega

/-- The registry, the callbacks and the revision of every run. -/
theorem registry_follows_reservations {before after : List Label} {s t : State}
    (hs : exec step State.init before = some s) (ht : exec step s after = some t) :
    TracksEntries t ∧ NotifiesOnce s t ∧
      (∀ l u, step t l = some u →
        (u.registry.revision = t.registry.revision ↔ SameEntries t.registry u.registry)) ∧
      (mutations s after < 2 ^ 64 → ∀ {α : Type} (f : Unit → α),
        ((t.registry.withRevision s.registry.revision f).isSome = true ↔ mutations s after = 0) ∧
        ((t.registry.withRevision s.registry.revision f).isSome = true →
          SameEntries s.registry t.registry)) := by
  have hinv : Inv t := inv_of_exec (exec_append_eq_some.mpr ⟨s, hs, ht⟩)
  refine ⟨hinv.tracksEntries, notifiesOnce_of_exec hs ht, ?_, ?_⟩
  · intro l u hu
    exact (revises_step hinv hu).revision_eq_iff
  · intro hbelow α f
    have hiff := withRevision_isSome_iff hs ht hbelow f
    refine ⟨hiff, fun hsome id => ?_⟩
    rw [entries_of_mutations ht (hiff.mp hsome)]

/-- One spawn is handed off and finishes, and another is abandoned by its last owner. -/
def handoffAndAbandon : List Label :=
  [.reserve 0 "m:p" ⟨400, 800⟩ true, .reserve 1 "m:p" ⟨400, 800⟩ true, .clone 0, .setPid 0 77,
    .updatePiece 0 (.pid 77), .handoff 0, .handoffPiece 0, .handoffPiece 0, .dropGuard 0]

/-- The rest of that run, from a snapshot on. -/
def finishAndRunCallback : List Label :=
  [.finish 0, .finishPiece 0, .finishPiece 0, .dropGuard 1, .finishPiece 1, .finishPiece 1,
    .finishPiece 1]

/-- Only the callback of the second runs, once. -/
theorem handoffAndAbandon_followed :
    ∃ s t, exec step State.init handoffAndAbandon = some s ∧
      exec step s finishAndRunCallback = some t ∧ t.ran = [1] ∧ TracksEntries t ∧
      NotifiesOnce s t ∧ t.runs 0 = 0 ∧
      (t.registry.withRevision s.registry.revision fun _ => ()).isSome = false := by
  have hrun : exec step State.init (handoffAndAbandon ++ finishAndRunCallback) = some _ := rfl
  obtain ⟨s, hs, ht⟩ := exec_append_eq_some.mp hrun
  have hmain := registry_follows_reservations hs ht
  cases hs
  exact ⟨_, _, rfl, ht, rfl, hmain.1, hmain.2.1, hmain.2.1.handedOff 0 _ rfl rfl rfl, rfl⟩

/-- A reservation that came and went leaves the entries of the snapshot, and its revision is no
longer current. -/
theorem equal_entries_newer_revision :
    ∃ t, exec step State.init
        [.reserve 0 "m:p" ⟨400, 800⟩ false, .dropGuard 0, .finishPiece 0, .finishPiece 0] = some t ∧
      mutations State.init
        [.reserve 0 "m:p" ⟨400, 800⟩ false, .dropGuard 0, .finishPiece 0, .finishPiece 0] < 2 ^ 64 ∧
      SameEntries State.init.registry t.registry ∧
      t.registry.withRevision State.init.registry.revision (fun _ => ()) = none :=
  ⟨_, rfl, Nat.lt_of_le_of_lt (mutations_le_length _ _) (by decide), fun _ => rfl, rfl⟩

end Llamesh.Spawn.Registry
