import Llamesh.Waiters.LineSound
import Llamesh.Waiters.Reading
import Llamesh.Waiters.Effect

/-!
# Every step is a step of the line

The requests, the waking tasks and the removers of the model move as the line says, so its invariant
holds in every state of every run.
-/

namespace Llamesh.Waiters

open Transition

private theorem refines_enqueue {s : State} {id : Nat} {recheck waited : Bool}
    (hpc : s.requests.lookup id = some (.joining recheck waited)) :
    Line.Step (.join id) (line s)
      (line { setRequest s id (.queued .silent (if recheck then .due else .done)) with
        queue := (s.queue.filter fun k => receiverAlive s k) ++ [id] }) := by
  have hline : line { setRequest s id (.queued .silent (if recheck then .due else .done)) with
      queue := (s.queue.filter fun k => receiverAlive s k) ++ [id] } =
      { (line s).stand id (some .waiting) with
        queue := ((line s).queue.filter fun k => receiverAlive s k) ++ [id] } := by
    simp only [line, setRequest, standings_insert, Line.stand, Pc.standing]
  rw [hline]
  apply Line.Step.join
  · rw [standing_of_lookup hpc]
    cases waited with
    | false => exact .inl rfl
    | true => exact .inr rfl
  · intro k hk
    simp only [line, standings, Option.map_eq_some_iff] at hk
    obtain ⟨pc, hpc, hst⟩ := hk
    have hwait : ∃ r, pc = .queued .silent r := by
      unfold Pc.standing at hst
      split at hst <;> simp_all
      split at hst <;> simp_all
    obtain ⟨r, rfl⟩ := hwait
    simp [receiverAlive, hpc]

private theorem refines_leave {s : State} {id : Nat} {pc : Pc}
    (hpc : s.requests.lookup id = some pc) :
    Line.Step .other (line s) (line (leaveStep s id pc)) := by
  have hline : line (leaveStep s id pc) = { (line s).stand id none with
      removers := (if pc.hasEntry then id :: s.entryRemovers else s.entryRemovers) ++
        (if pc.hasToken then id :: s.tokenRemovers else s.tokenRemovers) } := by
    simp only [line, leaveStep, endRequest, standings_erase, Line.stand]
  rw [hline]
  apply Line.Step.leave
  · rw [standing_of_lookup hpc]
    simp
  · intro k hk
    simp only [line, List.mem_append] at hk ⊢
    split at hk <;> split at hk <;> simp_all <;> tauto

/-- The steps from the arrival to the wake. -/
theorem refines_queueStep {maxConcurrent : Nat} {s t : State} {l : Label}
    (hs : queueStep maxConcurrent s l = some t) : Line.Step (event s l) (line s) (line t) := by
  cases queueStep_effect hs with
  | arrive =>
    have hline : line { setRequest s s.next .checking with next := s.next + 1 } =
        { (line s).stand (line s).next (some .idle) with next := (line s).next + 1 } := by
      simp only [line, setRequest, standings_insert, Line.stand]
      rfl
    rw [hline]
    exact .arrive _
  | checkQueue id hpc => exact refines_move _ hpc (by split <;> rfl) rfl
  | checkPending id hpc => exact refines_move _ hpc (by split <;> rfl) rfl
  | settle id again hpc => exact refines_move _ hpc (by split <;> rfl) rfl
  | enqueue id recheck waited hpc => exact refines_enqueue hpc
  | readAvailable id channel hpc => exact refines_move _ hpc (by cases channel <;> rfl) rfl
  | readPending id waker channel available hpc hwaker =>
    refine refines_move (.queued channel .done) hpc (by cases channel <;> rfl) ?_
    split
    · rfl
    · exact line_startWaker (hands_of_notMem hwaker) rfl
  | receive id hpc => exact refines_move (.trying true) hpc rfl rfl
  | receiveClosed id hpc => exact refines_end hpc rfl
  | leave id pc hpc _ => exact refines_leave hpc
  | removeEntry id hid =>
    apply Line.Step.removeEntry (List.mem_append.mpr (.inl hid))
    intro k hk
    rcases List.mem_append.mp hk with hk | hk
    · exact List.mem_append.mpr (.inl (List.mem_of_mem_erase hk))
    · exact List.mem_append.mpr (.inr hk)
  | removeToken id hid =>
    apply Line.Step.removeToken (List.mem_append.mpr (.inr hid))
    intro k hk
    rcases List.mem_append.mp hk with hk | hk
    · exact List.mem_append.mpr (.inl hk)
    · exact List.mem_append.mpr (.inr (List.mem_of_mem_erase hk))

/-- The steps of the attempt. -/
theorem refines_attemptStep {maxConcurrent : Nat} {s t : State} {l : Label}
    (hs : attemptStep maxConcurrent s l = some t) : Line.Step (event s l) (line s) (line t) := by
  cases attemptStep_effect hs with
  | lock id token hpc _ => exact refines_move (.locked token) hpc (by cases token <;> rfl) rfl
  | keepTurn id hpc => exact refines_move (.passed true) hpc rfl rfl
  | queueEmpty id hpc _ => exact refines_move .lockedPending hpc rfl rfl
  | queueBusy id hpc _ => exact refines_move (.joining false false) hpc rfl rfl
  | pendingEmpty id hpc hpending =>
    have hempty : s.pending = [] := List.isEmpty_iff.mp hpending
    simp only [event, hempty, if_true]
    rw [line_setRequest]
    exact .pass (standing_of_lookup hpc) hempty
  | pendingBusy id hpc hpending =>
    have hbusy : s.pending ≠ [] := fun hempty => hpending (List.isEmpty_iff.mpr hempty)
    simp only [event, hbusy, if_false]
    exact refines_move (.joining false false) hpc rfl rfl
  | beginScan id order token hpc _ =>
    exact refines_move (.scanning token order none) hpc (by cases token <;> rfl) rfl
  | scan id token inst rest best hpc => exact refines_move _ hpc (by cases token <;> rfl) rfl
  | acquire id token inst seen i hpc _ _ =>
    cases token with
    | false => exact refines_serve (.serving false inst) hpc rfl rfl rfl
    | true => exact refines_move (.serving true inst) hpc rfl rfl
  | noneFits id token best hpc =>
    exact refines_move (.planning token) hpc (by cases token <;> rfl) rfl
  | admitted id token hpc =>
    cases token with
    | false => exact refines_serve (.spawning false) hpc rfl rfl rfl
    | true => exact refines_move (.spawning true) hpc rfl rfl
  | blocked id token hpc =>
    cases token with
    | false => exact refines_quit (.joining true false) hpc (.inl rfl) rfl rfl
    | true => exact refines_move .returning hpc rfl rfl
  | evict id token hpc =>
    cases token with
    | false =>
      rcases hpc with hpc | hpc
      · exact refines_quit (.retiring false) hpc (.inl rfl) rfl rfl
      · exact refines_quit (.retiring false) hpc (.inl rfl) rfl rfl
    | true =>
      rcases hpc with hpc | hpc
      · exact refines_move (.retiring true) hpc rfl rfl
      · exact refines_move (.retiring true) hpc rfl rfl
  | reaped id token hpc => exact refines_move _ hpc (by cases token <;> rfl) rfl
  | replan id token hpc =>
    cases token with
    | false => exact refines_quit (.trying false) hpc (.inl rfl) rfl rfl
    | true => exact refines_move (.trying true) hpc rfl rfl

/-- The steps after the attempt. -/
theorem refines_serveStep {s t : State} {l : Label}
    (hs : serveStep s l = some t) : Line.Step (event s l) (line s) (line t) := by
  cases serveStep_effect hs with
  | spawned id inst draining token hpc _ =>
    exact refines_move (.serving token inst) hpc (by cases token <;> rfl) rfl
  | spawnBlocked id token hpc =>
    cases token with
    | false => exact refines_quit (.joining true false) hpc (.inr rfl) rfl rfl
    | true => exact refines_move .returning hpc rfl rfl
  | giveBackServing id inst hpc =>
    have hline : line { setRequest s id (.serving false inst) with
        pending := remove s.pending id } = { (line s).stand id (some .served) with
        pending := (line s).pending.filter fun k => decide (k ≠ id) } := by
      simp only [line, setRequest, standings_insert, Line.stand, remove, Pc.standing]
    rw [hline]
    exact .giveBack (standing_of_lookup hpc) (.inr (.inl rfl))
  | giveBackBlocked id hpc =>
    have hline : line { setRequest s id (.joining true true) with
        pending := remove s.pending id } = { (line s).stand id (some .again) with
        pending := (line s).pending.filter fun k => decide (k ≠ id) } := by
      simp only [line, setRequest, standings_insert, Line.stand, remove, Pc.standing]
    rw [hline]
    exact .giveBack (standing_of_lookup hpc) (.inr (.inr rfl))
  | finish id waker afterLoad token inst hpc hwaker =>
    have hline : line { endRequest s id with
        wakers := s.wakers.insert waker { pc := .releasing inst afterLoad, budget := 0 }
        tokenRemovers := if token then id :: s.tokenRemovers else s.tokenRemovers } =
        { (line s).stand id none with removers := s.entryRemovers ++
          if token then id :: s.tokenRemovers else s.tokenRemovers } := by
      simp only [line, endRequest, standings_erase, Line.stand]
      rw [hands_insert_same (hands_of_notMem hwaker)]
    rw [hline]
    apply Line.Step.leave
    · rw [standing_of_lookup hpc]
      simp
    · intro k hk
      simp only [line, List.mem_append] at hk ⊢
      split at hk <;> simp_all
      tauto
  | retry id waker inst hpc hwaker =>
    exact refines_quit .checking hpc (.inr rfl) rfl (line_startWaker (hands_of_notMem hwaker) rfl)
  | park id waker inst hpc hwaker =>
    exact refines_quit .parked hpc (.inr rfl) rfl (line_startWaker (hands_of_notMem hwaker) rfl)
  | unpark id hpc => exact refines_move .checking hpc rfl rfl
  | dropChecking id waker hpc hwaker =>
    exact refines_end hpc (line_startWaker (hands_of_notMem hwaker) rfl)
  | dropTrying id waker token hpc hwaker =>
    cases token with
    | false => exact refines_end hpc (line_startWaker (hands_of_notMem hwaker) rfl)
    | true =>
      have hline : line { endRequest s id with
          pending := remove s.pending id
          wakers := s.wakers.insert waker { pc := .popping, budget := 1 } } =
          { (line s).stand id none with
            pending := (line s).pending.filter fun k => decide (k ≠ id) } := by
        simp only [line, endRequest, standings_erase, Line.stand, remove]
        rw [hands_insert_same (hands_of_notMem hwaker)]
      simp only [if_true]
      rw [hline]
      exact .giveBack (standing_of_lookup hpc) (.inl rfl)

private theorem line_afterDelivery (s : State) (w : Nat) (k : Waker) :
    line (afterDelivery s w k) = (line s).handle w none := by
  unfold afterDelivery
  split
  · simp only [line, setWaker, hands_insert, Line.handle, WakerPc.hand]
  · split
    · simp only [line, hands_erase, Line.handle]
    · simp only [line, setWaker, hands_insert, Line.handle, WakerPc.hand]

private theorem line_eraseWaker (s : State) (w : Nat) :
    line { s with wakers := s.wakers.erase w } = (line s).handle w none := by
  simp only [line, hands_erase, Line.handle]

private theorem line_eraseWaker_same {s : State} {w : Nat} (hnone : hands s.wakers w = none) :
    line { s with wakers := s.wakers.erase w } = line s := by
  simp only [line]
  rw [hands_erase_same hnone]

private theorem mem_promote {pending : List Nat} {id k : Nat} :
    k ∈ promote pending id ↔ k ∈ pending ∨ k = id := by
  unfold promote
  split
  · next hid =>
    constructor
    · exact .inl
    · rintro (hk | rfl)
      · exact hk
      · exact hid
  · simp

private theorem hand_of_empty {k : Waker} (hpopped : ∀ id, k.pc ≠ .popped id)
    (hrefused : ∀ id, k.pc ≠ .refused id) (hpromoted : k.pc.isPromoted = false) :
    k.pc.hand = none := by
  cases hpc : k.pc with
  | releasing inst afterLoad => rfl
  | readied inst => rfl
  | popping => rfl
  | popped id => exact absurd hpc (hpopped id)
  | promoted id => simp [hpc, WakerPc.isPromoted] at hpromoted
  | refused id => exact absurd hpc (hrefused id)

/-- The steps of the waking tasks. -/
theorem refines_wakerStep {maxConcurrent : Nat} {s t : State} {l : Label}
    (hs : wakerStep maxConcurrent s l = some t) : Line.Step (event s l) (line s) (line t) := by
  cases wakerStep_effect hs with
  | startWaker w cancellable hnew =>
    exact refines_stay (line_startWaker (hands_of_notMem hnew) rfl)
  | releaseSlot w inst budget afterLoad all cancellable hw hload =>
    exact refines_stay (line_startWaker (s := s) (hand_of_lookup hw) rfl)
  | readSpare w inst budget all cancellable hw =>
    exact refines_stay (line_startWaker (hand_of_lookup hw) rfl)
  | nobodyWaits w k hw hpc hqueue =>
    have hhand := hand_of_lookup hw
    rw [hpc] at hhand
    exact refines_stay (line_eraseWaker_same hhand)
  | pop w id k rest hw hpc hqueue =>
    have hhand := hand_of_lookup hw
    rw [hpc] at hhand
    have hline : line { setWaker s w { k with pc := .popped id } with queue := rest } =
        { (line s).handle w (some (.taken id)) with queue := rest } := by
      simp only [line, setWaker, hands_insert, Line.handle, WakerPc.hand]
    rw [hline]
    exact .take hhand hqueue
  | promote w id k hw hpc =>
    have hhand := hand_of_lookup hw
    rw [hpc] at hhand
    have hline : line { setWaker s w { k with pc := .promoted id } with
        pending := promote s.pending id } =
        { (line s).handle w (some (.promoted id)) with pending := promote s.pending id } := by
      simp only [line, setWaker, hands_insert, Line.handle, WakerPc.hand]
    rw [hline]
    exact .promote hhand fun _ => mem_promote
  | deliver w id k recheck hw hpc hrequest =>
    have hhand := hand_of_lookup hw
    rw [hpc] at hhand
    rw [line_afterDelivery, line_setRequest]
    exact .deliver hhand (standing_of_lookup hrequest)
  | refuse w id k hw hpc hrequest =>
    have hhand := hand_of_lookup hw
    rw [hpc] at hhand
    have hline : line (setWaker s w { k with pc := .refused id }) =
        (line s).handle w (some (.refused id)) := by
      simp only [line, setWaker, hands_insert, Line.handle, WakerPc.hand]
    rw [hline]
    exact .refuse hhand (standing_ne_waiting hrequest)
  | discard w id k hw hpc =>
    have hhand := hand_of_lookup hw
    rw [hpc] at hhand
    have hline : line { setWaker s w { k with pc := .popping } with
        pending := remove s.pending id } = { (line s).handle w none with
        pending := (line s).pending.filter fun k => decide (k ≠ id) } := by
      simp only [line, setWaker, hands_insert, Line.handle, WakerPc.hand, remove]
    rw [hline]
    exact .discard hhand
  | cancelClosing w id k recheck hw hpc hrequest =>
    have hhand := hand_of_lookup hw
    rw [hpc] at hhand
    rw [line_setRequest, line_eraseWaker]
    exact .lose hhand (standing_of_lookup hrequest)
  | cancelPopped w id k hw hpc hrequest =>
    have hhand := hand_of_lookup hw
    rw [hpc] at hhand
    rw [line_eraseWaker]
    exact .drop hhand (standing_ne_waiting hrequest)
  | cancelRefused w id k hw hpc =>
    have hhand := hand_of_lookup hw
    rw [hpc] at hhand
    have hline : line { s with
        wakers := s.wakers.erase w, tokenRemovers := id :: s.tokenRemovers } =
        { (line s).handle w none with removers := s.entryRemovers ++ id :: s.tokenRemovers } := by
      simp only [line, hands_erase, Line.handle]
    rw [hline]
    refine .forget hhand fun k hk => ?_
    simp only [line, List.mem_append, List.mem_cons] at hk ⊢
    tauto
  | cancelEmpty w k hw hpopped hrefused hpromoted =>
    have hhand := hand_of_lookup hw
    rw [hand_of_empty hpopped hrefused hpromoted] at hhand
    exact refines_stay (line_eraseWaker_same hhand)

/-- The steps of the instances. -/
theorem refines_instanceStep {s t : State} {l : Label}
    (hs : instanceStep s l = some t) : Line.Step (event s l) (line s) (line t) := by
  cases instanceStep_effect hs with
  | becomeReady inst w i _ _ hw | cancelDrain inst w hw =>
    exact refines_stay (line_startWaker (s := s) (hands_of_notMem hw) rfl)
  | _ => exact .stay _

/-- Every step of the model is a step of the line. -/
theorem step_refines {maxConcurrent : Nat} {s t : State} {l : Label}
    (hs : step maxConcurrent s l = some t) : Line.Step (event s l) (line s) (line t) := by
  unfold step at hs
  split at hs
  all_goals first
    | exact refines_queueStep hs
    | exact refines_attemptStep hs
    | exact refines_serveStep hs
    | exact refines_wakerStep hs
    | exact refines_instanceStep hs

/-- The line of every reachable state is sound. -/
theorem sound_step {maxConcurrent : Nat} {s t : State} {l : Label} (h : (line s).Sound)
    (hs : step maxConcurrent s l = some t) : (line t).Sound :=
  h.step (step_refines hs)

/-- Nobody stands in the line at startup. -/
theorem sound_init : (line State.init).Sound := by
  constructor <;> simp [line, State.init, Line.Entry, Line.Stale, Line.Holds, standings, hands]

end Llamesh.Waiters
