import Llamesh.Waiters.Effect

/-!
# Running tasks have wakes left

A waking task that has begun to take entries out of the queue still has a request to wake: the last
delivered permit ends it.
-/

namespace Llamesh.Waiters

open Transition

variable {maxConcurrent : Nat}

/-- A running task has at least one request to wake. -/
def Waker.Ok (k : Waker) : Prop :=
  match k.pc with
  | .releasing _ _ | .readied _ => True
  | _ => 1 ≤ k.budget

/-- Every waking task of the state. -/
def WakersOk (s : State) : Prop := ∀ w k, s.wakers.lookup w = some k → k.Ok

private theorem wakersOk_insert {s : State} {t : Table Nat Waker} {w : Nat} {k : Waker}
    (h : WakersOk s) (ht : t = s.wakers.insert w k) (hk : k.Ok) :
    ∀ v j, t.lookup v = some j → j.Ok := by
  intro v j hj
  rw [ht, Table.lookup_insert_eq_some] at hj
  rcases hj with ⟨-, rfl⟩ | ⟨-, hj⟩
  · exact hk
  · exact h v j hj

private theorem wakersOk_erase {s : State} {t : Table Nat Waker} {w : Nat} (h : WakersOk s)
    (ht : t = s.wakers.erase w) : ∀ v j, t.lookup v = some j → j.Ok := by
  intro v j hj
  rw [ht, Table.lookup_erase_eq_some] at hj
  exact h v j hj.2

private theorem wakersOk_afterDelivery {s : State} {w id : Nat} {k : Waker} (h : WakersOk s)
    (hw : s.wakers.lookup w = some k) (hpc : k.pc = .promoted id) :
    WakersOk (afterDelivery s w k) := by
  have hok := h w k hw
  simp only [Waker.Ok, hpc] at hok
  unfold afterDelivery
  split
  · exact wakersOk_insert h rfl hok
  · split
    · exact wakersOk_erase h rfl
    · next hlast =>
      refine wakersOk_insert h rfl ?_
      show 1 ≤ k.budget - 1
      omega

private theorem wakersOk_move {s : State} {t : Table Nat Waker} {w : Nat} {k : Waker} {pc : WakerPc}
    (h : WakersOk s) (hw : s.wakers.lookup w = some k) (ht : t = s.wakers.insert w { k with pc })
    (hok : k.Ok → ({ k with pc } : Waker).Ok) : ∀ v j, t.lookup v = some j → j.Ok :=
  wakersOk_insert h ht (hok (h w k hw))

private theorem wakersOk_wakerStep {s t : State} {l : Label} (h : WakersOk s)
    (hs : wakerStep maxConcurrent s l = some t) : WakersOk t := by
  cases wakerStep_effect hs with
  | startWaker | releaseSlot => exact wakersOk_insert h rfl (Nat.le_refl 1)
  | readSpare => exact wakersOk_insert h rfl (Nat.le_add_left 1 _)
  | pop w id k rest hw hpc | promote w id k hw hpc | refuse w id k hw hpc
  | discard w id k hw hpc =>
    refine wakersOk_move h hw rfl ?_
    simp only [Waker.Ok, hpc]
    exact fun hbudget => hbudget
  | deliver w id k recheck hw hpc _ =>
    have hrequest : WakersOk (setRequest s id (.queued .permit recheck)) := h
    exact wakersOk_afterDelivery hrequest hw hpc
  | nobodyWaits | cancelClosing | cancelPopped | cancelRefused | cancelEmpty =>
    exact wakersOk_erase h rfl

private theorem wakersOk_queueStep {s t : State} {l : Label} (h : WakersOk s)
    (hs : queueStep maxConcurrent s l = some t) : WakersOk t := by
  cases queueStep_effect hs with
  | readPending id waker channel available _ _ =>
    split
    · exact h
    · next hbudget => exact wakersOk_insert h rfl (Nat.one_le_iff_ne_zero.mpr hbudget)
  | _ => exact h

private theorem wakersOk_attemptStep {s t : State} {l : Label} (h : WakersOk s)
    (hs : attemptStep maxConcurrent s l = some t) : WakersOk t := by
  cases attemptStep_effect hs with
  | _ => exact h

private theorem wakersOk_serveStep {s t : State} {l : Label} (h : WakersOk s)
    (hs : serveStep s l = some t) : WakersOk t := by
  cases serveStep_effect hs with
  | finish | retry | park => exact wakersOk_insert h rfl trivial
  | dropChecking | dropTrying => exact wakersOk_insert h rfl (Nat.le_refl 1)
  | _ => exact h

private theorem wakersOk_instanceStep {s t : State} {l : Label} (h : WakersOk s)
    (hs : instanceStep s l = some t) : WakersOk t := by
  cases instanceStep_effect hs with
  | becomeReady => exact wakersOk_insert h rfl trivial
  | cancelDrain => exact wakersOk_insert h rfl (Nat.le_refl 1)
  | _ => exact h

/-- Every step keeps a wake with the running tasks. -/
theorem wakersOk_step {s t : State} {l : Label} (h : WakersOk s)
    (hs : step maxConcurrent s l = some t) : WakersOk t := by
  unfold step at hs
  split at hs
  all_goals first
    | exact wakersOk_queueStep h hs
    | exact wakersOk_attemptStep h hs
    | exact wakersOk_serveStep h hs
    | exact wakersOk_wakerStep h hs
    | exact wakersOk_instanceStep h hs

end Llamesh.Waiters
