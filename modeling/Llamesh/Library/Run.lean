import Mathlib.Data.List.Induction

/-!
# Runs of partial labelled steps

General support: a system is a partial step function from a state and a label.
`exec` runs a list of labels, and a disabled label ends the run. The induction
rules give what a single step preserves to every run, also for invariants that
read the labels taken so far and for runs whose steps all meet a condition.
-/

namespace Transition

universe u v

variable {σ : Type u} {α : Type v}

/-- Run the labels in order; the result is `none` when one of them is disabled. -/
def exec (step : σ → α → Option σ) : σ → List α → Option σ
  | s, [] => some s
  | s, a :: as => (step s a).bind fun t => exec step t as

/-- The states some run from `s` ends in. -/
def Reachable (step : σ → α → Option σ) (s t : σ) : Prop :=
  ∃ as, exec step s as = some t

/-- Every step of the run from `s` meets `C` in the state it is taken from. -/
def Along (step : σ → α → Option σ) (C : σ → α → Prop) : σ → List α → Prop
  | _, [] => True
  | s, a :: as => C s a ∧ ∀ t, step s a = some t → Along step C t as

/-- The executable form of `Along` for a Boolean condition. -/
def checkAlong (step : σ → α → Option σ) (c : σ → α → Bool) : σ → List α → Bool
  | _, [] => true
  | s, a :: as => c s a && (step s a).all fun t => checkAlong step c t as

/-- A state that is only offered when the guard holds. -/
def guarded (p : Prop) [Decidable p] (s : σ) : Option σ := if p then some s else none

/-- What a guarded step gives. -/
@[simp] theorem guarded_eq_some {p : Prop} [Decidable p] {s t : σ} :
    guarded p s = some t ↔ p ∧ s = t := by
  unfold guarded
  split
  · next h => simp [h]
  · next h => simp [h]

variable {step : σ → α → Option σ}

/-- The empty run stays. -/
@[simp] theorem exec_nil (s : σ) : exec step s [] = some s := rfl

/-- A run that starts with `a` takes that step first. -/
theorem exec_cons (s : σ) (a : α) (as : List α) :
    exec step s (a :: as) = (step s a).bind fun t => exec step t as := rfl

/-- A nonempty run splits into its first step and the rest. -/
theorem exec_cons_eq_some {s u : σ} {a : α} {as : List α} :
    exec step s (a :: as) = some u ↔ ∃ t, step s a = some t ∧ exec step t as = some u := by
  rw [exec_cons, Option.bind_eq_some_iff]

/-- Runs compose. -/
theorem exec_append (s : σ) (as bs : List α) :
    exec step s (as ++ bs) = (exec step s as).bind fun t => exec step t bs := by
  induction as generalizing s with
  | nil => rfl
  | cons a as ih =>
    simp only [List.cons_append, exec_cons]
    cases step s a with
    | none => rfl
    | some t => exact ih t

/-- A composed run passes through the end of its first part. -/
theorem exec_append_eq_some {s u : σ} {as bs : List α} :
    exec step s (as ++ bs) = some u ↔ ∃ t, exec step s as = some t ∧ exec step t bs = some u := by
  rw [exec_append, Option.bind_eq_some_iff]

/-- A run that ends in a step splits off that step. -/
theorem exec_concat_eq_some {s u : σ} {as : List α} {a : α} :
    exec step s (as ++ [a]) = some u ↔ ∃ t, exec step s as = some t ∧ step t a = some u := by
  rw [exec_append_eq_some]
  simp [exec_cons]

/-- A step leads to a reachable state. -/
theorem Reachable.tail {s t u : σ} {a : α} (h : Reachable step s t) (ha : step t a = some u) :
    Reachable step s u := by
  obtain ⟨as, has⟩ := h
  exact ⟨as ++ [a], exec_concat_eq_some.mpr ⟨t, has, ha⟩⟩

/-- The condition on a composed run is the condition on both parts. -/
theorem along_append {C : σ → α → Prop} {s t : σ} {as bs : List α}
    (ht : exec step s as = some t) :
    Along step C s (as ++ bs) ↔ Along step C s as ∧ Along step C t bs := by
  induction as generalizing s with
  | nil =>
    obtain rfl : s = t := by simpa using ht
    simp [Along]
  | cons a as ih =>
    obtain ⟨m, hm, hr⟩ := exec_cons_eq_some.mp ht
    simp only [List.cons_append, Along, hm, Option.some.injEq, forall_eq', ih hr, and_assoc]

/-- A checked run meets its condition. -/
theorem along_of_checkAlong {c : σ → α → Bool} {s : σ} {as : List α}
    (h : checkAlong step c s as = true) : Along step (fun s a => c s a = true) s as := by
  induction as generalizing s with
  | nil => trivial
  | cons a as ih =>
    simp only [checkAlong, Bool.and_eq_true] at h
    refine ⟨h.1, fun t ht => ih ?_⟩
    simpa [ht] using h.2

/-- A condition on the labels alone, checked label by label. -/
theorem along_of_forall_mem {P : α → Prop} {as : List α} (h : ∀ a ∈ as, P a) (s : σ) :
    Along step (fun _ a => P a) s as := by
  induction as generalizing s with
  | nil => trivial
  | cons a as ih =>
    refine ⟨h a List.mem_cons_self, fun t _ => ih ?_ t⟩
    exact fun b hb => h b (List.mem_cons_of_mem a hb)

/-- Every run meets the trivial condition. -/
theorem along_true (s : σ) (as : List α) : Along step (fun _ _ => True) s as := by
  induction as generalizing s with
  | nil => trivial
  | cons a as ih => exact ⟨trivial, fun t _ => ih t⟩

/-- Weakening the condition on the steps of a run. -/
theorem Along.mono {C D : σ → α → Prop} (hCD : ∀ s a, C s a → D s a) {s : σ} {as : List α}
    (h : Along step C s as) : Along step D s as := by
  induction as generalizing s with
  | nil => trivial
  | cons a as ih => exact ⟨hCD s a h.1, fun t ht => ih (h.2 t ht)⟩

/-- Induction on the last step, for invariants that may read the labels taken so far. -/
theorem exec_trace_invariant {C : σ → α → Prop} {P : List α → σ → Prop} {s₀ : σ}
    (h₀ : P [] s₀)
    (hstep : ∀ as s a t, exec step s₀ as = some s → P as s → C s a → step s a = some t →
      P (as ++ [a]) t) :
    ∀ as t, Along step C s₀ as → exec step s₀ as = some t → P as t := by
  intro as
  induction as using List.reverseRecOn with
  | nil =>
    intro t _ ht
    obtain rfl : s₀ = t := by simpa using ht
    exact h₀
  | append_singleton as a ih =>
    intro t hc ht
    obtain ⟨s, hs, ha⟩ := exec_concat_eq_some.mp ht
    have hp := (along_append hs).mp hc
    exact hstep as s a t hs (ih s hp.1 hs) hp.2.1 ha

/-- What every step that meets `C` preserves, a run of such steps preserves. -/
theorem exec_invariant_along {C : σ → α → Prop} {P : σ → Prop}
    (hstep : ∀ s a t, P s → C s a → step s a = some t → P t) {s t : σ} {as : List α}
    (hs : P s) (hc : Along step C s as) (h : exec step s as = some t) : P t :=
  exec_trace_invariant (P := fun _ s => P s) hs
    (fun _ s a t _ hi hca ha => hstep s a t hi hca ha) as t hc h

/-- What every step preserves, every run preserves. -/
theorem exec_invariant {P : σ → Prop}
    (hstep : ∀ s a t, P s → step s a = some t → P t) {s t : σ} {as : List α}
    (hs : P s) (h : exec step s as = some t) : P t := by
  induction as generalizing s with
  | nil =>
    obtain rfl : s = t := by simpa using h
    exact hs
  | cons a as ih =>
    obtain ⟨m, hm, hr⟩ := exec_cons_eq_some.mp h
    exact ih (hstep s a m hs hm) hr

/-- An invariant of the initial state holds in every reachable state. -/
theorem Reachable.invariant {P : σ → Prop}
    (hstep : ∀ s a t, P s → step s a = some t → P t) {s t : σ} (hs : P s)
    (h : Reachable step s t) : P t := by
  obtain ⟨as, has⟩ := h
  exact exec_invariant hstep hs has

end Transition
