import Mathlib.Data.List.Induction
import Mathlib.Order.Basic

/-!
# What is there first stays

General support: a program performs operations on a state and comes to a result. It may be cut off
after any of its operations and run again. In the order on states the later one still has what the
earlier one had. A family of programs, one for each input, settles the state when a whole run leaves
a state in which every run, whatever its input, does nothing more and comes to the same result.
-/

namespace Provisioning

universe u v w

variable {σ : Type u} {ο : Type v} {ε α β ι : Type w}

/-- The operations performed from a state, and the result. -/
abbrev Script (σ : Type u) (ο : Type v) (ε α : Type w) := σ → List ο × Except ε α

/-- The second program starts where the first one succeeded. -/
def Script.bind (apply : σ → ο → σ) (f : Script σ ο ε α) (g : α → Script σ ο ε β) :
    Script σ ο ε β := fun s =>
  match (f s).2 with
  | .error e => ((f s).1, .error e)
  | .ok a =>
    let t := (f s).1.foldl apply s
    ((f s).1 ++ (g a t).1, (g a t).2)

variable (apply : σ → ο → σ)

/-- The state after the first `k` operations. -/
def cut (f : Script σ ο ε α) (k : Nat) (s : σ) : σ := ((f s).1.take k).foldl apply s

/-- The state after all operations. -/
def after (f : Script σ ο ε α) (s : σ) : σ := (f s).1.foldl apply s

/-- One run after the other, each cut off somewhere. -/
def runs (F : ι → Script σ ο ε α) (starts : List (ι × Nat)) (s : σ) : σ :=
  starts.foldl (fun s start => cut apply (F start.1) start.2 s) s

variable {apply} {f : Script σ ο ε α} {g : α → Script σ ο ε β} {s : σ}

/-- A program that is cut after its last step ran to its end. -/
theorem cut_length : cut apply f (f s).1.length s = after apply f s := by
  rw [cut, List.take_length, after]

private theorem bind_error {e : ε} (h : (f s).2 = .error e) :
    f.bind apply g s = ((f s).1, .error e) := by
  simp only [Script.bind, h]

private theorem bind_ok {a : α} (h : (f s).2 = .ok a) :
    f.bind apply g s =
      ((f s).1 ++ (g a (after apply f s)).1, (g a (after apply f s)).2) := by
  simp only [Script.bind, h, after]

/-- The operations of a composed program end with those of its parts. -/
theorem after_bind_ok {a : α} (h : (f s).2 = .ok a) :
    after apply (f.bind apply g) s = after apply (g a) (after apply f s) := by
  rw [after, bind_ok h, List.foldl_append]
  rfl

/-- A composed program succeeds when both parts do. -/
theorem result_bind_eq_ok {b : β} :
    (f.bind apply g s).2 = .ok b ↔
      ∃ a, (f s).2 = .ok a ∧ (g a (after apply f s)).2 = .ok b := by
  cases h : (f s).2 with
  | error e => simp [bind_error h]
  | ok a => simp [bind_ok h]

/-- What both parts keep after any cut, the composed program keeps. -/
theorem cut_bind {P : σ → Prop} (hf : ∀ k s, P s → P (cut apply f k s))
    (hg : ∀ a k s, P s → P (cut apply (g a) k s)) (k : Nat) (s : σ) (hs : P s) :
    P (cut apply (f.bind apply g) k s) := by
  cases h : (f s).2 with
  | error e =>
    rw [cut, bind_error h]
    exact hf k s hs
  | ok a =>
    have hafter : P (after apply f s) := by
      rw [← cut_length]
      exact hf _ s hs
    rw [cut, bind_ok h, List.take_append, List.foldl_append]
    rcases Nat.le_total k (f s).1.length with hk | hk
    · -- cut off in the first part
      rw [Nat.sub_eq_zero_of_le hk, List.take_zero, List.foldl_nil]
      exact hf k s hs
    · rw [List.take_of_length_le hk]
      exact hg a _ _ hafter

/-- What every run keeps, a sequence of runs keeps. -/
theorem runs_induction {F : ι → Script σ ο ε α} {P : List ι → σ → Prop} (h₀ : P [] s)
    (hstep : ∀ is i k s, P is s → P (is ++ [i]) (cut apply (F i) k s))
    (starts : List (ι × Nat)) : P (starts.map (·.1)) (runs apply F starts s) := by
  induction starts using List.reverseRecOn with
  | nil => exact h₀
  | append_singleton starts start ih =>
    rw [List.map_append, List.map_singleton, runs, List.foldl_append, List.foldl_cons,
      List.foldl_nil]
    exact hstep _ _ _ _ ih

section

variable [Preorder σ]

/-- The programs only add to the state, and a whole run of a plain one settles it. -/
structure FirstStays (apply : σ → ο → σ) (plain : ι → Prop) (F : ι → Script σ ο ε α) : Prop where
  grows : ∀ i k s, s ≤ cut apply (F i) k s
  settled : ∀ {i j s t}, plain i → plain j → after apply (F i) s ≤ t → F j t = ([], (F i s).2)

variable {plain : ι → Prop} {F : ι → Script σ ο ε α} {G : ι → α → Script σ ο ε β}

/-- Programs in sequence settle what each of them settles. -/
theorem FirstStays.bind (hF : FirstStays apply plain F)
    (hG : ∀ a, FirstStays apply plain fun i => G i a) :
    FirstStays apply plain fun i => (F i).bind apply (G i) where
  grows i k s := cut_bind (P := fun t => s ≤ t) (fun k t ht => ht.trans (hF.grows i k t))
    (fun a k t ht => ht.trans ((hG a).grows i k t)) k s le_rfl
  settled := by
    intro i j s t hi hj ht
    cases h : (F i s).2 with
    | error e =>
      have hafter : after apply (F i) s ≤ t := by
        rw [after, bind_error h] at ht
        exact ht
      have hagain := hF.settled hi hj hafter
      have herror : (F j t).2 = .error e := by rw [hagain, h]
      rw [bind_error herror, bind_error h, hagain]
    | ok a =>
      rw [after_bind_ok h] at ht
      have hgrows : after apply (F i) s ≤ after apply (G i a) (after apply (F i) s) := by
        rw [← cut_length (f := G i a)]
        exact (hG a).grows i _ _
      have hagain := hF.settled hi hj (hgrows.trans ht)
      have hok : (F j t).2 = .ok a := by rw [hagain, h]
      have hstay : after apply (F j) t = t := by rw [after, hagain, List.foldl_nil]
      rw [bind_ok hok, bind_ok h, hstay, hagain, (hG a).settled hi hj ht, List.append_nil]

/-- Runs that are cut off anywhere only add to the state. -/
theorem FirstStays.le_runs (hF : FirstStays apply plain F) (starts : List (ι × Nat)) (s : σ) :
    s ≤ runs apply F starts s := by
  induction starts generalizing s with
  | nil => exact le_rfl
  | cons start starts ih => exact (hF.grows start.1 start.2 s).trans (ih _)

/-- After a whole plain run, whatever runs follow, a plain run does nothing and has its result. -/
theorem FirstStays.result_eq (hF : FirstStays apply plain F) {i j : ι} (hi : plain i)
    (hj : plain j) (s : σ) (starts : List (ι × Nat)) :
    F j (runs apply F starts (after apply (F i) s)) = ([], (F i s).2) :=
  hF.settled hi hj (hF.le_runs starts _)

end

end Provisioning
