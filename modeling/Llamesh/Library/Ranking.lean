import Mathlib.Data.List.Basic
import Mathlib.Order.Lattice

/-!
# The best of a list

General support: the first element of a list after a stable sort. It is the first of the smallest
elements, so it stays the best when others are taken out; and two choices that each leave out what
the other chose come back to each other.
-/

namespace Ranking

universe u v

variable {α : Type u} {le : α → α → Bool}

/-- The first element of the list after a stable sort. -/
def best (le : α → α → Bool) (l : List α) : Option α := (l.mergeSort le).head?

/-- A preference: any two elements compare, and comparisons compose. -/
structure Preference (le : α → α → Bool) : Prop where
  trans : ∀ a b c, le a b = true → le b c = true → le a c = true
  total : ∀ a b, (le a b || le b a) = true

/-- Smaller keys first. -/
theorem Preference.of_key {β : Type v} [LinearOrder β] (key : α → β) :
    Preference fun a b => decide (key a ≤ key b) where
  trans a b c hab hbc := by
    rw [decide_eq_true_eq] at *
    exact le_trans hab hbc
  total a b := by
    rw [Bool.or_eq_true, decide_eq_true_eq, decide_eq_true_eq]
    exact le_total _ _

/-- Sorting by scores that stand beside the elements is sorting by the scores. -/
theorem best_scored {β : Type v} [LinearOrder β] (key : α → β) (l : List α) :
    ((l.map fun c => (c, key c)).mergeSort fun a b => decide (a.2 ≤ b.2)).head?.map (·.1) =
      best (fun a b => decide (key a ≤ key b)) l := by
  have hmap : (l.mergeSort fun a b => decide (key a ≤ key b)).map (fun c => (c, key c)) =
      (l.map fun c => (c, key c)).mergeSort fun a b => decide (a.2 ≤ b.2) :=
    List.map_mergeSort fun a _ b _ => rfl
  rw [← hmap, List.head?_map, Option.map_map]
  exact Option.map_id'

/-- The best is an element. -/
theorem mem_of_best {l : List α} {m : α} (h : best le l = some m) : m ∈ l :=
  List.mem_mergeSort.mp (List.mem_of_mem_head? h)

/-- A list with an element has a best. -/
theorem exists_best (le : α → α → Bool) {l : List α} {a : α} (h : a ∈ l) :
    ∃ m, best le l = some m := by
  rw [← Option.isSome_iff_exists, best, List.isSome_head?, ← List.length_pos_iff,
    List.length_mergeSort]
  exact List.length_pos_of_mem h

section Preference

variable (hle : Preference le)

include hle

/-- A preference holds between an element and itself. -/
theorem Preference.refl (a : α) : le a a = true := by
  have h := hle.total a a
  rwa [Bool.or_self] at h

/-- Sorting keeps the order of the elements that are all no larger than another. -/
theorem filter_mergeSort {l : List α} {m : α} (hm : ∀ x ∈ l, le m x = true) :
    l.filter (fun x => le x m) = (l.mergeSort le).filter fun x => le x m := by
  have hsorted : (l.filter fun x => le x m).Pairwise fun a b => le a b = true := by
    apply List.pairwise_of_forall_mem_list
    intro a ha b hb
    exact hle.trans a m b (List.mem_filter.mp ha).2 (hm b (List.mem_filter.mp hb).1)
  have hsub := List.sublist_mergeSort hle.trans hle.total hsorted List.filter_sublist
  have hsub' := hsub.filter fun x => le x m
  rw [List.filter_filter, List.filter_congr fun x _ => Bool.and_self (le x m)] at hsub'
  apply hsub'.eq_of_length
  exact ((List.mergeSort_perm l le).filter fun x => le x m).length_eq.symm

/-- The best is no larger than any element, and the first of those that are no larger than it. -/
theorem best_eq_some_iff {l : List α} {m : α} :
    best le l = some m ↔ l.find? (fun x => le x m) = some m ∧ ∀ x ∈ l, le m x = true := by
  have hforth : ∀ {m}, best le l = some m →
      l.find? (fun x => le x m) = some m ∧ ∀ x ∈ l, le m x = true := by
    intro m h
    obtain ⟨rest, hrest⟩ := List.head?_eq_some_iff.mp h
    have hmin : ∀ x ∈ l, le m x = true := by
      intro x hx
      have hpair := List.pairwise_mergeSort hle.trans hle.total l
      rw [hrest, List.pairwise_cons] at hpair
      have hx' : x ∈ l.mergeSort le := List.mem_mergeSort.mpr hx
      rw [hrest] at hx'
      obtain rfl | hx' := List.mem_cons.mp hx'
      · exact hle.refl x
      · exact hpair.1 x hx'
    refine ⟨?_, hmin⟩
    rw [← List.head?_filter, filter_mergeSort hle hmin, hrest,
      List.filter_cons_of_pos (p := fun x => le x m) (hle.refl m), List.head?_cons]
  refine ⟨hforth, ?_⟩
  rintro ⟨hfind, hmin⟩
  have hmem := List.mem_of_find?_eq_some hfind
  obtain ⟨b, hb⟩ := exists_best le hmem
  obtain ⟨hbfind, hbmin⟩ := hforth hb
  -- both are smallest, so the same elements are no larger than them
  have hsame : (fun x => le x m) = fun x => le x b := by
    funext x
    rw [Bool.eq_iff_iff]
    constructor
    · intro hx
      exact hle.trans x m b hx (hmin b (mem_of_best hb))
    · intro hx
      exact hle.trans x b m hx (hbmin m hmem)
  rw [hsame, hbfind] at hfind
  rw [hb, hfind]

/-- Taking others out of the end of the list leaves the best. -/
theorem best_append_filter {l₁ l₂ : List α} {m : α} {p : α → Bool}
    (h : best le (l₁ ++ l₂) = some m) (hp : p m = true) :
    best le (l₁ ++ l₂.filter p) = some m := by
  obtain ⟨hfind, hmin⟩ := (best_eq_some_iff hle).mp h
  apply (best_eq_some_iff hle).mpr
  constructor
  · rw [List.find?_append] at hfind ⊢
    cases hfirst : l₁.find? fun x => le x m with
    | some x =>
      rw [hfirst, Option.some_or] at hfind
      rw [Option.some_or, hfind]
    | none =>
      rw [hfirst, Option.none_or] at hfind
      rw [Option.none_or, List.find?_filter]
      obtain ⟨hm, front, back, rfl, hbefore⟩ := List.find?_eq_some_iff_append.mp hfind
      rw [List.find?_eq_some_iff_append]
      refine ⟨by simp [hp, hm], front, back, rfl, ?_⟩
      intro x hx
      simp [hbefore x hx]
  · intro x hx
    apply hmin
    obtain hx | hx := List.mem_append.mp hx
    · exact List.mem_append_left _ hx
    · exact List.mem_append_right _ (List.mem_filter.mp hx).1

variable {κ : Type v} [DecidableEq κ]

/-- Leaving out a key from the end of the list, choosing, leaving out the key of the choice instead
and choosing again: the next such round chooses the first choice once more. -/
theorem best_alternates {l₁ l₂ : List α} {key : α → κ} {e : Option κ} {p q : α}
    (hp : best le (l₁ ++ l₂.filter fun c => decide (some (key c) ≠ e)) = some p)
    (hq : best le (l₁ ++ l₂.filter fun c => decide (some (key c) ≠ some (key p))) = some q)
    (hpe : some (key p) ≠ e) (hqp : key q ≠ key p) :
    best le (l₁ ++ l₂.filter fun c => decide (some (key c) ≠ some (key q))) = some p := by
  have hmem : p ∈ l₁ ++ l₂ := by
    obtain h | h := List.mem_append.mp (mem_of_best hp)
    · exact List.mem_append_left _ h
    · exact List.mem_append_right _ (List.mem_filter.mp h).1
  obtain ⟨b, hb⟩ := exists_best le hmem
  by_cases hbe : some (key b) = e
  · -- the best of all was left out first, so it is the second choice
    have hbp : some (key b) ≠ some (key p) := fun h => hpe (h.symm.trans hbe)
    have hbq := best_append_filter hle hb (p := fun c => decide (some (key c) ≠ some (key p)))
      (decide_eq_true hbp)
    rw [hq] at hbq
    obtain rfl := Option.some.inj hbq
    rw [hbe]
    exact hp
  · have hbp := best_append_filter hle hb (p := fun c => decide (some (key c) ≠ e))
      (decide_eq_true hbe)
    rw [hp] at hbp
    obtain rfl := Option.some.inj hbp
    apply best_append_filter hle hb
    apply decide_eq_true
    intro h
    exact hqp (Option.some.inj h).symm

end Preference

end Ranking
