import Mathlib.Data.List.Basic
import Mathlib.Data.Set.Basic

/-!
# Self-delimiting encodings

General support: an encoding into lists whose end can be told from what follows
it. Fixed-width fields are self-delimiting, and so are payloads and sequences
written after their length; a concatenation of nonempty self-delimiting pieces
determines the pieces. The encoded values range over a set, so that a length
field of bounded width is covered.
-/

universe u v

variable {α : Type u} {β : Type v}

/-- Two encodings of values of `S` that agree up to what follows them are encodings of the same
value, with the same continuation. -/
def SelfDelimiting (S : Set α) (enc : α → List β) : Prop :=
  ∀ a ∈ S, ∀ b ∈ S, ∀ r s, enc a ++ r = enc b ++ s → a = b ∧ r = s

namespace SelfDelimiting

variable {S : Set α} {enc : α → List β}

/-- An injective encoding of one width. -/
theorem of_width {n : Nat} (hwidth : ∀ a ∈ S, (enc a).length = n) (hinj : Set.InjOn enc S) :
    SelfDelimiting S enc := by
  intro a ha b hb r s h
  obtain ⟨henc, hrest⟩ := List.append_inj h ((hwidth a ha).trans (hwidth b hb).symm)
  exact ⟨hinj ha hb henc, hrest⟩

variable {count : Nat → List β} {N : Set Nat}

/-- A payload after its length. -/
theorem prefixed {payload : α → List β} (hcount : SelfDelimiting N count)
    (hinj : Set.InjOn payload S) (hlength : ∀ a ∈ S, (payload a).length ∈ N) :
    SelfDelimiting S fun a => count (payload a).length ++ payload a := by
  intro a ha b hb r s h
  simp only [List.append_assoc] at h
  obtain ⟨hlen, hrest⟩ := hcount _ (hlength a ha) _ (hlength b hb) _ _ h
  obtain ⟨hpayload, hrest⟩ := List.append_inj hrest hlen
  exact ⟨hinj ha hb hpayload, hrest⟩

/-- Sequences of one length, element after element. -/
theorem flatMap_append (henc : SelfDelimiting S enc) {xs ys : List α}
    (hlength : xs.length = ys.length) (hx : ∀ x ∈ xs, x ∈ S) (hy : ∀ y ∈ ys, y ∈ S)
    {r s : List β} (h : xs.flatMap enc ++ r = ys.flatMap enc ++ s) : xs = ys ∧ r = s := by
  induction xs generalizing ys with
  | nil =>
    obtain rfl : ys = [] := List.length_eq_zero_iff.mp hlength.symm
    exact ⟨rfl, h⟩
  | cons x xs ih =>
    cases ys with
    | nil => cases hlength
    | cons y ys =>
      simp only [List.flatMap_cons, List.append_assoc] at h
      obtain ⟨rfl, hrest⟩ := henc x (hx x List.mem_cons_self) y (hy y List.mem_cons_self) _ _ h
      obtain ⟨rfl, hend⟩ := ih (Nat.succ.inj hlength)
        (fun z hz => hx z (List.mem_cons_of_mem x hz))
        (fun z hz => hy z (List.mem_cons_of_mem x hz)) hrest
      exact ⟨rfl, hend⟩

/-- A sequence after the number of its elements. -/
theorem counted (hcount : SelfDelimiting N count) (henc : SelfDelimiting S enc) :
    SelfDelimiting {xs : List α | xs.length ∈ N ∧ ∀ x ∈ xs, x ∈ S}
      fun xs => count xs.length ++ xs.flatMap enc := by
  intro xs hx ys hy r s h
  simp only [List.append_assoc] at h
  obtain ⟨hlen, hrest⟩ := hcount _ hx.1 _ hy.1 _ _ h
  exact henc.flatMap_append hlen hx.2 hy.2 hrest

/-- A concatenation of nonempty self-delimiting pieces determines the pieces. -/
theorem flatMap_injOn (henc : SelfDelimiting S enc) (hne : ∀ a ∈ S, enc a ≠ []) :
    Set.InjOn (List.flatMap enc) {xs : List α | ∀ x ∈ xs, x ∈ S} := by
  intro xs hx ys hy h
  induction xs generalizing ys with
  | nil =>
    cases ys with
    | nil => rfl
    | cons y ys =>
      refine absurd ?_ (hne y (hy y List.mem_cons_self))
      exact (List.append_eq_nil_iff.mp h.symm).1
  | cons x xs ih =>
    have hx' : x ∈ S := hx x List.mem_cons_self
    cases ys with
    | nil => exact absurd (List.append_eq_nil_iff.mp h).1 (hne x hx')
    | cons y ys =>
      obtain ⟨rfl, hrest⟩ := henc x hx' y (hy y List.mem_cons_self) _ _ h
      rw [ih (fun z hz => hx z (List.mem_cons_of_mem x hz))
        (fun z hz => hy z (List.mem_cons_of_mem x hz)) hrest]

end SelfDelimiting
