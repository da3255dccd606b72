import Mathlib.Data.List.Basic

/-!
# Terminated pieces of a stream

General support: a stream cut at each terminator into the complete pieces and
the open piece after the last one. The cut of a longer stream is found from the
open piece of its first part, so a reader that keeps only that piece sees the
same pieces however the stream arrives.
-/

namespace Terminated

universe u

variable {α : Type u} [DecidableEq α] {sep : α}

/-- The complete pieces, without their terminator, and the open piece at the end. -/
def split (sep : α) : List α → List (List α) × List α
  | [] => ([], [])
  | a :: as =>
    if a = sep then ([] :: (split sep as).1, (split sep as).2)
    else match split sep as with
      | ([], rest) => ([], a :: rest)
      | (piece :: pieces, rest) => ((a :: piece) :: pieces, rest)

/-- The complete pieces of a stream. -/
def pieces (sep : α) (as : List α) : List (List α) := (split sep as).1

/-- What follows the last terminator. -/
def rest (sep : α) (as : List α) : List α := (split sep as).2

/-- No octets have no pieces. -/
@[simp] theorem pieces_nil : pieces sep [] = [] := rfl

/-- No octets leave no rest. -/
@[simp] theorem rest_nil : rest sep [] = [] := rfl

private theorem split_of_notMem {as : List α} (h : sep ∉ as) : split sep as = ([], as) := by
  induction as with
  | nil => rfl
  | cons a as ih =>
    obtain ⟨hne, has⟩ := List.ne_and_not_mem_of_not_mem_cons h
    rw [split, if_neg (Ne.symm hne), ih has]

private theorem split_append_cons {as : List α} (h : sep ∉ as) (bs : List α) :
    split sep (as ++ sep :: bs) = (as :: (split sep bs).1, (split sep bs).2) := by
  induction as with
  | nil => rw [List.nil_append, split, if_pos rfl]
  | cons a as ih =>
    obtain ⟨hne, has⟩ := List.ne_and_not_mem_of_not_mem_cons h
    rw [List.cons_append, split, if_neg (Ne.symm hne), ih has]

/-- A stream without a terminator has no complete piece. -/
theorem pieces_of_notMem {as : List α} (h : sep ∉ as) : pieces sep as = [] := by
  rw [pieces, split_of_notMem h]

/-- A stream without a terminator is one open piece. -/
theorem rest_of_notMem {as : List α} (h : sep ∉ as) : rest sep as = as := by
  rw [rest, split_of_notMem h]

/-- The first complete piece. -/
theorem pieces_append_cons {as : List α} (h : sep ∉ as) (bs : List α) :
    pieces sep (as ++ sep :: bs) = as :: pieces sep bs := by
  rw [pieces, split_append_cons h, pieces]

/-- A complete piece does not change what follows the last terminator. -/
theorem rest_append_cons {as : List α} (h : sep ∉ as) (bs : List α) :
    rest sep (as ++ sep :: bs) = rest sep bs := by
  rw [rest, split_append_cons h, rest]

private theorem split_append (as bs : List α) :
    split sep (as ++ bs) =
      (pieces sep as ++ pieces sep (rest sep as ++ bs), rest sep (rest sep as ++ bs)) := by
  induction as with
  | nil => rfl
  | cons a as ih =>
    rw [List.cons_append, split, ih]
    by_cases ha : a = sep
    · rw [if_pos ha]
      simp [pieces, rest, split, ha]
    · rw [if_neg ha]
      cases has : split sep as with
      | mk ps r =>
        have hps : pieces sep as = ps := by rw [pieces, has]
        have hr : rest sep as = r := by rw [rest, has]
        rw [hps, hr]
        cases ps with
        | nil =>
          have hcons : split sep (a :: as) = ([], a :: r) := by rw [split, if_neg ha, has]
          have hpieces : pieces sep (a :: as) = [] := by rw [pieces, hcons]
          have hrest : rest sep (a :: as) = a :: r := by rw [rest, hcons]
          rw [hpieces, hrest, List.nil_append, List.nil_append, List.cons_append]
          simp only [pieces, rest, split, if_neg ha]
        | cons p ps =>
          have hcons : split sep (a :: as) = ((a :: p) :: ps, r) := by rw [split, if_neg ha, has]
          have hpieces : pieces sep (a :: as) = (a :: p) :: ps := by rw [pieces, hcons]
          have hrest : rest sep (a :: as) = r := by rw [rest, hcons]
          rw [hpieces, hrest]
          rfl

/-- The pieces of a text are those of its beginning, and those of what is left with the end. -/
theorem pieces_append (as bs : List α) :
    pieces sep (as ++ bs) = pieces sep as ++ pieces sep (rest sep as ++ bs) := by
  rw [pieces, split_append]

/-- The rest of a text is that of what its beginning leaves with the end. -/
theorem rest_append (as bs : List α) :
    rest sep (as ++ bs) = rest sep (rest sep as ++ bs) := by
  rw [rest, split_append]

/-- No terminator is left open. -/
theorem sep_notMem_rest (as : List α) : sep ∉ rest sep as := by
  induction as with
  | nil => exact List.not_mem_nil
  | cons a as ih =>
    by_cases ha : a = sep
    · rw [rest, split, if_pos ha]
      exact ih
    · cases has : split sep as with
      | mk ps r =>
        rw [rest, has] at ih
        rw [rest, split, if_neg ha, has]
        cases ps with
        | nil => exact List.not_mem_cons_of_ne_of_not_mem (Ne.symm ha) ih
        | cons p ps => exact ih

/-- Nothing is open at the start and after a terminator. -/
theorem rest_eq_nil_iff (as : List α) : rest sep as = [] ↔ as = [] ∨ as.getLast? = some sep := by
  rcases List.eq_nil_or_concat as with rfl | ⟨front, c, rfl⟩
  · simp
  · rw [List.concat_eq_append, rest_append, List.getLast?_concat]
    by_cases hc : c = sep
    · subst hc
      rw [rest_append_cons (sep_notMem_rest front)]
      simp
    · have hopen : sep ∉ rest sep front ++ [c] := fun hmem =>
        (List.mem_append.mp hmem).elim (sep_notMem_rest front) fun hmem =>
          hc (List.mem_singleton.mp hmem).symm
      rw [rest_of_notMem hopen]
      simp [hc]

/-! ### Lines -/

/-- The pieces without their terminators, and the open one if there is something in it. -/
def lines (sep : α) (as : List α) : List (List α) :=
  pieces sep as ++ if rest sep as = [] then [] else [rest sep as]

/-- No octets have no lines. -/
@[simp] theorem lines_nil : lines sep [] = [] := rfl

private theorem lines_append_cons {as : List α} (h : sep ∉ as) (bs : List α) :
    lines sep (as ++ sep :: bs) = as :: lines sep bs := by
  rw [lines, pieces_append_cons h, rest_append_cons h, lines, List.cons_append]

private theorem lines_of_notMem {as : List α} (h : sep ∉ as) (hne : as ≠ []) : lines sep as =
    [as] := by
  rw [lines, pieces_of_notMem h, rest_of_notMem h, if_neg hne, List.nil_append]

/-- What follows a stream goes on in its open piece. -/
theorem lines_append (as bs : List α) :
    lines sep (as ++ bs) = pieces sep as ++ lines sep (rest sep as ++ bs) := by
  rw [lines, pieces_append, rest_append, List.append_assoc, lines]

/-- After a stream without an open piece, new lines begin. -/
theorem lines_append_of_rest {as : List α} (h : rest sep as = []) (bs : List α) :
    lines sep (as ++ bs) = lines sep as ++ lines sep bs := by
  have has : lines sep as = pieces sep as := by rw [lines, if_pos h, List.append_nil]
  rw [lines_append, h, List.nil_append, has]

/-- A stream that follows an open piece has its first line joined to it. -/
theorem length_lines_append_open {as bs : List α} (h : sep ∉ as) (hne : bs ≠ []) :
    (lines sep (as ++ bs)).length = (lines sep bs).length := by
  by_cases hmem : sep ∈ bs
  · obtain ⟨front, back, rfl, hfront⟩ := List.eq_append_cons_of_mem hmem
    have hjoined : sep ∉ as ++ front := fun hmem =>
      (List.mem_append.mp hmem).elim h hfront
    rw [← List.append_assoc, lines_append_cons hjoined, lines_append_cons hfront,
      List.length_cons, List.length_cons]
  · have hjoined : sep ∉ as ++ bs := fun hmem' => (List.mem_append.mp hmem').elim h hmem
    rw [lines_of_notMem hjoined (List.append_ne_nil_of_right_ne_nil as hne),
      lines_of_notMem hmem hne, List.length_singleton, List.length_singleton]

/-- As many lines as the two streams have only where the first one has no open piece. -/
theorem rest_eq_nil_of_length_lines {as bs : List α} (hne : bs ≠ [])
    (h : (lines sep (as ++ bs)).length = (lines sep as).length + (lines sep bs).length) :
    rest sep as = [] := by
  by_contra hrest
  have has : (lines sep as).length = (pieces sep as).length + 1 := by
    rw [lines, if_neg hrest, List.length_append, List.length_singleton]
  rw [lines_append, List.length_append, length_lines_append_open (sep_notMem_rest as) hne, has] at h
  omega

/-- The lines hold everything but the terminators. -/
theorem flatten_lines (as : List α) : (lines sep as).flatten = as.filter (· ≠ sep) := by
  induction hn : as.length using Nat.strongRecOn generalizing as with
  | _ n ih =>
    by_cases hmem : sep ∈ as
    · obtain ⟨front, back, rfl, hfront⟩ := List.eq_append_cons_of_mem hmem
      rw [List.length_append, List.length_cons] at hn
      rw [lines_append_cons hfront, List.flatten_cons, ih back.length (by omega) back rfl,
        List.filter_append, List.filter_cons_of_neg (by simp)]
      congr 1
      symm
      rw [List.filter_eq_self]
      intro c hc
      exact decide_eq_true fun heq => hfront (heq ▸ hc)
    · by_cases hnil : as = []
      · subst hnil
        rfl
      · rw [lines_of_notMem hmem hnil, List.flatten_singleton]
        symm
        rw [List.filter_eq_self]
        intro c hc
        exact decide_eq_true fun heq => hmem (heq ▸ hc)

end Terminated
