import Llamesh.Library.Text
import Llamesh.Library.Utf8
import Llamesh.Library.Octets

/-!
# Heads of lines ended by CRLF

A head is written as lines, each ended by a carriage return and a line feed, and an empty line; a
body of any octets may follow. The head ends at the first CRLFCRLF of the octets, and its lines
read back, when every line is non-empty and holds no line feed: the body is never searched.
-/

namespace Crlf

open Text Octets

/-- The end of a line. -/
def crlf : List Char := ['\r', '\n']

/-- The octets between a head and what follows it. -/
def boundary : List UInt8 := [13, 10, 13, 10]

/-- What a head may have as a line. -/
def IsLine (line : List Char) : Prop := line ≠ [] ∧ '\n' ∉ line

/-- The offset of the first boundary. -/
def findBoundary (data : List UInt8) : Option Nat :=
  (windows 4 data).findIdx? (· = boundary)

/-! ## The search -/

private theorem findBoundary_cons (b : UInt8) (data : List UInt8) :
    findBoundary (b :: data) =
      if (b :: data).take 4 = boundary then some 0 else (findBoundary data).map (· + 1) := by
  unfold findBoundary
  by_cases hlength : 4 ≤ data.length + 1
  · rw [windows, if_pos hlength, List.findIdx?_cons]
    simp only [decide_eq_true_eq]
  · -- Fewer than four octets are left: no window, here or further on.
    have hshort : windows 4 data = [] := by
      cases data with
      | nil => rfl
      | cons c data =>
        rw [List.length_cons] at hlength
        rw [windows, if_neg (by omega)]
    have hne : (b :: data).take 4 ≠ boundary := by
      intro heq
      have hfour := congrArg List.length heq
      simp only [List.length_take, List.length_cons, boundary, List.length_nil] at hfour
      omega
    rw [windows, if_neg hlength, if_neg hne, hshort]
    rfl

private theorem findBoundary_line {line : List UInt8} (h : 10 ∉ line) (rest : List UInt8) :
    findBoundary (line ++ 13 :: 10 :: rest) =
      if rest.take 2 = [13, 10] then some line.length
      else (findBoundary rest).map (· + (line.length + 2)) := by
  induction line with
  | nil =>
    have hwindow : (13 :: 10 :: rest).take 4 = boundary ↔ rest.take 2 = [13, 10] := by
      simp [boundary]
    have hskip : findBoundary (10 :: rest) = (findBoundary rest).map (· + 1) := by
      rw [findBoundary_cons, if_neg (by simp [boundary])]
    rw [List.nil_append, findBoundary_cons, hskip]
    by_cases hempty : rest.take 2 = [13, 10]
    · rw [if_pos (hwindow.mpr hempty), if_pos hempty, List.length_nil]
    · rw [if_neg (hwindow.not.mpr hempty), if_neg hempty, Option.map_map]
      rfl
  | cons b line ih =>
    have hline : 10 ∉ line := fun hmem => h (List.mem_cons_of_mem b hmem)
    -- The second octet of the window is not a line feed.
    have hne : (b :: (line ++ 13 :: 10 :: rest)).take 4 ≠ boundary := by
      cases line with
      | nil => simp [boundary]
      | cons c line =>
        have hc : c ≠ 10 := fun heq => hline (heq ▸ List.mem_cons_self)
        simp [boundary, hc]
    rw [List.cons_append, findBoundary_cons, if_neg hne, ih hline]
    by_cases hempty : rest.take 2 = [13, 10]
    · rw [if_pos hempty, if_pos hempty, Option.map_some, List.length_cons]
    · rw [if_neg hempty, if_neg hempty, Option.map_map, List.length_cons]
      rfl

private theorem newline_notMem_utf8EncodeChar {c : Char} (hc : c ≠ '\n') :
    10 ∉ String.utf8EncodeChar c := by
  have hne : c.toNat ≠ 10 := fun heq => hc (Char.toNat_inj.mp heq)
  have hsmall : ∀ n : Nat, n < 256 → n ≠ 10 → (10 : UInt8) ≠ UInt8.ofNat n := by
    intro n hn hten heq
    have htoNat := congrArg UInt8.toNat heq
    rw [UInt8.toNat_ofNat', Nat.mod_eq_of_lt hn] at htoNat
    exact hten htoNat.symm
  have hval : c.val.toNat = c.toNat := rfl
  simp only [String.utf8EncodeChar, hval]
  intro hmem
  split at hmem
  · next hle =>
    rw [List.mem_singleton] at hmem
    exact hsmall _ (by omega) hne hmem
  · split at hmem
    · simp only [List.mem_cons, List.not_mem_nil, or_false] at hmem
      rcases hmem with hmem | hmem <;> exact hsmall _ (by omega) (by omega) hmem
    · split at hmem
      · simp only [List.mem_cons, List.not_mem_nil, or_false] at hmem
        rcases hmem with hmem | hmem | hmem <;> exact hsmall _ (by omega) (by omega) hmem
      · simp only [List.mem_cons, List.not_mem_nil, or_false] at hmem
        rcases hmem with hmem | hmem | hmem | hmem <;> exact hsmall _ (by omega) (by omega) hmem

private theorem newline_notMem_utf8Encode {line : List Char} (h : '\n' ∉ line) :
    10 ∉ utf8Encode line := by
  intro hmem
  obtain ⟨c, hc, hbyte⟩ := List.mem_flatMap.mp hmem
  exact newline_notMem_utf8EncodeChar (fun heq => h (heq ▸ hc)) hbyte

private theorem utf8Encode_line (line : List Char) (rest : List Char) :
    utf8Encode (line ++ crlf ++ rest) = utf8Encode line ++ 13 :: 10 :: utf8Encode rest := by
  simp only [utf8Encode, List.flatMap_append, List.append_assoc]
  rfl

/-! ## Heads -/

/-- The lines of a head, each ended by CRLF, are the lines between CRLFs and one more CRLF. -/
theorem flatMap_crlf (line : List Char) (lines : List (List Char)) :
    (line :: lines).flatMap (· ++ crlf) = crlf.intercalate (line :: lines) ++ crlf := by
  induction lines generalizing line with
  | nil => simp
  | cons next lines ih =>
    rw [List.flatMap_cons, ih next, List.intercalate_cons_cons]
    simp

/-- The octets of a head: its lines between CRLFs, then the boundary. -/
theorem utf8Encode_head (line : List Char) (lines : List (List Char)) :
    utf8Encode ((line :: lines).flatMap (· ++ crlf) ++ crlf) =
      utf8Encode (crlf.intercalate (line :: lines)) ++ boundary := by
  rw [flatMap_crlf]
  simp only [utf8Encode, List.flatMap_append, List.append_assoc]
  rfl

/-- The lines of a head read back. -/
theorem lines_intercalate {lines : List (List Char)} (h : ∀ line ∈ lines, IsLine line) :
    Text.lines (crlf.intercalate lines) = lines := by
  induction lines with
  | nil => rfl
  | cons line lines ih =>
    have hline := h line List.mem_cons_self
    have hlines := ih fun other hother => h other (List.mem_cons_of_mem line hother)
    cases lines with
    | nil =>
      rw [List.intercalate_singleton]
      exact lines_of_no_newline hline.1 hline.2
    | cons next lines =>
      rw [List.intercalate_cons_cons, List.append_assoc]
      show Text.lines (line ++ '\r' :: '\n' :: crlf.intercalate (next :: lines)) = _
      rw [lines_append_crlf hline.2, hlines]

private theorem take_utf8Encode_line {line : List Char} (h : IsLine line) (rest : List UInt8) :
    (utf8Encode line ++ 13 :: rest).take 2 ≠ [13, 10] := by
  have hnewline := newline_notMem_utf8Encode h.2
  cases hoctets : utf8Encode line with
  | nil =>
    cases line with
    | nil => exact absurd rfl h.1
    | cons c line =>
      rw [utf8Encode, List.flatMap_cons, List.append_eq_nil_iff] at hoctets
      exact absurd hoctets.1 (String.utf8EncodeChar_ne_nil)
  | cons b octets =>
    rw [hoctets] at hnewline
    cases octets with
    | nil => simp
    | cons c octets =>
      have hc : c ≠ 10 := by
        rintro rfl
        exact hnewline (by simp)
      simp [hc]

/-- The search stops where the head ends, whatever follows. -/
theorem findBoundary_head (line : List Char) (lines : List (List Char))
    (h : ∀ other ∈ line :: lines, IsLine other) (body : List UInt8) :
    findBoundary (utf8Encode (crlf.intercalate (line :: lines)) ++ boundary ++ body) =
      some (utf8Encode (crlf.intercalate (line :: lines))).length := by
  induction lines generalizing line with
  | nil =>
    have hline := h line List.mem_cons_self
    have hdata : utf8Encode (crlf.intercalate [line]) ++ boundary ++ body =
        utf8Encode line ++ 13 :: 10 :: 13 :: 10 :: body := by
      simp [boundary]
    rw [hdata, findBoundary_line (newline_notMem_utf8Encode hline.2), if_pos (by simp),
      List.intercalate_singleton]
  | cons next lines ih =>
    have hline := h line List.mem_cons_self
    have hnext := h next (List.mem_cons_of_mem line List.mem_cons_self)
    have hrest := ih next fun other hother => h other (List.mem_cons_of_mem line hother)
    have htext : utf8Encode (crlf.intercalate (line :: next :: lines)) =
        utf8Encode line ++ 13 :: 10 :: utf8Encode (crlf.intercalate (next :: lines)) := by
      rw [List.intercalate_cons_cons, utf8Encode_line]
    -- The next line starts the rest of the head, so no empty line does.
    have hopen : ∃ rest, utf8Encode (crlf.intercalate (next :: lines)) ++ boundary ++ body =
        utf8Encode next ++ 13 :: rest := by
      cases lines with
      | nil => exact ⟨10 :: 13 :: 10 :: body, by simp [boundary]⟩
      | cons last lines =>
        refine ⟨10 :: (utf8Encode (crlf.intercalate (last :: lines)) ++ boundary ++ body), ?_⟩
        rw [List.intercalate_cons_cons, utf8Encode_line]
        simp
    obtain ⟨rest, hopen⟩ := hopen
    have hdata : utf8Encode (crlf.intercalate (line :: next :: lines)) ++ boundary ++ body =
        utf8Encode line ++ 13 :: 10 ::
          (utf8Encode (crlf.intercalate (next :: lines)) ++ boundary ++ body) := by
      rw [htext]
      simp
    have hfull : (utf8Encode (crlf.intercalate (next :: lines)) ++ boundary ++ body).take 2 ≠
        [13, 10] := by
      rw [hopen]
      exact take_utf8Encode_line hnext rest
    rw [hdata, findBoundary_line (newline_notMem_utf8Encode hline.2), if_neg hfull, hrest, htext]
    simp only [Option.map_some, List.length_append, List.length_cons]
    congr 1
    omega

/-- What stands before the boundary, and after its four octets. -/
theorem take_drop_boundary (head body : List UInt8) :
    (head ++ boundary ++ body).take head.length = head ∧
      (head ++ boundary ++ body).drop (head.length + 4) = body := by
  have hlength : head.length + 4 = (head ++ boundary).length := by
    rw [List.length_append]
    rfl
  constructor
  · rw [List.append_assoc, List.take_left]
  · rw [hlength, List.drop_left]

end Crlf
