import Mathlib.Data.List.Basic

/-!
# Buffered readers

General support: a reader that hands out a part of what is still to be read and
is told how much of it was used, whatever parts it chooses.
-/

universe u v w

/-- A reader in states `ρ`, of a stream that ends, or ends in an error. While there is something to
read, it hands out a non-empty part of it, and consuming some of that part moves on by so much. -/
structure BufRead (β : Type u) (ρ : Type v) (ε : Type w) where
  fillBuf : ρ → Except ε (List β) × ρ
  consume : Nat → ρ → ρ
  rest : ρ → List β
  failure : Option ε
  fill_end : ∀ r, rest r = [] →
    (fillBuf r).1 = failure.elim (.ok []) .error ∧ rest (fillBuf r).2 = []
  fill_part : ∀ r, rest r ≠ [] → ∃ part after, fillBuf r = (.ok part, after) ∧ part ≠ [] ∧
    part <+: rest r ∧ ∀ n ≤ part.length, rest (consume n after) = (rest r).drop n

namespace BufRead

variable {β : Type u} {ρ : Type v} {ε : Type w}

/-- A non-empty part that is handed out is one of what is still to be read. -/
theorem rest_eq_of_fillBuf (reader : BufRead β ρ ε) {r after : ρ} {part : List β}
    (h : reader.fillBuf r = (.ok part, after)) (hpart : part ≠ []) :
    ∃ more, reader.rest r = part ++ more ∧
      ∀ n ≤ part.length, reader.rest (reader.consume n after) = (reader.rest r).drop n := by
  by_cases hrest : reader.rest r = []
  · have hend := (reader.fill_end r hrest).1
    rw [h] at hend
    cases hfailure : reader.failure with
    | none =>
      rw [hfailure] at hend
      exact absurd (Except.ok.inj hend) hpart
    | some e =>
      rw [hfailure] at hend
      cases hend
  · obtain ⟨part', after', hfill, -, ⟨more, hmore⟩, hconsume⟩ := reader.fill_part r hrest
    obtain ⟨hpart', rfl⟩ := Prod.mk.inj (h.symm.trans hfill)
    obtain rfl := Except.ok.inj hpart'
    exact ⟨more, hmore.symm, hconsume⟩

/-! ### A stream in chunks -/

/-- A list of non-empty chunks. -/
abbrev Chunks (β : Type u) := { chunks : List (List β) // ∀ chunk ∈ chunks, chunk ≠ [] }

/-- Put what is left of a chunk in front again. -/
def Chunks.push (chunk : List β) (chunks : Chunks β) : Chunks β :=
  if h : chunk = [] then chunks
  else ⟨chunk :: chunks.1, List.forall_mem_cons.mpr ⟨h, chunks.2⟩⟩

private theorem Chunks.flatten_push (chunk : List β) (chunks : Chunks β) :
    (chunks.push chunk).1.flatten = chunk ++ chunks.1.flatten := by
  unfold Chunks.push
  split
  · next h => rw [h, List.nil_append]
  · rfl

/-- The reader that hands out the first chunk until it is consumed. -/
def ofChunks : BufRead β (Chunks β) ε where
  fillBuf chunks := (.ok (chunks.1.headD []), chunks)
  consume n chunks :=
    match chunks with
    | ⟨[], h⟩ => ⟨[], h⟩
    | ⟨chunk :: more, h⟩ => Chunks.push (chunk.drop n) ⟨more, (List.forall_mem_cons.mp h).2⟩
  rest chunks := chunks.1.flatten
  failure := none
  fill_end := by
    rintro ⟨chunks, h⟩ hrest
    refine ⟨?_, hrest⟩
    cases chunks with
    | nil => rfl
    | cons chunk more =>
      rw [List.flatten_cons, List.append_eq_nil_iff] at hrest
      exact absurd hrest.1 (h chunk List.mem_cons_self)
  fill_part := by
    rintro ⟨chunks, h⟩ hrest
    cases chunks with
    | nil => exact absurd rfl hrest
    | cons chunk more =>
      refine ⟨chunk, _, rfl, h chunk List.mem_cons_self, List.prefix_append _ _, fun n hn => ?_⟩
      rw [Chunks.flatten_push, List.flatten_cons, List.drop_append_of_le_length hn]

/-! ### The first piece -/

/-- A first part of a stream ends inside its first piece, or holds the piece. -/
theorem prefix_or_piece_prefix {part line tail : List β} {sep : β}
    (h : part <+: line ++ sep :: tail) : part <+: line ∨ line ++ [sep] <+: part := by
  have hpiece : line ++ [sep] <+: line ++ sep :: tail := ⟨tail, by simp⟩
  rcases List.prefix_or_prefix_of_prefix h hpiece with h | h
  · rcases List.prefix_concat_iff.mp h with rfl | h
    · exact .inr (List.prefix_refl _)
    · exact .inl h
  · exact .inr h

end BufRead
