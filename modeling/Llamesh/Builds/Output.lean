import Llamesh.Library.BufRead
import Llamesh.Library.Terminated

/-!
# The output of build commands

`read_line_capped` (`src/build_manager.rs:761–783`) reads one line of a child
process and keeps a bounded part of it. It takes what the reader has buffered,
which may end anywhere in a line, and drops what exceeds the cap, which is not
to show in the next line.
-/

namespace Llamesh.Builds.Output

open BufRead Terminated

variable {ρ ε : Type}

/-- `\n`. -/
def newline : UInt8 := 10

/-- The loop of `read_line_capped`: the result with the buffer, and the reader after it.
`src/build_manager.rs:765–782`. -/
def readLineFrom (reader : BufRead UInt8 ρ ε) (cap : Nat) (readAny : Bool) (buf : List UInt8)
    (r : ρ) : Except ε Bool × List UInt8 × ρ :=
  match _hfill : reader.fillBuf r with
  | (.error e, after) => (.error e, buf, after)
  | (.ok available, after) =>
    if _hempty : available = [] then (.ok readAny, buf, after)
    else
      let extended (chunkLen : Nat) := buf ++ available.take (min chunkLen (cap - buf.length))
      match available.idxOf? newline with
      | some i => (.ok true, extended (i + 1), reader.consume (i + 1) after)
      | none =>
        readLineFrom reader cap true (extended available.length)
          (reader.consume available.length after)
termination_by (reader.rest r).length
decreasing_by
  obtain ⟨more, hrest, hconsume⟩ := reader.rest_eq_of_fillBuf _hfill _hempty
  have hpos := List.length_pos_iff.mpr _hempty
  rw [hconsume _ (Nat.le_refl _), hrest, List.length_drop, List.length_append]
  omega

/-- Reads up to a newline and keeps at most `cap` octets of it. `src/build_manager.rs:761–783`. -/
def readLineCapped (reader : BufRead UInt8 ρ ε) (cap : Nat) (buf : List UInt8) (r : ρ) :
    Except ε Bool × List UInt8 × ρ :=
  readLineFrom reader cap false buf r

section

variable {reader : BufRead UInt8 ρ ε} {cap : Nat} {readAny : Bool} {buf : List UInt8} {r : ρ}

private theorem readLineFrom_error {e : ε} {after : ρ} (h : reader.fillBuf r = (.error e, after)) :
    readLineFrom reader cap readAny buf r = (.error e, buf, after) := by
  rw [readLineFrom]
  split
  · next e' after' h' =>
    rw [h] at h'
    obtain ⟨he, rfl⟩ := Prod.mk.inj h'
    rw [Except.error.inj he]
  · next h' =>
    rw [h] at h'
    cases (Prod.mk.inj h').1

private theorem readLineFrom_ok {available : List UInt8} {after : ρ}
    (h : reader.fillBuf r = (.ok available, after)) :
    readLineFrom reader cap readAny buf r =
      if available = [] then (.ok readAny, buf, after)
      else
        match available.idxOf? newline with
        | some i => (.ok true, buf ++ available.take (min (i + 1) (cap - buf.length)),
            reader.consume (i + 1) after)
        | none =>
          readLineFrom reader cap true
            (buf ++ available.take (min available.length (cap - buf.length)))
            (reader.consume available.length after) := by
  rw [readLineFrom]
  split
  · next h' =>
    rw [h] at h'
    cases (Prod.mk.inj h').1
  · next available' after' h' =>
    rw [h] at h'
    obtain ⟨ha, rfl⟩ := Prod.mk.inj h'
    obtain rfl := Except.ok.inj ha
    split <;> rfl

/-- What is appended in two steps is what one step would append: the cap counts over both. -/
theorem append_take_append_take (buf first second : List UInt8) (cap : Nat) :
    (buf ++ first.take (cap - buf.length)) ++
        second.take (cap - (buf ++ first.take (cap - buf.length)).length) =
      buf ++ (first ++ second).take (cap - buf.length) := by
  have hlength : cap - (buf ++ first.take (cap - buf.length)).length =
      cap - buf.length - first.length := by
    rw [List.length_append, List.length_take]
    omega
  rw [hlength, List.append_assoc, List.take_append]

/-- A part without a newline is appended as far as the cap allows, and the loop goes on. -/
theorem readLineFrom_of_notMem {part : List UInt8} {after : ρ}
    (hfill : reader.fillBuf r = (.ok part, after)) (hpart : part ≠ []) (h : newline ∉ part) :
    readLineFrom reader cap readAny buf r =
      readLineFrom reader cap true (buf ++ part.take (cap - buf.length))
        (reader.consume part.length after) := by
  rw [readLineFrom_ok hfill, if_neg hpart, List.idxOf?_eq_none_iff.mpr h]
  rw [Nat.min_comm, ← List.take_take, List.take_length]

/-- A part with a newline finishes the line: what follows the newline stays with the reader. -/
theorem readLineFrom_of_newline {line more : List UInt8} {after : ρ}
    (hfill : reader.fillBuf r = (.ok (line ++ newline :: more), after)) (h : newline ∉ line) :
    readLineFrom reader cap readAny buf r =
      (.ok true, buf ++ (line ++ [newline]).take (cap - buf.length),
        reader.consume (line.length + 1) after) := by
  have hidx : (line ++ newline :: more).idxOf? newline = some line.length := by
    rw [List.idxOf?, List.findIdx?_append, List.findIdx?_eq_none_iff.mpr]
    · simp [List.findIdx?_cons]
    · intro c hc
      exact beq_false_of_ne fun heq => h (heq ▸ hc)
  have hne : line ++ newline :: more ≠ [] := by simp
  rw [readLineFrom_ok hfill, if_neg hne, hidx]
  dsimp only
  have htake : (line ++ newline :: more).take (line.length + 1) = line ++ [newline] := by
    rw [show line ++ newline :: more = (line ++ [newline]) ++ more by simp,
      List.take_left' (by simp)]
  rw [Nat.min_comm, ← List.take_take, htake]

/-- A line that is still to come is read to its newline, whatever parts it comes in: the buffer
takes of it what the cap leaves, and the reader stands behind it. -/
theorem readLineFrom_line {line tail : List UInt8} (h : newline ∉ line)
    (hrest : reader.rest r = line ++ newline :: tail) :
    ∃ after, readLineFrom reader cap readAny buf r =
        (.ok true, buf ++ (line ++ [newline]).take (cap - buf.length), after) ∧
      reader.rest after = tail := by
  -- on the length of the line: a part without a newline takes some of it away
  induction hn : line.length using Nat.strongRecOn generalizing line readAny buf r with
  | _ n ih =>
    obtain ⟨part, after, hfill, hpart, hprefix, hconsume⟩ :=
      reader.fill_part r (by rw [hrest]; simp)
    rw [hrest] at hprefix hconsume
    rcases prefix_or_piece_prefix hprefix with ⟨more, rfl⟩ | ⟨more, rfl⟩
    · -- the part ends inside the line
      have hpos := List.length_pos_iff.mpr hpart
      have hnext : reader.rest (reader.consume part.length after) = more ++ newline :: tail := by
        rw [hconsume _ (Nat.le_refl _), List.append_assoc, List.drop_left]
      rw [List.length_append] at hn
      obtain ⟨last, hlast, htail⟩ :=
        ih more.length (by omega) (fun hmem => h (List.mem_append_right part hmem)) hnext rfl
      refine ⟨last, ?_, htail⟩
      rw [readLineFrom_of_notMem hfill hpart fun hmem => h (List.mem_append_left more hmem),
        hlast, append_take_append_take, List.append_assoc]
    · -- the part holds the newline
      rw [List.append_assoc] at hfill
      refine ⟨_, readLineFrom_of_newline hfill h, ?_⟩
      have hlength : line.length + 1 = (line ++ [newline]).length := by simp
      have hsplit : line ++ newline :: tail = (line ++ [newline]) ++ tail := by simp
      rw [hconsume _ (by simp), hlength, hsplit, List.drop_left]

/-- What follows the last newline is read to the end, and the result says if there was anything. -/
theorem readLineFrom_last (h : newline ∉ reader.rest r) :
    ∃ after, readLineFrom reader cap readAny buf r =
        (reader.failure.elim (.ok (readAny || !(reader.rest r).isEmpty)) .error,
          buf ++ (reader.rest r).take (cap - buf.length), after) ∧
      reader.rest after = [] := by
  induction hn : (reader.rest r).length using Nat.strongRecOn generalizing readAny buf r with
  | _ n ih =>
    by_cases hrest : reader.rest r = []
    · obtain ⟨hend, hafter⟩ := reader.fill_end r hrest
      refine ⟨(reader.fillBuf r).2, ?_, hafter⟩
      cases hfailure : reader.failure with
      | none =>
        rw [hfailure] at hend
        rw [readLineFrom_ok (Prod.ext hend rfl), if_pos rfl, hrest]
        simp
      | some e =>
        rw [hfailure] at hend
        rw [readLineFrom_error (Prod.ext hend rfl), hrest]
        simp
    · obtain ⟨part, after, hfill, hpart, ⟨more, hmore⟩, hconsume⟩ := reader.fill_part r hrest
      have hpos := List.length_pos_iff.mpr hpart
      have hnext : reader.rest (reader.consume part.length after) = more := by
        rw [hconsume _ (Nat.le_refl _), ← hmore, List.drop_left]
      rw [← hmore, List.length_append] at hn
      rw [← hmore] at h
      have hnotMem : newline ∉ reader.rest (reader.consume part.length after) := by
        rw [hnext]
        exact fun hmem => h (List.mem_append_right part hmem)
      obtain ⟨last, hlast, hend⟩ := ih more.length (by omega) hnotMem (by rw [hnext])
      refine ⟨last, ?_, hend⟩
      rw [readLineFrom_of_notMem hfill hpart fun hmem => h (List.mem_append_left more hmem),
        hlast, hnext, append_take_append_take, ← hmore]
      cases part with
      | nil => exact absurd rfl hpart
      | cons c part => simp

/-- A call with a cleared buffer, where a line is still to come. -/
theorem readLineCapped_line (cap : Nat) {line tail : List UInt8} (h : newline ∉ line)
    (hrest : reader.rest r = line ++ newline :: tail) :
    ∃ after, readLineCapped reader cap [] r = (.ok true, (line ++ [newline]).take cap, after) ∧
      reader.rest after = tail :=
  readLineFrom_line h hrest

/-- A call with a cleared buffer, where no newline is still to come. -/
theorem readLineCapped_last (cap : Nat) (h : newline ∉ reader.rest r) :
    ∃ after, readLineCapped reader cap [] r =
        (reader.failure.elim (.ok (!(reader.rest r).isEmpty)) .error,
          (reader.rest r).take cap, after) ∧
      reader.rest after = [] :=
  readLineFrom_last h

/-- A call that has read a line has moved the reader on. -/
theorem rest_length_of_readLineCapped {buf' : List UInt8} {after : ρ}
    (h : readLineCapped reader cap buf r = (.ok true, buf', after)) :
    (reader.rest after).length < (reader.rest r).length := by
  by_cases hmem : newline ∈ reader.rest r
  · obtain ⟨line, tail, hrest, hline⟩ := List.eq_append_cons_of_mem hmem
    obtain ⟨last, hlast, htail⟩ := readLineFrom_line hline hrest
    obtain ⟨-, hafter⟩ := Prod.mk.inj (h.symm.trans hlast)
    rw [(Prod.mk.inj hafter).2, htail, hrest, List.length_append, List.length_cons]
    omega
  · obtain ⟨last, hlast, hend⟩ := readLineFrom_last hmem
    obtain ⟨hanswer, hafter⟩ := Prod.mk.inj (h.symm.trans hlast)
    rw [(Prod.mk.inj hafter).2, hend, List.length_nil, List.length_pos_iff]
    intro hrest
    rw [hrest] at hanswer
    cases hfailure : reader.failure <;> simp [hfailure] at hanswer

end

/-! ### Line after line -/

/-- The reads of the loop of `pump_output`, each into a cleared buffer: the lines, with the answer
that ends the loop. `src/build_manager.rs:913–919`. -/
def readLines (reader : BufRead UInt8 ρ ε) (cap : Nat) (r : ρ) :
    List (List UInt8) × Except ε Bool × ρ :=
  match _hread : readLineCapped reader cap [] r with
  | (.ok true, buf, after) =>
    let (lines, answer, last) := readLines reader cap after
    (buf :: lines, answer, last)
  | (answer, _, after) => ([], answer, after)
termination_by (reader.rest r).length
decreasing_by exact rest_length_of_readLineCapped _hread

section

variable {reader : BufRead UInt8 ρ ε} {cap : Nat} {r : ρ}

private theorem readLines_of_true {buf : List UInt8} {after : ρ}
    (h : readLineCapped reader cap [] r = (.ok true, buf, after)) :
    readLines reader cap r =
      (buf :: (readLines reader cap after).1, (readLines reader cap after).2) := by
  rw [readLines]
  split
  · next h' =>
    rw [h] at h'
    obtain ⟨-, hbuf⟩ := Prod.mk.inj h'
    obtain ⟨rfl, rfl⟩ := Prod.mk.inj hbuf
    rfl
  · next hne h' =>
    exact (hne (Prod.mk.inj (h'.symm.trans h)).1).elim

private theorem readLines_of_ne_true {answer : Except ε Bool} {buf : List UInt8} {after : ρ}
    (h : readLineCapped reader cap [] r = (answer, buf, after)) (hanswer : answer ≠ .ok true) :
    readLines reader cap r = ([], answer, after) := by
  rw [readLines]
  split
  · next h' =>
    rw [h] at h'
    exact absurd (Prod.mk.inj h').1 hanswer
  · next h' =>
    rw [h] at h'
    obtain ⟨rfl, hbuf⟩ := Prod.mk.inj h'
    rw [(Prod.mk.inj hbuf).2]

/-- The lines of a stream with their newlines, the last one possibly without. A stream that ends
in an error has only those that ended before it. -/
def linesOf (failure : Option ε) (stream : List UInt8) : List (List UInt8) :=
  (pieces newline stream).map (· ++ [newline]) ++
    if rest newline stream = [] ∨ failure.isSome then [] else [rest newline stream]

private theorem linesOf_append_cons {line : List UInt8} (h : newline ∉ line) (failure : Option ε)
    (tail : List UInt8) :
    linesOf failure (line ++ newline :: tail) = (line ++ [newline]) :: linesOf failure tail := by
  unfold linesOf
  rw [pieces_append_cons h, rest_append_cons h, List.map_cons, List.cons_append]

private theorem linesOf_of_notMem {line : List UInt8} (h : newline ∉ line) (failure : Option ε) :
    linesOf failure line = if line = [] ∨ failure.isSome then [] else [line] := by
  unfold linesOf
  rw [pieces_of_notMem h, rest_of_notMem h, List.map_nil, List.nil_append]

/-- The reads yield of each line of the stream its first bytes, at most as many as the cap allows,
and then the answer that the stream has ended (or its error). Where the reader cuts the stream does
not show. -/
theorem readLines_eq (reader : BufRead UInt8 ρ ε) (cap : Nat) (r : ρ) :
    ∃ last, readLines reader cap r =
        ((linesOf reader.failure (reader.rest r)).map (·.take cap),
          reader.failure.elim (.ok false) .error, last) ∧
      reader.rest last = [] := by
  induction hn : (reader.rest r).length using Nat.strongRecOn generalizing r with
  | _ n ih =>
    by_cases hmem : newline ∈ reader.rest r
    · -- a whole line comes first
      obtain ⟨line, tail, hrest, hline⟩ := List.eq_append_cons_of_mem hmem
      obtain ⟨after, hread, htail⟩ := readLineCapped_line cap hline hrest
      have hlt := rest_length_of_readLineCapped hread
      obtain ⟨last, hlast, hend⟩ := ih _ (by omega) after rfl
      refine ⟨last, ?_, hend⟩
      rw [readLines_of_true hread, hlast, hrest, htail, linesOf_append_cons hline, List.map_cons]
    · obtain ⟨after, hread, hend⟩ := readLineCapped_last cap hmem
      rw [linesOf_of_notMem hmem]
      cases hfailure : reader.failure with
      | some e =>
        rw [hfailure] at hread
        rw [if_pos (.inr rfl)]
        exact ⟨after, readLines_of_ne_true hread (by simp), hend⟩
      | none =>
        rw [hfailure] at hread
        by_cases hrest : reader.rest r = []
        · rw [hrest] at hread ⊢
          exact ⟨after, readLines_of_ne_true hread (by simp), hend⟩
        · -- what follows the last newline, and then the end
          have htrue : readLineCapped reader cap [] r =
              (.ok true, (reader.rest r).take cap, after) := by
            rw [hread]
            simp [hrest]
          have hlt := rest_length_of_readLineCapped htrue
          obtain ⟨last, hlast, hlastEnd⟩ := ih _ (by omega) after rfl
          refine ⟨last, ?_, hlastEnd⟩
          rw [readLines_of_true htrue, hlast, hend, hfailure]
          simp [hrest, linesOf]

end

/-- A stream in chunks is read line by line, and so is that of any other reader: the first bytes of
each line, at most as many as the cap allows, and then the end. -/
theorem readLines_whatever_chunks (cap : Nat) :
    (∀ chunks : Chunks UInt8, ∃ last,
      readLines (ofChunks (ε := ε)) cap chunks =
          ((linesOf (none : Option ε) chunks.1.flatten).map (·.take cap), .ok false, last) ∧
        last.1 = []) ∧
    ∀ (reader : BufRead UInt8 ρ ε) (r : ρ), ∃ last,
      readLines reader cap r =
          ((linesOf reader.failure (reader.rest r)).map (·.take cap),
            reader.failure.elim (.ok false) .error, last) ∧
        reader.rest last = [] := by
  refine ⟨fun chunks => ?_, fun reader r => readLines_eq reader cap r⟩
  obtain ⟨⟨last, hchunks⟩, hread, hend⟩ := readLines_eq (ofChunks (ε := ε)) cap chunks
  refine ⟨⟨last, hchunks⟩, hread, List.eq_nil_iff_forall_not_mem.mpr fun chunk hmem => ?_⟩
  exact hchunks chunk hmem (List.flatten_eq_nil_iff.mp hend chunk hmem)

end Llamesh.Builds.Output
