import Llamesh.Library.Terminated
import Llamesh.Router.Responses

/-!
# Counting the tokens of a relayed stream

`CleanupStream::poll_upstream` and `process_line` (`src/router.rs:2276–2447`)
relay a body chunk by chunk and count the tokens of its server-sent events. A
line that a chunk leaves open is buffered up to 16 MiB. The count depends on the
complete lines of the stream, not on how it was cut.
-/

namespace Llamesh.Router

open Terminated

/-! ### One line -/

/-- `Value::as_array`. -/
def Json.asArray : Json → Option (List Json)
  | .array items => some items
  | _ => none

/-- `Value::as_u64`: an integer literal without a sign that fits 64 bits. -/
def Json.asU64 : Json → Option UInt64
  | .number text =>
    let digits := text.toList
    let n := digits.foldl (fun n c => n * 10 + (c.toNat - '0'.toNat)) 0
    if !digits.isEmpty && digits.all Char.isDigit && decide (n < 2 ^ 64) then some (UInt64.ofNat n)
    else none
  | _ => none

/-- The octets from the first that is not white space. `src/util.rs:78–89`. -/
def stripLeadingWhitespace (bytes : List UInt8) : List UInt8 :=
  bytes.dropWhile fun b => b == 32 || b == 9 || b == 10 || b == 13

/-- `b"data:"`. -/
def dataPrefix : List UInt8 := [100, 97, 116, 97, 58]

/-- `b"[DONE]"`. -/
def doneMarker : List UInt8 := [91, 68, 79, 78, 69, 93]

/-- The tokens a usage chunk reports for the whole stream. `src/router.rs:2292–2295`. -/
def Json.completionTokens (val : Json) : Option UInt64 :=
  ((val.get "usage").bind (Json.get "completion_tokens")).bind Json.asU64

/-- Whether the first choice carries generated output. `src/router.rs:2303–2328`. -/
def Json.hasOutput (val : Json) : Bool :=
  match ((((val.get "choices").bind Json.asArray).bind List.head?).bind (Json.get "delta")) with
  | some delta =>
    let nonemptyStr := fun key => ((delta.get key).bind Json.asStr).any fun s => !s.isEmpty
    let hasToolCalls := ((delta.get "tool_calls").bind Json.asArray).any fun a => !a.isEmpty
    nonemptyStr "content" || nonemptyStr "reasoning_content" || hasToolCalls
  | none => false

variable (parse : List UInt8 → Option Json)

/-- The counter after one line. `src/router.rs:2276–2335`. -/
def processLine (counter : UInt64) (line : List UInt8) : UInt64 :=
  let trimmed := stripLeadingWhitespace line
  if dataPrefix.isPrefixOf trimmed then
    let payload := trimmed.drop dataPrefix.length
    if doneMarker.isPrefixOf (stripLeadingWhitespace payload) then counter
    else
      match parse payload with
      | some val =>
        match val.completionTokens with
        | some completionTokens => completionTokens
        | none => if val.hasOutput then counter + 1 else counter
      | none => counter + 1
  else counter

/-! ### One chunk -/

/-- `MAX_TOKEN_BUFFER_SIZE`: 16 MiB. -/
def maxTokenBufferSize : Nat := 16 * 1024 * 1024

/-- The line feed. -/
def newline : UInt8 := 10

/-- The fields of `CleanupStream` that counting uses, and the process-wide count of streams that
gave it up. -/
structure CleanupStream where
  tokensGenerated : UInt64
  buffer : List UInt8
  tokenCountingDisabled : Bool
  disabledStreams : UInt64
  deriving DecidableEq, Repr

namespace CleanupStream

/-- `CleanupStream::new`. -/
def new (tokensGenerated disabledStreams : UInt64) : CleanupStream :=
  ⟨tokensGenerated, [], false, disabledStreams⟩

/-- The buffer would exceed its limit. -/
def disable (s : CleanupStream) : CleanupStream :=
  { s with
    tokenCountingDisabled := true
    buffer := []
    disabledStreams := s.disabledStreams + 1 }

/-- Keep an open line; the check of the limit is made first. -/
def extend (s : CleanupStream) (bytes : List UInt8) : CleanupStream :=
  if s.buffer.length + bytes.length > maxTokenBufferSize then s.disable
  else { s with buffer := s.buffer ++ bytes }

/-- The loop over the complete lines of a slice: the counter after them and what is left.
`src/router.rs:2415–2421`. -/
def countLines (counter : UInt64) (slice : List UInt8) : UInt64 × List UInt8 :=
  match h : slice.findIdx? (· == newline) with
  | some idx => countLines (processLine parse counter (slice.take idx)) (slice.drop (idx + 1))
  | none => (counter, slice)
termination_by slice.length
decreasing_by
  have hlt := (List.findIdx?_eq_some_iff_findIdx_eq.mp h).1
  rw [List.length_drop]
  omega

/-- The complete lines of a slice, and the open line after them. `src/router.rs:2413–2439`. -/
def countSlice (s : CleanupStream) (slice : List UInt8) : CleanupStream :=
  let (counter, remaining) := countLines parse s.tokensGenerated slice
  let s := { s with tokensGenerated := counter }
  if remaining.isEmpty then s else s.extend remaining

/-- Count the tokens of a chunk. `src/router.rs:2362–2439`. -/
def count (s : CleanupStream) (bytes : List UInt8) : CleanupStream :=
  if s.tokenCountingDisabled then s
  else if s.buffer.isEmpty then s.countSlice parse bytes
  else
    match bytes.findIdx? (· == newline) with
    | some idx =>
      if s.buffer.length + idx > maxTokenBufferSize then s.disable
      else
        let line := s.buffer ++ bytes.take idx
        { s with
          tokensGenerated := processLine parse s.tokensGenerated line
          buffer := [] }.countSlice parse (bytes.drop (idx + 1))
    | none => s.extend bytes

/-- `poll_upstream` on a chunk: it is relayed as it came. -/
def pollUpstream (s : CleanupStream) (bytes : List UInt8) : CleanupStream × List UInt8 :=
  (s.count parse bytes, bytes)

/-- Relay a body chunk by chunk. -/
def relay (s : CleanupStream) : List (List UInt8) → CleanupStream × List (List UInt8)
  | [] => (s, [])
  | bytes :: chunks =>
    let (s, out) := s.pollUpstream parse bytes
    let (s, outs) := s.relay chunks
    (s, out :: outs)

/-! ### The complete lines decide the count -/

private theorem eq_append_of_findIdx {slice : List UInt8} {idx : Nat}
    (h : slice.findIdx? (· == newline) = some idx) :
    slice = slice.take idx ++ newline :: slice.drop (idx + 1) ∧ newline ∉ slice.take idx := by
  obtain ⟨hlt, hat, hbefore⟩ := List.findIdx?_eq_some_iff_getElem.mp h
  have hget : slice[idx] = newline := by simpa using hat
  refine ⟨?_, ?_⟩
  · rw [← hget, List.getElem_cons_drop, List.take_append_drop]
  · intro hmem
    obtain ⟨j, hj, hget⟩ := List.mem_iff_getElem.mp hmem
    rw [List.length_take] at hj
    rw [List.getElem_take] at hget
    have hne := hbefore j (by omega)
    simp [hget] at hne

private theorem notMem_of_findIdx {slice : List UInt8}
    (h : slice.findIdx? (· == newline) = none) : newline ∉ slice := by
  intro hmem
  have hnot := List.findIdx?_eq_none_iff.mp h newline hmem
  simp at hnot

variable {parse}

private theorem countLines_eq (counter : UInt64) (slice : List UInt8) :
    countLines parse counter slice =
      ((pieces newline slice).foldl (processLine parse) counter, rest newline slice) := by
  induction counter, slice using countLines.induct parse with
  | case1 counter slice idx h ih =>
    obtain ⟨hslice, hline⟩ := eq_append_of_findIdx h
    rw [countLines]
    split
    · next idx' h' =>
      obtain rfl : idx = idx' := Option.some.inj (h.symm.trans h')
      rw [ih]
      conv => rhs; rw [hslice]
      rw [pieces_append_cons hline, rest_append_cons hline, List.foldl_cons]
    · next h' => rw [h] at h'; cases h'
  | case2 counter slice h =>
    have hline := notMem_of_findIdx h
    rw [countLines]
    split
    · next h' => rw [h] at h'; cases h'
    · rw [pieces_of_notMem hline, rest_of_notMem hline, List.foldl_nil]

/-- What the stream holds of the line that is open: the line, or nothing when it is too long. -/
def Holds (s : CleanupStream) (line : List UInt8) : Prop :=
  s.tokenCountingDisabled = false ∧ s.buffer = line ∨
    s.tokenCountingDisabled = true ∧ maxTokenBufferSize < line.length

private theorem holds_extend {s : CleanupStream} {line : List UInt8} (bytes : List UInt8)
    (hd : s.tokenCountingDisabled = false) (hb : s.buffer = line) :
    (s.extend bytes).Holds (line ++ bytes) ∧
      (s.extend bytes).tokensGenerated = s.tokensGenerated := by
  unfold extend
  split
  · next hlong =>
    refine ⟨.inr ⟨rfl, ?_⟩, rfl⟩
    rw [hb] at hlong
    rw [List.length_append]
    exact hlong
  · exact ⟨.inl ⟨hd, by rw [hb]⟩, rfl⟩

private theorem countSlice_spec {s : CleanupStream} (bytes : List UInt8)
    (hd : s.tokenCountingDisabled = false) (hb : s.buffer = []) :
    (s.countSlice parse bytes).Holds (rest newline bytes) ∧
      (s.countSlice parse bytes).tokensGenerated =
        (pieces newline bytes).foldl (processLine parse) s.tokensGenerated := by
  unfold countSlice
  rw [countLines_eq]
  dsimp only
  generalize (pieces newline bytes).foldl (processLine parse) s.tokensGenerated = counter
  split
  · next hempty =>
    refine ⟨.inl ⟨hd, ?_⟩, rfl⟩
    rw [List.isEmpty_iff.mp hempty]
    exact hb
  · exact holds_extend (s := { s with tokensGenerated := counter }) _ hd hb

/-- The stream has counted the complete lines of what it has relayed and holds the open one. -/
structure Counted (parse : List UInt8 → Option Json) (start : UInt64) (s : CleanupStream)
    (seen : List UInt8) : Prop where
  tokens : s.tokensGenerated = (pieces newline seen).foldl (processLine parse) start
  holds : s.Holds (rest newline seen)

/-- One chunk, as long as no complete line is too long. -/
theorem counted_count {start : UInt64} {s : CleanupStream} {seen bytes : List UInt8}
    (h : Counted parse start s seen)
    (hlines : ∀ line ∈ pieces newline (seen ++ bytes), line.length ≤ maxTokenBufferSize) :
    Counted parse start (s.count parse bytes) (seen ++ bytes) := by
  have hopen : newline ∉ rest newline seen := sep_notMem_rest seen
  -- a line feed in the chunk completes the open line
  have hfirst : ∀ idx, bytes.findIdx? (· == newline) = some idx →
      pieces newline (rest newline seen ++ bytes) =
          (rest newline seen ++ bytes.take idx) :: pieces newline (bytes.drop (idx + 1)) ∧
        rest newline (rest newline seen ++ bytes) = rest newline (bytes.drop (idx + 1)) := by
    intro idx hidx
    obtain ⟨hbytes, htake⟩ := eq_append_of_findIdx hidx
    have hline : newline ∉ rest newline seen ++ bytes.take idx := by
      rw [List.mem_append]
      exact fun hmem => hmem.elim hopen htake
    have hcut : rest newline seen ++ bytes =
        (rest newline seen ++ bytes.take idx) ++ newline :: bytes.drop (idx + 1) := by
      rw [List.append_assoc, ← hbytes]
    rw [hcut]
    exact ⟨pieces_append_cons hline _, rest_append_cons hline _⟩
  have hnone : bytes.findIdx? (· == newline) = none →
      pieces newline (rest newline seen ++ bytes) = [] ∧
        rest newline (rest newline seen ++ bytes) = rest newline seen ++ bytes := by
    intro hidx
    have hline : newline ∉ rest newline seen ++ bytes := by
      rw [List.mem_append]
      exact fun hmem => hmem.elim hopen (notMem_of_findIdx hidx)
    exact ⟨pieces_of_notMem hline, rest_of_notMem hline⟩
  rw [pieces_append seen bytes] at hlines
  suffices hstep : (s.count parse bytes).Holds (rest newline (rest newline seen ++ bytes)) ∧
      (s.count parse bytes).tokensGenerated =
        (pieces newline (rest newline seen ++ bytes)).foldl (processLine parse)
          s.tokensGenerated by
    refine ⟨?_, ?_⟩
    · rw [hstep.2, h.tokens, pieces_append seen bytes, List.foldl_append]
    · rw [rest_append seen bytes]
      exact hstep.1
  obtain ⟨hd, hb⟩ | ⟨hd, hlong⟩ := h.holds
  · rw [count, if_neg (by simp [hd])]
    split
    · next hempty =>
      rw [← hb, List.isEmpty_iff.mp hempty, List.nil_append]
      exact countSlice_spec bytes hd (List.isEmpty_iff.mp hempty)
    · split
      · next idx hidx =>
        obtain ⟨hpieces, hrest⟩ := hfirst idx hidx
        have hle := hlines _ (List.mem_append_right _ (hpieces ▸ List.mem_cons_self))
        have hidxlt := (List.findIdx?_eq_some_iff_getElem.mp hidx).1
        rw [List.length_append, List.length_take, ← hb] at hle
        rw [if_neg (by omega), hpieces, hrest, List.foldl_cons, hb]
        exact countSlice_spec (bytes.drop (idx + 1)) hd rfl
      · next hidx =>
        obtain ⟨hpieces, hrest⟩ := hnone hidx
        rw [hpieces, hrest]
        exact holds_extend bytes hd hb
  · rw [count, if_pos hd]
    cases hidx : bytes.findIdx? (· == newline) with
    | some idx =>
      -- the open line is too long already, so it never completes
      obtain ⟨hpieces, -⟩ := hfirst idx hidx
      have hle := hlines _ (List.mem_append_right _ (hpieces ▸ List.mem_cons_self))
      rw [List.length_append] at hle
      omega
    | none =>
      obtain ⟨hpieces, hrest⟩ := hnone hidx
      rw [hpieces, hrest]
      refine ⟨.inr ⟨hd, ?_⟩, rfl⟩
      rw [List.length_append]
      omega

private theorem relay_snd (s : CleanupStream) (chunks : List (List UInt8)) :
    (s.relay parse chunks).2 = chunks := by
  induction chunks generalizing s with
  | nil => rfl
  | cons bytes chunks ih => exact congrArg (bytes :: ·) (ih _)

private theorem counted_relay {start : UInt64} {s : CleanupStream} {seen : List UInt8}
    (chunks : List (List UInt8)) (h : Counted parse start s seen)
    (hlines : ∀ line ∈ pieces newline (seen ++ chunks.flatten),
      line.length ≤ maxTokenBufferSize) :
    Counted parse start (s.relay parse chunks).1 (seen ++ chunks.flatten) := by
  induction chunks generalizing s seen with
  | nil => simpa [relay] using h
  | cons bytes chunks ih =>
    rw [List.flatten_cons, ← List.append_assoc] at hlines ⊢
    refine ih (counted_count h fun line hline => hlines line ?_) hlines
    rw [pieces_append (seen ++ bytes)]
    exact List.mem_append_left _ hline

/-- However a stream without an overlong complete line is cut into chunks, the same bytes are
relayed and the final count is that of its complete lines, one after another. -/
theorem relay_counts_lines (parse : List UInt8 → Option Json) (start disabled : UInt64)
    (stream : List UInt8) (chunks : List (List UInt8)) (hcut : chunks.flatten = stream)
    (hlines : ∀ line ∈ pieces newline stream, line.length ≤ maxTokenBufferSize) :
    ((new start disabled).relay parse chunks).2.flatten = stream ∧
      ((new start disabled).relay parse chunks).1.tokensGenerated =
        (pieces newline stream).foldl (processLine parse) start := by
  subst hcut
  have hinit : Counted parse start (new start disabled) [] := ⟨rfl, .inl ⟨rfl, rfl⟩⟩
  have hend := counted_relay chunks hinit hlines
  refine ⟨?_, hend.tokens⟩
  rw [relay_snd]

/-- The lines `data:x` and `data:1`, and the start of a third one. -/
def twoEvents : List UInt8 :=
  [100, 97, 116, 97, 58, 120, 10, 100, 97, 116, 97, 58, 49, 10, 100, 97]

/-- `1` is JSON and `x` is not. -/
def parseDigit (payload : List UInt8) : Option Json :=
  if payload = [49] then some (.number "1") else none

/-- Cuts inside a line, after a line feed and around nothing give the count of the two lines. -/
theorem relay_counts_two_events :
    ((new 0 0).relay parseDigit [[100, 97], [116, 97, 58, 120, 10, 100], [],
      [97, 116, 97, 58, 49, 10], [100, 97]]).1.tokensGenerated = 1 := by
  have hcount := (relay_counts_lines parseDigit 0 0 twoEvents [[100, 97],
    [116, 97, 58, 120, 10, 100], [], [97, 116, 97, 58, 49, 10], [100, 97]] rfl (by decide)).2
  exact hcount.trans (by decide)

end CleanupStream

end Llamesh.Router
