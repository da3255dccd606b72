import Mathlib.Data.List.Basic
import Mathlib.Tactic.Linarith

/-!
# Octet streams

Reading a stream of octets: exact reads, 32-bit big-endian lengths, and slices cut into chunks of a
bounded size, each with the equation that undoes what was written.
-/

namespace Octets

/-- `AsyncReadExt::read_exact`: the next `n` octets, or nothing when the stream ends before. -/
def readExact (n : Nat) (stream : List UInt8) : Option (List UInt8 × List UInt8) :=
  if stream.length < n then none else some (stream.take n, stream.drop n)

/-- `u32::to_be_bytes` of the low 32 bits. -/
def toBeBytes (n : Nat) : List UInt8 :=
  [UInt8.ofNat (n / 16777216), UInt8.ofNat (n / 65536), UInt8.ofNat (n / 256), UInt8.ofNat n]

/-- `u64::to_be_bytes` of the low 64 bits. -/
def toBeBytes64 (n : Nat) : List UInt8 := toBeBytes (n / 4294967296) ++ toBeBytes n

/-- `u32::from_be_bytes` and `u64::from_be_bytes`. -/
def fromBeBytes (octets : List UInt8) : Nat := octets.foldl (fun n b => n * 256 + b.toNat) 0

/-- `slice::chunks`: pieces of `n` octets and a last piece of at most `n`; none of no octets. -/
def chunks (n : Nat) (octets : List UInt8) : List (List UInt8) :=
  if _h : octets = [] ∨ n = 0 then []
  else octets.take n :: chunks n (octets.drop n)
termination_by octets.length
decreasing_by
  have hpos : 0 < octets.length := List.length_pos_iff.mpr fun hnil => _h (Or.inl hnil)
  rw [List.length_drop]
  omega

/-- `slice::windows`: every run of `n` consecutive octets, for a positive `n`. -/
def windows (n : Nat) : List UInt8 → List (List UInt8)
  | [] => []
  | b :: octets =>
    if n ≤ octets.length + 1 then (b :: octets).take n :: windows n octets else []

/-- What was written is read back, and the rest of the stream remains. -/
@[simp] theorem readExact_append (octets rest : List UInt8) :
    readExact octets.length (octets ++ rest) = some (octets, rest) := by
  have hlength : ¬ (octets ++ rest).length < octets.length := by
    rw [List.length_append]
    omega
  rw [readExact, if_neg hlength, List.take_left, List.drop_left]

/-- An exact read takes what it returns off the stream. -/
theorem readExact_length {n : Nat} {stream octets rest : List UInt8}
    (h : readExact n stream = some (octets, rest)) : rest.length + n = stream.length := by
  unfold readExact at h
  split at h
  · cases h
  · next hlength =>
    cases h
    rw [List.length_drop]
    omega

/-- A 32-bit number has four octets. -/
@[simp] theorem length_toBeBytes (n : Nat) : (toBeBytes n).length = 4 := rfl

/-- A 32-bit length survives its encoding. -/
theorem fromBeBytes_toBeBytes {n : Nat} (h : n < 4294967296) : fromBeBytes (toBeBytes n) = n := by
  simp only [fromBeBytes, toBeBytes, List.foldl_cons, List.foldl_nil, UInt8.toNat_ofNat']
  omega

/-- A 64-bit number has eight octets. -/
@[simp] theorem length_toBeBytes64 (n : Nat) : (toBeBytes64 n).length = 8 := rfl

/-- A 64-bit length survives its encoding. -/
theorem fromBeBytes_toBeBytes64 {n : Nat} (h : n < 18446744073709551616) :
    fromBeBytes (toBeBytes64 n) = n := by
  simp only [fromBeBytes, toBeBytes64, toBeBytes, List.cons_append, List.nil_append,
    List.foldl_cons, List.foldl_nil, UInt8.toNat_ofNat']
  omega

/-- The chunks of a slice are the slice. -/
theorem flatten_chunks {n : Nat} (hn : n ≠ 0) (octets : List UInt8) :
    (chunks n octets).flatten = octets := by
  induction octets using chunks.induct (n := n) with
  | case1 octets h =>
    rw [chunks, dif_pos h, List.flatten_nil]
    exact (h.resolve_right hn).symm
  | case2 octets h ih =>
    rw [chunks, dif_neg h, List.flatten_cons, ih, List.take_append_drop]

/-- A chunk is not empty and not longer than the bound. -/
theorem length_of_mem_chunks {n : Nat} {octets chunk : List UInt8} (h : chunk ∈ chunks n octets) :
    0 < chunk.length ∧ chunk.length ≤ n := by
  induction octets using chunks.induct (n := n) with
  | case1 octets hstop =>
    rw [chunks, dif_pos hstop] at h
    cases h
  | case2 octets hstop ih =>
    rw [chunks, dif_neg hstop, List.mem_cons] at h
    rcases h with rfl | h
    · rw [not_or] at hstop
      have hpos : 0 < octets.length := List.length_pos_iff.mpr hstop.1
      rw [List.length_take]
      omega
    · exact ih h

end Octets
