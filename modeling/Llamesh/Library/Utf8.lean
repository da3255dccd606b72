import Mathlib.Data.List.Basic
import Mathlib.Tactic.Linarith

/-!
# UTF-8

Encoding as `String` does it, and the decoding of `String::from_utf8_lossy`, which replaces every
maximal prefix of an ill-formed sequence by U+FFFD. Decoding what was encoded gives the text back.
-/

namespace Text

/-- The UTF-8 octets of a text. -/
def utf8Encode (cs : List Char) : List UInt8 := cs.flatMap String.utf8EncodeChar

/-- A continuation octet. -/
def isContinuation (b : UInt8) : Bool := 0x80 ≤ b.toNat && b.toNat ≤ 0xBF

/-- The second octets allowed after the first octet of a sequence of three: no overlong form and no
surrogate. -/
def secondOfThree (a b : UInt8) : Bool :=
  (a.toNat = 0xE0 && 0xA0 ≤ b.toNat && b.toNat ≤ 0xBF) ||
    (0xE1 ≤ a.toNat && a.toNat ≤ 0xEC && isContinuation b) ||
    (a.toNat = 0xED && 0x80 ≤ b.toNat && b.toNat ≤ 0x9F) ||
    (0xEE ≤ a.toNat && a.toNat ≤ 0xEF && isContinuation b)

/-- The second octets allowed after the first octet of a sequence of four: no overlong form and
nothing above U+10FFFF. -/
def secondOfFour (a b : UInt8) : Bool :=
  (a.toNat = 0xF0 && 0x90 ≤ b.toNat && b.toNat ≤ 0xBF) ||
    (0xF1 ≤ a.toNat && a.toNat ≤ 0xF3 && isContinuation b) ||
    (a.toNat = 0xF4 && 0x80 ≤ b.toNat && b.toNat ≤ 0x8F)

/-- U+FFFD. -/
def replacement : Char := Char.ofNat 0xFFFD

/-- The character at the front of `a :: rest`, or a replacement for the ill-formed octets there,
and the octets after it. -/
def decodeOne (a : UInt8) (rest : List UInt8) : Char × List UInt8 :=
  if a.toNat < 0x80 then (Char.ofNat a.toNat, rest)
  else if 0xC2 ≤ a.toNat ∧ a.toNat ≤ 0xDF then
    match rest with
    | b :: rest₁ =>
      if isContinuation b then
        (Char.ofNat ((a.toNat - 0xC0) * 64 + (b.toNat - 0x80)), rest₁)
      else (replacement, rest)
    | [] => (replacement, [])
  else if 0xE0 ≤ a.toNat ∧ a.toNat ≤ 0xEF then
    match rest with
    | b :: rest₁ =>
      if secondOfThree a b then
        match rest₁ with
        | c :: rest₂ =>
          if isContinuation c then
            (Char.ofNat ((a.toNat - 0xE0) * 4096 + (b.toNat - 0x80) * 64 + (c.toNat - 0x80)), rest₂)
          else (replacement, rest₁)
        | [] => (replacement, [])
      else (replacement, rest)
    | [] => (replacement, [])
  else if 0xF0 ≤ a.toNat ∧ a.toNat ≤ 0xF4 then
    match rest with
    | b :: rest₁ =>
      if secondOfFour a b then
        match rest₁ with
        | c :: rest₂ =>
          if isContinuation c then
            match rest₂ with
            | d :: rest₃ =>
              if isContinuation d then
                (Char.ofNat ((a.toNat - 0xF0) * 262144 + (b.toNat - 0x80) * 4096 +
                  (c.toNat - 0x80) * 64 + (d.toNat - 0x80)), rest₃)
              else (replacement, rest₂)
            | [] => (replacement, [])
          else (replacement, rest₁)
        | [] => (replacement, [])
      else (replacement, rest)
    | [] => (replacement, [])
  else (replacement, rest)

private theorem length_decodeOne (a : UInt8) (rest : List UInt8) :
    (decodeOne a rest).2.length ≤ rest.length := by
  unfold decodeOne
  repeat' split
  all_goals simp only [List.length_cons, List.length_nil, le_refl]
  all_goals omega

/-- `String::from_utf8_lossy`. -/
def fromUtf8Lossy : List UInt8 → List Char
  | [] => []
  | a :: rest => (decodeOne a rest).1 :: fromUtf8Lossy (decodeOne a rest).2
termination_by octets => octets.length
decreasing_by
  have := length_decodeOne a rest
  rw [List.length_cons]
  omega

private theorem toNat_ofNat_of_lt {n : Nat} (h : n < 256) : (UInt8.ofNat n).toNat = n := by
  rw [UInt8.toNat_ofNat']
  omega

private theorem isContinuation_low (n : Nat) : isContinuation (UInt8.ofNat (n % 0x40 + 0x80)) := by
  have h : (UInt8.ofNat (n % 0x40 + 0x80)).toNat = n % 0x40 + 0x80 := toNat_ofNat_of_lt (by omega)
  simp only [isContinuation, h, Bool.and_eq_true, decide_eq_true_eq]
  omega

/-! The octets of a code point `v`, by the length of its encoding. -/

private theorem decodeOne_one {v : Nat} (h : v ≤ 0x7f) (rest : List UInt8) :
    decodeOne (UInt8.ofNat v) rest = (Char.ofNat v, rest) := by
  have ha : (UInt8.ofNat v).toNat = v := toNat_ofNat_of_lt (by omega)
  unfold decodeOne
  rw [ha, if_pos (by omega)]

private theorem decodeOne_two {v : Nat} (hlow : 0x7f < v) (hhigh : v ≤ 0x7ff)
    (rest : List UInt8) :
    decodeOne (UInt8.ofNat (v / 64 % 0x20 + 0xc0)) (UInt8.ofNat (v % 0x40 + 0x80) :: rest) =
      (Char.ofNat v, rest) := by
  have ha : (UInt8.ofNat (v / 64 % 0x20 + 0xc0)).toNat = v / 64 % 0x20 + 0xc0 :=
    toNat_ofNat_of_lt (by omega)
  have hb : (UInt8.ofNat (v % 0x40 + 0x80)).toNat = v % 0x40 + 0x80 :=
    toNat_ofNat_of_lt (by omega)
  have hvalue : (v / 64 % 0x20 + 0xc0 - 0xC0) * 64 + (v % 0x40 + 0x80 - 0x80) = v := by omega
  unfold decodeOne
  simp only [ha, hb, isContinuation_low, if_true]
  rw [if_neg (by omega), if_pos (by omega), hvalue]

private theorem decodeOne_three {v : Nat} (hlow : 0x7ff < v) (hhigh : v ≤ 0xffff)
    (hscalar : v < 0xD800 ∨ 0xDFFF < v) (rest : List UInt8) :
    decodeOne (UInt8.ofNat (v / 4096 % 0x10 + 0xe0))
        (UInt8.ofNat (v / 64 % 0x40 + 0x80) :: UInt8.ofNat (v % 0x40 + 0x80) :: rest) =
      (Char.ofNat v, rest) := by
  have ha : (UInt8.ofNat (v / 4096 % 0x10 + 0xe0)).toNat = v / 4096 % 0x10 + 0xe0 :=
    toNat_ofNat_of_lt (by omega)
  have hb : (UInt8.ofNat (v / 64 % 0x40 + 0x80)).toNat = v / 64 % 0x40 + 0x80 :=
    toNat_ofNat_of_lt (by omega)
  have hc : (UInt8.ofNat (v % 0x40 + 0x80)).toNat = v % 0x40 + 0x80 :=
    toNat_ofNat_of_lt (by omega)
  have hsecond : secondOfThree (UInt8.ofNat (v / 4096 % 0x10 + 0xe0))
      (UInt8.ofNat (v / 64 % 0x40 + 0x80)) = true := by
    simp only [secondOfThree, isContinuation_low, ha, hb, Bool.and_true, Bool.or_eq_true,
      Bool.and_eq_true, decide_eq_true_eq]
    omega
  have hvalue : (v / 4096 % 0x10 + 0xe0 - 0xE0) * 4096 + (v / 64 % 0x40 + 0x80 - 0x80) * 64 +
      (v % 0x40 + 0x80 - 0x80) = v := by
    omega
  unfold decodeOne
  simp only [ha, hb, hc, hsecond, isContinuation_low, if_true]
  rw [if_neg (by omega), if_neg (by omega), if_pos (by omega), hvalue]

private theorem decodeOne_four {v : Nat} (hlow : 0xffff < v) (hhigh : v < 0x110000)
    (rest : List UInt8) :
    decodeOne (UInt8.ofNat (v / 262144 % 0x08 + 0xf0))
        (UInt8.ofNat (v / 4096 % 0x40 + 0x80) :: UInt8.ofNat (v / 64 % 0x40 + 0x80) ::
          UInt8.ofNat (v % 0x40 + 0x80) :: rest) = (Char.ofNat v, rest) := by
  have ha : (UInt8.ofNat (v / 262144 % 0x08 + 0xf0)).toNat = v / 262144 % 0x08 + 0xf0 :=
    toNat_ofNat_of_lt (by omega)
  have hb : (UInt8.ofNat (v / 4096 % 0x40 + 0x80)).toNat = v / 4096 % 0x40 + 0x80 :=
    toNat_ofNat_of_lt (by omega)
  have hc : (UInt8.ofNat (v / 64 % 0x40 + 0x80)).toNat = v / 64 % 0x40 + 0x80 :=
    toNat_ofNat_of_lt (by omega)
  have hd : (UInt8.ofNat (v % 0x40 + 0x80)).toNat = v % 0x40 + 0x80 :=
    toNat_ofNat_of_lt (by omega)
  have hsecond : secondOfFour (UInt8.ofNat (v / 262144 % 0x08 + 0xf0))
      (UInt8.ofNat (v / 4096 % 0x40 + 0x80)) = true := by
    simp only [secondOfFour, isContinuation_low, ha, hb, Bool.and_true, Bool.or_eq_true,
      Bool.and_eq_true, decide_eq_true_eq]
    omega
  have hvalue : (v / 262144 % 0x08 + 0xf0 - 0xF0) * 262144 +
      (v / 4096 % 0x40 + 0x80 - 0x80) * 4096 + (v / 64 % 0x40 + 0x80 - 0x80) * 64 +
      (v % 0x40 + 0x80 - 0x80) = v := by
    omega
  unfold decodeOne
  simp only [ha, hb, hc, hd, hsecond, isContinuation_low, if_true]
  rw [if_neg (by omega), if_neg (by omega), if_neg (by omega), if_pos (by omega), hvalue]

private theorem fromUtf8Lossy_utf8EncodeChar (c : Char) (rest : List UInt8) :
    fromUtf8Lossy (String.utf8EncodeChar c ++ rest) = c :: fromUtf8Lossy rest := by
  have hvalid : c.toNat < 0xD800 ∨ 0xDFFF < c.toNat ∧ c.toNat < 0x110000 := c.valid
  have hchar : Char.ofNat c.toNat = c := Char.ofNat_toNat c
  have hval : c.val.toNat = c.toNat := rfl
  simp only [String.utf8EncodeChar, hval]
  by_cases h1 : c.toNat ≤ 0x7f
  · rw [if_pos h1, List.singleton_append, fromUtf8Lossy, decodeOne_one h1, hchar]
  · rw [if_neg h1]
    by_cases h2 : c.toNat ≤ 0x7ff
    · rw [if_pos h2, List.cons_append, List.singleton_append, fromUtf8Lossy,
        decodeOne_two (by omega) h2, hchar]
    · rw [if_neg h2]
      by_cases h3 : c.toNat ≤ 0xffff
      · rw [if_pos h3, List.cons_append, List.cons_append, List.singleton_append, fromUtf8Lossy,
          decodeOne_three (by omega) h3 (by omega), hchar]
      · rw [if_neg h3, List.cons_append, List.cons_append, List.cons_append,
          List.singleton_append, fromUtf8Lossy, decodeOne_four (by omega) (by omega), hchar]

/-- Decoding inverts encoding. -/
theorem fromUtf8Lossy_utf8Encode (cs : List Char) : fromUtf8Lossy (utf8Encode cs) = cs := by
  unfold utf8Encode
  induction cs with
  | nil => rw [List.flatMap_nil, fromUtf8Lossy]
  | cons c cs ih => rw [List.flatMap_cons, fromUtf8Lossy_utf8EncodeChar, ih]

/-- Texts with the same octets are the same. -/
theorem utf8Encode_injective : Function.Injective utf8Encode :=
  Function.LeftInverse.injective fromUtf8Lossy_utf8Encode

/-- Only NUL is encoded with a zero octet. -/
theorem eq_nul_of_zero_mem {c : Char} (h : 0 ∈ String.utf8EncodeChar c) : c.toNat = 0 := by
  have hval : c.val.toNat = c.toNat := rfl
  have hlarge : ∀ n : Nat, 0x80 ≤ n → n < 256 → (0 : UInt8) ≠ UInt8.ofNat n := by
    intro n hlow hhigh heq
    have hn := congrArg UInt8.toNat heq
    rw [toNat_ofNat_of_lt hhigh, UInt8.toNat_zero] at hn
    omega
  simp only [String.utf8EncodeChar, hval] at h
  by_contra hne
  split at h
  · rw [List.mem_singleton] at h
    have hn := congrArg UInt8.toNat h
    rw [toNat_ofNat_of_lt (by omega), UInt8.toNat_zero] at hn
    omega
  · -- every other octet has its high bit set
    split at h
    · simp only [List.mem_cons, List.not_mem_nil, or_false] at h
      rcases h with h | h <;> exact hlarge _ (by omega) (by omega) h
    · split at h
      · simp only [List.mem_cons, List.not_mem_nil, or_false] at h
        rcases h with h | h | h <;> exact hlarge _ (by omega) (by omega) h
      · simp only [List.mem_cons, List.not_mem_nil, or_false] at h
        rcases h with h | h | h | h <;> exact hlarge _ (by omega) (by omega) h

/-- A text without NUL is encoded without zeros. -/
theorem zero_notMem_utf8Encode {cs : List Char} (h : ∀ c ∈ cs, c.toNat ≠ 0) :
    0 ∉ utf8Encode cs := by
  intro hmem
  obtain ⟨c, hc, hzero⟩ := List.mem_flatMap.mp hmem
  exact h c hc (eq_nul_of_zero_mem hzero)

/-- Only the empty text has no octets. -/
theorem utf8Encode_eq_nil_iff {cs : List Char} : utf8Encode cs = [] ↔ cs = [] := by
  constructor
  · intro h
    exact utf8Encode_injective (h.trans rfl)
  · rintro rfl
    rfl

end Text
