import Llamesh.Library.Text

/-!
# Base64

The standard alphabet with padding. A codec is given by its laws: each text it accepts is the
encoding of what it decodes to, so no octets have two encodings. `Base64.standard` is such a codec.
-/

namespace Base64

/-- An encoder and a decoder that accepts encodings only. -/
structure Codec where
  encode : List UInt8 → List Char
  decode : List Char → Except String (List UInt8)
  decode_encode : ∀ octets, decode (encode octets) = .ok octets
  encode_decode : ∀ {text octets}, decode text = .ok octets → encode octets = text
  length_encode : ∀ octets, (encode octets).length = (octets.length + 2) / 3 * 4
  not_whitespace : ∀ octets, ∀ c ∈ encode octets, Text.isWhitespace c = false

/-- The alphabet. -/
def digit (n : Nat) : Char :=
  if n < 26 then Char.ofNat (n + 65)
  else if n < 52 then Char.ofNat (n + 71)
  else if n < 62 then Char.ofNat (n - 4)
  else if n = 62 then '+'
  else '/'

/-- The place of a character in the alphabet. -/
def value (c : Char) : Nat :=
  if 65 ≤ c.toNat ∧ c.toNat ≤ 90 then c.toNat - 65
  else if 97 ≤ c.toNat ∧ c.toNat ≤ 122 then c.toNat - 71
  else if 48 ≤ c.toNat ∧ c.toNat ≤ 57 then c.toNat + 4
  else if c = '+' then 62
  else 63

private theorem value_digit {n : Nat} (h : n < 64) : value (digit n) = n := by
  have hall : ∀ n < 64, value (digit n) = n := by decide
  exact hall n h

private theorem digit_ne_pad {n : Nat} (h : n < 64) : digit n ≠ '=' := by
  have hall : ∀ n < 64, digit n ≠ '=' := by decide
  exact hall n h

private theorem digit_not_whitespace {n : Nat} (h : n < 64) : Text.isWhitespace
    (digit n) = false := by
  have hall : ∀ n < 64, Text.isWhitespace (digit n) = false := by decide
  exact hall n h

/-- Three octets as four characters, with padding at the end. -/
def encode : List UInt8 → List Char
  | a :: b :: c :: octets =>
    digit (a.toNat / 4) :: digit (a.toNat % 4 * 16 + b.toNat / 16) ::
      digit (b.toNat % 16 * 4 + c.toNat / 64) :: digit (c.toNat % 64) :: encode octets
  | [a, b] =>
    [digit (a.toNat / 4), digit (a.toNat % 4 * 16 + b.toNat / 16), digit (b.toNat % 16 * 4), '=']
  | [a] => [digit (a.toNat / 4), digit (a.toNat % 4 * 16), '=', '=']
  | [] => []

/-- Four characters as three octets, whatever the characters are. -/
def groups : List Char → List UInt8
  | p :: q :: r :: s :: text =>
    let a := UInt8.ofNat (value p * 4 + value q / 16)
    let b := UInt8.ofNat (value q % 16 * 16 + value r / 4)
    let c := UInt8.ofNat (value r % 4 * 64 + value s)
    if r = '=' then [a]
    else if s = '=' then [a, b]
    else a :: b :: c :: groups text
  | _ => []

/-- A text that is not the encoding of its groups is refused. -/
def decode (text : List Char) : Except String (List UInt8) :=
  if encode (groups text) = text then .ok (groups text) else .error "Invalid input"

private theorem ofNat_eq {n : Nat} {b : UInt8} (h : n = b.toNat) : UInt8.ofNat n = b := by
  rw [h, UInt8.ofNat_toNat]

private theorem groups_encode (octets : List UInt8) : groups (encode octets) = octets := by
  induction octets using encode.induct with
  | case1 a b c octets ih =>
    have ha := a.toNat_lt
    have hb := b.toNat_lt
    have hc := c.toNat_lt
    rw [encode, groups]
    simp only [value_digit (show a.toNat / 4 < 64 by omega),
      value_digit (show a.toNat % 4 * 16 + b.toNat / 16 < 64 by omega),
      value_digit (show b.toNat % 16 * 4 + c.toNat / 64 < 64 by omega),
      value_digit (show c.toNat % 64 < 64 by omega),
      if_neg (digit_ne_pad (show b.toNat % 16 * 4 + c.toNat / 64 < 64 by omega)),
      if_neg (digit_ne_pad (show c.toNat % 64 < 64 by omega)), ih]
    rw [ofNat_eq (b := a) (by omega), ofNat_eq (b := b) (by omega), ofNat_eq (b := c) (by omega)]
  | case2 a b =>
    have ha := a.toNat_lt
    have hb := b.toNat_lt
    rw [encode, groups]
    simp only [value_digit (show a.toNat / 4 < 64 by omega),
      value_digit (show a.toNat % 4 * 16 + b.toNat / 16 < 64 by omega),
      value_digit (show b.toNat % 16 * 4 < 64 by omega),
      if_neg (digit_ne_pad (show b.toNat % 16 * 4 < 64 by omega)), if_true]
    rw [ofNat_eq (b := a) (by omega), ofNat_eq (b := b) (by omega)]
  | case3 a =>
    have ha := a.toNat_lt
    rw [encode, groups]
    simp only [value_digit (show a.toNat / 4 < 64 by omega),
      value_digit (show a.toNat % 4 * 16 < 64 by omega), if_true]
    rw [ofNat_eq (b := a) (by omega)]
  | case4 => rfl

/-- The text has four characters for every three octets begun. -/
theorem length_encode (octets : List UInt8) :
    (encode octets).length = (octets.length + 2) / 3 * 4 := by
  induction octets using encode.induct with
  | case1 a b c octets ih =>
    simp only [encode, List.length_cons, ih]
    omega
  | case2 a b => simp [encode]
  | case3 a => simp [encode]
  | case4 => rfl

/-- The text has no white space. -/
theorem not_whitespace (octets : List UInt8) :
    ∀ c ∈ encode octets, Text.isWhitespace c = false := by
  have hpad : Text.isWhitespace '=' = false := by decide
  induction octets using encode.induct with
  | case1 a b c octets ih =>
    have ha := a.toNat_lt
    have hb := b.toNat_lt
    have hc := c.toNat_lt
    simp only [encode, List.forall_mem_cons]
    exact ⟨digit_not_whitespace (by omega), digit_not_whitespace (by omega),
      digit_not_whitespace (by omega), digit_not_whitespace (by omega), ih⟩
  | case2 a b =>
    have ha := a.toNat_lt
    have hb := b.toNat_lt
    simp only [encode, List.forall_mem_cons]
    exact ⟨digit_not_whitespace (by omega), digit_not_whitespace (by omega),
      digit_not_whitespace (by omega), hpad, fun c hc => by cases hc⟩
  | case3 a =>
    have ha := a.toNat_lt
    simp only [encode, List.forall_mem_cons]
    exact ⟨digit_not_whitespace (by omega), digit_not_whitespace (by omega), hpad, hpad,
      fun c hc => by cases hc⟩
  | case4 =>
    intro c hc
    cases hc

/-- The standard codec. -/
def standard : Codec where
  encode := encode
  decode := decode
  decode_encode octets := by rw [decode, groups_encode, if_pos rfl]
  encode_decode := by
    intro text octets h
    unfold decode at h
    split at h
    · next hencode =>
      obtain rfl := Except.ok.inj h
      exact hencode
    · cases h
  length_encode := length_encode
  not_whitespace := not_whitespace

variable {base64 : Codec} {text : List Char} {octets : List UInt8}

/-- A beginning of an encoding that decodes to as many octets is all of it. -/
theorem Codec.eq_of_beginning {other : List UInt8} (hbegin : text <+: base64.encode octets)
    (hdecode : base64.decode text = .ok other) (hlength : other.length = octets.length) :
    other = octets := by
  have htext := base64.encode_decode hdecode
  have heq : text = base64.encode octets := by
    refine hbegin.eq_of_length ?_
    rw [← htext, base64.length_encode, base64.length_encode, hlength]
  rw [heq, base64.decode_encode] at hdecode
  exact (Except.ok.inj hdecode).symm

end Base64
