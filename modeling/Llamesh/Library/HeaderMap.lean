import Llamesh.Library.Text

/-!
# HTTP header maps

Field names and values as the `http` crate keeps them, and a map from a name to the list of its
values. A name is a non-empty token in lower case, a value a string of octets without control
octets; both carry that as a field, so a map of invalid fields cannot be built.

Only the order of the values of one name is observable through `get` and `getAll`: a map is
therefore the list of its fields in the order in which they were added.
-/

namespace Http

/-- The octets of a field name after normalisation, given by character code: lower-case letters,
digits and the token punctuation of the `http` crate's table. -/
def isTokenChar (c : Char) : Bool :=
  c.isLower || c.isDigit || c.toNat ∈ [0x21, 0x23, 0x24, 0x25, 0x26, 0x27, 0x2A, 0x2B, 0x2D, 0x2E,
    0x5E, 0x5F, 0x60, 0x7C, 0x7E]

/-- The longest field name the `http` crate accepts. -/
def maxHeaderNameLength : Nat := 65535

/-- A field name: a non-empty token, in lower case. -/
structure HeaderName where
  text : List Char
  valid : text ≠ [] ∧ text.all isTokenChar ∧ text.length ≤ maxHeaderNameLength
deriving DecidableEq

/-- `HeaderName::from_bytes` on the octets of `cs`: letters are lowered, anything else outside the
table is an error. -/
def HeaderName.fromBytes (cs : List Char) : Option HeaderName :=
  let text := cs.map Char.toLower
  if h : text ≠ [] ∧ text.all isTokenChar ∧ text.length ≤ maxHeaderNameLength then some ⟨text, h⟩
  else none

/-- The octets a field value may hold: no control octet but the tab. -/
def isValueOctet (b : UInt8) : Bool := (32 ≤ b && b ≠ 127) || b == 9

/-- The octets `HeaderValue::to_str` accepts: visible ASCII, the space and the tab. -/
def isVisibleOctet (b : UInt8) : Bool := (32 ≤ b && b < 127) || b == 9

/-- A field value. -/
structure HeaderValue where
  octets : List UInt8
  valid : octets.all isValueOctet
deriving DecidableEq

/-- `HeaderValue::from_str`: the UTF-8 octets of the text, when all are allowed in a value. -/
def HeaderValue.fromStr (cs : List Char) : Option HeaderValue :=
  let octets := cs.flatMap String.utf8EncodeChar
  if h : octets.all isValueOctet then some ⟨octets, h⟩ else none

/-- `HeaderValue::to_str`. -/
def HeaderValue.toStr (v : HeaderValue) : Option (List Char) :=
  if v.octets.all isVisibleOctet then some (v.octets.map fun b => Char.ofNat b.toNat) else none

/-- The text of a value that `to_str` accepts. -/
def HeaderValue.text (v : HeaderValue) : List Char := v.octets.map fun b => Char.ofNat b.toNat

/-- Visible ASCII, with spaces and tabs only inside. -/
def HeaderValue.IsTrimmed (v : HeaderValue) : Prop :=
  v.octets.all isVisibleOctet ∧ (∀ b ∈ v.octets.head?, b ≠ 32 ∧ b ≠ 9) ∧
    ∀ b ∈ v.octets.getLast?, b ≠ 32 ∧ b ≠ 9

instance (v : HeaderValue) : Decidable v.IsTrimmed :=
  decidable_of_iff (v.octets.all isVisibleOctet = true ∧
      (v.octets.head?.all fun b => b ≠ 32 ∧ b ≠ 9) = true ∧
      (v.octets.getLast?.all fun b => b ≠ 32 ∧ b ≠ 9) = true) <| by
    simp only [HeaderValue.IsTrimmed, Option.all_eq_true, Option.mem_def, decide_eq_true_eq]

/-- `HeaderMap`: the fields in the order in which they were added. -/
abbrev HeaderMap := List (HeaderName × HeaderValue)

namespace HeaderMap

/-- `HeaderMap::get_all`: the values of a name, in order. -/
def getAll (name : HeaderName) (h : HeaderMap) : List HeaderValue :=
  (h.filter (·.1 = name)).map (·.2)

/-- `HeaderMap::get`: the first value of a name. -/
def get (name : HeaderName) (h : HeaderMap) : Option HeaderValue := (getAll name h).head?

/-- `HeaderMap::remove`: drops every value of a name. -/
def remove (name : HeaderName) (h : HeaderMap) : HeaderMap := h.filter (·.1 ≠ name)

/-- `HeaderMap::append`: adds a value after the values the name has. -/
def append (name : HeaderName) (v : HeaderValue) (h : HeaderMap) : HeaderMap := h ++ [(name, v)]

/-- `HeaderMap::insert`: replaces every value of a name by one. -/
def insert (name : HeaderName) (v : HeaderValue) (h : HeaderMap) : HeaderMap :=
  append name v (remove name h)

/-- What a loop over a map may visit, in order: the values of a name in their order, the names in
any. -/
def IsIteration (fields h : HeaderMap) : Prop := ∀ name, getAll name fields = getAll name h

variable {name other : HeaderName} {v : HeaderValue} {h : HeaderMap}

/-- A removed name has no values. -/
@[simp] theorem getAll_remove_self : getAll name (remove name h) = [] := by
  simp [getAll, remove, List.filter_filter]

/-- The other names keep theirs. -/
@[simp] theorem getAll_remove_of_ne (hne : other ≠ name) :
    getAll name (remove other h) = getAll name h := by
  unfold getAll remove
  rw [List.filter_filter]
  congr 1
  apply List.filter_congr
  intro field _
  by_cases hf : field.1 = name
  · simp [hf, hne.symm]
  · simp [hf]

/-- An appended value is the last of its name. -/
@[simp] theorem getAll_append_self : getAll name (append name v h) = getAll name h ++ [v] := by
  simp [getAll, append]

/-- Appending leaves the other names. -/
@[simp] theorem getAll_append_of_ne (hne : other ≠ name) :
    getAll name (append other v h) = getAll name h := by
  simp [getAll, append, hne]

/-- After an insertion the name has exactly the inserted value. -/
@[simp] theorem getAll_insert_self : getAll name (insert name v h) = [v] := by
  simp [insert]

/-- Inserting leaves the other names. -/
@[simp] theorem getAll_insert_of_ne (hne : other ≠ name) :
    getAll name (insert other v h) = getAll name h := by
  simp [insert, hne]

/-- The values of a name are the values of its fields. -/
theorem mem_getAll : v ∈ getAll name h ↔ (name, v) ∈ h := by
  simp [getAll]

/-- A loop over a map visits its fields and nothing else. -/
theorem IsIteration.mem_iff {fields : HeaderMap} (hfields : IsIteration fields h)
    (field : HeaderName × HeaderValue) : field ∈ fields ↔ field ∈ h := by
  rw [← mem_getAll, ← mem_getAll, hfields field.1]

/-- The first field of a name has its first value. -/
theorem map_find?_name (name : HeaderName) (h : HeaderMap) :
    (h.find? (·.1 = name)).map (·.2) = get name h := by
  rw [get, getAll, List.head?_map, List.head?_filter]

/-- A loop over a map finds the first value of a name. -/
theorem IsIteration.get {fields : HeaderMap} (hfields : IsIteration fields h)
    (name : HeaderName) : get name fields = get name h := by
  rw [HeaderMap.get, HeaderMap.get, hfields name]

/-- Leaving out fields by name leaves out the values of these names. -/
theorem getAll_filter (p : HeaderName → Bool) :
    getAll name (h.filter fun field => p field.1) = if p name then getAll name h else [] := by
  unfold getAll
  rw [List.filter_filter]
  by_cases hname : p name
  · rw [if_pos hname]
    congr 1
    apply List.filter_congr
    intro field _
    by_cases hfield : field.1 = name
    · simp [hfield, hname]
    · simp [hfield]
  · rw [if_neg hname, List.map_eq_nil_iff, List.filter_eq_nil_iff]
    intro field _
    by_cases hfield : field.1 = name
    · simp [hfield, hname]
    · simp [hfield]

end HeaderMap

/-! ## Names -/

private theorem toNat_of_isTokenChar {c : Char} (h : isTokenChar c) :
    33 ≤ c.toNat ∧ c.toNat ≤ 126 ∧ c.toNat ≠ 58 ∧ ¬(65 ≤ c.toNat ∧ c.toNat ≤ 90) := by
  simp only [isTokenChar, Bool.or_eq_true, decide_eq_true_eq, Char.isDigit,
    Bool.and_eq_true, List.mem_cons, List.not_mem_nil, or_false] at h
  rcases h with (hletter | ⟨hlow, hhigh⟩) | hpunctuation
  · change (decide _ && decide _) = true at hletter
    rw [Bool.and_eq_true, decide_eq_true_eq, decide_eq_true_eq] at hletter
    have hlow : 97 ≤ c.toNat := hletter.1
    have hhigh : c.toNat ≤ 122 := hletter.2
    omega
  · have hlow' : 48 ≤ c.toNat := hlow
    have hhigh' : c.toNat ≤ 57 := hhigh
    omega
  · omega

/-- A name holds visible characters only, and no colon. -/
theorem HeaderName.of_mem_text {name : HeaderName} {c : Char} (h : c ∈ name.text) :
    Text.isWhitespace c = false ∧ c ≠ ':' ∧ c ≠ '\n' := by
  have hnat := toNat_of_isTokenChar (List.all_eq_true.mp name.valid.2.1 c h)
  refine ⟨?_, ?_, ?_⟩
  · exact Text.isWhitespace_of_visible (by omega) (by omega)
  · rintro rfl
    exact hnat.2.2.1 rfl
  · rintro rfl
    exact absurd hnat.1 (by decide)

/-- A name is ASCII. -/
theorem HeaderName.ascii_of_mem_text {name : HeaderName} {c : Char} (h : c ∈ name.text) :
    c.toNat < 128 := by
  have hnat := toNat_of_isTokenChar (List.all_eq_true.mp name.valid.2.1 c h)
  omega

private theorem toLower_of_isTokenChar {c : Char} (h : isTokenChar c) : c.toLower = c := by
  have hnat := (toNat_of_isTokenChar h).2.2.2
  unfold Char.toLower
  split
  · next hupper =>
    have hlow : 65 ≤ c.toNat := hupper.1
    have hhigh : c.toNat ≤ 90 := hupper.2
    exact absurd ⟨hlow, hhigh⟩ hnat
  · rfl

/-- A text is read as a name when it is the name up to letter case. -/
theorem HeaderName.fromBytes_eq_some_iff {cs : List Char} {name : HeaderName} :
    fromBytes cs = some name ↔ cs.map Char.toLower = name.text := by
  unfold fromBytes
  constructor
  · intro h
    dsimp only at h
    split at h
    · rw [← Option.some.inj h]
    · cases h
  · intro h
    simp only [h]
    exact dif_pos name.valid

/-- The text of a name is read as that name. -/
theorem HeaderName.fromBytes_text (name : HeaderName) : fromBytes name.text = some name := by
  have hlower : name.text.map Char.toLower = name.text := by
    conv_rhs => rw [← List.map_id name.text]
    apply List.map_congr_left
    intro c hc
    exact toLower_of_isTokenChar (List.all_eq_true.mp name.valid.2.1 c hc)
  exact fromBytes_eq_some_iff.mpr hlower

/-! ## Values written as visible text -/

private theorem utf8EncodeChar_ascii {c : Char} (hc : c.toNat < 128) :
    String.utf8EncodeChar c = [UInt8.ofNat c.toNat] := by
  have hle : c.val.toNat ≤ 0x7f := by
    show c.toNat ≤ 127
    omega
  simp only [String.utf8EncodeChar, hle, if_true]
  rfl

private theorem flatMap_utf8EncodeChar_ascii {cs : List Char} (h : ∀ c ∈ cs, c.toNat < 128) :
    cs.flatMap String.utf8EncodeChar = cs.map fun c => UInt8.ofNat c.toNat := by
  induction cs with
  | nil => rfl
  | cons c cs ih =>
    rw [List.flatMap_cons, utf8EncodeChar_ascii (h c List.mem_cons_self),
      ih fun d hd => h d (List.mem_cons_of_mem c hd), List.map_cons, List.singleton_append]

private theorem toNat_ofNat_ascii {n : Nat} (h : n < 128) : (UInt8.ofNat n).toNat = n := by
  rw [UInt8.toNat_ofNat']
  omega

private theorem isVisibleOctet_ascii {n : Nat} (h₁ : 32 ≤ n) (h₂ : n < 127) :
    isVisibleOctet (UInt8.ofNat n) := by
  have htoNat : (UInt8.ofNat n).toNat = n := toNat_ofNat_ascii (by omega)
  simp only [isVisibleOctet, Bool.or_eq_true, Bool.and_eq_true, decide_eq_true_eq,
    UInt8.le_iff_toNat_le, UInt8.lt_iff_toNat_lt, htoNat]
  exact Or.inl ⟨h₁, h₂⟩

private theorem isValueOctet_of_visible {b : UInt8} (h : isVisibleOctet b) : isValueOctet b := by
  simp only [isVisibleOctet, isValueOctet, Bool.or_eq_true, Bool.and_eq_true, decide_eq_true_eq,
    ne_eq] at h ⊢
  rcases h with ⟨hlow, hhigh⟩ | htab
  · refine Or.inl ⟨hlow, ?_⟩
    rintro rfl
    exact absurd hhigh (by decide)
  · exact Or.inr htab

/-- Visible ASCII text is a field value and reads back as it was written. -/
theorem HeaderValue.toStr_fromStr {cs : List Char} (h : ∀ c ∈ cs, 32 ≤ c.toNat ∧ c.toNat < 127) :
    ∃ v, HeaderValue.fromStr cs = some v ∧ v.toStr = some cs := by
  have hoctets : cs.flatMap String.utf8EncodeChar = cs.map fun c => UInt8.ofNat c.toNat :=
    flatMap_utf8EncodeChar_ascii fun c hc => by have := h c hc; omega
  have hvisible : (cs.flatMap String.utf8EncodeChar).all isVisibleOctet := by
    rw [hoctets, List.all_map, List.all_eq_true]
    intro c hc
    exact isVisibleOctet_ascii (h c hc).1 (h c hc).2
  have hvalid : (cs.flatMap String.utf8EncodeChar).all isValueOctet := by
    rw [List.all_eq_true] at hvisible ⊢
    intro b hb
    exact isValueOctet_of_visible (hvisible b hb)
  refine ⟨⟨cs.flatMap String.utf8EncodeChar, hvalid⟩, ?_, ?_⟩
  · simp only [fromStr, hvalid, dite_true]
  · simp only [toStr, hvisible, if_true]
    congr 1
    rw [hoctets, List.map_map]
    conv_rhs => rw [← List.map_id cs]
    apply List.map_congr_left
    intro c hc
    have htoNat : (UInt8.ofNat c.toNat).toNat = c.toNat :=
      toNat_ofNat_ascii (by have := h c hc; omega)
    simp only [Function.comp_apply, htoNat, id_eq, Char.ofNat_toNat]

/-- A decimal is visible ASCII text. -/
theorem visible_toDecimal {n : Nat} {c : Char} (h : c ∈ Text.toDecimal n) :
    32 ≤ c.toNat ∧ c.toNat < 127 := by
  have hdigit := Text.toNat_of_mem_toDecimal h
  omega

private theorem toNat_of_isVisibleOctet {b : UInt8} (h : isVisibleOctet b) :
    (32 ≤ b.toNat ∧ b.toNat < 127) ∨ b.toNat = 9 := by
  simp only [isVisibleOctet, Bool.or_eq_true, Bool.and_eq_true, decide_eq_true_eq, beq_iff_eq,
    UInt8.le_iff_toNat_le, UInt8.lt_iff_toNat_lt] at h
  rcases h with ⟨hlow, hhigh⟩ | rfl
  · exact Or.inl ⟨hlow, hhigh⟩
  · exact Or.inr rfl

private theorem toNat_char_of_lt {n : Nat} (h : n < 128) : (Char.ofNat n).toNat = n := by
  have hvalid : n.isValidChar := Or.inl (by omega)
  rw [Char.ofNat, dif_pos hvalid]
  rfl

variable {v : HeaderValue}

/-- A trimmed value is text. -/
theorem HeaderValue.IsTrimmed.toStr (h : v.IsTrimmed) : v.toStr = some v.text := by
  rw [HeaderValue.toStr, if_pos h.1, HeaderValue.text]

/-- A value without blanks is trimmed. -/
theorem HeaderValue.isTrimmed_of_toStr {cs : List Char} (h : v.toStr = some cs)
    (hcs : ∀ c ∈ cs, 32 < c.toNat) : v.IsTrimmed := by
  unfold HeaderValue.toStr at h
  split at h
  · next hvisible =>
    obtain rfl := Option.some.inj h
    have hoctets : ∀ b ∈ v.octets, b ≠ 32 ∧ b ≠ 9 := by
      intro b hb
      have hchar := hcs _ (List.mem_map_of_mem hb)
      have hnat := toNat_of_isVisibleOctet (List.all_eq_true.mp hvisible b hb)
      rw [toNat_char_of_lt (by omega)] at hchar
      constructor
      · rintro rfl
        exact absurd hchar (by decide)
      · rintro rfl
        exact absurd hchar (by decide)
    exact ⟨hvisible, fun b hb => hoctets b (List.mem_of_head? hb),
      fun b hb => hoctets b (List.mem_of_getLast? hb)⟩
  · cases h

/-- A visible value is read back from its text. -/
theorem HeaderValue.IsTrimmed.fromStr_text (h : v.IsTrimmed) :
    HeaderValue.fromStr v.text = some v := by
  have hvisible := List.all_eq_true.mp h.1
  have hascii : ∀ b ∈ v.octets, b.toNat < 128 := by
    intro b hb
    have := toNat_of_isVisibleOctet (hvisible b hb)
    omega
  have hoctets : v.text.flatMap String.utf8EncodeChar = v.octets := by
    rw [HeaderValue.text, flatMap_utf8EncodeChar_ascii, List.map_map]
    · conv_rhs => rw [← List.map_id v.octets]
      apply List.map_congr_left
      intro b hb
      simp only [Function.comp_apply, toNat_char_of_lt (hascii b hb), UInt8.ofNat_toNat, id_eq]
    · intro c hc
      obtain ⟨b, hb, rfl⟩ := List.mem_map.mp hc
      rw [toNat_char_of_lt (hascii b hb)]
      exact hascii b hb
  simp only [HeaderValue.fromStr, hoctets, v.valid, dite_true]

/-- A visible value holds no line feed. -/
theorem HeaderValue.IsTrimmed.newline_notMem (h : v.IsTrimmed) : '\n' ∉ v.text := by
  intro hmem
  obtain ⟨b, hb, hchar⟩ := List.mem_map.mp hmem
  have hb' := toNat_of_isVisibleOctet (List.all_eq_true.mp h.1 b hb)
  have hnat := congrArg Char.toNat hchar
  rw [toNat_char_of_lt (by omega)] at hnat
  have hten : ('\n').toNat = 10 := rfl
  omega

private theorem isWhitespace_visible {b : UInt8} (h : isVisibleOctet b) (hspace : b ≠ 32 ∧ b ≠ 9) :
    Text.isWhitespace (Char.ofNat b.toNat) = false := by
  have hb := toNat_of_isVisibleOctet h
  have h32 : b.toNat ≠ 32 := fun heq => hspace.1 (UInt8.toNat_inj.mp heq)
  have h9 : b.toNat ≠ 9 := fun heq => hspace.2 (UInt8.toNat_inj.mp heq)
  have hnat : (Char.ofNat b.toNat).toNat = b.toNat := toNat_char_of_lt (by omega)
  exact Text.isWhitespace_of_visible (by omega) (by omega)

/-- Trimming keeps a value without surrounding whitespace, also after the space that separates it
from its name. -/
theorem HeaderValue.IsTrimmed.trim_space (h : v.IsTrimmed) :
    Text.trim (' ' :: v.text) = v.text := by
  have hvisible := List.all_eq_true.mp h.1
  apply Text.trim_space
  · intro c hc
    rw [HeaderValue.text, List.head?_map, Option.mem_def, Option.map_eq_some_iff] at hc
    obtain ⟨b, hb, rfl⟩ := hc
    exact isWhitespace_visible (hvisible b (List.mem_of_head? hb)) (h.2.1 b hb)
  · intro c hc
    rw [HeaderValue.text, List.getLast?_map, Option.mem_def, Option.map_eq_some_iff] at hc
    obtain ⟨b, hb, rfl⟩ := hc
    exact isWhitespace_visible (hvisible b (List.mem_of_getLast? hb)) (h.2.2 b hb)

/-- The texts of field values: visible ASCII, spaces and tabs. -/
theorem HeaderValue.exists_toStr_iff {cs : List Char} :
    (∃ v : HeaderValue, v.toStr = some cs) ↔
      ∀ c ∈ cs, (32 ≤ c.toNat ∧ c.toNat < 127) ∨ c.toNat = 9 := by
  constructor
  · rintro ⟨v, hv⟩ c hc
    unfold toStr at hv
    split at hv
    · next hvisible =>
      obtain rfl := Option.some.inj hv
      obtain ⟨b, hb, rfl⟩ := List.mem_map.mp hc
      have hnat := toNat_of_isVisibleOctet (List.all_eq_true.mp hvisible b hb)
      rw [toNat_char_of_lt (by omega)]
      exact hnat
    · cases hv
  · intro h
    have htoNat : ∀ c ∈ cs, (UInt8.ofNat c.toNat).toNat = c.toNat := fun c hc =>
      toNat_ofNat_ascii (by rcases h c hc with h | h <;> omega)
    have hvisible : (cs.map fun c => UInt8.ofNat c.toNat).all isVisibleOctet := by
      rw [List.all_map, List.all_eq_true]
      intro c hc
      rcases h c hc with hrange | htab
      · exact isVisibleOctet_ascii hrange.1 hrange.2
      · rw [Function.comp_apply, htab]
        decide
    have hvalid : (cs.map fun c => UInt8.ofNat c.toNat).all isValueOctet := by
      rw [List.all_eq_true] at hvisible ⊢
      exact fun b hb => isValueOctet_of_visible (hvisible b hb)
    refine ⟨⟨_, hvalid⟩, ?_⟩
    rw [toStr, if_pos hvisible, List.map_map]
    congr 1
    conv_rhs => rw [← List.map_id cs]
    apply List.map_congr_left
    intro c hc
    simp only [Function.comp_apply, htoNat c hc, id_eq, Char.ofNat_toNat]

end Http
