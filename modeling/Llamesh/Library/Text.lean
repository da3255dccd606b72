import Mathlib.Data.List.DropRight

/-!
# Text as lists of characters

The operations of `str` that line and token formats are written with: trimming, splitting into
lines, fields and words, and unsigned decimal numbers. A text is the list of its `char`s, as
`str::chars` yields them. Whitespace is the Unicode `White_Space` property, which `str::trim` and
`str::split_whitespace` both use.

Each operation comes with the equation that reads one written piece back (`lines_append_newline`,
`splitWhitespace_append_space`, `parseUnsigned_toDecimal`) and with what its output can contain.
-/

namespace Text

/-- `char::is_whitespace`: the code points with the Unicode property `White_Space`. -/
def isWhitespace (c : Char) : Bool :=
  (0x09 ≤ c.toNat && c.toNat ≤ 0x0D) || c.toNat == 0x20 || c.toNat == 0x85 || c.toNat == 0xA0 ||
    c.toNat == 0x1680 || (0x2000 ≤ c.toNat && c.toNat ≤ 0x200A) || c.toNat == 0x2028 ||
    c.toNat == 0x2029 || c.toNat == 0x202F || c.toNat == 0x205F || c.toNat == 0x3000

/-- `str::trim_start`. -/
def trimStart (cs : List Char) : List Char := cs.dropWhile isWhitespace

/-- `str::trim_end`. -/
def trimEnd (cs : List Char) : List Char := cs.rdropWhile isWhitespace

/-- `str::trim`. -/
def trim (cs : List Char) : List Char := trimEnd (trimStart cs)

/-- `str::split_inclusive`: the pieces up to and including each separator; no empty last piece. -/
def splitInclusive (sep : Char) : List Char → List (List Char)
  | [] => []
  | c :: cs =>
    if c = sep then [c] :: splitInclusive sep cs
    else match splitInclusive sep cs with
      | [] => [[c]]
      | piece :: pieces => (c :: piece) :: pieces

/-- `str::strip_prefix`. -/
def stripPrefix (start cs : List Char) : Option (List Char) :=
  if start.isPrefixOf cs then some (cs.drop start.length) else none

/-- `str::strip_suffix` at one character. -/
def stripSuffix (c : Char) (cs : List Char) : Option (List Char) :=
  if cs.getLast? = some c then some cs.dropLast else none

/-- What `str::lines` drops of a piece: its line feed, and a carriage return before one. -/
def stripLineEnding (cs : List Char) : List Char :=
  match stripSuffix '\n' cs with
  | none => cs
  | some line => (stripSuffix '\r' line).getD line

/-- `str::lines`. -/
def lines (cs : List Char) : List (List Char) := (splitInclusive '\n' cs).map stripLineEnding

/-- `str::split_whitespace`: the non-empty pieces between whitespace. -/
def splitWhitespace (cs : List Char) : List (List Char) :=
  (cs.splitOnP isWhitespace).filter (· ≠ [])

/-- `str::split_once` at one character: what stands before and after its first occurrence. -/
def splitOnce (sep : Char) : List Char → Option (List Char × List Char)
  | [] => none
  | c :: cs =>
    if c = sep then some ([], cs)
    else (splitOnce sep cs).map fun (before, after) => (c :: before, after)

/-- `str::rsplit_once` at one character: what stands before and after its last occurrence. -/
def rsplitOnce (sep : Char) (cs : List Char) : Option (List Char × List Char) :=
  (splitOnce sep cs.reverse).map fun (after, before) => (before.reverse, after.reverse)

/-- `str::splitn` at one character: at most `n` pieces, the last one unsplit. -/
def splitn (sep : Char) : Nat → List Char → List (List Char)
  | 0, _ => []
  | 1, cs => [cs]
  | n + 2, cs =>
    match splitOnce sep cs with
    | none => [cs]
    | some (before, after) => before :: splitn sep (n + 1) after

/-- A text that `split_whitespace` yields as it is: not empty, and without whitespace. -/
def IsWord (cs : List Char) : Prop := cs ≠ [] ∧ ∀ c ∈ cs, isWhitespace c = false

/-- A text without whitespace, by a check of its characters in turn. -/
theorem isWhitespace_of_all {cs : List Char} (h : (cs.all fun c => !isWhitespace c) = true) :
    ∀ c ∈ cs, isWhitespace c = false := by
  intro c hc
  have hnot := List.all_eq_true.mp h c hc
  rwa [Bool.not_eq_true'] at hnot

instance (cs : List Char) : Decidable (IsWord cs) :=
  decidable_of_iff (cs ≠ [] ∧ (cs.all fun c => !isWhitespace c) = true) <| by
    simp [IsWord]

/-- A digit of the standard base64 alphabet. -/
def base64Digit (n : Nat) : Char :=
  "ABCDEFGHIJKLMNOPQRSTUVWXYZabcdefghijklmnopqrstuvwxyz0123456789+/".toList.getD n 'A'

/-- Standard base64 with padding: three octets in four digits. -/
def base64 : List UInt8 → List Char
  | [] => []
  | [a] => [base64Digit (a.toNat / 4), base64Digit (a.toNat % 4 * 16), '=', '=']
  | [a, b] => [base64Digit (a.toNat / 4), base64Digit (a.toNat % 4 * 16 + b.toNat / 16),
      base64Digit (b.toNat % 16 * 4), '=']
  | a :: b :: c :: rest => base64Digit (a.toNat / 4) ::
      base64Digit (a.toNat % 4 * 16 + b.toNat / 16) ::
      base64Digit (b.toNat % 16 * 4 + c.toNat / 64) :: base64Digit (c.toNat % 64) :: base64 rest

/-- `ToString` of an unsigned integer. -/
def toDecimal (n : Nat) : List Char := Nat.toDigits 10 n

/-- `str::parse` at an unsigned integer type with largest value `max`: one leading `+` is accepted,
then at least one ASCII digit and nothing else; a value above `max` is an error. -/
def parseUnsigned (max : Nat) (cs : List Char) : Option Nat :=
  let digits := match cs with
    | '+' :: rest => rest
    | _ => cs
  if digits ≠ [] ∧ digits.all Char.isDigit ∧ Nat.ofDigitChars 10 digits 0 ≤ max then
    some (Nat.ofDigitChars 10 digits 0)
  else none

/-- Visible ASCII is not whitespace. -/
theorem isWhitespace_of_visible {c : Char} (hlow : 0x21 ≤ c.toNat) (hhigh : c.toNat ≤ 0x7E) :
    isWhitespace c = false := by
  simp only [isWhitespace, Bool.or_eq_false_iff, Bool.and_eq_false_iff, decide_eq_false_iff_not,
    beq_eq_false_iff_ne]
  omega

/-! ## Numbers -/

/-- A decimal is never empty. -/
theorem toDecimal_ne_nil (n : Nat) : toDecimal n ≠ [] := Nat.toDigits_ne_nil

/-- Every character of a decimal is an ASCII digit. -/
theorem isDigit_of_mem_toDecimal {n : Nat} {c : Char} (h : c ∈ toDecimal n) : c.isDigit :=
  Nat.isDigit_of_mem_toDigits (by decide) (by decide) h

/-- The code points of a decimal. -/
theorem toNat_of_mem_toDecimal {n : Nat} {c : Char} (h : c ∈ toDecimal n) :
    48 ≤ c.toNat ∧ c.toNat ≤ 57 := by
  have hdigit := isDigit_of_mem_toDecimal h
  simp only [Char.isDigit, Bool.and_eq_true, decide_eq_true_eq] at hdigit
  exact hdigit

/-- A decimal holds no whitespace. -/
theorem isWhitespace_of_mem_toDecimal {n : Nat} {c : Char} (h : c ∈ toDecimal n) :
    isWhitespace c = false := by
  have hdigit := toNat_of_mem_toDecimal h
  exact isWhitespace_of_visible (by omega) (by omega)

/-- A decimal that fits the type reads back as the number it was written from. -/
theorem parseUnsigned_toDecimal {max n : Nat} (h : n ≤ max) :
    parseUnsigned max (toDecimal n) = some n := by
  have hdigits : (toDecimal n).all Char.isDigit := by
    rw [List.all_eq_true]
    intro c hc
    exact isDigit_of_mem_toDecimal hc
  have hvalue : Nat.ofDigitChars 10 (toDecimal n) 0 = n := Nat.ofDigitChars_ten_toDigits
  have hsign : ∀ rest, toDecimal n ≠ '+' :: rest := by
    intro rest heq
    have hplus : ('+').isDigit := isDigit_of_mem_toDecimal (heq ▸ List.mem_cons_self)
    exact absurd hplus (by decide)
  unfold parseUnsigned
  split
  · next rest heq => exact absurd heq (hsign rest)
  · simp only [hvalue, hdigits, ne_eq, toDecimal_ne_nil, not_false_eq_true, h, and_self, if_true]

/-! ## Trimming -/

/-- Trimming keeps a text that neither starts nor ends with whitespace. -/
theorem trim_eq_self {cs : List Char} (hhead : ∀ c ∈ cs.head?, isWhitespace c = false)
    (hlast : ∀ c ∈ cs.getLast?, isWhitespace c = false) : trim cs = cs := by
  have hstart : trimStart cs = cs := by
    cases cs with
    | nil => rfl
    | cons c cs =>
      have hc : isWhitespace c = false := hhead c (by simp)
      simp [trimStart, hc]
  rw [trim, hstart, trimEnd, List.rdropWhile_eq_self_iff]
  intro hne
  have hc := hlast (cs.getLast hne) (by simp [List.getLast?_eq_getLast_of_ne_nil hne])
  simp [hc]

/-- What `trim` removes is whitespace at both ends. -/
theorem exists_trim (cs : List Char) :
    ∃ lead trail, cs = lead ++ (trim cs ++ trail) ∧ (∀ c ∈ lead, isWhitespace c = true) ∧
      ∀ c ∈ trail, isWhitespace c = true := by
  refine ⟨cs.takeWhile isWhitespace, (trimStart cs).rtakeWhile isWhitespace, ?_, ?_, ?_⟩
  · rw [trim, trimEnd, List.rdropWhile_append_rtakeWhile, trimStart,
      List.takeWhile_append_dropWhile]
  · exact fun c hc => List.mem_takeWhile_imp hc
  · exact fun c hc => List.mem_rtakeWhile_imp hc

/-- White space before a text is trimmed. -/
theorem trim_append_left {lead : List Char} (hlead : ∀ c ∈ lead, isWhitespace c = true)
    (cs : List Char) : trim (lead ++ cs) = trim cs := by
  rw [trim, trim, trimStart, trimStart, List.dropWhile_append_of_pos hlead]

private theorem trimEnd_append_right {trail : List Char}
    (htrail : ∀ c ∈ trail, isWhitespace c = true)
    (cs : List Char) : trimEnd (cs ++ trail) = trimEnd cs := by
  have hreverse : ∀ c ∈ trail.reverse, isWhitespace c = true :=
    fun c hc => htrail c (List.mem_reverse.mp hc)
  rw [trimEnd, trimEnd, List.rdropWhile, List.rdropWhile, List.reverse_append,
    List.dropWhile_append_of_pos hreverse]

/-- Whitespace is its own ASCII lower case. -/
theorem toLower_of_isWhitespace {c : Char} (h : isWhitespace c = true) : c.toLower = c := by
  unfold Char.toLower
  split
  · next hupper =>
    have hlow : 65 ≤ c.toNat := hupper.1
    have hhigh : c.toNat ≤ 90 := hupper.2
    rw [isWhitespace_of_visible (by omega) (by omega)] at h
    cases h
  · rfl

/-- A character that is not whitespace protects what is before it. -/
theorem trimEnd_append_cons {c : Char} (hc : isWhitespace c = false) (cs ds : List Char) :
    trimEnd (cs ++ c :: ds) = cs ++ c :: trimEnd ds := by
  induction ds using List.reverseRecOn with
  | nil =>
    rw [trimEnd, List.rdropWhile_concat_neg _ _ _ (by simp [hc])]
    rfl
  | append_singleton ds d ih =>
    rw [← List.cons_append, ← List.append_assoc]
    by_cases hd : isWhitespace d = true
    · rw [trimEnd, List.rdropWhile_concat_pos _ _ _ hd, ← trimEnd, ih, trimEnd, trimEnd,
        List.rdropWhile_concat_pos _ _ _ hd]
    · rw [trimEnd, List.rdropWhile_concat_neg _ _ _ hd, trimEnd,
        List.rdropWhile_concat_neg _ _ _ hd, List.append_assoc, List.cons_append]

section

variable {core : List Char} (hcore : ∀ c ∈ core, isWhitespace c = false)

include hcore

private theorem trimStart_append_of_ne_nil (hne : core ≠ []) (cs : List Char) :
    trimStart (core ++ cs) = core ++ cs := by
  obtain ⟨c, core, rfl⟩ := List.exists_cons_of_ne_nil hne
  rw [trimStart, List.cons_append, List.dropWhile_cons_of_neg (by simp [hcore c])]

/-- A word is what is left of it with whitespace around. -/
theorem trim_padded {lead trail : List Char} (hlead : ∀ c ∈ lead, isWhitespace c = true)
    (htrail : ∀ c ∈ trail, isWhitespace c = true) : trim (lead ++ (core ++ trail)) = core := by
  have hend : trimEnd core = core := by
    rw [trimEnd, List.rdropWhile_eq_self_iff]
    intro hne
    simp [hcore _ (List.getLast_mem hne)]
  rw [trim_append_left hlead]
  by_cases hne : core = []
  · rw [hne, List.nil_append, ← List.append_nil trail, trim_append_left htrail]
    rfl
  · rw [trim, trimStart_append_of_ne_nil hcore hne, trimEnd_append_right htrail, hend]

/-- A word and a character after it are not trimmed. -/
theorem trim_append_cons (hne : core ≠ []) {c : Char} (hc : isWhitespace c = false)
    (cs : List Char) : trim (core ++ c :: cs) = core ++ c :: trimEnd cs := by
  rw [trim, trimStart_append_of_ne_nil hcore hne, trimEnd_append_cons hc]

end

/-- Trimming takes away one space before such a text. -/
theorem trim_space {cs : List Char} (hhead : ∀ c ∈ cs.head?, isWhitespace c = false)
    (hlast : ∀ c ∈ cs.getLast?, isWhitespace c = false) : trim (' ' :: cs) = cs := by
  have hspace : isWhitespace ' ' = true := by decide
  have htrim : trim (' ' :: cs) = trim cs := by
    simp only [trim, trimStart, List.dropWhile_cons, hspace, if_true]
  rw [htrim, trim_eq_self hhead hlast]

/-- A trimmed text does not start with whitespace. -/
theorem head_trim {cs rest : List Char} {c : Char} (h : trim cs = c :: rest) :
    isWhitespace c = false := by
  obtain ⟨tail, htail⟩ : trim cs <+: trimStart cs := List.rdropWhile_prefix _ _
  rw [h, List.cons_append] at htail
  have hdrop : cs.dropWhile isWhitespace = c :: (rest ++ tail) := htail.symm
  have hne : cs.dropWhile isWhitespace ≠ [] := by simp [hdrop]
  have hhead := List.head_dropWhile_not isWhitespace hne
  simpa [hdrop] using hhead

/-! ## Lines -/

private theorem splitInclusive_append {sep : Char} {line : List Char} (h : sep ∉ line)
    (rest : List Char) :
    splitInclusive sep (line ++ sep :: rest) = (line ++ [sep]) :: splitInclusive sep rest := by
  induction line with
  | nil => simp [splitInclusive]
  | cons c line ih =>
    have hc : c ≠ sep := fun heq => h (heq ▸ List.mem_cons_self)
    have hline := ih fun hmem => h (List.mem_cons_of_mem c hmem)
    simp [splitInclusive, hc, hline]

/-- A written line reads back as the first line, if it holds no line feed and does not end with a
carriage return. -/
theorem lines_append_newline {line : List Char} (h : '\n' ∉ line)
    (hlast : line.getLast? ≠ some '\r') (rest : List Char) :
    lines (line ++ '\n' :: rest) = line :: lines rest := by
  rw [lines, splitInclusive_append h, List.map_cons, lines]
  congr 1
  simp [stripLineEnding, stripSuffix, hlast]

/-- The empty text has no lines. -/
@[simp] theorem lines_nil : lines [] = [] := rfl

/-- A line written with a carriage return and a line feed reads back as the first line. -/
theorem lines_append_crlf {line : List Char} (h : '\n' ∉ line) (rest : List Char) :
    lines (line ++ '\r' :: '\n' :: rest) = line :: lines rest := by
  have hcr : '\n' ∉ line ++ ['\r'] := by simp [h]
  have happend : line ++ '\r' :: '\n' :: rest = (line ++ ['\r']) ++ '\n' :: rest := by simp
  rw [happend, lines, splitInclusive_append hcr, List.map_cons, lines]
  congr 1
  simp [stripLineEnding, stripSuffix]

/-- A text without a line feed is its only line. -/
theorem lines_of_no_newline {line : List Char} (hne : line ≠ []) (h : '\n' ∉ line) :
    lines line = [line] := by
  have hsplit : splitInclusive '\n' line = [line] := by
    induction line with
    | nil => exact absurd rfl hne
    | cons c line ih =>
      have hc : c ≠ '\n' := fun heq => h (heq ▸ List.mem_cons_self)
      cases line with
      | nil => simp [splitInclusive, hc]
      | cons d line =>
        have hrest := ih (List.cons_ne_nil d line) fun hmem => h (List.mem_cons_of_mem c hmem)
        rw [splitInclusive, if_neg hc, hrest]
  have hlast : line.getLast? ≠ some '\n' := fun heq => h (List.mem_of_getLast? heq)
  simp [lines, hsplit, stripLineEnding, stripSuffix, hlast]

/-- Lines that are written one by one read back. -/
theorem lines_flatMap_newline {written : List (List Char)}
    (h : ∀ line ∈ written, '\n' ∉ line ∧ line.getLast? ≠ some '\r') :
    lines (written.flatMap (· ++ ['\n'])) = written := by
  induction written with
  | nil => rfl
  | cons line written ih =>
    obtain ⟨hline, hlast⟩ := h line List.mem_cons_self
    rw [List.flatMap_cons, List.append_assoc, List.singleton_append,
      lines_append_newline hline hlast, ih fun l hl => h l (List.mem_cons_of_mem line hl)]

/-! ## Fields -/

/-- A text is cut at the first separator. -/
theorem splitOnce_append {sep : Char} {before : List Char} (h : sep ∉ before)
    (after : List Char) : splitOnce sep (before ++ sep :: after) = some (before, after) := by
  induction before with
  | nil => simp [splitOnce]
  | cons c before ih =>
    have hc : c ≠ sep := fun heq => h (heq ▸ List.mem_cons_self)
    have hrest := ih fun hmem => h (List.mem_cons_of_mem c hmem)
    rw [List.cons_append, splitOnce, if_neg hc, hrest, Option.map_some]

/-- A text is not split exactly where the separator is missing. -/
theorem splitOnce_eq_none_iff {sep : Char} {cs : List Char} :
    splitOnce sep cs = none ↔ sep ∉ cs := by
  induction cs with
  | nil => simp [splitOnce]
  | cons c cs ih =>
    by_cases hc : c = sep
    · simp [splitOnce, hc]
    · rw [splitOnce, if_neg hc, Option.map_eq_none_iff, ih, List.mem_cons, not_or]
      exact ⟨fun h => ⟨Ne.symm hc, h⟩, fun h => h.2⟩

/-- The cut is at the first separator. -/
theorem splitOnce_eq_some_iff {sep : Char} {cs before after : List Char} :
    splitOnce sep cs = some (before, after) ↔ cs = before ++ sep :: after ∧ sep ∉ before := by
  constructor
  · intro h
    induction cs generalizing before with
    | nil => cases h
    | cons c cs ih =>
      rw [splitOnce] at h
      by_cases hc : c = sep
      · rw [if_pos hc, Option.some.injEq, Prod.mk.injEq] at h
        obtain ⟨rfl, rfl⟩ := h
        exact ⟨by rw [hc, List.nil_append], List.not_mem_nil⟩
      · rw [if_neg hc, Option.map_eq_some_iff] at h
        obtain ⟨⟨tail, rest⟩, htail, heq⟩ := h
        obtain ⟨rfl, rfl⟩ := Prod.mk.inj heq
        obtain ⟨rfl, hnot⟩ := ih htail
        exact ⟨rfl, by simp [Ne.symm hc, hnot]⟩
  · rintro ⟨rfl, h⟩
    exact splitOnce_append h after

/-- The cut is at the last separator. -/
theorem rsplitOnce_eq_some_iff {sep : Char} {cs before after : List Char} :
    rsplitOnce sep cs = some (before, after) ↔ cs = before ++ sep :: after ∧ sep ∉ after := by
  have hreverse : cs = before ++ sep :: after ↔
      cs.reverse = after.reverse ++ sep :: before.reverse := by
    rw [← List.reverse_inj]
    simp
  rw [hreverse, ← @List.mem_reverse _ sep after, ← splitOnce_eq_some_iff, rsplitOnce,
    Option.map_eq_some_iff]
  constructor
  · rintro ⟨⟨a, b⟩, hsplit, heq⟩
    obtain ⟨rfl, rfl⟩ := Prod.mk.inj heq
    simpa using hsplit
  · intro hsplit
    exact ⟨_, hsplit, by simp⟩

/-- A text that begins with `start` is cut after it. -/
theorem stripPrefix_append (start cs : List Char) :
    stripPrefix start (start ++ cs) = some cs := by
  have hprefix : start.isPrefixOf (start ++ cs) = true :=
    List.isPrefixOf_iff_prefix.mpr (List.prefix_append start cs)
  rw [stripPrefix, if_pos hprefix, List.drop_left]

/-! ## Words -/

/-- The words of a text are words. -/
theorem isWord_of_mem_splitWhitespace {cs word : List Char} (h : word ∈ splitWhitespace cs) :
    IsWord word := by
  simp only [splitWhitespace, List.mem_filter, decide_eq_true_eq] at h
  refine ⟨h.2, ?_⟩
  have hpiece := h.1
  clear h
  induction cs generalizing word with
  | nil =>
    have hnil : word = [] := by simpa using hpiece
    simp [hnil]
  | cons c cs ih =>
    rw [List.splitOnP_cons_eq_if_modifyHead] at hpiece
    split at hpiece
    · rcases List.mem_cons.mp hpiece with rfl | hmem
      · simp
      · exact ih hmem
    · next hc =>
      cases hsplit : cs.splitOnP isWhitespace with
      | nil => exact absurd hsplit (List.splitOnP_ne_nil _ _)
      | cons piece pieces =>
        rw [hsplit, List.modifyHead_cons, List.mem_cons] at hpiece
        rcases hpiece with rfl | hmem
        · intro d hd
          rcases List.mem_cons.mp hd with rfl | hd
          · simpa using hc
          · exact ih (hsplit ▸ List.mem_cons_self) d hd
        · exact ih (hsplit ▸ List.mem_cons_of_mem _ hmem)

private theorem isWhitespace_base64Digit (n : Nat) : isWhitespace (base64Digit n) = false := by
  have hall :
      (('A' :: "ABCDEFGHIJKLMNOPQRSTUVWXYZabcdefghijklmnopqrstuvwxyz0123456789+/".toList).all
      fun c => !isWhitespace c) = true := by
    decide
  apply isWhitespace_of_all hall
  unfold base64Digit
  rw [List.getD_eq_getElem?_getD]
  cases hget : ("ABCDEFGHIJKLMNOPQRSTUVWXYZabcdefghijklmnopqrstuvwxyz0123456789+/".toList)[n]? with
  | none => exact List.mem_cons_self
  | some c => exact List.mem_cons_of_mem _ (List.mem_of_getElem? hget)

/-- Base64 text holds no whitespace. -/
theorem isWhitespace_of_mem_base64 {octets : List UInt8} {c : Char} (h : c ∈ base64 octets) :
    isWhitespace c = false := by
  have hpad : isWhitespace '=' = false := by decide
  induction octets using base64.induct with
  | case1 => cases h
  | case2 a =>
    simp only [base64, List.mem_cons, List.not_mem_nil, or_false] at h
    rcases h with rfl | rfl | rfl | rfl <;>
      first | exact isWhitespace_base64Digit _ | exact hpad
  | case3 a b =>
    simp only [base64, List.mem_cons, List.not_mem_nil, or_false] at h
    rcases h with rfl | rfl | rfl | rfl <;>
      first | exact isWhitespace_base64Digit _ | exact hpad
  | case4 a b c rest ih =>
    simp only [base64, List.mem_cons] at h
    rcases h with rfl | rfl | rfl | rfl | hrest
    · exact isWhitespace_base64Digit _
    · exact isWhitespace_base64Digit _
    · exact isWhitespace_base64Digit _
    · exact isWhitespace_base64Digit _
    · exact ih hrest

/-- A word and the whitespace after it read back as the first word. -/
theorem splitWhitespace_append_space {word : List Char} {c : Char} (h : IsWord word)
    (hc : isWhitespace c = true) (rest : List Char) :
    splitWhitespace (word ++ c :: rest) = word :: splitWhitespace rest := by
  rw [splitWhitespace, List.splitOnP_append_cons_of_forall_mem h.2 c hc,
    List.filter_cons_of_pos (by simp [h.1]), splitWhitespace]

/-- A word is its only word. -/
theorem splitWhitespace_word {word : List Char} (h : IsWord word) :
    splitWhitespace word = [word] := by
  rw [splitWhitespace, List.splitOnP_eq_singleton h.2, List.filter_cons_of_pos (by simp [h.1]),
    List.filter_nil]

/-- A text that does not start with whitespace starts with its first word. -/
theorem splitWhitespace_cons {c : Char} (hc : isWhitespace c = false) (cs : List Char) :
    ∃ word words, splitWhitespace (c :: cs) = (c :: word) :: words := by
  unfold splitWhitespace
  rw [List.splitOnP_cons_eq_if_modifyHead, if_neg (by simp [hc])]
  cases hsplit : cs.splitOnP isWhitespace with
  | nil => exact absurd hsplit (List.splitOnP_ne_nil _ _)
  | cons piece pieces =>
    refine ⟨piece, pieces.filter (· ≠ []), ?_⟩
    rw [List.modifyHead_cons, List.filter_cons_of_pos (by simp)]

/-- The pieces at a separator: the parts without one that reach from one to the next. -/
theorem mem_splitOn_iff {α : Type} [DecidableEq α] {sep : α} {cs piece : List α} :
    piece ∈ cs.splitOn sep ↔ sep ∉ piece ∧ ∃ before after, cs = before ++ (piece ++ after) ∧
      (before = [] ∨ ∃ init, before = init ++ [sep]) ∧
      (after = [] ∨ ∃ rest, after = sep :: rest) := by
  constructor
  · intro h
    induction hn : cs.length using Nat.strong_induction_on generalizing cs with
    | _ n ih =>
    by_cases hsep : sep ∈ cs
    · obtain ⟨first, rest, rfl, hfirst⟩ := List.eq_append_cons_of_mem hsep
      rw [List.splitOn_append_cons_self, List.splitOn_eq_singleton hfirst, List.singleton_append,
        List.mem_cons] at h
      obtain rfl | h := h
      · exact ⟨hfirst, [], sep :: rest, rfl, .inl rfl, .inr ⟨rest, rfl⟩⟩
      · have hlength : rest.length < n := by
          rw [← hn, List.length_append, List.length_cons]
          omega
        obtain ⟨hpiece, before, after, rfl, hbefore, hafter⟩ := ih _ hlength h rfl
        refine ⟨hpiece, first ++ sep :: before, after, by simp, .inr ?_, hafter⟩
        obtain rfl | ⟨init, rfl⟩ := hbefore
        · exact ⟨first, rfl⟩
        · exact ⟨first ++ sep :: init, by simp⟩
    · rw [List.splitOn_eq_singleton hsep, List.mem_singleton] at h
      subst h
      exact ⟨hsep, [], [], by simp, .inl rfl, .inl rfl⟩
  · rintro ⟨hpiece, before, after, rfl, hbefore, hafter⟩
    have hmem : piece ∈ (piece ++ after).splitOn sep := by
      obtain rfl | ⟨rest, rfl⟩ := hafter
      · rw [List.append_nil, List.splitOn_eq_singleton hpiece]
        exact List.mem_cons_self
      · rw [List.splitOn_append_cons_self, List.splitOn_eq_singleton hpiece]
        exact List.mem_append_left _ List.mem_cons_self
    obtain rfl | ⟨init, rfl⟩ := hbefore
    · exact hmem
    · rw [List.append_assoc, List.singleton_append, List.splitOn_append_cons_self]
      exact List.mem_append_right _ hmem

/-- The pieces of a split text hold no separator. -/
theorem sep_notMem_of_mem_splitOn {sep : Char} {cs piece : List Char}
    (h : piece ∈ cs.splitOn sep) : sep ∉ piece := (mem_splitOn_iff.mp h).1

end Text
