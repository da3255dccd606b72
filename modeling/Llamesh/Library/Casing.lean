import Mathlib.Data.List.Forall2

/-!
# Lower-casing texts

`str::to_lowercase`: each character is replaced by its entry of the Unicode tables, except for the
capital sigma, which has a form of its own at the end of a word. The tables grow from one version
of Unicode to the next; what is the same in all of them, the ASCII entries, is a field of the
structure that carries them.

Texts that are equal up to ASCII case have the same lower case, whatever the tables.
-/

namespace Text

/-- The tables of the Unicode Character Database that lower-casing reads. -/
structure CaseTables where
  lower : Char → List Char
  cased : Char → Bool
  caseIgnorable : Char → Bool
  lower_ascii : ∀ c : Char, c.toNat < 128 → lower c = [c.toLower]
  cased_letter : ∀ c : Char, c.isAlpha = true → cased c = true
  caseIgnorable_letter : ∀ c : Char, c.isAlpha = true → caseIgnorable c = false

namespace CaseTables

variable (tables : CaseTables)

/-- The next character that is not ignored is a letter with case. -/
def ignorableThenCased (cs : List Char) : Bool :=
  (cs.dropWhile tables.caseIgnorable).head?.any tables.cased

/-- The lower case of one character between what comes before it, the nearest first, and after. -/
def lowerChar (before : List Char) (c : Char) (after : List Char) : List Char :=
  if c = 'Σ' then
    if tables.ignorableThenCased before && !tables.ignorableThenCased after then ['ς'] else ['σ']
  else tables.lower c

/-- The lower case of what is left of a text. -/
def lowerFrom (before : List Char) : List Char → List Char
  | [] => []
  | c :: after => tables.lowerChar before c after ++ lowerFrom (c :: before) after

/-- `str::to_lowercase`. -/
def toLowercase (text : String) : String := String.ofList (tables.lowerFrom [] text.toList)

/-- The lower case of an ASCII text. -/
theorem toLowercase_of_ascii {cs : List Char} (h : ∀ c ∈ cs, c.toNat < 128) :
    tables.toLowercase (String.ofList cs) = String.ofList (cs.map Char.toLower) := by
  have hlower : ∀ before, tables.lowerFrom before cs = cs.map Char.toLower := by
    induction cs with
    | nil => exact fun _ => rfl
    | cons c cs ih =>
      intro before
      obtain ⟨hc, hcs⟩ := List.forall_mem_cons.mp h
      have hsigma : c ≠ 'Σ' := by
        rintro rfl
        exact absurd hc (by decide)
      rw [lowerFrom, lowerChar, if_neg hsigma, tables.lower_ascii c hc, ih hcs,
        List.singleton_append, List.map_cons]
  rw [toLowercase, String.toList_ofList, hlower]

end CaseTables

/-! ### ASCII letters -/

/-- The code point of an ASCII lower case. -/
theorem toNat_toLower (c : Char) :
    c.toLower.toNat = if 65 ≤ c.toNat ∧ c.toNat ≤ 90 then c.toNat + 32 else c.toNat := by
  unfold Char.toLower
  split
  · next h =>
    have hlow : 65 ≤ c.toNat := h.1
    have hhigh : c.toNat ≤ 90 := h.2
    rw [if_pos ⟨hlow, hhigh⟩]
    change (c.val + 32).toNat = c.toNat + 32
    rw [UInt32.toNat_add]
    change (c.toNat + 32) % 2 ^ 32 = c.toNat + 32
    omega
  · next h =>
    rw [if_neg]
    rintro ⟨hlow, hhigh⟩
    exact h ⟨hlow, hhigh⟩

/-- The code points of the ASCII letters. -/
theorem isAlpha_iff {c : Char} :
    c.isAlpha = true ↔ 65 ≤ c.toNat ∧ c.toNat ≤ 90 ∨ 97 ≤ c.toNat ∧ c.toNat ≤ 122 := by
  have hupper : c.isUpper = true ↔ 65 ≤ c.toNat ∧ c.toNat ≤ 90 := decide_eq_true_iff
  have hlower : c.isLower = true ↔ 97 ≤ c.toNat ∧ c.toNat ≤ 122 := by
    change (decide _ && decide _) = true ↔ _
    rw [Bool.and_eq_true, decide_eq_true_eq, decide_eq_true_eq]
    rfl
  change (c.isUpper || c.isLower) = true ↔ _
  rw [Bool.or_eq_true, hupper, hlower]

/-- Only a letter has another character with the same ASCII lower case. -/
theorem eq_or_isAlpha_of_toLower_eq {c d : Char} (h : c.toLower = d.toLower) :
    c = d ∨ c.isAlpha = true ∧ d.isAlpha = true := by
  have hnat := congrArg Char.toNat h
  rw [toNat_toLower, toNat_toLower] at hnat
  by_cases heq : c.toNat = d.toNat
  · exact Or.inl (Char.toNat_inj.mp heq)
  · right
    rw [isAlpha_iff, isAlpha_iff]
    split at hnat <;> split at hnat <;> omega

/-- A character that is no letter is only equal to itself. -/
theorem toLower_eq_iff_of_not_isAlpha {c d : Char} (h : d.isAlpha = false) :
    c.toLower = d.toLower ↔ c = d := by
  constructor
  · intro heq
    rcases eq_or_isAlpha_of_toLower_eq heq with heq | ⟨-, hd⟩
    · exact heq
    · rw [h] at hd
      cases hd
  · rintro rfl
    rfl

/-! ### Equal up to ASCII case -/

/-- `str::eq_ignore_ascii_case` as a relation between texts. -/
def AsciiCaseEq (cs ds : List Char) : Prop := cs.map Char.toLower = ds.map Char.toLower

private theorem asciiCaseEq_iff_forall₂ {cs ds : List Char} :
    AsciiCaseEq cs ds ↔ List.Forall₂ (fun c d : Char => c.toLower = d.toLower) cs ds := by
  rw [AsciiCaseEq, ← List.forall₂_eq_eq_eq, List.forall₂_map_left_iff, List.forall₂_map_right_iff]

/-- A character that is no letter is its own ASCII lower case. -/
theorem toLower_of_not_isAlpha {c : Char} (h : c.isAlpha = false) : c.toLower = c := by
  apply Char.toNat_inj.mp
  rw [toNat_toLower, if_neg]
  intro hupper
  have halpha := isAlpha_iff.mpr (Or.inl hupper)
  rw [h] at halpha
  cases halpha

/-- Lower-casing ASCII letters moves no other character. -/
theorem mem_map_toLower_iff {sep : Char} (hsep : sep.isAlpha = false) {cs : List Char} :
    sep ∈ cs.map Char.toLower ↔ sep ∈ cs := by
  rw [List.mem_map]
  constructor
  · rintro ⟨c, hc, heq⟩
    rw [← toLower_of_not_isAlpha hsep, toLower_eq_iff_of_not_isAlpha hsep] at heq
    exact heq ▸ hc
  · intro h
    exact ⟨sep, h, toLower_of_not_isAlpha hsep⟩

/-- Texts that are equal up to ASCII case have the same separators. -/
theorem AsciiCaseEq.mem_iff {cs ds : List Char} (h : AsciiCaseEq cs ds) {sep : Char}
    (hsep : sep.isAlpha = false) : sep ∈ cs ↔ sep ∈ ds := by
  rw [← mem_map_toLower_iff hsep, h, mem_map_toLower_iff hsep]

/-- A separator that is no letter stands at the same place on both sides. -/
theorem asciiCaseEq_append_cons_iff {sep : Char} (hsep : sep.isAlpha = false)
    {as bs cs ds : List Char} (ha : sep ∉ as) (hb : sep ∉ bs) :
    AsciiCaseEq (as ++ sep :: bs) (cs ++ sep :: ds) ↔ AsciiCaseEq as cs ∧ AsciiCaseEq bs ds := by
  unfold AsciiCaseEq
  simp only [List.map_append, List.map_cons, toLower_of_not_isAlpha hsep]
  rw [List.append_cons_inj_of_notMem (by rwa [mem_map_toLower_iff hsep])
    (by rwa [mem_map_toLower_iff hsep])]
  simp

namespace CaseTables

variable {tables : CaseTables}

private theorem lower_of_toLower_eq {c d : Char} (h : c.toLower = d.toLower) :
    tables.lower c = tables.lower d := by
  rcases eq_or_isAlpha_of_toLower_eq h with rfl | ⟨hc, hd⟩
  · rfl
  · rw [isAlpha_iff] at hc hd
    rw [tables.lower_ascii c (by omega), tables.lower_ascii d (by omega), h]

private theorem ignorableThenCased_congr {cs ds : List Char} (h : AsciiCaseEq cs ds) :
    tables.ignorableThenCased cs = tables.ignorableThenCased ds := by
  rw [asciiCaseEq_iff_forall₂] at h
  induction h with
  | nil => rfl
  | @cons c d cs ds hcd _ ih =>
    rcases eq_or_isAlpha_of_toLower_eq hcd with rfl | ⟨hc, hd⟩
    · unfold ignorableThenCased at ih ⊢
      rw [List.dropWhile_cons, List.dropWhile_cons]
      split
      · exact ih
      · rfl
    · simp [ignorableThenCased, tables.caseIgnorable_letter, tables.cased_letter, hc, hd]

private theorem lowerFrom_congr {cs ds : List Char} (h : AsciiCaseEq cs ds)
    {before before' : List Char} (hbefore : AsciiCaseEq before before') :
    tables.lowerFrom before cs = tables.lowerFrom before' ds := by
  rw [asciiCaseEq_iff_forall₂] at h
  induction h generalizing before before' with
  | nil => rfl
  | @cons c d cs ds hcd hrest ih =>
    have hchar : tables.lowerChar before c cs = tables.lowerChar before' d ds := by
      have hsigma : c = 'Σ' ↔ d = 'Σ' := by
        rw [← toLower_eq_iff_of_not_isAlpha (d := 'Σ') (by decide), hcd,
          toLower_eq_iff_of_not_isAlpha (by decide)]
      unfold lowerChar
      rw [ignorableThenCased_congr hbefore,
        ignorableThenCased_congr (asciiCaseEq_iff_forall₂.mpr hrest), lower_of_toLower_eq hcd]
      simp only [hsigma]
    have hcons : AsciiCaseEq (c :: before) (d :: before') := by
      unfold AsciiCaseEq at hbefore ⊢
      rw [List.map_cons, List.map_cons, hcd, hbefore]
    rw [lowerFrom, lowerFrom, hchar, ih hcons]

/-- Texts that are equal up to ASCII case have the same lower case. -/
theorem toLowercase_congr {a b : String} (h : AsciiCaseEq a.toList b.toList) :
    tables.toLowercase a = tables.toLowercase b := by
  unfold toLowercase
  rw [lowerFrom_congr h rfl]

end CaseTables

end Text
