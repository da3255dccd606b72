import Llamesh.Library.Text
import Mathlib.Data.List.Forall2

/-!
# Lists of keys

`parse_csv_row` (`src/instance.rs:475–502`), the reader of a multi-value argument of `llama-server`:
fields between commas, where a field that begins with a quote is quoted. Each field of a row can be
written in quotes, and as it stands when it has no comma and does not begin with a quote; the reader
gives the fields back from every such row.
-/

namespace Llamesh.Instance

/-- The loop over the remaining characters; the variables are its arguments.
`src/instance.rs:480–501`. -/
def csvFields (fields : List String) (field : List Char) (inQuotes : Bool) :
    List Char → List String
  | [] => fields ++ [String.ofList field]
  | ch :: chars =>
    if ch = '"' && !inQuotes then
      if field.isEmpty then csvFields fields field true chars
      else csvFields fields (field ++ ['"']) inQuotes chars
    else if ch = '"' then
      match chars with
      | [] => csvFields fields field false []
      | next :: rest =>
        if next = '"' then csvFields fields (field ++ ['"']) inQuotes rest
        else csvFields fields field false (next :: rest)
    else if ch = ',' && !inQuotes then
      csvFields (fields ++ [String.ofList field]) [] inQuotes chars
    else csvFields fields (field ++ [ch]) inQuotes chars

/-- The fields of a row. `src/instance.rs:475–502`. -/
def parseCsvRow (input : String) : List String := csvFields [] [] false input.toList

/-! ### Rows -/

/-- The text between the quotes: every quote is doubled. -/
def doubled (field : List Char) : List Char :=
  field.flatMap fun ch => if ch = '"' then ['"', '"'] else [ch]

/-- The field in double quotes. -/
def quoted (field : String) : String := String.ofList ('"' :: (doubled field.toList ++ ['"']))

/-- The ways to write a field. -/
inductive WrittenAs : String → String → Prop where
  | quoted (field : String) : WrittenAs field (quoted field)
  | plain {field : String} (hcomma : ',' ∉ field.toList)
      (hquote : field.toList.head? ≠ some '"') : WrittenAs field field

/-- The fields with commas between them. -/
def row (texts : List String) : String := ",".intercalate texts

/-- What follows a field of a row: the end, or a comma. -/
def EndsField (rest : List Char) : Prop := rest = [] ∨ ∃ next, rest = ',' :: next

section

variable {fields : List String} {field rest : List Char}

private theorem csvFields_nil {inQuotes : Bool} :
    csvFields fields field inQuotes [] = fields ++ [String.ofList field] := by
  unfold csvFields
  rfl

private theorem csvFields_comma :
    csvFields fields field false (',' :: rest) =
      csvFields (fields ++ [String.ofList field]) [] false rest := by
  rw [csvFields.eq_def]
  simp

private theorem csvFields_open :
    csvFields fields [] false ('"' :: rest) = csvFields fields [] true rest := by
  rw [csvFields.eq_def]
  simp

/-- A quote before the end of a field closes it. -/
theorem csvFields_close (h : EndsField rest) :
    csvFields fields field true ('"' :: rest) = csvFields fields field false rest := by
  obtain rfl | ⟨next, rfl⟩ := h
  · rw [csvFields.eq_def]
    simp
  · rw [csvFields.eq_def]
    simp

/-- A quoted character is read back. -/
theorem csvFields_quoted_char (ch : Char) :
    csvFields fields field true (doubled [ch] ++ rest) =
      csvFields fields (field ++ [ch]) true rest := by
  by_cases hquote : ch = '"'
  · subst hquote
    have hdoubled : doubled ['"'] = ['"', '"'] := by decide
    rw [hdoubled, List.cons_append, csvFields.eq_def]
    simp
  · have hdoubled : doubled [ch] = [ch] := by simp [doubled, hquote]
    rw [hdoubled, List.singleton_append, csvFields.eq_def]
    simp [hquote]

/-- The text between the quotes is read back. -/
theorem csvFields_doubled (text : List Char) :
    csvFields fields field true (doubled text ++ rest) =
      csvFields fields (field ++ text) true rest := by
  induction text generalizing field with
  | nil => simp [doubled]
  | cons ch text ih =>
    have hcons : doubled (ch :: text) = doubled [ch] ++ doubled text := by simp [doubled]
    rw [hcons, List.append_assoc, csvFields_quoted_char, ih, List.append_assoc,
      List.singleton_append]

/-- Outside quotes every character but a comma is literal once the field has begun. -/
theorem csvFields_literal_char {ch : Char} (hcomma : ch ≠ ',') (hbegun : ch = '"' → field ≠ []) :
    csvFields fields field false (ch :: rest) = csvFields fields (field ++ [ch]) false rest := by
  by_cases hquote : ch = '"'
  · subst hquote
    rw [csvFields.eq_def]
    simp [hbegun rfl]
  · rw [csvFields.eq_def]
    simp [hquote, hcomma]

/-- A text without commas is literal once the field has begun. -/
theorem csvFields_literal (text : List Char) (hcomma : ',' ∉ text)
    (hbegun : text.head? = some '"' → field ≠ []) :
    csvFields fields field false (text ++ rest) = csvFields fields (field ++ text) false rest := by
  induction text generalizing field with
  | nil => simp
  | cons ch text ih =>
    rw [List.mem_cons, not_or] at hcomma
    have hbegun' : ch = '"' → field ≠ [] := fun h => hbegun (by rw [h]; rfl)
    rw [List.cons_append, csvFields_literal_char (Ne.symm hcomma.1) hbegun', ih hcomma.2 (by simp),
      List.append_assoc, List.singleton_append]

/-- A written field is read back up to its end. -/
theorem WrittenAs.csvFields_eq {name text : String} (h : WrittenAs name text)
    (hrest : EndsField rest) :
    csvFields fields [] false (text.toList ++ rest) =
      csvFields fields name.toList false rest := by
  cases h with
  | quoted =>
    rw [Instance.quoted, String.toList_ofList, List.cons_append, csvFields_open,
      List.append_assoc, csvFields_doubled, List.nil_append, List.singleton_append,
      csvFields_close hrest]
  | plain hcomma hquote =>
    rw [csvFields_literal _ hcomma fun h => absurd h hquote, List.nil_append]

/-- A row is read back behind the fields before it. -/
theorem csvFields_row {names texts : List String} (h : List.Forall₂ WrittenAs names texts)
    (hne : names ≠ []) : csvFields fields [] false (row texts).toList = fields ++ names := by
  induction h generalizing fields with
  | nil => exact absurd rfl hne
  | @cons name text names texts hwritten htail ih =>
    cases htail with
    | nil =>
      rw [row, String.intercalate_singleton, ← List.append_nil text.toList,
        hwritten.csvFields_eq (.inl rfl), csvFields_nil, String.ofList_toList]
    | @cons _ next _ texts _ _ =>
      have hrow : (row (text :: next :: texts)).toList =
          text.toList ++ ',' :: (row (next :: texts)).toList := by
        rw [row, String.intercalate_cons_cons, row]
        simp
      rw [hrow, hwritten.csvFields_eq (.inr ⟨_, rfl⟩), csvFields_comma,
        ih (List.cons_ne_nil _ _), String.ofList_toList, List.append_assoc, List.singleton_append]

end

/-- Every non-empty row is read back: with all fields in quotes, and with any that have no comma
and do not begin with a quote left as they are. -/
theorem parseCsvRow_row (fields : List String) (hne : fields ≠ []) :
    parseCsvRow (row (fields.map quoted)) = fields ∧
      ∀ texts, List.Forall₂ WrittenAs fields texts → parseCsvRow (row texts) = fields := by
  have hread : ∀ texts, List.Forall₂ WrittenAs fields texts → parseCsvRow (row texts) = fields :=
    fun texts h => csvFields_row h hne
  refine ⟨hread _ ?_, hread⟩
  rw [List.forall₂_map_right_iff, List.forall₂_same]
  exact fun field _ => .quoted field

/-- A key with a comma and a quote, in quotes between two plain ones. -/
theorem parseCsvRow_mixed_row :
    ["a", "b,\"c", ""] ≠ [] ∧ parseCsvRow "a,\"b,\"\"c\"," = ["a", "b,\"c", ""] := by
  have hne : ["a", "b,\"c", ""] ≠ [] := by decide
  refine ⟨hne, (parseCsvRow_row _ hne).2 ["a", "\"b,\"\"c\"", ""] ?_⟩
  exact .cons (.plain (by decide) (by decide)) (.cons (.quoted _)
    (.cons (.plain (by decide) (by decide)) .nil))

/-- The first field of a row that is not empty. `src/instance.rs:448–450`. -/
def firstListedKey (keys : String) : Option String :=
  (parseCsvRow keys).find? fun key => !key.isEmpty

end Llamesh.Instance
