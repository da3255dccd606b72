import Llamesh.Library.Table
import Llamesh.Library.Text
import Llamesh.Metrics.Model

/-!
# The per-hash families of the metrics endpoint

`render_prometheus` (`src/metrics.rs:1050–1160`) writes one family of samples for
each counter that is kept by hash, and `escape_label_value` (`1162–1166`) writes
the display names, which are arbitrary text, into a label. The escapes are three
replacements one after the other. Read back in one pass they give the text
again, so a sample is one line and its labels can be told apart.
-/

namespace Llamesh.Metrics

open Text

variable {π : Type}

/-! ### Escaping -/

/-- `str::replace` of one character. -/
def replace (c : Char) (text cs : List Char) : List Char :=
  cs.flatMap fun d => if d = c then text else [d]

/-- A label value with its escapes. `src/metrics.rs:1162–1166`. -/
def escapeLabelValue (s : List Char) : List Char :=
  replace '\n' ['\\', 'n'] (replace '"' ['\\', '"'] (replace '\\' ['\\', '\\'] s))

/-- What one escape stands for. -/
def escaped : Char → Option Char
  | '\\' => some '\\'
  | '"' => some '"'
  | 'n' => some '\n'
  | _ => none

/-- Decode the escapes in one pass from left to right. -/
def unescape : List Char → Option (List Char)
  | [] => some []
  | ['\\'] => none
  | '\\' :: c :: cs =>
    match escaped c, unescape cs with
    | some c, some cs => some (c :: cs)
    | _, _ => none
  | c :: cs => (unescape cs).map (c :: ·)

/-- A quote that no backslash escapes. -/
def hasBareQuote : List Char → Bool
  | [] => false
  | ['\\'] => false
  | '\\' :: _ :: cs => hasBareQuote cs
  | c :: cs => c == '"' || hasBareQuote cs

/-- What one character of a label value is written as. -/
def escapeChar (c : Char) : List Char :=
  if c = '\\' then ['\\', '\\'] else if c = '"' then ['\\', '"'] else if c = '\n' then ['\\', 'n']
  else [c]

/-- A later replacement leaves what an earlier one wrote: the three are one pass. -/
theorem escapeLabelValue_eq (s : List Char) : escapeLabelValue s = s.flatMap escapeChar := by
  simp only [escapeLabelValue, replace, List.flatMap_assoc]
  congr 1
  funext c
  unfold escapeChar
  by_cases hb : c = '\\'
  · simp [hb]
  · by_cases hq : c = '"'
    · simp [hq]
    · by_cases hn : c = '\n' <;> simp [hb, hq, hn]

private theorem escapeLabelValue_cons (c : Char) (cs : List Char) :
    escapeLabelValue (c :: cs) = escapeChar c ++ escapeLabelValue cs := by
  rw [escapeLabelValue_eq, escapeLabelValue_eq, List.flatMap_cons]

/-- One character is written as itself or as its escape. -/
theorem escapeChar_cases (c : Char) :
    (∃ d, escapeChar c = ['\\', d] ∧ escaped d = some c) ∨
      escapeChar c = [c] ∧ c ≠ '\\' ∧ c ≠ '"' ∧ c ≠ '\n' := by
  unfold escapeChar
  by_cases hb : c = '\\'
  · exact .inl ⟨'\\', if_pos hb, by rw [hb]; rfl⟩
  · by_cases hq : c = '"'
    · exact .inl ⟨'"', by rw [if_neg hb, if_pos hq], by rw [hq]; rfl⟩
    · by_cases hn : c = '\n'
      · exact .inl ⟨'n', by rw [if_neg hb, if_neg hq, if_pos hn], by rw [hn]; rfl⟩
      · exact .inr ⟨by rw [if_neg hb, if_neg hq, if_neg hn], hb, hq, hn⟩

private theorem unescape_escapeLabelValue (s : List Char) : unescape
    (escapeLabelValue s) = some s := by
  induction s with
  | nil => rfl
  | cons c cs ih =>
    rw [escapeLabelValue_cons]
    rcases escapeChar_cases c with ⟨d, hd, hesc⟩ | ⟨hc, hb, -⟩
    · rw [hd, List.cons_append, List.singleton_append, unescape, hesc, ih]
    · rw [hc, List.singleton_append, unescape, ih]
      · rfl
      · exact fun h => absurd h hb
      · exact fun _ _ h => absurd h hb

private theorem hasBareQuote_escapeLabelValue (s : List Char) :
    hasBareQuote (escapeLabelValue s) = false := by
  induction s with
  | nil => rfl
  | cons c cs ih =>
    rw [escapeLabelValue_cons]
    rcases escapeChar_cases c with ⟨d, hd, -⟩ | ⟨hc, hb, hq, -⟩
    · rw [hd, List.cons_append, List.singleton_append, hasBareQuote, ih]
    · rw [hc, List.singleton_append, hasBareQuote, ih]
      · simp [hq]
      · exact fun h => absurd h hb
      · exact fun _ _ h => absurd h hb

private theorem newline_notMem_escapeLabelValue (s : List Char) : '\n' ∉ escapeLabelValue s := by
  induction s with
  | nil => exact List.not_mem_nil
  | cons c cs ih =>
    rw [escapeLabelValue_cons, List.mem_append]
    rintro (hmem | hmem)
    · rcases escapeChar_cases c with ⟨d, hd, hesc⟩ | ⟨hc, -, -, hn⟩
      · rw [hd, List.mem_pair] at hmem
        rcases hmem with h | h
        · exact absurd h (by decide)
        · rw [← h] at hesc
          cases hesc
      · rw [hc, List.mem_singleton] at hmem
        exact hn hmem.symm
    · exact ih hmem

/-! ### Rendering -/

/-- The samples of a hash. `src/metrics.rs:1059–1068`. -/
structure HashRow where
  labels : List Char
  requests : Nat
  errors : Nat
  tokens : Nat
  totalLatencyMs : Nat
  p95LatencyMs : Nat
  peakVramMb : Nat
  peakSysmemMb : Nat

/-- The display names in order, joined. `src/metrics.rs:1074–1081`. -/
def joinedNames (m : HashMetrics π) : List Char := (",".intercalate m.displayNames.sort).toList

/-- The labels of a sample. `src/metrics.rs:1077–1081`. -/
def labels (hash : String) (m : HashMetrics π) : List Char :=
  "\x7bhash=\"".toList ++ escapeLabelValue hash.toList ++ "\",names=\"".toList ++
    escapeLabelValue (joinedNames m) ++ "\"\x7d".toList

/-- The snapshot of one hash. `src/metrics.rs:1073–1102`. -/
def hashRow (hash : String) (m : HashMetrics π) : HashRow where
  labels := labels hash m
  requests := m.requestsTotal
  errors := m.errorsTotal
  tokens := m.tokensGeneratedTotal
  totalLatencyMs := m.totalLatencyMs
  p95LatencyMs := m.p95LatencyMs
  peakVramMb := m.peakVramMb
  peakSysmemMb := m.peakSysmemMb

/-- The arguments of `push_family`. `src/metrics.rs:1108`. -/
structure Family where
  name : String
  help : String
  metricType : String
  value : HashRow → Nat

/-- The families that are written for every hash. `src/metrics.rs:1117–1158`. -/
def families : List Family :=
  [⟨"proxy_hash_requests_total", "Total requests per model/profile hash.", "counter",
      HashRow.requests⟩,
    ⟨"proxy_hash_errors_total", "Total errors per model/profile hash.", "counter",
      HashRow.errors⟩,
    ⟨"proxy_hash_tokens_generated_total", "Total tokens generated per hash.", "counter",
      HashRow.tokens⟩,
    ⟨"proxy_hash_total_latency_ms", "Total latency in milliseconds per hash.", "counter",
      HashRow.totalLatencyMs⟩,
    ⟨"proxy_hash_p95_latency_ms", "P95 latency in milliseconds (last 100 samples).", "gauge",
      HashRow.p95LatencyMs⟩,
    ⟨"proxy_hash_peak_vram_mb", "Peak VRAM usage in MB per hash.", "gauge",
      HashRow.peakVramMb⟩,
    ⟨"proxy_hash_peak_sysmem_mb", "Peak system memory usage in MB per hash.", "gauge",
      HashRow.peakSysmemMb⟩]

/-- The line before the samples that explains the family. -/
def Family.helpLine (f : Family) : List Char :=
  "# HELP ".toList ++ f.name.toList ++ [' '] ++ f.help.toList

/-- The line before the samples that gives the type. -/
def Family.typeLine (f : Family) : List Char :=
  "# TYPE ".toList ++ f.name.toList ++ [' '] ++ f.metricType.toList

/-- One sample, without the newline. `src/metrics.rs:1112`. -/
def Family.sample (f : Family) (row : HashRow) : List Char :=
  f.name.toList ++ row.labels ++ [' '] ++ toDecimal (f.value row)

/-- `push_family`. `src/metrics.rs:1107–1114`. -/
def pushFamily (rows : List HashRow) (out : List Char) (f : Family) : List Char :=
  rows.foldl (fun out row => out ++ f.sample row ++ ['\n'])
    (out ++ f.helpLine ++ ['\n'] ++ f.typeLine ++ ['\n'])

/-- The per-hash part of `render_prometheus`; the map is read in any order.
`src/metrics.rs:1070–1158`. -/
def renderHashes (hashMetrics : Table String (HashMetrics π)) : List Char :=
  families.foldl (pushFamily (hashMetrics.entries.map fun e => hashRow e.1 e.2)) []

/-! ### Reading a sample -/

/-- Read a quoted label value from behind its first quote, and what follows its last one. -/
def readQuoted : List Char → Option (List Char × List Char)
  | [] => none
  | ['\\'] => none
  | '\\' :: c :: cs =>
    match escaped c, readQuoted cs with
    | some c, some (value, rest) => some (c :: value, rest)
    | _, _ => none
  | c :: cs =>
    if c = '"' then some ([], cs)
    else (readQuoted cs).map fun (value, rest) => (c :: value, rest)

/-- What a sample says. -/
structure Sample where
  name : List Char
  hash : List Char
  names : List Char
  value : List Char
  deriving DecidableEq, Repr

/-- Read one line of the exposition format as a sample with the two labels. -/
def readSample (line : List Char) : Option Sample := do
  let (name, rest) ← splitOnce '{' line
  let (hash, rest) ← (stripPrefix "hash=\"".toList rest).bind readQuoted
  let (names, rest) ← (stripPrefix ",names=\"".toList rest).bind readQuoted
  let value ← stripPrefix "\x7d ".toList rest
  return ⟨name, hash, names, value⟩

/-- A label value ends at the first quote that is not part of it. -/
theorem readQuoted_escapeLabelValue (s rest : List Char) :
    readQuoted (escapeLabelValue s ++ '"' :: rest) = some (s, rest) := by
  induction s with
  | nil => rfl
  | cons c cs ih =>
    rw [escapeLabelValue_cons, List.append_assoc]
    rcases escapeChar_cases c with ⟨d, hd, hesc⟩ | ⟨hc, hb, hq, -⟩
    · rw [hd, List.cons_append, List.singleton_append, readQuoted, hesc, ih]
    · rw [hc, List.singleton_append, readQuoted, if_neg hq, ih]
      · rfl
      · exact fun h => absurd h hb
      · exact fun _ _ h => absurd h hb

/-- Every line before the samples is one line, and no name holds a brace. -/
theorem families_plain {f : Family} (h : f ∈ families) :
    (∀ c ∈ f.helpLine ++ f.typeLine, c ≠ '\n' ∧ c ≠ '\r') ∧ '{' ∉ f.name.toList := by
  have hall : (families.all fun f =>
      ((f.helpLine ++ f.typeLine).all fun c => c != '\n' && c != '\r') &&
        f.name.toList.all fun c => c != '{') = true := by decide +kernel
  have hf := List.all_eq_true.mp hall f h
  rw [Bool.and_eq_true, List.all_eq_true, List.all_eq_true] at hf
  refine ⟨fun c hc => ?_, fun hmem => ?_⟩
  · simpa using hf.1 c hc
  · simpa using hf.2 _ hmem

/-- A sample, in the order its parts are read. -/
theorem sample_eq (f : Family) (hash : String) (m : HashMetrics π) :
    f.sample (hashRow hash m) =
      f.name.toList ++ '{' :: ("hash=\"".toList ++ (escapeLabelValue hash.toList ++ '"' ::
        (",names=\"".toList ++ (escapeLabelValue (joinedNames m) ++ '"' ::
          ("\x7d ".toList ++ toDecimal (f.value (hashRow hash m))))))) := by
  have hopen : "\x7bhash=\"".toList = '{' :: "hash=\"".toList := rfl
  have hbetween : "\",names=\"".toList = '"' :: ",names=\"".toList := rfl
  have hclose : "\"\x7d".toList = ['"', '}'] := rfl
  have hspace : "\x7d ".toList = ['}', ' '] := rfl
  have hlabels : labels hash m = '{' :: "hash=\"".toList ++ escapeLabelValue hash.toList ++
      '"' :: ",names=\"".toList ++ escapeLabelValue (joinedNames m) ++ ['"', '}'] := by
    rw [← hopen, ← hbetween, ← hclose]
    rfl
  have hsample : f.sample (hashRow hash m) =
      f.name.toList ++ labels hash m ++ [' '] ++ toDecimal (f.value (hashRow hash m)) := rfl
  rw [hsample, hlabels, hspace]
  simp only [List.append_assoc, List.cons_append, List.nil_append]

private theorem readSample_sample {f : Family} (h : f ∈ families) (hash : String)
    (m : HashMetrics π) :
    readSample (f.sample (hashRow hash m)) =
      some ⟨f.name.toList, hash.toList, joinedNames m, toDecimal (f.value (hashRow hash m))⟩ := by
  rw [sample_eq, readSample, splitOnce_append (families_plain h).2]
  simp only [Option.bind_eq_bind, Option.bind_some, stripPrefix_append,
    readQuoted_escapeLabelValue, Option.pure_def]

/-- A sample is one line. -/
theorem newline_notMem_sample {f : Family} (h : f ∈ families) (hash : String)
    (m : HashMetrics π) : '\n' ∉ f.sample (hashRow hash m) := by
  have hname : '\n' ∉ f.name.toList := fun hmem => by
    have hhelp : '\n' ∈ f.helpLine :=
      List.mem_append_left _ (List.mem_append_left _ (List.mem_append_right _ hmem))
    exact ((families_plain h).1 '\n' (List.mem_append_left _ hhelp)).1 rfl
  have hvalue : '\n' ∉ toDecimal (f.value (hashRow hash m)) := fun hmem =>
    absurd (isDigit_of_mem_toDecimal hmem) (by decide)
  have hopen : '\n' ∉ "hash=\"".toList := by decide
  have hbetween : '\n' ∉ ",names=\"".toList := by decide
  have hclose : '\n' ∉ "\x7d ".toList := by decide
  rw [sample_eq]
  simp only [List.mem_append, List.mem_cons, not_or]
  exact ⟨hname, by decide, hopen, newline_notMem_escapeLabelValue _, by decide, hbetween,
    newline_notMem_escapeLabelValue _, by decide, hclose, hvalue⟩

/-- A sample ends in a digit. -/
theorem getLast?_sample (f : Family) (row : HashRow) : (f.sample row).getLast? ≠ some '\r' := by
  intro hlast
  rw [Family.sample, List.getLast?_append_of_ne_nil _ (toDecimal_ne_nil _)] at hlast
  exact absurd (isDigit_of_mem_toDecimal (List.mem_of_getLast? hlast)) (by decide)

/-- The lines of the rendered families. -/
def renderedLines (hashMetrics : Table String (HashMetrics π)) : List (List Char) :=
  families.flatMap fun f =>
    f.helpLine :: f.typeLine :: hashMetrics.entries.map fun e => f.sample (hashRow e.1 e.2)

private theorem pushFamily_eq (rows : List HashRow) (out : List Char) (f : Family) :
    pushFamily rows out f =
      out ++ (f.helpLine :: f.typeLine :: rows.map f.sample).flatMap (· ++ ['\n']) := by
  have hrows : ∀ out : List Char, rows.foldl (fun out row => out ++ f.sample row ++ ['\n']) out =
      out ++ (rows.map f.sample).flatMap (· ++ ['\n']) := by
    induction rows with
    | nil => simp
    | cons row rows ih =>
      intro out
      rw [List.foldl_cons, ih, List.map_cons, List.flatMap_cons]
      simp only [List.append_assoc]
  rw [pushFamily, hrows, List.flatMap_cons, List.flatMap_cons]
  simp only [List.append_assoc]

private theorem renderHashes_eq (hashMetrics : Table String (HashMetrics π)) :
    renderHashes hashMetrics = (renderedLines hashMetrics).flatMap (· ++ ['\n']) := by
  have hfold : ∀ (fs : List Family) (out : List Char),
      fs.foldl (pushFamily (hashMetrics.entries.map fun e => hashRow e.1 e.2)) out =
        out ++ (fs.flatMap fun f => f.helpLine :: f.typeLine ::
          hashMetrics.entries.map fun e => f.sample (hashRow e.1 e.2)).flatMap (· ++ ['\n']) := by
    intro fs
    induction fs with
    | nil => simp
    | cons f fs ih =>
      intro out
      rw [List.foldl_cons, ih, pushFamily_eq, List.append_assoc, ← List.flatMap_append,
        List.map_map]
      rfl
  rw [renderHashes, hfold, List.nil_append, renderedLines]

/-- A text is read back from its escapes in one pass, they hold no newline and no bare quote; so
every sample is one line, whose labels can be read back. -/
theorem label_values_recovered :
    (∀ s, unescape (escapeLabelValue s) = some s ∧ '\n' ∉ escapeLabelValue s ∧
      hasBareQuote (escapeLabelValue s) = false) ∧
    ∀ hashMetrics : Table String (HashMetrics π),
      lines (renderHashes hashMetrics) = renderedLines hashMetrics ∧
      ∀ f ∈ families, ∀ e ∈ hashMetrics.entries,
        readSample (f.sample (hashRow e.1 e.2)) =
          some ⟨f.name.toList, e.1.toList, joinedNames e.2,
            toDecimal (f.value (hashRow e.1 e.2))⟩ := by
  refine ⟨fun s => ⟨unescape_escapeLabelValue s, newline_notMem_escapeLabelValue s,
    hasBareQuote_escapeLabelValue s⟩, fun hashMetrics => ⟨?_, fun f hf e _ =>
      readSample_sample hf e.1 e.2⟩⟩
  rw [renderHashes_eq]
  apply lines_flatMap_newline
  intro line hline
  obtain ⟨f, hf, hline⟩ := List.mem_flatMap.mp hline
  have hplain := (families_plain hf).1
  rcases List.mem_cons.mp hline with rfl | hline
  · exact ⟨fun hmem => (hplain _ (List.mem_append_left _ hmem)).1 rfl,
      fun hlast => (hplain _ (List.mem_append_left _ (List.mem_of_getLast? hlast))).2 rfl⟩
  rcases List.mem_cons.mp hline with rfl | hline
  · exact ⟨fun hmem => (hplain _ (List.mem_append_right _ hmem)).1 rfl,
      fun hlast => (hplain _ (List.mem_append_right _ (List.mem_of_getLast? hlast))).2 rfl⟩
  · obtain ⟨e, -, rfl⟩ := List.mem_map.mp hline
    exact ⟨newline_notMem_sample hf e.1 e.2, getLast?_sample f _⟩

end Llamesh.Metrics
