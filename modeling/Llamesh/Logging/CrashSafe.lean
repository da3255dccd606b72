import Llamesh.Logging.Milestones
import Mathlib.Data.Multiset.AddSub

/-!
# No entry is lost

Starts that are cut off anywhere, and then one that completes, keep the entries
of the day and of the next day's file exactly as they were if the day's log ends
with a newline and the next day's file holds its own first entry as
`contains_line` looks for it. Otherwise the last entry of the day is joined to
the first adopted one, or a merge is done again.
-/

namespace Llamesh.Logging

open FileOps Terminated Text

/-- The content of the day's log, which is plain or only compressed or not there yet. -/
def DayLog (s : Startup) (v : View) (log : List UInt8) : Prop :=
  v.current = some log ∨
    v.current = none ∧ s.compression = true ∧
      (∃ bytes, v.compressed = some bytes ∧ s.gunzip bytes = (log, true)) ∨
    v.current = none ∧ v.compressed = none ∧ log = []

/-- The lines of a file that may not be there. -/
def linesOf (content : Option (List UInt8)) : Multiset (List UInt8) :=
  lines newline (content.getD [])

/-- The plain files hold the lines of both logs. -/
def Preserved (log : List UInt8) (next : Option (List UInt8)) (v : View) : Prop :=
  linesOf v.current + linesOf v.next = lines newline log + linesOf next

/-- A file that is to be adopted follows a complete line and holds its own first entry, up to one
carriage return. -/
def AdoptsWhole (s : Startup) (log : List UInt8) (next : Option (List UInt8)) : Prop :=
  ∀ content firstEntry, next = some content → adoptable s content = some firstEntry →
    (log = [] ∨ log.getLast? = some newline) ∧ containsLine (some content) firstEntry = true

/-- No line of the day's log is the first entry of a file that is to be adopted. -/
def Fresh (s : Startup) (log : List UInt8) (next : Option (List UInt8)) : Prop :=
  ∀ content firstEntry, next = some content → adoptable s content = some firstEntry →
    containsLine (some log) firstEntry = false

/-! ### What is adopted -/

section

variable {s : Startup} {log content : List UInt8} {firstEntry : List Char} {v : View}
  {next : Option (List UInt8)}

/-- An adopted file has a first entry. -/
theorem filter_ne_nil_of_adoptable (h : adoptable s content = some firstEntry) :
    content.filter (· ≠ newline) ≠ [] := by
  intro hnil
  have htake : content.takeWhile (· ≠ newline) = [] := by
    cases content with
    | nil => rfl
    | cons b bs =>
      have hb : b = newline := by
        by_contra hne
        simp [hne] at hnil
      rw [hb, List.takeWhile_cons_of_neg (by simp)]
  have hfirst : firstLine content = some [] := by
    have hempty : fromUtf8Lossy [] = [] := fromUtf8Lossy_utf8Encode []
    rw [firstLine, htake, fromUtf8, hempty]
    rfl
  have hstamped : s.stampedToday [] = false := by rw [Startup.stampedToday, s.timestamp_nil]
  rw [adoptable, hfirst, Option.filter_some_neg (by simp [hstamped])] at h
  cases h

private theorem containsLine_append (h : rest newline log = []) (line : List Char) :
    containsLine (some (log ++ content)) line =
      (containsLine (some log) line || containsLine (some content) line) := by
  rw [containsLine, lines_append_of_rest h, List.any_append]
  rfl

/-! ### Opening the day's log -/

/-- The day's file holds the log, or is not there when the log is empty. -/
def Opened (v : View) (log : List UInt8) : Prop :=
  v.current = some log ∨ v.current = none ∧ log = []

private theorem Opened.getD_current (h : Opened v log) : v.current.getD [] = log := by
  rcases h with h | ⟨h, rfl⟩ <;> rw [h] <;> rfl

private theorem Opened.containsLine_eq (h : Opened v log)
    (hfresh : containsLine (some log) firstEntry = false) :
    containsLine v.current firstEntry = false := by
  rcases h with h | ⟨h, -⟩
  · rw [h, hfresh]
  · rw [h]
    rfl

/-- Restoring keeps the day's log at each milestone, and opens it. -/
theorem DayLog.restored (h : DayLog s v log) :
    (∀ w ∈ restoreViews s v, DayLog s w log ∧ w.next = v.next) ∧
      Opened ((restoreViews s v).getLastD v) log ∧
      ((restoreViews s v).getLastD v).next = v.next := by
  rcases h with h | ⟨hcurrent, hcompression, bytes, hbytes, hgunzip⟩ | ⟨hcurrent, hnone, rfl⟩
  · rw [restoreViews_of_current (by rw [h]; rfl)]
    exact ⟨by simp, .inl h, rfl⟩
  · rw [restoreViews_of_complete hcompression hcurrent hbytes (by rw [hgunzip]), hgunzip]
    refine ⟨fun w hw => ?_, .inl rfl, rfl⟩
    rcases List.mem_pair.mp hw with rfl | rfl
    · exact ⟨.inl rfl, rfl⟩
    · exact ⟨.inl rfl, rfl⟩
  · rw [restoreViews_of_compressed_none hnone]
    exact ⟨by simp, .inr ⟨hcurrent, rfl⟩, rfl⟩

/-! ### The invariant -/

/-- Between the starts: nothing was adopted, or all of it was, and then the next day's file may
still be there. -/
def Kept (s : Startup) (log : List UInt8) (next : Option (List UInt8)) (v : View) : Prop :=
  DayLog s v log ∧ v.next = next ∨
    ∃ content firstEntry, next = some content ∧ adoptable s content = some firstEntry ∧
      v.current = some (log ++ content) ∧ (v.next = some content ∨ v.next = none)

private theorem getLastD_milestones (s : Startup) (v : View) :
    (milestones s v).getLastD v =
      (adoptViews s ((restoreViews s v).getLastD v)).getLastD ((restoreViews s v).getLastD v) := by
  simp [milestones, List.getLastD_eq_getLast?, List.getLast?_append]

/-- Where nothing is left to adopt, the files are the two logs. -/
theorem Opened.preserved (h : Opened v log) (hnext : v.next = next) : Preserved log next v := by
  rw [Preserved, linesOf, h.getD_current, hnext]

/-- The lines of a whole adopted file. -/
theorem preserved_adopted (hlog : log = [] ∨ log.getLast? = some newline)
    (hcurrent : v.current = some (log ++ content)) (hnext : v.next = none) :
    Preserved log (some content) v := by
  rw [Preserved, linesOf, linesOf, linesOf, hcurrent, hnext, Option.getD_some, Option.getD_some,
    Option.getD_none, lines_append_of_rest ((rest_eq_nil_iff log).mpr hlog)]
  simp

private theorem Kept.of_dayLog (hwhole : AdoptsWhole s log v.next) (hfresh : Fresh s log v.next)
    (h : DayLog s v log) :
    (∀ w ∈ milestones s v, Kept s log v.next w) ∧
      Preserved log v.next ((milestones s v).getLastD v) := by
  obtain ⟨hrestored, hopened, hnext⟩ := h.restored
  rw [getLastD_milestones]
  have hbefore : ∀ w ∈ restoreViews s v, Kept s log v.next w := fun w hw => .inl (hrestored w hw)
  unfold milestones
  cases hcontent : v.next with
  | none =>
    rw [hcontent] at hnext hbefore
    rw [adoptViews_of_missing hnext, List.append_nil]
    exact ⟨hbefore, hopened.preserved hnext⟩
  | some content =>
    rw [hcontent] at hnext hbefore hwhole hfresh
    cases hadopt : adoptable s content with
    | none =>
      rw [adoptViews_of_not_adoptable hnext hadopt, List.append_nil]
      exact ⟨hbefore, hopened.preserved hnext⟩
    | some firstEntry =>
      have hnew := hopened.containsLine_eq (hfresh content firstEntry rfl hadopt)
      rw [adoptViews_of_new hnext hadopt hnew, hopened.getD_current]
      refine ⟨fun w hw => ?_,
        preserved_adopted (hwhole content firstEntry rfl hadopt).1 rfl rfl⟩
      rcases List.mem_append.mp hw with hw | hw
      · exact hbefore w hw
      · rcases List.mem_pair.mp hw with rfl | rfl
        · exact .inr ⟨content, firstEntry, rfl, hadopt, rfl, .inl hnext⟩
        · exact .inr ⟨content, firstEntry, rfl, hadopt, rfl, .inr rfl⟩

private theorem Kept.of_adopted (hlog : log = [] ∨ log.getLast? = some newline)
    (hcontains : containsLine (some content) firstEntry = true)
    (hadopt : adoptable s content = some firstEntry)
    (hcurrent : v.current = some (log ++ content))
    (hnext : v.next = some content ∨ v.next = none) :
    (∀ w ∈ milestones s v, Kept s log (some content) w) ∧
      Preserved log (some content) ((milestones s v).getLastD v) := by
  have hrestored : restoreViews s v = [] := restoreViews_of_current (by rw [hcurrent]; rfl)
  rw [getLastD_milestones, milestones, hrestored, List.getLastD_nil, List.nil_append]
  rcases hnext with hnext | hnext
  · -- the first entry is found, so the file is only removed
    have hfound : containsLine v.current firstEntry = true := by
      rw [hcurrent, containsLine_append ((rest_eq_nil_iff log).mpr hlog), hcontains, Bool.or_true]
    rw [adoptViews_of_contained hnext hadopt hfound]
    refine ⟨fun w hw => ?_, preserved_adopted hlog hcurrent rfl⟩
    rw [List.mem_singleton.mp hw]
    exact .inr ⟨content, firstEntry, rfl, hadopt, hcurrent, .inr rfl⟩
  · rw [adoptViews_of_missing hnext]
    exact ⟨by simp, preserved_adopted hlog hcurrent hnext⟩

/-- Each milestone keeps it, and at the last one the lines are those of both logs. -/
theorem Kept.milestones (hwhole : AdoptsWhole s log next) (hfresh : Fresh s log next)
    (h : Kept s log next v) :
    (∀ w ∈ milestones s v, Kept s log next w) ∧
      Preserved log next ((milestones s v).getLastD v) := by
  rcases h with ⟨hlog, rfl⟩ | ⟨content, firstEntry, rfl, hadopt, hcurrent, hnext⟩
  · exact Kept.of_dayLog hwhole hfresh hlog
  · obtain ⟨hnewline, hcontains⟩ := hwhole content firstEntry rfl hadopt
    exact Kept.of_adopted hnewline hcontains hadopt hcurrent hnext

end

/-! ### Runs -/

section

variable {s : Startup} {files files' : Files Name UInt8} {log : List UInt8}
  {next : Option (List UInt8)}

private theorem Interrupted.view_mem (h : Interrupted s files files') :
    view s files' ∈ view s files :: milestones s (view s files) := by
  obtain ⟨choices, k, rfl⟩ := h
  exact ((passes_start choices).cut _).mp ⟨k, rfl⟩

private theorem Completed.view_eq (h : Completed s files files') :
    view s files' = (milestones s (view s files)).getLastD (view s files) := by
  obtain ⟨choices, rfl⟩ := h
  exact (passes_start choices).last

/-- Starts that are cut off keep the invariant. -/
theorem Kept.interrupted (hwhole : AdoptsWhole s log next) (hfresh : Fresh s log next)
    (h : Kept s log next (view s files))
    (hrun : Relation.ReflTransGen (Interrupted s) files files') :
    Kept s log next (view s files') := by
  induction hrun with
  | refl => exact h
  | tail _ hstep ih =>
    rcases List.mem_cons.mp hstep.view_mem with hsame | hlater
    · rw [hsame]
      exact ih
    · exact (ih.milestones hwhole hfresh).1 _ hlater

private theorem Kept.restarted (hwhole : AdoptsWhole s log next) (hfresh : Fresh s log next)
    (h : Kept s log next (view s files)) (hrun : Restarted s files files') :
    Preserved log next (view s files') := by
  obtain ⟨before, hinterrupted, hcompleted⟩ := hrun
  rw [hcompleted.view_eq]
  exact ((h.interrupted hwhole hfresh hinterrupted).milestones hwhole hfresh).2

/-- A start whose copies are written in one piece each. -/
def wholeChoices : Choices where
  order := ⟨id, fun _ => .refl _⟩
  restored := ⟨fun bytes => [bytes], fun bytes => by simp⟩
  existing := ⟨fun bytes => [bytes], fun bytes => by simp⟩
  adopted := ⟨fun bytes => [bytes], fun bytes => by simp⟩

private theorem exists_interrupted {w : View}
    (h : w ∈ view s files :: milestones s (view s files)) :
    ∃ files', Interrupted s files files' ∧ view s files' = w := by
  obtain ⟨k, hk⟩ := ((passes_start wholeChoices).cut w).mpr h
  exact ⟨_, ⟨wholeChoices, k, rfl⟩, hk⟩

private theorem exists_completed (s : Startup) (files : Files Name UInt8) :
    ∃ files', Completed s files files' ∧
      view s files' = (milestones s (view s files)).getLastD (view s files) :=
  ⟨_, ⟨wholeChoices, rfl⟩, (passes_start wholeChoices).last⟩

/-- A file that is adopted twice: its entries are there twice. -/
theorem not_preserved_twice {content : List UInt8} {firstEntry : List Char} {v : View}
    (hadopt : adoptable s content = some firstEntry)
    (hcurrent : v.current = some (log ++ content ++ content)) (hnext : v.next = none) :
    ¬ Preserved log (some content) v := by
  intro hpreserved
  rw [Preserved, linesOf, linesOf, linesOf, hcurrent, hnext, Option.getD_some, Option.getD_some,
    Option.getD_none, Terminated.lines_nil, Multiset.coe_add, Multiset.coe_add, List.append_nil,
    Multiset.coe_eq_coe] at hpreserved
  have hlength := hpreserved.flatten.length_eq
  rw [List.flatten_append, flatten_lines, flatten_lines, flatten_lines, List.filter_append,
    List.filter_append, List.length_append, List.length_append] at hlength
  exact filter_ne_nil_of_adoptable hadopt (List.length_eq_zero_iff.mp (by omega))

/-- The condition is necessary: a start that is not cut off joins an open line, and one that is cut
off before it removes an adopted file without its first entry has it adopted again. -/
theorem adoptsWhole_of_preserved (hlog : DayLog s (view s files) log)
    (hfresh : Fresh s log (view s files).next)
    (h : ∀ files', Restarted s files files' → Preserved log (view s files).next (view s files')) :
    AdoptsWhole s log (view s files).next := by
  intro content firstEntry hcontent hadopt
  obtain ⟨-, hopened, hnext⟩ := hlog.restored
  have hnew := hopened.containsLine_eq (hfresh content firstEntry hcontent hadopt)
  have hviews := adoptViews_of_new (hnext.trans hcontent) hadopt hnew
  rw [hopened.getD_current] at hviews
  have hne : content ≠ [] := fun hnil => filter_ne_nil_of_adoptable hadopt (by rw [hnil]; rfl)
  -- a start that completes
  have hrest : rest newline log = [] := by
    obtain ⟨files', hcompleted, hview⟩ := exists_completed s files
    have hpreserved := h files' ⟨files, .refl, hcompleted⟩
    rw [hview, getLastD_milestones, hviews, hcontent] at hpreserved
    have hcard := congrArg Multiset.card hpreserved
    simp [linesOf] at hcard
    exact rest_eq_nil_of_length_lines hne hcard
  refine ⟨(rest_eq_nil_iff log).mp hrest, ?_⟩
  by_contra hcontains
  rw [Bool.not_eq_true] at hcontains
  -- a start that is cut off when the entries are adopted, and then one that completes
  have hmerged : { (restoreViews s (view s files)).getLastD (view s files) with
      current := some (log ++ content) } ∈ view s files :: milestones s (view s files) :=
    List.mem_cons_of_mem _ (List.mem_append_right _ (hviews ▸ List.mem_cons_self))
  obtain ⟨cut, hcut, hcutView⟩ := exists_interrupted hmerged
  have hcutCurrent : (view s cut).current = some (log ++ content) := by rw [hcutView]
  have hcutNext : (view s cut).next = some content := by rw [hcutView, hnext, hcontent]
  have hcutRestored : restoreViews s (view s cut) = [] :=
    restoreViews_of_current (by rw [hcutCurrent]; rfl)
  have hmissed : containsLine (view s cut).current firstEntry = false := by
    rw [hcutCurrent, containsLine_append hrest, hfresh content firstEntry hcontent hadopt,
      hcontains, Bool.or_false]
  obtain ⟨files', hcompleted, hview⟩ := exists_completed s cut
  have hpreserved := h files' ⟨cut, .single hcut, hcompleted⟩
  rw [hcontent, hview, getLastD_milestones, hcutRestored, List.getLastD_nil,
    adoptViews_of_new hcutNext hadopt hmissed, hcutCurrent] at hpreserved
  exact not_preserved_twice hadopt rfl rfl hpreserved

/-- Whatever the starts are cut off at, the one that completes leaves exactly the lines of the
day's log and of the next day's file, if and only if an adopted file follows a complete line and
holds its own first entry as it is looked for. -/
theorem restarted_preserves_iff (s : Startup) (files : Files Name UInt8) (log : List UInt8)
    (hlog : DayLog s (view s files) log) (hfresh : Fresh s log (files.lookup s.next)) :
    (∀ files', Restarted s files files' →
      Preserved log (files.lookup s.next) (view s files')) ↔
        AdoptsWhole s log (files.lookup s.next) := by
  constructor
  · exact fun h => adoptsWhole_of_preserved hlog hfresh h
  · intro hwhole files' hrun
    exact Kept.restarted hwhole hfresh (.inl ⟨hlog, rfl⟩) hrun

end

/-! ### A file to adopt -/

/-- An entry that is stamped on the second of January. -/
def januaryEntry : List Char := "\x7b\"timestamp\":\"2026-01-02T23:00:00Z\"\x7d".toList

/-- A start on the second of January. -/
def januaryStart : Startup where
  filename := "proxy.log".toList
  compression := true
  today := ⟨"2026-01-02".toList, by decide, List.all_eq_true.mp (by decide)⟩
  nextDay := ⟨"2026-01-03".toList, by decide, List.all_eq_true.mp (by decide)⟩
  days_ne := by decide
  gunzip _ := ([], false)
  timestamp entry := if entry = januaryEntry then some "2026-01-02T23:00:00Z".toList else none
  timestamp_nil := by decide

/-- The next day's file with the entry. -/
def januaryNext : List UInt8 := utf8Encode januaryEntry ++ [newline]

/-- The directory with the day's log and that file. -/
def januaryFiles (log : List UInt8) : Files Name UInt8 :=
  (AList.singleton januaryStart.current log).insert januaryStart.next januaryNext

private theorem adoptable_january : adoptable januaryStart januaryNext = some januaryEntry := by
  have hline : januaryNext.takeWhile (· ≠ newline) = utf8Encode januaryEntry := by decide
  have htrim : trimLineEnd januaryEntry = januaryEntry := by decide
  have hfirst : firstLine januaryNext = some januaryEntry := by
    rw [firstLine, hline, fromUtf8, fromUtf8Lossy_utf8Encode, if_pos rfl, Option.map_some, htrim]
  rw [adoptable, hfirst, Option.filter_some_pos (by decide)]

private theorem lookup_januaryFiles (log : List UInt8) (name : Name) :
    (januaryFiles log).lookup name =
      if name = januaryStart.next then some januaryNext
      else if name = januaryStart.current then some log else none := by
  rw [januaryFiles, Table.lookup_insert_eq, ← AList.insert_empty, Table.lookup_insert_eq]
  rfl

private theorem view_january (log : List UInt8) :
    view januaryStart (januaryFiles log) = ⟨some log, none, some januaryNext⟩ := by
  rw [view, lookup_januaryFiles, lookup_januaryFiles, lookup_januaryFiles,
    if_neg (current_ne_next januaryStart), if_pos rfl,
    if_neg (next_ne_compressed januaryStart).symm,
    if_neg (current_ne_compressed januaryStart).symm, if_pos rfl]

private theorem fresh_january {log : List UInt8}
    (h : containsLine (some log) januaryEntry = false) :
    Fresh januaryStart log ((januaryFiles log).lookup januaryStart.next) := by
  intro content firstEntry hnext hadopt
  rw [lookup_januaryFiles, if_pos rfl] at hnext
  obtain rfl := Option.some.inj hnext
  obtain rfl := Option.some.inj (adoptable_january.symm.trans hadopt)
  exact h

/-- A log with one entry, an empty object, is joined by the adopted one in whichever way the starts
are cut off. -/
theorem january_preserved :
    DayLog januaryStart (view januaryStart (januaryFiles [123, 125, newline])) [123, 125, newline] ∧
      ∀ files', Restarted januaryStart (januaryFiles [123, 125, newline]) files' →
        Preserved [123, 125, newline] (some januaryNext) (view januaryStart files') := by
  have hlog : DayLog januaryStart (view januaryStart (januaryFiles [123, 125, newline]))
      [123, 125, newline] := .inl (by rw [view_january])
  have hnext : (januaryFiles [123, 125, newline]).lookup januaryStart.next = some januaryNext := by
    rw [lookup_januaryFiles, if_pos rfl]
  have hwhole : AdoptsWhole januaryStart [123, 125, newline]
      ((januaryFiles [123, 125, newline]).lookup januaryStart.next) := by
    intro content firstEntry hcontent hadopt
    obtain rfl := Option.some.inj (hnext.symm.trans hcontent)
    obtain rfl := Option.some.inj (adoptable_january.symm.trans hadopt)
    exact ⟨by decide, by decide⟩
  have hpreserved := (restarted_preserves_iff januaryStart (januaryFiles [123, 125, newline])
    [123, 125, newline] hlog (fresh_january (by decide))).mpr hwhole
  rw [hnext] at hpreserved
  exact ⟨hlog, hpreserved⟩

/-- A log that was cut off inside an entry: the adopted entry is joined to it. -/
theorem january_joined :
    DayLog januaryStart (view januaryStart (januaryFiles [123])) [123] ∧
      Fresh januaryStart [123] ((januaryFiles [123]).lookup januaryStart.next) ∧
      ∃ files', Restarted januaryStart (januaryFiles [123]) files' ∧
        view januaryStart files' = ⟨some (123 :: januaryNext), none, none⟩ ∧
        ¬ Preserved [123] ((januaryFiles [123]).lookup januaryStart.next)
          (view januaryStart files') := by
  have hfresh : containsLine (some [123]) januaryEntry = false := by decide
  refine ⟨.inl (by rw [view_january]), fresh_january hfresh, ?_⟩
  obtain ⟨files', hcompleted, hview⟩ := exists_completed januaryStart (januaryFiles [123])
  rw [getLastD_milestones, view_january, restoreViews_of_current rfl, List.getLastD_nil,
    adoptViews_of_new rfl adoptable_january hfresh] at hview
  refine ⟨files', ⟨_, .refl, hcompleted⟩, hview, fun hpreserved => ?_⟩
  rw [hview, lookup_januaryFiles, if_pos rfl] at hpreserved
  have hcard := congrArg Multiset.card hpreserved
  exact absurd hcard (by decide)

end Llamesh.Logging
