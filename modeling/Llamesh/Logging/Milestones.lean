import Llamesh.Logging.Model

/-!
# What a start can leave

Of all the files only three matter to the entries: the day's file, its compressed
file and the next day's file. The copies are written beside them, so a start that
is cut off leaves these three at one of a few milestones, and every milestone can
be left. `passes_start` says so of every start, and the rest of the development
works with the milestones.
-/

namespace Llamesh.Logging

open FileOps Terminated Text

/-- The contents of the three files. -/
structure View where
  current : Option (List UInt8)
  compressed : Option (List UInt8)
  next : Option (List UInt8)
  deriving DecidableEq, Repr

/-- The contents of the three files in a directory. -/
def view (s : Startup) (files : Files Name UInt8) : View :=
  ⟨files.lookup s.current, files.lookup s.compressed, files.lookup s.next⟩

/-- Restoring: the day's file is there, and then the compressed one is not. -/
def restoreViews (s : Startup) (v : View) : List View :=
  if s.compression = false ∨ v.current.isSome then []
  else
    match v.compressed with
    | none => []
    | some bytes =>
      if (s.gunzip bytes).2 then
        [{ v with current := some (s.gunzip bytes).1 },
          { v with current := some (s.gunzip bytes).1, compressed := none }]
      else []

/-- The first entry of the next day's file, where it is to be adopted. -/
def adoptable (s : Startup) (content : List UInt8) : Option (List Char) :=
  (firstLine content).filter s.stampedToday

/-- Adopting: the day's file has the entries unless it had the first one, and then the next day's
file is not there. -/
def adoptViews (s : Startup) (v : View) : List View :=
  match v.next with
  | none => []
  | some content =>
    match adoptable s content with
    | none => []
    | some firstEntry =>
      if containsLine v.current firstEntry then [{ v with next := none }]
      else
        [{ v with current := some (v.current.getD [] ++ content) },
          { v with current := some (v.current.getD [] ++ content), next := none }]

/-- The milestones of a start after the first one. -/
def milestones (s : Startup) (v : View) : List View :=
  restoreViews s v ++ adoptViews s ((restoreViews s v).getLastD v)

section

variable {s : Startup} {v : View} {bytes content : List UInt8} {firstEntry : List Char}

/-- Where the current file is there, nothing is restored. -/
theorem restoreViews_of_current (h : v.current.isSome) : restoreViews s v = [] :=
  if_pos (.inr h)

private theorem restoreViews_of_compression (h : s.compression = false) : restoreViews s v = [] :=
  if_pos (.inl h)

/-- Without a compressed file nothing is restored. -/
theorem restoreViews_of_compressed_none (h : v.compressed = none) : restoreViews s v = [] := by
  unfold restoreViews
  rw [h]
  exact ite_self _

private theorem restoreViews_of_incomplete (h : v.compressed = some bytes)
    (hgunzip : (s.gunzip bytes).2 = false) : restoreViews s v = [] := by
  unfold restoreViews
  rw [h]
  dsimp only
  rw [hgunzip]
  exact ite_self _

/-- A compressed file that is whole is restored. -/
theorem restoreViews_of_complete (hcompression : s.compression = true) (hcurrent : v.current = none)
    (h : v.compressed = some bytes) (hgunzip : (s.gunzip bytes).2 = true) :
    restoreViews s v = [{ v with current := some (s.gunzip bytes).1 },
      { v with current := some (s.gunzip bytes).1, compressed := none }] := by
  obtain ⟨current, compressed, next⟩ := v
  cases hcurrent
  cases h
  simp [restoreViews, hcompression, hgunzip]

/-- Without a next file nothing is adopted. -/
theorem adoptViews_of_missing (h : v.next = none) : adoptViews s v = [] := by
  rw [adoptViews, h]

/-- A next file without a complete entry is not adopted. -/
theorem adoptViews_of_not_adoptable (h : v.next = some content)
    (hadopt : adoptable s content = none) : adoptViews s v = [] := by
  rw [adoptViews, h]
  dsimp only
  rw [hadopt]

/-- A next file that was adopted before is removed. -/
theorem adoptViews_of_contained (h : v.next = some content)
    (hadopt : adoptable s content = some firstEntry)
    (hcontains : containsLine v.current firstEntry = true) :
    adoptViews s v = [{ v with next := none }] := by
  obtain ⟨current, compressed, next⟩ := v
  cases h
  simp [adoptViews, hadopt, hcontains]

/-- A new next file is appended and then removed. -/
theorem adoptViews_of_new (h : v.next = some content)
    (hadopt : adoptable s content = some firstEntry)
    (hcontains : containsLine v.current firstEntry = false) :
    adoptViews s v = [{ v with current := some (v.current.getD [] ++ content) },
      { v with current := some (v.current.getD [] ++ content), next := none }] := by
  obtain ⟨current, compressed, next⟩ := v
  cases h
  simp [adoptViews, hadopt, hcontains]

end

/-! ### Names -/

section

variable (s : Startup)

private theorem length_current : s.current.length = s.filename.length + 11 := by
  rw [Startup.current, List.length_append, List.length_cons, s.today.length_eq]

private theorem length_next : s.next.length = s.filename.length + 11 := by
  rw [Startup.next, List.length_append, List.length_cons, s.nextDay.length_eq]

private theorem length_compressed : s.compressed.length = s.filename.length + 14 := by
  have hsuffix : ".gz".toList.length = 3 := by decide
  rw [Startup.compressed, List.length_append, length_current, hsuffix]

private theorem length_restoring : s.restoring.length = s.filename.length + 21 := by
  have hsuffix : ".restoring".toList.length = 10 := by decide
  rw [Startup.restoring, List.length_append, length_current, hsuffix]

private theorem length_merging : s.merging.length = s.filename.length + 19 := by
  have hsuffix : ".merging".toList.length = 8 := by decide
  rw [Startup.merging, List.length_append, length_current, hsuffix]

/-- The current and the next file differ in their names. -/
theorem current_ne_next : s.current ≠ s.next := by
  intro h
  exact s.days_ne (List.cons.inj (List.append_cancel_left h)).2

/-- The current and the compressed file differ in their names. -/
theorem current_ne_compressed : s.current ≠ s.compressed := by
  intro h
  have hlength := congrArg List.length h
  rw [length_current, length_compressed] at hlength
  omega

/-- The next and the compressed file differ in their names. -/
theorem next_ne_compressed : s.next ≠ s.compressed := by
  intro h
  have hlength := congrArg List.length h
  rw [length_next, length_compressed] at hlength
  omega

/-- The files that matter. -/
def kept : List Name := [s.current, s.compressed, s.next]

private theorem restoring_notMem_kept : s.restoring ∉ kept s := by
  intro h
  simp only [kept, List.mem_cons, List.not_mem_nil, or_false] at h
  rcases h with h | h | h
  all_goals
    have hlength := congrArg List.length h
    simp only [length_restoring, length_current, length_compressed, length_next] at hlength
    omega

private theorem merging_notMem_kept : s.merging ∉ kept s := by
  intro h
  simp only [kept, List.mem_cons, List.not_mem_nil, or_false] at h
  rcases h with h | h | h
  all_goals
    have hlength := congrArg List.length h
    simp only [length_merging, length_current, length_compressed, length_next] at hlength
    omega

private theorem point_notMem_day (day : Day) : '.' ∉ day.text := fun h =>
  absurd (day.plain '.' h) (by decide)

private theorem stripPrefix_filename (rest : List Char) :
    stripPrefix (s.filename ++ ['.']) (s.filename ++ '.' :: rest) = some rest := by
  have happend : s.filename ++ '.' :: rest = (s.filename ++ ['.']) ++ rest := by simp
  rw [happend, stripPrefix_append]

/-- None of them is taken for a copy. -/
theorem isCopy_of_mem_kept {name : Name} (h : name ∈ kept s) : isCopy s.filename name = false := by
  simp only [kept, List.mem_cons, List.not_mem_nil, or_false] at h
  rcases h with rfl | rfl | rfl
  · rw [isCopy, Startup.current, stripPrefix_filename]
    dsimp only
    rw [splitOnce_eq_none_iff.mpr (point_notMem_day s.today)]
  · have hname : s.compressed = s.filename ++ '.' :: (s.today.text ++ '.' :: "gz".toList) := by
      rw [Startup.compressed, Startup.current, List.append_assoc, List.cons_append]
      rfl
    rw [isCopy, hname, stripPrefix_filename]
    dsimp only
    rw [splitOnce_append (point_notMem_day s.today)]
    rfl
  · rw [isCopy, Startup.next, stripPrefix_filename]
    dsimp only
    rw [splitOnce_eq_none_iff.mpr (point_notMem_day s.nextDay)]

end

/-! ### The operations, seen through the three files -/

section

variable {s : Startup} {files : Files Name UInt8} {ops : List (Op Name UInt8)}

/-- Operations on other files are not seen. -/
theorem view_applyAll (h : ∀ op ∈ ops, ∀ name ∈ kept s, name ∉ op.names) :
    view s (applyAll ops files) = view s files := by
  have hlookup : ∀ name ∈ kept s, (applyAll ops files).lookup name = files.lookup name :=
    fun name hname => lookup_applyAll (fun op hop => h op hop name hname) files
  rw [view, hlookup s.current (by simp [kept]), hlookup s.compressed (by simp [kept]),
    hlookup s.next (by simp [kept]), view]

private theorem passes_unseen (h : ∀ op ∈ ops, ∀ name ∈ kept s, name ∉ op.names) :
    Passes (view s) files ops [] :=
  Passes.unseen files fun _ => view_applyAll fun op hop => h op (List.mem_of_mem_take hop)

private theorem passes_removeIncompleteCopies (choices : Choices) :
    Passes (view s) files (removeIncompleteCopies s choices files) [] := by
  apply passes_unseen
  intro op hop name hname hmem
  obtain ⟨copy, hcopy, rfl⟩ := List.mem_map.mp hop
  rw [List.mem_singleton.mp hmem] at hname
  have htrue := (List.mem_filter.mp hcopy).2
  rw [isCopy_of_mem_kept s hname] at htrue
  cases htrue

/-- A copy that is written beside and renamed into place. -/
theorem passes_copy {copy : Name} (hcopy : copy ∉ kept s) (chunks : List (List UInt8)) :
    Passes (view s) files (writeChunks copy chunks ++ [.rename copy s.current])
      [{ view s files with current := some chunks.flatten }] := by
  have hunseen : ∀ op ∈ writeChunks copy chunks, ∀ name ∈ kept s, name ∉ op.names := by
    intro op hop name hname hmem
    rw [names_of_mem_writeChunks hop, List.mem_singleton] at hmem
    exact hcopy (hmem ▸ hname)
  have hview : view s (applyAll (writeChunks copy chunks) files) = view s files :=
    view_applyAll hunseen
  have hrename :
      view s ((Op.rename copy s.current).apply (applyAll (writeChunks copy chunks) files)) =
        { view s files with current := some chunks.flatten } := by
    have hne : ∀ name ∈ kept s, name ≠ copy := fun name hname heq => hcopy (heq ▸ hname)
    rw [← hview, Op.apply, lookup_writeChunks]
    simp only [view, Table.lookup_insert_eq, Table.lookup_erase_eq, if_true]
    rw [if_neg (current_ne_compressed s).symm, if_neg (current_ne_next s).symm,
      if_neg (hne s.compressed (by simp [kept])), if_neg (hne s.next (by simp [kept]))]
  refine Passes.append (passes_unseen hunseen) ?_
  rw [← hrename]
  exact Passes.single _ _

private theorem passes_removeCompressed :
    Passes (view s) files [.remove s.compressed] [{ view s files with compressed := none }] := by
  have hview : view s ((Op.remove s.compressed).apply files) =
      { view s files with compressed := none } := by
    simp only [view, Op.apply, Table.lookup_erase_eq, if_true]
    rw [if_neg (current_ne_compressed s), if_neg (next_ne_compressed s)]
  rw [← hview]
  exact Passes.single files _

private theorem passes_removeNext :
    Passes (view s) files [.remove s.next] [{ view s files with next := none }] := by
  have hview : view s ((Op.remove s.next).apply files) = { view s files with next := none } := by
    simp only [view, Op.apply, Table.lookup_erase_eq, if_true]
    rw [if_neg (current_ne_next s), if_neg (next_ne_compressed s).symm]
  rw [← hview]
  exact Passes.single files _

/-- A compressed file that is decoded to its end. -/
theorem passes_restored (chunks : List (List UInt8)) :
    Passes (view s) files
      (writeChunks s.restoring chunks ++ [.rename s.restoring s.current, .remove s.compressed])
      [{ view s files with current := some chunks.flatten },
        { view s files with current := some chunks.flatten, compressed := none }] := by
  have hcopied : Passes (view s) files
      (writeChunks s.restoring chunks ++ [.rename s.restoring s.current])
      [{ view s files with current := some chunks.flatten }] :=
    passes_copy (restoring_notMem_kept s) chunks
  have hview := hcopied.last
  rw [List.getLastD_cons, List.getLastD_nil] at hview
  have happend := hcopied.append passes_removeCompressed
  rw [hview, List.append_assoc] at happend
  exact happend

private theorem passes_reopen (choices : Choices) :
    Passes (view s) files (if s.compression then reopenCompressedLog s choices files else [])
      (restoreViews s (view s files)) := by
  cases hcompression : s.compression with
  | false =>
    rw [restoreViews_of_compression hcompression]
    exact Passes.nil files
  | true =>
    rw [if_pos rfl, reopenCompressedLog]
    by_cases hcurrent : s.current ∈ files
    · rw [if_pos hcurrent, restoreViews_of_current (AList.lookup_isSome.mpr hcurrent)]
      exact Passes.nil files
    · rw [if_neg hcurrent]
      cases hcompressed : files.lookup s.compressed with
      | none =>
        rw [restoreViews_of_compressed_none hcompressed]
        exact Passes.nil files
      | some bytes =>
        dsimp only
        cases hgunzip : (s.gunzip bytes).2 with
        | true =>
          rw [restoreViews_of_complete hcompression (AList.lookup_eq_none.mpr hcurrent) hcompressed
            hgunzip]
          have hrestored : Passes (view s) files _ _ :=
            passes_restored (choices.restored.1 (s.gunzip bytes).1)
          rw [choices.restored.2] at hrestored
          exact hrestored
        | false =>
          -- the copy is removed again
          rw [restoreViews_of_incomplete hcompressed hgunzip]
          refine passes_unseen fun op hop name hname hmem => ?_
          have hnames : op.names = [s.restoring] := by
            rcases List.mem_append.mp hop with hop | hop
            · exact names_of_mem_writeChunks hop
            · rw [List.mem_singleton.mp hop]
              rfl
          rw [hnames, List.mem_singleton] at hmem
          exact restoring_notMem_kept s (hmem ▸ hname)

/-- The next day's file is added to the day's file and removed. -/
theorem passes_merged (chunks : List (List UInt8)) :
    Passes (view s) files
      (writeChunks s.merging chunks ++ [.rename s.merging s.current] ++ [.remove s.next])
      [{ view s files with current := some chunks.flatten },
        { view s files with current := some chunks.flatten, next := none }] := by
  have hcopied : Passes (view s) files
      (writeChunks s.merging chunks ++ [.rename s.merging s.current])
      [{ view s files with current := some chunks.flatten }] :=
    passes_copy (merging_notMem_kept s) chunks
  have hview := hcopied.last
  rw [List.getLastD_cons, List.getLastD_nil] at hview
  have happend := hcopied.append passes_removeNext
  rw [hview] at happend
  exact happend

private theorem passes_adopt (choices : Choices) :
    Passes (view s) files (adoptNextDayLog s choices files) (adoptViews s (view s files)) := by
  unfold adoptNextDayLog
  cases hnext : files.lookup s.next with
  | none =>
    rw [adoptViews_of_missing hnext]
    exact Passes.nil files
  | some content =>
    dsimp only
    cases hfirst : firstLine content with
    | none =>
      have hadopt : adoptable s content = none := by rw [adoptable, hfirst, Option.filter_none]
      rw [adoptViews_of_not_adoptable hnext hadopt]
      exact Passes.nil files
    | some firstEntry =>
      dsimp only
      cases hstamped : s.stampedToday firstEntry with
      | false =>
        have hadopt : adoptable s content = none := by
          rw [adoptable, hfirst, Option.filter_some_neg (by simp [hstamped])]
        rw [adoptViews_of_not_adoptable hnext hadopt]
        exact Passes.nil files
      | true =>
        have hadopt : adoptable s content = some firstEntry := by
          rw [adoptable, hfirst, Option.filter_some_pos hstamped]
        cases hcontains : containsLine (files.lookup s.current) firstEntry with
        | true =>
          rw [adoptViews_of_contained hnext hadopt hcontains]
          exact passes_removeNext
        | false =>
          rw [adoptViews_of_new hnext hadopt hcontains]
          have hmerged : Passes (view s) files _ _ :=
            passes_merged (choices.existing.1 ((files.lookup s.current).getD []) ++
              choices.adopted.1 content)
          rw [List.flatten_append, choices.existing.2, choices.adopted.2] at hmerged
          exact hmerged

/-- A start passes through its milestones, whatever it leaves open. -/
theorem passes_start (choices : Choices) :
    Passes (view s) files (start s choices files) (milestones s (view s files)) := by
  let removals := removeIncompleteCopies s choices files
  let reopening :=
    if s.compression then reopenCompressedLog s choices (applyAll removals files) else []
  have hremoved : Passes (view s) files removals [] := passes_removeIncompleteCopies choices
  have hview : view s (applyAll removals files) = view s files := hremoved.last
  have hreopened : Passes (view s) (applyAll removals files) reopening
      (restoreViews s (view s (applyAll removals files))) := passes_reopen choices
  rw [hview] at hreopened
  have hboth : Passes (view s) files (removals ++ reopening) (restoreViews s (view s files)) :=
    hremoved.append hreopened
  have hadopted : Passes (view s) (applyAll (removals ++ reopening) files) _ _ :=
    passes_adopt choices
  rw [hboth.last] at hadopted
  have hstart : start s choices files = removals ++ reopening ++
      adoptNextDayLog s choices (applyAll (removals ++ reopening) files) := by
    rw [applyAll_append]
    rfl
  rw [hstart]
  exact hboth.append hadopted

end

end Llamesh.Logging
