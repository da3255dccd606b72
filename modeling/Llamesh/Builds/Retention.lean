import Llamesh.Builds.Cleanup
import Llamesh.Builds.Isolation

/-!
# What a cleanup removes

The binary path leads where it did, whatever links there are inside, above and
across the build directories: a directory or a link that its resolution comes past
is protected. Each entry is judged on the tree as it is when it is visited, so a
removal can change what is found at a later entry. Where no entry is reached
through one that is removed, the cleanup removes exactly the unfinished builds and
all but the newest of the others.
-/

namespace Llamesh.Builds.Cleanup

open FileSystem
open Isolation (Path Location Files tryExists removeDirAll binaryIn)

namespace Config

variable (c : Config)

/-! ### The entries of a tree -/

/-- A directory of a managed name with this base that is not protected by what was resolved. -/
def candidate (protectedDirs : List Location) (files : Files) (name : List Char) : Bool :=
  c.named files name && !c.isProtected protectedDirs files name

/-- A directory of a managed name with this base that is not protected. -/
def unprotected (files : Files) (name : List Char) : Bool :=
  c.candidate (dirsResolvedThrough files c.binary) files name

/-- One without a binary. -/
def unfinished (files : Files) (name : List Char) : Bool :=
  c.unprotected files name && tryExists files (binaryIn (c.managed name)) == some false

/-- One with a binary, and its time. -/
def build (files : Files) (times : List Char → Option Int) (name : List Char) : Option Int :=
  if c.unprotected files name && tryExists files (binaryIn (c.managed name)) == some true then
    times name
  else none

variable {c} {files₀ files : Files} {name : List Char} {e p : Location}

/-- An entry that is a directory is at its location, or is a link to it. -/
theorem place_of_named (h : c.named files name = true) :
    ∃ d p, canonicalize files c.buildsDir = some d ∧ isDir files d = true ∧
      canonicalize files (c.managed name) = some p ∧ isDir files p = true ∧
      entry files (c.managed name) = some (d ++ [name]) ∧
      (p = d ++ [name] ∧ IsPlace files p ∨
        ∃ target left, files.lookup (d ++ [name]) = some (.link target) ∧
          (walk files true left d target).ending = .reached p) := by
  unfold named at h
  rw [Bool.and_eq_true] at h
  obtain ⟨p, hp, hdir⟩ := (Option.any_eq_true _ _).mp h.1
  obtain ⟨d, hd, hdd, hplace⟩ := canonicalize_concat hp
  exact ⟨d, p, hd, hdd, hp, hdir, entry_concat hd hdd, hplace⟩

/-- The resolution of the binary path does not come past an entry that is not protected. -/
theorem notMem_looked (h : c.unprotected files name = true)
    (he : entry files (c.managed name) = some e) {b : Location}
    (hb : canonicalize files c.binary = some b) : e ∉ (resolve files c.binary).looked := by
  unfold unprotected candidate at h
  rw [Bool.and_eq_true] at h
  obtain ⟨d, p, -, -, hp, -, -, -⟩ := place_of_named h.1
  have hprotected : p ∉ dirsResolvedThrough files c.binary := by
    have hnot := h.2
    simp only [isProtected, hp, Option.any_some, Bool.not_eq_true'] at hnot
    intro hmem
    rw [List.contains_eq_mem, decide_eq_false_iff_not] at hnot
    exact hnot hmem
  refine entry_notMem_looked hp he hb fun hpassed => hprotected ?_
  exact ancestors_resolvedThrough hpassed List.prefix_rfl

/-- A candidate among fewer nodes is one among more. -/
theorem candidate_of_included {protectedDirs : List Location} (hincl : Included files files₀)
    (h : c.candidate protectedDirs files name = true) :
    c.candidate protectedDirs files₀ name = true := by
  unfold candidate at h ⊢
  rw [Bool.and_eq_true] at h ⊢
  obtain ⟨d, p, -, -, hp, -⟩ := place_of_named h.1
  have hnamed := h.1
  unfold named at hnamed ⊢
  rw [Bool.and_eq_true] at hnamed ⊢
  refine ⟨⟨hincl.isDirectory hnamed.1, hnamed.2⟩, ?_⟩
  have hnot := h.2
  simp only [isProtected, hp, hincl.canonicalize hp] at hnot ⊢
  exact hnot

private theorem named_of_unprotected (h : c.unprotected files name = true) :
    c.named files name = true := by
  unfold unprotected candidate at h
  exact (Bool.and_eq_true _ _ ▸ h).1

private theorem unprotected_of_unfinished (h : c.unfinished files name = true) :
    c.unprotected files name = true := by
  unfold unfinished at h
  exact (Bool.and_eq_true _ _ ▸ h).1

/-! ### What any cleanup leaves -/

/-- A removal takes nothing but what is at its entry and below. -/
theorem lookup_removed (files : Files) (path : Path) (q : Location) :
    (removed files path).lookup q = files.lookup q ∨
      (removed files path).lookup q = none ∧ ∃ e, entry files path = some e ∧ e <+: q := by
  unfold removed
  cases hremoved : removeDirAll files path with
  | none => exact .inl rfl
  | some t =>
    rw [Option.getD_some]
    obtain ⟨e, he, hnode⟩ := Option.bind_eq_some_iff.mp hremoved
    split at hnode
    · obtain rfl := Option.some.inj hnode
      rw [lookup_removeTree]
      split
      · next hprefix => exact .inr ⟨rfl, e, he, hprefix⟩
      · exact .inl rfl
    · obtain rfl := Option.some.inj hnode
      rw [Table.lookup_erase_eq]
      split
      · next heq => exact .inr ⟨rfl, e, he, heq ▸ List.prefix_rfl⟩
      · exact .inl rfl
    · cases hnode

/-- Only unprotected entries are gone, with what is below them. -/
def Touched (c : Config) (files₀ files : Files) : Prop :=
  ∀ q, files.lookup q = files₀.lookup q ∨
    files.lookup q = none ∧
      ∃ name e, c.unprotected files₀ name = true ∧ entry files₀ (c.managed name) = some e ∧ e <+: q

namespace Touched

private theorem refl (files : Files) : c.Touched files files := fun _ => .inl rfl

private theorem included (h : c.Touched files₀ files) : Included files files₀ := by
  intro q n hn
  rcases h q with hsame | ⟨hnone, -⟩
  · exact hsame.symm.trans hn
  · rw [hnone] at hn
    cases hn

private theorem removed (h : c.Touched files₀ files) (hname : c.unprotected files₀ name = true) :
    c.Touched files₀ (removed files (c.managed name)) := by
  intro q
  rcases lookup_removed files (c.managed name) q with hsame | ⟨hnone, e, he, hprefix⟩
  · rw [hsame]
    exact h q
  · exact .inr ⟨hnone, name, e, hname, h.included.entry he, hprefix⟩

/-- The binary path leads where it did, to what was there. -/
theorem binary (h : c.Touched files₀ files) :
    canonicalize files c.binary = canonicalize files₀ c.binary ∧
      ∀ p, canonicalize files₀ c.binary = some p → p ≠ [] → files.lookup p = files₀.lookup p := by
  cases hb : canonicalize files₀ c.binary with
  | none =>
    refine ⟨?_, fun p hp => by cases hp⟩
    cases hafter : canonicalize files c.binary with
    | none => rfl
    | some p =>
      rw [h.included.canonicalize hafter] at hb
      cases hb
  | some b =>
    have hkept : ∀ q ∈ (resolve files₀ c.binary).looked, files.lookup q = files₀.lookup q := by
      intro q hq
      rcases h q with hsame | ⟨-, name, e, hname, he, hprefix⟩
      · exact hsame
      · exfalso
        rcases looked_of_prefix hq hprefix with hnil | hlooked
        · exact entry_ne_nil he (List.prefix_nil.mp hnil)
        · exact notMem_looked hname he hb hlooked
    refine ⟨(canonicalize_congr hkept).trans hb, fun p hp hne => hkept p ?_⟩
    obtain rfl := Option.some.inj hp
    rcases place_of_passed (.inr (canonicalize_eq_some.mp hb)) with hnil | ⟨hlooked, -⟩
    · exact absurd (List.prefix_nil.mp hnil) hne
    · exact hlooked

end Touched

/-! ### One entry -/

section

variable {times : List Char → Option Int} {protectedDirs : List Location} {s : Sweep}

private theorem visit_of_not_candidate (h : c.candidate protectedDirs s.files name = false) :
    c.visit times protectedDirs s name = s := by
  unfold candidate at h
  unfold visit
  cases hnamed : c.named s.files name with
  | false => rfl
  | true =>
    rw [hnamed, Bool.true_and, Bool.not_eq_false'] at h
    simp [h]

private theorem visit_of_candidate (h : c.candidate protectedDirs s.files name = true) :
    c.visit times protectedDirs s name =
      match tryExists s.files (binaryIn (c.managed name)) with
      | some true => (times name).elim s fun t => { s with builds := s.builds ++ [(name, t)] }
      | some false => { s with files := Cleanup.removed s.files (c.managed name) }
      | none => s := by
  unfold candidate at h
  rw [Bool.and_eq_true, Bool.not_eq_true'] at h
  unfold visit
  simp only [h.1, h.2]
  cases times name <;> rfl

end

/-- The cleanup so far has touched unprotected entries only, and found no others. -/
structure Swept (c : Config) (files₀ : Files) (s : Sweep) : Prop where
  touched : c.Touched files₀ s.files
  found : ∀ b ∈ s.builds, c.unprotected files₀ b.1 = true

private theorem Swept.visit {s : Sweep} {times : List Char → Option Int} (h : c.Swept files₀ s)
    (name : List Char) :
    c.Swept files₀ (c.visit times (dirsResolvedThrough files₀ c.binary) s name) := by
  cases hcandidate : c.candidate (dirsResolvedThrough files₀ c.binary) s.files name with
  | false =>
    rw [visit_of_not_candidate hcandidate]
    exact h
  | true =>
    have hname : c.unprotected files₀ name = true :=
      candidate_of_included h.touched.included hcandidate
    rw [visit_of_candidate hcandidate]
    split
    · cases times name with
      | none => exact h
      | some created =>
        refine ⟨h.touched, fun b hb => ?_⟩
        rcases List.mem_append.mp hb with hb | hb
        · exact h.found b hb
        · rw [List.mem_singleton.mp hb]
          exact hname
    · exact ⟨h.touched.removed hname, h.found⟩
    · exact h

private theorem Swept.foldl (times : List Char → Option Int) (names : List (List Char)) {s : Sweep}
    (h : c.Swept files₀ s) :
    c.Swept files₀ (names.foldl (c.visit times (dirsResolvedThrough files₀ c.binary)) s) := by
  induction names generalizing s with
  | nil => exact h
  | cons name names ih => exact ih (h.visit name)

/-- The old builds are among those found. -/
theorem mem_of_mem_oldBuilds {keepBuilds : Nat} {builds : List (List Char × Int)}
    (h : name ∈ oldBuilds keepBuilds builds) : ∃ t, (name, t) ∈ builds := by
  obtain ⟨b, hb, rfl⟩ := List.mem_map.mp h
  exact ⟨b.2, (List.perm_insertionSort _ builds).mem_iff.mp (List.mem_of_mem_take hb)⟩

private theorem Touched.foldl_removed (old : List (List Char)) (h : c.Touched files₀ files)
    (hold : ∀ name ∈ old, c.unprotected files₀ name = true) :
    c.Touched files₀
      (old.foldl (fun files name => Cleanup.removed files (c.managed name)) files) := by
  induction old generalizing files with
  | nil => exact h
  | cons name old ih =>
    rw [List.forall_mem_cons] at hold
    exact ih (h.removed hold.1) hold.2

/-- Every cleanup touches unprotected entries only. -/
theorem touched_cleanupOldBuilds (c : Config) (times : List Char → Option Int)
    (names : List (List Char)) (files : Files) :
    c.Touched files (c.cleanupOldBuilds times names files) := by
  unfold cleanupOldBuilds
  split
  · exact Touched.refl files
  · have hswept : c.Swept files ⟨files, []⟩ :=
      ⟨Touched.refl files, fun b hb => absurd hb List.not_mem_nil⟩
    have hafter := hswept.foldl times names
    refine hafter.touched.foldl_removed _ fun name hname => ?_
    obtain ⟨t, ht⟩ := mem_of_mem_oldBuilds hname
    exact hafter.found _ ht

/-! ### What is removed, and nothing else -/

/-- The tree without these entries. -/
structure Without (c : Config) (files₀ : Files) (gone : List Char → Prop) (files : Files) :
    Prop where
  absent : ∀ name e q, gone name → entry files₀ (c.managed name) = some e → e <+: q →
    files.lookup q = none
  same : ∀ q, (∀ name e, gone name → entry files₀ (c.managed name) = some e → ¬ e <+: q) →
    files.lookup q = files₀.lookup q

namespace Without

variable {gone : List Char → Prop}

private theorem included (h : c.Without files₀ gone files) : Included files files₀ := by
  intro q n hn
  by_cases hgone : ∃ name e, gone name ∧ entry files₀ (c.managed name) = some e ∧ e <+: q
  · obtain ⟨name, e, hname, he, hprefix⟩ := hgone
    rw [h.absent name e q hname he hprefix] at hn
    cases hn
  · rw [← h.same q fun name e hname he hprefix => hgone ⟨name, e, hname, he, hprefix⟩]
    exact hn

private theorem congr {other : List Char → Prop} (h : c.Without files₀ gone files)
    (hiff : ∀ name, other name ↔ gone name) : c.Without files₀ other files := by
  obtain rfl : other = gone := funext fun name => propext (hiff name)
  exact h

/-- A path that does not come past the entries that are gone finds what it found. -/
theorem looked (h : c.Without files₀ gone files) {path : Path}
    (hpath : ∀ name e, gone name → entry files₀ (c.managed name) = some e →
      e ∉ (resolve files₀ path).looked) :
    ∀ q ∈ (resolve files₀ path).looked, files.lookup q = files₀.lookup q := by
  intro q hq
  refine h.same q fun name e hname he hprefix => ?_
  rcases looked_of_prefix hq hprefix with hnil | hlooked
  · exact entry_ne_nil he (List.prefix_nil.mp hnil)
  · exact hpath name e hname he hlooked

/-- The removal of one more entry. -/
theorem removed (hsound : Sound files₀) (h : c.Without files₀ gone files)
    (hname : c.named files₀ name = true) (hnot : ¬ gone name)
    (hdir : ∀ other e, gone other → entry files₀ (c.managed other) = some e →
      e ∉ (resolve files₀ c.buildsDir).looked) :
    c.Without files₀ (fun other => gone other ∨ other = name)
      (removed files (c.managed name)) := by
  obtain ⟨d, p, hd, hdd, -, hisDir, he, hplace⟩ := place_of_named hname
  have hentry : entry files (c.managed name) = some (d ++ [name]) := by
    refine Eq.trans (entry_congr ?_) he
    unfold managed
    rw [List.dropLast_concat]
    exact h.looked hdir
  -- No other entry is above this one.
  have hnode : files.lookup (d ++ [name]) = files₀.lookup (d ++ [name]) := by
    refine h.same _ fun other e hother he' hprefix => hnot ?_
    obtain rfl := name_eq_of_entry he' he hprefix
    exact hother
  have hlookup : ∀ q, (Cleanup.removed files (c.managed name)).lookup q =
      if d ++ [name] <+: q then none else files.lookup q := by
    intro q
    unfold Cleanup.removed removeDirAll
    rw [hentry, Option.bind_some, hnode]
    rcases hplace with ⟨rfl, -⟩ | ⟨target, left, hlink, -⟩
    · rw [lookup_of_isDir (by simp) hisDir]
      exact lookup_removeTree
    · rw [hlink]
      simp only [Option.getD_some]
      rw [Table.lookup_erase_eq]
      by_cases heq : q = d ++ [name]
      · simp [heq]
      · rw [if_neg heq]
        split
        · next hprefix =>
          have hbelow := hsound.below_link (by simp) hlink hprefix heq
          cases hq : files.lookup q with
          | none => rfl
          | some n =>
            rw [h.included q n hq] at hbelow
            cases hbelow
        · rfl
  refine ⟨fun other e q hother he' hprefix => ?_, fun q hq => ?_⟩
  · rw [hlookup]
    split
    · rfl
    · next hnot =>
      rcases hother with hother | rfl
      · exact h.absent other e q hother he' hprefix
      · obtain rfl := Option.some.inj (he.symm.trans he')
        exact absurd hprefix hnot
  · rw [hlookup, if_neg (hq name _ (.inr rfl) he)]
    exact h.same q fun other e hother => hq other e (.inl hother)

end Without

/-- The builds of a tree with their times, in the order they are read. -/
def builds (c : Config) (times : List Char → Option Int) (names : List (List Char))
    (files : Files) : List (List Char × Int) :=
  names.filterMap fun name => (c.build files times name).map (name, ·)

/-- Resolving the builds directory comes past no entry that is removed, and resolving an entry and
its binary past no other entry that is unfinished. -/
structure Apart (c : Config) (times : List Char → Option Int) (names : List (List Char))
    (files : Files) : Prop where
  dir : ∀ name e, c.unfinished files name = true ∨
    name ∈ oldBuilds c.keepBuilds (c.builds times names files) →
    entry files (c.managed name) = some e → e ∉ (resolve files c.buildsDir).looked
  binary : ∀ name other e, c.unprotected files name = true → c.unfinished files other = true →
    other ≠ name → entry files (c.managed other) = some e →
    e ∉ (resolve files (binaryIn (c.managed name))).looked

/-- An unprotected entry is as it was in a tree where its binary is. -/
theorem candidate_congr {protectedDirs : List Location}
    (h : ∀ q ∈ (resolve files₀ (c.managed name)).looked, files.lookup q = files₀.lookup q) :
    c.candidate protectedDirs files name = c.candidate protectedDirs files₀ name := by
  unfold candidate named isProtected
  rw [isDirectory_congr h, canonicalize_congr h]

/-- After the entries `done`, the unfinished among them are gone and the builds among them are
found. -/
structure Judged (c : Config) (times : List Char → Option Int) (files₀ : Files)
    (done : List (List Char)) (s : Sweep) : Prop where
  without : c.Without files₀ (fun name => name ∈ done ∧ c.unfinished files₀ name = true) s.files
  found : s.builds = c.builds times done files₀

/-- An entry that is not removed adds no name. -/
theorem Judged.keeps {times : List Char → Option Int} {done : List (List Char)} {s : Sweep}
    (h : c.Judged times files₀ done s) (hname : c.unfinished files₀ name = false)
    {builds : List (List Char × Int)}
    (hbuilds : builds = s.builds ++ ((c.build files₀ times name).map (name, ·)).toList) :
    c.Judged times files₀ (done ++ [name]) { s with builds := builds } := by
  refine ⟨h.without.congr fun other => ?_, ?_⟩
  · rw [List.mem_append, List.mem_singleton]
    constructor
    · rintro ⟨hdone | rfl, hother⟩
      · exact ⟨hdone, hother⟩
      · rw [hname] at hother
        cases hother
    · exact fun hother => ⟨.inl hother.1, hother.2⟩
  · rw [hbuilds, h.found]
    unfold Config.builds
    rw [List.filterMap_append]
    rfl

/-- Each entry is judged as in the tree before the cleanup. -/
theorem Judged.visit {times : List Char → Option Int} {names done : List (List Char)} {s : Sweep}
    (hsound : Sound files₀) (hapart : c.Apart times names files₀)
    (h : c.Judged times files₀ done s) (hfresh : name ∉ done) :
    c.Judged times files₀ (done ++ [name])
      (c.visit times (dirsResolvedThrough files₀ c.binary) s name) := by
  cases hunprotected : c.unprotected files₀ name with
  | false =>
    have hcandidate : c.candidate (dirsResolvedThrough files₀ c.binary) s.files name = false := by
      rw [Bool.eq_false_iff]
      intro hcandidate
      have hbefore : c.unprotected files₀ name = true :=
        candidate_of_included h.without.included hcandidate
      rw [hunprotected] at hbefore
      cases hbefore
    rw [visit_of_not_candidate hcandidate]
    refine h.keeps (by simp [unfinished, hunprotected]) ?_
    simp [build, hunprotected]
  | true =>
    -- The entries that are gone are others, and this one is not reached through them.
    have hothers : ∀ other e, other ∈ done ∧ c.unfinished files₀ other = true →
        entry files₀ (c.managed other) = some e →
        e ∉ (resolve files₀ (binaryIn (c.managed name))).looked := by
      intro other e hother he
      refine hapart.binary name other e hunprotected hother.2 ?_ he
      rintro rfl
      exact hfresh hother.1
    have hlooked := h.without.looked hothers
    have hmanaged : ∀ q ∈ (resolve files₀ (c.managed name)).looked,
        s.files.lookup q = files₀.lookup q := fun q hq => hlooked q (looked_append hq)
    have hcandidate : c.candidate (dirsResolvedThrough files₀ c.binary) s.files name = true :=
      (candidate_congr hmanaged).trans hunprotected
    have hexists : tryExists s.files (binaryIn (c.managed name)) =
        tryExists files₀ (binaryIn (c.managed name)) := by
      unfold tryExists resolve
      rw [walk_congr (fun q hq hne => absurd (List.prefix_nil.mp hq) hne) hlooked]
    rw [visit_of_candidate hcandidate, hexists]
    cases hbinary : tryExists files₀ (binaryIn (c.managed name)) with
    | none =>
      refine h.keeps (by simp [unfinished, hbinary]) ?_
      simp [build, hbinary]
    | some built =>
      cases built with
      | true =>
        have hbuild : c.build files₀ times name = times name := by
          simp [build, hunprotected, hbinary]
        have hunfinished : c.unfinished files₀ name = false := by simp [unfinished, hbinary]
        cases htime : times name with
        | none => exact h.keeps hunfinished (by simp [hbuild, htime])
        | some created => exact h.keeps hunfinished (by simp [hbuild, htime])
      | false =>
        have hunfinished : c.unfinished files₀ name = true := by
          simp [unfinished, hunprotected, hbinary]
        have hnamed := named_of_unprotected hunprotected
        refine ⟨?_, ?_⟩
        · refine (h.without.removed hsound hnamed (fun hdone => hfresh hdone.1) ?_).congr ?_
          · exact fun other e hother he hdir => hothers other e hother he <| by
              rw [binaryIn, managed, List.append_assoc]
              exact looked_append hdir
          · intro other
            rw [List.mem_append, List.mem_singleton]
            constructor
            · rintro ⟨hdone | rfl, hother⟩
              · exact .inl ⟨hdone, hother⟩
              · exact .inr rfl
            · rintro (hother | rfl)
              · exact ⟨.inl hother.1, hother.2⟩
              · exact ⟨.inr rfl, hunfinished⟩
        · have hbuild : c.build files₀ times name = none := by simp [build, hbinary]
          simp only [h.found, Config.builds, List.filterMap_append, List.filterMap_cons, hbuild,
            Option.map_none, List.filterMap_nil, List.append_nil]

/-- The whole sweep. -/
theorem Judged.foldl {times : List Char → Option Int} {names : List (List Char)}
    (hsound : Sound files₀) (hapart : c.Apart times names files₀) (rest : List (List Char))
    {done : List (List Char)} {s : Sweep} (hnodup : (done ++ rest).Nodup)
    (h : c.Judged times files₀ done s) :
    c.Judged times files₀ (done ++ rest)
      (rest.foldl (c.visit times (dirsResolvedThrough files₀ c.binary)) s) := by
  induction rest generalizing done s with
  | nil =>
    rw [List.append_nil]
    exact h
  | cons name rest ih =>
    have hfresh : name ∉ done := fun hdone =>
      (List.nodup_append.mp hnodup).2.2 name hdone name List.mem_cons_self rfl
    rw [List.append_cons] at hnodup ⊢
    exact ih hnodup (h.visit hsound hapart hfresh)

/-- The removals of the old builds. -/
theorem Without.foldl_removed (hsound : Sound files₀) (old : List (List Char))
    {gone : List Char → Prop} (h : c.Without files₀ gone files)
    (hnamed : ∀ name ∈ old, c.named files₀ name = true) (hnodup : old.Nodup)
    (hfresh : ∀ name ∈ old, ¬ gone name)
    (hdir : ∀ name e, gone name ∨ name ∈ old → entry files₀ (c.managed name) = some e →
      e ∉ (resolve files₀ c.buildsDir).looked) :
    c.Without files₀ (fun name => gone name ∨ name ∈ old)
      (old.foldl (fun files name => Cleanup.removed files (c.managed name)) files) := by
  induction old generalizing files gone with
  | nil => exact h.congr fun name => by simp
  | cons name old ih =>
    rw [List.forall_mem_cons] at hnamed hfresh
    rw [List.nodup_cons] at hnodup
    have hnext := h.removed hsound hnamed.1 hfresh.1 fun other e hother =>
      hdir other e (.inl hother)
    have hrest : ∀ other ∈ old, ¬ (gone other ∨ other = name) := by
      rintro other hother (hgone | rfl)
      · exact hfresh.2 other hother hgone
      · exact hnodup.1 hother
    refine (ih hnext hnamed.2 hnodup.2 hrest fun other e hother => ?_).congr fun other => ?_
    · refine hdir other e ?_
      simpa [or_assoc] using hother
    · simp [or_assoc]

/-- All but the newest are old. -/
theorem oldBuilds_newest (keepBuilds : Nat) {builds : List (List Char × Int)}
    (hnodup : (builds.map Prod.fst).Nodup) :
    ∃ kept, (oldBuilds keepBuilds builds ++ kept).Perm (builds.map Prod.fst) ∧
      kept.length = min keepBuilds builds.length ∧
      ∀ o ∈ oldBuilds keepBuilds builds, ∀ k ∈ kept, ∀ s t, (o, s) ∈ builds → (k, t) ∈ builds →
        s ≤ t := by
  have hperm := List.perm_insertionSort (fun a b : List Char × Int => a.2 ≤ b.2) builds
  have hsorted := List.pairwise_insertionSort (fun a b : List Char × Int => a.2 ≤ b.2) builds
  unfold oldBuilds
  generalize builds.insertionSort (fun a b => a.2 ≤ b.2) = sorted at hperm hsorted ⊢
  dsimp only
  refine ⟨(sorted.drop (sorted.length - keepBuilds)).map Prod.fst, ?_, ?_, ?_⟩
  · rw [← List.map_append, List.take_append_drop]
    exact hperm.map _
  · rw [List.length_map, List.length_drop, ← hperm.length_eq]
    omega
  · intro o ho k hk s t hs ht
    obtain ⟨a, ha, rfl⟩ := List.mem_map.mp ho
    obtain ⟨b, hb, rfl⟩ := List.mem_map.mp hk
    have hinj := List.inj_on_of_nodup_map hnodup
    have hsa : (a.1, s) = a :=
      hinj hs (hperm.mem_iff.mp (List.mem_of_mem_take ha)) rfl
    have htb : (b.1, t) = b :=
      hinj ht (hperm.mem_iff.mp (List.mem_of_mem_drop hb)) rfl
    rw [← List.take_append_drop (sorted.length - keepBuilds) sorted,
      List.pairwise_append] at hsorted
    rw [← hsa] at ha
    rw [← htb] at hb
    exact hsorted.2.2 _ ha _ hb

/-- The builds are split into old ones and the newest, and what is gone is the old ones and the
unfinished. -/
structure Retained (c : Config) (times : List Char → Option Int) (unfinished : List Char → Prop)
    (files after : Files) (old kept : List (List Char)) : Prop where
  nodup : (old ++ kept).Nodup
  builds : ∀ name, name ∈ old ++ kept ↔ (c.build files times name).isSome = true
  count : kept.length = min c.keepBuilds (old ++ kept).length
  newest : ∀ o ∈ old, ∀ k ∈ kept, ∀ s t, c.build files times o = some s →
    c.build files times k = some t → s ≤ t
  without : c.Without files (fun name => unfinished name ∨ name ∈ old) after

/-- Every entry that is judged is read. -/
theorem mem_entries (h : c.named files name = true) : name ∈ c.entries files := by
  obtain ⟨d, p, hd, hdd, -, -, -, hplace⟩ := place_of_named h
  unfold entries
  rw [hd]
  simp only [hdd, if_true]
  rw [mem_namesIn]
  rcases hplace with ⟨rfl, n, hn, -⟩ | ⟨target, left, hlink, -⟩
  · exact ⟨n, hn⟩
  · exact ⟨_, hlink⟩

private theorem nodup_entries : (c.entries files).Nodup := by
  unfold entries
  split
  · split
    · exact nodup_namesIn _
    · exact List.nodup_nil
  · exact List.nodup_nil

private theorem mem_builds {times : List Char → Option Int} {names : List (List Char)} {t : Int} :
    (name, t) ∈ c.builds times names files ↔
      name ∈ names ∧ c.build files times name = some t := by
  unfold builds
  rw [List.mem_filterMap]
  constructor
  · rintro ⟨other, hother, hbuild⟩
    obtain ⟨s, hs, heq⟩ := Option.map_eq_some_iff.mp hbuild
    obtain ⟨rfl, rfl⟩ := Prod.mk.inj heq
    exact ⟨hother, hs⟩
  · rintro ⟨hname, hbuild⟩
    exact ⟨name, hname, by rw [hbuild]; rfl⟩

private theorem unprotected_of_build {times : List Char → Option Int} {t : Int}
    (h : c.build files times name = some t) :
    c.unprotected files name = true ∧ tryExists files (binaryIn (c.managed name)) = some true := by
  unfold build at h
  split at h
  · next hb => simpa using hb
  · cases h

private theorem map_fst_builds (times : List Char → Option Int) (names : List (List Char)) :
    (c.builds times names files).map Prod.fst =
      names.filter fun name => (c.build files times name).isSome := by
  unfold builds
  induction names with
  | nil => rfl
  | cons name names ih =>
    cases hbuild : c.build files times name with
    | none => simp [hbuild, ih]
    | some t => simp [hbuild, ih]

/-- Without a base name or a builds directory there is no entry to judge. -/
theorem named_eq_false (h : (c.baseName.isNone || !isDirectory files c.buildsDir) = true)
    (name : List Char) : c.named files name = false := by
  rw [Bool.eq_false_iff]
  intro hnamed
  rw [Bool.or_eq_true, Bool.not_eq_true'] at h
  rcases h with hbase | hdir
  · unfold named at hnamed
    rw [Bool.and_eq_true, Option.isNone_iff_eq_none.mp hbase] at hnamed
    obtain ⟨managed, -, heq⟩ := (Option.any_eq_true _ _).mp hnamed.2
    cases heq
  · obtain ⟨d, p, hd, hdd, -⟩ := place_of_named hnamed
    simp [isDirectory, hd, hdd] at hdir

private theorem retained_of_none {times : List Char → Option Int}
    (hnone : ∀ name, c.unprotected files name = false) :
    c.Retained times (fun name => c.unfinished files name = true) files files [] [] := by
  refine ⟨List.nodup_nil, fun name => ?_, by simp, fun o ho => absurd ho List.not_mem_nil, ?_⟩
  · simp [build, hnone name]
  · refine ⟨fun name e q hname => ?_, fun q _ => rfl⟩
    simp [unfinished, hnone name] at hname

/-- The sweep removes the unfinished builds and finds the others. -/
theorem without_sweep {times : List Char → Option Int} {names : List (List Char)}
    (hsound : Sound files) (hapart : c.Apart times names files) (hnodup : names.Nodup)
    (hread : ∀ name, c.unprotected files name = true → name ∈ names) :
    c.Without files (fun name => c.unfinished files name = true)
        (names.foldl (c.visit times (dirsResolvedThrough files c.binary)) ⟨files, []⟩).files ∧
      (names.foldl (c.visit times (dirsResolvedThrough files c.binary)) ⟨files, []⟩).builds =
        c.builds times names files := by
  have hstart : c.Judged times files [] ⟨files, []⟩ := by
    refine ⟨⟨fun name e q hname => absurd hname.1 List.not_mem_nil, fun q _ => rfl⟩, rfl⟩
  have hswept := hstart.foldl hsound hapart names ((List.nil_append names).symm ▸ hnodup)
  rw [List.nil_append] at hswept
  refine ⟨hswept.without.congr fun name => ?_, hswept.found⟩
  exact ⟨fun h => ⟨hread name (unprotected_of_unfinished h), h⟩, fun h => h.2⟩

/-- Where the entries are apart, the cleanup removes the unfinished builds and all but the newest
of the others. -/
theorem retained_of_apart {times : List Char → Option Int} {names : List (List Char)}
    (hsound : Sound files) (hnames : names.Perm (c.entries files))
    (hapart : c.Apart times names files) :
    ∃ old kept, c.Retained times (fun name => c.unfinished files name = true) files
      (c.cleanupOldBuilds times names files) old kept := by
  unfold cleanupOldBuilds
  split
  · next hnone =>
    refine ⟨[], [], retained_of_none fun name => ?_⟩
    simp [unprotected, candidate, named_eq_false hnone name]
  · have hnodup : names.Nodup := hnames.nodup_iff.mpr nodup_entries
    have hread : ∀ name, c.unprotected files name = true → name ∈ names := fun name h =>
      hnames.mem_iff.mpr (mem_entries (named_of_unprotected h))
    obtain ⟨hunfinished, hfound⟩ := without_sweep hsound hapart hnodup hread
    have hbuildsNodup : ((c.builds times names files).map Prod.fst).Nodup := by
      rw [map_fst_builds]
      exact hnodup.filter _
    obtain ⟨kept, hperm, hcount, hnewest⟩ := oldBuilds_newest c.keepBuilds hbuildsNodup
    have hmem : ∀ name t, c.build files times name = some t →
        (name, t) ∈ c.builds times names files := fun name t ht =>
      mem_builds.mpr ⟨hread name (unprotected_of_build ht).1, ht⟩
    refine ⟨oldBuilds c.keepBuilds (c.builds times names files), kept,
      hperm.nodup_iff.mpr hbuildsNodup, fun name => ?_, ?_, ?_, ?_⟩
    · rw [hperm.mem_iff, map_fst_builds, List.mem_filter]
      refine ⟨fun h => h.2, fun h => ⟨?_, h⟩⟩
      obtain ⟨t, ht⟩ := Option.isSome_iff_exists.mp h
      exact hread name (unprotected_of_build ht).1
    · rw [hperm.length_eq, List.length_map]
      exact hcount
    · exact fun o ho k hk s t hs ht => hnewest o ho k hk s t (hmem o s hs) (hmem k t ht)
    · simp only [hfound]
      have hold : ∀ name ∈ oldBuilds c.keepBuilds (c.builds times names files),
          c.unprotected files name = true ∧
            tryExists files (binaryIn (c.managed name)) = some true := by
        intro name hname
        obtain ⟨t, ht⟩ := mem_of_mem_oldBuilds hname
        exact unprotected_of_build (mem_builds.mp ht).2
      refine hunfinished.foldl_removed hsound _ ?_ ?_ ?_ hapart.dir
      · exact fun name hname => named_of_unprotected (hold name hname).1
      · exact (List.nodup_append.mp (hperm.nodup_iff.mpr hbuildsNodup)).1
      · intro name hname h
        simp [unfinished, (hold name hname).2] at h

/-- For every tree, every order of its entries and all timestamps: the loop finds every directory
that resolving the binary path stands at, with all above it; after the cleanup the path leads where
it did, to what was there; and only unprotected directories of managed names are touched. Where no
entry is reached through one that is removed, the cleanup removes exactly those without a binary and
all but the newest of the others whose time can be read. -/
theorem cleanup_retains_builds (c : Config) (times : List Char → Option Int)
    (names : List (List Char)) (files : Files) (hsound : Sound files)
    (hnames : names.Perm (c.entries files)) :
    (∀ p ∈ (resolve files c.binary).passed, ∀ r, r <+: p →
      r ∈ dirsResolvedThrough files c.binary) ∧
    (canonicalize (c.cleanupOldBuilds times names files) c.binary = canonicalize files c.binary ∧
      ∀ p, canonicalize files c.binary = some p → p ≠ [] →
        (c.cleanupOldBuilds times names files).lookup p = files.lookup p) ∧
    c.Touched files (c.cleanupOldBuilds times names files) ∧
    (c.Apart times names files →
      ∃ old kept, c.Retained times (fun name => c.unfinished files name = true) files
        (c.cleanupOldBuilds times names files) old kept) :=
  ⟨fun _ hp _ hr => ancestors_resolvedThrough hp hr,
    (touched_cleanupOldBuilds c times names files).binary,
    touched_cleanupOldBuilds c times names files, retained_of_apart hsound hnames⟩

end Config

/-! ### A served build among others -/

/-- Builds next to the directory of the binary, one of which is kept. -/
def llama : Config where
  binaryPath := [.normal "llama".toList, .normal "bin".toList, .normal "llama-server".toList]
  buildPath := [.normal "llama".toList, .normal "build".toList]
  keepBuilds := 1

/-- A location below the directory of the builds. -/
def inLlama (names : List String) : Location := "llama".toList :: names.map String.toList

/-- A live build, two older ones and an unfinished one. -/
def servedFiles : Files :=
  edit ∅ [(inLlama [], some .dir), (inLlama ["bin"], some .dir),
    (inLlama ["bin", "llama-server"],
      some (.link [.root, .normal "llama".toList, .normal "build-cccc".toList,
        .normal "bin".toList, .normal "llama-server".toList])),
    (inLlama ["build-aaaa"], some .dir), (inLlama ["build-aaaa", "bin"], some .dir),
    (inLlama ["build-aaaa", "bin", "llama-server"], some (.file [1])),
    (inLlama ["build-bbbb"], some .dir), (inLlama ["build-bbbb", "bin"], some .dir),
    (inLlama ["build-bbbb", "bin", "llama-server"], some (.file [2])),
    (inLlama ["build-cccc"], some .dir), (inLlama ["build-cccc", "bin"], some .dir),
    (inLlama ["build-cccc", "bin", "llama-server"], some (.file [3])),
    (inLlama ["build-dddd"], some .dir)]

/-- The first of them is the oldest. -/
def servedTimes (name : List Char) : Option Int :=
  some (if name = "build-aaaa".toList then 1 else 2)

private theorem check_servedFiles :
    ((llama.entries servedFiles).all fun name => (llama.entries servedFiles).all fun other =>
      !llama.unfinished servedFiles other || other == name ||
        !(resolve servedFiles (binaryIn (llama.managed name))).looked.contains
          (inLlama [] ++ [other])) = true := by
  simp only [Config.unfinished, Config.unprotected, dirsResolvedThrough_eq]
  decide

private theorem apart_servedFiles :
    llama.Apart servedTimes (llama.entries servedFiles) servedFiles := by
  have hdir : canonicalize servedFiles llama.buildsDir = some (inLlama []) := by decide
  have hentry : ∀ name, entry servedFiles (llama.managed name) = some (inLlama [] ++ [name]) :=
    fun name => entry_concat hdir (by decide)
  refine ⟨fun name e _ he => ?_, fun name other e hname hother hne he => ?_⟩
  · obtain rfl := Option.some.inj ((hentry name).symm.trans he)
    have hlooked : (resolve servedFiles llama.buildsDir).looked = [inLlama []] := by decide
    rw [hlooked, List.mem_singleton]
    simp
  · obtain rfl := Option.some.inj ((hentry other).symm.trans he)
    have hread : ∀ {name}, llama.unprotected servedFiles name = true →
        name ∈ llama.entries servedFiles := fun h =>
      Config.mem_entries (Config.named_of_unprotected h)
    have hcheck := List.all_eq_true.mp (List.all_eq_true.mp check_servedFiles name (hread hname))
      other (hread (Config.unprotected_of_unfinished hother))
    simpa [hother, hne] using hcheck

/-- The live build and the newer one of the others stay. -/
theorem servedFiles_retained :
    canonicalize (llama.cleanupOldBuilds servedTimes (llama.entries servedFiles) servedFiles)
        llama.binary = some (inLlama ["build-cccc", "bin", "llama-server"]) ∧
      ∃ old kept, llama.Retained servedTimes
        (fun name => llama.unfinished servedFiles name = true) servedFiles
        (llama.cleanupOldBuilds servedTimes (llama.entries servedFiles) servedFiles) old kept := by
  have hsound : Sound servedFiles := sound_of_all (by decide)
  obtain ⟨-, hbinary, -, hretained⟩ := llama.cleanup_retains_builds servedTimes
    (llama.entries servedFiles) servedFiles hsound (List.Perm.refl _)
  exact ⟨hbinary.1.trans (by decide), hretained apart_servedFiles⟩

example : (["build-aaaa", "build-bbbb", "build-cccc", "build-dddd"].map fun name =>
    (llama.cleanupOldBuilds servedTimes (llama.entries servedFiles) servedFiles).lookup
      (inLlama [name])) = [none, some .dir, some .dir, none] := by
  unfold Config.cleanupOldBuilds
  simp only [dirsResolvedThrough_eq]
  decide

/-! ### Entries that are reached through others -/

/-- The unfinished builds whose time can be read. -/
def Config.unfinishedTimed (c : Config) (times : List Char → Option Int) (files : Files)
    (name : List Char) : Prop :=
  c.unfinished files name = true ∧ (times name).isSome = true

/-- A build without a binary, and one whose binary is in it. -/
def crossFiles : Files :=
  edit ∅ [(inLlama [], some .dir), (inLlama ["build-aaaa"], some .dir),
    (inLlama ["build-aaaa", "out"], some .dir),
    (inLlama ["build-aaaa", "out", "llama-server"], some (.file [127])),
    (inLlama ["build-bbbb"], some .dir),
    (inLlama ["build-bbbb", "bin"],
      some (.link [.parent, .normal "build-aaaa".toList, .normal "out".toList]))]

/-- The order in which they are read. -/
def crossNames : List (List Char) := ["build-aaaa".toList, "build-bbbb".toList]

/-- Two builds without binaries. -/
def emptyFiles : Files :=
  edit ∅ [(inLlama [], some .dir), (inLlama ["build-aaaa"], some .dir),
    (inLlama ["build-bbbb"], some .dir)]

/-- The builds directory by a way through one of them. -/
def throughBuild : Config :=
  { llama with
    buildPath := [.normal "llama".toList, .normal "build-aaaa".toList, .parent,
      .normal "build".toList] }

private theorem entries_crossFiles :
    llama.entries crossFiles = ["build-bbbb".toList, "build-aaaa".toList] := by
  decide

private theorem lookup_cross_build :
    (llama.cleanupOldBuilds (fun _ => some 0) crossNames crossFiles).lookup
      (inLlama ["build-bbbb"]) = none := by
  unfold Config.cleanupOldBuilds
  simp only [dirsResolvedThrough_eq]
  decide

private theorem build_crossFiles :
    llama.build crossFiles (fun _ => some 0) "build-aaaa".toList = none ∧
      llama.build crossFiles (fun _ => some 0) "build-bbbb".toList = some 0 ∧
      llama.unfinished crossFiles "build-bbbb".toList = false := by
  simp only [Config.build, Config.unfinished, Config.unprotected, dirsResolvedThrough_eq]
  decide

private theorem cross_not_retained :
    ¬ ∃ old kept, llama.Retained (fun _ => some 0)
      (llama.unfinishedTimed (fun _ => some 0) crossFiles) crossFiles
      (llama.cleanupOldBuilds (fun _ => some 0) crossNames crossFiles) old kept := by
  rintro ⟨old, kept, h⟩
  obtain ⟨haaaa, hbbbb, hfinished⟩ := build_crossFiles
  -- It is the only build.
  have honly : ∀ name ∈ old ++ kept, name = "build-bbbb".toList := by
    intro name hname
    obtain ⟨t, ht⟩ := Option.isSome_iff_exists.mp ((h.builds name).mp hname)
    have hread := Config.mem_entries (Config.named_of_unprotected
      (Config.unprotected_of_build ht).1)
    rw [entries_crossFiles, List.mem_cons, List.mem_singleton] at hread
    rcases hread with rfl | rfl
    · rfl
    · rw [haaaa] at ht
      cases ht
  have hmem : "build-bbbb".toList ∈ old ++ kept := (h.builds _).mpr (by rw [hbbbb]; rfl)
  -- One build is kept, so it is that one.
  have hkept : "build-bbbb".toList ∈ kept := by
    have hcount := h.count
    have hpos : 0 < (old ++ kept).length := List.length_pos_of_mem hmem
    have hkeep : llama.keepBuilds = 1 := rfl
    rw [hkeep] at hcount
    obtain ⟨k, hk⟩ := List.exists_mem_of_length_pos (show 0 < kept.length by omega)
    rw [← honly k (List.mem_append_right old hk)]
    exact hk
  have hold : "build-bbbb".toList ∉ old := fun hold =>
    (List.nodup_append.mp h.nodup).2.2 _ hold _ hkept rfl
  have hsame := h.without.same (inLlama ["build-bbbb"]) ?_
  · rw [lookup_cross_build] at hsame
    exact absurd hsame.symm (by decide)
  intro name e hgone he hprefix
  have hentry : entry crossFiles (llama.managed "build-bbbb".toList) =
      some (inLlama ["build-bbbb"]) := by
    decide
  obtain rfl := name_eq_of_entry he hentry hprefix
  rcases hgone with ⟨hgone, -⟩ | hgone
  · rw [hfinished] at hgone
    cases hgone
  · exact hold hgone

private theorem lookup_empty_build :
    (llama.cleanupOldBuilds (fun _ => none) crossNames emptyFiles).lookup
      (inLlama ["build-aaaa"]) = none ∧
    (throughBuild.cleanupOldBuilds (fun _ => some 0) crossNames emptyFiles).lookup
      (inLlama ["build-bbbb"]) = some .dir ∧
    throughBuild.unfinished emptyFiles "build-bbbb".toList = true ∧
    llama.build emptyFiles (fun _ => none) "build-aaaa".toList = none := by
  unfold Config.cleanupOldBuilds
  simp only [Config.build, Config.unfinished, Config.unprotected, dirsResolvedThrough_eq]
  decide

private theorem untimed_not_retained :
    ¬ ∃ old kept, llama.Retained (fun _ => none)
      (llama.unfinishedTimed (fun _ => none) emptyFiles) emptyFiles
      (llama.cleanupOldBuilds (fun _ => none) crossNames emptyFiles) old kept := by
  rintro ⟨old, kept, h⟩
  obtain ⟨hlookup, -, -, hbuild⟩ := lookup_empty_build
  have hsame := h.without.same (inLlama ["build-aaaa"]) ?_
  · rw [hlookup] at hsame
    exact absurd hsame.symm (by decide)
  intro name e hgone he hprefix
  have hentry : entry emptyFiles (llama.managed "build-aaaa".toList) =
      some (inLlama ["build-aaaa"]) := by
    decide
  obtain rfl := name_eq_of_entry he hentry hprefix
  rcases hgone with hgone | hgone
  · cases hgone.2
  · have hsome := (h.builds _).mp (List.mem_append_left kept hgone)
    rw [hbuild] at hsome
    cases hsome

private theorem through_not_retained :
    ¬ ∃ old kept, throughBuild.Retained (fun _ => some 0)
      (throughBuild.unfinishedTimed (fun _ => some 0) emptyFiles) emptyFiles
      (throughBuild.cleanupOldBuilds (fun _ => some 0) crossNames emptyFiles) old kept := by
  rintro ⟨old, kept, h⟩
  obtain ⟨-, hlookup, hunfinished, -⟩ := lookup_empty_build
  have he : entry emptyFiles (throughBuild.managed "build-bbbb".toList) =
      some (inLlama ["build-bbbb"]) := by
    decide
  have habsent := h.without.absent _ _ (inLlama ["build-bbbb"]) (.inl ⟨hunfinished, rfl⟩) he
    List.prefix_rfl
  rw [hlookup] at habsent
  cases habsent

/-- What is removed is not what the tree before the cleanup tells, when the binary of one build is
in another, when the time of an unfinished build cannot be read, and when the builds directory is
given by a way through one of the builds. -/
theorem cleanup_judges_as_found :
    (Sound crossFiles ∧ crossNames.Perm (llama.entries crossFiles) ∧
      ¬ ∃ old kept, llama.Retained (fun _ => some 0)
        (llama.unfinishedTimed (fun _ => some 0) crossFiles) crossFiles
        (llama.cleanupOldBuilds (fun _ => some 0) crossNames crossFiles) old kept) ∧
    (Sound emptyFiles ∧ crossNames.Perm (llama.entries emptyFiles) ∧
      ¬ ∃ old kept, llama.Retained (fun _ => none)
        (llama.unfinishedTimed (fun _ => none) emptyFiles) emptyFiles
        (llama.cleanupOldBuilds (fun _ => none) crossNames emptyFiles) old kept) ∧
    crossNames.Perm (throughBuild.entries emptyFiles) ∧
      ¬ ∃ old kept, throughBuild.Retained (fun _ => some 0)
        (throughBuild.unfinishedTimed (fun _ => some 0) emptyFiles) emptyFiles
        (throughBuild.cleanupOldBuilds (fun _ => some 0) crossNames emptyFiles) old kept :=
  ⟨⟨sound_of_all (by decide), by decide, cross_not_retained⟩,
    ⟨sound_of_all (by decide), by decide, untimed_not_retained⟩, by decide, through_not_retained⟩

end Llamesh.Builds.Cleanup
