import Llamesh.Builds.Call
import Llamesh.Library.Resolution

/-!
# Builds and the serving binary

When the steps of a call that prepare the build directory keep off the way to the
binary, nothing that the call prepares, removes or builds in is on that way. Until
the link is replaced the binary path leads to the same file, and from then on to
what the new link led to. The directory of the live build is on the way: a call for
the live commit builds there when the check of the binary fails.
-/

namespace Llamesh.Builds.Isolation

open Transition FileSystem

namespace Call

variable (c : Call)

/-- The entry that a step takes away or puts there, while it prepares the build directory or the
new link. -/
def replaced (s : State) : Label → Option Location
  | .removeSome _ | .removeUnfinished => entry s.files c.buildDir
  | .unlinkTemp | .linkTemp | .discardLink =>
    match s.phase with
    | .swapping _ _ (.unlink random) => entry s.files (c.tempLink random)
    | .swapping _ _ (.link random) => entry s.files (c.tempLink random)
    | .swapping _ _ (.discard random) => entry s.files (c.tempLink random)
    | _ => none
  | _ => none

/-- Resolving the binary path comes past neither the entry that the step replaces, nor the build
directory that it makes. -/
def Clear (s : State) (l : Label) : Prop :=
  (∀ e, c.replaced s l = some e → e ∉ lookedUp s.files c.binary) ∧
    (l = .createDir → ∀ t dir, createDirAll s.files c.buildDir = some t →
      canonicalize t c.buildDir = some dir → dir ∉ dirsResolvedThrough t c.binary)

/-! ### What every run keeps -/

/-- The place in the call tells what the binary path passes through. -/
def Placed (s : State) : Prop :=
  match s.phase with
  | .building dir _ => dir ≠ [] ∧ dir ∉ lookedUp s.files c.binary
  | .cleaning _ => s.swapped = true
  | _ => True

/-- What the binary path led through at the start is as it was. -/
def Kept (files₀ files : Files) : Prop :=
  ∀ p ∈ (resolve files₀ c.binary).looked, files.lookup p = files₀.lookup p

/-- Until the link is replaced, a run that writes no stamp keeps what the binary path leads to. -/
structure Intact (files₀ : Files) (s : State) : Prop where
  placed : c.Placed s
  kept : s.stamped = false → s.swapped = false →
    (∃ p, canonicalize files₀ c.binary = some p) → c.Kept files₀ s.files

/-- Once the link is replaced the call cleans up, and protects what the binary path passes through,
or has ended. -/
def Settled (s : State) : Prop :=
  s.swapped = true →
    (∃ kept, s.phase = .cleaning kept ∧ ∀ p ∈ dirsResolvedThrough s.files c.binary, p ∈ kept) ∨
      s.phase = .ended

/-- After the swap in `s₁` nodes are only removed, and none that the binary path leads through. -/
structure Lasting (s₁ s : State) : Prop where
  swapped : s.swapped = true
  settled : c.Settled s
  included : Included s.files s₁.files
  kept : (∃ p, canonicalize s₁.files c.binary = some p) → c.Kept s₁.files s.files

section

variable {c} {files₀ files t : Files} {r : Location}

/-- The code's resolution looks up at least what the kernel does. -/
theorem looked_resolve_subset {path : Path} {p : Location} (h : p ∈ (resolve files path).looked) :
    p ∈ lookedUp files path := by
  have hwalk : p ∈ (walk files false maxLinks [] (path ++ [])).looked :=
    ((Included.refl files).walk (fun hloose : false = true => nomatch hloose) []).2 p h
  rwa [List.append_nil] at hwalk

/-- The binary path resolves as it did. -/
theorem resolve_of_kept (h : c.Kept files₀ files) :
    resolve files c.binary = resolve files₀ c.binary :=
  walk_congr (fun _ hq hne => absurd (List.prefix_nil.mp hq) hne) h

/-- The binary path leads to the same file. -/
theorem Kept.binary (h : c.Kept files₀ files) {p : Location}
    (hp : canonicalize files₀ c.binary = some p) :
    canonicalize files c.binary = some p ∧ (p ≠ [] → files.lookup p = files₀.lookup p) := by
  refine ⟨(canonicalize_congr h).trans hp, fun hne => ?_⟩
  rcases place_of_passed (.inr (canonicalize_eq_some.mp hp)) with hnil | ⟨hlooked, -⟩
  · exact absurd (List.prefix_nil.mp hnil) hne
  · exact h p hlooked

/-- New nodes keep what the binary path led through. -/
theorem Kept.of_included (h : c.Kept files₀ files) (hincl : Included files t)
    (hbinary : ∃ p, canonicalize files₀ c.binary = some p) : c.Kept files₀ t := by
  intro p hp
  obtain ⟨q, hq⟩ := hbinary
  obtain ⟨n, hn⟩ := exists_of_reached (canonicalize_eq_some.mp hq) p hp
  rw [hn]
  exact hincl p n ((h p hp).trans hn)

/-- A change at and below a location that the binary path did not come past keeps what it led
through. -/
theorem Kept.of_outside (h : c.Kept files₀ files) (hr : r ≠ [])
    (hlooked : r ∉ (resolve files₀ c.binary).looked)
    (hsame : ∀ q, ¬ r <+: q → t.lookup q = files.lookup q) : c.Kept files₀ t := by
  intro p hp
  have hout : ¬ r <+: p := by
    intro hrp
    rcases looked_of_prefix hp hrp with hnil | hmem
    · exact hr (List.prefix_nil.mp hnil)
    · exact hlooked hmem
  rw [hsame p hout, h p hp]

/-- A change at and below an entry that a step replaces keeps what the binary path led through. -/
theorem Kept.of_replaced {s : State} {l : Label} (h : c.Kept files₀ s.files)
    (hclear : c.Clear s l) (hl : c.replaced s l = some r) (hr : r ≠ [])
    (hsame : ∀ q, ¬ r <+: q → t.lookup q = s.files.lookup q) : c.Kept files₀ t := by
  refine h.of_outside hr (fun hmem => ?_) hsame
  rw [← resolve_of_kept h] at hmem
  exact hclear.1 r hl (looked_resolve_subset hmem)

/-- A directory that the resolution does not stand at is not looked up either. -/
theorem notMem_lookedUp {path : Path} {dir : Location} (h : canonicalize files path = some dir)
    (hdir : dir ∉ dirsResolvedThrough files c.binary) :
    dir ≠ [] ∧ dir ∉ lookedUp files c.binary := by
  have hroot : dir ≠ [] := by
    rintro rfl
    apply hdir
    simp [dirsResolvedThrough, binary]
  refine ⟨hroot, fun hlooked => ?_⟩
  rcases place_of_passed (.inr (canonicalize_eq_some.mp h)) with hnil | ⟨-, hplace⟩
  · exact hroot (List.prefix_nil.mp hnil)
  · exact hdir (passed_of_place hlooked hplace)

/-- A change at and below a location that is not looked up does not bring it on the way. -/
theorem apart_of_outside (hr : r ≠ []) (hlooked : r ∉ lookedUp files c.binary)
    (hsame : ∀ q, ¬ r <+: q → t.lookup q = files.lookup q) :
    r ∉ lookedUp t c.binary ∧ r ∉ dirsResolvedThrough files c.binary ∧
      r ∉ dirsResolvedThrough t c.binary := by
  have hwalk : walk t false maxLinks [] c.binary = walk files false maxLinks [] c.binary :=
    walk_eq_of_outside hr hlooked hsame
  have hpassed : r ∉ dirsResolvedThrough files c.binary := notMem_passed hr hlooked
  unfold lookedUp dirsResolvedThrough at *
  rw [hwalk]
  exact ⟨hlooked, hpassed, hpassed⟩

/-- Fewer nodes are not resolved through more directories. -/
theorem dirsResolvedThrough_subset {path : Path} {p : Location} (h : Included files t)
    (hp : p ∈ dirsResolvedThrough files path) : p ∈ dirsResolvedThrough t path := by
  have hwalk : p ∈ (walk t false maxLinks [] (path ++ [])).passed := (h.walk id []).1 p hp
  rwa [List.append_nil] at hwalk

/-- A build command changes nothing outside of its directory. -/
theorem lookup_command {dir q : Location}
    {edits : List (Location × Option (Node (List Char) (List UInt8)))}
    (h : ∀ e ∈ edits, dir <+: e.1 ∧ e.1 ≠ dir) (hq : ¬ dir <+: q) :
    (edit files edits).lookup q = files.lookup q := by
  refine lookup_edit fun e he heq => hq ?_
  rw [← heq]
  exact (h e he).1

/-- What a removal takes is at its entry or below. -/
theorem lookup_of_partOf {path : Path} {gone : List Location} (h : partOf files path gone = true) :
    ∃ e, entry files path = some e ∧
      ∀ q, ¬ e <+: q → (removeAll files gone).lookup q = files.lookup q := by
  obtain ⟨e, he, hgone⟩ := (Option.any_eq_true _ _).mp h
  refine ⟨e, he, fun q hq => ?_⟩
  rw [lookup_removeAll]
  split
  · next hmem =>
    exfalso
    apply hq
    split at hgone
    · exact List.isPrefixOf_iff_prefix.mp (List.all_eq_true.mp hgone q hmem)
    · have heq : q = e := by simpa using List.all_eq_true.mp hgone q hmem
      rw [heq]
    · cases hgone
  · rfl

/-- A whole removal takes what is at its entry and below. -/
theorem lookup_of_removeDirAll {path : Path} (h : removeDirAll files path = some t) :
    ∃ e, entry files path = some e ∧ ∀ q, ¬ e <+: q → t.lookup q = files.lookup q := by
  obtain ⟨e, he, h⟩ := Option.bind_eq_some_iff.mp h
  refine ⟨e, he, fun q hq => ?_⟩
  split at h
  · obtain rfl := Option.some.inj h
    rw [lookup_removeTree, if_neg hq]
  · obtain rfl := Option.some.inj h
    refine AList.lookup_erase_ne fun heq => hq ?_
    rw [heq]
  · cases h

/-- The phases that tell nothing about the files. -/
def unplaced : Phase → Bool
  | .building _ _ => false
  | .cleaning _ => false
  | _ => true

private theorem placed_of_unplaced {s : State} (h : unplaced s.phase = true) : c.Placed s := by
  unfold Placed
  unfold unplaced at h
  split at h
  · cases h
  · cases h
  · trivial

private theorem unplaced_activate (target : Path) : unplaced (c.activate files target) = true := by
  unfold activate
  split <;> rfl

private theorem unplaced_selected (selection : Selection) :
    unplaced (c.selected files selection) = true := by
  cases selection with
  | reuse => exact unplaced_activate _
  | build => rfl
  | legacy adopt =>
    cases adopt with
    | true => rfl
    | false => exact unplaced_activate _

private theorem unplaced_failed (phase : Phase) : unplaced phase.failed = true := by
  unfold Phase.failed
  split <;> rfl

end

/-- Every step keeps what the place in the call tells. -/
theorem placed_step {c : Call} {s t : State} {l : Label} (hclear : c.Clear s l)
    (hs : c.Placed s) (h : c.step s l = some t) : c.Placed t := by
  cases step_effect h with
  | select => exact placed_of_unplaced (unplaced_selected _)
  | renameTemp files hphase => exact placed_of_unplaced (unplaced_activate _)
  | createDir removed files dir hphase hfiles hdir =>
    exact notMem_lookedUp hdir (hclear.2 rfl files dir hfiles hdir)
  | command edits dir commands hphase hedits =>
    unfold Placed at hs
    rw [hphase] at hs
    obtain ⟨hroot, hlooked⟩ : dir ≠ [] ∧ dir ∉ lookedUp s.files c.binary := hs
    split
    · trivial
    · exact ⟨hroot, (apart_of_outside hroot hlooked fun q => lookup_command hedits).1⟩
  | renameLink target built random files hphase =>
    cases built with
    | true => rfl
    | false => trivial
  | cleanup name gone kept hphase =>
    unfold Placed at hs ⊢
    rw [hphase] at hs
    simp only [hphase]
    exact hs
  | fail => exact placed_of_unplaced (unplaced_failed _)
  | openTemp | writeTemp | discardTemp | removeSome | removeUnfinished | createSome | verify
  | createParent | unlinkTemp | linkTemp | retryTemp | discardLink | finish => trivial

/-- Every step before the link is replaced keeps what the binary path led through. -/
theorem kept_step {c : Call} {files₀ : Files} {s t : State} {l : Label} (hclear : c.Clear s l)
    (hs : c.Intact files₀ s) (h : c.step s l = some t) (hstamped : t.stamped = false)
    (hswapped : t.swapped = false) (hbinary : ∃ p, canonicalize files₀ c.binary = some p) :
    c.Kept files₀ t.files := by
  have hkept : s.stamped = false → s.swapped = false → c.Kept files₀ s.files :=
    fun hstamped hswapped => hs.kept hstamped hswapped hbinary
  have hplaced := hs.placed
  cases step_effect h with
  | select | verify | retryTemp | finish | fail => exact hkept hstamped hswapped
  | openTemp | writeTemp | renameTemp | discardTemp => cases hstamped
  | removeSome gone hphase hpart =>
    obtain ⟨e, he, hsame⟩ := lookup_of_partOf hpart
    exact (hkept hstamped hswapped).of_replaced hclear he (entry_ne_nil he) hsame
  | removeUnfinished files hphase hfiles =>
    obtain ⟨e, he, hsame⟩ := lookup_of_removeDirAll hfiles
    exact (hkept hstamped hswapped).of_replaced hclear he (entry_ne_nil he) hsame
  | createSome components files hphase hincluded =>
    exact (hkept hstamped hswapped).of_included hincluded hbinary
  | createDir removed files dir hphase hfiles hdir =>
    exact (hkept hstamped hswapped).of_included (included_createDirAll hfiles) hbinary
  | command edits dir commands hphase hedits =>
    unfold Placed at hplaced
    rw [hphase] at hplaced
    obtain ⟨hroot, hlooked⟩ : dir ≠ [] ∧ dir ∉ lookedUp s.files c.binary := hplaced
    refine (hkept hstamped hswapped).of_outside hroot ?_ fun q => lookup_command hedits
    rw [← resolve_of_kept (hkept hstamped hswapped)]
    exact fun hmem => hlooked (looked_resolve_subset hmem)
  | createParent target built files hphase hincluded =>
    exact (hkept hstamped hswapped).of_included hincluded hbinary
  | unlinkTemp target built random hphase =>
    cases he : entry s.files (c.tempLink random) with
    | none => exact hkept hstamped hswapped
    | some e =>
      have hl : c.replaced s .unlinkTemp = some e := by simp [replaced, hphase, he]
      refine (hkept hstamped hswapped).of_replaced hclear hl (entry_ne_nil he) fun q hq => ?_
      exact lookup_removeFile_of_ne fun heq => hq (heq ▸ List.prefix_rfl)
  | linkTemp target built random e hphase he =>
    have hl : c.replaced s .linkTemp = some e := by simp [replaced, hphase, he]
    refine (hkept hstamped hswapped).of_replaced hclear hl (entry_ne_nil he) fun q hq => ?_
    exact AList.lookup_insert_ne fun heq => hq (heq ▸ List.prefix_rfl)
  | renameLink => cases hswapped
  | discardLink target built random e hphase he =>
    have hl : c.replaced s .discardLink = some e := by simp [replaced, hphase, he]
    refine (hkept hstamped hswapped).of_replaced hclear hl (entry_ne_nil he) fun q hq => ?_
    exact lookup_removeFile_of_ne fun heq => hq (heq ▸ List.prefix_rfl)
  | cleanup name gone kept hphase =>
    -- A cleanup follows the swap.
    unfold Placed at hplaced
    rw [hphase] at hplaced
    cases hplaced.symm.trans hswapped

/-- A run of clear steps keeps what the binary path led through until it replaces the link. -/
theorem intact_exec {c : Call} {files₀ : Files} {labels : List Label} {s : State}
    (hclear : Along c.step c.Clear (start files₀) labels)
    (h : exec c.step (start files₀) labels = some s) : c.Intact files₀ s := by
  refine exec_invariant_along (P := c.Intact files₀) (fun s l t hs hl hstep => ?_) ?_ hclear h
  · exact ⟨placed_step hl hs.placed hstep, kept_step hl hs hstep⟩
  · exact ⟨trivial, fun _ _ _ _ _ => rfl⟩

/-- Every step keeps to the order of the swap and the cleanup. -/
theorem settled_step {c : Call} {s t : State} {l : Label} (hs : c.Settled s)
    (h : c.step s l = some t) : c.Settled t := by
  have hearly : s.phase ≠ .ended → (∀ kept, s.phase ≠ .cleaning kept) → s.swapped = false := by
    intro hended hcleaning
    by_contra hswapped
    rcases hs (Bool.not_eq_false _ ▸ hswapped) with ⟨kept, hphase, -⟩ | hphase
    · exact hcleaning kept hphase
    · exact hended hphase
  cases step_effect h with
  | removeSome | createSome | discardTemp | discardLink | finish => exact fun _ => Or.inr rfl
  | renameLink target built random files hphase =>
    cases built with
    | true => exact fun _ => Or.inl ⟨_, rfl, fun p hp => hp⟩
    | false => exact fun _ => Or.inr rfl
  | cleanup name gone kept hphase =>
    intro hswapped
    rcases hs hswapped with ⟨kept', hphase', hkept⟩ | hphase'
    · refine Or.inl ⟨kept', hphase', fun p hp => hkept p ?_⟩
      exact dirsResolvedThrough_subset (included_removeAll gone) hp
    · cases hphase.symm.trans hphase'
  | fail =>
    intro hswapped
    rcases hs hswapped with ⟨kept, hphase, -⟩ | hphase
    · exact Or.inr (by rw [hphase]; rfl)
    · exact Or.inr (by rw [hphase]; rfl)
  | _ =>
    intro hswapped
    have hbefore : s.swapped = false := hearly (by simp [*]) (by simp [*])
    cases hbefore.symm.trans hswapped

/-- The order of the swap and the cleanup holds in every run. -/
theorem settled_exec {c : Call} {files : Files} {labels : List Label} {s : State}
    (h : exec c.step (start files) labels = some s) : c.Settled s :=
  exec_invariant (P := c.Settled) (fun _ _ _ => settled_step) (fun hswapped => by cases hswapped) h

/-- A cleanup removes nothing that the binary path leads through. -/
theorem kept_cleanup {c : Call} {files₀ : Files} {s : State} {kept gone : List Location}
    {name : List Char} {b : Location} (h : c.Kept files₀ s.files)
    (hb : canonicalize files₀ c.binary = some b)
    (hkept : ∀ p ∈ dirsResolvedThrough s.files c.binary, p ∈ kept)
    (hremovable : c.removable s.files kept name = true)
    (hpart : partOf s.files (c.managed name) gone = true) :
    c.Kept files₀ (removeAll s.files gone) := by
  obtain ⟨e, he, hsame⟩ := lookup_of_partOf hpart
  have hbinary : canonicalize s.files c.binary = some b := (canonicalize_congr h).trans hb
  obtain ⟨p, hp, hout⟩ : ∃ p, canonicalize s.files (c.managed name) = some p ∧ p ∉ kept := by
    unfold removable at hremovable
    simp only [Bool.and_eq_true, isDirectory] at hremovable
    obtain ⟨p, hp, -⟩ := (Option.any_eq_true _ _).mp hremovable.1.2
    exact ⟨p, hp, by simpa [hp] using hremovable.2⟩
  have hpassed : p ∉ (resolve s.files c.binary).passed := by
    intro hmem
    refine hout (hkept p ?_)
    have hwalk : p ∈ (walk s.files false maxLinks [] (c.binary ++ [])).passed :=
      ((Included.refl s.files).walk (fun hloose : false = true => by cases hloose) []).1 p hmem
    rwa [List.append_nil] at hwalk
  have hlooked := entry_notMem_looked hp he hbinary hpassed
  rw [resolve_of_kept h] at hlooked
  exact h.of_outside (entry_ne_nil he) hlooked hsame

/-- What follows the swap keeps what the binary path leads through. -/
theorem lasting_step {c : Call} {s₁ s t : State} {l : Label} (hs : c.Lasting s₁ s)
    (h : c.step s l = some t) : c.Lasting s₁ t := by
  have hsettled := settled_step hs.settled h
  have hsame : t.files = s.files → t.swapped = s.swapped → c.Lasting s₁ t := by
    intro hfiles hswapped
    exact ⟨hswapped.trans hs.swapped, hsettled, hfiles ▸ hs.included, hfiles ▸ hs.kept⟩
  have hlate := hs.settled hs.swapped
  cases step_effect h with
  | finish | fail => exact hsame rfl rfl
  | cleanup name gone kept hphase hremovable hpart =>
    rcases hlate with ⟨kept', hphase', hkept⟩ | hphase'
    · obtain rfl : kept = kept' := by simpa [hphase] using hphase'
      refine ⟨hs.swapped, hsettled, (included_removeAll gone).trans hs.included, fun hb => ?_⟩
      obtain ⟨b, hbinary⟩ := hb
      exact kept_cleanup (hs.kept ⟨b, hbinary⟩) hbinary hkept hremovable hpart
    · cases hphase.symm.trans hphase'
  | createSome components files hphase =>
    rcases hphase with ⟨removed, hphase⟩ | ⟨target, built, hphase⟩ <;> simp [hphase] at hlate
  | _ => simp [*] at hlate

/-- What follows the swap keeps what the binary path leads through in every run. -/
theorem lasting_exec {c : Call} {s₁ s t : State} {labels : List Label} (hs : c.Lasting s₁ s)
    (h : exec c.step s labels = some t) : c.Lasting s₁ t :=
  exec_invariant (P := c.Lasting s₁) (fun _ _ _ => lasting_step) hs h

/-- The phases of a run that builds. -/
def builds : Phase → Bool
  | .preparing _ => true
  | .building _ _ => true
  | .verifying => true
  | .swapping _ built _ => built
  | .cleaning _ => true
  | _ => false

/-- A run writes a stamp only while it is stamping, and a run that builds goes on to build until it
ends. -/
theorem builds_step {c : Call} {s t : State} {l : Label} (h : c.step s l = some t) :
    (t.stamped = s.stamped ∨ ∃ stage, s.phase = .stamping stage) ∧
      (builds s.phase = true ∨ s.phase = .ended → builds t.phase = true ∨ t.phase = .ended) := by
  cases step_effect h with
  | createSome => simp [builds]
  | renameTemp files hphase => exact ⟨.inr ⟨_, hphase⟩, by simp [hphase, builds]⟩
  | command edits dir commands hphase hedits =>
    by_cases hlast : commands = 0 <;> simp [hphase, builds, hlast]
  | renameLink target built random files hphase => cases built <;> simp [hphase, builds]
  | fail =>
    refine ⟨.inl rfl, ?_⟩
    unfold Phase.failed
    cases s.phase with
    | stamping stage => cases stage <;> simp [builds]
    | swapping target built stage => cases stage <;> simp [builds]
    | _ => simp [builds]
  | _ => simp [*, builds]

/-- A run that has selected no reusable build writes no stamp. -/
theorem unstamped_of_build {c : Call} {files : Files} {verified legacyVerified : Bool}
    {rest : List Label} {s : State}
    (hbuild : selectBuildDir c.inputsId (c.observe files verified legacyVerified) = .build)
    (h : exec c.step (start files) (.select verified legacyVerified :: rest) = some s) :
    s.stamped = false := by
  obtain ⟨m, hm, hrest⟩ := exec_cons_eq_some.mp h
  obtain rfl := Option.some.inj hm
  refine (exec_invariant
    (P := fun s : State => (builds s.phase = true ∨ s.phase = .ended) ∧ s.stamped = false)
    (fun s l t hs hstep => ?_) ⟨.inl ?_, rfl⟩ hrest).2
  · obtain ⟨hsame | ⟨stage, hstage⟩, hto⟩ := builds_step hstep
    · exact ⟨hto hs.1, hsame.trans hs.2⟩
    · have hphase := hs.1
      simp [hstage, builds] at hphase
  · simp only [start, hbuild]
    rfl

/-- No clear step touches a directory that the binary path comes past. -/
theorem notMem_of_touched {c : Call} {s t : State} {l : Label} {p : Location}
    (hclear : c.Clear s l) (hplaced : c.Placed s) (hsettled : c.Settled s)
    (h : c.step s l = some t) (hp : c.touched s l t = some p) :
    p ∉ dirsResolvedThrough s.files c.binary ∧ p ∉ dirsResolvedThrough t.files c.binary := by
  have hentry : c.replaced s l = entry s.files c.buildDir →
      entry s.files c.buildDir = some p → (∃ e, entry s.files c.buildDir = some e ∧
        ∀ q, ¬ e <+: q → t.files.lookup q = s.files.lookup q) →
      p ∉ dirsResolvedThrough s.files c.binary ∧ p ∉ dirsResolvedThrough t.files c.binary := by
    rintro hl hp ⟨e, he, hsame⟩
    obtain rfl := Option.some.inj (he.symm.trans hp)
    exact (apart_of_outside (entry_ne_nil he) (hclear.1 e (hl.trans he)) hsame).2
  cases step_effect h with
  | removeSome gone hphase hpart =>
    simp only [touched, hphase] at hp
    exact hentry rfl hp (lookup_of_partOf hpart)
  | removeUnfinished files hphase hfiles =>
    simp only [touched, hphase] at hp
    exact hentry rfl hp (lookup_of_removeDirAll hfiles)
  | createDir removed files dir hphase hfiles hdir =>
    simp only [touched, hphase] at hp
    have hout := hclear.2 rfl files p hfiles hp
    refine ⟨fun hmem => hout ?_, hout⟩
    exact dirsResolvedThrough_subset (included_createDirAll hfiles) hmem
  | command edits dir commands hphase hedits =>
    simp only [touched, hphase] at hp
    obtain rfl := Option.some.inj hp
    unfold Placed at hplaced
    rw [hphase] at hplaced
    exact (apart_of_outside hplaced.1 hplaced.2 fun q => lookup_command hedits).2
  | cleanup name gone kept hphase hremovable =>
    simp only [touched, hphase] at hp
    unfold Placed at hplaced
    rw [hphase] at hplaced
    have hkept : ∀ p ∈ dirsResolvedThrough s.files c.binary, p ∈ kept := by
      rcases hsettled hplaced with ⟨kept', hphase', hkept⟩ | hphase'
      · obtain rfl : kept = kept' := by simpa [hphase] using hphase'
        exact hkept
      · cases hphase.symm.trans hphase'
    have hout : p ∉ kept := by
      simp only [removable, hp, Bool.and_eq_true, Option.all_some] at hremovable
      simpa using hremovable.2
    refine ⟨fun hmem => hout (hkept p hmem), fun hmem => hout (hkept p ?_)⟩
    exact dirsResolvedThrough_subset (included_removeAll gone) hmem
  | _ => simp [touched] at hp

end Call

/-! ### A live build -/

/-- The directory of a live build. -/
def liveDir : Location := ["llama".toList, "build-abc1234_b0803e97".toList]

/-- Its binary. -/
def liveBinary : Location := liveDir ++ ["bin".toList, "llama-server".toList]

/-- The files of a live build, with the link at the binary path. -/
def liveFiles : Files :=
  edit ∅ [(["llama".toList], some .dir), (["llama".toList, "bin".toList], some .dir),
    (["llama".toList, "bin".toList, "llama-server".toList],
      some (.link (.root :: liveBinary.map .normal))),
    (liveDir, some .dir), (liveDir ++ ["bin".toList], some .dir),
    (liveBinary, some (.file [127, 69, 76, 70]))]

/-- A call with another commit checked out. -/
def nextCall : Call where
  binaryPath := [.normal "llama".toList, .normal "bin".toList, .normal "llama-server".toList]
  buildsDir := [.normal "llama".toList]
  absolute := true
  base := "build".toList
  pid := 77
  commit := ⟨"def5678".toList, rfl⟩
  inputsId := "b0803e97".toList
  preparedBefore := false

/-- A call for the commit of the live build. -/
def liveCall : Call := { nextCall with commit := ⟨"abc1234".toList, rfl⟩ }

/-- The directory of the build of another commit. -/
def nextDir : Location := ["llama".toList, "build-def5678_b0803e97".toList]

private theorem clear_createDir_nextCall :
    nextCall.Clear ⟨liveFiles, .preparing false, false, false⟩ .createDir := by
  refine ⟨fun e he => (by cases he), fun _ t dir ht hdir => ?_⟩
  obtain rfl : liveFiles.insert nextDir .dir = t := Option.some.inj ht
  obtain rfl : nextDir = dir := Option.some.inj hdir
  decide

end Llamesh.Builds.Isolation
