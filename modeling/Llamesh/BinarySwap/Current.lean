import Llamesh.BinarySwap.Model

/-!
# A parked watcher leaves only current binaries serving

An instance that no forced drain covers either runs the current binary, or a
swap is about to bump the generation, or the watcher still has to drain it. A
spawn that inserts without draining saw the same generation at its sample and
its insertion, so its binary is the one a swap in between would have announced.
-/

namespace Llamesh.BinarySwap

open Transition

universe u

variable {B : Type u}

/-- The generation the watcher has handled once its current round is over. -/
def WatcherPc.handled : WatcherPc → Nat
  | .notStarted => 0
  | .looping lastGen | .parked lastGen | .woken lastGen => lastGen
  | .compared _ currentGen | .draining _ currentGen _ | .drained _ currentGen => currentGen

/-- A wake is under way: from the swap task, in the stored permit, or in the woken watcher. -/
def WakePending (s : State B) : Prop :=
  s.swap = .bumped ∨ s.permit = true ∨ ∃ lastGen, s.watcher = .woken lastGen

/-- The watcher still has to drain the instance `id`: a wake for an unhandled generation is under
way, or the pass for the current generation is ahead of `id`. -/
def PendingDrain (s : State B) (id : Nat) : Prop :=
  (s.watcher.handled < s.generation ∧ WakePending s) ∨
  (∃ lastGen, s.watcher = .compared lastGen s.generation ∧ lastGen < s.generation) ∨
  ∃ lastGen remaining, s.watcher = .draining lastGen s.generation remaining ∧ id ∈ remaining

/-- A binary that the configured path resolves to, or did before the rename of the swap in
progress. -/
def Fresh (s : State B) (binary : B) : Prop := s.target = some binary ∨ s.swap = .renamed

/-- What holds of a spawn: with an unmoved generation, the binary is fresh. -/
def SpawnPc.Ok (s : State B) : SpawnPc B → Prop
  | .starting _ => True
  | .sampled _ gen => gen ≤ s.generation
  | .resolved _ gen path =>
    gen ≤ s.generation ∧ ∀ binary, path = some binary → gen = s.generation → Fresh s binary
  | .running gen binary => gen ≤ s.generation ∧ (gen = s.generation → Fresh s binary)

/-- The generations the watcher holds are ordered and not ahead of the counter. -/
def WatcherPc.Ok (generation : Nat) : WatcherPc → Prop
  | .notStarted => True
  | .looping lastGen | .parked lastGen | .woken lastGen => lastGen ≤ generation
  | .compared lastGen currentGen | .draining lastGen currentGen _ | .drained lastGen currentGen =>
    lastGen ≤ currentGen ∧ currentGen ≤ generation

/-- The invariant of swaps, watcher and spawns. -/
structure Inv (s : State B) : Prop where
  watcher : s.watcher.Ok s.generation
  unstarted : s.watcher = .notStarted → s.spawns = ∅ ∧ s.instances = ∅
  spawns : ∀ id pc, s.spawns.lookup id = some pc → pc.Ok s
  instances : ∀ id inst, s.instances.lookup id = some inst → inst.flags.forced = false →
    Fresh s inst.binary ∨ PendingDrain s id

private theorem inv_init (target : Option B) : Inv (State.init target) where
  watcher := trivial
  unstarted _ := ⟨rfl, rfl⟩
  spawns id pc h := by simp [State.init] at h
  instances id inst h := by simp [State.init] at h

private theorem handled_le {s : State B} (h : Inv s) : s.watcher.handled ≤ s.generation := by
  have hw := h.watcher
  cases hpc : s.watcher <;> simp only [hpc, WatcherPc.Ok, WatcherPc.handled] at hw ⊢ <;> omega

private theorem SpawnPc.Ok.mono {s t : State B} {pc : SpawnPc B} (h : pc.Ok s)
    (hgen : t.generation = s.generation)
    (hfresh : ∀ binary, Fresh s binary → Fresh t binary) : pc.Ok t := by
  cases pc with
  | starting _ => trivial
  | sampled _ _ => exact Nat.le_trans h (Nat.le_of_eq hgen.symm)
  | resolved _ _ _ =>
    exact ⟨Nat.le_trans h.1 (Nat.le_of_eq hgen.symm),
      fun b hb he => hfresh b (h.2 b hb (he.trans hgen))⟩
  | running _ b =>
    exact ⟨Nat.le_trans h.1 (Nat.le_of_eq hgen.symm), fun he => hfresh b (h.2 (he.trans hgen))⟩

private theorem Fresh.target {s : State B} {binary : B} (h : Fresh s binary)
    (hs : s.swap ≠ .renamed) : s.target = some binary := by
  rcases h with ht | hr
  · exact ht
  · exact absurd hr hs

/-! ### The swap task -/

private theorem inv_rename {s : State B} (h : Inv s) (binary : B) :
    Inv { s with target := some binary, swap := .renamed } := by
  constructor
  · exact h.watcher
  · exact h.unstarted
  · intro id pc hpc
    exact (h.spawns id pc hpc).mono rfl fun _ _ => .inr rfl
  · intro id inst _ _
    exact .inl (.inr rfl)

private theorem inv_bump {s : State B} (h : Inv s) :
    Inv { s with generation := s.generation + 1, swap := .bumped } := by
  have hle := handled_le h
  constructor
  · have hw := h.watcher
    show s.watcher.Ok (s.generation + 1)
    cases hpc : s.watcher <;> simp only [hpc, WatcherPc.Ok] at hw ⊢ <;> omega
  · exact h.unstarted
  · intro id pc hpc
    have hok := h.spawns id pc hpc
    -- Every sample is now behind the counter.
    cases pc with
    | starting _ => trivial
    | sampled _ _ => exact Nat.le_succ_of_le hok
    | resolved _ gen _ =>
      refine ⟨Nat.le_succ_of_le hok.1, fun _ _ he => ?_⟩
      have hg : gen ≤ s.generation := hok.1
      simp only at he
      omega
    | running gen _ =>
      refine ⟨Nat.le_succ_of_le hok.1, fun he => ?_⟩
      have hg : gen ≤ s.generation := hok.1
      simp only at he
      omega
  · intro id inst _ _
    refine .inr (.inl ⟨?_, .inl rfl⟩)
    show s.watcher.handled < s.generation + 1
    omega

private theorem notifyOne_cases (s : State B) :
    (∃ lastGen, s.watcher = .parked lastGen ∧ notifyOne s = { s with watcher := .woken lastGen }) ∨
    notifyOne s = { s with permit := true } := by
  unfold notifyOne
  split
  · next lastGen hp => exact .inl ⟨lastGen, hp, rfl⟩
  · exact .inr rfl

private theorem inv_wake {s : State B} (h : Inv s) (hs : s.swap = .bumped) {lastGen : Nat}
    (hp : s.watcher = .parked lastGen) :
    Inv { s with watcher := .woken lastGen, swap := .idle } := by
  have hs' : s.swap ≠ .renamed := by simp [hs]
  constructor
  · have hw := h.watcher
    rw [hp] at hw
    exact hw
  · intro hn
    cases hn
  · intro id pc hpc
    exact (h.spawns id pc hpc).mono rfl fun b hb => .inl (hb.target hs')
  · intro id inst hi hf
    rcases h.instances id inst hi hf with hfr | ⟨hlt, -⟩ | ⟨_, hc, -⟩ | ⟨_, _, hd, -⟩
    · exact .inl (.inl (hfr.target hs'))
    · rw [hp] at hlt
      exact .inr (.inl ⟨hlt, .inr (.inr ⟨lastGen, rfl⟩)⟩)
    · rw [hp] at hc
      cases hc
    · rw [hp] at hd
      cases hd

private theorem inv_storePermit {s : State B} (h : Inv s) (hs : s.swap = .bumped) :
    Inv { s with permit := true, swap := .idle } := by
  have hs' : s.swap ≠ .renamed := by simp [hs]
  constructor
  · exact h.watcher
  · exact h.unstarted
  · intro id pc hpc
    exact (h.spawns id pc hpc).mono rfl fun b hb => .inl (hb.target hs')
  · intro id inst hi hf
    rcases h.instances id inst hi hf with hfr | ⟨hlt, -⟩ | hc | hd
    · exact .inl (.inl (hfr.target hs'))
    · exact .inr (.inl ⟨hlt, .inr (.inl rfl)⟩)
    · exact .inr (.inr (.inl hc))
    · exact .inr (.inr (.inr hd))

private theorem inv_notifyOne {s : State B} (h : Inv s) (hs : s.swap = .bumped) :
    Inv { notifyOne s with swap := .idle } := by
  rcases notifyOne_cases s with ⟨lastGen, hp, he⟩ | he
  · rw [he]
    exact inv_wake h hs hp
  · rw [he]
    exact inv_storePermit (s := s) h hs

private theorem inv_swapStep {s t : State B} {l : Label B} (h : Inv s)
    (hstep : swapStep s l = some t) : Inv t := by
  cases l <;> simp only [swapStep, guarded_eq_some, reduceCtorEq] at hstep
  case rename binary =>
    obtain ⟨-, rfl⟩ := hstep
    exact inv_rename h binary
  case bump =>
    obtain ⟨-, rfl⟩ := hstep
    exact inv_bump h
  case notifyOne =>
    obtain ⟨hs, rfl⟩ := hstep
    exact inv_notifyOne h hs

/-! ### The watcher task -/

private theorem inv_watcher {s : State B} (h : Inv s) {permit : Bool} {watcher : WatcherPc}
    (hok : watcher.Ok s.generation) (hn : watcher ≠ .notStarted)
    (hp : ∀ id, PendingDrain s id → id ∈ s.instances → PendingDrain { s with permit, watcher } id) :
    Inv { s with permit, watcher } := by
  constructor
  · exact hok
  · intro hw
    exact absurd hw hn
  · intro id pc hpc
    exact (h.spawns id pc hpc).mono rfl fun _ hf => hf
  · intro id inst hi hf
    rcases h.instances id inst hi hf with hfr | hd
    · exact .inl hfr
    · exact .inr (hp id hd (AList.lookup_isSome.mp (by simp [hi])))

private theorem inv_awaitSwap {s : State B} (h : Inv s) {lastGen : Nat}
    (hw : s.watcher = .looping lastGen) : Inv (awaitSwap s lastGen) := by
  have hok := h.watcher
  rw [hw] at hok
  have hpending : ∀ id, PendingDrain s id → lastGen < s.generation ∧ WakePending s := by
    intro id hp
    rcases hp with ⟨hlt, hwake⟩ | ⟨_, hc, -⟩ | ⟨_, _, hd, -⟩
    · rw [hw] at hlt
      exact ⟨hlt, hwake⟩
    · rw [hw] at hc
      cases hc
    · rw [hw] at hd
      cases hd
  unfold awaitSwap
  split
  · refine inv_watcher h (show _ from hok) (by simp) ?_
    intro id hp _
    exact .inl ⟨(hpending id hp).1, .inr (.inr ⟨lastGen, rfl⟩)⟩
  · next hpermit =>
    refine inv_watcher h (show _ from hok) (by simp) ?_
    intro id hp _
    refine .inl ⟨(hpending id hp).1, ?_⟩
    rcases (hpending id hp).2 with hb | hpt | ⟨_, hwoken⟩
    · exact .inl hb
    · exact absurd hpt hpermit
    · rw [hw] at hwoken
      cases hwoken

private theorem inv_readGeneration {s : State B} (h : Inv s) {lastGen : Nat}
    (hw : s.watcher = .woken lastGen) :
    Inv { s with watcher := .compared lastGen s.generation } := by
  have hok := h.watcher
  rw [hw] at hok
  refine inv_watcher h ⟨hok, Nat.le_refl _⟩ (by simp) ?_
  intro id hp _
  rcases hp with ⟨hlt, -⟩ | ⟨_, hc, -⟩ | ⟨_, _, hd, -⟩
  · rw [hw] at hlt
    exact .inr (.inl ⟨lastGen, rfl, hlt⟩)
  · rw [hw] at hc
    cases hc
  · rw [hw] at hd
    cases hd

private theorem WakePending.keep {s t : State B} (h : WakePending s)
    (hw : ∀ lastGen, s.watcher ≠ .woken lastGen) (hs : t.swap = s.swap)
    (hp : t.permit = s.permit) : WakePending t := by
  rcases h with hb | hpt | ⟨_, hwoken⟩
  · exact .inl (hs.trans hb)
  · exact .inr (.inl (hp.trans hpt))
  · exact absurd hwoken (hw _)

private theorem inv_beginPass {s : State B} (h : Inv s) {lastGen currentGen : Nat}
    (hw : s.watcher = .compared lastGen currentGen) (hgt : lastGen < currentGen) :
    Inv { s with watcher := .draining lastGen currentGen s.instances.keys } := by
  have hok := h.watcher
  rw [hw] at hok
  refine inv_watcher h (show _ from hok) (by simp) ?_
  intro id hp hm
  rcases hp with ⟨hlt, hwake⟩ | ⟨last, hc, -⟩ | ⟨_, _, hd, -⟩
  · rw [hw] at hlt
    exact .inl ⟨hlt, hwake.keep (by simp [hw]) rfl rfl⟩
  · -- The pass is for the current generation and covers the whole map.
    rw [hw] at hc
    obtain ⟨rfl, rfl⟩ := WatcherPc.compared.inj hc
    exact .inr (.inr ⟨lastGen, _, rfl, hm⟩)
  · rw [hw] at hd
    cases hd

private theorem inv_skipPass {s : State B} (h : Inv s) {lastGen currentGen : Nat}
    (hw : s.watcher = .compared lastGen currentGen) (hle : currentGen ≤ lastGen) :
    Inv { s with watcher := .looping lastGen } := by
  have hok := h.watcher
  rw [hw] at hok
  refine inv_watcher h (Nat.le_trans hok.1 hok.2) (by simp) ?_
  intro id hp _
  rcases hp with ⟨hlt, hwake⟩ | ⟨last, hc, hlt⟩ | ⟨_, _, hd, -⟩
  · rw [hw] at hlt
    simp only [WatcherPc.handled] at hlt
    have hlast : lastGen = currentGen := Nat.le_antisymm hok.1 hle
    exact .inl ⟨by simpa [WatcherPc.handled, hlast] using hlt,
      hwake.keep (by simp [hw]) rfl rfl⟩
  · rw [hw] at hc
    obtain ⟨rfl, rfl⟩ := WatcherPc.compared.inj hc
    omega
  · rw [hw] at hd
    cases hd

private theorem inv_drainOne {s : State B} (h : Inv s) {lastGen currentGen id : Nat}
    {remaining : List Nat} (hw : s.watcher = .draining lastGen currentGen remaining) :
    Inv { s with
      watcher := .draining lastGen currentGen (remaining.erase id)
      instances := s.instances.modify id fun inst =>
        { inst with flags := inst.flags.drainForBinaryUpdate } } := by
  have hok := h.watcher
  rw [hw] at hok
  constructor
  · exact hok
  · intro hn
    cases hn
  · intro k pc hpc
    exact (h.spawns k pc hpc).mono rfl fun _ hf => hf
  · intro k inst hi hf
    rw [Table.lookup_modify] at hi
    by_cases hk : k = id
    · -- The drained instance is forced.
      rw [if_pos hk] at hi
      cases hl : s.instances.lookup k with
      | none => simp [hl] at hi
      | some old =>
        simp only [hl, Option.map_some, Option.some.injEq] at hi
        subst hi
        simp at hf
    · rw [if_neg hk] at hi
      rcases h.instances k inst hi hf with hfr | ⟨hlt, hwake⟩ | ⟨_, hc, -⟩ | ⟨last, rem, hd, hm⟩
      · exact .inl hfr
      · rw [hw] at hlt
        exact .inr (.inl ⟨hlt, hwake.keep (by simp [hw]) rfl rfl⟩)
      · rw [hw] at hc
        cases hc
      · rw [hw] at hd
        obtain ⟨rfl, rfl, rfl⟩ := WatcherPc.draining.inj hd
        exact .inr (.inr (.inr ⟨lastGen, _, rfl, (List.mem_erase_of_ne hk).mpr hm⟩))

private theorem inv_endPass {s : State B} (h : Inv s) {lastGen currentGen : Nat}
    (hw : s.watcher = .draining lastGen currentGen []) :
    Inv { s with watcher := .drained lastGen currentGen } := by
  have hok := h.watcher
  rw [hw] at hok
  refine inv_watcher h (show _ from hok) (by simp) ?_
  intro id hp _
  rcases hp with ⟨hlt, hwake⟩ | ⟨_, hc, -⟩ | ⟨_, _, hd, hm⟩
  · rw [hw] at hlt
    exact .inl ⟨hlt, hwake.keep (by simp [hw]) rfl rfl⟩
  · rw [hw] at hc
    cases hc
  · rw [hw] at hd
    obtain ⟨-, -, rfl⟩ := WatcherPc.draining.inj hd
    simp at hm

private theorem inv_rememberGeneration {s : State B} (h : Inv s) {lastGen currentGen : Nat}
    (hw : s.watcher = .drained lastGen currentGen) :
    Inv { s with watcher := .looping currentGen } := by
  have hok := h.watcher
  rw [hw] at hok
  refine inv_watcher h (show _ from hok.2) (by simp) ?_
  intro id hp _
  rcases hp with ⟨hlt, hwake⟩ | ⟨_, hc, -⟩ | ⟨_, _, hd, -⟩
  · rw [hw] at hlt
    exact .inl ⟨hlt, hwake.keep (by simp [hw]) rfl rfl⟩
  · rw [hw] at hc
    cases hc
  · rw [hw] at hd
    cases hd

private theorem inv_startWatcher {s : State B} (h : Inv s) (hw : s.watcher = .notStarted) :
    Inv { s with watcher := .looping s.generation } := by
  refine inv_watcher h (show _ from Nat.le_refl s.generation) (by simp) ?_
  intro id _ hm
  rw [(h.unstarted hw).2] at hm
  exact absurd hm (AList.notMem_empty id)

private theorem inv_watcherStep {s t : State B} {l : Label B} (h : Inv s)
    (hstep : watcherStep s l = some t) : Inv t := by
  cases l <;> simp only [watcherStep, guarded_eq_some, reduceCtorEq] at hstep
  case startWatcher =>
    obtain ⟨hw, rfl⟩ := hstep
    exact inv_startWatcher h hw
  case awaitSwap =>
    split at hstep
    · next lastGen hw =>
      obtain rfl := Option.some.inj hstep
      exact inv_awaitSwap h hw
    · cases hstep
  case readGeneration =>
    split at hstep
    · next lastGen hw =>
      obtain rfl := Option.some.inj hstep
      exact inv_readGeneration h hw
    · cases hstep
  case beginPass =>
    split at hstep
    · next lastGen currentGen hw =>
      split at hstep
      · next hgt =>
        obtain rfl := Option.some.inj hstep
        exact inv_beginPass h hw hgt
      · next hle =>
        obtain rfl := Option.some.inj hstep
        exact inv_skipPass h hw (Nat.le_of_not_lt hle)
    · cases hstep
  case drainOne id =>
    split at hstep
    · next lastGen currentGen remaining hw =>
      rw [guarded_eq_some] at hstep
      obtain ⟨-, rfl⟩ := hstep
      exact inv_drainOne h hw
    · cases hstep
  case endPass =>
    split at hstep
    · next lastGen currentGen hw =>
      obtain rfl := Option.some.inj hstep
      exact inv_endPass h hw
    · cases hstep
  case rememberGeneration =>
    split at hstep
    · next lastGen currentGen hw =>
      obtain rfl := Option.some.inj hstep
      exact inv_rememberGeneration h hw
    · cases hstep

/-! ### Spawns -/

private theorem inv_setSpawn {s : State B} (h : Inv s) (hn : s.watcher ≠ .notStarted) {id : Nat}
    {pc : SpawnPc B} (hpc : pc.Ok s) : Inv { s with spawns := s.spawns.insert id pc } := by
  constructor
  · exact h.watcher
  · intro hw
    exact absurd hw hn
  · intro k q hq
    rcases Table.lookup_insert_eq_some.mp hq with ⟨-, rfl⟩ | ⟨-, hold⟩
    · exact hpc
    · exact h.spawns k q hold
  · exact h.instances

private theorem inv_eraseSpawn {s : State B} (h : Inv s) (id : Nat) :
    Inv { s with spawns := s.spawns.erase id } := by
  constructor
  · exact h.watcher
  · intro hw
    refine ⟨?_, (h.unstarted hw).2⟩
    show s.spawns.erase id = ∅
    rw [(h.unstarted hw).1]
    rfl
  · intro k q hq
    exact h.spawns k q (Table.lookup_erase_eq_some.mp hq).2
  · exact h.instances

private theorem started_of_spawn {s : State B} (h : Inv s) {id : Nat} {pc : SpawnPc B}
    (hpc : s.spawns.lookup id = some pc) : s.watcher ≠ .notStarted := by
  intro hw
  rw [(h.unstarted hw).1] at hpc
  simp at hpc

private theorem inv_insertInstance {s : State B} (h : Inv s) {id gen : Nat} {binary : B}
    (hpc : s.spawns.lookup id = some (.running gen binary)) (cookbookReplaced : Bool) :
    Inv { s with
      spawns := s.spawns.erase id
      instances := s.instances.insert id (spawnedInstance s gen binary cookbookReplaced) } := by
  have hn := started_of_spawn h hpc
  have hok := h.spawns id _ hpc
  constructor
  · exact h.watcher
  · intro hw
    exact absurd hw hn
  · intro k q hq
    exact h.spawns k q (Table.lookup_erase_eq_some.mp hq).2
  · intro k inst hi hf
    rcases Table.lookup_insert_eq_some.mp hi with ⟨-, rfl⟩ | ⟨-, hold⟩
    · -- An instance inserted without draining saw one generation throughout.
      left
      have hgen : gen = s.generation := by
        by_contra hne
        simp [spawnedInstance, DrainFlags.forced, Ne.symm hne] at hf
      exact hok.2 hgen
    · exact h.instances k inst hold hf

private theorem inv_spawnStep [DecidableEq B] {s t : State B} {l : Label B} (h : Inv s)
    (hstep : spawnStep s l = some t) : Inv t := by
  cases l <;> simp only [spawnStep, guarded_eq_some, reduceCtorEq] at hstep
  case beginSpawn id =>
    obtain ⟨⟨hn, -, -⟩, rfl⟩ := hstep
    exact inv_setSpawn h hn trivial
  case sampleGeneration id =>
    split at hstep
    · next attempt hpc =>
      obtain rfl := Option.some.inj hstep
      exact inv_setSpawn h (started_of_spawn h hpc) (Nat.le_refl s.generation)
    · cases hstep
  case resolveBinary id canonical =>
    split at hstep
    · next attempt gen hpc =>
      obtain rfl := Option.some.inj hstep
      refine inv_setSpawn h (started_of_spawn h hpc) ⟨h.spawns id _ hpc, fun b hb _ => ?_⟩
      left
      cases canonical with
      | true => exact hb
      | false => cases hb
    · cases hstep
  case execBinary id =>
    split at hstep
    · next attempt gen path hpc =>
      have hok := h.spawns id _ hpc
      split at hstep
      · next b hb =>
        obtain rfl := Option.some.inj hstep
        refine inv_setSpawn h (started_of_spawn h hpc) ⟨hok.1, fun he => ?_⟩
        cases path with
        | some p => exact hok.2 b hb he
        | none => exact .inl hb
      · cases hstep
    · cases hstep
  case execFailed id portOverridden =>
    split at hstep
    · next attempt gen path hpc =>
      split at hstep
      · obtain rfl := Option.some.inj hstep
        exact inv_eraseSpawn h id
      · obtain rfl := Option.some.inj hstep
        exact inv_setSpawn h (started_of_spawn h hpc) trivial
    · cases hstep
  case abandonSpawn id =>
    obtain ⟨-, rfl⟩ := hstep
    exact inv_eraseSpawn h id
  case insertInstance id cookbookReplaced =>
    split at hstep
    · next gen b hpc =>
      rw [guarded_eq_some] at hstep
      obtain ⟨-, rfl⟩ := hstep
      exact inv_insertInstance h hpc cookbookReplaced
    · cases hstep

/-! ### Other tasks -/

private theorem inv_modifyFlags {s : State B} (h : Inv s) (id : Nat) {f : DrainFlags → DrainFlags}
    (hf : ∀ d, (f d).forced = false → d.forced = false) :
    Inv { s with instances := s.instances.modify id fun inst =>
      { inst with flags := f inst.flags } } := by
  constructor
  · exact h.watcher
  · intro hw
    refine ⟨(h.unstarted hw).1, ?_⟩
    show s.instances.modify id _ = ∅
    rw [(h.unstarted hw).2]
    rfl
  · exact h.spawns
  · intro k inst hi hforced
    rw [Table.lookup_modify] at hi
    by_cases hk : k = id
    · rw [if_pos hk] at hi
      cases hl : s.instances.lookup k with
      | none => simp [hl] at hi
      | some old =>
        simp only [hl, Option.map_some, Option.some.injEq] at hi
        subst hi
        exact h.instances k old hl (hf _ hforced)
    · rw [if_neg hk] at hi
      exact h.instances k inst hi hforced

private theorem inv_otherStep {s t : State B} {l : Label B} (h : Inv s)
    (hstep : otherStep s l = some t) : Inv t := by
  cases l <;> simp only [otherStep, guarded_eq_some, reduceCtorEq, Option.some.injEq] at hstep
  case retire id =>
    obtain ⟨-, rfl⟩ := hstep
    constructor
    · exact h.watcher
    · intro hw
      refine ⟨(h.unstarted hw).1, ?_⟩
      show s.instances.erase id = ∅
      rw [(h.unstarted hw).2]
      rfl
    · exact h.spawns
    · intro k inst hi hf
      exact h.instances k inst (Table.lookup_erase_eq_some.mp hi).2 hf
  case scheduleDrain id =>
    subst hstep
    exact inv_modifyFlags h id fun _ => DrainFlags.forced_of_forced_drainForCompetitor
  case cancelDrain id =>
    subst hstep
    exact inv_modifyFlags h id fun _ => DrainFlags.forced_of_forced_cancelDrain

/-- Every atomic piece keeps the invariant. -/
theorem inv_step [DecidableEq B] {s t : State B} {l : Label B} (h : Inv s)
    (hstep : step s l = some t) : Inv t := by
  unfold step at hstep
  split at hstep
  all_goals first
    | exact inv_swapStep h hstep
    | exact inv_watcherStep h hstep
    | exact inv_spawnStep h hstep
    | exact inv_otherStep h hstep

/-- Whenever the watcher is parked without a permit and no swap is between its rename and its
notify, every mapped instance that does not drain runs the current binary. -/
theorem parked_watcher_instances_current [DecidableEq B] (target : Option B) (s : State B)
    (hs : Reachable step (State.init target) s) (lastGen : Nat)
    (hparked : s.watcher = .parked lastGen) (hpermit : s.permit = false) (hswap : s.swap = .idle)
    (id : Nat) (inst : Instance B) (hi : s.instances.lookup id = some inst)
    (hd : inst.flags.draining = false) : s.target = some inst.binary := by
  have h : Inv s := hs.invariant (fun _ _ _ => inv_step) (inv_init target)
  rcases h.instances id inst hi (DrainFlags.forced_of_not_draining hd) with hfr | hp
  · exact hfr.target (by simp [hswap])
  · rcases hp with ⟨-, hb | hpt | ⟨_, hwoken⟩⟩ | ⟨_, hc, -⟩ | ⟨_, _, hdr, -⟩
    · rw [hswap] at hb
      cases hb
    · rw [hpermit] at hpt
      cases hpt
    · rw [hparked] at hwoken
      cases hwoken
    · rw [hparked] at hc
      cases hc
    · rw [hparked] at hdr
      cases hdr

/-- One spawn runs across a swap and is inserted draining, a second one starts after it and
serves the new binary. -/
def swapAcrossSpawnRun : List (Label Nat) :=
  [.startWatcher, .awaitSwap, .beginSpawn 0, .sampleGeneration 0, .resolveBinary 0 true,
    .rename 2, .execBinary 0, .bump, .notifyOne, .readGeneration, .beginPass, .endPass,
    .insertInstance 0 false, .beginSpawn 1, .sampleGeneration 1, .resolveBinary 1 false,
    .execBinary 1, .insertInstance 1 false, .rememberGeneration, .awaitSwap]

/-- The theorem applies to the end of that run, where the second instance serves. -/
theorem swapAcrossSpawn_current :
    ∃ s inst, exec step (State.init (some 1)) swapAcrossSpawnRun = some s ∧
      s.instances.lookup 1 = some inst ∧ inst.flags.draining = false ∧
      (s.instances.lookup 0).map (fun i => i.flags.draining) = some true ∧
      s.target = some inst.binary :=
  ⟨_, _, rfl, rfl, rfl, rfl, parked_watcher_instances_current (some 1) _ ⟨swapAcrossSpawnRun, rfl⟩ 1
    rfl rfl rfl 1 _ rfl rfl⟩

end Llamesh.BinarySwap
