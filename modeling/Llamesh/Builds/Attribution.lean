import Llamesh.Builds.Disk

/-!
# Which arguments a build is of

A legacy directory belongs to the arguments whose id is in its stamp, over any
history of runs: no other stamp follows, and no run with other arguments selects
it. What makes it last is that the binary path never comes back to a directory
that lost its stamp in a cleanup.
-/

namespace Llamesh.Builds

open Transition

/-! ### What a step changes -/

section

variable {inputsId : BuildInputs → List Char} {base : List Char} {s t : State} {l : Label}

/-- The stamp of a legacy directory changes when the run that adopts it renames its temporary file,
and when a cleanup takes it away. -/
theorem stamp_step (h : step inputsId base s l = some t) (commit : Commit) :
    t.disk.stamp (legacyName base commit) = s.disk.stamp (legacyName base commit) ∨
      (∃ run dir, s.phase = .stamping run .renaming ∧ run.legacy base = legacyName base commit ∧
        t.phase = .activating run dir) ∨
      (s.disk.live ≠ some (legacyName base commit) ∧ t.disk.live = s.disk.live ∧
        t.disk.stamp (legacyName base commit) = .absent ∧ t.phase = .cleaning) := by
  cases step_effect h with
  | renameTemp run hphase =>
    by_cases hlegacy : run.legacy base = legacyName base commit
    · exact .inr (.inl ⟨run, _, hphase, hlegacy, rfl⟩)
    · exact .inl (Disk.stamp_modify_of_ne (Ne.symm hlegacy))
  | removeUnfinished rest run hphase =>
    exact .inl (Disk.stamp_leave_of_ne buildDirName_ne_legacyName.symm)
  | createDir run hphase => exact .inl Disk.stamp_createDir
  | cleanup name rest hphase hremovable hremoves =>
    by_cases hname : legacyName base commit = name
    · subst hname
      rcases Disk.stamp_leave_self hremoves with hsame | habsent
      · exact .inl hsame
      · refine .inr (.inr ⟨?_, ?_, habsent, hphase⟩)
        · simp only [Disk.removable, Bool.and_eq_true, Bool.not_eq_true', beq_eq_false_iff_ne]
            at hremovable
          exact hremovable.2
        · cases rest <;> rfl
    · exact .inl (Disk.stamp_leave_of_ne hname)
  | openTemp | writeTemp | discardTemp | command =>
    exact .inl (Disk.stamp_modify_of_keeps fun _ => rfl)
  | begin | select | activateCurrent | activate | verify | swap | finish | fail | crash =>
    exact .inl rfl

/-- The link at the binary path moves to a directory that is activated, or to a suffixed one. -/
theorem live_step (h : step inputsId base s l = some t) :
    t.disk.live = s.disk.live ∨
      ∃ run dir, t.disk.live = some dir ∧
        (s.phase = .activating run dir ∨ dir = run.buildDir inputsId base) := by
  cases step_effect h with
  | activate run dir hphase => exact .inr ⟨run, dir, rfl, .inl hphase⟩
  | swap run hphase => exact .inr ⟨run, _, rfl, .inr rfl⟩
  | createDir run hphase =>
    left
    simp only [Disk.createDir]
    split <;> rfl
  | removeUnfinished rest | cleanup name rest => cases rest <;> exact .inl rfl
  | _ => exact .inl rfl

/-- A run that selects its legacy directory has found its own id in the stamp, or has found the
directory live and without a stamp. -/
theorem legacy_of_selection {disk : Disk} {run : Run} {verified legacyVerified adopt : Bool}
    (h : disk.selection inputsId base run verified legacyVerified = .legacy adopt) :
    adopt = true ∧ disk.stamp (run.legacy base) = .absent ∧
        disk.live = some (run.legacy base) ∨
      adopt = false ∧
        disk.stamp (run.legacy base) = .file (Text.utf8Encode (inputsId run.inputs)) := by
  unfold Disk.selection selectBuildDir at h
  split at h
  · cases h
  · split at h
    · next hmatch =>
      obtain rfl := Selection.legacy.inj h
      simp only [Observed.stampMatches, Observed.adopt, Disk.observe, Disk.symlinkAlreadyCurrent]
        at hmatch ⊢
      cases hstamp : disk.stamp (run.legacy base) with
      | absent =>
        simp only [hstamp, Stamp.read, beq_self_eq_true, Bool.true_and, Bool.and_eq_true,
          beq_iff_eq] at hmatch ⊢
        exact .inl ⟨hmatch.1, trivial, hmatch.1.1⟩
      | file contents =>
        right
        simp only [hstamp, Stamp.read, Bool.and_eq_true, beq_iff_eq] at hmatch
        exact ⟨rfl, congrArg Stamp.file hmatch.1⟩
      | dangling => simp [hstamp, Stamp.read] at hmatch
      | unreadable => simp [hstamp, Stamp.read] at hmatch
    · cases h

private theorem stamping_of_failed {phase : Phase} {run : Run} {stage : StampStep}
    (h : phase.failed = .stamping run stage) : ∃ stage', phase = .stamping run stage' := by
  unfold Phase.failed at h
  split at h
  · obtain ⟨rfl, -⟩ := Phase.stamping.inj h
    exact ⟨_, rfl⟩
  · obtain ⟨rfl, -⟩ := Phase.stamping.inj h
    exact ⟨_, rfl⟩
  · cases h

/-- A run stamps a directory that it found live and without a stamp. -/
theorem stamping_step (h : step inputsId base s l = some t) {run : Run} {stage : StampStep}
    (ht : t.phase = .stamping run stage) :
    (∃ stage', s.phase = .stamping run stage') ∨
      s.disk.stamp (run.legacy base) = .absent ∧ s.disk.live = some (run.legacy base) := by
  cases step_effect h with
  | select verified legacyVerified run' hphase =>
    dsimp only at ht
    unfold Run.selected at ht
    split at ht
    case h_2 hsel =>
      obtain ⟨rfl, -⟩ := Phase.stamping.inj ht
      have hlegacy := legacy_of_selection hsel
      simp only [true_and, Bool.true_eq_false, false_and, or_false] at hlegacy
      exact .inr hlegacy
    all_goals cases ht
  | openTemp run' hphase | writeTemp octets run' written stage' hphase =>
    obtain ⟨rfl, -⟩ := Phase.stamping.inj ht
    exact .inl ⟨_, hphase⟩
  | removeUnfinished rest run' hphase | cleanup name rest hphase => cases hphase.symm.trans ht
  | command binary run' commands hphase =>
    dsimp only at ht
    split at ht <;> cases ht
  | fail => exact .inl (stamping_of_failed ht)
  | _ => cases ht

/-- A run activates a suffixed directory, or a legacy one that it has stamped or found its id in. -/
theorem activating_step (h : step inputsId base s l = some t) {run : Run} {dir : List Char}
    (ht : t.phase = .activating run dir) :
    dir = run.buildDir inputsId base ∨
      dir = run.legacy base ∧
        ((∃ stage, s.phase = .stamping run stage) ∨
          s.disk.stamp dir = .file (Text.utf8Encode (inputsId run.inputs))) := by
  cases step_effect h with
  | select verified legacyVerified run' hphase =>
    dsimp only at ht
    unfold Run.selected at ht
    split at ht
    case h_1 hsel =>
      obtain ⟨rfl, rfl⟩ := Phase.activating.inj ht
      exact .inl rfl
    case h_3 hsel =>
      obtain ⟨rfl, rfl⟩ := Phase.activating.inj ht
      have hlegacy := legacy_of_selection hsel
      simp only [Bool.false_eq_true, false_and, true_and, false_or] at hlegacy
      exact .inr ⟨rfl, .inr hlegacy⟩
    all_goals cases ht
  | renameTemp run' hphase =>
    obtain ⟨rfl, rfl⟩ := Phase.activating.inj ht
    exact .inr ⟨rfl, .inl ⟨_, hphase⟩⟩
  | removeUnfinished rest run' hphase | cleanup name rest hphase => cases hphase.symm.trans ht
  | command binary run' commands hphase =>
    dsimp only at ht
    split at ht <;> cases ht
  | fail =>
    dsimp only at ht
    unfold Phase.failed at ht
    split at ht <;> cases ht
  | _ => cases ht

/-! ### What every run keeps -/

/-- A directory that is being stamped has no stamp. -/
def StampsFresh (base : List Char) (s : State) : Prop :=
  ∀ run stage, s.phase = .stamping run stage → s.disk.stamp (run.legacy base) = .absent

/-- A legacy directory belongs to the arguments in its stamp. When the stamp is gone, as a cleanup
did not get further, the binary path does not lead there and no run brings it back. -/
structure Attributed (base : List Char) (commit : Commit) (contents : List UInt8) (s : State) :
    Prop where
  settled : ∀ run stage, s.phase = .stamping run stage → run.legacy base ≠ legacyName base commit
  stamped : s.disk.stamp (legacyName base commit) = .file contents ∨
    s.disk.stamp (legacyName base commit) = .absent ∧
      s.disk.live ≠ some (legacyName base commit) ∧
      ∀ run, s.phase ≠ .activating run (legacyName base commit)

/-- Every step stamps only directories without a stamp. -/
theorem stampsFresh_step (h : step inputsId base s l = some t) (hs : StampsFresh base s) :
    StampsFresh base t := by
  intro run stage ht
  have habsent : s.disk.stamp (run.legacy base) = .absent := by
    rcases stamping_step h ht with ⟨stage', hstage⟩ | ⟨habsent, -⟩
    · exact hs run stage' hstage
    · exact habsent
  rcases stamp_step h run.commit with hsame | ⟨_, _, -, -, hphase⟩ | ⟨-, -, -, hphase⟩
  · exact hsame.trans habsent
  · cases hphase.symm.trans ht
  · cases hphase.symm.trans ht

/-- Every step keeps what a legacy directory belongs to. -/
theorem attributed_step {commit : Commit} {contents : List UInt8}
    (h : step inputsId base s l = some t) (hs : Attributed base commit contents s) :
    Attributed base commit contents t where
  settled := by
    intro run stage ht hlegacy
    rcases stamping_step h ht with ⟨stage', hstage⟩ | ⟨habsent, hlive⟩
    · exact hs.settled run stage' hstage hlegacy
    · -- A stamp that is gone cannot be written again, as the binary path leads elsewhere.
      rw [hlegacy] at habsent hlive
      rcases hs.stamped with hfile | ⟨-, hother, -⟩
      · rw [hfile] at habsent
        cases habsent
      · exact hother hlive
  stamped := by
    rcases stamp_step h commit with hsame | ⟨run, _, hphase, hlegacy, -⟩ |
      ⟨hother, hlive, habsent, hphase⟩
    · rw [hsame]
      refine hs.stamped.imp_right fun ⟨habsent, hother, hactivating⟩ => ⟨habsent, ?_, ?_⟩
      · rcases live_step h with hlive | ⟨run, dir, hlive, hdir⟩
        · rwa [hlive]
        · rw [hlive]
          intro heq
          obtain rfl := Option.some.inj heq
          rcases hdir with hphase | hdir
          · exact hactivating run hphase
          · exact buildDirName_ne_legacyName hdir.symm
      · intro run ht
        rcases activating_step h ht with hdir | ⟨hlegacy, ⟨stage, hphase⟩ | hfile⟩
        · exact buildDirName_ne_legacyName hdir.symm
        · exact hs.settled run stage hphase hlegacy.symm
        · rw [habsent] at hfile
          cases hfile
    · exact absurd hlegacy (hs.settled run _ hphase)
    · refine .inr ⟨habsent, ?_, ?_⟩
      · rwa [hlive]
      · intro run ht
        cases hphase.symm.trans ht

/-- A run selects its suffixed directory, or its legacy one that has its id in the stamp or is live
without one. -/
theorem selects_cases {run : Run} {dir : List Char} {reusable : Bool}
    (h : s.selects inputsId base l = some (run, dir, reusable)) :
    dir = run.buildDir inputsId base ∨
      dir = run.legacy base ∧
        (s.disk.stamp dir = .absent ∧ s.disk.live = some dir ∨
          s.disk.stamp dir = .file (Text.utf8Encode (inputsId run.inputs))) := by
  unfold State.selects at h
  split at h
  · split at h
    · simp only [Option.some.injEq, Prod.mk.injEq] at h
      obtain ⟨rfl, rfl, -⟩ := h
      exact .inl rfl
    · next hsel =>
      simp only [Option.some.injEq, Prod.mk.injEq] at h
      obtain ⟨rfl, rfl, -⟩ := h
      have hlegacy := legacy_of_selection hsel
      exact .inr ⟨rfl, hlegacy.imp And.right And.right⟩
    · simp only [Option.some.injEq, Prod.mk.injEq] at h
      obtain ⟨rfl, rfl, -⟩ := h
      exact .inl rfl
  · cases h

/-- Whatever a step prepares or builds in is a suffixed directory. -/
theorem buildsIn_cases {dir : List Char} (h : s.buildsIn inputsId base l = some dir) :
    ∃ run : Run, dir = run.buildDir inputsId base := by
  unfold State.buildsIn at h
  split at h
  · exact ⟨_, (Option.some.inj h).symm⟩
  · exact ⟨_, (Option.some.inj h).symm⟩
  · exact ⟨_, (Option.some.inj h).symm⟩
  · cases h

/-- A run that selects the legacy directory has the id in its stamp. -/
theorem selects_attributed {commit : Commit} {contents : List UInt8} {run : Run} {reusable : Bool}
    (hs : Attributed base commit contents s)
    (h : s.selects inputsId base l = some (run, legacyName base commit, reusable)) :
    Text.utf8Encode (inputsId run.inputs) = contents := by
  rcases selects_cases h with hdir | ⟨-, ⟨habsent, hlive⟩ | hfile⟩
  · exact absurd hdir.symm buildDirName_ne_legacyName
  · rcases hs.stamped with hstamp | ⟨-, hother, -⟩
    · rw [hstamp] at habsent
      cases habsent
    · exact absurd hlive hother
  · rcases hs.stamped with hstamp | ⟨habsent, -, -⟩
    · exact Stamp.file.inj (hfile.symm.trans hstamp)
    · rw [habsent] at hfile
      cases hfile

/-- A stamp that is there belongs to no run in progress. -/
theorem attributed_of_stamp {commit : Commit} {contents : List UInt8} (hs : StampsFresh base s)
    (h : s.disk.stamp (legacyName base commit) = .file contents) :
    Attributed base commit contents s where
  settled := by
    intro run stage hphase hlegacy
    have habsent := hs run stage hphase
    rw [hlegacy, h] at habsent
    cases habsent
  stamped := .inl h

end

/-- In every history of runs, with failures and crashes anywhere: a legacy directory stamped with an
inputs id has no other stamp later on and is selected only by runs with that id, no run prepares or
builds in a legacy directory, and a suffixed directory is selected only by runs whose arguments have
the id in its name. -/
theorem builds_attributed (sha256 : List UInt8 → Vector UInt8 32)
    (toVec : BuildInputs → List UInt8) (base : List Char) (disk : Disk) (labels : List Label)
    (s : State)
    (h : exec (step (buildInputsId sha256 toVec) base) ⟨disk, [], .idle⟩ labels = some s) :
    (∀ commit i, s.disk.stamp (legacyName base commit) = .file (Text.utf8Encode i) →
      ∀ more t, exec (step (buildInputsId sha256 toVec) base) s more = some t →
        (∀ contents, t.disk.stamp (legacyName base commit) = .file contents →
          contents = Text.utf8Encode i) ∧
        ∀ l run reusable,
          t.selects (buildInputsId sha256 toVec) base l =
            some (run, legacyName base commit, reusable) →
          buildInputsId sha256 toVec run.inputs = i) ∧
      (∀ l dir, s.buildsIn (buildInputsId sha256 toVec) base l = some dir →
        ∀ commit, dir ≠ legacyName base commit) ∧
      ∀ l run dir reusable,
        s.selects (buildInputsId sha256 toVec) base l = some (run, dir, reusable) →
        ∀ commit inputs, dir = buildDirName base commit (buildInputsId sha256 toVec inputs) →
          buildInputsId sha256 toVec run.inputs = buildInputsId sha256 toVec inputs := by
  have hfresh : StampsFresh base s :=
    exec_invariant (P := StampsFresh base) (fun _ _ _ hs hstep => stampsFresh_step hstep hs)
      (fun _ _ hphase => by cases hphase) h
  refine ⟨?_, ?_, ?_⟩
  · intro commit i hstamp more t ht
    have hattributed : Attributed base commit (Text.utf8Encode i) t :=
      exec_invariant (P := Attributed base commit (Text.utf8Encode i))
        (fun _ _ _ hs hstep => attributed_step hstep hs) (attributed_of_stamp hfresh hstamp) ht
    refine ⟨fun contents hcontents => ?_, fun l run reusable hsel => ?_⟩
    · rcases hattributed.stamped with hfile | ⟨habsent, -, -⟩
      · exact Stamp.file.inj (hcontents.symm.trans hfile)
      · rw [habsent] at hcontents
        cases hcontents
    · exact Text.utf8Encode_injective (selects_attributed hattributed hsel)
  · intro l dir hdir commit
    obtain ⟨run, rfl⟩ := buildsIn_cases hdir
    exact buildDirName_ne_legacyName
  · intro l run dir reusable hsel commit inputs hdir
    rcases selects_cases hsel with hbuild | ⟨hlegacy, -⟩
    · exact inputsId_of_buildDirName (underscore_notMem_buildInputsId sha256 toVec run.inputs)
        (underscore_notMem_buildInputsId sha256 toVec inputs) (hbuild.symm.trans hdir)
    · exact absurd (hdir.symm.trans hlegacy) buildDirName_ne_legacyName

/-- The process crashes while it stamps a live legacy build, and the next run completes the stamp.
The hash is the SHA-256 of the JSON of these arguments. -/
theorem builds_attributed_after_crash :
    let sha256 : List UInt8 → Vector UInt8 32 := fun _ =>
      #v[176, 128, 62, 151, 59, 109, 49, 53, 138, 57, 145, 181, 184, 245, 186, 247,
        214, 107, 115, 142, 119, 43, 117, 224, 168, 150, 230, 254, 210, 154, 98, 163]
    let toVec : BuildInputs → List UInt8 := fun _ =>
      Text.utf8Encode "[[\"-DGGML_CUDA=ON\"],[]]".toList
    let commit : Commit := ⟨"abc1234".toList, rfl⟩
    let legacy := legacyName "build".toList commit
    let run : Run := ⟨⟨["-DGGML_CUDA=ON"], []⟩, commit⟩
    let stamped : State :=
      ⟨⟨AList.insert legacy ⟨true, .file (Text.utf8Encode "b0803e97".toList), none⟩ ∅,
        some legacy⟩, [], .idle⟩
    exec (step (buildInputsId sha256 toVec) "build".toList)
        ⟨⟨AList.insert legacy ⟨true, .absent, none⟩ ∅, some legacy⟩, [], .idle⟩
        [.begin run, .select true true, .openTemp, .crash, .begin run, .select true true,
          .openTemp, .writeTemp 3, .writeTemp 8, .renameTemp, .activate] = some stamped ∧
      ∀ more t, exec (step (buildInputsId sha256 toVec) "build".toList) stamped more = some t →
        ∀ contents, t.disk.stamp legacy = .file contents →
          contents = Text.utf8Encode "b0803e97".toList := by
  intro sha256 toVec commit legacy run stamped
  have hrun : exec (step (buildInputsId sha256 toVec) "build".toList)
      ⟨⟨AList.insert legacy ⟨true, .absent, none⟩ ∅, some legacy⟩, [], .idle⟩
      [.begin run, .select true true, .openTemp, .crash, .begin run, .select true true,
        .openTemp, .writeTemp 3, .writeTemp 8, .renameTemp, .activate] = some stamped := by
    rfl
  refine ⟨hrun, fun more t ht => ?_⟩
  exact ((builds_attributed sha256 toVec _ _ _ _ hrun).1 commit "b0803e97".toList rfl more t ht).1

end Llamesh.Builds
