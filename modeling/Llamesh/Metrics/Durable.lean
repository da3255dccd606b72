import Llamesh.Builds.Call
import Llamesh.Metrics.Snapshot

/-!
# Metrics that survive a restart

`persist_metrics_snapshot` (`src/node_state/mod.rs:3944–3969`) takes a snapshot under its lock,
writes it to a temporary file and renames that file to `metrics_path`; the node starts with what it
finds there (`src/node_state/mod.rs:625`). The process may end at any moment, a write may fail half
way, and the metrics change all the time.

The files are those of the directory of `metrics_path`, by their names. An argument hash that a
profile of a cookbook had in an earlier version is moved away on purpose when that cookbook is
loaded, so the results are about the other hashes.
-/

namespace Llamesh.Metrics.Durable

open Transition FileOps

variable {φ π : Type}

/-- The call of `persist_metrics_snapshot` that has the lock. -/
inductive PersistPc (φ π : Type) where
  | idle
  | scanning (snapshot : MetricsSnapshot φ π) (reads : List Read)
  | creating (bytes : List UInt8)
  | writing (left : List UInt8)

/-- The node and its files; there are no metrics while the process is down. -/
structure Node (φ π : Type) where
  metrics : Option (NodeMetrics π)
  persist : PersistPc φ π
  files : Files (List Char) UInt8

/-- What can happen. -/
inductive Label (π : Type) where
  /-- The node starts; a file that cannot be read is as good as none. -/
  | start (cookbook : CookbookFile.Cookbook) (readable : Bool)
  | crash
  | update (argsHash : String) (u : Update π)
  | getHashMetrics (argsHash : String)
  | count (counter : Counter)
  /-- A reload. `src/node_state/mod.rs:734`. -/
  | migrate (cookbook : CookbookFile.Cookbook)
  | beginPersist
  | read
  | encode
  | create
  | write (chunk : List UInt8)
  | writeFailed
  | rename
  | renameFailed

variable (json : Json φ π) (floats : Floats φ) (sha256 : List UInt8 → Vector UInt8 32)
  (name : List Char)

/-- `path.with_extension("tmp")`. -/
def tmpName : List Char := Builds.Isolation.withExtension name "tmp".toList

/-- The map of the hashes is locked for reading while a snapshot is taken. -/
def Node.Unlocked (s : Node φ π) : Prop :=
  match s.persist with
  | .scanning _ _ => False
  | _ => True

instance (s : Node φ π) : Decidable s.Unlocked := by
  unfold Node.Unlocked
  split <;> infer_instance

/-- One step. -/
def step (s : Node φ π) : Label π → Option (Node φ π)
  | .start cookbook readable =>
    match s.metrics with
    | none =>
      let bytes := if readable then s.files.lookup name else none
      some { s with metrics := some (.load floats json sha256 bytes cookbook) }
    | some _ => none
  | .crash => some { s with metrics := none, persist := .idle }
  | .update argsHash u =>
    s.metrics.map fun m =>
      { s with metrics := some { m with hashMetrics := m.hashMetrics.modify argsHash u.apply } }
  | .getHashMetrics argsHash =>
    s.metrics.bind fun m =>
      guarded s.Unlocked { s with metrics := some (m.getHashMetrics argsHash) }
  | .count counter =>
    s.metrics.map fun m =>
      { s with
        metrics := some { m with
          totals := Function.update m.totals counter ((m.totals counter + 1) % 2 ^ 64) } }
  | .migrate cookbook =>
    s.metrics.bind fun m =>
      guarded s.Unlocked { s with metrics := some (m.migrate sha256 cookbook) }
  | .beginPersist =>
    match s.metrics, s.persist with
    | some m, .idle => some { s with persist := .scanning .blank m.reads }
    | _, _ => none
  | .read =>
    match s.metrics, s.persist with
    | some m, .scanning snapshot (r :: rest) =>
      some { s with persist := .scanning (snapshot.read floats m r) rest }
    | _, _ => none
  | .encode =>
    match s.persist with
    | .scanning snapshot [] => some { s with persist := .creating (json.encode snapshot) }
    | _ => none
  | .create =>
    match s.persist with
    | .creating bytes =>
      some { s with
        persist := .writing bytes, files := (Op.create (tmpName name)).apply s.files }
    | _ => none
  | .write chunk =>
    match s.persist with
    | .writing left =>
      guarded (chunk <+: left)
        { s with
          persist := .writing (left.drop chunk.length)
          files := (Op.append (tmpName name) chunk).apply s.files }
    | _ => none
  | .writeFailed =>
    match s.persist with
    | .creating _ | .writing _ => some { s with persist := .idle }
    | _ => none
  | .rename =>
    match s.persist with
    | .writing [] =>
      some { s with
        persist := .idle, files := (Op.rename (tmpName name) name).apply s.files }
    | _ => none
  | .renameFailed =>
    match s.persist with
    | .writing [] => some { s with persist := .idle }
    | _ => none

/-! ## What is kept -/

/-- No profile of the cookbook had the hash in an earlier version. -/
def NotPrevious (cookbook : CookbookFile.Cookbook) (key : String) : Prop :=
  ∀ p ∈ allProfiles cookbook, legacyOf sha256 p = key → newOf sha256 p = key

/-- A start finds its file readable, and no load moves the hash away. -/
def Label.Keeps (key : String) : Label π → Prop
  | .start cookbook readable => readable = true ∧ NotPrevious sha256 cookbook key
  | .migrate cookbook => NotPrevious sha256 cookbook key
  | _ => True

/-- The step keeps the hash, and what it encodes can be read back. -/
def Sound (key : String) (s : Node φ π) (label : Label π) : Prop :=
  label.Keeps sha256 key ∧
    ∀ snapshot, label = .encode → s.persist = .scanning snapshot [] → json.ReadsBack snapshot

/-- The persisting call goes on. -/
def Label.Continues : Label π → Prop
  | .crash | .writeFailed | .rename | .renameFailed => False
  | _ => True

variable (key : String) (vram sysmem : Nat)

/-- The peaks of the hash are at least these. -/
def Above (m : NodeMetrics π) : Prop :=
  ∃ h, m.hashMetrics.lookup key = some h ∧ vram ≤ h.peakVramMb ∧ sysmem ≤ h.peakSysmemMb

/-- So they are in a snapshot. -/
def SnapshotAbove (snapshot : MetricsSnapshot φ π) : Prop :=
  ∃ v, snapshot.hashes.lookup key = some v ∧ vram ≤ v.peakVramMb ∧ sysmem ≤ v.peakSysmemMb

/-- So they are in what bytes are read as. -/
def BytesAbove (bytes : List UInt8) : Prop :=
  ∃ snapshot, json.decode bytes = some snapshot ∧ SnapshotAbove key vram sysmem snapshot

/-- A field was read of a peak at least as high, or it will be read. -/
def FieldAbove (snapshot : MetricsSnapshot φ π) (reads : List Read) (field : Field)
    (peak : HashMetricsSnapshot φ π → Nat) (bound : Nat) : Prop :=
  Read.hash key field ∈ reads ∨ ∃ v, snapshot.hashes.lookup key = some v ∧ bound ≤ peak v

/-- What the persisting call will write is high enough. -/
def PersistAbove (s : Node φ π) : Prop :=
  match s.persist with
  | .idle => True
  | .scanning snapshot reads =>
    FieldAbove key snapshot reads .peakVramMb (·.peakVramMb) vram ∧
      FieldAbove key snapshot reads .peakSysmemMb (·.peakSysmemMb) sysmem
  | .creating bytes => BytesAbove json key vram sysmem bytes
  | .writing left =>
    ∃ written, s.files.lookup (tmpName name) = some written ∧
      BytesAbove json key vram sysmem (written ++ left)

/-- The running node and the persisting call have the peaks. -/
structure LiveAbove (s : Node φ π) : Prop where
  live : ∀ m, s.metrics = some m → Above key vram sysmem m
  persist : PersistAbove json name key vram sysmem s

/-- So has the file. -/
def FileAbove (s : Node φ π) : Prop :=
  ∃ bytes, s.files.lookup name = some bytes ∧ BytesAbove json key vram sysmem bytes

/-! ## The running node -/

section

variable {key vram sysmem} {m : NodeMetrics π}

private theorem peaks_apply (h : HashMetrics π) (u : Update π) :
    h.peakVramMb ≤ (u.apply h).peakVramMb ∧ h.peakSysmemMb ≤ (u.apply h).peakSysmemMb := by
  cases u with
  | maxVram mb => exact ⟨Nat.le_max_left _ _, Nat.le_refl _⟩
  | maxSysmem mb => exact ⟨Nat.le_refl _, Nat.le_max_left _ _⟩
  | _ => exact ⟨Nat.le_refl _, Nat.le_refl _⟩

private theorem above_update (habove : Above key vram sysmem m) (argsHash : String)
    (u : Update π) :
    Above key vram sysmem { m with hashMetrics := m.hashMetrics.modify argsHash u.apply } := by
  obtain ⟨h, hlookup, hvram, hsysmem⟩ := habove
  have hpeaks := peaks_apply h u
  by_cases heq : key = argsHash
  · refine ⟨u.apply h, ?_, hvram.trans hpeaks.1, hsysmem.trans hpeaks.2⟩
    rw [Table.lookup_modify, if_pos heq, hlookup, Option.map_some]
  · refine ⟨h, ?_, hvram, hsysmem⟩
    rw [Table.lookup_modify, if_neg heq, hlookup]

private theorem above_getHashMetrics (habove : Above key vram sysmem m) (argsHash : String) :
    Above key vram sysmem (m.getHashMetrics argsHash) := by
  obtain ⟨h, hlookup, hpeaks⟩ := habove
  unfold NodeMetrics.getHashMetrics
  split
  · exact ⟨h, hlookup, hpeaks⟩
  · next hnotMem =>
    refine ⟨h, ?_, hpeaks⟩
    have hne : key ≠ argsHash := by
      rintro rfl
      exact hnotMem (AList.lookup_isSome.mp (by rw [hlookup]; rfl))
    rw [Table.lookup_insert_eq, if_neg hne, hlookup]

variable {sha256} {cookbook : CookbookFile.Cookbook}

private theorem lookup_migrate_of_notPrevious {h : HashMetrics π}
    (hnot : NotPrevious sha256 cookbook key) (hlookup : m.hashMetrics.lookup key = some h) :
    (m.migrate sha256 cookbook).hashMetrics.lookup key = some h := by
  have hcollected := collected sha256 m.hashMetrics cookbook
  have hmem : key ∈ m.hashMetrics := AList.lookup_isSome.mp (by rw [hlookup]; rfl)
  have hmigrated : key ∉ (collectMigration sha256 m.hashMetrics cookbook).migrated :=
    fun hkey => ((hcollected.keys key).mp hkey).1 hmem
  have hlegacy : key ∉ (collectMigration sha256 m.hashMetrics cookbook).legacyHashes := by
    intro hkey
    obtain ⟨p, hp, hmoves, heq⟩ := (hcollected.legacy key).mp hkey
    exact hmoves.1 (heq.trans (hnot p hp heq).symm)
  rw [NodeMetrics.migrate, lookup_migrateArgsHashes, AList.lookup_eq_none.mpr hmigrated,
    if_neg hlegacy, Option.none_or, hlookup]

private theorem above_migrate (habove : Above key vram sysmem m)
    (hnot : NotPrevious sha256 cookbook key) :
    Above key vram sysmem (m.migrate sha256 cookbook) := by
  obtain ⟨h, hlookup, hpeaks⟩ := habove
  exact ⟨h, lookup_migrate_of_notPrevious hnot hlookup, hpeaks⟩

variable {json floats} {bytes : List UInt8}

private theorem lookup_fromSnapshot (snapshot : MetricsSnapshot φ π) :
    (NodeMetrics.fromSnapshot floats snapshot).hashMetrics.lookup key =
      (snapshot.hashes.lookup key).map (.ofSnapshot floats) := by
  have hinsert := Table.lookup_foldl_insertSome snapshot.hashes
    (∅ : Table String (HashMetrics π)) (fun _ v => some (.ofSnapshot floats v)) key
  rw [AList.lookup_empty, Option.or_none] at hinsert
  cases hlookup : snapshot.hashes.lookup key with
  | none =>
    rw [hlookup] at hinsert
    exact hinsert
  | some v =>
    rw [hlookup] at hinsert
    exact hinsert

private theorem above_load (hbytes : BytesAbove json key vram sysmem bytes)
    (hnot : NotPrevious sha256 cookbook key) :
    Above key vram sysmem (.load floats json sha256 (some bytes) cookbook) := by
  obtain ⟨snapshot, hdecode, v, hlookup, hpeaks⟩ := hbytes
  have hload : NodeMetrics.load floats json sha256 (some bytes) cookbook =
      (NodeMetrics.fromSnapshot floats snapshot).migrate sha256 cookbook := by
    simp only [NodeMetrics.load, Option.bind_some, hdecode]
  rw [hload]
  refine above_migrate ⟨.ofSnapshot floats v, ?_, hpeaks⟩ hnot
  rw [lookup_fromSnapshot, hlookup, Option.map_some]

/-! ## The snapshot -/

variable {snapshot : MetricsSnapshot φ π} {reads : List Read} {r : Read} {field : Field}
  {peak : HashMetricsSnapshot φ π → Nat} {bound : Nat}

private theorem fieldAbove_read
    (hfield : FieldAbove key snapshot (r :: reads) field peak bound)
    (hread : ∀ h v, m.hashMetrics.lookup key = some h →
      bound ≤ peak (HashMetricsSnapshot.read floats h v field))
    (hother : ∀ h v other, other ≠ field →
      peak (HashMetricsSnapshot.read floats h v other) = peak v)
    (hmem : key ∈ m.hashMetrics) :
    FieldAbove key (snapshot.read floats m r) reads field peak bound := by
  obtain ⟨h, hlookup⟩ := Option.isSome_iff_exists.mp (AList.lookup_isSome.mpr hmem)
  by_cases hr : r = .hash key field
  · -- it is read now
    subst hr
    right
    refine ⟨_, ?_, hread h ((snapshot.hashes.lookup key).getD (.blank floats)) hlookup⟩
    simp only [MetricsSnapshot.read, hlookup]
    rw [Table.lookup_insert_eq, if_pos rfl]
  rcases hfield with hmem | ⟨v, hv, hbound⟩
  · exact .inl ((List.mem_cons.mp hmem).resolve_left (Ne.symm hr))
  right
  cases r with
  | total counter => exact ⟨v, hv, hbound⟩
  | hash other otherField =>
    by_cases hkey : other = key
    · subst hkey
      refine ⟨HashMetricsSnapshot.read floats h v otherField, ?_, ?_⟩
      · simp only [MetricsSnapshot.read, hlookup]
        rw [Table.lookup_insert_eq, if_pos rfl, hv, Option.getD_some]
      · rw [hother h v otherField (fun heq => hr (by rw [heq]))]
        exact hbound
    · refine ⟨v, ?_, hbound⟩
      simp only [MetricsSnapshot.read]
      split
      · rw [Table.lookup_insert_eq, if_neg (Ne.symm hkey), hv]
      · exact hv

private theorem mem_reads (hmem : key ∈ m.hashMetrics) (hfield : field ∈ Field.all) :
    Read.hash key field ∈ m.reads := by
  refine List.mem_append_left _ (List.mem_flatMap.mpr ⟨key, hmem, ?_⟩)
  exact List.mem_map.mpr ⟨field, hfield, rfl⟩

private theorem bytesAbove_encode (hjson : json.ReadsBack snapshot)
    (hvram : FieldAbove key snapshot [] .peakVramMb (·.peakVramMb) vram)
    (hsysmem : FieldAbove key snapshot [] .peakSysmemMb (·.peakSysmemMb) sysmem) :
    BytesAbove json key vram sysmem (json.encode snapshot) := by
  obtain ⟨v, hv, hvram⟩ := hvram.resolve_left List.not_mem_nil
  obtain ⟨w, hw, hsysmem⟩ := hsysmem.resolve_left List.not_mem_nil
  obtain rfl : v = w := Option.some.inj (hv.symm.trans hw)
  obtain ⟨t, hdecode, -, hhashes⟩ := hjson
  have hkey := hhashes key
  rw [hv, Option.map_some] at hkey
  obtain ⟨u, hu, hsame⟩ := Option.map_eq_some_iff.mp hkey
  have hintegers := (Prod.mk.inj hsame).2
  simp only [HashMetricsSnapshot.integers, List.cons.injEq] at hintegers
  refine ⟨t, hdecode, u, hu, ?_, ?_⟩
  · rw [hintegers.2.2.2.2.2.1]
    exact hvram
  · rw [hintegers.2.2.2.2.2.2.1]
    exact hsysmem

end

/-! ## One step -/

section

variable {json floats sha256 name key vram sysmem} {s t : Node φ π} {label : Label π}

private theorem PersistAbove.withMetrics (h : PersistAbove json name key vram sysmem s)
    (metrics : Option (NodeMetrics π)) :
    PersistAbove json name key vram sysmem { s with metrics := metrics } := h

private theorem liveAbove_metrics (inv : LiveAbove json name key vram sysmem s)
    {m : NodeMetrics π} (habove : Above key vram sysmem m) :
    LiveAbove json name key vram sysmem { s with metrics := some m } where
  live := by
    rintro m' ⟨⟩
    exact habove
  persist := inv.persist.withMetrics (some m)

private theorem persistAbove_read {m : NodeMetrics π} {snapshot : MetricsSnapshot φ π}
    {reads : List Read} {r : Read} (inv : LiveAbove json name key vram sysmem s)
    (hm : s.metrics = some m) (hpersist : s.persist = .scanning snapshot (r :: reads)) :
    PersistAbove json name key vram sysmem
      { s with persist := .scanning (snapshot.read floats m r) reads } := by
  obtain ⟨h, hlookup, hvram, hsysmem⟩ := inv.live m hm
  have hmem : key ∈ m.hashMetrics := AList.lookup_isSome.mp (by rw [hlookup]; rfl)
  have hscan := inv.persist
  simp only [PersistAbove, hpersist] at hscan
  have hentry : ∀ h', m.hashMetrics.lookup key = some h' → h' = h := fun h' hlookup' =>
    Option.some.inj (hlookup'.symm.trans hlookup)
  refine ⟨fieldAbove_read hscan.1 (fun h' v hlookup' => ?_) (fun h' v other hne => ?_) hmem,
    fieldAbove_read hscan.2 (fun h' v hlookup' => ?_) (fun h' v other hne => ?_) hmem⟩
  · rw [hentry h' hlookup']
    exact hvram
  · cases other with
    | peakVramMb => exact absurd rfl hne
    | _ => rfl
  · rw [hentry h' hlookup']
    exact hsysmem
  · cases other with
    | peakSysmemMb => exact absurd rfl hne
    | _ => rfl

private theorem persistAbove_create {bytes : List UInt8}
    (inv : LiveAbove json name key vram sysmem s) (hpersist : s.persist = .creating bytes) :
    PersistAbove json name key vram sysmem
      { s with persist := .writing bytes, files := (Op.create (tmpName name)).apply s.files } := by
  have hbytes := inv.persist
  simp only [PersistAbove, hpersist] at hbytes
  refine ⟨[], ?_, hbytes⟩
  change (s.files.insert (tmpName name) []).lookup (tmpName name) = some []
  rw [Table.lookup_insert_eq, if_pos rfl]

private theorem persistAbove_write {left chunk : List UInt8}
    (inv : LiveAbove json name key vram sysmem s) (hpersist : s.persist = .writing left)
    (hchunk : chunk <+: left) :
    PersistAbove json name key vram sysmem
      { s with
        persist := .writing (left.drop chunk.length)
        files := (Op.append (tmpName name) chunk).apply s.files } := by
  have hwriting := inv.persist
  simp only [PersistAbove, hpersist] at hwriting
  obtain ⟨written, hwritten, hbytes⟩ := hwriting
  obtain ⟨rest, rfl⟩ := hchunk
  refine ⟨written ++ chunk, ?_, ?_⟩
  · change (s.files.modify (tmpName name) (· ++ chunk)).lookup (tmpName name) = _
    rw [Table.lookup_modify, if_pos rfl, hwritten, Option.map_some]
  · rw [List.drop_left, List.append_assoc]
    exact hbytes

private theorem liveAbove_idle (inv : LiveAbove json name key vram sysmem s)
    (files : Files (List Char) UInt8) :
    LiveAbove json name key vram sysmem { s with persist := .idle, files := files } :=
  ⟨inv.live, trivial⟩

private theorem liveAbove_step (inv : LiveAbove json name key vram sysmem s)
    (hfile : s.metrics = none → FileAbove json name key vram sysmem s)
    (hsound : Sound json sha256 key s label) (h : step json floats sha256 name s label = some t) :
    LiveAbove json name key vram sysmem t := by
  have hkeeps := hsound.1
  cases label with
  | start cookbook readable =>
    simp only [step] at h
    split at h
    · next hdown =>
      cases h
      obtain ⟨bytes, hbytes, habove⟩ := hfile hdown
      rw [if_pos hkeeps.1, hbytes]
      exact liveAbove_metrics inv (above_load habove hkeeps.2)
    · cases h
  | crash =>
    cases h
    exact ⟨fun m hm => (by cases hm), trivial⟩
  | update argsHash u =>
    obtain ⟨m, hm, rfl⟩ := Option.map_eq_some_iff.mp h
    exact liveAbove_metrics inv (above_update (inv.live m hm) argsHash u)
  | getHashMetrics argsHash =>
    obtain ⟨m, hm, hstep⟩ := Option.bind_eq_some_iff.mp h
    obtain ⟨-, rfl⟩ := guarded_eq_some.mp hstep
    exact liveAbove_metrics inv (above_getHashMetrics (inv.live m hm) argsHash)
  | count counter =>
    obtain ⟨m, hm, rfl⟩ := Option.map_eq_some_iff.mp h
    exact liveAbove_metrics inv (inv.live m hm)
  | migrate cookbook =>
    obtain ⟨m, hm, hstep⟩ := Option.bind_eq_some_iff.mp h
    obtain ⟨-, rfl⟩ := guarded_eq_some.mp hstep
    exact liveAbove_metrics inv (above_migrate (inv.live m hm) hkeeps)
  | beginPersist =>
    simp only [step] at h
    split at h
    · next m hm hidle =>
      cases h
      obtain ⟨entry, hlookup, -⟩ := inv.live m hm
      have hmem : key ∈ m.hashMetrics := AList.lookup_isSome.mp (by rw [hlookup]; rfl)
      exact ⟨inv.live, .inl (mem_reads hmem (by decide)), .inl (mem_reads hmem (by decide))⟩
    · cases h
  | read =>
    simp only [step] at h
    split at h
    · next m snapshot r reads hm hpersist =>
      cases h
      exact ⟨inv.live, persistAbove_read inv hm hpersist⟩
    · cases h
  | encode =>
    simp only [step] at h
    split at h
    · next snapshot hpersist =>
      cases h
      have hscan := inv.persist
      simp only [PersistAbove, hpersist] at hscan
      exact ⟨inv.live, bytesAbove_encode (hsound.2 snapshot rfl hpersist) hscan.1 hscan.2⟩
    · cases h
  | create =>
    simp only [step] at h
    split at h
    · next bytes hpersist =>
      cases h
      exact ⟨inv.live, persistAbove_create inv hpersist⟩
    · cases h
  | write chunk =>
    simp only [step] at h
    split at h
    · next left hpersist =>
      obtain ⟨hchunk, rfl⟩ := guarded_eq_some.mp h
      exact ⟨inv.live, persistAbove_write inv hpersist hchunk⟩
    · cases h
  | writeFailed =>
    simp only [step] at h
    split at h <;> cases h <;> exact liveAbove_idle inv s.files
  | rename =>
    simp only [step] at h
    split at h <;> cases h
    exact liveAbove_idle inv _
  | renameFailed =>
    simp only [step] at h
    split at h <;> cases h
    exact liveAbove_idle inv s.files

private theorem fileAbove_rename (inv : LiveAbove json name key vram sysmem s)
    (h : step json floats sha256 name s .rename = some t) :
    FileAbove json name key vram sysmem t := by
  simp only [step] at h
  split at h
  · next hpersist =>
    cases h
    have hwriting := inv.persist
    simp only [PersistAbove, hpersist, List.append_nil] at hwriting
    obtain ⟨written, hwritten, hbytes⟩ := hwriting
    refine ⟨written, ?_, hbytes⟩
    simp only [Op.apply, hwritten]
    rw [Table.lookup_insert_eq, if_pos rfl]
  · cases h

private theorem lookup_step (hname : tmpName name ≠ name) (hlabel : label ≠ .rename)
    (h : step json floats sha256 name s label = some t) :
    t.files.lookup name = s.files.lookup name := by
  have hother : ∀ op : Op (List Char) UInt8, op.names = [tmpName name] →
      (op.apply s.files).lookup name = s.files.lookup name := by
    intro op hop
    refine Op.lookup_apply ?_
    rw [hop]
    exact fun hmem => hname (List.mem_singleton.mp hmem).symm
  cases label with
  | start cookbook readable | beginPersist | read | encode | writeFailed | renameFailed =>
    simp only [step] at h
    split at h <;> cases h <;> rfl
  | crash =>
    cases h
    rfl
  | update argsHash u =>
    obtain ⟨m, -, rfl⟩ := Option.map_eq_some_iff.mp h
    rfl
  | count counter =>
    obtain ⟨m, -, rfl⟩ := Option.map_eq_some_iff.mp h
    rfl
  | getHashMetrics argsHash =>
    obtain ⟨m, -, hstep⟩ := Option.bind_eq_some_iff.mp h
    obtain ⟨-, rfl⟩ := guarded_eq_some.mp hstep
    rfl
  | migrate cookbook =>
    obtain ⟨m, -, hstep⟩ := Option.bind_eq_some_iff.mp h
    obtain ⟨-, rfl⟩ := guarded_eq_some.mp hstep
    rfl
  | create =>
    simp only [step] at h
    split at h <;> cases h
    exact hother _ rfl
  | write chunk =>
    simp only [step] at h
    split at h
    · obtain ⟨-, rfl⟩ := guarded_eq_some.mp h
      exact hother _ rfl
    · cases h
  | rename => exact absurd rfl hlabel

private theorem up_step (hup : s.metrics ≠ none) (hlabel : label.Continues)
    (h : step json floats sha256 name s label = some t) : t.metrics ≠ none := by
  cases label with
  | crash | writeFailed | rename | renameFailed => exact absurd hlabel id
  | start cookbook readable =>
    simp only [step] at h
    split at h <;> cases h
    exact Option.some_ne_none _
  | beginPersist | read | encode | create =>
    simp only [step] at h
    split at h <;> cases h
    exact hup
  | update argsHash u | count counter =>
    obtain ⟨m, -, rfl⟩ := Option.map_eq_some_iff.mp h
    exact Option.some_ne_none _
  | getHashMetrics argsHash | migrate cookbook =>
    obtain ⟨m, -, hstep⟩ := Option.bind_eq_some_iff.mp h
    obtain ⟨-, rfl⟩ := guarded_eq_some.mp hstep
    exact Option.some_ne_none _
  | write chunk =>
    simp only [step] at h
    split at h
    · obtain ⟨-, rfl⟩ := guarded_eq_some.mp h
      exact hup
    · cases h

end

/-! ## Every run -/

section

variable {json floats sha256 name key} {vram sysmem : Nat} {s t : Node φ π}

private theorem liveAbove_exec {labels : List (Label π)}
    (inv : LiveAbove json name key vram sysmem s) (hup : s.metrics ≠ none)
    (hcontinues : ∀ label ∈ labels, label.Continues)
    (hsound : Along (step json floats sha256 name) (Sound json sha256 key) s labels)
    (h : exec (step json floats sha256 name) s labels = some t) :
    LiveAbove json name key vram sysmem t ∧ t.metrics ≠ none := by
  induction labels generalizing s with
  | nil =>
    cases h
    exact ⟨inv, hup⟩
  | cons label labels ih =>
    obtain ⟨u, hu, hrest⟩ := exec_cons_eq_some.mp h
    obtain ⟨hlabel, hlabels⟩ := List.forall_mem_cons.mp hcontinues
    have inv' := liveAbove_step inv (fun hdown => absurd hdown hup) hsound.1 hu
    exact ih inv' (up_step hup hlabel hu) hlabels (hsound.2 u hu) hrest

private theorem fileAbove_exec {labels : List (Label π)} (hname : tmpName name ≠ name)
    (inv : LiveAbove json name key vram sysmem s) (hfile : FileAbove json name key vram sysmem s)
    (hsound : Along (step json floats sha256 name) (Sound json sha256 key) s labels)
    (h : exec (step json floats sha256 name) s labels = some t) :
    LiveAbove json name key vram sysmem t ∧ FileAbove json name key vram sysmem t := by
  refine exec_invariant_along
    (P := fun s => LiveAbove json name key vram sysmem s ∧ FileAbove json name key vram sysmem s)
    (fun s label t hs hc hstep => ⟨liveAbove_step hs.1 (fun _ => hs.2) hc hstep, ?_⟩)
    ⟨inv, hfile⟩ hsound h
  by_cases hlabel : label = .rename
  · subst hlabel
    exact fileAbove_rename hs.1 hstep
  · obtain ⟨bytes, hbytes, habove⟩ := hs.2
    exact ⟨bytes, (lookup_step hname hlabel hstep).trans hbytes, habove⟩

end

/-! ## A crash after a persist -/

/-- The hash of some launch arguments. -/
def argsHash : String := "9f86d081884c7d65"

/-- Metrics with one sample of 100 and 200 MB. -/
def learned : NodeMetrics Unit where
  totals := fun _ => 0
  hashMetrics := AList.singleton argsHash
    { HashMetrics.default with peakVramMb := 100, peakSysmemMb := 200, sampleCount := 1 }

/-- Whole numbers in place of floats. -/
def wholeFloats : Floats Nat := ⟨fun latency requests => latency / requests, 0, (· * ·)⟩

/-- The name of a counter in the text. -/
def counterName : Counter → String
  | .requestsTotal => "requests_total"
  | .errorsTotal => "errors_total"
  | .queueDropsFull => "queue_drops_full"
  | .queueDropsTimeout => "queue_drops_timeout"
  | .queueDropsGlobalLimit => "queue_drops_global_limit"
  | .wedgedInstancesKilledTotal => "wedged_instances_killed_total"

/-- The names of the integers of a hash. -/
def integerNames : List String :=
  ["requests_total", "errors_total", "tokens_generated_total", "total_latency_ms",
    "p95_latency_ms", "peak_vram_mb", "peak_sysmem_mb", "sample_count"]

/-- One line `"name": value`. -/
def memberLine (indent : Nat) (name : String) (value : List Char) : List Char :=
  List.replicate indent ' ' ++ ['"'] ++ name.toList ++ ['"', ':', ' '] ++ value

/-- An object with its members on lines of their own. -/
def objectText (indent : Nat) (members : List (List Char)) : List Char :=
  "\x7b\n".toList ++ List.intercalate ",\n".toList members ++ ['\n'] ++
    List.replicate indent ' ' ++ "\x7d".toList

/-- The pretty text of a snapshot, with the integers of the hashes. -/
def snapshotText (s : MetricsSnapshot Nat Unit) : List UInt8 :=
  let totals := Counter.all.map fun counter =>
    memberLine 2 (counterName counter) (Nat.toDigits 10 (s.totals counter))
  let hashes := s.hashes.entries.map fun e =>
    memberLine 4 e.1 (objectText 4 ((integerNames.zip e.2.integers).map fun m =>
      memberLine 6 m.1 (Nat.toDigits 10 m.2)))
  (objectText 0 (totals ++ [memberLine 2 "hashes" (objectText 2 hashes)])).map
    fun c => c.toNat.toUInt8

/-- The snapshot of these metrics. -/
def learnedSnapshot : MetricsSnapshot Nat Unit :=
  learned.reads.foldl (fun s r => s.read wholeFloats learned r) .blank

/-- Its text can be read back, and a part of it cannot. -/
def learnedJson : Json Nat Unit where
  encode := snapshotText
  decode := fun bytes => if bytes = snapshotText learnedSnapshot then some learnedSnapshot else none

/-- A hash function. -/
def zeroSha256 : List UInt8 → Vector UInt8 32 := fun _ => Vector.replicate 32 0

/-- The step of that node. -/
def learnedStep : Node Nat Unit → Label Unit → Option (Node Nat Unit) :=
  step learnedJson wholeFloats zeroSha256 "metrics.json".toList

/-- A snapshot, while a larger sample comes in. -/
def scan : List (Label Unit) :=
  List.replicate 7 .read ++ [.update argsHash (.maxVram 300)] ++ List.replicate 9 .read

/-- Its text is written in two parts. -/
def writeText : List (Label Unit) :=
  [.create, .write ((snapshotText learnedSnapshot).take 9),
    .write ((snapshotText learnedSnapshot).drop 9)]

/-- The next persist does not get to its end, and the node starts again. -/
def crashed : List (Label Unit) := [.beginPersist, .read, .read, .crash, .start ⟨[]⟩ true]

private theorem along_of_quiet {labels : List (Label Unit)}
    (h : ∀ label ∈ labels, label.Keeps zeroSha256 argsHash ∧ label ≠ .encode)
    (s : Node Nat Unit) :
    Along learnedStep (Sound learnedJson zeroSha256 argsHash) s labels := by
  refine (along_of_forall_mem h s).mono fun s label hquiet => ?_
  exact ⟨hquiet.1, fun snapshot hencode => absurd hencode hquiet.2⟩

private theorem quiet_of_mem {label : Label Unit}
    (h : label ∈ .beginPersist :: scan ∨ label ∈ writeText ++ .rename :: crashed) :
    label.Keeps zeroSha256 argsHash ∧ label ≠ .encode := by
  have hcookbook : NotPrevious zeroSha256 ⟨[]⟩ argsHash := fun p hp => by cases hp
  simp only [scan, writeText, crashed, List.mem_append, List.mem_cons, List.mem_replicate,
    List.not_mem_nil, or_false] at h
  rcases h with (rfl | (⟨-, rfl⟩ | rfl) | ⟨-, rfl⟩) |
    ((rfl | rfl | rfl) | rfl | rfl | rfl | rfl | rfl | rfl)
  · exact ⟨trivial, fun h => by cases h⟩
  · exact ⟨trivial, fun h => by cases h⟩
  · exact ⟨trivial, fun h => by cases h⟩
  · exact ⟨trivial, fun h => by cases h⟩
  · exact ⟨trivial, fun h => by cases h⟩
  · exact ⟨trivial, fun h => by cases h⟩
  · exact ⟨trivial, fun h => by cases h⟩
  · exact ⟨trivial, fun h => by cases h⟩
  · exact ⟨trivial, fun h => by cases h⟩
  · exact ⟨trivial, fun h => by cases h⟩
  · exact ⟨trivial, fun h => by cases h⟩
  · exact ⟨trivial, fun h => by cases h⟩
  · exact ⟨⟨rfl, hcookbook⟩, fun h => by cases h⟩

private theorem decode_learned (bytes : List UInt8) : learnedJson.decode bytes =
    if bytes = snapshotText learnedSnapshot then some learnedSnapshot else none := rfl

private theorem readsBack_learned : learnedJson.ReadsBack learnedSnapshot := by
  refine ⟨learnedSnapshot, ?_, rfl, fun _ => rfl⟩
  rw [decode_learned]
  exact if_pos rfl

private theorem along_crashed :
    Along learnedStep (Sound learnedJson zeroSha256 argsHash) ⟨some learned, .idle, ∅⟩
      (.beginPersist :: ((scan ++ .encode :: writeText) ++ .rename :: crashed)) := by
  have hscan : exec learnedStep ⟨some learned, .idle, ∅⟩ (.beginPersist :: scan) = some _ := rfl
  have hencode : Along learnedStep (Sound learnedJson zeroSha256 argsHash)
      ⟨some learned, .idle, ∅⟩
      ((.beginPersist :: scan) ++ .encode :: (writeText ++ .rename :: crashed)) := by
    refine (along_append hscan).mpr
      ⟨along_of_quiet (fun label hlabel => quiet_of_mem (.inl hlabel)) _, ⟨trivial, ?_⟩,
        fun t _ => along_of_quiet (fun label hlabel => quiet_of_mem (.inr hlabel)) t⟩
    rintro snapshot - ⟨⟩
    exact readsBack_learned
  exact hencode

end Llamesh.Metrics.Durable
