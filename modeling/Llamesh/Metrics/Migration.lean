import Llamesh.Instance.ModelSource
import Llamesh.Library.Table
import Llamesh.Metrics.LegacyHash
import Llamesh.Metrics.Model

/-!
# Moving metrics to the new hashes

`migrate_args_hashes` (`src/metrics.rs:468–502`) copies what was kept under a
profile's previous hash to its new one, for every profile of the cookbook, and
then removes the previous entries. Several profiles may share a previous hash,
and their new hashes differ or not. Unless the previous bytes of one profile are
the new ones of another, each finds its entry, whatever the order.
-/

namespace Llamesh.Metrics

open Instance.ArgsHash

variable {π : Type} (sha256 : List UInt8 → Vector UInt8 32)

/-- The variables of the loop. `src/metrics.rs:470–471`. -/
structure Migration (π : Type) where
  migrated : Table String (HashMetrics π)
  legacyHashes : List String

/-- One profile's pair of hashes; `hashes` is the map as it was. `src/metrics.rs:477–486`. -/
def Migration.visit (hashes : Table String (HashMetrics π)) (s : Migration π)
    (legacy new : String) : Migration π :=
  if legacy ≠ new then
    match hashes.lookup legacy with
    | some metrics =>
      { migrated :=
          if new ∈ hashes then s.migrated
          -- `entry(new).or_insert_with(..)`
          else if new ∈ s.migrated then s.migrated
          else s.migrated.insert new metrics.cloneForMigration
        legacyHashes := s.legacyHashes.insert legacy }
    | none => s
  else s

/-- The arguments whose hashes a profile has had. `src/metrics.rs:474`. -/
def hashedArgs (profile : CookbookFile.Profile) : List String :=
  (buildPreArgs (launched profile)).1

/-- One profile, enabled or not. `src/metrics.rs:474–487`. -/
def Migration.profile (hashes : Table String (HashMetrics π)) (s : Migration π)
    (profile : CookbookFile.Profile) : Migration π :=
  s.visit hashes (legacyArgsHash sha256 (hashedArgs profile))
    (computeArgsHash sha256 (hashedArgs profile))

/-- The loops over the models and their profiles. `src/metrics.rs:472–489`. -/
def collectMigration (hashes : Table String (HashMetrics π)) (cookbook : CookbookFile.Cookbook) :
    Migration π :=
  cookbook.models.foldl (fun s model => model.profiles.foldl (Migration.profile sha256 hashes) s)
    ⟨∅, []⟩

/-- The map afterwards, and how many entries were copied. `src/metrics.rs:468–502`. -/
def migrateArgsHashes (hashes : Table String (HashMetrics π)) (cookbook : CookbookFile.Cookbook) :
    Table String (HashMetrics π) × Nat :=
  let s := collectMigration sha256 hashes cookbook
  let hashes := s.legacyHashes.foldl (fun hashes legacy => hashes.erase legacy) hashes
  (s.migrated.entries.foldl (fun hashes e => hashes.insert e.1 e.2) hashes, s.migrated.keys.length)

/-! ### What the loop collects -/

/-- Every profile of the cookbook. -/
def allProfiles (cookbook : CookbookFile.Cookbook) : List CookbookFile.Profile :=
  cookbook.models.flatMap (·.profiles)

/-- The hash a profile had. -/
def legacyOf (profile : CookbookFile.Profile) : String :=
  legacyArgsHash sha256 (hashedArgs profile)

/-- The hash a profile has. -/
def newOf (profile : CookbookFile.Profile) : String := computeArgsHash sha256 (hashedArgs profile)

private theorem collectMigration_eq (hashes : Table String (HashMetrics π))
    (cookbook : CookbookFile.Cookbook) :
    collectMigration sha256 hashes cookbook =
      (allProfiles cookbook).foldl (Migration.profile sha256 hashes) ⟨∅, []⟩ := by
  rw [collectMigration, allProfiles, List.foldl_flatMap]

/-- Where a profile's entry has to come from its previous hash. -/
def Moves (hashes : Table String (HashMetrics π)) (profile : CookbookFile.Profile) : Prop :=
  legacyOf sha256 profile ≠ newOf sha256 profile ∧ legacyOf sha256 profile ∈ hashes

/-- What was collected from the profiles `seen`: the previous hashes with an entry, and for each
new hash without one the entry of a profile that has it. -/
structure Collected (hashes : Table String (HashMetrics π)) (seen : List CookbookFile.Profile)
    (s : Migration π) : Prop where
  legacy : ∀ k, k ∈ s.legacyHashes ↔ ∃ p ∈ seen, Moves sha256 hashes p ∧ legacyOf sha256 p = k
  keys : ∀ k, k ∈ s.migrated ↔ k ∉ hashes ∧ ∃ p ∈ seen, Moves sha256 hashes p ∧ newOf sha256 p = k
  entries : ∀ k m, s.migrated.lookup k = some m →
    ∃ p ∈ seen, newOf sha256 p = k ∧ hashes.lookup (legacyOf sha256 p) = some m

variable {sha256} {hashes : Table String (HashMetrics π)}

private theorem profile_of_not_moves {s : Migration π} {p : CookbookFile.Profile}
    (h : ¬ Moves sha256 hashes p) : s.profile sha256 hashes p = s := by
  unfold Migration.profile Migration.visit
  split
  · next hne =>
    have hnone : hashes.lookup (legacyOf sha256 p) = none :=
      AList.lookup_eq_none.mpr fun hmem => h ⟨hne, hmem⟩
    rw [legacyOf] at hnone
    rw [hnone]
  · rfl

private theorem profile_of_moves {s : Migration π} {p : CookbookFile.Profile} {m : HashMetrics π}
    (h : Moves sha256 hashes p) (hm : hashes.lookup (legacyOf sha256 p) = some m) :
    s.profile sha256 hashes p =
      { migrated :=
          if newOf sha256 p ∈ hashes ∨ newOf sha256 p ∈ s.migrated then s.migrated
          else s.migrated.insert (newOf sha256 p) m
        legacyHashes := s.legacyHashes.insert (legacyOf sha256 p) } := by
  have hne : legacyArgsHash sha256 (hashedArgs p) ≠ computeArgsHash sha256 (hashedArgs p) := h.1
  rw [legacyOf] at hm
  unfold Migration.profile Migration.visit
  rw [if_pos hne, hm]
  dsimp only
  rw [HashMetrics.cloneForMigration_eq, ← ite_or]
  rfl

section

variable {seen : List CookbookFile.Profile} {p : CookbookFile.Profile} {key : String}

private theorem exists_moves_concat {f : CookbookFile.Profile → String}
    (hmoves : Moves sha256 hashes p) :
    (∃ q ∈ seen ++ [p], Moves sha256 hashes q ∧ f q = key) ↔
      key = f p ∨ ∃ q ∈ seen, Moves sha256 hashes q ∧ f q = key := by
  constructor
  · rintro ⟨q, hq, hmoves', hkey⟩
    rcases List.mem_append.mp hq with hq | hq
    · exact .inr ⟨q, hq, hmoves', hkey⟩
    · rw [List.mem_singleton.mp hq] at hkey
      exact .inl hkey.symm
  · rintro (hkey | ⟨q, hq, hmoves', hkey⟩)
    · exact ⟨p, by simp, hmoves, hkey.symm⟩
    · exact ⟨q, List.mem_append_left _ hq, hmoves', hkey⟩

private theorem exists_moves_concat_of_not {f : CookbookFile.Profile → String}
    (hmoves : ¬ Moves sha256 hashes p) :
    (∃ q ∈ seen ++ [p], Moves sha256 hashes q ∧ f q = key) ↔
      ∃ q ∈ seen, Moves sha256 hashes q ∧ f q = key := by
  constructor
  · rintro ⟨q, hq, hmoves', hkey⟩
    rcases List.mem_append.mp hq with hq | hq
    · exact ⟨q, hq, hmoves', hkey⟩
    · rw [List.mem_singleton.mp hq] at hmoves'
      exact absurd hmoves' hmoves
  · rintro ⟨q, hq, hmoves', hkey⟩
    exact ⟨q, List.mem_append_left _ hq, hmoves', hkey⟩

/-- One profile more. -/
theorem Collected.profile {s : Migration π} (h : Collected sha256 hashes seen s)
    (p : CookbookFile.Profile) :
    Collected sha256 hashes (seen ++ [p]) (s.profile sha256 hashes p) := by
  by_cases hmoves : Moves sha256 hashes p
  · obtain ⟨m, hm⟩ := Option.isSome_iff_exists.mp (AList.lookup_isSome.mpr hmoves.2)
    rw [profile_of_moves hmoves hm]
    constructor
    · intro k
      rw [List.mem_insert_iff, h.legacy, exists_moves_concat hmoves]
    · intro k
      rw [exists_moves_concat hmoves]
      dsimp only
      split
      · next hstays =>
        rw [h.keys]
        constructor
        · exact fun ⟨hk, hex⟩ => ⟨hk, .inr hex⟩
        · rintro ⟨hk, rfl | hex⟩
          · exact (h.keys _).mp (hstays.resolve_left hk)
          · exact ⟨hk, hex⟩
      · next hadds =>
        rw [not_or] at hadds
        rw [AList.mem_insert, h.keys]
        constructor
        · rintro (rfl | ⟨hk, hex⟩)
          · exact ⟨hadds.1, .inl rfl⟩
          · exact ⟨hk, .inr hex⟩
        · rintro ⟨hk, rfl | hex⟩
          · exact .inl rfl
          · exact .inr ⟨hk, hex⟩
    · intro k m' hlookup
      dsimp only at hlookup
      split at hlookup
      · obtain ⟨q, hq, hqk⟩ := h.entries k m' hlookup
        exact ⟨q, List.mem_append_left _ hq, hqk⟩
      · rcases Table.lookup_insert_eq_some.mp hlookup with ⟨rfl, rfl⟩ | ⟨-, hlookup⟩
        · exact ⟨p, by simp, rfl, hm⟩
        · obtain ⟨q, hq, hqk⟩ := h.entries k m' hlookup
          exact ⟨q, List.mem_append_left _ hq, hqk⟩
  · rw [profile_of_not_moves hmoves]
    constructor
    · intro k
      rw [h.legacy, exists_moves_concat_of_not hmoves]
    · intro k
      rw [h.keys, exists_moves_concat_of_not hmoves]
    · intro k m hlookup
      obtain ⟨q, hq, hqk⟩ := h.entries k m hlookup
      exact ⟨q, List.mem_append_left _ hq, hqk⟩

end

/-- All profiles. -/
theorem collected (sha256 : List UInt8 → Vector UInt8 32) (hashes : Table String (HashMetrics π))
    (cookbook : CookbookFile.Cookbook) :
    Collected sha256 hashes (allProfiles cookbook) (collectMigration sha256 hashes cookbook) := by
  have hrun : ∀ (rest seen : List CookbookFile.Profile) (s : Migration π),
      Collected sha256 hashes seen s →
        Collected sha256 hashes (seen ++ rest)
          (rest.foldl (Migration.profile sha256 hashes) s) := by
    intro rest
    induction rest with
    | nil =>
      intro seen s h
      rwa [List.append_nil]
    | cons p rest ih =>
      intro seen s h
      rw [List.foldl_cons, ← List.singleton_append, ← List.append_assoc]
      exact ih (seen ++ [p]) _ (h.profile p)
  rw [collectMigration_eq]
  exact hrun _ [] _ ⟨by simp, by simp, by simp⟩

/-- An entry afterwards is a copied one, or one that was not removed. -/
theorem lookup_migrateArgsHashes (hashes : Table String (HashMetrics π))
    (cookbook : CookbookFile.Cookbook) (k : String) :
    (migrateArgsHashes sha256 hashes cookbook).1.lookup k =
      ((collectMigration sha256 hashes cookbook).migrated.lookup k).or
        (if k ∈ (collectMigration sha256 hashes cookbook).legacyHashes then none
          else hashes.lookup k) := by
  have hextend := Table.lookup_foldl_insertSome
    (collectMigration sha256 hashes cookbook).migrated
    ((collectMigration sha256 hashes cookbook).legacyHashes.foldl
      (fun hashes legacy => hashes.erase legacy) hashes) (fun _ m => some m) k
  rw [Table.lookup_foldl_erase] at hextend
  simpa [migrateArgsHashes, Table.insertSome] using hextend

/-! ### What the hashes of a cookbook have to keep apart -/

/-- The bytes that are hashed for the profiles, now or before, have different hashes. -/
def DistinctHashes (sha256 : List UInt8 → Vector UInt8 32) (cookbook : CookbookFile.Cookbook) :
    Prop :=
  Set.InjOn (hexDigest sha256) {bytes | ∃ p ∈ allProfiles cookbook,
    bytes = legacyPreimage (hashedArgs p) ∨ bytes = preimage (hashedArgs p)}

/-- No profile's previous bytes are the new ones of another. -/
def Separated (cookbook : CookbookFile.Cookbook) : Prop :=
  ∀ p ∈ allProfiles cookbook, ∀ q ∈ allProfiles cookbook,
    legacyPreimage (hashedArgs p) ≠ preimage (hashedArgs p) →
      legacyPreimage (hashedArgs p) ≠ preimage (hashedArgs q)

/-- The arguments of every profile are as the process holds them: no allocation exceeds
`isize::MAX` bytes. -/
def Held (cookbook : CookbookFile.Cookbook) : Prop :=
  ∀ p ∈ allProfiles cookbook, ∃ a : ArgList, a.args = hashedArgs p

private theorem separated_of_nulFree {cookbook : CookbookFile.Cookbook} (hheld : Held cookbook)
    (h : ∀ p ∈ allProfiles cookbook, NulFree (hashedArgs p)) : Separated cookbook := by
  intro p hp q hq hne
  obtain ⟨a, ha⟩ := hheld p hp
  obtain ⟨b, hb⟩ := hheld q hq
  have hnula := h p hp
  have hnulb := h q hq
  rw [← ha] at hnula hne ⊢
  rw [← hb] at hnulb ⊢
  exact legacyPreimage_ne_preimage hnula hnulb hne

/-- What this says of the hashes: a previous one is no new one, and a new one determines the
previous. -/
structure HashesFit (sha256 : List UInt8 → Vector UInt8 32) (cookbook : CookbookFile.Cookbook) :
    Prop where
  apart : ∀ p ∈ allProfiles cookbook, ∀ q ∈ allProfiles cookbook,
    legacyOf sha256 p ≠ newOf sha256 p → legacyOf sha256 p ≠ newOf sha256 q
  determined : ∀ p ∈ allProfiles cookbook, ∀ q ∈ allProfiles cookbook,
    newOf sha256 p = newOf sha256 q → legacyOf sha256 p = legacyOf sha256 q

private theorem hashesFit {cookbook : CookbookFile.Cookbook} (hheld : Held cookbook)
    (hdistinct : DistinctHashes sha256 cookbook) (hsep : Separated cookbook) :
    HashesFit sha256 cookbook := by
  constructor
  · intro p hp q hq hne heq
    refine hsep p hp q hq (fun hbytes => hne ?_)
      (hdistinct ⟨p, hp, .inl rfl⟩ ⟨q, hq, .inr rfl⟩ heq)
    rw [legacyOf, legacyArgsHash, hbytes, newOf, computeArgsHash_eq]
  · intro p hp q hq heq
    have hbytes : preimage (hashedArgs p) = preimage (hashedArgs q) :=
      hdistinct ⟨p, hp, .inr rfl⟩ ⟨q, hq, .inr rfl⟩ heq
    obtain ⟨a, ha⟩ := hheld p hp
    obtain ⟨b, hb⟩ := hheld q hq
    rw [← ha, ← hb] at hbytes
    rw [legacyOf, legacyOf, legacyArgsHash, legacyArgsHash, ← ha, ← hb,
      legacyPreimage_eq_of_preimage_eq hbytes]

/-! ### The migrated map -/

/-- What `migrate_args_hashes` is for. -/
structure Migrated (sha256 : List UInt8 → Vector UInt8 32) (cookbook : CookbookFile.Cookbook)
    (before after : Table String (HashMetrics π)) : Prop where
  new : ∀ p ∈ allProfiles cookbook, after.lookup (newOf sha256 p) =
    (before.lookup (newOf sha256 p)).or (before.lookup (legacyOf sha256 p))
  legacy : ∀ p ∈ allProfiles cookbook, legacyOf sha256 p ≠ newOf sha256 p →
    after.lookup (legacyOf sha256 p) = none
  others : ∀ k, (∀ p ∈ allProfiles cookbook, k ≠ newOf sha256 p ∧ k ≠ legacyOf sha256 p) →
    after.lookup k = before.lookup k

section

variable {cookbook : CookbookFile.Cookbook} {p : CookbookFile.Profile}

private theorem HashesFit.new_notMem_legacyHashes (hfit : HashesFit sha256 cookbook)
    (hp : p ∈ allProfiles cookbook) :
    newOf sha256 p ∉ (collectMigration sha256 hashes cookbook).legacyHashes := by
  rw [(collected sha256 hashes cookbook).legacy]
  rintro ⟨q, hq, hmoves, heq⟩
  exact hfit.apart q hq p hp hmoves.1 heq

private theorem HashesFit.legacy_notMem_migrated (hfit : HashesFit sha256 cookbook)
    (hp : p ∈ allProfiles cookbook) (hne : legacyOf sha256 p ≠ newOf sha256 p) :
    legacyOf sha256 p ∉ (collectMigration sha256 hashes cookbook).migrated := by
  rw [(collected sha256 hashes cookbook).keys]
  rintro ⟨-, q, hq, -, heq⟩
  exact hfit.apart p hp q hq hne heq.symm

/-- The copied entry under a profile's new hash, where there was none. -/
theorem HashesFit.lookup_migrated (hfit : HashesFit sha256 cookbook)
    (hp : p ∈ allProfiles cookbook) (hnone : hashes.lookup (newOf sha256 p) = none) :
    (collectMigration sha256 hashes cookbook).migrated.lookup (newOf sha256 p) =
      hashes.lookup (legacyOf sha256 p) := by
  have hcollected := collected sha256 hashes cookbook
  cases hmigrated : (collectMigration sha256 hashes cookbook).migrated.lookup (newOf sha256 p) with
  | some m =>
    obtain ⟨q, hq, hnew, hlookup⟩ := hcollected.entries _ m hmigrated
    rw [← hfit.determined q hq p hp hnew, hlookup]
  | none =>
    have hnotMem := AList.lookup_eq_none.mp hmigrated
    rw [hcollected.keys] at hnotMem
    by_cases heq : legacyOf sha256 p = newOf sha256 p
    · rw [heq, hnone]
    · symm
      rw [AList.lookup_eq_none]
      exact fun hmem => hnotMem ⟨AList.lookup_eq_none.mp hnone, p, hp, ⟨heq, hmem⟩, rfl⟩

private theorem migrated_of_hashesFit (hfit : HashesFit sha256 cookbook)
    (hashes : Table String (HashMetrics π)) :
    Migrated sha256 cookbook hashes (migrateArgsHashes sha256 hashes cookbook).1 := by
  have hcollected := collected sha256 hashes cookbook
  constructor
  · intro p hp
    rw [lookup_migrateArgsHashes, if_neg (hfit.new_notMem_legacyHashes hp)]
    cases hbefore : hashes.lookup (newOf sha256 p) with
    | none => rw [hfit.lookup_migrated hp hbefore, Option.or_none, Option.none_or]
    | some m =>
      -- an entry that is there is neither replaced nor removed
      have hmem : newOf sha256 p ∈ hashes := AList.lookup_isSome.mp (by rw [hbefore]; rfl)
      have hnotMem : newOf sha256 p ∉ (collectMigration sha256 hashes cookbook).migrated :=
        fun hkey => ((hcollected.keys _).mp hkey).1 hmem
      rw [AList.lookup_eq_none.mpr hnotMem, Option.none_or, Option.some_or]
  · intro p hp hne
    rw [lookup_migrateArgsHashes, AList.lookup_eq_none.mpr (hfit.legacy_notMem_migrated hp hne),
      Option.none_or]
    split
    · rfl
    · next hlegacy =>
      rw [hcollected.legacy] at hlegacy
      rw [AList.lookup_eq_none]
      exact fun hmem => hlegacy ⟨p, hp, ⟨hne, hmem⟩, rfl⟩
  · intro k hk
    have hmigrated : k ∉ (collectMigration sha256 hashes cookbook).migrated := by
      rw [hcollected.keys]
      rintro ⟨-, p, hp, -, heq⟩
      exact (hk p hp).1 heq.symm
    have hlegacy : k ∉ (collectMigration sha256 hashes cookbook).legacyHashes := by
      rw [hcollected.legacy]
      rintro ⟨p, hp, -, heq⟩
      exact (hk p hp).2 heq.symm
    rw [lookup_migrateArgsHashes, AList.lookup_eq_none.mpr hmigrated, if_neg hlegacy,
      Option.none_or]

/-- Where no profile has an entry under its previous hash, there is nothing to do. -/
theorem migrateArgsHashes_of_settled
    (h : ∀ p ∈ allProfiles cookbook, ¬ Moves sha256 hashes p) :
    migrateArgsHashes sha256 hashes cookbook = (hashes, 0) := by
  have hrun : ∀ ps : List CookbookFile.Profile, (∀ p ∈ ps, ¬ Moves sha256 hashes p) →
      ∀ s : Migration π, ps.foldl (Migration.profile sha256 hashes) s = s := by
    intro ps
    induction ps with
    | nil => exact fun _ s => rfl
    | cons p ps ih =>
      intro hps s
      rw [List.foldl_cons, profile_of_not_moves (hps p List.mem_cons_self)]
      exact ih (fun q hq => hps q (List.mem_cons_of_mem p hq)) s
  rw [migrateArgsHashes, collectMigration_eq, hrun _ h]
  rfl

/-- The entries afterwards are determined. -/
theorem Migrated.lookup_eq {before after after' : Table String (HashMetrics π)}
    (h : Migrated sha256 cookbook before after) (h' : Migrated sha256 cookbook before after')
    (k : String) : after.lookup k = after'.lookup k := by
  by_cases hnew : ∃ p ∈ allProfiles cookbook, k = newOf sha256 p
  · obtain ⟨p, hp, rfl⟩ := hnew
    rw [h.new p hp, h'.new p hp]
  by_cases hlegacy : ∃ p ∈ allProfiles cookbook, k = legacyOf sha256 p
  · obtain ⟨p, hp, rfl⟩ := hlegacy
    have hne : legacyOf sha256 p ≠ newOf sha256 p := fun heq => hnew ⟨p, hp, heq⟩
    rw [h.legacy p hp hne, h'.legacy p hp hne]
  · push Not at hnew hlegacy
    rw [h.others k fun p hp => ⟨hnew p hp, hlegacy p hp⟩,
      h'.others k fun p hp => ⟨hnew p hp, hlegacy p hp⟩]

/-- As many entries are copied as there are new hashes with none and a previous entry. -/
theorem count_eq {cookbook' : CookbookFile.Cookbook}
    (hsame : ∀ p, p ∈ allProfiles cookbook' ↔ p ∈ allProfiles cookbook) :
    (migrateArgsHashes sha256 hashes cookbook').2 =
      (migrateArgsHashes sha256 hashes cookbook).2 := by
  have hkeys : ∀ k, k ∈ (collectMigration sha256 hashes cookbook').migrated.keys ↔
      k ∈ (collectMigration sha256 hashes cookbook).migrated.keys := by
    intro k
    rw [← AList.mem_keys, ← AList.mem_keys, (collected sha256 hashes cookbook').keys,
      (collected sha256 hashes cookbook).keys]
    simp only [hsame]
  exact ((List.perm_ext_iff_of_nodup (AList.keys_nodup _) (AList.keys_nodup _)).mpr hkeys).length_eq

end

/-- After the migration each profile's new hash has the entry it had or else a copy of the previous
one, no previous hash has an entry, and nothing else has changed. A second run changes nothing, and
the order of the profiles does not matter. -/
theorem migrateArgsHashes_exact (cookbook : CookbookFile.Cookbook)
    (hashes : Table String (HashMetrics π)) (hheld : Held cookbook)
    (hdistinct : DistinctHashes sha256 cookbook) (hsep : Separated cookbook) :
    Migrated sha256 cookbook hashes (migrateArgsHashes sha256 hashes cookbook).1 ∧
    migrateArgsHashes sha256 (migrateArgsHashes sha256 hashes cookbook).1 cookbook =
      ((migrateArgsHashes sha256 hashes cookbook).1, 0) ∧
    ∀ cookbook', (∀ p, p ∈ allProfiles cookbook' ↔ p ∈ allProfiles cookbook) →
      (∀ k, (migrateArgsHashes sha256 hashes cookbook').1.lookup k =
        (migrateArgsHashes sha256 hashes cookbook).1.lookup k) ∧
      (migrateArgsHashes sha256 hashes cookbook').2 =
        (migrateArgsHashes sha256 hashes cookbook).2 := by
  have hfit := hashesFit hheld hdistinct hsep
  have hmigrated := migrated_of_hashesFit hfit hashes
  refine ⟨hmigrated, migrateArgsHashes_of_settled fun p hp hmoves => ?_, fun cookbook' hsame =>
    ⟨fun k => ?_, count_eq hsame⟩⟩
  · exact AList.lookup_eq_none.mp (hmigrated.legacy p hp hmoves.1) hmoves.2
  · have hfit' : HashesFit sha256 cookbook' :=
      ⟨fun p hp q hq => hfit.apart p ((hsame p).mp hp) q ((hsame q).mp hq),
        fun p hp q hq => hfit.determined p ((hsame p).mp hp) q ((hsame q).mp hq)⟩
    have hmigrated' := migrated_of_hashesFit hfit' hashes
    refine Migrated.lookup_eq ?_ hmigrated k
    exact ⟨fun p hp => hmigrated'.new p ((hsame p).mpr hp),
      fun p hp => hmigrated'.legacy p ((hsame p).mpr hp),
      fun k hk => hmigrated'.others k fun p hp => hk p ((hsame p).mp hp)⟩

/-! ### A profile whose entry moves -/

/-- A profile that gives every option itself. -/
def servedProfile : CookbookFile.Profile where
  id := "default"
  llamaServerArgs := ["--fit", "off", "-c", "0", "-m", "m.gguf"]

/-- The profile alone. -/
def servedCookbook : CookbookFile.Cookbook := ⟨[⟨"served", true, [servedProfile]⟩]⟩

/-- The bytes that were hashed for `servedProfile`. -/
def servedLegacyBytes : List UInt8 := [45, 45, 102, 105, 116, 0, 45, 99, 0, 45, 109, 0, 48, 0, 109,
  46, 103, 103, 117, 102, 0, 111, 102, 102, 0]

/-- SHA-256 of the two byte strings that are hashed for `servedProfile`. -/
def servedSha256 (bytes : List UInt8) : Vector UInt8 32 :=
  if bytes = servedLegacyBytes then
    #v[215, 84, 4, 97, 170, 97, 250, 230, 131, 22, 249, 97, 114, 152, 135, 24, 183, 106, 76, 54,
      125, 153, 192, 51, 140, 27, 206, 0, 142, 29, 195, 99]
  else
    #v[231, 131, 119, 54, 156, 52, 107, 95, 139, 122, 78, 83, 13, 214, 73, 56, 3, 20, 186, 217,
      210, 160, 22, 35, 41, 125, 245, 167, 231, 88, 199, 106]

private theorem hashedArgs_served :
    hashedArgs servedProfile = ["--fit", "off", "-c", "0", "-m", "m.gguf"] := by decide

private theorem legacyPreimage_served :
    legacyPreimage (hashedArgs servedProfile) = servedLegacyBytes := by
  have htokens : sortedTokens (hashedArgs servedProfile) =
      ["--fit", "-c", "-m", "0", "m.gguf", "off"] := by
    rw [hashedArgs_served]
    exact sortedTokens_eq (by decide) (by decide)
  rw [legacyPreimage, htokens]
  decide

/-- Groups that are given in order are hashed in order. -/
theorem preimage_of_sorted {args : List String} {groups : List (List String)}
    (hgroups : optionGroups args = groups)
    (hsorted : groups.Pairwise fun g h => decide (g ≤ h) = true) :
    preimage args = groups.flatMap encodeGroup := by
  rw [preimage, collectGroups_eq, hgroups, sortGroups, List.mergeSort_of_pairwise hsorted]

private theorem preimage_served : preimage (hashedArgs servedProfile) ≠ servedLegacyBytes := by
  have hgroups : optionGroups (hashedArgs servedProfile) =
      [["--fit", "off"], ["-c", "0"], ["-m", "m.gguf"]] := by
    rw [hashedArgs_served]
    decide
  rw [preimage_of_sorted hgroups (by decide)]
  decide

private theorem legacyOf_served : legacyOf servedSha256 servedProfile = "d7540461aa61fae6" := by
  rw [legacyOf, legacyArgsHash, legacyPreimage_served, hexDigest, servedSha256, if_pos rfl]
  decide

private theorem newOf_served : newOf servedSha256 servedProfile = "e78377369c346b5f" := by
  rw [newOf, computeArgsHash_eq, hexDigest, servedSha256, if_neg preimage_served]
  decide

private theorem held_served : Held servedCookbook := by
  intro p hp
  obtain rfl := List.mem_singleton.mp hp
  exact ⟨⟨_, by decide, by decide⟩, hashedArgs_served.symm⟩

private theorem distinctHashes_served : DistinctHashes servedSha256 servedCookbook := by
  have hlegacy := legacyOf_served
  have hnew := newOf_served
  rw [legacyOf, legacyArgsHash] at hlegacy
  rw [newOf, computeArgsHash_eq] at hnew
  rintro a ⟨p, hp, ha⟩ b ⟨q, hq, hb⟩ heq
  obtain rfl := List.mem_singleton.mp hp
  obtain rfl := List.mem_singleton.mp hq
  rcases ha with rfl | rfl <;> rcases hb with rfl | rfl
  · rfl
  · rw [hlegacy, hnew] at heq
    exact absurd heq (by decide)
  · rw [hlegacy, hnew] at heq
    exact absurd heq (by decide)
  · rfl

/-- The only entry moves to the new hash. -/
theorem migrateArgsHashes_served :
    Held servedCookbook ∧ DistinctHashes servedSha256 servedCookbook ∧ Separated servedCookbook ∧
      (migrateArgsHashes servedSha256
        (AList.singleton "d7540461aa61fae6" (HashMetrics.default : HashMetrics Unit))
        servedCookbook).1.lookup "e78377369c346b5f" = some HashMetrics.default := by
  have hsep : Separated servedCookbook := by
    refine separated_of_nulFree held_served fun p hp => ?_
    obtain rfl := List.mem_singleton.mp hp
    rw [hashedArgs_served]
    exact nulFree_of_all (by decide)
  have hmigrated := (migrateArgsHashes_exact servedCookbook
    (AList.singleton "d7540461aa61fae6" (HashMetrics.default : HashMetrics Unit)) held_served
    distinctHashes_served hsep).1.new servedProfile List.mem_cons_self
  rw [newOf_served, legacyOf_served] at hmigrated
  exact ⟨held_served, distinctHashes_served, hsep, hmigrated⟩

/-! ### Previous bytes that are new ones -/

/-- Options that `--host` hides from both hashes, so that no default is appended. -/
def hiddenArgs : List String := ["--host", "-m", "--host", "-c", "--host", "--fit"]

/-- A profile whose previous bytes are the new ones of `otherProfile`: NUL characters stand where
a length is written. -/
def nulProfile : CookbookFile.Profile where
  id := "a"
  llamaServerArgs := hiddenArgs ++ ["", "", "", "", "", "", "",
    "\x01\x00\x00\x00\x00\x00\x00\x00\x02-"]

/-- A profile with one argument. -/
def otherProfile : CookbookFile.Profile where
  id := "b"
  llamaServerArgs := hiddenArgs ++ ["-\x00"]

def nulCookbook : CookbookFile.Cookbook := ⟨[⟨"nul", true, [nulProfile, otherProfile]⟩]⟩

/-- The bytes of both profiles. -/
def sharedBytes : List UInt8 := [0, 0, 0, 0, 0, 0, 0, 1, 0, 0, 0, 0, 0, 0, 0, 2, 45, 0]

/-- SHA-256 of the three byte strings that are hashed for the two profiles. -/
def nulSha256 (bytes : List UInt8) : Vector UInt8 32 :=
  if bytes = sharedBytes then
    #v[220, 107, 140, 138, 84, 183, 190, 133, 82, 21, 239, 102, 190, 125, 157, 90, 229, 39, 32,
      189, 47, 167, 84, 98, 210, 14, 118, 175, 204, 245, 158, 62]
  else if bytes = [45, 0, 0] then
    #v[40, 23, 205, 192, 120, 152, 213, 160, 156, 120, 96, 204, 17, 113, 48, 112, 79, 39, 185, 226,
      84, 212, 249, 24, 72, 196, 141, 220, 18, 254, 251, 205]
  else
    #v[17, 74, 198, 104, 78, 70, 23, 114, 73, 31, 162, 77, 254, 149, 5, 124, 10, 110, 44, 222, 160,
      57, 232, 252, 53, 210, 245, 174, 122, 128, 81, 231]

private theorem legacyPreimage_nul : legacyPreimage (hashedArgs nulProfile) = sharedBytes := by
  have htokens : sortedTokens (hashedArgs nulProfile) =
      ["", "", "", "", "", "", "", "\x01\x00\x00\x00\x00\x00\x00\x00\x02-"] :=
    sortedTokens_eq (by decide) (by decide)
  rw [legacyPreimage, htokens]
  decide

private theorem preimage_nul : (preimage (hashedArgs nulProfile)).length = 138 := by
  have hgroups : optionGroups (hashedArgs nulProfile) = [[""], [""], [""], [""], [""], [""], [""],
      ["\x01\x00\x00\x00\x00\x00\x00\x00\x02-"]] := by decide
  rw [preimage_of_sorted hgroups (by decide)]
  decide +kernel

private theorem legacyPreimage_other : legacyPreimage (hashedArgs otherProfile) = [45, 0, 0] := by
  have htokens : sortedTokens (hashedArgs otherProfile) = ["-\x00"] :=
    sortedTokens_eq (by decide) (by decide)
  rw [legacyPreimage, htokens]
  decide

private theorem preimage_other : preimage (hashedArgs otherProfile) = sharedBytes := by
  have hgroups : optionGroups (hashedArgs otherProfile) = [["-\x00"]] := by decide
  rw [preimage_of_sorted hgroups (by decide)]
  decide

/-- The four hashes; two of them are the same. -/
theorem hashes_nul :
    legacyOf nulSha256 nulProfile = "dc6b8c8a54b7be85" ∧
      newOf nulSha256 nulProfile = "114ac6684e461772" ∧
      legacyOf nulSha256 otherProfile = "2817cdc07898d5a0" ∧
      newOf nulSha256 otherProfile = "dc6b8c8a54b7be85" := by
  have hshared : preimage (hashedArgs nulProfile) ≠ sharedBytes := fun h =>
    absurd (h ▸ preimage_nul) (by decide)
  have hthree : preimage (hashedArgs nulProfile) ≠ [45, 0, 0] := fun h =>
    absurd (h ▸ preimage_nul) (by decide)
  refine ⟨?_, ?_, ?_, ?_⟩
  · rw [legacyOf, legacyArgsHash, legacyPreimage_nul, hexDigest, nulSha256, if_pos rfl]
    decide
  · rw [newOf, computeArgsHash_eq, hexDigest, nulSha256, if_neg hshared, if_neg hthree]
    decide
  · rw [legacyOf, legacyArgsHash, legacyPreimage_other, hexDigest, nulSha256,
      if_neg (by decide), if_pos rfl]
    decide
  · rw [newOf, computeArgsHash_eq, preimage_other, hexDigest, nulSha256, if_pos rfl]
    decide

private theorem distinctHashes_nul : DistinctHashes nulSha256 nulCookbook := by
  obtain ⟨hlegacy, hnew, hlegacy', hnew'⟩ := hashes_nul
  rw [legacyOf, legacyArgsHash] at hlegacy hlegacy'
  rw [newOf, computeArgsHash_eq] at hnew hnew'
  -- three byte strings, as the two that are the same are one
  have hbytes : ∀ bytes, (∃ p ∈ allProfiles nulCookbook,
      bytes = legacyPreimage (hashedArgs p) ∨ bytes = preimage (hashedArgs p)) →
      bytes = legacyPreimage (hashedArgs nulProfile) ∨ bytes = preimage (hashedArgs nulProfile) ∨
        bytes = legacyPreimage (hashedArgs otherProfile) := by
    rintro bytes ⟨p, hp, h⟩
    rcases List.mem_pair.mp hp with rfl | rfl
    · exact h.elim .inl fun h => .inr (.inl h)
    · rcases h with h | h
      · exact .inr (.inr h)
      · exact .inl (h.trans (preimage_other.trans legacyPreimage_nul.symm))
  intro a ha b hb heq
  rcases hbytes a ha with rfl | rfl | rfl <;> rcases hbytes b hb with rfl | rfl | rfl
  all_goals first
    | rfl
    | rw [hlegacy, hnew] at heq
      exact absurd heq (by decide)
    | rw [hlegacy, hlegacy'] at heq
      exact absurd heq (by decide)
    | rw [hnew, hlegacy'] at heq
      exact absurd heq (by decide)

/-- The entry under the new hash of `otherProfile`. -/
def otherEntry : Table String (HashMetrics Unit) :=
  AList.singleton "dc6b8c8a54b7be85" HashMetrics.default

/-- The entry of `otherProfile` is under its new hash and is lost, as the hash is the previous one
of `nulProfile`. -/
theorem migrateArgsHashes_loses_entry :
    Held nulCookbook ∧ DistinctHashes nulSha256 nulCookbook ∧
      otherProfile ∈ allProfiles nulCookbook ∧
      otherEntry.lookup (newOf nulSha256 otherProfile) = some HashMetrics.default ∧
      (migrateArgsHashes nulSha256 otherEntry nulCookbook).1.lookup
        (newOf nulSha256 otherProfile) = none := by
  obtain ⟨hlegacy, hnew, -, hnew'⟩ := hashes_nul
  have hentry : otherEntry.lookup (newOf nulSha256 otherProfile) = some HashMetrics.default := by
    rw [hnew']
    rfl
  have hmem : newOf nulSha256 otherProfile ∈ otherEntry :=
    AList.lookup_isSome.mp (by rw [hentry]; rfl)
  have hheld : Held nulCookbook := by
    intro p hp
    rcases List.mem_pair.mp hp with rfl | rfl
    · exact ⟨⟨hashedArgs nulProfile, by decide, by decide⟩, rfl⟩
    · exact ⟨⟨hashedArgs otherProfile, by decide, by decide⟩, rfl⟩
  refine ⟨hheld, distinctHashes_nul, by decide, hentry, ?_⟩
  have hcollected := collected nulSha256 otherEntry nulCookbook
  have hmoves : Moves nulSha256 otherEntry nulProfile := by
    refine ⟨?_, ?_⟩
    · rw [hlegacy, hnew]
      decide
    · rwa [hlegacy, ← hnew']
  have hremoved : newOf nulSha256 otherProfile ∈
      (collectMigration nulSha256 otherEntry nulCookbook).legacyHashes :=
    (hcollected.legacy _).mpr ⟨nulProfile, by decide, hmoves, hlegacy.trans hnew'.symm⟩
  have hkept : newOf nulSha256 otherProfile ∉
      (collectMigration nulSha256 otherEntry nulCookbook).migrated :=
    fun hkey => ((hcollected.keys _).mp hkey).1 hmem
  rw [lookup_migrateArgsHashes, AList.lookup_eq_none.mpr hkept, if_pos hremoved, Option.none_or]

end Llamesh.Metrics
