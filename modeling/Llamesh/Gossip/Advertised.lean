import Llamesh.Config.Cookbook
import Llamesh.Gossip.OwnEntry

/-!
# Local resolution and the advertised models

`build_model_index` and `resolve` (`src/node_state/model_index.rs:11–62`) against what the node
tells its peers (`src/node_state/mod.rs:3347–3371`) and how a peer reads that
(`src/node_state/mod.rs:942–945,4378–4385`). The index compares lower-case keys, the peers compare
texts up to ASCII case: the two agree on a request exactly when no enabled pair is equal to it in
the first way only.
-/

namespace Llamesh.Gossip

open CookbookFile

/-- The parts of a request before and after its first `:`, up to the next one; the profile is
`default` without one. `src/node_state/model_index.rs:55–57`, `src/node_state/mod.rs:943–945`. -/
def splitRequest (request : String) : String × String :=
  match request.toList.splitOn ':' with
  | base :: profileId :: _ => (String.ofList base, String.ofList profileId)
  | base :: [] => (String.ofList base, "default")
  | [] => ("", "default")

variable (tables : Text.CaseTables)

/-- The definition of every lower-case key. -/
abbrev ModelIndex := Table String (String × Profile)

/-- The rounds of the inner loop. -/
def indexModel (index : ModelIndex) (model : Model) : ModelIndex :=
  if !model.enabled then index
  else model.profiles.foldl (fun index profile =>
    if !profile.enabled then index
    else index.insert (lowerKey tables model.name profile.id) (model.name, profile)) index

/-- The enabled profiles by their lower-case names. `src/node_state/model_index.rs:11–30`. -/
def buildModelIndex (cookbook : Cookbook) : ModelIndex :=
  cookbook.models.foldl (indexModel tables) ∅

/-- What a request is resolved to. `src/node_state/model_index.rs:54–62`. -/
def resolve (index : ModelIndex) (request : String) : Option (String × Profile) :=
  index.lookup (lowerKey tables (splitRequest request).1 (splitRequest request).2)

/-- The models of the node's gossip messages. `src/node_state/mod.rs:3347–3371`. -/
def supportedModels (defaults : Config.ModelDefaults) (cookbook : Cookbook) : List String :=
  (cookbook.models.filter (·.enabled)).flatMap fun model =>
    model.profiles.filterMap fun profile =>
      if !profile.enabled then none
      else if profile.effectiveMaxInstances defaults = 0 then none
      else if profile.id = "default" then some model.name
      else some (model.name ++ ":" ++ profile.id)

/-- A peer with this entry may be chosen for the request. `src/node_state/mod.rs:942–970`. -/
def peerAccepts (peer : PeerState) (request : String) : Bool :=
  peerSupportsProfile peer (splitRequest request).1 (splitRequest request).2

/-- A pair is the request's, as the local index compares them. -/
def MatchesLowercase (pair : String × Profile) (request : String) : Prop :=
  pairKey tables pair = lowerKey tables (splitRequest request).1 (splitRequest request).2

/-- A pair is the request's up to ASCII case. -/
def MatchesAscii (pair : String × Profile) (request : String) : Prop :=
  eqIgnoreAsciiCase pair.1 (splitRequest request).1 = true ∧
    eqIgnoreAsciiCase pair.2.id (splitRequest request).2 = true

instance (pair : String × Profile) (request : String) :
    Decidable (MatchesLowercase tables pair request) :=
  inferInstanceAs (Decidable (pairKey tables pair = _))

instance (pair : String × Profile) (request : String) : Decidable (MatchesAscii pair request) :=
  inferInstanceAs (Decidable (_ ∧ _))

/-! ### The index -/

/-- The index holds the keys of exactly these pairs. -/
def Indexes (index : ModelIndex) (pairs : List (String × Profile)) : Prop :=
  ∀ key, (index.lookup key).isSome = true ↔ key ∈ pairs.map (pairKey tables)

variable {tables} {cookbook : Cookbook} {request : String}

private theorem indexModel_eq_foldl (index : ModelIndex) (model : Model) :
    indexModel tables index model =
      model.enabledPairs.foldl (fun index pair => index.insert (pairKey tables pair) pair)
        index := by
  unfold indexModel Model.enabledPairs
  cases model.enabled with
  | false => rfl
  | true =>
    simp only [Bool.not_true, Bool.false_eq_true, if_false, if_true, List.foldl_map,
      List.foldl_filter]
    congr 1
    funext index profile
    cases profile.enabled <;> rfl

private theorem buildModelIndex_eq_foldl :
    buildModelIndex tables cookbook =
      cookbook.enabledPairs.foldl (fun index pair => index.insert (pairKey tables pair) pair)
        ∅ := by
  unfold buildModelIndex Cookbook.enabledPairs
  rw [List.foldl_flatMap]
  congr 1
  funext index model
  exact indexModel_eq_foldl index model

private theorem lookup_foldl_pairs (pairs : List (String × Profile)) (index : ModelIndex)
    (key : String) :
    (pairs.foldl (fun index pair => index.insert (pairKey tables pair) pair) index).lookup key =
      (pairs.reverse.find? fun pair => pairKey tables pair == key).or (index.lookup key) := by
  induction pairs generalizing index with
  | nil => rfl
  | cons pair pairs ih =>
    rw [List.foldl_cons, ih, List.reverse_cons, List.find?_append, Table.lookup_insert_eq,
      Option.or_assoc]
    by_cases hkey : key = pairKey tables pair
    · simp [hkey]
    · simp [hkey, Ne.symm hkey]

/-- A key leads to the last enabled pair that has it. -/
theorem lookup_buildModelIndex (key : String) :
    (buildModelIndex tables cookbook).lookup key =
      cookbook.enabledPairs.reverse.find? fun pair => pairKey tables pair == key := by
  rw [buildModelIndex_eq_foldl, lookup_foldl_pairs, AList.lookup_empty, Option.or_none]

private theorem indexes_buildModelIndex :
    Indexes tables (buildModelIndex tables cookbook) cookbook.enabledPairs := by
  intro key
  rw [lookup_buildModelIndex, List.find?_isSome, List.mem_map]
  simp only [List.mem_reverse, beq_iff_eq]

/-- The index resolves what an enabled pair has the lower-case key of. -/
theorem resolve_isSome_iff :
    (resolve tables (buildModelIndex tables cookbook) request).isSome = true ↔
      ∃ pair ∈ cookbook.enabledPairs, MatchesLowercase tables pair request := by
  rw [resolve, indexes_buildModelIndex, List.mem_map]
  rfl

/-! ### What a peer accepts -/

/-- The text a pair is advertised by. -/
def advertisedAs (pair : String × Profile) : String :=
  if pair.2.id = "default" then pair.1 else pair.1 ++ ":" ++ pair.2.id

/-- An enabled pair is an enabled profile of an enabled model. -/
theorem mem_enabledPairs {pair : String × Profile} :
    pair ∈ cookbook.enabledPairs ↔ ∃ model ∈ cookbook.models, model.enabled = true ∧
      pair.2 ∈ model.profiles ∧ pair.2.enabled = true ∧ model.name = pair.1 := by
  rw [Cookbook.enabledPairs, List.mem_flatMap]
  refine exists_congr fun model => and_congr_right fun _ => ?_
  rw [Model.enabledPairs]
  split
  · next henabled =>
    simp only [List.mem_map, List.mem_filter, henabled, true_and]
    constructor
    · rintro ⟨profile, ⟨hmem, hp⟩, rfl⟩
      exact ⟨hmem, hp, rfl⟩
    · rintro ⟨hmem, hp, hname⟩
      exact ⟨pair.2, ⟨hmem, hp⟩, Prod.ext hname rfl⟩
  · next hdisabled => simp [hdisabled]

/-- With room for an instance of each, every enabled pair is advertised, and nothing else. -/
theorem mem_supportedModels {defaults : Config.ModelDefaults}
    (hmax : ∀ pair ∈ cookbook.enabledPairs, pair.2.effectiveMaxInstances defaults ≠ 0)
    {entry : String} : entry ∈ supportedModels defaults cookbook ↔
      ∃ pair ∈ cookbook.enabledPairs, advertisedAs pair = entry := by
  simp only [supportedModels, List.mem_flatMap, List.mem_filter, List.mem_filterMap]
  constructor
  · rintro ⟨model, ⟨hmodel, henabled⟩, profile, hprofile, hentry⟩
    cases hp : profile.enabled with
    | false => simp [hp] at hentry
    | true =>
      have hpair : (model.name, profile) ∈ cookbook.enabledPairs :=
        mem_enabledPairs.mpr ⟨model, hmodel, henabled, hprofile, hp, rfl⟩
      refine ⟨(model.name, profile), hpair, ?_⟩
      rw [hp, Bool.not_true, if_neg Bool.false_ne_true, if_neg (hmax _ hpair)] at hentry
      unfold advertisedAs
      split at hentry
      · next hdefault => rw [if_pos hdefault, Option.some.inj hentry]
      · next hother => rw [if_neg hother, Option.some.inj hentry]
  · rintro ⟨⟨name, profile⟩, hpair, rfl⟩
    have hne := hmax _ hpair
    obtain ⟨model, hmodel, henabled, hprofile, hp, rfl⟩ := mem_enabledPairs.mp hpair
    refine ⟨model, ⟨hmodel, henabled⟩, profile, hprofile, ?_⟩
    rw [hp, Bool.not_true, if_neg Bool.false_ne_true, if_neg hne]
    unfold advertisedAs
    split <;> rfl

/-- The parts of a request hold no separator. -/
theorem colon_notMem_splitRequest :
    ':' ∉ (splitRequest request).1.toList ∧ ':' ∉ (splitRequest request).2.toList := by
  have hpieces : ∀ piece ∈ request.toList.splitOn ':', ':' ∉ piece := fun piece =>
    Text.sep_notMem_of_mem_splitOn
  unfold splitRequest
  split
  · next base profileId rest hsplit =>
    rw [hsplit] at hpieces
    exact ⟨by simpa using hpieces base (by simp), by simpa using hpieces profileId (by simp)⟩
  · next base hsplit =>
    rw [hsplit] at hpieces
    refine ⟨by simpa using hpieces base (by simp), ?_⟩
    change ':' ∉ "default".toList
    decide
  · exact ⟨by decide, by decide⟩

/-- `eq_ignore_ascii_case` is equality up to the case of ASCII letters. -/
theorem eqIgnoreAsciiCase_iff {a b : String} :
    eqIgnoreAsciiCase a b = true ↔ Text.AsciiCaseEq a.toList b.toList := by
  rw [eqIgnoreAsciiCase, decide_eq_true_eq, Text.AsciiCaseEq]

/-- An advertised pair is accepted for the requests that are equal to it up to ASCII case. -/
theorem advertisedAs_accepts_iff {pair : String × Profile} (hname : ':' ∉ pair.1.toList)
    (hid : ':' ∉ pair.2.id.toList) {base profileId : String} (hbase : ':' ∉ base.toList) :
    (eqIgnoreAsciiCase (advertisedAs pair) (base ++ ":" ++ profileId) ||
        (eqIgnoreAsciiCase (advertisedAs pair) base && eqIgnoreAsciiCase profileId "default")) =
          true ↔
      eqIgnoreAsciiCase pair.1 base = true ∧ eqIgnoreAsciiCase pair.2.id profileId = true := by
  have hcolon : ':'.isAlpha = false := by decide
  simp only [Bool.or_eq_true, Bool.and_eq_true, eqIgnoreAsciiCase_iff, advertisedAs]
  have hrequest : (base ++ ":" ++ profileId).toList = base.toList ++ ':' :: profileId.toList := by
    simp
  split
  · next hdefault =>
    -- The bare name has no `:`, so only the second comparison can hold.
    have hbare : ¬ Text.AsciiCaseEq pair.1.toList (base ++ ":" ++ profileId).toList := by
      intro h
      apply hname
      rw [h.mem_iff hcolon, hrequest]
      simp
    rw [or_iff_right hbare, hdefault]
    unfold Text.AsciiCaseEq
    exact and_congr_right fun _ => eq_comm
  · have hfull : (pair.1 ++ ":" ++ pair.2.id).toList =
        pair.1.toList ++ ':' :: pair.2.id.toList := by
      simp
    have hbare : ¬ Text.AsciiCaseEq (pair.1 ++ ":" ++ pair.2.id).toList base.toList := by
      intro h
      apply hbase
      rw [← h.mem_iff hcolon, hfull]
      simp
    rw [or_iff_left fun h => hbare h.1, hfull, hrequest,
      Text.asciiCaseEq_append_cons_iff hcolon hname hid]

/-- A peer accepts what an enabled pair is equal to up to ASCII case. -/
theorem peerAccepts_iff {defaults : Config.ModelDefaults} {peer : PeerState}
    (hvalid : cookbook.validate tables = .ok ())
    (hmax : ∀ pair ∈ cookbook.enabledPairs, pair.2.effectiveMaxInstances defaults ≠ 0)
    (hpeer : peer.supportedModels = supportedModels defaults cookbook) :
    peerAccepts peer request = true ↔
      ∃ pair ∈ cookbook.enabledPairs, MatchesAscii pair request := by
  rw [peerAccepts, peerSupportsProfile, hpeer, List.any_eq_true]
  constructor
  · rintro ⟨entry, hentry, haccepts⟩
    obtain ⟨pair, hpair, rfl⟩ := (mem_supportedModels hmax).mp hentry
    have hnoColon := Cookbook.noColon_of_validate hvalid hpair
    exact ⟨pair, hpair, (advertisedAs_accepts_iff hnoColon.1 hnoColon.2
      colon_notMem_splitRequest.1).mp haccepts⟩
  · rintro ⟨pair, hpair, hmatches⟩
    have hnoColon := Cookbook.noColon_of_validate hvalid hpair
    exact ⟨advertisedAs pair, (mem_supportedModels hmax).mpr ⟨pair, hpair, rfl⟩,
      (advertisedAs_accepts_iff hnoColon.1 hnoColon.2 colon_notMem_splitRequest.1).mpr hmatches⟩

/-- Equal up to ASCII case is equal in lower case. -/
theorem MatchesAscii.matchesLowercase {pair : String × Profile} (h : MatchesAscii pair request) :
    MatchesLowercase tables pair request := by
  unfold MatchesLowercase pairKey lowerKey
  rw [Text.CaseTables.toLowercase_congr (eqIgnoreAsciiCase_iff.mp h.1),
    Text.CaseTables.toLowercase_congr (eqIgnoreAsciiCase_iff.mp h.2)]

/-- The index and the peers agree on a request exactly when every enabled pair that equals it in
lower case also equals it up to ASCII case. -/
theorem resolution_agrees_iff (tables : Text.CaseTables) (defaults : Config.ModelDefaults)
    (cookbook : Cookbook) (hvalid : cookbook.validate tables = .ok ())
    (hmax : ∀ pair ∈ cookbook.enabledPairs, pair.2.effectiveMaxInstances defaults ≠ 0)
    (peer : PeerState) (hpeer : peer.supportedModels = supportedModels defaults cookbook)
    (request : String) :
    ((resolve tables (buildModelIndex tables cookbook) request).isSome = true ↔
        peerAccepts peer request = true) ↔
      ∀ pair ∈ cookbook.enabledPairs,
        MatchesLowercase tables pair request → MatchesAscii pair request := by
  rw [resolve_isSome_iff, peerAccepts_iff hvalid hmax hpeer]
  constructor
  · intro hagree pair hpair hlower
    obtain ⟨pair', hpair', hascii⟩ := hagree.mp ⟨pair, hpair, hlower⟩
    -- Both pairs have the key of the request, and a valid cookbook has only one such pair.
    have hkey : pairKey tables pair = pairKey tables pair' :=
      Eq.trans hlower (Eq.symm hascii.matchesLowercase)
    rwa [Cookbook.eq_of_pairKey hvalid hpair hpair' hkey]
  · intro hexact
    constructor
    · rintro ⟨pair, hpair, hlower⟩
      exact ⟨pair, hpair, hexact pair hpair hlower⟩
    · rintro ⟨pair, hpair, hascii⟩
      exact ⟨pair, hpair, hascii.matchesLowercase⟩

/-! ### The Latin-1 letters -/

/-- The tables up to U+00FF. -/
def latin1 : Text.CaseTables where
  lower c :=
    if 0xC0 ≤ c.toNat ∧ c.toNat ≤ 0xDE ∧ c.toNat ≠ 0xD7 then [Char.ofNat (c.toNat + 32)]
    else [c.toLower]
  cased c := c.isAlpha || c.toNat == 0xAA || c.toNat == 0xB5 || c.toNat == 0xBA ||
    (0xC0 ≤ c.toNat && c.toNat != 0xD7 && c.toNat != 0xF7)
  caseIgnorable c :=
    [0x27, 0x2E, 0x3A, 0x5E, 0x60, 0xA8, 0xAD, 0xAF, 0xB4, 0xB7, 0xB8].contains c.toNat
  lower_ascii c hc := if_neg (by omega)
  cased_letter c hc := by simp [hc]
  caseIgnorable_letter c hc := by
    rw [Text.isAlpha_iff] at hc
    simp only [List.contains_eq_mem, List.mem_cons, List.not_mem_nil, or_false,
      decide_eq_false_iff_not]
    omega

/-- One model with a letter outside ASCII, and two profiles. -/
def umlautCookbook : Cookbook :=
  ⟨[{ name := "Über", profiles := [{ id := "default", modelPath := some "/models/u.gguf" },
    { id := "Fast", modelPath := some "/models/u.gguf", maxInstances := some 2 }] }]⟩

/-- A peer that has heard of `umlautCookbook`. -/
def umlautPeer : PeerState :=
  { placeholder ⟨"node-a", "http://10.0.0.2:9000"⟩ 0 with supportedModels := ["Über", "Über:Fast"] }

private theorem umlautCookbook_valid : umlautCookbook.validate latin1 = .ok () := by
  decide +kernel

/-- `ÜBER:fast` is accepted everywhere. -/
theorem umlaut_agrees :
    (resolve latin1 (buildModelIndex latin1 umlautCookbook) "ÜBER:fast").isSome = true ∧
      peerAccepts umlautPeer "ÜBER:fast" = true := by
  have hagree := resolution_agrees_iff latin1 ⟨1, 1⟩ umlautCookbook umlautCookbook_valid
    (by decide) umlautPeer (by decide) "ÜBER:fast"
  have hresolves : (resolve latin1 (buildModelIndex latin1 umlautCookbook) "ÜBER:fast").isSome =
      true := by decide +kernel
  exact ⟨hresolves, (hagree.mpr (by decide +kernel)).mp hresolves⟩

/-- `über` resolves here and is accepted by no peer. -/
theorem umlaut_resolves_only_locally :
    umlautCookbook.validate latin1 = .ok () ∧
      (∀ pair ∈ umlautCookbook.enabledPairs, pair.2.effectiveMaxInstances ⟨1, 1⟩ ≠ 0) ∧
      umlautPeer.supportedModels = supportedModels ⟨1, 1⟩ umlautCookbook ∧
      (resolve latin1 (buildModelIndex latin1 umlautCookbook) "über").isSome = true ∧
      peerAccepts umlautPeer "über" = false := by
  refine ⟨umlautCookbook_valid, by decide, by decide, by decide +kernel, by decide +kernel⟩

end Llamesh.Gossip
