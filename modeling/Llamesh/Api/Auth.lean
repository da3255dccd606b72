import Llamesh.Library.Casing
import Llamesh.Library.HeaderMap
import Llamesh.Noise.Handshake

/-!
# The API key check

`check_api_key_auth` (`src/security.rs:25–74`) with `AuthConfig::get_header_value`
(`src/config.rs:732–758`). The key of a request is looked up under the configured name, first as a
field name and then by comparing lower cases, and is compared with every allowed key in a time that
does not depend on the octets. A configuration may name a header that no request can have, or keys
that no header can hold: then the check refuses everything.

A `HeaderMap` does not fix the order in which its names are visited: `fields` is any order that a
loop may take.
-/

namespace Llamesh.Api.Auth

open Http Text

/-- The settings of the key check. `src/config.rs:732–736`. -/
structure AuthConfig where
  enabled : Bool
  requiredHeader : String
  allowedKeys : List String
deriving DecidableEq, Repr

variable (tables : CaseTables)

/-- The name of a field, in lower case. -/
def lowerName (name : HeaderName) : String := tables.toLowercase (String.ofList name.text)

/-- The first value under the configured header. `src/config.rs:741–757`. -/
def AuthConfig.getHeaderValue (config : AuthConfig) (headers fields : HeaderMap) :
    Option (List Char) :=
  let exact := (HeaderName.fromBytes config.requiredHeader.toList).bind fun name =>
    (headers.get name).bind HeaderValue.toStr
  match exact with
  | some v => some v
  | none =>
    let requiredLower := tables.toLowercase config.requiredHeader
    (fields.find? fun field => lowerName tables field.1 = requiredLower).bind fun field =>
      field.2.toStr

/-- Whether two keys have the same octets. `src/security.rs:51–60`. -/
def constantTimeEq (a b : List UInt8) : Bool :=
  if a.length ≠ b.length then false
  else (a.zip b).foldl (fun diff (x, y) => diff ||| (x ^^^ y)) 0 = 0

/-- Whether the candidate is one of the allowed keys. `src/security.rs:66–74`. -/
def allowedKeyMatches (allowedKeys : List String) (candidate : List Char) : Bool :=
  allowedKeys.foldl (fun authorized key =>
    authorized || constantTimeEq (utf8Encode key.toList) (utf8Encode candidate)) false

/-- The key check of a request. `src/security.rs:25–42`. -/
def checkApiKeyAuth (auth : Option AuthConfig) (headers fields : HeaderMap) : Except String Unit :=
  match auth with
  | some config =>
    if config.enabled then
      let authorized :=
        match config.getHeaderValue tables headers fields with
        | some key => allowedKeyMatches config.allowedKeys key
        | none => false
      if authorized then .ok () else .error "Unauthorized"
    else .ok ()
  | none => .ok ()

/-! ## The comparison -/

private theorem constantTimeEq_iff (a b : List UInt8) : constantTimeEq a b = true ↔ a = b :=
  Noise.Handshake.verifyToken_iff a b

private theorem allowedKeyMatches_iff (allowedKeys : List String) (candidate : List Char) :
    allowedKeyMatches allowedKeys candidate = true ↔
      ∃ key ∈ allowedKeys, key.toList = candidate := by
  have hfold : ∀ authorized, allowedKeys.foldl (fun authorized key =>
      authorized || constantTimeEq (utf8Encode key.toList) (utf8Encode candidate)) authorized =
        true ↔ authorized = true ∨ ∃ key ∈ allowedKeys, key.toList = candidate := by
    induction allowedKeys with
    | nil => simp
    | cons key keys ih =>
      intro authorized
      rw [List.foldl_cons, ih, Bool.or_eq_true, constantTimeEq_iff, utf8Encode_injective.eq_iff]
      simp only [List.mem_cons, exists_eq_or_imp, or_assoc]
  rw [allowedKeyMatches, hfold]
  simp

/-! ## The lookup -/

/-- The configured name in lower case, as a field name would have it. -/
def AuthConfig.lowered (config : AuthConfig) : List Char :=
  (tables.toLowercase config.requiredHeader).toList

/-- The key a request presents: the first value under the configured name, in whatever case the
name was written. -/
def AuthConfig.presented (config : AuthConfig) (headers : HeaderMap) : Option (List Char) :=
  (headers.find? fun field => field.1.text = config.lowered tables).bind fun field =>
    field.2.toStr

variable {tables} {headers fields : HeaderMap} {config : AuthConfig}

private theorem lowerName_eq (name : HeaderName) :
    lowerName tables name = String.ofList name.text := by
  rw [lowerName, tables.toLowercase_of_ascii fun c hc => HeaderName.ascii_of_mem_text hc,
    HeaderName.fromBytes_eq_some_iff.mp name.fromBytes_text]

private theorem lowerName_eq_iff (name : HeaderName) :
    lowerName tables name = tables.toLowercase config.requiredHeader ↔
      name.text = config.lowered tables := by
  rw [lowerName_eq, AuthConfig.lowered, ← String.ofList_inj, String.ofList_toList]

private theorem lowered_of_fromBytes {name : HeaderName}
    (h : HeaderName.fromBytes config.requiredHeader.toList = some name) :
    name.text = config.lowered tables := by
  have htext := HeaderName.fromBytes_eq_some_iff.mp h
  have hcase : AsciiCaseEq config.requiredHeader.toList (String.ofList name.text).toList := by
    rw [AsciiCaseEq, String.toList_ofList, htext,
      HeaderName.fromBytes_eq_some_iff.mp name.fromBytes_text]
  rw [← lowerName_eq_iff, lowerName, tables.toLowercase_congr hcase]

private theorem find?_bind (hfields : HeaderMap.IsIteration fields headers) {name : HeaderName}
    (hname : name.text = config.lowered tables) :
    (fields.find? fun field => field.1.text = config.lowered tables).bind (·.2.toStr) =
      (headers.get name).bind HeaderValue.toStr := by
  have hsame : (fun field : HeaderName × HeaderValue =>
      decide (field.1.text = config.lowered tables)) = fun field => decide (field.1 = name) := by
    funext field
    rw [← hname, decide_eq_decide]
    constructor
    · intro h
      cases hfield : field.1
      cases name
      simp only [hfield] at h
      subst h
      rfl
    · intro h
      rw [h]
  rw [hsame, ← hfields.get name, ← HeaderMap.map_find?_name, Option.bind_map]
  rfl

private theorem isIteration_refl (headers : HeaderMap) : HeaderMap.IsIteration headers headers :=
  fun _ => rfl

/-- The key under a name is in the first value of the name. -/
theorem presented_eq {name : HeaderName} (hname : name.text = config.lowered tables) :
    config.presented tables headers = (headers.get name).bind HeaderValue.toStr := by
  rw [AuthConfig.presented, find?_bind (isIteration_refl headers) hname]

/-- A presented key stands under a name a field can have. -/
theorem exists_name_of_presented {key : List Char}
    (h : config.presented tables headers = some key) :
    ∃ name : HeaderName, name.text = config.lowered tables := by
  obtain ⟨field, hfield, -⟩ := Option.bind_eq_some_iff.mp h
  have hname := List.find?_some hfield
  exact ⟨field.1, of_decide_eq_true hname⟩

/-- Both lookups come to the presented key. -/
theorem getHeaderValue_eq (hfields : HeaderMap.IsIteration fields headers) :
    config.getHeaderValue tables headers fields = config.presented tables headers := by
  have hloop : (fields.find? fun field =>
      lowerName tables field.1 = tables.toLowercase config.requiredHeader).bind (·.2.toStr) =
        config.presented tables headers := by
    simp only [lowerName_eq_iff]
    by_cases hname : ∃ name : HeaderName, name.text = config.lowered tables
    · obtain ⟨name, hname⟩ := hname
      rw [find?_bind hfields hname, presented_eq hname]
    · -- no field can have the name
      have hnone : ∀ fields : HeaderMap,
          fields.find? (fun field => field.1.text = config.lowered tables) = none := fun fields =>
        List.find?_eq_none.mpr fun field _ h => hname ⟨field.1, of_decide_eq_true h⟩
      rw [AuthConfig.presented, hnone, hnone]
  unfold AuthConfig.getHeaderValue
  dsimp only
  split
  · next v hexact =>
    obtain ⟨name, hname, hvalue⟩ := Option.bind_eq_some_iff.mp hexact
    rw [presented_eq (lowered_of_fromBytes hname), hvalue]
  · exact hloop

/-! ## The decision -/

/-- Visible ASCII, the space and the tab. -/
def Visible (key : List Char) : Prop := ∀ c ∈ key, (32 ≤ c.toNat ∧ c.toNat < 127) ∨ c.toNat = 9

/-- An enabled check accepts exactly the requests that present an allowed key. -/
theorem checkApiKeyAuth_iff (hfields : HeaderMap.IsIteration fields headers)
    (henabled : config.enabled = true) :
    checkApiKeyAuth tables (some config) headers fields = .ok () ↔
      ∃ key ∈ config.allowedKeys, config.presented tables headers = some key.toList := by
  simp only [checkApiKeyAuth, if_pos henabled, getHeaderValue_eq hfields]
  cases hpresented : config.presented tables headers with
  | none => simp
  | some candidate =>
    have hkeys := allowedKeyMatches_iff config.allowedKeys candidate
    by_cases hmatches : allowedKeyMatches config.allowedKeys candidate = true
    · obtain ⟨key, hkey, heq⟩ := hkeys.mp hmatches
      simp only [if_pos hmatches, true_iff]
      exact ⟨key, hkey, by rw [heq]⟩
    · simp only [if_neg hmatches, reduceCtorEq, false_iff]
      rintro ⟨key, hkey, heq⟩
      exact hmatches (hkeys.mpr ⟨key, hkey, (Option.some.inj heq).symm⟩)

/-- The decision depends on the presented key only. -/
theorem checkApiKeyAuth_congr {auth : Option AuthConfig} {headers' fields' : HeaderMap}
    (hfields : HeaderMap.IsIteration fields headers)
    (hfields' : HeaderMap.IsIteration fields' headers')
    (h : ∀ config, auth = some config → config.enabled = true →
      config.presented tables headers' = config.presented tables headers) :
    checkApiKeyAuth tables auth headers' fields' = checkApiKeyAuth tables auth headers fields := by
  cases auth with
  | none => rfl
  | some config =>
    by_cases henabled : config.enabled = true
    · simp only [checkApiKeyAuth, getHeaderValue_eq hfields, getHeaderValue_eq hfields',
        h config rfl henabled]
    · simp only [checkApiKeyAuth, if_neg henabled]

private theorem exists_presented_iff {key : List Char} :
    (∃ headers, config.presented tables headers = some key) ↔
      (∃ name : HeaderName, name.text = config.lowered tables) ∧ Visible key := by
  constructor
  · rintro ⟨headers, hpresented⟩
    obtain ⟨field, hfield, hvalue⟩ := Option.bind_eq_some_iff.mp hpresented
    exact ⟨exists_name_of_presented hpresented,
      HeaderValue.exists_toStr_iff.mp ⟨field.2, hvalue⟩⟩
  · rintro ⟨⟨name, hname⟩, hvisible⟩
    obtain ⟨v, hv⟩ := HeaderValue.exists_toStr_iff.mpr hvisible
    refine ⟨[(name, v)], ?_⟩
    rw [AuthConfig.presented, List.find?_cons_of_pos (by simpa using hname), Option.bind_some, hv]

/-- An enabled check accepts a request exactly when the first value under the configured name, in
any case, is an allowed key, whatever the order of the fields; and there is a request that it
accepts exactly when the name is one a field can have and an allowed key is visible ASCII. -/
theorem api_key_decides (tables : CaseTables) (config : AuthConfig)
    (henabled : config.enabled = true) :
    (∀ headers fields, HeaderMap.IsIteration fields headers →
      (checkApiKeyAuth tables (some config) headers fields = .ok () ↔
        ∃ key ∈ config.allowedKeys, config.presented tables headers = some key.toList)) ∧
    ((∃ headers fields, HeaderMap.IsIteration fields headers ∧
        checkApiKeyAuth tables (some config) headers fields = .ok ()) ↔
      (∃ name : HeaderName, name.text = config.lowered tables) ∧
        ∃ key ∈ config.allowedKeys, Visible key.toList) := by
  refine ⟨fun headers fields hfields => checkApiKeyAuth_iff hfields henabled, ?_⟩
  constructor
  · rintro ⟨headers, fields, hfields, hok⟩
    obtain ⟨key, hkey, hpresented⟩ := (checkApiKeyAuth_iff hfields henabled).mp hok
    obtain ⟨hname, hvisible⟩ := exists_presented_iff.mp ⟨headers, hpresented⟩
    exact ⟨hname, key, hkey, hvisible⟩
  · rintro ⟨hname, key, hkey, hvisible⟩
    obtain ⟨headers, hpresented⟩ := exists_presented_iff.mpr ⟨hname, hvisible⟩
    refine ⟨headers, headers, fun _ => rfl, ?_⟩
    exact (checkApiKeyAuth_iff (fun _ => rfl) henabled).mpr ⟨key, hkey, hpresented⟩

/-- Lower-casing of ASCII, where no other character has case. -/
def asciiTables : CaseTables where
  lower := fun c => [c.toLower]
  cased := Char.isAlpha
  caseIgnorable := fun _ => false
  lower_ascii := fun _ _ => rfl
  cased_letter := fun _ h => h
  caseIgnorable_letter := fun _ _ => rfl

/-- A usual configuration. -/
def xApiKey : AuthConfig := ⟨true, "X-Api-Key", ["secret", "other"]⟩

/-- A header of another name. -/
def acceptField : HeaderName × HeaderValue :=
  (⟨"accept".toList, by decide⟩, ⟨[42, 47, 42], by decide⟩)

/-- The second key. -/
def keyField : HeaderName × HeaderValue :=
  (⟨"x-api-key".toList, by decide⟩, ⟨[111, 116, 104, 101, 114], by decide⟩)

private theorem isIteration_swap {a b : HeaderName × HeaderValue} (hne : a.1 ≠ b.1) :
    HeaderMap.IsIteration [b, a] [a, b] := by
  intro name
  by_cases ha : a.1 = name
  · have hb : b.1 ≠ name := fun hb => hne (ha.trans hb.symm)
    simp [HeaderMap.getAll, ha, hb]
  · by_cases hb : b.1 = name
    · simp [HeaderMap.getAll, ha, hb]
    · simp [HeaderMap.getAll, ha, hb]

/-- A request with the key is accepted, whichever field is visited first. -/
theorem keyField_authorized :
    checkApiKeyAuth asciiTables (some xApiKey) [acceptField, keyField] [keyField, acceptField] =
      .ok () := by
  have hfields : HeaderMap.IsIteration [keyField, acceptField] [acceptField, keyField] :=
    isIteration_swap (by decide)
  refine ((api_key_decides asciiTables xApiKey rfl).1 _ _ hfields).mpr ?_
  exact ⟨"other", by decide, by decide +kernel⟩

end Llamesh.Api.Auth
