import Llamesh.Api.Auth
import Llamesh.Library.Json
import Llamesh.Router.Hops

/-!
# What a node reads of a request

The first part of `route_request` (`src/router.rs:904–998`): the checks before a request is routed
and what is read from its path, its body and its headers, with `EndpointKind` and the body that is
sent on (`src/router.rs:2520–2573`). A later node reads the body that this one sent on. The two
readings differ only in the model of a request that names none: each node takes its own default.
-/

namespace Llamesh.Router

open Http Json Api.Auth

/-- An error response: `AppError` with the fields of its body that may be absent, and its
`Retry-After`; `src/errors.rs:10–28`. -/
structure Refusal extends AppError where
  param : Option String := none
  originNodeId : Option String := none
  retryAfter : Option String := none
deriving DecidableEq

/-- `AppError::node_draining`; `src/errors.rs:127–132`. -/
def Refusal.nodeDraining (nodeId : String) : Refusal where
  status := 503
  message := "Node is draining for shutdown"
  type_ := "draining"
  originNodeId := some nodeId
  retryAfter := some "5"

/-- `AppError::authentication_error`; `src/errors.rs:82–84`. -/
def Refusal.authenticationError (message : String) : Refusal where
  status := 401
  message := message
  type_ := "authentication_error"

/-- `AppError::request_timeout`; `src/errors.rs:111–113`. -/
def Refusal.requestTimeout (message : String) : Refusal where
  status := 408
  message := message
  type_ := "request_timeout"

/-- `AppError::invalid_request`; `src/errors.rs:78–80`. -/
def Refusal.invalidRequest (message : String) : Refusal :=
  ⟨.invalidRequest message, none, none, none⟩

/-- The kinds of endpoints. `src/router.rs:2520–2526`. -/
inductive EndpointKind where
  | text | embeddings | rerank | other
deriving DecidableEq, Repr

/-- `EndpointKind::from_path`; `src/router.rs:2529–2539`. -/
def EndpointKind.fromPath (path : List Char) : EndpointKind :=
  if "/v1/embeddings".toList <+: path then .embeddings
  else if "/v1/rerank".toList <+: path || "/rerank".toList <+: path then .rerank
  else if "/v1/chat/completions".toList <+: path || "/v1/completions".toList <+: path then .text
  else .other

/-- The model that the body names, or the default. `src/router.rs:906–914`. -/
def resolveRequestedModel {ν : Type} (jsonBody : Value ν) (defaultModel : String) :
    Option String :=
  match jsonBody.get "model" with
  | none => some defaultModel
  | some (.string s) => if s ≠ "" then some s else none
  | some _ => none

/-- Whether the response streams. `src/router.rs:2542–2547`. -/
def responseStreamingForEndpoint (kind : EndpointKind) (clientStreamRequested : Bool) : Bool :=
  clientStreamRequested && kind = .text

/-- The body that is sent on; `src/router.rs:2549–2573`. -/
def requestBodyForEndpoint {ν : Type} (json : Codec ν) (jsonBody : Value ν) (kind : EndpointKind)
    (clientStreamRequested : Bool) (original : List UInt8) : List UInt8 :=
  if !clientStreamRequested || !(kind = .embeddings || kind = .rerank) then original
  else
    match jsonBody with
    | .object members => (json.toVec (.object (Value.remove "stream" members))).getD original
    | _ => original

/-- What a node reads from the path and the body. -/
structure Reading where
  endpointKind : EndpointKind
  model : String
  responseStreaming : Bool
  forwardBody : List UInt8
deriving DecidableEq

/-- `json_body.get("stream").and_then(|v| v.as_bool()).unwrap_or(false)`. -/
def streamRequested {ν : Type} (jsonBody : Value ν) : Bool :=
  ((jsonBody.get "stream").bind Value.asBool).getD false

/-- What the node reads of a body. `src/router.rs:946–966`. -/
def readRequest {ν : Type} (json : Codec ν) (path : List Char) (defaultModel : String)
    (bytes : List UInt8) : Except Refusal Reading :=
  match json.fromSlice bytes with
  | none => .error (.invalidRequest "Invalid JSON")
  | some jsonBody =>
    match resolveRequestedModel jsonBody defaultModel with
    | none =>
      .error { Refusal.invalidRequest "'model' must be a non-empty string" with
        param := some "model" }
    | some modelToUse =>
      let kind := EndpointKind.fromPath path
      let clientStreamRequested := streamRequested jsonBody
      .ok
        { endpointKind := kind
          model := modelToUse
          responseStreaming := responseStreamingForEndpoint kind clientStreamRequested
          forwardBody := requestBodyForEndpoint json jsonBody kind clientStreamRequested bytes }

/-! ## Reading what was sent on -/

/-- The text of the member `model`. -/
def modelText {ν : Type} (jsonBody : Value ν) : Option String :=
  match jsonBody.get "model" with
  | some (.string s) => some s
  | _ => none

/-- The model a body names, if it names any. -/
def namedModel {ν : Type} (json : Codec ν) (bytes : List UInt8) : Option String :=
  (json.fromSlice bytes).bind modelText

section

variable {ν : Type} {json : Codec ν} {v w : Value ν}

private theorem resolveRequestedModel_shape (v : Value ν) (defaultModel : String) :
    resolveRequestedModel v.shape defaultModel = resolveRequestedModel v defaultModel := by
  unfold resolveRequestedModel
  rw [Value.get_shape]
  cases v.get "model" with
  | none => rfl
  | some member => cases member <;> rfl

private theorem modelText_shape (v : Value ν) : modelText v.shape = modelText v := by
  unfold modelText
  rw [Value.get_shape]
  cases v.get "model" with
  | none => rfl
  | some member => cases member <;> rfl

private theorem resolveRequestedModel_congr (h : w.shape.get "model" = v.shape.get "model")
    (defaultModel : String) :
    resolveRequestedModel w defaultModel = resolveRequestedModel v defaultModel := by
  rw [← resolveRequestedModel_shape w, ← resolveRequestedModel_shape v, resolveRequestedModel,
    resolveRequestedModel, h]

private theorem modelText_congr (h : w.shape.get "model" = v.shape.get "model") :
    modelText w = modelText v := by
  rw [← modelText_shape w, ← modelText_shape v, modelText, modelText, h]

private theorem resolveRequestedModel_default {defaultModel model : String}
    (h : resolveRequestedModel v defaultModel = some model) (other : String) :
    resolveRequestedModel v other = some ((modelText v).getD other) := by
  unfold resolveRequestedModel modelText at *
  cases hmember : v.get "model" with
  | none => rfl
  | some member =>
    rw [hmember] at h
    cases member with
    | string s =>
      dsimp only at h ⊢
      split at h
      · next hs => rw [if_pos hs, Option.getD_some]
      · cases h
    | null => cases h
    | bool b => cases h
    | number n => cases h
    | array items => cases h
    | object members => cases h

private theorem requestBodyForEndpoint_cases (json : Codec ν) (v : Value ν) (kind : EndpointKind)
    (stream : Bool) (bytes : List UInt8) :
    requestBodyForEndpoint json v kind stream bytes = bytes ∨
      ∃ members out, v = .object members ∧ kind ≠ .text ∧
        json.toVec (.object (Value.remove "stream" members)) = some out ∧
        requestBodyForEndpoint json v kind stream bytes = out := by
  unfold requestBodyForEndpoint
  split
  · exact .inl rfl
  · next hsanitized =>
    cases v with
    | object members =>
      cases hout : json.toVec (.object (Value.remove "stream" members)) with
      | none => exact .inl (by simp only [hout, Option.getD_none])
      | some out =>
        refine .inr ⟨members, out, rfl, ?_, hout, by simp only [hout, Option.getD_some]⟩
        rintro rfl
        simp at hsanitized
    | null => exact .inl rfl
    | bool b => exact .inl rfl
    | number n => exact .inl rfl
    | string s => exact .inl rfl
    | array items => exact .inl rfl

private theorem readRequest_eq_ok {path : List Char} {defaultModel : String} {bytes : List UInt8}
    {r : Reading} :
    readRequest json path defaultModel bytes = .ok r ↔
      ∃ v model, json.fromSlice bytes = some v ∧
        resolveRequestedModel v defaultModel = some model ∧
        r = ⟨.fromPath path, model,
          responseStreamingForEndpoint (.fromPath path) (streamRequested v),
          requestBodyForEndpoint json v (.fromPath path) (streamRequested v) bytes⟩ := by
  unfold readRequest
  cases json.fromSlice bytes with
  | none => simp
  | some v =>
    dsimp only
    cases hmodel : resolveRequestedModel v defaultModel with
    | none => simp [hmodel]
    | some model => simp [hmodel, eq_comm]

/-- The model that is read is the named one, or else the default. -/
theorem model_of_readRequest {path : List Char} {defaultModel : String} {bytes : List UInt8}
    {r : Reading} (h : readRequest json path defaultModel bytes = .ok r) :
    r.model = (namedModel json bytes).getD defaultModel := by
  obtain ⟨v, model, hv, hmodel, rfl⟩ := readRequest_eq_ok.mp h
  have hdefault := resolveRequestedModel_default hmodel defaultModel
  rw [hmodel] at hdefault
  rw [namedModel, hv, Option.bind_some]
  exact Option.some.inj hdefault

/-- The body that is sent on is read as the received one, and is sent on as it is, whichever node
reads it; only the default model is the node's. -/
theorem readRequest_forwardBody {path : List Char} {defaultModel : String} {bytes : List UInt8}
    {r : Reading} (h : readRequest json path defaultModel bytes = .ok r) (other : String) :
    namedModel json r.forwardBody = namedModel json bytes ∧
    readRequest json path other r.forwardBody =
      .ok { r with model := (namedModel json bytes).getD other } := by
  obtain ⟨v, model, hv, hmodel, rfl⟩ := readRequest_eq_ok.mp h
  have hnamed : namedModel json bytes = modelText v := by rw [namedModel, hv, Option.bind_some]
  have hresolved := resolveRequestedModel_default hmodel other
  rw [hnamed, readRequest_eq_ok]
  dsimp only
  rcases requestBodyForEndpoint_cases json v (.fromPath path) (streamRequested v) bytes with
    hsame | ⟨members, out, rfl, hkind, hout, hsent⟩
  · rw [hsame]
    exact ⟨hnamed, v, _, hv, hresolved, by rw [hsame]⟩
  · rw [hsent]
    obtain ⟨w, hw, hshape⟩ := json.fromSlice_toVec hv hout
    -- The member `model` is still there, the member `stream` is not.
    have hmember : w.shape.get "model" = (Value.object members).shape.get "model" := by
      rw [hshape, Value.get_shape, Value.get_shape]
      exact congrArg (Option.map Value.shape) (Value.lookup_remove_of_ne (by decide) members)
    have hstream : streamRequested w = false := by
      have hnone : (w.get "stream").map Value.shape = none := by
        rw [← Value.get_shape, hshape, Value.get_shape]
        exact congrArg (Option.map Value.shape) (Value.lookup_remove_self "stream" members)
      rw [streamRequested, Option.map_eq_none_iff.mp hnone]
      rfl
    have htext := modelText_congr hmember
    refine ⟨by rw [namedModel, hw, Option.bind_some, htext], w,
      (modelText (.object members)).getD other, hw, ?_, ?_⟩
    · rw [resolveRequestedModel_congr hmember, hresolved]
    · simp [responseStreamingForEndpoint, requestBodyForEndpoint, hstream, hkind]

end

end Llamesh.Router
