import Llamesh.CircuitBreaker.Model
import Llamesh.Library.HeaderMap

/-!
# Peer responses

What `attempt_peer_forward` makes of the answer to an admitted dispatch (`src/router.rs:367–527`):
the outcome the dispatch loops act on, and the one result the circuit breaker is told, if any. The
JSON parser is a parameter; `serde_json` is not part of the repository.
-/

namespace Llamesh.Router

open CircuitBreaker

/-! ### JSON values -/

/-- `serde_json::Value`. -/
inductive Json where
  | null
  | bool (b : Bool)
  | number (text : String)
  | string (s : String)
  | array (items : List Json)
  | object (fields : List (String × Json))

/-- `Value::get` with a key. -/
def Json.get (key : String) : Json → Option Json
  | .object fields => fields.lookup key
  | _ => none

/-- `Value::as_str`. -/
def Json.asStr : Json → Option String
  | .string s => some s
  | _ => none

/-! ### Classification -/

/-- `HEALABLE_PEER_ERROR_TYPES`. -/
def healablePeerErrorTypes : List String :=
  ["queue_timeout", "queue_full", "no_capacity", "insufficient_resources", "peer_unavailable_retry",
    "spawn_failures_exhausted"]

/-- The response of a peer that was read whole. `src/router.rs:332–336`. -/
structure BufferedPeerResponse where
  status : Nat
  headers : Http.HeaderMap
  body : List UInt8

/-- `src/router.rs:339–362`; a failed transport keeps the type of its error, and `probeDenied` is in
the dispatch loops. -/
inductive ForwardOutcome where
  | surface (response : BufferedPeerResponse)
  | streamingSurface (status : Nat)
  | heal (reason : String) (response : BufferedPeerResponse)
  | draining
  | transport (errorType : String)

/-- `StatusCode::is_server_error`. -/
def isServerError (status : Nat) : Bool := decide (500 ≤ status) && decide (status ≤ 599)

/-- `StatusCode::is_success`. -/
def isSuccess (status : Nat) : Bool := decide (200 ≤ status) && decide (status ≤ 299)

/-- Whether the status counts as a failure of the peer. `src/router.rs:288–292`. -/
def peerStatusIsFailure (status : Nat) : Bool :=
  isServerError status || status == 401 || status == 403

/-- `record_peer_status`, as the operation of the breaker. `src/router.rs:294–316`. -/
def recordPeerStatus (peerId : String) (status : Nat) (probeTicket : Bool) : Op :=
  if peerStatusIsFailure status then .failure peerId probeTicket else .success peerId probeTicket

variable (parse : List UInt8 → Option Json)

/-- A text field of the `error` object of a server error. -/
def BufferedPeerResponse.errorField (r : BufferedPeerResponse) (field : String) : Option String :=
  if isServerError r.status then
    (((parse r.body).bind (Json.get "error")).bind (Json.get field)).bind Json.asStr
  else none

/-- A 503 of a draining node, the immediate peer or one behind it. -/
def BufferedPeerResponse.drains (r : BufferedPeerResponse) : Bool :=
  r.status == 503 && r.errorField parse "type" == some "draining"

/-- A drain that the immediate peer answers for. -/
def BufferedPeerResponse.drainsAt (r : BufferedPeerResponse) (peerId : String) : Bool :=
  r.drains parse && r.errorField parse "origin_node_id" == some peerId

/-- `classify_buffered_peer_response`: what is recorded, and the outcome.
`src/router.rs:490–527`. -/
def classifyBufferedPeerResponse (peerId : String) (probeTicket : Bool) (r : BufferedPeerResponse) :
    Option Op × ForwardOutcome :=
  let errorType := r.errorField parse "type"
  if r.status = 503 ∧ errorType = some "draining" then
    if r.errorField parse "origin_node_id" = some peerId then (none, .draining)
    else (none, .surface r)
  else
    let recorded := some (recordPeerStatus peerId r.status probeTicket)
    match errorType with
    | some t =>
      if isServerError r.status && healablePeerErrorTypes.contains t then (recorded, .heal t r)
      else (recorded, .surface r)
    | none => (recorded, .surface r)

/-- How an admitted dispatch ends when it is not cancelled: no response, the head of a successful
stream, a response whose body cannot be read, or a complete response. -/
inductive Ending where
  | sendFailed (errorType : String)
  | streamed (status : Nat)
  | bodyFailed (status : Nat)
  | complete (response : BufferedPeerResponse)

/-- The endings of a request: only a successful response to a streaming request passes unbuffered.
`src/router.rs:408–420`. -/
def Ending.fits (responseStreaming : Bool) : Ending → Bool
  | .sendFailed _ => true
  | .streamed status => responseStreaming && isSuccess status
  | .bodyFailed status => !(responseStreaming && isSuccess status)
  | .complete r => !(responseStreaming && isSuccess r.status)

/-- `attempt_peer_forward` after the claim, and `classify_peer_response`.
`src/router.rs:371–485`. -/
def classifyPeerResponse (peerId : String) (probeTicket : Bool) :
    Ending → Option Op × ForwardOutcome
  | .sendFailed errorType => (some (.failure peerId probeTicket), .transport errorType)
  | .streamed status => (some (recordPeerStatus peerId status false), .streamingSurface status)
  | .bodyFailed _ => (some (.failure peerId probeTicket), .transport "peer_body_read_failed")
  | .complete r => classifyBufferedPeerResponse parse peerId probeTicket r

end Llamesh.Router
