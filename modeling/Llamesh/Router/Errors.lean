import Llamesh.Instance.ApiKey
import Llamesh.Library.Run
import Llamesh.Library.Table
import Llamesh.Router.Responses

/-!
# The exits of a request

`route_request` (`src/router.rs:1032–1935`) once more, at each place where it can
leave: what the client is answered there, and which error counters the exit
increments. Every exit counts by hand, so each is written out with its own
increments, at the place the source has it. What the node and its peers do is
given by the environment's answers: a flag as it is read, the result of a
selection, of a wait, of a dispatch. Requests run side by side and share the
counters.
-/

namespace Llamesh.Router.Errors

/-- How the model was resolved: not in the cookbook, or with the args hash that the request is
counted under. `src/router.rs:1018,1289–1295`. -/
inductive Route where
  | unknown
  | known (argsHash : String)
  deriving DecidableEq, Repr

/-- The per-hash metrics that the preflights and waits of a route are given.
`src/router.rs:1034,1052,1128,1312,1320,1376`. -/
def Route.hashMetrics : Route → Option String
  | .unknown => none
  | .known argsHash => some argsHash

/-- An increment: `state.metrics.inc_errors()`, or `errors_total` of the metrics of a hash. -/
inductive Count where
  | node
  | hash (argsHash : String)
  deriving DecidableEq, Repr

/-- The increments of `routing_preflight` and `wait_for_capacity_or_disconnect`.
`src/router.rs:132–135,161–164`. -/
def counted (hashMetrics : Option String) : List Count :=
  .node :: (hashMetrics.map .hash).toList

/-- The errors of this node. -/
inductive AppError where
  | nodeDraining
  | queueTimeout
  | modelNotFound
  | upstream
  | spawnFailuresExhausted
  | acquisition (message : String)
  | invalidApiKey
  deriving DecidableEq, Repr

/-- What the client is answered. A request that is rejected is not counted, and a disconnected
client receives nothing. -/
inductive Reply where
  | rejected
  | error (e : AppError)
  | clientDisconnected
  | relayed (status : Nat)
  | streamed (status : Nat)
  deriving DecidableEq, Repr

/-- Where a dispatch to a peer is made. -/
inductive Site where
  | loop (route : Route)
  | fallback (argsHash : String)
  deriving DecidableEq, Repr

/-- The per-hash metrics of the preflight before a dispatch. -/
def Site.hashMetrics : Site → Option String
  | .loop route => route.hashMetrics
  | .fallback argsHash => some argsHash

/-- Where a request is. A recorder is the hash whose metrics a failed read of the body is counted
under, besides the node. -/
inductive Point where
  | resolving
  | preflight (route : Route)
  | selecting (route : Route)
  | unavailable (route : Route)
  | waiting (route : Route) (bounded recheck : Bool)
  | chosen (argsHash : String) (peer : Option String)
  | tracked (site : Site) (peer : String)
  | dispatching (site : Site) (peer : String)
  | retrying (route : Route) (wait : Option Bool)
  | rechecking (argsHash : String)
  | acquiring (argsHash : String)
  | fallback (argsHash : String)
  | fallbackSelecting (argsHash : String)
  | sending (argsHash : String)
  | reading (argsHash : String) (status : Nat)
  | readingPeer (fallback : Option String) (status : Nat)
  | streaming (recorder : Option String) (errorRecorded : Bool)
  | done
  deriving DecidableEq, Repr

/-- A request, with what it remembers between rounds, its answer and its increments. -/
structure Request where
  responseStreaming : Bool
  route : Option Route
  modelWasFound : Bool
  lastProbeDenied : Option String
  point : Point
  reply : Option Reply
  counts : List Count

/-- A new request. -/
def Request.arrived (responseStreaming : Bool) : Request :=
  ⟨responseStreaming, none, false, none, .resolving, none, []⟩

/-- A key of a running instance, which `backend_api_key` has found to fit in a header before the
instance was started. `src/instance.rs:433–444`. -/
abbrev BackendApiKey :=
  { key : String // Instance.sendable (some key) = .ok (some key) }

/-- What `routing_preflight` reads. -/
structure Flags where
  draining : Bool
  deadlinePassed : Bool
  clientGone : Bool
  deriving DecidableEq, Repr

/-- How a wait for capacity ends; the probe interval bounds only some waits. -/
inductive Wait where
  | woken
  | intervalPassed
  | clientGone
  | deadlinePassed
  deriving DecidableEq, Repr

/-- How a dispatch ends. -/
inductive Forward where
  | clientGone
  | probeDenied
  | ended (probeTicket : Bool) (ending : Ending)

/-- How the acquisition of an instance ends. -/
inductive Acquisition where
  | clientGone
  | failed (e : AppError)
  | acquired (servedHash : String) (backendApiKey : Option BackendApiKey)

/-- How an upstream operation of the local path ends. -/
inductive Upstream where
  | clientGone
  | failed
  | ok
  deriving DecidableEq, Repr

/-- The answers of the environment. -/
inductive Answer where
  | rejected
  | resolved (route : Route)
  | flags (f : Flags)
  | selected (peer : Option String)
  | local
  | draining (draining resolves : Bool)
  | waited (w : Wait)
  | forwarded (f : Forward)
  | acquired (a : Acquisition)
  | sent (u : Upstream) (status : Nat)
  | read (u : Upstream)
  | streamFailed
  | streamEnded
  | dropped

namespace Request

variable (r : Request)

/-- The request goes on. -/
def goes (point : Point) : Request × List Count := ({ r with point := point }, [])

/-- The request is answered. -/
def answers (reply : Reply) (counts : List Count) : Request × List Count :=
  ({ r with point := .done, reply := some reply }, counts)

/-- The checks before a request is routed. `src/router.rs:143–171`. -/
def routingPreflight (f : Flags) (hashMetrics : Option String) (next : Point) :
    Request × List Count :=
  if f.draining then r.answers (.error .nodeDraining) (counted hashMetrics)
  else if f.deadlinePassed then r.answers (.error .queueTimeout) (counted hashMetrics)
  else if f.clientGone then r.answers .clientDisconnected []
  else r.goes next

/-- `wait_for_capacity_or_disconnect`. `src/router.rs:101–141`. -/
def waits (w : Wait) (hashMetrics : Option String) (next : Point) : Request × List Count :=
  match w with
  | .woken | .intervalPassed => r.goes next
  | .clientGone => r.answers .clientDisconnected []
  | .deadlinePassed => r.answers (.error .queueTimeout) (counted hashMetrics)

/-- No peer for an unknown model. `src/router.rs:1067–1108`. -/
def unavailableUnknown (draining advertised : Bool) : Request × List Count :=
  if draining then r.answers (.error .nodeDraining) [.node]
  else if !r.modelWasFound && !advertised then r.answers (.error .modelNotFound) [.node]
  else r.goes (.waiting .unknown r.lastProbeDenied.isSome false)

/-- No node for a model of the cookbook. `src/router.rs:1336–1370`. -/
def unavailableKnown (argsHash : String) (draining resolves : Bool) : Request × List Count :=
  if !resolves then r.answers (.error .modelNotFound) [.node, .hash argsHash]
  else if draining then r.answers (.error .nodeDraining) [.node, .hash argsHash]
  else r.goes (.waiting (.known argsHash) r.lastProbeDenied.isSome false)

/-- `peer_response_to_client`: without a recorder. The body is read here unless the response
streams. `src/router.rs:2104–2164`. -/
def relaysPeer (fallback : Option String) (status : Nat) : Request × List Count :=
  if r.responseStreaming then
    ({ r with point := .streaming none false, reply := some (.streamed status) }, [])
  else r.goes (.readingPeer fallback status)

/-- A first denial excludes the peer and selects again, a repeated one waits. -/
def remembersDenial (peer : String) : Request := { r with lastProbeDenied := some peer }

/-- An outcome in the loop for an unknown model. `src/router.rs:1149–1277`. -/
def settlesUnknown (peer : String) : Option ForwardOutcome → Request × List Count
  | some (.streamingSurface status) => r.relaysPeer none status
  | some (.surface response) => r.answers (.relayed response.status) []
  | some .draining => r.goes (.preflight .unknown)
  | some (.heal _ _) | some (.transport _) => r.goes (.retrying .unknown (some false))
  | none =>
    if r.lastProbeDenied = some peer then
      (r.remembersDenial peer).goes (.retrying .unknown (some true))
    else (r.remembersDenial peer).goes (.preflight .unknown)

/-- An outcome in the loop for a model of the cookbook. `src/router.rs:1762–1874`. -/
def settlesKnown (argsHash peer : String) : Option ForwardOutcome → Request × List Count
  | some (.streamingSurface status) => r.relaysPeer none status
  | some (.surface response) => r.answers (.relayed response.status) []
  | some .draining => r.goes (.retrying (.known argsHash) none)
  | some (.heal _ _) | some (.transport _) => r.goes (.retrying (.known argsHash) (some false))
  | none =>
    if r.lastProbeDenied = some peer then
      (r.remembersDenial peer).goes (.retrying (.known argsHash) (some true))
    else (r.remembersDenial peer).goes (.retrying (.known argsHash) none)

/-- `is_client_error() || is_server_error()`. -/
def isError (status : Nat) : Bool := decide (400 ≤ status) && decide (status ≤ 599)

/-- The status check on the way out of the fallback. `src/router.rs:1699–1702`. -/
def fallbackCounts (argsHash : String) (status : Nat) : List Count :=
  if isError status then [.node, .hash argsHash] else []

/-- The error after the fallback. `src/router.rs:1713–1716`. -/
def failsToSpawn (argsHash : String) : Request × List Count :=
  r.answers (.error .spawnFailuresExhausted) [.node, .hash argsHash]

/-- An outcome in the fallback to a peer. `src/router.rs:1655–1703`. -/
def settlesFallback (argsHash : String) : Option ForwardOutcome → Request × List Count
  | some .draining => r.goes (.fallback argsHash)
  | none => r.failsToSpawn argsHash
  | some (.transport errorType) =>
    if errorType = "peer_body_read_failed" then
      r.answers (.error .upstream) [.node, .hash argsHash]
    else r.failsToSpawn argsHash
  | some (.streamingSurface status) =>
    ((r.relaysPeer (some argsHash) status).1,
      if r.responseStreaming then fallbackCounts argsHash status else [])
  | some (.surface response) | some (.heal _ response) =>
    r.answers (.relayed response.status) (fallbackCounts argsHash response.status)

/-- An outcome, or a denied probe. -/
def settles (site : Site) (peer : String) (outcome : Option ForwardOutcome) :
    Request × List Count :=
  match site with
  | .loop .unknown => r.settlesUnknown peer outcome
  | .loop (.known argsHash) => r.settlesKnown argsHash peer outcome
  | .fallback argsHash => r.settlesFallback argsHash outcome

/-- An acquired instance: the request is counted under the hash it was started with, and sent with
its key. `src/router.rs:1407–1450`. -/
def serves (servedHash : String) (backendApiKey : Option BackendApiKey) :
    Request × List Count :=
  match Instance.sendable (backendApiKey.map (·.1)) with
  | .ok _ => r.goes (.sending servedHash)
  | .error _ => r.answers (.error .invalidApiKey) []

/-- An instance was acquired, or not. `src/router.rs:1382–1406,1620–1640,1713–1716`. -/
def acquires (argsHash : String) : Acquisition → Request × List Count
  | .clientGone => r.answers .clientDisconnected []
  | .acquired servedHash backendApiKey => r.serves servedHash backendApiKey
  | .failed e =>
    if e = .spawnFailuresExhausted then r.goes (.fallback argsHash)
    else r.answers (.error e) [.node, .hash argsHash]

/-- The response head of the instance. `src/router.rs:1462–1616`. -/
def sends (argsHash : String) (status : Nat) : Upstream → Request × List Count
  | .clientGone => r.answers .clientDisconnected []
  | .failed => r.answers (.error .upstream) [.node, .hash argsHash]
  | .ok =>
    if r.responseStreaming then
      ({ r with point := .streaming (some argsHash) false, reply := some (.streamed status) }, [])
    else r.goes (.reading argsHash status)

/-- `record_local_body_read_error`. `src/router.rs:1943–1948`. -/
def recordLocalBodyReadError : Option String → List Count
  | some argsHash => [.node, .hash argsHash]
  | none => []

/-- `handle_non_streaming_response`, with a recorder. `src/router.rs:1592–1608,1950–1985`. -/
def reads (argsHash : String) (status : Nat) : Upstream → Request × List Count
  | .clientGone => r.answers .clientDisconnected []
  | .failed => r.answers (.error .upstream) (recordLocalBodyReadError (some argsHash))
  | .ok => r.answers (.relayed status) []

/-- The body of a peer, without a recorder; in the fallback the status is checked after it.
`src/router.rs:2121,2139–2160`. -/
def readsPeer (fallback : Option String) (status : Nat) : Upstream → Request × List Count
  | .clientGone => r.answers .clientDisconnected []
  | .failed =>
    r.answers (.error .upstream)
      (recordLocalBodyReadError none ++ (fallback.map (fallbackCounts · 502)).getD [])
  | .ok => r.answers (.relayed status) ((fallback.map (fallbackCounts · status)).getD [])

/-- `CleanupStream::poll_next` on an error. `src/router.rs:2455–2482`. -/
def streamFails (recorder : Option String) (errorRecorded : Bool) : Request × List Count :=
  if errorRecorded then r.goes (.streaming recorder errorRecorded)
  else ({ r with point := .streaming recorder true }, recordLocalBodyReadError recorder)

variable (parse : List UInt8 → Option Json)

/-- A dispatch ended. `src/router.rs:1126–1147,1641–1654,1741–1759`. -/
def dispatched (site : Site) (peer : String) : Forward → Option (Request × List Count)
  | .clientGone => some (r.answers .clientDisconnected [])
  | .probeDenied => some (r.settles site peer none)
  | .ended probeTicket ending =>
    if ending.fits r.responseStreaming then
      some (r.settles site peer (classifyPeerResponse parse peer probeTicket ending).2)
    else none

/-- Before a retry: the drain is checked, in the loop for a model of the cookbook also when nothing
is waited for. `src/router.rs:1204–1211,1236–1250,1267–1274,1876–1914`. -/
def retries (draining : Bool) : Route → Option Bool → Request × List Count
  | .unknown, wait =>
    if draining then r.answers (.error .nodeDraining) [.node]
    else r.goes (.waiting .unknown (wait.getD false) false)
  | .known argsHash, wait =>
    if draining then r.answers (.error .nodeDraining) [.node, .hash argsHash]
    else
      match wait with
      | none => r.goes (.rechecking argsHash)
      | some bounded => r.goes (.waiting (.known argsHash) bounded true)

/-- The drain is checked again after the wait. `src/router.rs:1916–1920`. -/
def rechecks (argsHash : String) (draining : Bool) : Request × List Count :=
  if draining then r.answers (.error .nodeDraining) [.node, .hash argsHash]
  else r.goes (.preflight (.known argsHash))

/-- Where a wait leads. -/
def afterWait : Route → Bool → Point
  | .known argsHash, true => .rechecking argsHash
  | route, _ => .preflight route

/-- What follows the second preflight of a round for a model of the cookbook. -/
def chosenNext (argsHash : String) : Option String → Point
  | none => .acquiring argsHash
  | some peer => .tracked (.loop (.known argsHash)) peer

/-- One answer of the environment, at the point where the request awaits it. A handler is dropped
when its connection is. -/
def act : Answer → Option (Request × List Count)
  | .dropped => if r.point = .done then none else some (r.goes .done)
  | answer =>
    match r.point, answer with
    | .resolving, .rejected => some (r.answers .rejected [])
    | .resolving, .resolved route => some ({ r with route := some route }.goes (.preflight route))
    | .preflight route, .flags f =>
      some (r.routingPreflight f route.hashMetrics (.selecting route))
    | .selecting route, .selected none => some (r.goes (.unavailable route))
    | .selecting .unknown, .selected (some peer) =>
      some ({ r with modelWasFound := true }.goes (.tracked (.loop .unknown) peer))
    | .selecting (.known argsHash), .selected (some peer) =>
      some (r.goes (.chosen argsHash (some peer)))
    | .selecting (.known argsHash), .local => some (r.goes (.chosen argsHash none))
    | .unavailable .unknown, .draining draining advertised =>
      some (r.unavailableUnknown draining advertised)
    | .unavailable (.known argsHash), .draining draining resolves =>
      some (r.unavailableKnown argsHash draining resolves)
    | .waiting route bounded recheck, .waited w =>
      if w = .intervalPassed ∧ bounded = false then none
      else some (r.waits w route.hashMetrics (afterWait route recheck))
    | .chosen argsHash peer, .flags f =>
      some (r.routingPreflight f (some argsHash) (chosenNext argsHash peer))
    | .tracked site peer, .flags f =>
      some (r.routingPreflight f site.hashMetrics (.dispatching site peer))
    | .dispatching site peer, .forwarded f => r.dispatched parse site peer f
    | .retrying route wait, .draining draining _ => some (r.retries draining route wait)
    | .rechecking argsHash, .draining draining _ => some (r.rechecks argsHash draining)
    | .fallback argsHash, .flags f =>
      some (r.routingPreflight f (some argsHash) (.fallbackSelecting argsHash))
    | .fallbackSelecting argsHash, .selected none => some (r.failsToSpawn argsHash)
    | .fallbackSelecting argsHash, .selected (some peer) =>
      some (r.goes (.tracked (.fallback argsHash) peer))
    | .acquiring argsHash, .acquired a => some (r.acquires argsHash a)
    | .sending argsHash, .sent u status => some (r.sends argsHash status u)
    | .reading argsHash status, .read u => some (r.reads argsHash status u)
    | .readingPeer fallback status, .read u => some (r.readsPeer fallback status u)
    | .streaming recorder errorRecorded, .streamFailed =>
      some (r.streamFails recorder errorRecorded)
    | .streaming _ _, .streamEnded => some (r.goes .done)
    | _, _ => none

end Request

/-! ### The node -/

/-- The error counters of a node and the requests it has received. -/
structure Node where
  errorsTotal : Nat
  hashErrors : String → Nat
  requests : Table Nat Request

/-- The node before its first request. -/
def Node.init : Node := ⟨0, fun _ => 0, ∅⟩

/-- A request arrives, or the environment answers one. -/
inductive Event where
  | arrive (id : Nat) (responseStreaming : Bool)
  | answer (id : Nat) (a : Answer)

/-- The increments of a step, remembered with the request that made them. -/
def Request.charged (r : Request) (out : Request × List Count) : Request :=
  { out.1 with counts := r.counts ++ out.2 }

/-- The counters after a request's increments. -/
def Node.counts (n : Node) (cs : List Count) : Node :=
  { n with
    errorsTotal := n.errorsTotal + cs.count .node
    hashErrors := fun argsHash => n.hashErrors argsHash + cs.count (.hash argsHash) }

variable (parse : List UInt8 → Option Json)

/-- One event. -/
def Node.step (n : Node) : Event → Option Node
  | .arrive id responseStreaming =>
    if id ∈ n.requests then none
    else some { n with requests := n.requests.insert id (.arrived responseStreaming) }
  | .answer id a =>
    match n.requests.lookup id with
    | none => none
    | some r =>
      match r.act parse a with
      | none => none
      | some out =>
        some { n.counts out.2 with requests := n.requests.insert id (r.charged out) }

end Llamesh.Router.Errors
