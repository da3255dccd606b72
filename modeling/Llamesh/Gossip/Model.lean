import Llamesh.Gossip.Address
import Llamesh.Library.Table

/-!
# Gossip messages

`process_gossip_message` (`src/cluster.rs:572–810`), the only writer of the peers map: it ignores a
stale message of a peer it heard from recently, refuses other versions as configured, resolves a
loopback address, stores the origin of the message and adds a placeholder for every node it did not
know. The map lock is held throughout, so a message is one step.

The log of version mismatches and the wake-up of waiters are left out: they do not touch the map.
Integers of 64 bits are natural numbers; the two saturating operations are written out.
-/

namespace Llamesh.Gossip

/-- Statistics of one model; `tps` is the bit pattern of the `f64`.
`src/node_state/peer_state.rs:7–20`. -/
structure PeerModelStats where
  tps : UInt64
  queueLen : Nat
  vramMb : Nat
  sysmemMb : Nat
  instanceCount : Nat
deriving DecidableEq

/-- The state of a peer; `src/node_state/peer_state.rs:24–93`. -/
structure PeerState where
  nodeId : String
  address : String
  addressFromSource : Bool
  version : String
  llamaCppVersion : String
  lastSeen : Nat
  startedAtUnix : Nat
  gossipEpoch : Nat
  gossipSeq : Nat
  supportedModels : List String
  modelStats : List (String × PeerModelStats)
  activeInstances : Nat
  maxInstances : Nat
  currentRequests : Nat
  availableVram : Nat
  availableSysmem : Nat
  llameshVramMb : Nat
  llameshSysmemMb : Nat
  externalVramMb : Nat
  deviceVramUsedMb : Nat
  deviceVramTotalMb : Nat
  gpuTelemetryAvailable : Bool
  maxVram : Nat
  maxSysmem : Nat
  totalQueueLength : Nat
  ready : Bool
  loadedModels : List String
deriving DecidableEq

/-- What a message says of another peer. `src/cluster.rs:54–58`. -/
structure PeerInfo where
  nodeId : String
  address : String
deriving DecidableEq

/-- A gossip message. `src/cluster.rs:60–64`. -/
structure GossipMessage where
  origin : PeerState
  knownPeers : List PeerInfo
deriving DecidableEq

/-- The peers map. -/
abbrev Peers := Table String PeerState

/-- What the handler reads of the node: its id and version, and its cluster configuration. -/
structure NodeConfig where
  nodeId : String
  localVersion : String
  gossipIntervalSeconds : Nat
  versionMismatchAction : String
  clusterPeers : List String

/-- A message handed to the handler, the transport source if it is known, and the clock: when the
message is handled and when a placeholder for a node is made. -/
structure Delivery where
  message : GossipMessage
  source : Option SocketAddr
  now : Nat
  seenAt : String → Nat

/-- `u64::MAX`. -/
def u64Max : Nat := 18446744073709551615

/-- How long an entry counts as heard from: three gossip intervals, at least 15 seconds;
`src/cluster.rs:584–589`. -/
def gossipTimeout (config : NodeConfig) : Nat :=
  max (min (config.gossipIntervalSeconds * 3) u64Max) 15

/-- The state carries ordering metadata. -/
def ordered (peer : PeerState) : Bool := peer.gossipEpoch != 0 && peer.gossipSeq != 0

/-- The message replaces the entry on its own; `src/cluster.rs:590–599`. -/
def newer (existing peer : PeerState) : Bool :=
  !ordered existing || (ordered peer &&
    if peer.gossipEpoch = existing.gossipEpoch then peer.gossipSeq > existing.gossipSeq
    else peer.startedAtUnix ≥ existing.startedAtUnix)

/-- The entry was heard from within the timeout. -/
def fresh (config : NodeConfig) (now : Nat) (existing : PeerState) : Bool :=
  now - existing.lastSeen ≤ gossipTimeout config

/-- The message is ignored as stale or duplicate; `src/cluster.rs:583–603`. -/
def stale (config : NodeConfig) (peers : Peers) (now : Nat) (peer : PeerState) : Bool :=
  (peers.lookup peer.nodeId).any fun existing =>
    fresh config now existing && !newer existing peer

/-- The text before the first dot. -/
def majorVersion (version : String) : List Char := before '.' version.toList

/-- The message is refused for its version; `src/cluster.rs:608–621`. -/
def shouldReject (config : NodeConfig) (version : String) : Bool :=
  if version = config.localVersion then false
  else if config.versionMismatchAction = "reject_any" then true
  else if config.versionMismatchAction = "reject_major" then
    majorVersion config.localVersion ≠ majorVersion version
  else false

variable (urls : UrlParser)

/-- The existing route is kept for a peer that advertises loopback: it is not loopback, and is
authoritative or equal to a configured seed. `src/cluster.rs:678–686`. -/
def keepsRoute (config : NodeConfig) (existing : PeerState) : Bool :=
  !isLoopbackAddress existing.address &&
    (!existing.addressFromSource ||
      config.clusterPeers.any fun seed => samePeerUrl urls seed existing.address)

/-- The configured seed whose host is the node id; `src/cluster.rs:697–708`. -/
def seedFor (config : NodeConfig) (nodeId : String) : Option String :=
  config.clusterPeers.find? fun seed =>
    extractHostFromUrl seed = nodeId && !isLoopbackAddress seed

/-- The source an address may be derived from: a loopback source only for a peer without a
non-loopback route. `src/cluster.rs:713–719`. -/
def usableSource (existing : Option PeerState) (source : Option SocketAddr) : Option SocketAddr :=
  source.filter fun source =>
    !source.ip.toCanonical.isLoopback ||
      existing.all fun peer => isLoopbackAddress peer.address

/-- The address and provenance of a processed message, `existing` being the entry before;
`src/cluster.rs:670–743`. -/
def resolveAddress (config : NodeConfig) (existing : Option PeerState) (source : Option SocketAddr)
    (peer : PeerState) : String × Bool :=
  if !isLoopbackAddress peer.address then (peer.address, false)
  else match existing.filter (keepsRoute urls config) with
    | some existing => (existing.address, false)
    | none =>
      match seedFor config peer.nodeId with
      | some seed => (seed, false)
      | none =>
        match (usableSource existing source).bind (sourcePeerUrl urls peer.address) with
        | some derived => (derived, true)
        | none =>
          match existing with
          | some existing => (existing.address, existing.addressFromSource)
          | none => (peer.address, false)

/-- The entry of a node that is known only through another node; `src/cluster.rs:768–803`. -/
def placeholder (info : PeerInfo) (now : Nat) : PeerState where
  nodeId := info.nodeId
  address := info.address
  addressFromSource := false
  version := "unknown"
  llamaCppVersion := "unknown"
  lastSeen := now
  startedAtUnix := 0
  gossipEpoch := 0
  gossipSeq := 0
  supportedModels := []
  modelStats := []
  activeInstances := 0
  maxInstances := 0
  currentRequests := 0
  availableVram := 0
  availableSysmem := 0
  llameshVramMb := 0
  llameshSysmemMb := 0
  externalVramMb := 0
  deviceVramUsedMb := 0
  deviceVramTotalMb := 0
  gpuTelemetryAvailable := false
  maxVram := 0
  maxSysmem := 0
  totalQueueLength := 0
  ready := false
  loadedModels := []

/-- One transitively learned node; `src/cluster.rs:750–804`. -/
def learn (config : NodeConfig) (seenAt : String → Nat) (peers : Peers) (info : PeerInfo) : Peers :=
  if info.nodeId = config.nodeId then peers
  else if info.nodeId ∈ peers then peers
  else peers.insert info.nodeId (placeholder info (seenAt info.nodeId))

/-- The entry a processed message leaves for its origin. -/
def stored (config : NodeConfig) (peers : Peers) (d : Delivery) : PeerState :=
  let origin := d.message.origin
  let resolved := resolveAddress urls config (peers.lookup origin.nodeId) d.source origin
  { origin with address := resolved.1, addressFromSource := resolved.2, lastSeen := d.now }

/-- `process_gossip_message`; `src/cluster.rs:572–810`. -/
def processGossipMessage (config : NodeConfig) (peers : Peers) (d : Delivery) : Peers :=
  let origin := d.message.origin
  if stale config peers d.now origin then peers
  else if shouldReject config origin.version then peers
  else
    let peers := peers.insert origin.nodeId (stored urls config peers d)
    d.message.knownPeers.foldl (learn config d.seenAt) peers

/-- The peers map after a sequence of messages. -/
def receive (config : NodeConfig) (peers : Peers) (ds : List Delivery) : Peers :=
  ds.foldl (processGossipMessage urls config) peers

/-! ## What one message does -/

variable {urls} {config : NodeConfig}

/-- Learning nodes keeps every entry and adds a placeholder for a node that had none. -/
theorem lookup_foldl_learn (seenAt : String → Nat) (infos : List PeerInfo) (peers : Peers)
    (nodeId : String) :
    (infos.foldl (learn config seenAt) peers).lookup nodeId =
      (peers.lookup nodeId).or (if nodeId = config.nodeId then none else
        (infos.find? (·.nodeId = nodeId)).map fun info => placeholder info (seenAt nodeId)) := by
  induction infos generalizing peers with
  | nil => simp
  | cons info infos ih =>
    rw [List.foldl_cons, ih, learn]
    by_cases hown : info.nodeId = config.nodeId
    · by_cases hid : nodeId = config.nodeId
      · simp [hown, hid]
      · simp [hown, hid, Ne.symm hid]
    · by_cases hid : info.nodeId = nodeId
      · subst hid
        by_cases hmem : info.nodeId ∈ peers
        · obtain ⟨peer, hpeer⟩ := Option.isSome_iff_exists.mp (AList.lookup_isSome.mpr hmem)
          simp [hown, hmem, hpeer]
        · have hnone : peers.lookup info.nodeId = none := AList.lookup_eq_none.mpr hmem
          simp [hown, hmem, hnone]
      · by_cases hmem : info.nodeId ∈ peers
        · simp [hown, hmem, hid]
        · simp [hown, hmem, hid, AList.lookup_insert_ne (Ne.symm hid)]

/-- A message that is ignored or refused leaves the map as it is. -/
theorem process_of_ignored {peers : Peers} {d : Delivery}
    (h : stale config peers d.now d.message.origin = true ∨
      shouldReject config d.message.origin.version = true) :
    processGossipMessage urls config peers d = peers := by
  unfold processGossipMessage
  by_cases hstale : stale config peers d.now d.message.origin = true
  · simp [hstale]
  · simp [hstale, h.resolve_left hstale]

/-- A processed message stores its origin and learns the nodes that had no entry. -/
theorem lookup_process {peers : Peers} {d : Delivery}
    (hstale : stale config peers d.now d.message.origin = false)
    (haccepted : shouldReject config d.message.origin.version = false) (nodeId : String) :
    (processGossipMessage urls config peers d).lookup nodeId =
      if nodeId = d.message.origin.nodeId then some (stored urls config peers d)
      else (peers.lookup nodeId).or (if nodeId = config.nodeId then none else
        (d.message.knownPeers.find? (·.nodeId = nodeId)).map fun info =>
          placeholder info (d.seenAt nodeId)) := by
  unfold processGossipMessage
  simp only [hstale, haccepted, Bool.false_eq_true, if_false]
  rw [lookup_foldl_learn, Table.lookup_insert_eq]
  by_cases hid : nodeId = d.message.origin.nodeId
  · simp [hid]
  · simp [hid]

/-- A message of another node leaves the entry of a node, or adds a placeholder where there was
none. -/
theorem lookup_process_of_ne {peers : Peers} {d : Delivery} {nodeId : String}
    (hne : nodeId ≠ d.message.origin.nodeId) :
    (processGossipMessage urls config peers d).lookup nodeId = peers.lookup nodeId ∨
      peers.lookup nodeId = none ∧ nodeId ≠ config.nodeId ∧
        ∃ info ∈ d.message.knownPeers, info.nodeId = nodeId ∧
          (processGossipMessage urls config peers d).lookup nodeId =
            some (placeholder info (d.seenAt nodeId)) := by
  by_cases hignored : stale config peers d.now d.message.origin = true ∨
      shouldReject config d.message.origin.version = true
  · rw [process_of_ignored hignored]
    exact Or.inl rfl
  · simp only [not_or, Bool.not_eq_true] at hignored
    rw [lookup_process hignored.1 hignored.2, if_neg hne]
    cases hlookup : peers.lookup nodeId with
    | some peer => exact Or.inl rfl
    | none =>
      by_cases hown : nodeId = config.nodeId
      · simp [hown]
      · rw [if_neg hown, Option.none_or]
        cases hfind : d.message.knownPeers.find? (·.nodeId = nodeId) with
        | none => exact Or.inl rfl
        | some info =>
          refine Or.inr ⟨rfl, hown, info, List.mem_of_find?_eq_some hfind, ?_, rfl⟩
          simpa using List.find?_some hfind

/-- Every entry is filed under its own id. -/
def Filed (peers : Peers) : Prop :=
  ∀ nodeId peer, peers.lookup nodeId = some peer → peer.nodeId = nodeId

/-- A message leaves every entry under its node id. -/
theorem filed_process {peers : Peers} (h : Filed peers) (d : Delivery) :
    Filed (processGossipMessage urls config peers d) := by
  intro nodeId peer hpeer
  by_cases hid : nodeId = d.message.origin.nodeId
  · by_cases hignored : stale config peers d.now d.message.origin = true ∨
        shouldReject config d.message.origin.version = true
    · rw [process_of_ignored hignored] at hpeer
      exact h nodeId peer hpeer
    · simp only [not_or, Bool.not_eq_true] at hignored
      rw [lookup_process hignored.1 hignored.2, if_pos hid] at hpeer
      cases hpeer
      rw [hid, stored]
  · rcases @lookup_process_of_ne urls config peers d nodeId hid with
      hsame | ⟨-, -, info, -, hinfo, hnew⟩
    · exact h nodeId peer (hsame ▸ hpeer)
    · rw [hnew] at hpeer
      cases hpeer
      exact hinfo

/-- So do any messages. -/
theorem filed_receive {peers : Peers} (h : Filed peers) (ds : List Delivery) :
    Filed (receive urls config peers ds) := by
  unfold receive
  induction ds generalizing peers with
  | nil => exact h
  | cons d ds ih => exact ih (filed_process h d)

end Llamesh.Gossip
