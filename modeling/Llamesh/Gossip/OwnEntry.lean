import Llamesh.Gossip.Model
import Mathlib.Order.Defs.LinearOrder

/-!
# The node's own entry

Gossip arrives through the HTTP handler (`src/cluster.rs:404–466`) or through a Noise session
(`src/api.rs:1054–1082`); both may refuse a message by its origin, and both hand what they admit to
`process_gossip_message`. Nodes learned through `known_peers` are filtered by the local id, the
origin of a message is not: the node lists itself exactly when a message with its own id is admitted
and passes the version check.

`select_best_node` (`src/node_state/mod.rs:3453–3603`) adds the local state as a candidate of its
own, so an entry under the local id competes with it as if it were another node. Scores are `f64`s
there; here they are values of any linear order.
-/

namespace Llamesh.Gossip

/-- Whom a peer has identified itself as. `src/security.rs:12–15`. -/
structure PeerIdentity where
  nodeId : Option String
  authenticated : Bool

/-- The transport settings the HTTP handler reads. -/
structure IngressConfig where
  noiseEnabled : Bool
  clusterTlsEnabled : Bool

/-- How a message came in: over HTTP, with the TLS identity and the socket address if the server
has them, or over a Noise session whose handshake named a peer. -/
inductive Transport where
  | http (identity : Option PeerIdentity) (socket : Option SocketAddr)
  | noise (peerNodeId : String) (remoteAddr : SocketAddr)

/-- A message received, and the clock while it is handled. -/
structure Received where
  transport : Transport
  message : GossipMessage
  now : Nat
  seenAt : String → Nat

/-- The checks of `handle_gossip`; `src/cluster.rs:410–460`. -/
def admitHttp (ingress : IngressConfig) (identity : Option PeerIdentity) (origin : String) :
    Except (Nat × String) Unit :=
  if ingress.noiseEnabled && !ingress.clusterTlsEnabled then
    .error (401, "Noise transport required for gossip")
  else if ingress.clusterTlsEnabled then
    match identity with
    | none => .error (401, "Mutual TLS required for gossip")
    | some identity =>
      if !identity.authenticated then .error (401, "Client certificate required")
      else match identity.nodeId with
        | none => .error (401, "Client certificate missing CN")
        | some cn =>
          if cn ≠ origin then
            .error (403, s!"Certificate CN '{cn}' does not match Node ID '{origin}'")
          else .ok ()
  else .ok ()

/-- The check of `handle_noise_gossip`; `src/api.rs:1061–1068`. -/
def admitNoise (peerNodeId origin : String) : Except (Nat × String) Unit :=
  if origin ≠ peerNodeId then .error (403, "Peer node_id mismatch") else .ok ()

/-- The checks of the transport a message came in on. -/
def admits (ingress : IngressConfig) (r : Received) : Bool :=
  match r.transport with
  | .http identity _ => (admitHttp ingress identity r.message.origin.nodeId).toBool
  | .noise peerNodeId _ => (admitNoise peerNodeId r.message.origin.nodeId).toBool

/-- What the handlers pass on. -/
def Received.delivery (r : Received) : Delivery where
  message := r.message
  source := match r.transport with
    | .http _ socket => socket
    | .noise _ remoteAddr => some remoteAddr
  now := r.now
  seenAt := r.seenAt

variable (urls : UrlParser) (config : NodeConfig) (ingress : IngressConfig)

/-- One received message. -/
def handle (peers : Peers) (r : Received) : Peers :=
  if admits ingress r then processGossipMessage urls config peers r.delivery else peers

/-- The peers map after the received messages. -/
def handleAll (rs : List Received) : Peers := rs.foldl (handle urls config ingress) ∅

/-- The message names this node as its origin, and is neither refused by its transport nor for its
version. -/
def FromItself (r : Received) : Prop :=
  admits ingress r = true ∧ r.message.origin.nodeId = config.nodeId ∧
    shouldReject config r.message.origin.version = false

/-! ## Choosing a node -/

/-- `str::eq_ignore_ascii_case`. -/
def eqIgnoreAsciiCase (a b : String) : Bool := a.toList.map Char.toLower = b.toList.map Char.toLower

/-- `peer_supports_profile`; `src/node_state/mod.rs:4378–4385`. -/
def peerSupportsProfile (peer : PeerState) (modelName profileId : String) : Bool :=
  peer.supportedModels.any fun entry =>
    eqIgnoreAsciiCase entry (modelName ++ ":" ++ profileId) ||
      (eqIgnoreAsciiCase entry modelName && eqIgnoreAsciiCase profileId "default")

/-- What a selection reads besides the peers map: the local state when the node can serve, the
request, the circuit breaker, the pending forwards and the clock. -/
structure Selection where
  selfPeer : PeerState
  canServeLocally : Bool
  modelName : String
  profileId : String
  preferLocal : Bool
  excludedPeers : List String
  shouldAllowSync : String → Bool
  pending : List (String × Nat)
  now : Nat

/-- A peer the node may forward to; `src/node_state/mod.rs:3503–3534`. -/
def eligible (sel : Selection) (peer : PeerState) : Bool :=
  !(sel.now - peer.lastSeen > gossipTimeout config) && peer.maxInstances != 0 && peer.ready &&
    sel.shouldAllowSync peer.nodeId && !sel.excludedPeers.contains peer.nodeId &&
    peerSupportsProfile peer sel.modelName sel.profileId

/-- The in-flight count a candidate is scored with; `src/node_state/mod.rs:3577–3584`. -/
def effectiveCurrent (sel : Selection) (c : PeerState) : Nat :=
  if c.nodeId = config.nodeId then c.currentRequests - (sel.pending.map (·.2)).sum
  else min (c.currentRequests + (sel.pending.lookup c.nodeId).getD 0) u64Max

/-- `select_best_node`, the map iterating in the given order; `src/node_state/mod.rs:3453–3603`. -/
def selectBestNode {σ : Type} [LinearOrder σ] (score : PeerState → Nat → σ) (sel : Selection)
    (order : List PeerState) : Option PeerState :=
  let servesSelf := sel.canServeLocally &&
    peerSupportsProfile sel.selfPeer sel.modelName sel.profileId
  if servesSelf && sel.preferLocal then some sel.selfPeer
  else
    let candidates :=
      (if servesSelf then [sel.selfPeer] else []) ++ order.filter (eligible config sel)
    let scored := candidates.map fun c => (c, score c (effectiveCurrent config sel c))
    (scored.mergeSort fun a b => a.2 ≤ b.2).head?.map (·.1)

/-- However the map iterates, the node picks itself only as the node that serves locally. -/
def PicksItselfLocally (peers : Peers) : Prop :=
  ∀ (σ : Type) [LinearOrder σ] (score : PeerState → Nat → σ) (sel : Selection)
    (order : List PeerState) (chosen : PeerState), order.Perm (peers.entries.map (·.2)) →
    selectBestNode config score sel order = some chosen → chosen.nodeId = config.nodeId →
      sel.canServeLocally = true ∧ chosen = sel.selfPeer

/-- The node is not among its own peers, and never picks itself as one. -/
def NeverListsItself (peers : Peers) : Prop :=
  config.nodeId ∉ peers ∧ PicksItselfLocally config peers

/-! ## Which messages list the node -/

variable {urls config ingress}

private theorem mem_iff_lookup {peers : Peers} {nodeId : String} :
    nodeId ∈ peers ↔ (peers.lookup nodeId).isSome := AList.lookup_isSome.symm

private theorem own_mem_handle {peers : Peers} {r : Received} :
    config.nodeId ∈ handle urls config ingress peers r ↔
      config.nodeId ∈ peers ∨ FromItself config ingress r := by
  unfold handle
  by_cases hadmits : admits ingress r = true
  · rw [if_pos hadmits]
    by_cases hown : r.message.origin.nodeId = config.nodeId
    · by_cases hreject : shouldReject config r.message.origin.version = true
      · -- Refused for its version: nothing is stored.
        rw [process_of_ignored (Or.inr hreject)]
        simp [FromItself, hreject]
      · rw [Bool.not_eq_true] at hreject
        have hself : FromItself config ingress r := ⟨hadmits, hown, hreject⟩
        refine ⟨fun _ => Or.inr hself, fun _ => ?_⟩
        by_cases hstale : stale config peers r.now r.message.origin = true
        · -- Ignored as stale: there was an entry before.
          rw [process_of_ignored (Or.inl hstale), mem_iff_lookup, ← hown]
          unfold stale at hstale
          cases hlookup : peers.lookup r.message.origin.nodeId with
          | none => simp [hlookup] at hstale
          | some entry => rfl
        · rw [Bool.not_eq_true] at hstale
          rw [mem_iff_lookup, lookup_process hstale hreject]
          simp [Received.delivery, hown]
    · -- The origin is another node, and the local id is never learned.
      have hother : ¬ FromItself config ingress r := fun h => hown h.2.1
      rw [or_iff_left hother, mem_iff_lookup, mem_iff_lookup]
      rcases @lookup_process_of_ne urls config peers r.delivery config.nodeId (Ne.symm hown) with
        hsame | ⟨-, hne, -⟩
      · rw [hsame]
      · exact absurd rfl hne
  · rw [if_neg hadmits]
    have hother : ¬ FromItself config ingress r := fun h => hadmits h.1
    rw [or_iff_left hother]

private theorem own_mem_handleAll (rs : List Received) :
    config.nodeId ∈ handleAll urls config ingress rs ↔ ∃ r ∈ rs, FromItself config ingress r := by
  unfold handleAll
  induction rs using List.reverseRecOn with
  | nil => simp
  | append_singleton rs r ih =>
    rw [List.foldl_append, List.foldl_cons, List.foldl_nil, own_mem_handle, ih]
    simp only [List.mem_append, List.mem_singleton]
    constructor
    · rintro (⟨r', hr', hself⟩ | hself)
      · exact ⟨r', Or.inl hr', hself⟩
      · exact ⟨r, Or.inr rfl, hself⟩
    · rintro ⟨r', hr' | rfl, hself⟩
      · exact Or.inl ⟨r', hr', hself⟩
      · exact Or.inr hself

/-! ## Whom the node picks -/

private theorem filed_handleAll (rs : List Received) :
    Filed (handleAll urls config ingress rs) := by
  unfold handleAll
  induction rs using List.reverseRecOn with
  | nil =>
    intro nodeId peer hpeer
    cases hpeer
  | append_singleton rs r ih =>
    rw [List.foldl_append, List.foldl_cons, List.foldl_nil, handle]
    split
    · exact filed_process ih r.delivery
    · exact ih

private theorem selectBestNode_mem {σ : Type} [LinearOrder σ] {score : PeerState → Nat → σ}
    {sel : Selection} {order : List PeerState} {chosen : PeerState}
    (h : selectBestNode config score sel order = some chosen) :
    (sel.canServeLocally = true ∧ chosen = sel.selfPeer) ∨ chosen ∈ order := by
  unfold selectBestNode at h
  dsimp only at h
  split at h
  · next hlocal =>
    simp only [Bool.and_eq_true] at hlocal
    exact Or.inl ⟨hlocal.1.1, (Option.some.inj h).symm⟩
  · rw [Option.map_eq_some_iff] at h
    obtain ⟨best, hbest, rfl⟩ := h
    have hmem := List.mem_mergeSort.mp (List.mem_of_mem_head? hbest)
    rw [List.mem_map] at hmem
    obtain ⟨c, hc, rfl⟩ := hmem
    rcases List.mem_append.mp hc with hself | hpeer
    · left
      split at hself
      · next hserves =>
        simp only [Bool.and_eq_true] at hserves
        exact ⟨hserves.1, List.mem_singleton.mp hself⟩
      · cases hself
    · exact Or.inr (List.mem_of_mem_filter hpeer)

private theorem picksItselfLocally {peers : Peers} (hfiled : Filed peers)
    (hown : config.nodeId ∉ peers) : PicksItselfLocally config peers := by
  intro σ _ score sel order chosen hperm hchosen hid
  rcases selectBestNode_mem hchosen with hself | hmem
  · exact hself
  · rw [hperm.mem_iff, List.mem_map] at hmem
    obtain ⟨⟨nodeId, peer⟩, hentry, rfl⟩ := hmem
    have hlookup := AList.mem_lookup_iff.mpr hentry
    have hkey : nodeId = config.nodeId := (hfiled nodeId peer hlookup).symm.trans hid
    refine absurd ?_ hown
    rw [mem_iff_lookup, ← hkey, hlookup]
    rfl

/-- Whatever was received, in whatever order: the node stays out of its own peers map, and picks
itself only as the node that serves locally, exactly when no message that its transports and the
version check let through named the node as its origin. -/
theorem never_lists_itself_iff (urls : UrlParser) (config : NodeConfig) (ingress : IngressConfig)
    (rs : List Received) :
    NeverListsItself config (handleAll urls config ingress rs) ↔
      ∀ r ∈ rs, ¬ FromItself config ingress r := by
  constructor
  · rintro ⟨hown, -⟩ r hr hself
    exact hown ((own_mem_handleAll rs).mpr ⟨r, hr, hself⟩)
  · intro hnone
    have hown : config.nodeId ∉ handleAll urls config ingress rs := by
      rw [own_mem_handleAll]
      rintro ⟨r, hr, hself⟩
      exact hnone r hr hself
    exact ⟨hown, picksItselfLocally (filed_handleAll rs) hown⟩

/-! ## A node that gossips to itself -/

/-- A node without cluster TLS and without Noise. -/
def plainIngress : IngressConfig := ⟨false, false⟩

/-- The configuration of `node-a`, which has its own alias as a seed. -/
def aliasSeed : NodeConfig := ⟨"node-a", "1.22.6", 5, "warn", ["http://node-a.local:9000"]⟩

/-- The snapshot `node-a` sends to its seeds. -/
def ownSnapshot : PeerState :=
  { placeholder ⟨"node-a", "http://10.0.0.2:9000"⟩ 0 with
    version := "1.22.6", startedAtUnix := 100, gossipEpoch := 3, gossipSeq := 1
    supportedModels := ["m:default"], maxInstances := 1, ready := true }

/-- `node-a` receives its own snapshot through the alias. -/
def ownGossip : Received :=
  ⟨.http none none, ⟨ownSnapshot, []⟩, 101, fun _ => 101⟩

/-- A request for `m` while the node drains and cannot serve. -/
def drainingSelection : Selection :=
  ⟨ownSnapshot, false, "m", "default", false, [], fun _ => true, [], 102⟩

/-- `node-a` lists itself, and while it drains it still picks itself for the next request. -/
theorem node_lists_itself_through_alias :
    "node-a" ∈ handleAll literalUrls aliasSeed plainIngress [ownGossip] ∧
      ((selectBestNode aliasSeed (fun _ load => load) drainingSelection
        ((handleAll literalUrls aliasSeed plainIngress [ownGossip]).entries.map (·.2))).map
          PeerState.nodeId = some "node-a") ∧
      ¬ NeverListsItself aliasSeed
        (handleAll literalUrls aliasSeed plainIngress [ownGossip]) := by
  have hmem : "node-a" ∈ handleAll literalUrls aliasSeed plainIngress [ownGossip] := by
    rw [mem_iff_lookup]
    decide +kernel
  have hentries : (handleAll literalUrls aliasSeed plainIngress [ownGossip]).entries.map (·.2) =
      [{ ownSnapshot with lastSeen := 101 }] := by
    decide +kernel
  refine ⟨hmem, ?_, fun h => h.1 hmem⟩
  rw [hentries]
  have heligible : [{ ownSnapshot with lastSeen := 101 }].filter
      (eligible aliasSeed drainingSelection) = [{ ownSnapshot with lastSeen := 101 }] := by
    decide +kernel
  have hserves : drainingSelection.canServeLocally = false := rfl
  simp only [selectBestNode, hserves, Bool.false_and, Bool.false_eq_true, if_false, List.nil_append,
    heligible, List.map_singleton, List.mergeSort_singleton, List.head?_cons, Option.map_some]
  rfl

end Llamesh.Gossip
