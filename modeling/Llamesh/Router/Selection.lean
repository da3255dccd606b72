import Llamesh.CircuitBreaker.Model
import Llamesh.Gossip.Advertised
import Llamesh.Library.Ranking

/-!
# Choosing a peer

What the dispatch sites of `route_request` ask for: `find_peer_for_model`
(`src/node_state/mod.rs:925–1010`) for a model that is unknown locally and for the fallback after
failed spawns, and `select_best_node` (`src/node_state/mod.rs:3453–3603`) for a model of the local
cookbook. Both filter the peers map, leave out the excluded peers, sort what is left and take the
first; neither returns an excluded peer.
-/

namespace Llamesh.Router

open Gossip Ranking

/-- What a selection reads: the configuration, the circuits and the clock, the entries of the peers
map in the order it iterates, the request, and the node's own state. -/
structure View where
  config : NodeConfig
  tables : Text.CaseTables
  breaker : CircuitBreaker.CircuitBreakerConfig
  circuits : CircuitBreaker.Circuits
  instant : Nat
  contended : Bool
  now : Nat
  peers : List PeerState
  request : String
  modelName : String
  profileId : String
  selfPeer : PeerState
  canServeLocally : Bool
  preferLocal : Bool
  pending : List (String × Nat)
  selfPeer_nodeId : selfPeer.nodeId = config.nodeId

/-- The loop for a model unknown locally (`src/router.rs:1049–1254`) and the one for a model of the
cookbook (`src/router.rs:1317–1923`). -/
inductive Loop where
  | unknown
  | known
  deriving DecidableEq, Repr

namespace View

variable (v : View)

/-- The circuit breaker lets the peer pass the filter. -/
def allows (peerId : String) : Bool :=
  CircuitBreaker.shouldAllowSync v.breaker v.circuits v.instant peerId v.contended

/-- The breaker's answer at the commit point, and the circuits after it. -/
def claim (peerId : String) : CircuitBreaker.DispatchDecision × CircuitBreaker.Circuits :=
  CircuitBreaker.tryClaimDispatchSync v.breaker v.circuits v.instant peerId v.contended

/-! ### `find_peer_for_model` -/

/-- A peer that may take the request. `src/node_state/mod.rs:949–972`. -/
def forwardable (excluded : List String) (peer : PeerState) : Bool :=
  !(v.now - peer.lastSeen > gossipTimeout v.config) && peer.ready && v.allows peer.nodeId &&
    !excluded.contains peer.nodeId && peerAccepts peer v.request

/-- The peer has the model loaded. -/
def loaded (peer : PeerState) : Bool :=
  let requestedKey := v.tables.toLowercase
    ((splitRequest v.request).1 ++ ":" ++ (splitRequest v.request).2)
  peer.loadedModels.any fun m => v.tables.toLowercase m = requestedKey

/-- The order of the candidates: with the model loaded first, then the shortest queue.
`src/node_state/mod.rs:984–1003`. -/
def prefersLoaded (a b : PeerState) : Bool :=
  match v.loaded a, v.loaded b with
  | true, false => true
  | false, true => false
  | _, _ => decide (a.totalQueueLength ≤ b.totalQueueLength)

/-- The peer that a request for an unknown model goes to. `src/node_state/mod.rs:925–1010`. -/
def findPeerForModel (excluded : List String) : Option PeerState :=
  ((v.peers.filter (v.forwardable excluded)).mergeSort v.prefersLoaded).head?

/-! ### `select_best_node` -/

/-- What `select_best_node` reads. -/
def selection (excluded : List String) : Selection where
  selfPeer := v.selfPeer
  canServeLocally := v.canServeLocally
  modelName := v.modelName
  profileId := v.profileId
  preferLocal := v.preferLocal
  excludedPeers := excluded
  shouldAllowSync := v.allows
  pending := v.pending
  now := v.now

variable {σ : Type} [LinearOrder σ] (score : PeerState → Nat → σ)

/-- The selection of a loop. -/
def choose (loop : Loop) (excluded : List String) : Option PeerState :=
  match loop with
  | .unknown => v.findPeerForModel excluded
  | .known => selectBestNode v.config score (v.selection excluded) v.peers

/-! ### What a selection returns -/

/-- The node itself is a candidate. -/
def servesSelf : Bool :=
  v.canServeLocally && peerSupportsProfile v.selfPeer v.modelName v.profileId

/-- The candidates that are not left out by an exclusion. -/
def own : Loop → List PeerState
  | .unknown => []
  | .known => if v.servesSelf then [v.selfPeer] else []

/-- The peers that pass the filters of a loop. -/
def others (excluded : List String) : Loop → List PeerState
  | .unknown => v.peers.filter (v.forwardable excluded)
  | .known => v.peers.filter (eligible v.config (v.selection excluded))

/-- How a loop compares its candidates. -/
def prefers : Loop → PeerState → PeerState → Bool
  | .unknown, a, b => v.prefersLoaded a b
  | .known, a, b =>
    decide (score a (effectiveCurrent v.config (v.selection []) a) ≤
      score b (effectiveCurrent v.config (v.selection []) b))

/-- Preferring loaded peers is a preference. -/
theorem prefersLoaded_preference : Preference v.prefersLoaded where
  trans a b c hab hbc := by
    unfold prefersLoaded at *
    cases ha : v.loaded a <;> cases hb : v.loaded b <;> cases hc : v.loaded c <;>
      simp only [ha, hb, hc, decide_eq_true_eq, reduceCtorEq] at hab hbc ⊢ <;> omega
  total a b := by
    unfold prefersLoaded
    cases ha : v.loaded a <;> cases hb : v.loaded b <;>
      simp only [Bool.or_eq_true, decide_eq_true_eq, or_true, true_or] <;> omega

/-- So is the order of either loop. -/
theorem prefers_preference (loop : Loop) : Preference (v.prefers score loop) := by
  cases loop with
  | unknown => exact v.prefersLoaded_preference
  | known => exact Preference.of_key fun a => score a (effectiveCurrent v.config (v.selection []) a)

/-- A loop's selection is the best of its candidates, unless the request is to stay here. -/
theorem choose_eq_best (loop : Loop) (excluded : List String) :
    v.choose score loop excluded =
      if loop = .known ∧ (v.servesSelf && v.preferLocal) = true then some v.selfPeer
      else best (v.prefers score loop) (v.own loop ++ v.others excluded loop) := by
  cases loop with
  | unknown => rfl
  | known =>
    change (if (v.servesSelf && v.preferLocal) = true then some v.selfPeer
      else (((v.own .known ++ v.others excluded .known).map fun c =>
        (c, score c (effectiveCurrent v.config (v.selection []) c))).mergeSort
          fun a b => decide (a.2 ≤ b.2)).head?.map (·.1)) = _
    rw [best_scored]
    simp only [true_and]
    rfl

/-- Excluding one more peer takes its entries out. -/
theorem others_append (loop : Loop) (excluded : List String) (e : Option String) :
    v.others (excluded ++ e.toList) loop =
      (v.others excluded loop).filter fun peer => decide (some peer.nodeId ≠ e) := by
  have hcontains : ∀ peer : PeerState, (excluded ++ e.toList).contains peer.nodeId =
      (excluded.contains peer.nodeId || decide (some peer.nodeId = e)) := by
    intro peer
    rw [Bool.eq_iff_iff, List.contains_iff_mem, List.mem_append, Option.mem_toList, Bool.or_eq_true,
      List.contains_iff_mem, decide_eq_true_eq]
    exact or_congr_right ⟨Eq.symm, Eq.symm⟩
  cases loop with
  | unknown =>
    simp only [others, List.filter_filter]
    apply List.filter_congr
    intro peer _
    simp only [forwardable, hcontains, ne_eq, decide_not, Bool.not_or]
    ac_rfl
  | known =>
    simp only [others, List.filter_filter]
    apply List.filter_congr
    intro peer _
    simp only [eligible, selection, hcontains, ne_eq, decide_not, Bool.not_or]
    ac_rfl

/-- An excluded peer is no candidate. -/
theorem notMem_of_mem_others {loop : Loop} {excluded : List String} {peer : PeerState}
    (h : peer ∈ v.others excluded loop) : peer.nodeId ∉ excluded := by
  cases loop with
  | unknown =>
    have hpeer := (List.mem_filter.mp h).2
    simp only [forwardable, Bool.and_eq_true, Bool.not_eq_true', List.contains_eq_mem,
      decide_eq_false_iff_not] at hpeer
    exact hpeer.1.2
  | known =>
    have hpeer := (List.mem_filter.mp h).2
    simp only [eligible, selection, Bool.and_eq_true, Bool.not_eq_true', List.contains_eq_mem,
      decide_eq_false_iff_not] at hpeer
    exact hpeer.1.2

/-- A candidate among the peers is an entry of the map. -/
theorem mem_peers_of_mem_others {loop : Loop} {excluded : List String} {peer : PeerState}
    (h : peer ∈ v.others excluded loop) : peer ∈ v.peers := by
  cases loop with
  | unknown => exact (List.mem_filter.mp h).1
  | known => exact (List.mem_filter.mp h).1

/-- A candidate among the peers is ready. -/
theorem ready_of_mem_others {loop : Loop} {excluded : List String} {peer : PeerState}
    (h : peer ∈ v.others excluded loop) : peer.ready = true := by
  cases loop with
  | unknown =>
    have hpeer := (List.mem_filter.mp h).2
    simp only [forwardable, Bool.and_eq_true] at hpeer
    exact hpeer.1.1.1.2
  | known =>
    have hpeer := (List.mem_filter.mp h).2
    simp only [eligible, Bool.and_eq_true] at hpeer
    exact hpeer.1.1.1.2

/-- The node's own candidate has its id. -/
theorem nodeId_of_mem_own {loop : Loop} {peer : PeerState} (h : peer ∈ v.own loop) :
    loop = .known ∧ peer.nodeId = v.config.nodeId := by
  cases loop with
  | unknown => cases h
  | known =>
    refine ⟨rfl, ?_⟩
    simp only [own] at h
    split at h
    · rw [List.mem_singleton.mp h, v.selfPeer_nodeId]
    · cases h

/-- A selection is a candidate among the peers, unless it is the node itself. -/
theorem mem_others_of_choose {loop : Loop} {excluded : List String} {peer : PeerState}
    (h : v.choose score loop excluded = some peer) :
    loop = .known ∧ peer.nodeId = v.config.nodeId ∨ peer ∈ v.others excluded loop := by
  rw [choose_eq_best] at h
  split at h
  · next hlocal =>
    obtain rfl := Option.some.inj h
    exact .inl ⟨hlocal.1, v.selfPeer_nodeId⟩
  · obtain hown | hother := List.mem_append.mp (mem_of_best h)
    · exact .inl (v.nodeId_of_mem_own hown)
    · exact .inr hother

end View

end Llamesh.Router
