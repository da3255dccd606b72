import Llamesh.CircuitBreaker.Operations
import Llamesh.Gossip.Model
import Llamesh.Library.Run
import Mathlib.Data.List.Infix

/-!
# The gossip loop

`start_gossip_loop` (`src/cluster.rs:113–402`) with the tasks it works against: the sends it
spawns, the shutdown signal and the wait for the announcement of the drain
(`src/api.rs:139–173,1189–1202`), the handler of incoming gossip and the routing of requests, which
share the peers map and the circuits. A label is what a task does between two awaits.

`Notify::notify_one` stores one permit. What a peer answers to a send, the readings of the node's
state, the clock and the order in which a hash set or a map iterates are free.
-/

namespace Llamesh.Gossip

open Transition CircuitBreaker

/-- What is fixed while the process runs: `address` is the one the node advertises, and `epoch` the
random identity of the process. -/
structure Node where
  config : NodeConfig
  address : String
  epoch : Nat
  startedAtUnix : Nat
  maxConcurrentGossip : Nat
  breaker : CircuitBreakerConfig

/-- `get_gossip_peer_state`: the readings of the node's state with its identity, its readiness and
the next sequence number. `src/node_state/mod.rs:3219–3229,3375–3423`. -/
def Node.getGossipPeerState (node : Node) (reading : PeerState) (draining canServe : Bool)
    (seq : Nat) : PeerState :=
  { reading with
    nodeId := node.config.nodeId
    address := node.address
    addressFromSource := false
    version := node.config.localVersion
    startedAtUnix := node.startedAtUnix
    gossipEpoch := node.epoch
    gossipSeq := seq + 1
    ready := !draining && canServe }

/-- The targets that are keyed by URL in this round, and the keys of earlier rounds that no longer
are and are no node id. `src/cluster.rs:72–90`. -/
def gossipUrlCircuitKeys (tracked targets : List String) (urlToNodeId : Table String String)
    (knownNodeIds : List String) (ownAddress : String) : List String × List String :=
  let current := targets.filter fun url => url ≠ ownAddress && !decide (url ∈ urlToNodeId)
  (current, tracked.filter fun key => !current.contains key && !knownNodeIds.contains key)

/-- Drop the circuits of URL keys that are out of use, and track those of this round.
`src/cluster.rs:94–111`. -/
def reconcileGossipUrlCircuits (circuits : Circuits) (tracked targets : List String)
    (urlToNodeId : Table String String) (knownNodeIds : List String) (ownAddress : String) :
    Circuits × List String :=
  let keys := gossipUrlCircuitKeys tracked targets urlToNodeId knownNodeIds ownAddress
  ((forget circuits keys.2).1, tracked ++ keys.1)

/-- A send of a round: the target, its message and the key its result is recorded under. -/
structure Send where
  url : String
  message : GossipMessage
  cbKey : String
  probeTicket : Bool
  permit : Bool
  finished : Bool
deriving DecidableEq

/-- A round that has its targets: all of them, those the loop has not come to, and the sends whose
handles it keeps. -/
structure Round where
  announcesDrain : Bool
  message : GossipMessage
  urlToNodeId : Table String String
  targets : List String
  left : List String
  sends : List Nat
deriving DecidableEq

/-- Where the loop stands. -/
inductive LoopPc where
  | waiting
  | woken
  | read (announcesDrain : Bool)
  | built (announcesDrain : Bool) (origin : PeerState)
  | sending (round : Round)
  | joining (round : Round)
deriving DecidableEq

/-- The task of the shutdown signal: `begin_shutdown_drain`, then the trigger.
`src/api.rs:139–173`. -/
inductive SignalPc where
  | listening
  | draining
  | done
deriving DecidableEq, Repr

/-- `wait_for_drain_gossip`. `src/api.rs:1189–1202`. -/
inductive WaitPc where
  | serving
  | waiting
  | heard
  | timedOut
deriving DecidableEq, Repr

/-- The state the tasks share. `snapshots` and `rounds` are what the loop has built and completed
so far; nothing reads them. -/
structure Shared where
  draining : Bool
  signal : SignalPc
  wait : WaitPc
  gossipTrigger : Bool
  drainGossipSent : Bool
  peers : Peers
  gossipSeq : Nat
  circuits : Circuits
  urlCircuitKeys : List String
  permits : Nat
  sends : List Send
  loop : LoopPc
  snapshots : List PeerState
  rounds : List Round

/-- A started process. -/
def Shared.init (node : Node) : Shared where
  draining := false
  signal := .listening
  wait := .serving
  gossipTrigger := false
  drainGossipSent := false
  peers := ∅
  gossipSeq := 0
  circuits := fun _ => none
  urlCircuitKeys := []
  permits := node.maxConcurrentGossip
  sends := []
  loop := .waiting
  snapshots := []
  rounds := []

/-- One step of a task. -/
inductive Label where
  /-- The interval of the loop fires. -/
  | tick
  /-- The loop takes the permit of the trigger. -/
  | triggered
  | readDraining
  | buildState (reading : PeerState) (canServe : Bool)
  /-- The peers in the order the map iterates, the discovered addresses, and the targets in the
  order the set iterates. -/
  | collect (known : List PeerState) (discovered targets : List String)
  /-- The loop comes to its own address. -/
  | skipSelf
  | spawnSend (now : Nat) (contended : Bool)
  /-- No permit within five seconds. -/
  | permitTimeout
  | endTargets
  | joined
  | sendFinished (index now : Nat) (success : Bool)
  | beginShutdownDrain
  | signalGossip
  /-- Any other caller of the trigger. -/
  | notifyTrigger
  | startWait
  | heard
  | waitTimeout
  | gossip (delivery : Delivery)
  /-- A request that is routed to a peer of the map claims its circuit. -/
  | claim (peerId : String) (now : Nat) (contended : Bool)
  | result (peerId : String) (now : Nat) (probeTicket success : Bool)

/-- The peers of the map, each once. -/
def Lists (peers : Peers) (known : List PeerState) : Prop :=
  (known.map (·.nodeId)).Nodup ∧ (∀ peer ∈ known, peers.lookup peer.nodeId = some peer) ∧
    ∀ nodeId ∈ peers.keys, nodeId ∈ known.map (·.nodeId)

instance (peers : Peers) (known : List PeerState) : Decidable (Lists peers known) :=
  inferInstanceAs (Decidable (_ ∧ _ ∧ _))

/-- Seeds, discovered addresses (with a scheme) and the addresses of the known peers.
`src/cluster.rs:152–186`. -/
def allTargets (config : NodeConfig) (known : List PeerState) (discovered : List String) :
    List String :=
  config.clusterPeers ++
    discovered.map (fun addr =>
      if "://".toList <:+: addr.toList then addr else "http://" ++ addr) ++
    known.map (·.address)

/-- `url_to_node_id`: a later peer of the same address replaces an earlier one. -/
def urlToNodeId (known : List PeerState) : Table String String :=
  known.foldl (fun map peer => map.insert peer.address peer.nodeId) ∅

/-- A round with its targets, right after they are collected. -/
def Round.collected (announcesDrain : Bool) (origin : PeerState) (known : List PeerState)
    (targets : List String) : Round where
  announcesDrain := announcesDrain
  message := ⟨origin, known.map fun peer => ⟨peer.nodeId, peer.address⟩⟩
  urlToNodeId := Gossip.urlToNodeId known
  targets := targets
  left := targets
  sends := []

/-- The circuits after the result of a dispatch. -/
def recorded (node : Node) (circuits : Circuits) (now : Nat) (key : String)
    (probeTicket success : Bool) : Circuits :=
  if success then (recordSuccess node.breaker circuits now key probeTicket).1
  else recordFailure node.breaker circuits now key probeTicket

/-- The loop up to the targets of a round. `src/cluster.rs:142–213`. -/
def roundStep (node : Node) (s : Shared) : Label → Option Shared
  | .tick => guarded (s.loop = .waiting) { s with loop := .woken }
  | .triggered =>
    guarded (s.loop = .waiting ∧ s.gossipTrigger = true)
      { s with loop := .woken, gossipTrigger := false }
  | .readDraining => guarded (s.loop = .woken) { s with loop := .read s.draining }
  | .buildState reading canServe =>
    match s.loop with
    | .read announcesDrain =>
      let origin := node.getGossipPeerState reading s.draining canServe s.gossipSeq
      -- a sequence number past `u64::MAX` panics
      guarded (s.gossipSeq < u64Max)
        { s with
          gossipSeq := s.gossipSeq + 1
          loop := .built announcesDrain origin
          snapshots := s.snapshots ++ [origin] }
    | _ => none
  | .collect known discovered targets =>
    match s.loop with
    | .built announcesDrain origin =>
      let reconciled := reconcileGossipUrlCircuits s.circuits s.urlCircuitKeys targets
        (urlToNodeId known) (known.map (·.nodeId)) node.address
      guarded (Lists s.peers known ∧ targets.Nodup ∧
          (∀ url ∈ targets, url ∈ allTargets node.config known discovered) ∧
          ∀ url ∈ allTargets node.config known discovered, url ∈ targets)
        { s with
          circuits := reconciled.1
          urlCircuitKeys := reconciled.2
          loop := .sending (.collected announcesDrain origin known targets) }
    | _ => none
  | _ => none

/-- The send to a target: its key is the node id of the peer at that address, if there is one.
`src/cluster.rs:226–289`. -/
def Round.send (node : Node) (s : Shared) (r : Round) (url : String) (rest : List String)
    (now : Nat) (contended : Bool) : Shared :=
  let cbKey := (r.urlToNodeId.lookup url).getD url
  let claimed := tryClaimDispatchSync node.breaker s.circuits now cbKey contended
  let send : Send :=
    { url, message := r.message, cbKey, probeTicket := claimed.1 = .admitted true
      permit := !r.announcesDrain, finished := false }
  { s with
    circuits := claimed.2
    permits := if r.announcesDrain then s.permits else s.permits - 1
    sends := s.sends ++ [send]
    loop := .sending
      { r with
        left := rest
        sends := if r.announcesDrain then r.sends ++ [s.sends.length] else r.sends } }

/-- The loop over the targets, and the wait for the sends of a round that announces the drain.
`src/cluster.rs:215–401`. -/
def sendStep (node : Node) (s : Shared) : Label → Option Shared
  | .skipSelf =>
    match s.loop with
    | .sending r =>
      match r.left with
      | url :: rest =>
        guarded (url = node.address) { s with loop := .sending { r with left := rest } }
      | [] => none
    | _ => none
  | .spawnSend now contended =>
    match s.loop with
    | .sending r =>
      match r.left with
      | url :: rest =>
        guarded (url ≠ node.address ∧ (r.announcesDrain = true ∨ 0 < s.permits))
          (r.send node s url rest now contended)
      | [] => none
    | _ => none
  | .permitTimeout =>
    match s.loop with
    | .sending r =>
      match r.left with
      | url :: rest =>
        guarded (url ≠ node.address ∧ r.announcesDrain = false)
          { s with loop := .sending { r with left := rest } }
      | [] => none
    | _ => none
  | .endTargets =>
    match s.loop with
    | .sending r =>
      guarded (r.left = [])
        (if r.announcesDrain then { s with loop := .joining r }
        else { s with loop := .waiting, rounds := s.rounds ++ [r] })
    | _ => none
  | .joined =>
    match s.loop with
    | .joining r =>
      guarded (∀ i ∈ r.sends, (s.sends[i]?).all (·.finished) = true)
        { s with loop := .waiting, drainGossipSent := true, rounds := s.rounds ++ [r] }
    | _ => none
  | .sendFinished index now success =>
    match s.sends[index]? with
    | some send =>
      guarded (send.finished = false)
        { s with
          circuits := recorded node s.circuits now send.cbKey send.probeTicket success
          permits := if send.permit then s.permits + 1 else s.permits
          sends := s.sends.set index { send with finished := true } }
    | none => none
  | _ => none

variable (urls : UrlParser)

/-- The tasks beside the loop. -/
def otherStep (node : Node) (s : Shared) : Label → Option Shared
  | .beginShutdownDrain =>
    guarded (s.signal = .listening) { s with signal := .draining, draining := true }
  | .signalGossip =>
    guarded (s.signal = .draining) { s with signal := .done, gossipTrigger := true }
  | .notifyTrigger => some { s with gossipTrigger := true }
  | .startWait =>
    guarded (s.wait = .serving ∧ s.draining = true) { s with wait := .waiting }
  | .heard =>
    guarded (s.wait = .waiting ∧ s.drainGossipSent = true)
      { s with wait := .heard, drainGossipSent := false }
  | .waitTimeout => guarded (s.wait = .waiting) { s with wait := .timedOut }
  | .gossip delivery =>
    some { s with peers := processGossipMessage urls node.config s.peers delivery }
  | .claim peerId now contended =>
    guarded (peerId ∈ s.peers)
      { s with circuits := (tryClaimDispatchSync node.breaker s.circuits now peerId contended).2 }
  | .result peerId now probeTicket success =>
    guarded (peerId ∈ s.peers)
      { s with circuits := recorded node s.circuits now peerId probeTicket success }
  | _ => none

/-- One step of one task. -/
def step (node : Node) (s : Shared) (label : Label) : Option Shared :=
  match label with
  | .tick | .triggered | .readDraining | .buildState _ _ | .collect _ _ _ => roundStep node s label
  | .skipSelf | .spawnSend _ _ | .permitTimeout | .endTargets | .joined | .sendFinished _ _ _ =>
    sendStep node s label
  | _ => otherStep urls node s label

/-! ## What one step does -/

/-- Every step, with its guard and the state it leaves. -/
inductive Effect (node : Node) (s : Shared) : Label → Shared → Prop where
  | tick (hloop : s.loop = .waiting) : Effect node s .tick { s with loop := .woken }
  | triggered (hloop : s.loop = .waiting) (htrigger : s.gossipTrigger = true) :
      Effect node s .triggered { s with loop := .woken, gossipTrigger := false }
  | readDraining (hloop : s.loop = .woken) :
      Effect node s .readDraining { s with loop := .read s.draining }
  | buildState (reading : PeerState) (canServe announcesDrain : Bool)
      (hloop : s.loop = .read announcesDrain) :
      Effect node s (.buildState reading canServe)
        { s with
          gossipSeq := s.gossipSeq + 1
          loop := .built announcesDrain
            (node.getGossipPeerState reading s.draining canServe s.gossipSeq)
          snapshots := s.snapshots ++
            [node.getGossipPeerState reading s.draining canServe s.gossipSeq] }
  | collect (known : List PeerState) (discovered targets : List String) (announcesDrain : Bool)
      (origin : PeerState) (hloop : s.loop = .built announcesDrain origin)
      (hknown : Lists s.peers known)
      (htargets : ∀ url, url ∈ targets ↔ url ∈ allTargets node.config known discovered) :
      Effect node s (.collect known discovered targets)
        { s with
          circuits := (forget s.circuits (gossipUrlCircuitKeys s.urlCircuitKeys targets
            (urlToNodeId known) (known.map (·.nodeId)) node.address).2).1
          urlCircuitKeys := s.urlCircuitKeys ++ (gossipUrlCircuitKeys s.urlCircuitKeys targets
            (urlToNodeId known) (known.map (·.nodeId)) node.address).1
          loop := .sending (.collected announcesDrain origin known targets) }
  | skipSelf (r : Round) (rest : List String) (hloop : s.loop = .sending r)
      (hleft : r.left = node.address :: rest) :
      Effect node s .skipSelf { s with loop := .sending { r with left := rest } }
  | spawnSend (now : Nat) (contended : Bool) (r : Round) (url : String) (rest : List String)
      (hloop : s.loop = .sending r) (hleft : r.left = url :: rest) (hother : url ≠ node.address) :
      Effect node s (.spawnSend now contended) (r.send node s url rest now contended)
  | permitTimeout (r : Round) (url : String) (rest : List String) (hloop : s.loop = .sending r)
      (hleft : r.left = url :: rest) (hround : r.announcesDrain = false) :
      Effect node s .permitTimeout { s with loop := .sending { r with left := rest } }
  | endRound (r : Round) (hloop : s.loop = .sending r) (hleft : r.left = [])
      (hround : r.announcesDrain = false) :
      Effect node s .endTargets { s with loop := .waiting, rounds := s.rounds ++ [r] }
  | endTargets (r : Round) (hloop : s.loop = .sending r) (hleft : r.left = [])
      (hround : r.announcesDrain = true) :
      Effect node s .endTargets { s with loop := .joining r }
  | joined (r : Round) (hloop : s.loop = .joining r)
      (hfinished : ∀ i ∈ r.sends, ∀ send, s.sends[i]? = some send → send.finished = true) :
      Effect node s .joined
        { s with loop := .waiting, drainGossipSent := true, rounds := s.rounds ++ [r] }
  | sendFinished (index now : Nat) (success : Bool) (send : Send)
      (hsend : s.sends[index]? = some send) :
      Effect node s (.sendFinished index now success)
        { s with
          circuits := recorded node s.circuits now send.cbKey send.probeTicket success
          permits := if send.permit then s.permits + 1 else s.permits
          sends := s.sends.set index { send with finished := true } }
  | beginShutdownDrain (hsignal : s.signal = .listening) :
      Effect node s .beginShutdownDrain { s with signal := .draining, draining := true }
  | signalGossip (hsignal : s.signal = .draining) :
      Effect node s .signalGossip { s with signal := .done, gossipTrigger := true }
  | notifyTrigger : Effect node s .notifyTrigger { s with gossipTrigger := true }
  | startWait (hwait : s.wait = .serving) : Effect node s .startWait { s with wait := .waiting }
  | heard (hwait : s.wait = .waiting) (hsent : s.drainGossipSent = true) :
      Effect node s .heard { s with wait := .heard, drainGossipSent := false }
  | waitTimeout (hwait : s.wait = .waiting) :
      Effect node s .waitTimeout { s with wait := .timedOut }
  | gossip (delivery : Delivery) :
      Effect node s (.gossip delivery)
        { s with peers := processGossipMessage urls node.config s.peers delivery }
  | claim (peerId : String) (now : Nat) (contended : Bool) (hpeer : peerId ∈ s.peers) :
      Effect node s (.claim peerId now contended)
        { s with circuits := (tryClaimDispatchSync node.breaker s.circuits now peerId contended).2 }
  | result (peerId : String) (now : Nat) (probeTicket success : Bool) (hpeer : peerId ∈ s.peers) :
      Effect node s (.result peerId now probeTicket success)
        { s with circuits := recorded node s.circuits now peerId probeTicket success }

variable {urls} {node : Node} {s t : Shared} {label : Label}

private theorem effect_of_roundStep (h : roundStep node s label = some t) :
    Effect urls node s label t := by
  cases label with
  | tick =>
    obtain ⟨hloop, rfl⟩ := guarded_eq_some.mp h
    exact .tick hloop
  | triggered =>
    obtain ⟨⟨hloop, htrigger⟩, rfl⟩ := guarded_eq_some.mp h
    exact .triggered hloop htrigger
  | readDraining =>
    obtain ⟨hloop, rfl⟩ := guarded_eq_some.mp h
    exact .readDraining hloop
  | buildState reading canServe =>
    simp only [roundStep] at h
    split at h
    · next announcesDrain hloop =>
      obtain ⟨-, rfl⟩ := guarded_eq_some.mp h
      exact .buildState reading canServe announcesDrain hloop
    · cases h
  | collect known discovered targets =>
    simp only [roundStep] at h
    split at h
    · next announcesDrain origin hloop =>
      obtain ⟨⟨hknown, -, hsound, hcomplete⟩, rfl⟩ := guarded_eq_some.mp h
      exact .collect known discovered targets announcesDrain origin hloop hknown
        fun url => ⟨hsound url, hcomplete url⟩
    · cases h
  | _ => cases h

private theorem effect_of_sendStep (h : sendStep node s label = some t) :
    Effect urls node s label t := by
  cases label with
  | skipSelf =>
    simp only [sendStep] at h
    split at h
    · next r hloop =>
      split at h
      · next url rest hleft =>
        obtain ⟨rfl, rfl⟩ := guarded_eq_some.mp h
        exact .skipSelf r rest hloop hleft
      · cases h
    · cases h
  | spawnSend now contended =>
    simp only [sendStep] at h
    split at h
    · next r hloop =>
      split at h
      · next url rest hleft =>
        obtain ⟨⟨hother, -⟩, rfl⟩ := guarded_eq_some.mp h
        exact .spawnSend now contended r url rest hloop hleft hother
      · cases h
    · cases h
  | permitTimeout =>
    simp only [sendStep] at h
    split at h
    · next r hloop =>
      split at h
      · next url rest hleft =>
        obtain ⟨⟨-, hround⟩, rfl⟩ := guarded_eq_some.mp h
        exact .permitTimeout r url rest hloop hleft hround
      · cases h
    · cases h
  | endTargets =>
    simp only [sendStep] at h
    split at h
    · next r hloop =>
      obtain ⟨hleft, rfl⟩ := guarded_eq_some.mp h
      cases hround : r.announcesDrain with
      | false => exact .endRound r hloop hleft hround
      | true => exact .endTargets r hloop hleft hround
    · cases h
  | joined =>
    simp only [sendStep] at h
    split at h
    · next r hloop =>
      obtain ⟨hfinished, rfl⟩ := guarded_eq_some.mp h
      refine .joined r hloop fun i hi send hsend => ?_
      simpa [hsend] using hfinished i hi
    · cases h
  | sendFinished index now success =>
    simp only [sendStep] at h
    split at h
    · next send hsend =>
      obtain ⟨-, rfl⟩ := guarded_eq_some.mp h
      exact .sendFinished index now success send hsend
    · cases h
  | _ => cases h

private theorem effect_of_otherStep (h : otherStep urls node s label = some t) :
    Effect urls node s label t := by
  cases label with
  | beginShutdownDrain =>
    obtain ⟨hsignal, rfl⟩ := guarded_eq_some.mp h
    exact .beginShutdownDrain hsignal
  | signalGossip =>
    obtain ⟨hsignal, rfl⟩ := guarded_eq_some.mp h
    exact .signalGossip hsignal
  | notifyTrigger =>
    cases h
    exact .notifyTrigger
  | startWait =>
    obtain ⟨⟨hwait, -⟩, rfl⟩ := guarded_eq_some.mp h
    exact .startWait hwait
  | heard =>
    obtain ⟨⟨hwait, hsent⟩, rfl⟩ := guarded_eq_some.mp h
    exact .heard hwait hsent
  | waitTimeout =>
    obtain ⟨hwait, rfl⟩ := guarded_eq_some.mp h
    exact .waitTimeout hwait
  | gossip delivery =>
    cases h
    exact .gossip delivery
  | claim peerId now contended =>
    obtain ⟨hpeer, rfl⟩ := guarded_eq_some.mp h
    exact .claim peerId now contended hpeer
  | result peerId now probeTicket success =>
    obtain ⟨hpeer, rfl⟩ := guarded_eq_some.mp h
    exact .result peerId now probeTicket success hpeer
  | _ => cases h

/-- The inversion of a step. -/
theorem step_effect (h : step urls node s label = some t) : Effect urls node s label t := by
  unfold step at h
  split at h
  · exact effect_of_roundStep h
  · exact effect_of_roundStep h
  · exact effect_of_roundStep h
  · exact effect_of_roundStep h
  · exact effect_of_roundStep h
  · exact effect_of_sendStep h
  · exact effect_of_sendStep h
  · exact effect_of_sendStep h
  · exact effect_of_sendStep h
  · exact effect_of_sendStep h
  · exact effect_of_sendStep h
  · exact effect_of_otherStep h

end Llamesh.Gossip
