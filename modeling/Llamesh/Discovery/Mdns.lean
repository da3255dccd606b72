import Llamesh.Gossip.Address
import Llamesh.Library.Table
import Mathlib.Data.Finset.Basic
import Mathlib.Data.List.MinMax
import Mathlib.Data.String.Basic

/-!
# Peers discovered over mDNS

The set of peers that `Discovery::new` starts from the configuration and the mDNS
browse loop changes (`src/discovery/mod.rs:143–181`, `src/discovery/mdns.rs:95–203`).
A service contributes one peer under its fullname; of the services of a node the
one with the least normalised fullname is shown. Explicit and discovered peers
share the set, which is keyed by a node id that a remote service chooses: the
explicit peers are kept as long as no service takes one of their ids.
-/

namespace Llamesh.Discovery

open Gossip

/-- A peer that was found. `src/discovery/mod.rs:15–20`. -/
structure DiscoveredPeer where
  nodeId : String
  clusterAddr : String
  publicKey : Option String
  deriving DecidableEq

/-- A resolved service: its TXT properties, its addresses without their scope, and its port. -/
structure ServiceInfo where
  fullname : String
  nodeId : Option String
  pubkey : Option String
  addresses : List IpAddr
  port : UInt16

/-- The events of `mdns_sd`; the loop ignores the other ones. -/
inductive ServiceEvent where
  | resolved (info : ServiceInfo)
  | removed (fullname : String)
  | other

/-! ### What a service contributes -/

/-- The order of `IpAddr`: IPv4 before IPv6, by value within each. -/
def ipRank : IpAddr → Nat
  | .v4 a b c d => [a, b, c, d].foldl (fun n o => n * 256 + o.toNat) 0
  | .v6 s => 2 ^ 32 + s.toList.foldl (fun n o => n * 65536 + o.toNat) 0

/-- An address the cluster transports can reach. `src/discovery/mdns.rs:166–174`. -/
def reachable (ip : IpAddr) : Bool :=
  !ip.isUnspecified && !ip.isMulticast && !ip.isLoopback && !ip.isUnicastLinkLocal

/-- The least reachable address. `src/discovery/mdns.rs:160–178`. -/
def peerEndpoint (addresses : List IpAddr) (port : UInt16) : Option SocketAddr :=
  ((addresses.filter reachable).argmin ipRank).map fun ip => ⟨ip, port⟩

/-- The node id of a service: its TXT record, or its fullname. `src/discovery/mdns.rs:108–111`. -/
def ServiceInfo.node (info : ServiceInfo) : String := info.nodeId.getD info.fullname

/-- The peer of a resolved service; none for the local node or without an endpoint.
`src/discovery/mdns.rs:113–121`. -/
def ServiceInfo.peer (localNodeId : String) (info : ServiceInfo) : Option DiscoveredPeer :=
  ((peerEndpoint info.addresses info.port).filter fun _ => info.node != localNodeId).map
    fun addr => ⟨info.node, addr.display, info.pubkey⟩

/-- The service an event is about and the peer it contributes from then on. -/
def ServiceEvent.contribution (localNodeId : String) :
    ServiceEvent → Option (String × Option DiscoveredPeer)
  | .resolved info => some (info.fullname, info.peer localNodeId)
  | .removed fullname => some (fullname, none)
  | .other => none

/-! ### Reconciliation -/

/-- DNS names without the root dot and in lower case. `src/discovery/mdns.rs:188`. -/
def normalise (fullname : String) : String :=
  String.ofList ((fullname.toList.rdropWhile (· == '.')).map Char.toLower)

/-- The contribution of the node's service with the least name.
`src/discovery/mdns.rs:196–200`. -/
def selected (services : Table String DiscoveredPeer) (nodeId : String) :
    Option DiscoveredPeer :=
  ((services.entries.filter fun e => e.2.nodeId == nodeId).argmin fun e => e.1).map fun e => e.2

/-- Show the node's selected contribution instead of its earlier one.
`src/discovery/mdns.rs:193–201`. -/
def reconcile (services : Table String DiscoveredPeer) (peers : Finset DiscoveredPeer)
    (nodeId : String) : Finset DiscoveredPeer :=
  let peers := peers.filter fun p => p.nodeId ≠ nodeId
  match selected services nodeId with
  | some p => insert p peers
  | none => peers

/-- One service event: the peer of its name takes the place of the earlier one.
`src/discovery/mdns.rs:182–203`. -/
def replaceServicePeer (services : Table String DiscoveredPeer) (peers : Finset DiscoveredPeer)
    (fullname : String) (peer : Option DiscoveredPeer) :
    Table String DiscoveredPeer × Finset DiscoveredPeer :=
  let fullname := normalise fullname
  let previous := services.lookup fullname
  let services := match peer with
    | some p => services.insert fullname p
    | none => services.erase fullname
  let affected := previous.toList ++ peer.toList
  (services, affected.foldl (fun peers p => reconcile services peers p.nodeId) peers)

/-- The contributions of the services and the peers shown. -/
structure Browse where
  services : Table String DiscoveredPeer
  peers : Finset DiscoveredPeer

/-- An explicit peer. `src/discovery/mod.rs:157–163`. -/
def explicitPeer (addr : String) : DiscoveredPeer := ⟨"explicit:" ++ addr, addr, none⟩

/-- The peers of the configuration. -/
def explicitPeers (addrs : List String) : Finset DiscoveredPeer :=
  (addrs.map explicitPeer).toFinset

/-- One event. `src/discovery/mdns.rs:104–142`. -/
def Browse.handle (localNodeId : String) (s : Browse) (e : ServiceEvent) : Browse :=
  match e.contribution localNodeId with
  | some (fullname, peer) =>
    let r := replaceServicePeer s.services s.peers fullname peer
    ⟨r.1, r.2⟩
  | none => s

/-- The browse loop over the events received. -/
def browse (addrs : List String) (localNodeId : String) (events : List ServiceEvent) : Browse :=
  events.foldl (Browse.handle localNodeId) ⟨∅, explicitPeers addrs⟩

/-! ### The last event of each service -/

/-- What a service contributes after the events: the contribution of its last one. -/
def lastContribution (localNodeId : String) (events : List ServiceEvent) (name : String) :
    Option DiscoveredPeer :=
  events.foldl (fun last e => match e.contribution localNodeId with
    | some (fullname, peer) => if normalise fullname = name then peer else last
    | none => last) none

/-- The peer is the contribution of its node's live service with the least normalised name. -/
def Shown (localNodeId : String) (events : List ServiceEvent) (p : DiscoveredPeer) : Prop :=
  ∃ name, lastContribution localNodeId events name = some p ∧
    ∀ other q, lastContribution localNodeId events other = some q → q.nodeId = p.nodeId →
      name ≤ other

/-- The node has a live service. -/
def Contributed (localNodeId : String) (events : List ServiceEvent) (nodeId : String) : Prop :=
  ∃ name p, lastContribution localNodeId events name = some p ∧ p.nodeId = nodeId

/-- The peers are the explicit ones and, for each node with a live service, exactly one more. -/
def Reconciled (addrs : List String) (localNodeId : String) (events : List ServiceEvent) : Prop :=
  (∀ p, p ∈ (browse addrs localNodeId events).peers ↔
    p ∈ explicitPeers addrs ∨ Shown localNodeId events p) ∧
  ∀ nodeId, Contributed localNodeId events nodeId → ∃! p, Shown localNodeId events p ∧
    p.nodeId = nodeId

/-- The event contributes no peer under the id of an explicit one. -/
def Foreign (addrs : List String) (localNodeId : String) (e : ServiceEvent) : Prop :=
  ∀ fullname p, e.contribution localNodeId = some (fullname, some p) →
    ∀ addr ∈ addrs, p.nodeId ≠ "explicit:" ++ addr

/-! ### Selection -/

/-- The selected contribution is that of the least name among the node's services. -/
theorem selected_eq_some {services : Table String DiscoveredPeer} {nodeId : String}
    {p : DiscoveredPeer} :
    selected services nodeId = some p ↔
      ∃ name, services.lookup name = some p ∧ p.nodeId = nodeId ∧
        ∀ other q, services.lookup other = some q → q.nodeId = nodeId → name ≤ other := by
  have hmem (name : String) (q : DiscoveredPeer) :
      (⟨name, q⟩ : Sigma fun _ : String => DiscoveredPeer) ∈
          services.entries.filter (fun e => e.2.nodeId == nodeId) ↔
        services.lookup name = some q ∧ q.nodeId = nodeId := by
    rw [List.mem_filter, ← AList.mem_lookup_iff, Option.mem_def, beq_iff_eq]
  simp only [selected, Option.map_eq_some_iff]
  constructor
  · rintro ⟨e, he, rfl⟩
    obtain ⟨hlookup, hid⟩ := (hmem e.1 e.2).mp (List.argmin_mem he)
    refine ⟨e.1, hlookup, hid, fun other q hq hqid => ?_⟩
    exact List.le_of_mem_argmin ((hmem other q).mpr ⟨hq, hqid⟩) he
  · rintro ⟨name, hlookup, hid, hleast⟩
    have hin := (hmem name p).mpr ⟨hlookup, hid⟩
    cases hmin : (services.entries.filter fun e => e.2.nodeId == nodeId).argmin fun e => e.1 with
    | none =>
      rw [List.argmin_eq_none.mp hmin] at hin
      exact absurd hin List.not_mem_nil
    | some e =>
      obtain ⟨he, heid⟩ := (hmem e.1 e.2).mp (List.argmin_mem hmin)
      have hname : e.1 = name :=
        le_antisymm (List.le_of_mem_argmin hin hmin) (hleast e.1 e.2 he heid)
      rw [hname, hlookup] at he
      exact ⟨e, rfl, (Option.some.inj he).symm⟩

/-- Reconciling nodes decides which of their peers are shown and leaves the other ones. -/
theorem mem_foldl_reconcile (services : Table String DiscoveredPeer)
    (affected : List DiscoveredPeer) (peers : Finset DiscoveredPeer) (p : DiscoveredPeer) :
    p ∈ affected.foldl (fun peers a => reconcile services peers a.nodeId) peers ↔
      if ∃ a ∈ affected, a.nodeId = p.nodeId then selected services p.nodeId = some p
      else p ∈ peers := by
  have hstep (peers : Finset DiscoveredPeer) (a : DiscoveredPeer) :
      p ∈ reconcile services peers a.nodeId ↔
        if a.nodeId = p.nodeId then selected services p.nodeId = some p else p ∈ peers := by
    unfold reconcile
    dsimp only
    split
    · next q hq =>
      obtain ⟨-, -, hqid, -⟩ := selected_eq_some.mp hq
      rw [Finset.mem_insert, Finset.mem_filter]
      by_cases hid : a.nodeId = p.nodeId
      · rw [if_pos hid, ← hid, hq]
        simp [hid, eq_comm]
      · have hne : p ≠ q := by
          rintro rfl
          exact hid hqid.symm
        simp [hid, hne, Ne.symm hid]
    · next hq =>
      rw [Finset.mem_filter]
      by_cases hid : a.nodeId = p.nodeId
      · rw [if_pos hid, ← hid, hq]
        simp [hid]
      · simp [hid, Ne.symm hid]
  induction affected generalizing peers with
  | nil => simp
  | cons a affected ih =>
    rw [List.foldl_cons]
    refine (ih _).trans ?_
    rw [hstep]
    by_cases hid : a.nodeId = p.nodeId
    · simp [hid]
    · simp [hid]

/-- The selection of a node reads its own services only. -/
theorem selected_congr {services others : Table String DiscoveredPeer} {nodeId : String}
    (h : ∀ name q, q.nodeId = nodeId →
      (services.lookup name = some q ↔ others.lookup name = some q)) :
    selected services nodeId = selected others nodeId := by
  refine Option.ext fun p => ?_
  rw [selected_eq_some, selected_eq_some]
  constructor
  · rintro ⟨name, hname, hid, hleast⟩
    exact ⟨name, (h name p hid).mp hname, hid,
      fun other q hq hqid => hleast other q ((h other q hqid).mpr hq) hqid⟩
  · rintro ⟨name, hname, hid, hleast⟩
    exact ⟨name, (h name p hid).mpr hname, hid,
      fun other q hq hqid => hleast other q ((h other q hqid).mp hq) hqid⟩

/-! ### One event -/

/-- The services after an event. -/
theorem lookup_replaceServicePeer (services : Table String DiscoveredPeer)
    (peers : Finset DiscoveredPeer) (fullname : String) (peer : Option DiscoveredPeer)
    (name : String) :
    (replaceServicePeer services peers fullname peer).1.lookup name =
      if normalise fullname = name then peer else services.lookup name := by
  unfold replaceServicePeer
  cases peer with
  | some p =>
    simp only [Table.lookup_insert_eq, eq_comm]
  | none =>
    simp only [Table.lookup_erase_eq, eq_comm]

/-- The set shows the explicit peers and the selected contributions. -/
def Shows (explicit : Finset DiscoveredPeer) (services : Table String DiscoveredPeer)
    (peers : Finset DiscoveredPeer) : Prop :=
  ∀ p, p ∈ peers ↔ p ∈ explicit ∨ selected services p.nodeId = some p

/-- An event keeps that, as long as no contribution has the id of an explicit peer. -/
theorem shows_replaceServicePeer {explicit peers : Finset DiscoveredPeer}
    {services : Table String DiscoveredPeer} (fullname : String) {peer : Option DiscoveredPeer}
    (h : Shows explicit services peers)
    (hold : ∀ name a, services.lookup name = some a → ∀ q ∈ explicit, a.nodeId ≠ q.nodeId)
    (hnew : ∀ a, peer = some a → ∀ q ∈ explicit, a.nodeId ≠ q.nodeId) :
    Shows explicit (replaceServicePeer services peers fullname peer).1
      (replaceServicePeer services peers fullname peer).2 := by
  intro p
  have hlookup := lookup_replaceServicePeer services peers fullname peer
  have hpeers : (replaceServicePeer services peers fullname peer).2 =
      ((services.lookup (normalise fullname)).toList ++ peer.toList).foldl
        (fun shown a =>
          reconcile (replaceServicePeer services peers fullname peer).1 shown a.nodeId)
        peers := rfl
  rw [hpeers, mem_foldl_reconcile]
  generalize (replaceServicePeer services peers fullname peer).1 = services' at hlookup ⊢
  split
  · next haffected =>
    obtain ⟨a, ha, hid⟩ := haffected
    -- an affected node is not explicit
    have hnot : p ∉ explicit := by
      intro hp
      rw [List.mem_append, Option.mem_toList, Option.mem_toList] at ha
      obtain ha | ha := ha
      · exact hold _ a ha p hp hid
      · exact hnew a ha p hp hid
    simp [hnot]
  · next haffected =>
    rw [h p]
    have hsame : selected services' p.nodeId = selected services p.nodeId := by
      refine selected_congr fun name q hq => ?_
      rw [hlookup]
      by_cases hname : normalise fullname = name
      · subst hname
        rw [if_pos rfl]
        constructor
        · intro hpeer
          exact absurd ⟨q, by simp [hpeer], hq⟩ haffected
        · intro hprev
          exact absurd ⟨q, by simp [hprev], hq⟩ haffected
      · rw [if_neg hname]
    rw [hsame]

/-! ### The whole loop -/

private theorem mem_explicitPeers {addrs : List String} {q : DiscoveredPeer} :
    q ∈ explicitPeers addrs ↔ ∃ addr ∈ addrs, explicitPeer addr = q := by
  simp [explicitPeers]

/-- The services hold the last contributions, none under the id of an explicit peer, and the set
shows them. -/
structure Consistent (addrs : List String) (localNodeId : String) (events : List ServiceEvent)
    (s : Browse) : Prop where
  services : ∀ name, s.services.lookup name = lastContribution localNodeId events name
  foreign : ∀ name a, s.services.lookup name = some a → ∀ q ∈ explicitPeers addrs,
    a.nodeId ≠ q.nodeId
  shows : Shows (explicitPeers addrs) s.services s.peers

private theorem consistent_init (addrs : List String) (localNodeId : String) :
    Consistent addrs localNodeId [] ⟨∅, explicitPeers addrs⟩ := by
  refine ⟨fun _ => rfl, fun _ _ h => (by cases h), fun p => ?_⟩
  have hnone : selected (∅ : Table String DiscoveredPeer) p.nodeId = none := rfl
  simp [hnone]

private theorem consistent_handle {addrs : List String} {localNodeId : String}
    {events : List ServiceEvent} {s : Browse} {e : ServiceEvent}
    (h : Consistent addrs localNodeId events s) (he : Foreign addrs localNodeId e) :
    Consistent addrs localNodeId (events ++ [e]) (s.handle localNodeId e) := by
  have hlast (name : String) : lastContribution localNodeId (events ++ [e]) name =
      match e.contribution localNodeId with
      | some (fullname, peer) =>
        if normalise fullname = name then peer else lastContribution localNodeId events name
      | none => lastContribution localNodeId events name := by
    simp [lastContribution, List.foldl_append]
  unfold Browse.handle
  cases hc : e.contribution localNodeId with
  | none =>
    refine ⟨fun name => ?_, h.foreign, h.shows⟩
    rw [hlast, hc]
    exact h.services name
  | some c =>
    obtain ⟨fullname, peer⟩ := c
    have hnew : ∀ a, peer = some a → ∀ q ∈ explicitPeers addrs, a.nodeId ≠ q.nodeId := by
      rintro a rfl q hq
      obtain ⟨addr, haddr, rfl⟩ := mem_explicitPeers.mp hq
      exact he fullname a hc addr haddr
    refine ⟨fun name => ?_, fun name a ha => ?_, ?_⟩
    · rw [hlast, hc]
      dsimp only
      rw [lookup_replaceServicePeer, h.services name]
    · dsimp only at ha
      rw [lookup_replaceServicePeer] at ha
      split at ha
      · exact hnew a ha
      · exact h.foreign name a ha
    · exact shows_replaceServicePeer fullname h.shows h.foreign hnew

private theorem consistent_browse {addrs : List String} {localNodeId : String}
    (events : List ServiceEvent) (h : ∀ e ∈ events, Foreign addrs localNodeId e) :
    Consistent addrs localNodeId events (browse addrs localNodeId events) := by
  induction events using List.reverseRecOn with
  | nil => exact consistent_init addrs localNodeId
  | append_singleton events e ih =>
    rw [browse, List.foldl_append, List.foldl_cons, List.foldl_nil]
    refine consistent_handle (ih fun e he => h e (List.mem_append_left _ he)) ?_
    exact h e (List.mem_append_right _ List.mem_cons_self)

private theorem Consistent.selected_iff {addrs : List String} {localNodeId : String}
    {events : List ServiceEvent} {s : Browse} (h : Consistent addrs localNodeId events s)
    (p : DiscoveredPeer) :
    selected s.services p.nodeId = some p ↔ Shown localNodeId events p := by
  rw [selected_eq_some, Shown]
  simp only [h.services, true_and]

private theorem existsUnique_shown {addrs : List String} {localNodeId : String}
    {events : List ServiceEvent} {s : Browse} (h : Consistent addrs localNodeId events s)
    {nodeId : String} (hn : Contributed localNodeId events nodeId) :
    ∃! p, Shown localNodeId events p ∧ p.nodeId = nodeId := by
  obtain ⟨name, a, hname, haid⟩ := hn
  cases hsel : selected s.services nodeId with
  | none =>
    have hmin : (s.services.entries.filter fun e => e.2.nodeId == nodeId) = [] := by
      rwa [selected, Option.map_eq_none_iff, List.argmin_eq_none] at hsel
    have hin : (⟨name, a⟩ : Sigma fun _ : String => DiscoveredPeer) ∈
        s.services.entries.filter fun e => e.2.nodeId == nodeId := by
      rw [List.mem_filter, ← AList.mem_lookup_iff, Option.mem_def, beq_iff_eq, h.services]
      exact ⟨hname, haid⟩
    rw [hmin] at hin
    exact absurd hin List.not_mem_nil
  | some p =>
    obtain ⟨-, -, hid, -⟩ := selected_eq_some.mp hsel
    refine ⟨p, ⟨(h.selected_iff p).mp (by rw [hid, hsel]), hid⟩, ?_⟩
    rintro q ⟨hq, hqid⟩
    have hqsel := (h.selected_iff q).mpr hq
    rw [hqid, hsel] at hqsel
    exact (Option.some.inj hqsel).symm

private theorem reconciled_of_foreign {addrs : List String} {localNodeId : String}
    {events : List ServiceEvent} (h : ∀ e ∈ events, Foreign addrs localNodeId e) :
    Reconciled addrs localNodeId events := by
  have hc := consistent_browse events h
  refine ⟨fun p => ?_, fun nodeId hn => existsUnique_shown hc hn⟩
  rw [hc.shows p, hc.selected_iff p]

/-- In every run in which no service contributes a peer under the id of an explicit one, the peers
are the explicit ones and one for each node with a live service, whatever the order of the events
of different services. -/
theorem peers_reconciled (addrs : List String) (localNodeId : String)
    (events : List ServiceEvent) (h : ∀ e ∈ events, Foreign addrs localNodeId e) :
    Reconciled addrs localNodeId events ∧
      ∀ others, (∀ e ∈ others, Foreign addrs localNodeId e) →
        (∀ name, lastContribution localNodeId others name =
          lastContribution localNodeId events name) →
        (browse addrs localNodeId others).peers = (browse addrs localNodeId events).peers := by
  refine ⟨reconciled_of_foreign h, fun others ho hlast => ?_⟩
  ext p
  rw [(reconciled_of_foreign ho).1 p, (reconciled_of_foreign h).1 p]
  simp only [Shown, hlast]

/-- A service at `192.0.2.7` with a node id. -/
def serviceAt (fullname nodeId : String) : ServiceEvent :=
  .resolved ⟨fullname, some nodeId, some "key", [.v4 192 0 2 7], 8080⟩

/-- A service that takes the id of an explicit peer removes that peer. -/
theorem explicit_peer_replaced :
    ¬ Reconciled ["192.0.2.1:8080"] "local"
      [serviceAt "a._llama-mesh._tcp.local." "explicit:192.0.2.1:8080"] := by
  intro h
  have hin := (h.1 (explicitPeer "192.0.2.1:8080")).mpr (.inl (by decide))
  revert hin
  decide +kernel

/-- Two services of one node, one of which goes away again. -/
theorem peers_reconciled_two_services :
    Reconciled ["192.0.2.1:8080"] "local"
      [serviceAt "b._llama-mesh._tcp.local." "node", serviceAt "A._llama-mesh._tcp.local" "node",
        .removed "a._llama-mesh._tcp.local."] := by
  refine (peers_reconciled _ _ _ ?_).1
  intro e he fullname p hp addr haddr
  obtain rfl := List.mem_singleton.mp haddr
  simp only [List.mem_cons, List.not_mem_nil, or_false] at he
  obtain rfl | rfl | rfl := he
  · obtain ⟨-, hp⟩ := Prod.mk.inj (Option.some.inj hp)
    obtain rfl := Option.some.inj hp
    decide
  · obtain ⟨-, hp⟩ := Prod.mk.inj (Option.some.inj hp)
    obtain rfl := Option.some.inj hp
    decide
  · cases hp

end Llamesh.Discovery
