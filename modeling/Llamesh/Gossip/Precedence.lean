import Llamesh.Gossip.Model

/-!
# Precedence of peer addresses

Which address an entry has after a message: the address the peer advertises when it is usable from
elsewhere, and for a loopback address the stored route, a configured seed, or the address the
message came from, in this order (`src/cluster.rs:605,670–743`).

`AddressPrecedence` collects what every message keeps. A message without a source that advertises a
loopback address leaves the stored route and its provenance alone, unless a configured seed decides:
seeds protect a source-derived route that equals one, and name the route of a node whose id is their
host.
-/

namespace Llamesh.Gossip

variable (urls : UrlParser) (config : NodeConfig)

/-- The delivery as the handler may read it: without the source port and without the provenance the
message claims. -/
def Delivery.scrub (d : Delivery) : Delivery :=
  { d with
    message := { d.message with origin := { d.message.origin with addressFromSource := false } }
    source := d.source.map fun source => { source with port := 0 } }

/-- A seed decides the route of a peer that sent no usable address and has the entry `e`: a
source-derived route equal to a seed is kept as configured, and a peer without an authoritative
route gets the seed that names it. -/
def SeedDecides (e e' : PeerState) : Prop :=
  e'.addressFromSource = false ∧ ∃ seed ∈ config.clusterPeers,
    (e.addressFromSource = true ∧ isLoopbackAddress e.address = false ∧
        samePeerUrl urls seed e.address = true ∧ e'.address = e.address) ∨
      ((isLoopbackAddress e.address = true ∨ e.addressFromSource = true) ∧
        extractHostFromUrl seed = e.nodeId ∧ isLoopbackAddress seed = false ∧ e'.address = seed)

/-- What one message does to the addresses of the map. -/
structure AddressPrecedence (before : Peers) (d : Delivery) (after : Peers) : Prop where
  /-- An authoritative route is kept, or replaced by the address its peer advertises. -/
  authoritative : ∀ nodeId e e', before.lookup nodeId = some e → after.lookup nodeId = some e' →
    isLoopbackAddress e.address = false → e.addressFromSource = false →
      e'.addressFromSource = false ∧ (e'.address = e.address ∨
        nodeId = d.message.origin.nodeId ∧ e'.address = d.message.origin.address ∧
          isLoopbackAddress e'.address = false)
  /-- A loopback source does not matter to a peer with a non-loopback route. -/
  loopbackSource : ∀ e source, before.lookup d.message.origin.nodeId = some e →
    isLoopbackAddress e.address = false → d.source = some source →
      source.ip.toCanonical.isLoopback = true →
        after = processGossipMessage urls config before { d with source := none }
  /-- Neither the source port nor the claimed provenance matters. -/
  scrubbed : after = processGossipMessage urls config before d.scrub
  /-- Without a source and a usable address the route and its provenance stay, unless a configured
  seed decides. -/
  withoutSource : ∀ e e', d.source = none → isLoopbackAddress d.message.origin.address = true →
    before.lookup d.message.origin.nodeId = some e →
    after.lookup d.message.origin.nodeId = some e' →
      e'.address = e.address ∧ e'.addressFromSource = e.addressFromSource ∨
        SeedDecides urls config e e'

/-! ## One resolution -/

variable {urls config} {e peer : PeerState} {existing : Option PeerState}
  {source : Option SocketAddr}

private theorem resolve_advertised (h : isLoopbackAddress peer.address = false) :
    resolveAddress urls config existing source peer = (peer.address, false) := by
  unfold resolveAddress
  rw [h]
  rfl

private theorem resolve_kept (h : isLoopbackAddress peer.address = true)
    (hkeeps : keepsRoute urls config e = true) :
    resolveAddress urls config (some e) source peer = (e.address, false) := by
  unfold resolveAddress
  rw [h, Option.filter_some, if_pos hkeeps]
  rfl

private theorem resolve_seed {seed : String} (h : isLoopbackAddress peer.address = true)
    (hkeeps : keepsRoute urls config e = false) (hseed : seedFor config peer.nodeId = some seed) :
    resolveAddress urls config (some e) source peer = (seed, false) := by
  unfold resolveAddress
  rw [h, Option.filter_some, hkeeps, hseed]
  rfl

private theorem resolve_unsourced (h : isLoopbackAddress peer.address = true)
    (hkeeps : keepsRoute urls config e = false) (hseed : seedFor config peer.nodeId = none)
    (hsource : usableSource (some e) source = none) :
    resolveAddress urls config (some e) source peer = (e.address, e.addressFromSource) := by
  unfold resolveAddress
  rw [h, Option.filter_some, hkeeps, hseed, hsource]
  rfl

private theorem resolve_congr {source' : Option SocketAddr}
    (h : (usableSource existing source).bind (sourcePeerUrl urls peer.address) =
      (usableSource existing source').bind (sourcePeerUrl urls peer.address)) :
    resolveAddress urls config existing source peer =
      resolveAddress urls config existing source' peer := by
  unfold resolveAddress
  rw [h]

private theorem keepsRoute_authoritative (hroute : isLoopbackAddress e.address = false)
    (hsource : e.addressFromSource = false) : keepsRoute urls config e = true := by
  rw [keepsRoute, hroute, hsource]
  rfl

private theorem usableSource_loopback {addr : SocketAddr}
    (hroute : isLoopbackAddress e.address = false)
    (haddr : addr.ip.toCanonical.isLoopback = true) :
    usableSource (some e) (some addr) = none := by
  rw [usableSource, Option.filter_some, haddr, Option.all_some, hroute]
  rfl

private theorem usableSource_port :
    (usableSource existing (source.map fun addr => { addr with port := 0 })).bind
        (sourcePeerUrl urls peer.address) =
      (usableSource existing source).bind (sourcePeerUrl urls peer.address) := by
  cases source with
  | none => rfl
  | some addr =>
    rw [usableSource, usableSource, Option.map_some, Option.filter_some, Option.filter_some]
    split
    · rfl
    · rfl

private theorem resolve_withoutSource (hloopback : isLoopbackAddress peer.address = true)
    (hid : e.nodeId = peer.nodeId) {e' : PeerState}
    (he' : resolveAddress urls config (some e) none peer = (e'.address, e'.addressFromSource)) :
    e'.address = e.address ∧ e'.addressFromSource = e.addressFromSource ∨
      SeedDecides urls config e e' := by
  cases hkeeps : keepsRoute urls config e with
  | true =>
    -- The stored route is kept; its provenance is lost only to a seed that equals it.
    rw [resolve_kept hloopback hkeeps, Prod.mk.injEq] at he'
    simp only [keepsRoute, Bool.and_eq_true, Bool.not_eq_true', Bool.or_eq_true,
      List.any_eq_true] at hkeeps
    obtain ⟨hroute, hsource⟩ := hkeeps
    cases hprovenance : e.addressFromSource with
    | false => exact Or.inl ⟨he'.1.symm, he'.2.symm⟩
    | true =>
      rw [hprovenance] at hsource
      obtain ⟨seed, hmem, hseed⟩ := hsource.resolve_left (by simp)
      exact Or.inr ⟨he'.2.symm, seed, hmem, Or.inl ⟨hprovenance, hroute, hseed, he'.1.symm⟩⟩
  | false =>
    have hopen : isLoopbackAddress e.address = true ∨ e.addressFromSource = true := by
      by_contra hnot
      rw [not_or, Bool.not_eq_true, Bool.not_eq_true] at hnot
      rw [keepsRoute_authoritative hnot.1 hnot.2] at hkeeps
      cases hkeeps
    cases hseed : seedFor config peer.nodeId with
    | some seed =>
      rw [resolve_seed hloopback hkeeps hseed, Prod.mk.injEq] at he'
      have hmem := List.mem_of_find?_eq_some hseed
      have hhost := List.find?_some hseed
      simp only [Bool.and_eq_true, decide_eq_true_eq, Bool.not_eq_true'] at hhost
      refine Or.inr ⟨he'.2.symm, seed, hmem, Or.inr ⟨hopen, ?_, hhost.2, he'.1.symm⟩⟩
      rw [hhost.1, hid]
    | none =>
      rw [resolve_unsourced hloopback hkeeps hseed rfl, Prod.mk.injEq] at he'
      exact Or.inl ⟨he'.1.symm, he'.2.symm⟩

/-! ## One message -/

private theorem resolve_provenance (b : Bool) :
    resolveAddress urls config existing source { peer with addressFromSource := b } =
      resolveAddress urls config existing source peer := by
  unfold resolveAddress
  dsimp only

private theorem stored_scrub (peers : Peers) (d : Delivery) :
    stored urls config peers d.scrub = stored urls config peers d := by
  have hresolve : resolveAddress urls config (peers.lookup d.message.origin.nodeId)
        (d.source.map fun addr => { addr with port := 0 })
        { d.message.origin with addressFromSource := false } =
      resolveAddress urls config (peers.lookup d.message.origin.nodeId) d.source
        d.message.origin := by
    rw [resolve_provenance, resolve_congr usableSource_port]
  unfold stored Delivery.scrub
  dsimp only
  rw [hresolve]

private theorem process_scrub (peers : Peers) (d : Delivery) :
    processGossipMessage urls config peers d.scrub = processGossipMessage urls config peers d := by
  have hstale : stale config peers d.scrub.now d.scrub.message.origin =
      stale config peers d.now d.message.origin := rfl
  have hversion : d.scrub.message.origin.version = d.message.origin.version := rfl
  unfold processGossipMessage
  dsimp only
  rw [hstale, hversion, stored_scrub]
  rfl

private theorem lookup_origin (peers : Peers) (d : Delivery) :
    (processGossipMessage urls config peers d).lookup d.message.origin.nodeId =
        peers.lookup d.message.origin.nodeId ∨
      (processGossipMessage urls config peers d).lookup d.message.origin.nodeId =
        some (stored urls config peers d) := by
  by_cases hignored : stale config peers d.now d.message.origin = true ∨
      shouldReject config d.message.origin.version = true
  · rw [process_of_ignored hignored]
    exact Or.inl rfl
  · simp only [not_or, Bool.not_eq_true] at hignored
    rw [lookup_process hignored.1 hignored.2, if_pos rfl]
    exact Or.inr rfl

private theorem stored_address (peers : Peers) (d : Delivery) :
    ((stored urls config peers d).address, (stored urls config peers d).addressFromSource) =
      resolveAddress urls config (peers.lookup d.message.origin.nodeId) d.source
        d.message.origin := by
  unfold stored
  dsimp only

private theorem process_loopbackSource {peers : Peers} {d : Delivery} {addr : SocketAddr}
    (he : peers.lookup d.message.origin.nodeId = some e)
    (hroute : isLoopbackAddress e.address = false) (hsource : d.source = some addr)
    (haddr : addr.ip.toCanonical.isLoopback = true) :
    processGossipMessage urls config peers d =
      processGossipMessage urls config peers { d with source := none } := by
  have hresolve : resolveAddress urls config (some e) (some addr) d.message.origin =
      resolveAddress urls config (some e) none d.message.origin := by
    apply resolve_congr
    rw [usableSource_loopback hroute haddr]
    rfl
  have hstored : stored urls config peers d =
      stored urls config peers { d with source := none } := by
    unfold stored
    dsimp only
    rw [he, hsource, hresolve]
  unfold processGossipMessage
  dsimp only
  rw [hstored]

private theorem receive_scrub (peers : Peers) (ds : List Delivery) :
    receive urls config peers (ds.map Delivery.scrub) = receive urls config peers ds := by
  unfold receive
  induction ds generalizing peers with
  | nil => rfl
  | cons d ds ih => rw [List.map_cons, List.foldl_cons, List.foldl_cons, process_scrub, ih]

/-- After every sequence of messages the next message keeps the precedence of addresses, and the
map never depends on a source port or on a provenance that a message claims. -/
theorem address_precedence (urls : UrlParser) (config : NodeConfig) (ds : List Delivery)
    (d : Delivery) :
    AddressPrecedence urls config (receive urls config ∅ ds) d
        (receive urls config ∅ (ds ++ [d])) ∧
      receive urls config ∅ (ds.map Delivery.scrub) = receive urls config ∅ ds := by
  refine ⟨?_, receive_scrub ∅ ds⟩
  have hfiled : Filed (receive urls config ∅ ds) := by
    apply filed_receive
    intro nodeId peer hpeer
    cases hpeer
  have hnext : receive urls config ∅ (ds ++ [d]) =
      processGossipMessage urls config (receive urls config ∅ ds) d := by
    simp [receive]
  rw [hnext]
  generalize receive urls config ∅ ds = before at hfiled
  constructor
  · intro nodeId e e' he he' hroute hsource
    by_cases hid : nodeId = d.message.origin.nodeId
    · subst hid
      rcases lookup_origin before d with hsame | hstored
      · rw [hsame, he] at he'
        cases he'
        exact ⟨hsource, Or.inl rfl⟩
      · rw [hstored] at he'
        cases he'
        have haddress := @stored_address urls config before d
        rw [he] at haddress
        cases hadvertised : isLoopbackAddress d.message.origin.address with
        | true =>
          rw [resolve_kept hadvertised (keepsRoute_authoritative hroute hsource),
            Prod.mk.injEq] at haddress
          exact ⟨haddress.2, Or.inl haddress.1⟩
        | false =>
          rw [resolve_advertised hadvertised, Prod.mk.injEq] at haddress
          exact ⟨haddress.2, Or.inr ⟨rfl, haddress.1, haddress.1 ▸ hadvertised⟩⟩
    · rcases @lookup_process_of_ne urls config before d nodeId hid with hsame | ⟨hnone, -⟩
      · rw [hsame, he] at he'
        cases he'
        exact ⟨hsource, Or.inl rfl⟩
      · rw [he] at hnone
        cases hnone
  · intro e addr he hroute hsource haddr
    exact process_loopbackSource he hroute hsource haddr
  · exact (process_scrub before d).symm
  · intro e e' hsource hloopback he he'
    rcases lookup_origin before d with hsame | hstored
    · rw [hsame, he] at he'
      cases he'
      exact Or.inl ⟨rfl, rfl⟩
    · rw [hstored] at he'
      cases he'
      apply resolve_withoutSource hloopback (hfiled _ e he)
      rw [stored_address, he, hsource]

/-! ## A seed that equals a derived route -/

/-- `node-a`, with the address of `node-b` as a seed. -/
def seededNode : NodeConfig := ⟨"node-a", "1.22.6", 5, "warn", ["http://10.0.0.2:9000"]⟩

/-- A message of `node-b`, which advertises its loopback address. -/
def loopbackGossip (seq : Nat) (source : Option SocketAddr) : Delivery where
  message := ⟨{ placeholder ⟨"node-b", "http://127.0.0.1:9000"⟩ 0 with
    version := "1.22.6", startedAtUnix := 100, gossipEpoch := 3, gossipSeq := seq }, []⟩
  source := source
  now := 101
  seenAt := fun _ => 101

/-- A message without a source and with a loopback address changes the provenance of the stored
address, because the address equals a configured seed. -/
theorem seed_takes_over_provenance :
    ∃ e e', (receive literalUrls seededNode ∅
          [loopbackGossip 1 (some ⟨.v4 10 0 0 2, 51234⟩)]).lookup "node-b" = some e ∧
      (receive literalUrls seededNode ∅
          [loopbackGossip 1 (some ⟨.v4 10 0 0 2, 51234⟩), loopbackGossip 2 none]).lookup
        "node-b" = some e' ∧
      e.address = "http://10.0.0.2:9000" ∧ e.addressFromSource = true ∧
      e'.address = "http://10.0.0.2:9000" ∧ e'.addressFromSource = false := by
  have hfirst : ((receive literalUrls seededNode ∅
      [loopbackGossip 1 (some ⟨.v4 10 0 0 2, 51234⟩)]).lookup "node-b").any (fun e =>
        e.address = "http://10.0.0.2:9000" && e.addressFromSource) = true := by
    decide +kernel
  have hsecond : ((receive literalUrls seededNode ∅
      [loopbackGossip 1 (some ⟨.v4 10 0 0 2, 51234⟩), loopbackGossip 2 none]).lookup
        "node-b").any (fun e => e.address = "http://10.0.0.2:9000" && !e.addressFromSource) =
      true := by
    decide +kernel
  obtain ⟨e, he, hfields⟩ := (Option.any_eq_true _ _).mp hfirst
  obtain ⟨e', he', hfields'⟩ := (Option.any_eq_true _ _).mp hsecond
  simp only [Bool.and_eq_true, decide_eq_true_eq, Bool.not_eq_true'] at hfields hfields'
  exact ⟨e, e', he, he', hfields.1, hfields.2, hfields'.1, hfields'.2⟩

end Llamesh.Gossip
