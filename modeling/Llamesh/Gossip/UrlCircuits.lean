import Llamesh.Gossip.Announced

/-!
# Circuits of the gossip loop

The loop keys the circuit of a target by its URL until a peer of that address is known, and by the
node id from then on (`src/cluster.rs:66–111,131–139,184–213,247–269`). A send of an earlier round
may end later and bring a dropped circuit back. In every interleaving the circuits belong to known
node ids and to URLs the loop has used; the start of a round leaves exactly those of the known node
ids and of the targets that are keyed by URL in it; and a node id never loses its circuit.
-/

namespace Llamesh.Gossip

open Transition CircuitBreaker

/-- The target is keyed by its URL: no peer has that address. -/
def UrlKeyed (node : Node) (known : List PeerState) (targets : List String) (key : String) : Prop :=
  key ∈ targets ∧ key ≠ node.address ∧ ∀ peer ∈ known, peer.address ≠ key

instance (node : Node) (known : List PeerState) (targets : List String) (key : String) :
    Decidable (UrlKeyed node known targets key) :=
  inferInstanceAs (Decidable (_ ∧ _ ∧ _))

/-- The key is a known node id or a URL the loop has used. -/
def Keyed (s : Shared) (key : String) : Prop := key ∈ s.peers ∨ key ∈ s.urlCircuitKeys

/-- The keys of the sends that are under way and to come. -/
structure KeysInv (node : Node) (s : Shared) : Prop where
  circuits : ∀ key, s.circuits key ≠ none → Keyed s key
  sends : ∀ send ∈ s.sends, Keyed s send.cbKey
  loop : ∀ r, s.loop = .sending r → ∀ url ∈ r.left, url ≠ node.address →
    Keyed s ((r.urlToNodeId.lookup url).getD url)

variable {urls : UrlParser} {node : Node} {s t : Shared} {label : Label} {r : Round}
  {key url : String} {known : List PeerState} {targets : List String}

/-! ## The keys of a round -/

private theorem lookup_foldl_urlToNodeId (known : List PeerState) (map : Table String String)
    (url nodeId : String)
    (h : (known.foldl (fun map peer => map.insert peer.address peer.nodeId) map).lookup url =
      some nodeId) :
    map.lookup url = some nodeId ∨ ∃ peer ∈ known, peer.address = url ∧ peer.nodeId = nodeId := by
  induction known generalizing map with
  | nil => exact .inl h
  | cons peer known ih =>
    obtain hmap | ⟨peer', hpeer', hfields⟩ := ih _ h
    · rw [Table.lookup_insert_eq] at hmap
      split at hmap
      · next hurl =>
        exact .inr ⟨peer, List.mem_cons_self, hurl.symm, Option.some.inj hmap⟩
      · exact .inl hmap
    · exact .inr ⟨peer', List.mem_cons_of_mem _ hpeer', hfields⟩

private theorem lookup_urlToNodeId {nodeId : String}
    (h : (urlToNodeId known).lookup url = some nodeId) :
    ∃ peer ∈ known, peer.address = url ∧ peer.nodeId = nodeId := by
  obtain hempty | hpeer := lookup_foldl_urlToNodeId known ∅ url nodeId h
  · cases hempty
  · exact hpeer

private theorem mem_foldl_urlToNodeId (known : List PeerState) (map : Table String String) :
    url ∈ known.foldl (fun map peer => map.insert peer.address peer.nodeId) map ↔
      url ∈ map ∨ ∃ peer ∈ known, peer.address = url := by
  induction known generalizing map with
  | nil => simp
  | cons peer known ih =>
    rw [List.foldl_cons, ih, AList.mem_insert]
    constructor
    · rintro ((rfl | hmap) | ⟨peer', hpeer', hurl⟩)
      · exact .inr ⟨peer, List.mem_cons_self, rfl⟩
      · exact .inl hmap
      · exact .inr ⟨peer', List.mem_cons_of_mem _ hpeer', hurl⟩
    · rintro (hmap | ⟨peer', hpeer', rfl⟩)
      · exact .inl (.inr hmap)
      · obtain rfl | hpeer' := List.mem_cons.mp hpeer'
        · exact .inl (.inl rfl)
        · exact .inr ⟨peer', hpeer', rfl⟩

private theorem mem_urlToNodeId :
    url ∈ urlToNodeId known ↔ ∃ peer ∈ known, peer.address = url := by
  rw [urlToNodeId, mem_foldl_urlToNodeId]
  simp

private theorem mem_current (tracked : List String) :
    key ∈ (gossipUrlCircuitKeys tracked targets (urlToNodeId known) (known.map (·.nodeId))
      node.address).1 ↔ UrlKeyed node known targets key := by
  simp only [gossipUrlCircuitKeys, List.mem_filter, Bool.and_eq_true, decide_eq_true_eq,
    Bool.not_eq_true', decide_eq_false_iff_not, mem_urlToNodeId, UrlKeyed]
  push Not
  exact Iff.rfl

private theorem mem_stale (tracked : List String) :
    key ∈ (gossipUrlCircuitKeys tracked targets (urlToNodeId known) (known.map (·.nodeId))
      node.address).2 ↔
      key ∈ tracked ∧ ¬ UrlKeyed node known targets key ∧ key ∉ known.map (·.nodeId) := by
  rw [← mem_current tracked]
  simp only [gossipUrlCircuitKeys, List.mem_filter, Bool.and_eq_true, Bool.not_eq_true',
    List.contains_eq_mem, decide_eq_false_iff_not]

private theorem mem_peers_iff {peers : Peers} (h : Lists peers known) :
    key ∈ peers ↔ key ∈ known.map (·.nodeId) := by
  constructor
  · exact fun hkey => h.2.2 key hkey
  · intro hkey
    obtain ⟨peer, hpeer, rfl⟩ := List.mem_map.mp hkey
    exact AList.lookup_isSome.mp (by rw [h.2.1 peer hpeer]; rfl)

private theorem reconciled_circuits (inv : KeysInv node s) (hknown : Lists s.peers known)
    (key : String) :
    (forget s.circuits (gossipUrlCircuitKeys s.urlCircuitKeys targets (urlToNodeId known)
      (known.map (·.nodeId)) node.address).2).1 key =
      if key ∈ s.peers ∨ UrlKeyed node known targets key then s.circuits key else none := by
  rw [forget_circuits]
  simp only [mem_stale, ← mem_peers_iff hknown]
  by_cases hpeer : key ∈ s.peers
  · simp [hpeer]
  by_cases hurl : UrlKeyed node known targets key
  · simp [hurl]
  by_cases htracked : key ∈ s.urlCircuitKeys
  · simp [hpeer, hurl, htracked]
  · -- a key of neither kind has no circuit
    have hnone : s.circuits key = none := by
      by_contra hsome
      obtain hkey | hkey := inv.circuits key hsome
      · exact hpeer hkey
      · exact htracked hkey
    simp [hnone]

/-! ## The other operations on circuits -/

private theorem claimed_eq_none (now : Nat) (peerId : String) (contended : Bool) :
    (tryClaimDispatchSync node.breaker s.circuits now peerId contended).2 key = none ↔
      s.circuits key = none := by
  obtain hsame | ⟨c, ms, hc, hupdate⟩ :=
    tryClaimDispatchSync_circuits node.breaker s.circuits now peerId contended
  · rw [hsame]
  · rw [hupdate, Function.update_apply]
    split
    · next hkey => simp [hkey, hc]
    · exact Iff.rfl

private theorem recorded_circuits (node : Node) (circuits : Circuits) (now : Nat) (peerId : String)
    (probeTicket success : Bool) :
    recorded node circuits now peerId probeTicket success = circuits ∨
      ∃ c, recorded node circuits now peerId probeTicket success =
        Function.update circuits peerId (some c) := by
  cases success with
  | true =>
    simp only [recorded, recordSuccess, if_true]
    split
    · exact .inl rfl
    · exact .inr ⟨_, rfl⟩
  | false =>
    simp only [recorded, recordFailure, Bool.false_eq_true, if_false]
    split
    · exact .inl rfl
    · exact .inr ⟨_, rfl⟩

private theorem recorded_ne_none {now : Nat} {peerId : String} {probeTicket success : Bool}
    (h : recorded node s.circuits now peerId probeTicket success key ≠ none) :
    s.circuits key ≠ none ∨ key = peerId := by
  obtain hsame | ⟨c, hupdate⟩ := recorded_circuits node s.circuits now peerId probeTicket
    success
  · exact .inl (hsame ▸ h)
  · rw [hupdate, Function.update_apply] at h
    split at h
    · next hkey => exact .inr hkey
    · exact .inl h

private theorem recorded_kept {now : Nat} {peerId : String} {probeTicket success : Bool}
    (h : s.circuits key ≠ none) :
    recorded node s.circuits now peerId probeTicket success key ≠ none := by
  obtain hsame | ⟨c, hupdate⟩ := recorded_circuits node s.circuits now peerId probeTicket
    success
  · rwa [hsame]
  · rw [hupdate, Function.update_apply]
    split
    · exact Option.some_ne_none c
    · exact h

/-! ## Every interleaving -/

private theorem mem_process (config : NodeConfig) {peers : Peers} (d : Delivery)
    (h : key ∈ peers) : key ∈ processGossipMessage urls config peers d := by
  rw [← AList.lookup_isSome] at h ⊢
  by_cases hignored : stale config peers d.now d.message.origin = true ∨
      shouldReject config d.message.origin.version = true
  · rwa [process_of_ignored hignored]
  · rw [not_or, Bool.not_eq_true, Bool.not_eq_true] at hignored
    rw [lookup_process hignored.1 hignored.2]
    split
    · rfl
    · rw [Option.isSome_or, h]
      rfl

private theorem keysInv_frame (inv : KeysInv node s) (hkeyed : ∀ key, Keyed s key → Keyed t key)
    (hcircuits : ∀ key, t.circuits key ≠ none → s.circuits key ≠ none)
    (hsends : t.sends = s.sends)
    (hloop : ∀ r, t.loop = .sending r → ∃ r', s.loop = .sending r' ∧
      r'.urlToNodeId = r.urlToNodeId ∧ ∀ url ∈ r.left, url ∈ r'.left) : KeysInv node t where
  circuits := fun key hkey => hkeyed key (inv.circuits key (hcircuits key hkey))
  sends := fun send hsend => hkeyed _ (inv.sends send (hsends ▸ hsend))
  loop := by
    intro r hr url hurl hother
    obtain ⟨r', hr', hmap, hleft⟩ := hloop r hr
    rw [← hmap]
    exact hkeyed _ (inv.loop r' hr' url (hleft url hurl) hother)

private theorem keysInv_rest {rest : List String} (inv : KeysInv node s)
    (hloop : s.loop = .sending r) (hleft : r.left = url :: rest) :
    KeysInv node { s with loop := .sending { r with left := rest } } := by
  refine keysInv_frame inv (fun _ h => h) (fun _ h => h) rfl ?_
  rintro r' ⟨⟩
  refine ⟨r, hloop, rfl, fun target htarget => ?_⟩
  rw [hleft]
  exact List.mem_cons_of_mem _ htarget

private theorem keysInv_collect (inv : KeysInv node s) (hknown : Lists s.peers known)
    (announcesDrain : Bool) (origin : PeerState) :
    KeysInv node
      { s with
        circuits := (forget s.circuits (gossipUrlCircuitKeys s.urlCircuitKeys targets
          (urlToNodeId known) (known.map (·.nodeId)) node.address).2).1
        urlCircuitKeys := s.urlCircuitKeys ++ (gossipUrlCircuitKeys s.urlCircuitKeys targets
          (urlToNodeId known) (known.map (·.nodeId)) node.address).1
        loop := .sending (.collected announcesDrain origin known targets) } where
  circuits := by
    intro key hkey
    change (forget _ _).1 key ≠ none at hkey
    rw [reconciled_circuits inv hknown] at hkey
    split at hkey
    · exact (inv.circuits key hkey).imp_right (List.mem_append_left _)
    · exact absurd rfl hkey
  sends := fun send hsend => (inv.sends send hsend).imp_right (List.mem_append_left _)
  loop := by
    rintro r ⟨⟩ url hurl hother
    change Keyed _ (((urlToNodeId known).lookup url).getD url)
    cases hlookup : (urlToNodeId known).lookup url with
    | some nodeId =>
      obtain ⟨peer, hpeer, -, rfl⟩ := lookup_urlToNodeId hlookup
      exact .inl ((mem_peers_iff hknown).mpr (List.mem_map_of_mem hpeer))
    | none =>
      rw [Option.getD_none]
      refine .inr (List.mem_append_right _ ((mem_current _).mpr ⟨hurl, hother, ?_⟩))
      intro peer hpeer haddress
      have hmem := mem_urlToNodeId.mpr ⟨peer, hpeer, haddress⟩
      rw [← AList.lookup_isSome, hlookup] at hmem
      cases hmem

private theorem keysInv_step (inv : KeysInv node s) (h : step urls node s label = some t) :
    KeysInv node t := by
  cases step_effect h with
  | tick hloop => exact { inv with loop := fun r hr => by cases hr }
  | triggered hloop htrigger => exact { inv with loop := fun r hr => by cases hr }
  | readDraining hloop => exact { inv with loop := fun r hr => by cases hr }
  | buildState reading canServe announcesDrain hloop =>
    exact { inv with loop := fun r hr => by cases hr }
  | collect known discovered targets announcesDrain origin hloop hknown htargets =>
    exact keysInv_collect inv hknown announcesDrain origin
  | skipSelf r rest hloop hleft => exact keysInv_rest inv hloop hleft
  | permitTimeout r url rest hloop hleft hround => exact keysInv_rest inv hloop hleft
  | spawnSend now contended r url rest hloop hleft hother =>
    have hurl : url ∈ r.left := by
      rw [hleft]
      exact List.mem_cons_self
    refine ⟨fun key hkey => ?_, fun send hsend => ?_, ?_⟩
    · exact inv.circuits key fun hnone => hkey ((claimed_eq_none _ _ _).mpr hnone)
    · rcases List.mem_append.mp hsend with hsend | hsend
      · exact inv.sends send hsend
      · rw [List.mem_singleton.mp hsend]
        exact inv.loop r hloop url hurl hother
    · rintro r' ⟨⟩ target htarget
      refine inv.loop r hloop target ?_
      rw [hleft]
      exact List.mem_cons_of_mem _ htarget
  | endRound r hloop hleft hround => exact { inv with loop := fun r hr => by cases hr }
  | endTargets r hloop hleft hround => exact { inv with loop := fun r hr => by cases hr }
  | joined r hloop hfinished => exact { inv with loop := fun r hr => by cases hr }
  | sendFinished index now success send hsend =>
    have hmem := List.mem_of_getElem? hsend
    refine ⟨fun key hkey => ?_, fun send' hsend' => ?_, inv.loop⟩
    · obtain hold | rfl := recorded_ne_none hkey
      · exact inv.circuits key hold
      · exact inv.sends send hmem
    · obtain hold | rfl := List.mem_or_eq_of_mem_set hsend'
      · exact inv.sends send' hold
      · exact inv.sends send hmem
  | beginShutdownDrain hsignal => exact { inv with }
  | signalGossip hsignal => exact { inv with }
  | notifyTrigger => exact { inv with }
  | startWait hwait => exact { inv with }
  | heard hwait hsent => exact { inv with }
  | waitTimeout hwait => exact { inv with }
  | gossip delivery =>
    refine keysInv_frame inv (fun key hkey => ?_) (fun _ h => h) rfl fun r hr => ⟨r, hr, rfl, ?_⟩
    · exact hkey.imp_left (mem_process node.config delivery)
    · exact fun _ h => h
  | claim peerId now contended hpeer =>
    refine keysInv_frame inv (fun _ h => h) (fun key hkey hnone => ?_) rfl
      fun r hr => ⟨r, hr, rfl, fun _ h => h⟩
    exact hkey ((claimed_eq_none _ _ _).mpr hnone)
  | result peerId now probeTicket success hpeer =>
    refine { inv with circuits := fun key hkey => ?_ }
    obtain hold | rfl := recorded_ne_none hkey
    · exact inv.circuits key hold
    · exact .inl hpeer

private theorem keysInv_init (node : Node) : KeysInv node (Shared.init node) where
  circuits := fun key hkey => absurd rfl hkey
  sends := fun send hsend => by cases hsend
  loop := fun r hr => by cases hr

private theorem circuit_kept (inv : KeysInv node s) (h : step urls node s label = some t)
    (hpeer : key ∈ s.peers) (hcircuit : s.circuits key ≠ none) : t.circuits key ≠ none := by
  cases step_effect h with
  | collect known discovered targets announcesDrain origin hloop hknown htargets =>
    change (forget _ _).1 key ≠ none
    rw [reconciled_circuits inv hknown, if_pos (.inl hpeer)]
    exact hcircuit
  | spawnSend now contended r url rest hloop hleft hother =>
    exact fun hnone => hcircuit ((claimed_eq_none _ _ _).mp hnone)
  | claim peerId now contended hpeer =>
    exact fun hnone => hcircuit ((claimed_eq_none _ _ _).mp hnone)
  | sendFinished index now success send hsend => exact recorded_kept hcircuit
  | result peerId now probeTicket success hpeer => exact recorded_kept hcircuit
  | _ => exact hcircuit

/-- In every interleaving the circuits belong to known node ids and to URLs the loop has used, the
start of a round leaves exactly those in use, and a known node id keeps its circuit. -/
theorem url_circuits_reconciled (h : Reachable (step urls node) (Shared.init node) s) :
    (∀ key, s.circuits key ≠ none → Keyed s key) ∧
      (∀ known discovered targets t,
        step urls node s (.collect known discovered targets) = some t → ∀ key, t.circuits key =
          if key ∈ s.peers ∨ UrlKeyed node known targets key then s.circuits key else none) ∧
      ∀ label t, step urls node s label = some t → ∀ key ∈ s.peers,
        s.circuits key ≠ none → t.circuits key ≠ none := by
  have inv : KeysInv node s :=
    h.invariant (fun _ _ _ inv hstep => keysInv_step inv hstep) (keysInv_init node)
  refine ⟨inv.circuits, ?_, fun label t hstep key => circuit_kept inv hstep⟩
  intro known discovered targets t hstep key
  cases step_effect hstep with
  | collect _ _ _ announcesDrain origin hloop hknown htargets =>
    exact reconciled_circuits inv hknown key

/-- A seed is first keyed by its URL, its failures open a circuit there, the peer of that address
becomes known, and the send of the first round fails once more. -/
def seedHeard : List Label :=
  let reading := placeholder ⟨"", ""⟩ 0
  [.tick, .readDraining, .buildState reading true, .collect [] [] ["http://10.0.0.2:9000"],
    .spawnSend 0 false, .endTargets, .gossip (snapshotOf 200 9 1 201), .sendFinished 0 1 false,
    .tick, .readDraining, .buildState reading true]

/-- The next round drops the circuit of the URL. -/
theorem seedHeard_reconciled : ∃ s t,
    exec (step literalUrls knowingNode) (Shared.init knowingNode) seedHeard = some s ∧
      (s.circuits "http://10.0.0.2:9000").isSome = true ∧
      step literalUrls knowingNode s
        (.collect (s.peers.entries.map (·.2)) [] ["http://10.0.0.2:9000"]) = some t ∧
      t.circuits "http://10.0.0.2:9000" = none := by
  have hrun : (exec (step literalUrls knowingNode) (Shared.init knowingNode) seedHeard).map
      (fun s =>
      ((s.circuits "http://10.0.0.2:9000").isSome,
        (step literalUrls knowingNode s
          (.collect (s.peers.entries.map (·.2)) [] ["http://10.0.0.2:9000"])).isSome,
        decide ("http://10.0.0.2:9000" ∈ s.peers ∨ UrlKeyed knowingNode
          (s.peers.entries.map (·.2)) ["http://10.0.0.2:9000"] "http://10.0.0.2:9000"))) =
      some (true, true, false) := by
    decide +kernel
  obtain ⟨s, hs, hfacts⟩ := Option.map_eq_some_iff.mp hrun
  simp only [Prod.mk.injEq, decide_eq_false_iff_not] at hfacts
  obtain ⟨hcircuit, hstep, hunused⟩ := hfacts
  obtain ⟨t, ht⟩ := Option.isSome_iff_exists.mp hstep
  refine ⟨s, t, hs, hcircuit, ht, ?_⟩
  rw [(url_circuits_reconciled ⟨seedHeard, hs⟩).2.1 _ _ _ t ht, if_neg hunused]

end Llamesh.Gossip
