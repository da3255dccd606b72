import Llamesh.Gossip.Announced
import Llamesh.Router.Selection

/-!
# A drained node is withdrawn

The snapshots of a process carry its epoch and start time and increasing sequence numbers, and
since a drain never reverts, no snapshot from an announcing round on is ready. A peer that was
delivered the message of such a round therefore keeps the node as not ready, whatever older
snapshots are delivered to it later, and does not route a request there.
-/

namespace Llamesh.Gossip

open Transition

/-- The snapshot was built in a drain: no snapshot from it on is ready. -/
structure WithdrawnFrom (s : Shared) (origin : PeerState) : Prop where
  draining : s.draining = true
  built : origin ∈ s.snapshots
  after : ∀ p ∈ s.snapshots, origin.gossipSeq ≤ p.gossipSeq → p.ready = false

/-- The snapshot the loop is about to send. -/
def LoopPc.origin? : LoopPc → Option PeerState
  | .built _ origin => some origin
  | .sending r | .joining r => some r.message.origin
  | _ => none

/-- The identity of the process in its snapshots, and what it has sent. -/
structure SnapshotsInv (node : Node) (s : Shared) : Prop where
  nodeId : ∀ p ∈ s.snapshots, p.nodeId = node.config.nodeId
  started : ∀ p ∈ s.snapshots, p.startedAtUnix = node.startedAtUnix
  seq : ∀ p ∈ s.snapshots, p.gossipSeq ≤ s.gossipSeq
  current : ∀ origin, s.loop.origin? = some origin → origin ∈ s.snapshots
  sent : ∀ send ∈ s.sends, send.message.origin ∈ s.snapshots
  draining : s.loop.Announces → s.draining = true
  withdrawing : s.loop.Announces → ∀ origin, s.loop.origin? = some origin → WithdrawnFrom s origin
  withdrawn : ∀ r ∈ s.rounds, r.announcesDrain = true → WithdrawnFrom s r.message.origin

variable {urls : UrlParser} {node : Node} {s t : Shared} {label : Label} {r : Round}
  {origin : PeerState}

/-! ## The sender -/

private theorem WithdrawnFrom.snapshot (h : WithdrawnFrom s origin) (reading : PeerState)
    (canServe : Bool) {loop : LoopPc} {gossipSeq : Nat} :
    WithdrawnFrom { s with
      gossipSeq := gossipSeq
      loop := loop
      snapshots := s.snapshots ++
        [node.getGossipPeerState reading s.draining canServe s.gossipSeq] } origin where
  draining := h.draining
  built := List.mem_append_left _ h.built
  after := by
    intro p hp hle
    rcases List.mem_append.mp hp with hp | hp
    · exact h.after p hp hle
    · rw [List.mem_singleton.mp hp]
      simp [Node.getGossipPeerState, h.draining]

private theorem snapshotsInv_build (inv : SnapshotsInv node s) (reading : PeerState)
    (canServe announcesDrain : Bool) (hloop : s.loop = .read announcesDrain) :
    SnapshotsInv node
      { s with
        gossipSeq := s.gossipSeq + 1
        loop := .built announcesDrain
          (node.getGossipPeerState reading s.draining canServe s.gossipSeq)
        snapshots := s.snapshots ++
          [node.getGossipPeerState reading s.draining canServe s.gossipSeq] } := by
  have hdraining : announcesDrain = true → s.draining = true := by
    intro hround
    apply inv.draining
    rw [hloop]
    exact hround
  have hnew : ∀ p, p ∈ s.snapshots ++
      [node.getGossipPeerState reading s.draining canServe s.gossipSeq] →
      p ∈ s.snapshots ∨ p = node.getGossipPeerState reading s.draining canServe s.gossipSeq := by
    intro p hp
    rcases List.mem_append.mp hp with hp | hp
    · exact .inl hp
    · exact .inr (List.mem_singleton.mp hp)
  refine ⟨?_, ?_, ?_, ?_, ?_, hdraining, ?_, ?_⟩
  · intro p hp
    obtain hp | rfl := hnew p hp
    · exact inv.nodeId p hp
    · rfl
  · intro p hp
    obtain hp | rfl := hnew p hp
    · exact inv.started p hp
    · rfl
  · intro p hp
    obtain hp | rfl := hnew p hp
    · exact (inv.seq p hp).trans (Nat.le_succ _)
    · exact le_rfl
  · rintro origin ⟨⟩
    exact List.mem_append_right _ (List.mem_singleton_self _)
  · intro send hsend
    exact List.mem_append_left _ (inv.sent send hsend)
  · rintro hround origin ⟨⟩
    refine ⟨hdraining hround, List.mem_append_right _ (List.mem_singleton_self _), ?_⟩
    intro p hp hle
    obtain hp | rfl := hnew p hp
    · -- every earlier snapshot has a smaller sequence number
      have := inv.seq p hp
      simp only [Node.getGossipPeerState] at hle
      omega
    · simp [Node.getGossipPeerState, hdraining hround]
  · intro r hr hround
    exact (inv.withdrawn r hr hround).snapshot reading canServe

private theorem WithdrawnFrom.of_same (h : WithdrawnFrom s origin)
    (hdraining : s.draining = true → t.draining = true) (hsnapshots : t.snapshots = s.snapshots) :
    WithdrawnFrom t origin where
  draining := hdraining h.draining
  built := hsnapshots ▸ h.built
  after := by
    rw [hsnapshots]
    exact h.after

private theorem snapshotsInv_within (inv : SnapshotsInv node s)
    (hsnapshots : t.snapshots = s.snapshots) (hseq : t.gossipSeq = s.gossipSeq)
    (hrounds : t.rounds = s.rounds) (hdraining : s.draining = true → t.draining = true)
    (horigin : t.loop.origin? = s.loop.origin?) (hannounces : t.loop.Announces → s.loop.Announces)
    (hsends : ∀ send ∈ t.sends, (∃ send' ∈ s.sends, send'.message = send.message) ∨
      s.loop.origin? = some send.message.origin) :
    SnapshotsInv node t where
  nodeId := hsnapshots ▸ inv.nodeId
  started := hsnapshots ▸ inv.started
  seq := by
    rw [hsnapshots, hseq]
    exact inv.seq
  current := by
    rw [horigin, hsnapshots]
    exact inv.current
  sent := by
    intro send hsend
    rw [hsnapshots]
    obtain ⟨send', hsend', hmessage⟩ | hcurrent := hsends send hsend
    · rw [← hmessage]
      exact inv.sent send' hsend'
    · exact inv.current _ hcurrent
  draining := fun h => hdraining (inv.draining (hannounces h))
  withdrawing := by
    intro h origin horigin'
    exact (inv.withdrawing (hannounces h) origin (horigin ▸ horigin')).of_same hdraining hsnapshots
  withdrawn := by
    intro r hr hround
    exact (inv.withdrawn r (hrounds ▸ hr) hround).of_same hdraining hsnapshots

private theorem snapshotsInv_complete (inv : SnapshotsInv node s) (drainGossipSent : Bool)
    (hr : r.announcesDrain = true → WithdrawnFrom s r.message.origin) :
    SnapshotsInv node
      { s with
        loop := .waiting, drainGossipSent := drainGossipSent, rounds := s.rounds ++ [r] } where
  nodeId := inv.nodeId
  started := inv.started
  seq := inv.seq
  current := fun origin h => by cases h
  sent := inv.sent
  draining := False.elim
  withdrawing := False.elim
  withdrawn := by
    intro r' hr' hround
    rcases List.mem_append.mp hr' with hr' | hr'
    · exact (inv.withdrawn r' hr' hround).of_same id rfl
    · rw [List.mem_singleton.mp hr'] at hround ⊢
      exact (hr hround).of_same id rfl

private theorem snapshotsInv_step (inv : SnapshotsInv node s)
    (h : step urls node s label = some t) : SnapshotsInv node t := by
  have hsame : ∀ send ∈ s.sends, (∃ send' ∈ s.sends, send'.message = send.message) ∨
      s.loop.origin? = some send.message.origin :=
    fun send hsend => .inl ⟨send, hsend, rfl⟩
  cases step_effect h with
  | tick hloop =>
    exact snapshotsInv_within inv rfl rfl rfl id (by rw [hloop]; rfl) False.elim hsame
  | triggered hloop htrigger =>
    exact snapshotsInv_within inv rfl rfl rfl id (by rw [hloop]; rfl) False.elim hsame
  | readDraining hloop =>
    exact { inv with
      current := fun origin horigin => by cases horigin
      draining := id
      withdrawing := fun _ origin horigin => by cases horigin
      withdrawn := fun r hr hround => (inv.withdrawn r hr hround).of_same id rfl }
  | buildState reading canServe announcesDrain hloop =>
    exact snapshotsInv_build inv reading canServe announcesDrain hloop
  | collect known discovered targets announcesDrain origin hloop hknown htargets =>
    exact snapshotsInv_within inv rfl rfl rfl id (by rw [hloop]; rfl) (by rw [hloop]; exact id)
      hsame
  | skipSelf r rest hloop hleft =>
    exact snapshotsInv_within inv rfl rfl rfl id (by rw [hloop]; rfl) (by rw [hloop]; exact id)
      hsame
  | spawnSend now contended r url rest hloop hleft hother =>
    refine snapshotsInv_within inv rfl rfl rfl id (by rw [hloop]; rfl) (by rw [hloop]; exact id) ?_
    intro send hsend
    rcases List.mem_append.mp hsend with hsend | hsend
    · exact hsame send hsend
    · rw [List.mem_singleton.mp hsend, hloop]
      exact .inr rfl
  | permitTimeout r url rest hloop hleft hround =>
    exact snapshotsInv_within inv rfl rfl rfl id (by rw [hloop]; rfl) (by rw [hloop]; exact id)
      hsame
  | endRound r hloop hleft hround =>
    exact snapshotsInv_complete inv s.drainGossipSent fun h => absurd h (by simp [hround])
  | endTargets r hloop hleft hround =>
    exact snapshotsInv_within inv rfl rfl rfl id (by rw [hloop]; rfl) (by rw [hloop]; exact id)
      hsame
  | joined r hloop hfinished =>
    refine snapshotsInv_complete inv true fun hround => ?_
    apply inv.withdrawing
    · rw [hloop]
      exact hround
    · rw [hloop]
      rfl
  | sendFinished index now success send hsend =>
    refine snapshotsInv_within inv rfl rfl rfl id rfl id ?_
    intro send' hsend'
    obtain hmem | rfl := List.mem_or_eq_of_mem_set hsend'
    · exact hsame send' hmem
    · exact .inl ⟨send, List.mem_of_getElem? hsend, rfl⟩
  | beginShutdownDrain hsignal =>
    exact snapshotsInv_within inv rfl rfl rfl (fun _ => rfl) rfl id hsame
  | signalGossip hsignal => exact snapshotsInv_within inv rfl rfl rfl id rfl id hsame
  | notifyTrigger => exact snapshotsInv_within inv rfl rfl rfl id rfl id hsame
  | startWait hwait => exact snapshotsInv_within inv rfl rfl rfl id rfl id hsame
  | heard hwait hsent => exact snapshotsInv_within inv rfl rfl rfl id rfl id hsame
  | waitTimeout hwait => exact snapshotsInv_within inv rfl rfl rfl id rfl id hsame
  | gossip delivery => exact snapshotsInv_within inv rfl rfl rfl id rfl id hsame
  | claim peerId now contended hpeer => exact snapshotsInv_within inv rfl rfl rfl id rfl id hsame
  | result peerId now probeTicket success hpeer =>
    exact snapshotsInv_within inv rfl rfl rfl id rfl id hsame

private theorem snapshotsInv_init (node : Node) : SnapshotsInv node (Shared.init node) where
  nodeId := fun p hp => by cases hp
  started := fun p hp => by cases hp
  seq := fun p hp => by cases hp
  current := fun origin h => by cases h
  sent := fun send hsend => by cases hsend
  draining := False.elim
  withdrawing := False.elim
  withdrawn := fun r hr => by cases hr

private theorem snapshotsInv_of_reachable
    (h : Reachable (step urls node) (Shared.init node) s) : SnapshotsInv node s :=
  h.invariant (fun _ _ _ inv hstep => snapshotsInv_step inv hstep) (snapshotsInv_init node)

/-! ## The receiver -/

/-- What the network may deliver of the node: a message of a send, any number of times and in any
order, or one of a process that started earlier. -/
def Delivers (node : Node) (s : Shared) (ds : List Delivery) : Prop :=
  ∀ d ∈ ds, d.From node.config.nodeId →
    (∃ send ∈ s.sends, d.message = send.message) ∨
      d.message.origin.startedAtUnix < node.startedAtUnix

private theorem latest_not_ready (inv : SnapshotsInv node s) {ds : List Delivery} {m d : Delivery}
    (hds : Delivers node s ds) (hlatest : Latest node.config.nodeId ds m)
    (hr : WithdrawnFrom s r.message.origin) (hd : d ∈ ds) (hmessage : d.message = r.message) :
    m.message.origin.ready = false := by
  have hfrom : d.From node.config.nodeId := by
    rw [Delivery.From, hmessage]
    exact inv.nodeId _ hr.built
  have hle := hlatest.2.2 d hd hfrom
  have hstarted := inv.started _ hr.built
  rw [hmessage, snapshotKey, snapshotKey, Prod.Lex.toLex_le_toLex] at hle
  obtain ⟨send, hsend, hm⟩ | hearlier := hds m hlatest.1 hlatest.2.1
  · have hbuilt := inv.sent send hsend
    rw [← hm] at hbuilt
    apply hr.after _ hbuilt
    have := inv.started _ hbuilt
    omega
  · omega

open Router in
/-- Once the message of a round that announces the drain is delivered, the node's entry is not
ready and no request is routed to it, whatever else is delivered. -/
theorem withdrawn_peer_not_routed {urls' : UrlParser} {config : NodeConfig} {ds : List Delivery}
    (h : Reachable (step urls node) (Shared.init node) s)
    (hr : r ∈ s.rounds) (hround : r.announcesDrain = true)
    (hstream : OrderedStream urls' config node.config.nodeId ds) (hds : Delivers node s ds)
    (hdelivered : ∃ d ∈ ds, d.message = r.message) :
    (∃ entry, (receive urls' config ∅ ds).lookup node.config.nodeId = some entry ∧
      entry.ready = false) ∧
      ∀ (σ : Type) [LinearOrder σ] (score : PeerState → Nat → σ) (v : View) (loop : Router.Loop)
        (excluded : List String) (peer : PeerState),
        Lists (receive urls' config ∅ ds) v.peers →
        v.choose score loop excluded = some peer →
        peer.nodeId = node.config.nodeId → node.config.nodeId = v.config.nodeId := by
  have inv := snapshotsInv_of_reachable h
  have hwithdrawn := inv.withdrawn r hr hround
  obtain ⟨d, hd, hmessage⟩ := hdelivered
  have hfrom : d.From node.config.nodeId := by
    rw [Delivery.From, hmessage]
    exact inv.nodeId _ hwithdrawn.built
  obtain ⟨m, entry, hlatest, hlookup, hcarries⟩ := hstream.converged ⟨d, hd, hfrom⟩
  have hready : entry.ready = false := by
    rw [hcarries]
    exact latest_not_ready inv hds hlatest hwithdrawn hd hmessage
  refine ⟨⟨entry, hlookup, hready⟩, ?_⟩
  intro σ _ score v loop excluded peer hpeers hchoose hnode
  obtain ⟨-, hself⟩ | hother := v.mem_others_of_choose score hchoose
  · exact hnode.symm.trans hself
  · -- a candidate among the peers is ready, and the entry of the node is not
    exfalso
    have hmem := v.mem_peers_of_mem_others hother
    have hpeer := hpeers.2.1 peer hmem
    rw [hnode, hlookup] at hpeer
    have hpeerReady := v.ready_of_mem_others hother
    rw [← Option.some.inj hpeer, hready] at hpeerReady
    cases hpeerReady

/-- The message of the round before the drain, and of the one that announces it. -/
def lateMessage (draining : Bool) (seq : Nat) : GossipMessage :=
  ⟨knowingNode.getGossipPeerState (placeholder ⟨"", ""⟩ 0) draining true seq, []⟩

/-- The announcement arrives, and then a delayed copy of the ready snapshot. -/
def overtakenSnapshot : List Delivery :=
  [⟨lateMessage true 1, none, 110, fun _ => 110⟩, ⟨lateMessage false 0, none, 111, fun _ => 111⟩]

/-- Another node of the cluster. -/
def nodeB : NodeConfig := { nodeA with nodeId := "node-b" }

private theorem orderedStream_overtakenSnapshot :
    OrderedStream literalUrls nodeB "node-a" overtakenSnapshot where
  ordered := by
    intro d hd _
    simp only [overtakenSnapshot, List.mem_cons, List.not_mem_nil, or_false] at hd
    rcases hd with rfl | rfl
    · rfl
    · rfl
  accepted := by
    intro d hd _
    simp only [overtakenSnapshot, List.mem_cons, List.not_mem_nil, or_false] at hd
    rcases hd with rfl | rfl
    · decide
    · decide
  processes := by
    intro d hd d' hd' _ _
    simp only [overtakenSnapshot, List.mem_cons, List.not_mem_nil, or_false] at hd hd'
    rcases hd with rfl | rfl <;> rcases hd' with rfl | rfl <;>
      simp [lateMessage, Node.getGossipPeerState]
  within := by
    intro earlier d later heq _ entry hentry
    rcases earlier with _ | ⟨first, _ | ⟨second, rest⟩⟩
    · cases hentry
    · simp only [overtakenSnapshot, List.cons_append, List.nil_append, List.cons.injEq] at heq
      obtain ⟨rfl, rfl, -⟩ := heq
      have hfresh : ((receive literalUrls nodeB ∅
          [⟨lateMessage true 1, none, 110, fun _ => 110⟩]).lookup "node-a").all
            (fresh nodeB 111) = true := by
        decide +kernel
      rw [hentry] at hfresh
      exact hfresh
    · have hlength := congrArg List.length heq
      simp [overtakenSnapshot] at hlength

/-- The delayed ready snapshot does not bring the node back. -/
theorem overtakenSnapshot_withdrawn : ∃ s r,
    exec (step literalUrls knowingNode) (Shared.init knowingNode) lateSignal = some s ∧
      r ∈ s.rounds ∧ r.announcesDrain = true ∧ r.message = lateMessage true 1 ∧
        ∃ entry, (receive literalUrls nodeB ∅ overtakenSnapshot).lookup "node-a" = some entry ∧
          entry.ready = false := by
  have hrun : (exec (step literalUrls knowingNode) (Shared.init knowingNode) lateSignal).map
      (fun s => (s.rounds.map fun r => (r.announcesDrain, r.message), s.sends.map (·.message))) =
        some ([(false, lateMessage false 0), (true, lateMessage true 1)],
          [lateMessage false 0, lateMessage true 1]) := by
    decide +kernel
  obtain ⟨s, hs, hmessages⟩ := Option.map_eq_some_iff.mp hrun
  obtain ⟨hrounds, hsends⟩ := Prod.mk.inj hmessages
  have hround : (true, lateMessage true 1) ∈
      s.rounds.map fun r => (r.announcesDrain, r.message) := by
    rw [hrounds]
    simp
  obtain ⟨r, hr, hfields⟩ := List.mem_map.mp hround
  obtain ⟨hannounces, hmessage⟩ := Prod.mk.inj hfields
  have hds : Delivers knowingNode s overtakenSnapshot := by
    intro d hd _
    have hmem : d.message ∈ s.sends.map (·.message) := by
      rw [hsends]
      simp only [overtakenSnapshot, List.mem_cons, List.not_mem_nil, or_false] at hd
      rcases hd with rfl | rfl
      · simp
      · simp
    obtain ⟨send, hsend, heq⟩ := List.mem_map.mp hmem
    exact .inl ⟨send, hsend, heq.symm⟩
  have hentry := (withdrawn_peer_not_routed ⟨lateSignal, hs⟩ hr hannounces
    orderedStream_overtakenSnapshot hds ⟨_, List.mem_cons_self, hmessage.symm⟩).1
  exact ⟨s, r, hs, hr, hannounces, hmessage, hentry⟩

end Llamesh.Gossip
