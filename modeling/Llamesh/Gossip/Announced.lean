import Llamesh.Gossip.Loop
import Llamesh.Gossip.Ordering

/-!
# The announcement of a drain

Shutdown waits for the gossip round that tells the peers of the drain
(`src/api.rs:1184–1202`, `src/cluster.rs:146–149,231–234,394–400`). Whatever the tasks interleave,
the wait is ended by the loop only after a round has been sent whose snapshot is not ready: every
seed, discovered address and known peer of that round was sent it, and each of these sends has
ended. Every round after it is not ready either. The signal cannot be lost to a round that is
already under way: from then on the trigger is stored, or a round that announces the drain is to
come, under way or complete.
-/

namespace Llamesh.Gossip

open Transition

/-- The loop is in a round that announces the drain. -/
def LoopPc.Announces : LoopPc → Prop
  | .read announcesDrain => announcesDrain = true
  | .built announcesDrain _ => announcesDrain = true
  | .sending r => r.announcesDrain = true
  | .joining r => r.announcesDrain = true
  | _ => False

/-- The loop is in no round, or in one that announces the drain. -/
def LoopPc.Late : LoopPc → Prop
  | .read announcesDrain => announcesDrain = true
  | .built announcesDrain _ => announcesDrain = true
  | .sending r => r.announcesDrain = true
  | _ => True

/-- A round after one that announced the drain announces it too: it does not say that the node is
ready. -/
def Follows (r r' : Round) : Prop :=
  r.announcesDrain = true → r'.announcesDrain = true ∧ r'.message.origin.ready = false

/-- The target was sent the message of the round, or is the node's own address. -/
def SentTo (node : Node) (sends : List Send) (r : Round) (url : String) : Prop :=
  url = node.address ∨
    ∃ i ∈ r.sends, ∃ send, sends[i]? = some send ∧ send.url = url ∧ send.message = r.message

/-- The target was sent the message of the round and the send has ended, or it is the node's own
address. -/
def Reached (node : Node) (sends : List Send) (r : Round) (url : String) : Prop :=
  url = node.address ∨
    ∃ i ∈ r.sends, ∃ send, sends[i]? = some send ∧ send.url = url ∧ send.message = r.message ∧
      send.finished = true

/-- The targets of a round are the seeds, the peers its message names and whatever was
discovered. -/
def Addressed (node : Node) (r : Round) : Prop :=
  (∀ seed ∈ node.config.clusterPeers, seed ∈ r.targets) ∧
    ∀ info ∈ r.message.knownPeers, info.address ∈ r.targets

/-- What holds of the loop in a round that announces the drain. -/
def Announcing (node : Node) (sends : List Send) : LoopPc → Prop
  | .built announcesDrain origin => announcesDrain = true → origin.ready = false
  | .sending r =>
    r.announcesDrain = true → r.message.origin.ready = false ∧ Addressed node r ∧
      ∀ url ∈ r.targets, url ∈ r.left ∨ SentTo node sends r url
  | .joining r =>
    r.announcesDrain = true ∧ r.message.origin.ready = false ∧ Addressed node r ∧
      ∀ url ∈ r.targets, SentTo node sends r url
  | _ => True

/-- A complete round that announced the drain. -/
def Announced (node : Node) (sends : List Send) (r : Round) : Prop :=
  r.announcesDrain = true → r.message.origin.ready = false ∧ Addressed node r ∧
    ∀ url ∈ r.targets, Reached node sends r url

/-- The announcement is stored, to come, under way or complete. -/
def Underway (s : Shared) : Prop :=
  s.gossipTrigger = true ∨ s.loop = .woken ∨ s.loop.Announces ∨
    ∃ r ∈ s.rounds, r.announcesDrain = true

/-- The invariant of the announcement. -/
structure AnnouncedInv (node : Node) (s : Shared) : Prop where
  draining : s.loop.Announces → s.draining = true
  signalled : s.signal ≠ .listening → s.draining = true
  loop : Announcing node s.sends s.loop
  rounds : ∀ r ∈ s.rounds, Announced node s.sends r
  late : (∃ r ∈ s.rounds, r.announcesDrain = true) → s.draining = true ∧ s.loop.Late
  order : s.rounds.Pairwise Follows
  sent : s.drainGossipSent = true ∨ s.wait = .heard → ∃ r ∈ s.rounds, r.announcesDrain = true
  kept : s.signal = .done → Underway s

variable {urls : UrlParser} {node : Node} {s t : Shared} {label : Label} {r : Round}
  {sends sends' : List Send} {url : String}

/-! ## Sends stay -/

/-- Every send is still there, with its target and message, and ended when it had ended. -/
def Extends (sends sends' : List Send) : Prop :=
  ∀ (i : Nat) (send : Send), sends[i]? = some send → ∃ send', sends'[i]? = some send' ∧
    send'.url = send.url ∧ send'.message = send.message ∧
      (send.finished = true → send'.finished = true)

private theorem extends_append (sends : List Send) (send : Send) :
    Extends sends (sends ++ [send]) := by
  intro i old hold
  have hlt := (List.getElem?_eq_some_iff.mp hold).1
  exact ⟨old, by rw [List.getElem?_append_left hlt, hold], rfl, rfl, id⟩

private theorem extends_set {index : Nat} {send : Send} (hsend : sends[index]? = some send) :
    Extends sends (sends.set index { send with finished := true }) := by
  intro i old hold
  by_cases hi : index = i
  · subst hi
    have hlt := (List.getElem?_eq_some_iff.mp hold).1
    rw [hsend] at hold
    obtain rfl := Option.some.inj hold
    exact ⟨_, List.getElem?_set_self hlt, rfl, rfl, fun _ => rfl⟩
  · exact ⟨old, by rw [List.getElem?_set_ne hi, hold], rfl, rfl, id⟩

private theorem SentTo.extends (h : SentTo node sends r url) (hext : Extends sends sends') :
    SentTo node sends' r url := by
  obtain hown | ⟨i, hi, send, hsend, hurl, hmessage⟩ := h
  · exact .inl hown
  · obtain ⟨send', hsend', hurl', hmessage', -⟩ := hext i send hsend
    exact .inr ⟨i, hi, send', hsend', hurl'.trans hurl, hmessage'.trans hmessage⟩

private theorem Reached.extends (h : Reached node sends r url) (hext : Extends sends sends') :
    Reached node sends' r url := by
  obtain hown | ⟨i, hi, send, hsend, hurl, hmessage, hfinished⟩ := h
  · exact .inl hown
  · obtain ⟨send', hsend', hurl', hmessage', hkept⟩ := hext i send hsend
    exact .inr ⟨i, hi, send', hsend', hurl'.trans hurl, hmessage'.trans hmessage, hkept hfinished⟩

private theorem Announced.extends (h : Announced node sends r) (hext : Extends sends sends') :
    Announced node sends' r := by
  intro hround
  obtain ⟨hready, haddressed, hreached⟩ := h hround
  exact ⟨hready, haddressed, fun url hurl => (hreached url hurl).extends hext⟩

private theorem Announcing.extends {loop : LoopPc} (h : Announcing node sends loop)
    (hext : Extends sends sends') : Announcing node sends' loop := by
  cases loop with
  | sending r =>
    intro hround
    obtain ⟨hready, haddressed, hsent⟩ := h hround
    exact ⟨hready, haddressed, fun url hurl => (hsent url hurl).imp_right (·.extends hext)⟩
  | joining r =>
    obtain ⟨hround, hready, haddressed, hsent⟩ := h
    exact ⟨hround, hready, haddressed, fun url hurl => (hsent url hurl).extends hext⟩
  | waiting => trivial
  | woken => trivial
  | read announcesDrain => trivial
  | built announcesDrain origin => exact h

/-! ## The parts of a round -/

private theorem addressed_collected {announcesDrain : Bool} {origin : PeerState}
    {known : List PeerState} {discovered targets : List String}
    (h : ∀ url, url ∈ targets ↔ url ∈ allTargets node.config known discovered) :
    Addressed node (.collected announcesDrain origin known targets) := by
  constructor
  · intro seed hseed
    apply (h seed).mpr
    simp [allTargets, hseed]
  · intro info hinfo
    obtain ⟨peer, hpeer, rfl⟩ := List.mem_map.mp hinfo
    apply (h peer.address).mpr
    simp only [allTargets, List.mem_append]
    exact .inr (List.mem_map_of_mem hpeer)

private theorem announcing_visit {rest : List String} (h : Announcing node sends (.sending r))
    (hleft : r.left = url :: rest)
    (hvisited : r.announcesDrain = true → SentTo node sends' r url)
    (hext : Extends sends sends') :
    Announcing node sends' (.sending { r with left := rest }) := by
  intro hround
  obtain ⟨hready, haddressed, hsent⟩ := h hround
  refine ⟨hready, haddressed, fun target htarget => ?_⟩
  obtain hmem | hdone := hsent target htarget
  · rw [hleft, List.mem_cons] at hmem
    obtain rfl | hmem := hmem
    · exact .inr (hvisited hround)
    · exact .inl hmem
  · exact .inr (hdone.extends hext)

private theorem extends_refl (sends : List Send) : Extends sends sends :=
  fun _ send hsend => ⟨send, hsend, rfl, rfl, id⟩

private theorem announcing_send {rest : List String} {now : Nat} {contended : Bool}
    (h : Announcing node s.sends (.sending r)) (hleft : r.left = url :: rest) :
    Announcing node (r.send node s url rest now contended).sends
      (r.send node s url rest now contended).loop := by
  intro hround
  change r.announcesDrain = true at hround
  obtain ⟨hready, haddressed, hsent⟩ := h hround
  refine ⟨hready, haddressed, fun target htarget => ?_⟩
  have hsends : ∀ i, i ∈ (if r.announcesDrain then r.sends ++ [s.sends.length] else r.sends) ↔
      i ∈ r.sends ∨ i = s.sends.length := by
    simp [hround]
  obtain hmem | hdone := hsent target htarget
  · rw [hleft, List.mem_cons] at hmem
    obtain rfl | hmem := hmem
    · refine .inr (.inr ⟨s.sends.length, (hsends _).mpr (.inr rfl), _,
        List.getElem?_concat_length, rfl, rfl⟩)
    · exact .inl hmem
  · right
    obtain hown | ⟨i, hi, send, hsend, hurl, hmessage⟩ := hdone.extends (extends_append _ _)
    · exact .inl hown
    · exact .inr ⟨i, (hsends i).mpr (.inl hi), send, hsend, hurl, hmessage⟩

private theorem announced_of_joined (h : Announcing node sends (.joining r))
    (hfinished : ∀ i ∈ r.sends, ∀ send, sends[i]? = some send → send.finished = true) :
    Announced node sends r := by
  obtain ⟨-, hready, haddressed, hsent⟩ := h
  refine fun _ => ⟨hready, haddressed, fun url hurl => ?_⟩
  obtain hown | ⟨i, hi, send, hsend, hurl, hmessage⟩ := hsent url hurl
  · exact .inl hown
  · exact .inr ⟨i, hi, send, hsend, hurl, hmessage, hfinished i hi send hsend⟩

/-! ## Every interleaving -/

private theorem AnnouncedInv.advance (inv : AnnouncedInv node s) {loop : LoopPc}
    (hext : Extends s.sends sends') (hwoken : s.loop ≠ .woken)
    (hannounces : loop.Announces ↔ s.loop.Announces) (hlate : s.loop.Late → loop.Late)
    (hloop : Announcing node sends' loop) :
    AnnouncedInv node { s with sends := sends', loop := loop } :=
  { inv with
    draining := fun h => inv.draining (hannounces.mp h)
    loop := hloop
    rounds := fun r hr => (inv.rounds r hr).extends hext
    late := fun h => (inv.late h).imp_right hlate
    kept := fun hdone => by
      obtain htrigger | hread | hround | hcomplete := inv.kept hdone
      · exact .inl htrigger
      · exact absurd hread hwoken
      · exact .inr (.inr (.inl (hannounces.mpr hround)))
      · exact .inr (.inr (.inr hcomplete)) }

private theorem AnnouncedInv.complete (inv : AnnouncedInv node s) (hwoken : s.loop ≠ .woken)
    (hannounces : s.loop.Announces ↔ r.announcesDrain = true)
    (hannounced : Announced node s.sends r) (hfollows : ∀ r' ∈ s.rounds, Follows r' r) :
    AnnouncedInv node { s with loop := .waiting, rounds := s.rounds ++ [r] } :=
  { inv with
    draining := False.elim
    loop := trivial
    rounds := fun r' hr' => by
      obtain hr' | hr' := List.mem_append.mp hr'
      · exact inv.rounds r' hr'
      · rw [List.mem_singleton.mp hr']
        exact hannounced
    late := fun h => by
      obtain ⟨r', hr', hround⟩ := h
      obtain hr' | hr' := List.mem_append.mp hr'
      · exact ⟨(inv.late ⟨r', hr', hround⟩).1, trivial⟩
      · rw [List.mem_singleton.mp hr'] at hround
        exact ⟨inv.draining (hannounces.mpr hround), trivial⟩
    order := by
      refine List.pairwise_append.mpr ⟨inv.order, List.pairwise_singleton _ _, ?_⟩
      intro r' hr' last hlast
      rw [List.mem_singleton.mp hlast]
      exact hfollows r' hr'
    sent := fun h => by
      obtain ⟨r', hr', hround⟩ := inv.sent h
      exact ⟨r', List.mem_append_left _ hr', hround⟩
    kept := fun hdone => by
      obtain htrigger | hread | hround | ⟨r', hr', hround⟩ := inv.kept hdone
      · exact .inl htrigger
      · exact absurd hread hwoken
      · exact .inr (.inr (.inr ⟨r, List.mem_append_right _ (List.mem_singleton_self r),
          hannounces.mp hround⟩))
      · exact .inr (.inr (.inr ⟨r', List.mem_append_left _ hr', hround⟩)) }

private theorem announcedInv_step (inv : AnnouncedInv node s)
    (h : step urls node s label = some t) : AnnouncedInv node t := by
  have hloop := inv.loop
  cases step_effect h with
  | tick hwaiting =>
    exact { inv with
      draining := False.elim
      loop := trivial
      late := fun h => ⟨(inv.late h).1, trivial⟩
      kept := fun _ => .inr (.inl rfl) }
  | triggered hwaiting htrigger =>
    exact { inv with
      draining := False.elim
      loop := trivial
      late := fun h => ⟨(inv.late h).1, trivial⟩
      kept := fun _ => .inr (.inl rfl) }
  | readDraining hwoken =>
    exact { inv with
      draining := id
      loop := trivial
      late := fun h => ⟨(inv.late h).1, (inv.late h).1⟩
      kept := fun hdone => .inr (.inr (.inl (inv.signalled (by rw [hdone]; decide)))) }
  | buildState reading canServe announcesDrain hread =>
    have hdraining : announcesDrain = true → s.draining = true := by
      intro hround
      apply inv.draining
      rw [hread]
      exact hround
    have hbuilt : Announcing node s.sends (.built announcesDrain
        (node.getGossipPeerState reading s.draining canServe s.gossipSeq)) := fun hround => by
      simp [Node.getGossipPeerState, hdraining hround]
    exact { inv.advance (extends_refl _) (by simp [hread]) (by rw [hread]; exact Iff.rfl)
      (by rw [hread]; exact id) hbuilt with }
  | collect known discovered targets announcesDrain origin hbuilt hknown htargets =>
    rw [hbuilt] at hloop
    have hsending : Announcing node s.sends
        (.sending (.collected announcesDrain origin known targets)) := fun hround =>
      ⟨hloop hround, addressed_collected htargets, fun url hurl => .inl hurl⟩
    exact { inv.advance (extends_refl _) (by simp [hbuilt]) (by rw [hbuilt]; exact Iff.rfl)
      (by rw [hbuilt]; exact id) hsending with }
  | skipSelf r rest hsending hleft =>
    rw [hsending] at hloop
    exact inv.advance (extends_refl _) (by simp [hsending]) (by rw [hsending]; exact Iff.rfl)
      (by rw [hsending]; exact id)
      (announcing_visit hloop hleft (fun _ => .inl rfl) (extends_refl _))
  | spawnSend now contended r url rest hsending hleft hother =>
    rw [hsending] at hloop
    exact { inv.advance (extends_append _ _) (by simp [hsending]) (by rw [hsending]; exact Iff.rfl)
      (by rw [hsending]; exact id) (announcing_send hloop hleft) with }
  | permitTimeout r url rest hsending hleft hround =>
    exact inv.advance (extends_refl _) (by simp [hsending]) (by rw [hsending]; exact Iff.rfl)
      (by rw [hsending]; exact id) (fun h => absurd h (by simp [hround]))
  | endRound r hsending hleft hround =>
    refine inv.complete (by simp [hsending]) (by rw [hsending]; exact Iff.rfl)
      (fun h => absurd h (by simp [hround])) ?_
    -- no round before this one announced the drain: the loop would be in one that does
    intro r' hr' hannounced
    have hlate := (inv.late ⟨r', hr', hannounced⟩).2
    rw [hsending] at hlate
    cases hround.symm.trans hlate
  | endTargets r hsending hleft hround =>
    rw [hsending] at hloop
    obtain ⟨hready, haddressed, hsent⟩ := hloop hround
    exact inv.advance (extends_refl _) (by simp [hsending]) (by rw [hsending]; exact Iff.rfl)
      (fun _ => trivial) ⟨hround, hready, haddressed, fun url hurl =>
        (hsent url hurl).resolve_left (by simp [hleft])⟩
  | joined r hjoining hfinished =>
    rw [hjoining] at hloop
    have hannounced := announced_of_joined hloop hfinished
    exact { inv.complete (by simp [hjoining]) (by rw [hjoining]; exact Iff.rfl) hannounced
        (fun _ _ _ => ⟨hloop.1, hloop.2.1⟩) with
      sent := fun _ => ⟨r, List.mem_append_right _ (List.mem_singleton_self r), hloop.1⟩ }
  | sendFinished index now success send hsend =>
    exact { inv with
      loop := inv.loop.extends (extends_set hsend)
      rounds := fun r hr => (inv.rounds r hr).extends (extends_set hsend) }
  | beginShutdownDrain hsignal =>
    exact { inv with
      draining := fun _ => rfl
      late := fun h => ⟨rfl, (inv.late h).2⟩
      signalled := fun _ => rfl
      kept := fun hdone => by cases hdone }
  | signalGossip hsignal =>
    exact { inv with
      signalled := fun _ => inv.signalled (by rw [hsignal]; decide)
      kept := fun _ => .inl rfl }
  | notifyTrigger =>
    exact { inv with kept := fun _ => .inl rfl }
  | startWait hwait =>
    exact { inv with
      sent := fun h => inv.sent (h.imp_right fun hheard => by cases hheard) }
  | heard hwait hsent =>
    exact { inv with sent := fun _ => inv.sent (.inl hsent) }
  | waitTimeout hwait =>
    exact { inv with
      sent := fun h => inv.sent (h.imp_right fun hheard => by cases hheard) }
  | gossip delivery => exact { inv with }
  | claim peerId now contended hpeer => exact { inv with }
  | result peerId now probeTicket success hpeer => exact { inv with }

private theorem announcedInv_init (node : Node) : AnnouncedInv node (Shared.init node) where
  draining := False.elim
  signalled := fun h => absurd rfl h
  loop := trivial
  rounds := fun r hr => by cases hr
  late := fun h => by
    obtain ⟨r, hr, -⟩ := h
    cases hr
  order := .nil
  sent := fun h => by
    obtain hsent | hheard := h
    · cases hsent
    · cases hheard
  kept := fun hdone => by cases hdone

/-- The wait for the announcement ends by the loop only when a round is complete that told of the
drain and reached its targets; every round after such a one tells of the drain too; and the signal
of the drain is not lost. -/
theorem drain_announced (h : Reachable (step urls node) (Shared.init node) s) :
    (s.wait = .heard → ∃ r ∈ s.rounds, r.announcesDrain = true ∧
      r.message.origin.ready = false ∧ Addressed node r ∧
        ∀ url ∈ r.targets, Reached node s.sends r url) ∧
      s.rounds.Pairwise Follows ∧ (s.signal = .done → Underway s) := by
  have inv : AnnouncedInv node s :=
    h.invariant (fun _ _ _ inv hstep => announcedInv_step inv hstep) (announcedInv_init node)
  refine ⟨fun hheard => ?_, inv.order, inv.kept⟩
  obtain ⟨r, hr, hround⟩ := inv.sent (.inr hheard)
  obtain ⟨hready, haddressed, hreached⟩ := inv.rounds r hr hround
  exact ⟨r, hr, hround, hready, haddressed, hreached⟩

/-- `node-a` with one seed. -/
def knowingNode : Node where
  config := { nodeA with clusterPeers := ["http://10.0.0.2:9000"] }
  address := "http://10.0.0.1:9000"
  epoch := 7
  startedAtUnix := 100
  maxConcurrentGossip := 1
  breaker := {}

/-- The signal comes while a round is under way whose snapshot is still ready; the round after it
announces the drain. -/
def lateSignal : List Label :=
  let reading := placeholder ⟨"", ""⟩ 0
  [.tick, .readDraining, .buildState reading true, .beginShutdownDrain, .signalGossip,
    .collect [] [] ["http://10.0.0.2:9000"], .spawnSend 0 false, .endTargets, .startWait,
    .triggered, .readDraining, .buildState reading true,
    .collect [] [] ["http://10.0.0.2:9000"], .spawnSend 0 false, .endTargets,
    .sendFinished 1 1 true, .joined, .heard]

/-- The round under way did not end the wait, and the one after it did. -/
theorem lateSignal_announced : ∃ s,
    exec (step literalUrls knowingNode) (Shared.init knowingNode) lateSignal = some s ∧
      s.wait = .heard ∧ ∃ r ∈ s.rounds, r.announcesDrain = true ∧
        r.message.origin.ready = false ∧ Addressed knowingNode r ∧
          ∀ url ∈ r.targets, Reached knowingNode s.sends r url := by
  have hrun : (exec (step literalUrls knowingNode) (Shared.init knowingNode) lateSignal).map
      (·.wait) = some .heard := by
    decide +kernel
  obtain ⟨s, hs, hheard⟩ := Option.map_eq_some_iff.mp hrun
  exact ⟨s, hs, hheard, (drain_announced ⟨lateSignal, hs⟩).1 hheard⟩

end Llamesh.Gossip
