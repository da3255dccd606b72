import Llamesh.Gossip.Model
import Mathlib.Data.Prod.Lex

/-!
# Order of gossip messages

The messages of one node may be delayed, duplicated and reordered, and the node may restart. The
entry of the node then is the state of the delivered message with the greatest start time and
sequence number, whatever other nodes gossip in between; a message that is not newer changes
nothing at all. The order is by process and by snapshot: `gossip_epoch` names the process, so it
agrees with the start time, and the entry must not outlive the gossip timeout between messages.
-/

namespace Llamesh.Gossip

variable (urls : UrlParser) (config : NodeConfig)

/-- The place of a snapshot among those of its node. -/
def snapshotKey (peer : PeerState) : Nat ×ₗ Nat := toLex (peer.startedAtUnix, peer.gossipSeq)

/-- The delivery is a message of the node. -/
def Delivery.From (d : Delivery) (nodeId : String) : Prop := d.message.origin.nodeId = nodeId

/-- The entry has the state of the snapshot; the receiver decides the address, its provenance and
the time. -/
def Carries (entry origin : PeerState) : Prop :=
  entry = { origin with
    address := entry.address, addressFromSource := entry.addressFromSource
    lastSeen := entry.lastSeen }

/-- Messages of the node are ordered and accepted, its processes have distinct start seconds, and
its entry stays within the timeout. -/
structure OrderedStream (nodeId : String) (ds : List Delivery) : Prop where
  ordered : ∀ d ∈ ds, d.From nodeId → ordered d.message.origin = true
  accepted : ∀ d ∈ ds, d.From nodeId → shouldReject config d.message.origin.version = false
  processes : ∀ d ∈ ds, ∀ d' ∈ ds, d.From nodeId → d'.From nodeId →
    (d.message.origin.gossipEpoch = d'.message.origin.gossipEpoch ↔
      d.message.origin.startedAtUnix = d'.message.origin.startedAtUnix)
  within : ∀ earlier d later, ds = earlier ++ d :: later → d.From nodeId →
    ∀ entry, (receive urls config ∅ earlier).lookup nodeId = some entry →
      fresh config d.now entry = true

/-- The delivery is the latest snapshot of the node. -/
def Latest (nodeId : String) (ds : List Delivery) (d : Delivery) : Prop :=
  d ∈ ds ∧ d.From nodeId ∧ ∀ d' ∈ ds, d'.From nodeId →
    snapshotKey d'.message.origin ≤ snapshotKey d.message.origin

/-- The entry of the node is the latest delivered snapshot, once there is one. -/
def Converged (nodeId : String) (ds : List Delivery) : Prop :=
  (∃ d ∈ ds, d.From nodeId) → ∃ d entry, Latest nodeId ds d ∧
    (receive urls config ∅ ds).lookup nodeId = some entry ∧ Carries entry d.message.origin

/-! ## One message -/

variable {urls config} {nodeId : String}

/-- Between two ordered snapshots of a node, `newer` is the order of their keys. -/
theorem newer_iff {entry origin peer : PeerState} (hcarries : Carries entry origin)
    (horigin : ordered origin = true) (hpeer : ordered peer = true)
    (hprocess : peer.gossipEpoch = origin.gossipEpoch ↔
      peer.startedAtUnix = origin.startedAtUnix) :
    newer entry peer = true ↔ snapshotKey origin < snapshotKey peer := by
  have hepoch : entry.gossipEpoch = origin.gossipEpoch := by rw [hcarries]
  have hseq : entry.gossipSeq = origin.gossipSeq := by rw [hcarries]
  have hstart : entry.startedAtUnix = origin.startedAtUnix := by rw [hcarries]
  have hentry : ordered entry = true := by
    rw [ordered, hepoch, hseq]
    exact horigin
  simp only [newer, hentry, hpeer, Bool.not_true, Bool.false_or, Bool.true_and, hepoch, hseq,
    hstart, snapshotKey, Prod.Lex.toLex_lt_toLex]
  by_cases hsame : peer.gossipEpoch = origin.gossipEpoch
  · have hstarted := hprocess.mp hsame
    simp [hsame, hstarted]
  · have hstarted : peer.startedAtUnix ≠ origin.startedAtUnix := fun h => hsame (hprocess.mpr h)
    simp only [hsame, if_false, decide_eq_true_eq]
    constructor
    · intro hge
      exact Or.inl (by omega)
    · rintro (hlt | ⟨heq, -⟩)
      · omega
      · exact absurd heq.symm hstarted

private theorem receive_concat (ds : List Delivery) (d : Delivery) :
    receive urls config ∅ (ds ++ [d]) =
      processGossipMessage urls config (receive urls config ∅ ds) d := by
  simp [receive]

private theorem carries_stored (peers : Peers) (d : Delivery) :
    Carries (stored urls config peers d) d.message.origin := by
  unfold Carries stored
  dsimp only

/-- Before the node's first message its entry, if any, is a placeholder. -/
private def Unheard (peers : Peers) (nodeId : String) : Prop :=
  ∀ entry, peers.lookup nodeId = some entry → ordered entry = false

private theorem unheard_process {peers : Peers} {d : Delivery} (h : Unheard peers nodeId)
    (hd : ¬ d.From nodeId) : Unheard (processGossipMessage urls config peers d) nodeId := by
  intro entry hentry
  rcases @lookup_process_of_ne urls config peers d nodeId (Ne.symm hd) with
    hsame | ⟨-, -, info, -, -, hnew⟩
  · exact h entry (hsame ▸ hentry)
  · rw [hnew] at hentry
    cases hentry
    rfl

private theorem stored_of_unheard {peers : Peers} {d : Delivery} (h : Unheard peers nodeId)
    (hd : d.From nodeId) (haccepted : shouldReject config d.message.origin.version = false) :
    (processGossipMessage urls config peers d).lookup nodeId =
      some (stored urls config peers d) := by
  have hstale : stale config peers d.now d.message.origin = false := by
    unfold stale
    cases hlookup : peers.lookup d.message.origin.nodeId with
    | none => rfl
    | some entry =>
      have hunordered := h entry (hd ▸ hlookup)
      simp [newer, hunordered]
  rw [lookup_process hstale haccepted, if_pos hd.symm]

/-- What is known of the entry of the node after the deliveries: a placeholder at most before its
first message, and its latest snapshot from then on. -/
private def Tracks (urls : UrlParser) (config : NodeConfig) (nodeId : String)
    (ds : List Delivery) : Prop :=
  ((∀ d ∈ ds, ¬ d.From nodeId) → Unheard (receive urls config ∅ ds) nodeId) ∧
    Converged urls config nodeId ds

private theorem latest_concat_of_le {ds : List Delivery} {m d : Delivery}
    (hm : Latest nodeId ds m)
    (hle : d.From nodeId → snapshotKey d.message.origin ≤ snapshotKey m.message.origin) :
    Latest nodeId (ds ++ [d]) m := by
  refine ⟨List.mem_append_left _ hm.1, hm.2.1, ?_⟩
  intro d' hd' hfrom
  rcases List.mem_append.mp hd' with hd' | hd'
  · exact hm.2.2 d' hd' hfrom
  · rw [List.mem_singleton] at hd'
    subst hd'
    exact hle hfrom

private theorem latest_concat_new {ds : List Delivery} {d : Delivery} (hd : d.From nodeId)
    (hle : ∀ d' ∈ ds, d'.From nodeId →
      snapshotKey d'.message.origin ≤ snapshotKey d.message.origin) :
    Latest nodeId (ds ++ [d]) d := by
  refine ⟨List.mem_append_right _ (List.mem_singleton.mpr rfl), hd, ?_⟩
  intro d' hd' hfrom
  rcases List.mem_append.mp hd' with hd' | hd'
  · exact hle d' hd' hfrom
  · rw [List.mem_singleton] at hd'
    subst hd'
    exact le_rfl

private theorem stale_iff {peers : Peers} {entry : PeerState} {m d : Delivery}
    (hlookup : peers.lookup nodeId = some entry) (hcarries : Carries entry m.message.origin)
    (hm : ordered m.message.origin = true) (hd : ordered d.message.origin = true)
    (hfrom : d.From nodeId)
    (hprocess : d.message.origin.gossipEpoch = m.message.origin.gossipEpoch ↔
      d.message.origin.startedAtUnix = m.message.origin.startedAtUnix)
    (hfresh : fresh config d.now entry = true) :
    stale config peers d.now d.message.origin = true ↔
      snapshotKey d.message.origin ≤ snapshotKey m.message.origin := by
  have hentry : peers.lookup d.message.origin.nodeId = some entry := by
    rw [show d.message.origin.nodeId = nodeId from hfrom, hlookup]
  have hnewer := newer_iff hcarries hm hd hprocess
  rw [stale, hentry, Option.any_some, hfresh, Bool.true_and, Bool.not_eq_true', ← not_lt,
    ← hnewer, Bool.not_eq_true]

/-! ## Every delivery order -/

private theorem OrderedStream.earlier {ds es : List Delivery}
    (h : OrderedStream urls config nodeId (ds ++ es)) : OrderedStream urls config nodeId ds where
  ordered := fun d hd => h.ordered d (List.mem_append_left _ hd)
  accepted := fun d hd => h.accepted d (List.mem_append_left _ hd)
  processes := fun d hd d' hd' =>
    h.processes d (List.mem_append_left _ hd) d' (List.mem_append_left _ hd')
  within := by
    intro earlier d later heq
    apply h.within earlier d (later ++ es)
    rw [heq, List.append_assoc, List.cons_append]

private theorem OrderedStream.stale_iff {ds : List Delivery} {m d : Delivery} {entry : PeerState}
    (h : OrderedStream urls config nodeId (ds ++ [d])) (hd : d.From nodeId)
    (hm : Latest nodeId ds m)
    (hlookup : (receive urls config ∅ ds).lookup nodeId = some entry)
    (hcarries : Carries entry m.message.origin) :
    stale config (receive urls config ∅ ds) d.now d.message.origin = true ↔
      snapshotKey d.message.origin ≤ snapshotKey m.message.origin := by
  have hdmem : d ∈ ds ++ [d] := List.mem_append_right _ (List.mem_singleton.mpr rfl)
  have hmmem : m ∈ ds ++ [d] := List.mem_append_left _ hm.1
  apply Gossip.stale_iff hlookup hcarries
  · exact h.ordered m hmmem hm.2.1
  · exact h.ordered d hdmem hd
  · exact hd
  · exact h.processes d hdmem m hmmem hd hm.2.1
  · exact h.within ds d [] rfl hd entry hlookup

private theorem tracks_other {ds : List Delivery} {d : Delivery}
    (hds : Tracks urls config nodeId ds) (hd : ¬ d.From nodeId) :
    Tracks urls config nodeId (ds ++ [d]) := by
  constructor
  · intro hnone
    rw [receive_concat]
    apply unheard_process _ hd
    exact hds.1 fun d' hd' => hnone d' (List.mem_append_left _ hd')
  · rintro ⟨d', hd', hfrom⟩
    have hmem : d' ∈ ds := by
      rcases List.mem_append.mp hd' with hmem | heq
      · exact hmem
      · rw [List.mem_singleton] at heq
        exact absurd (heq ▸ hfrom) hd
    obtain ⟨m, entry, hlatest, hlookup, hcarries⟩ := hds.2 ⟨d', hmem, hfrom⟩
    refine ⟨m, entry, latest_concat_of_le hlatest (absurd · hd), ?_, hcarries⟩
    rw [receive_concat]
    rcases @lookup_process_of_ne urls config (receive urls config ∅ ds) d nodeId (Ne.symm hd) with
      hsame | ⟨hnone, -⟩
    · rw [hsame, hlookup]
    · rw [hlookup] at hnone
      cases hnone

private theorem tracks_own {ds : List Delivery} {d : Delivery}
    (h : OrderedStream urls config nodeId (ds ++ [d])) (hds : Tracks urls config nodeId ds)
    (hd : d.From nodeId) : Tracks urls config nodeId (ds ++ [d]) := by
  have hdmem : d ∈ ds ++ [d] := List.mem_append_right _ (List.mem_singleton.mpr rfl)
  have haccepted := h.accepted d hdmem hd
  refine ⟨fun hnone => absurd hd (hnone d hdmem), fun _ => ?_⟩
  by_cases hheard : ∃ d' ∈ ds, d'.From nodeId
  · obtain ⟨m, entry, hlatest, hlookup, hcarries⟩ := hds.2 hheard
    have hstale := h.stale_iff hd hlatest hlookup hcarries
    by_cases hle : snapshotKey d.message.origin ≤ snapshotKey m.message.origin
    · -- Not newer: the message is ignored and the old snapshot stays the latest.
      refine ⟨m, entry, latest_concat_of_le hlatest fun _ => hle, ?_, hcarries⟩
      rw [receive_concat, process_of_ignored (Or.inl (hstale.mpr hle)), hlookup]
    · have hnotStale := Bool.eq_false_iff.mpr fun hs => hle (hstale.mp hs)
      refine ⟨d, stored urls config (receive urls config ∅ ds) d, latest_concat_new hd ?_, ?_,
        carries_stored _ d⟩
      · intro d' hd' hfrom
        exact (hlatest.2.2 d' hd' hfrom).trans (le_of_not_ge hle)
      · rw [receive_concat, lookup_process hnotStale haccepted, if_pos hd.symm]
  · have hunheard := hds.1 fun d' hd' hfrom => hheard ⟨d', hd', hfrom⟩
    refine ⟨d, stored urls config (receive urls config ∅ ds) d, latest_concat_new hd ?_, ?_,
      carries_stored _ d⟩
    · exact fun d' hd' hfrom => absurd ⟨d', hd', hfrom⟩ hheard
    · rw [receive_concat, stored_of_unheard hunheard hd haccepted]

private theorem tracks {ds : List Delivery} (h : OrderedStream urls config nodeId ds) :
    Tracks urls config nodeId ds := by
  induction ds using List.reverseRecOn with
  | nil =>
    refine ⟨?_, ?_⟩
    · intro _ entry hentry
      cases hentry
    · rintro ⟨d, hd, -⟩
      cases hd
  | append_singleton ds d ih =>
    have hds := ih h.earlier
    by_cases hd : d.From nodeId
    · exact tracks_own h hds hd
    · exact tracks_other hds hd

/-- The entry of the node is its latest delivered snapshot. -/
theorem OrderedStream.converged {ds : List Delivery}
    (h : OrderedStream urls config nodeId ds) : Converged urls config nodeId ds :=
  (tracks h).2

/-- After every delivery the entry of the node is its latest delivered snapshot, and a message that
is not newer than one delivered before leaves the whole map unchanged. -/
theorem gossip_converges {ds : List Delivery} (h : OrderedStream urls config nodeId ds) :
    (∀ earlier later, ds = earlier ++ later → Converged urls config nodeId earlier) ∧
      ∀ earlier d later, ds = earlier ++ d :: later → d.From nodeId →
        (∃ d' ∈ earlier, d'.From nodeId ∧
          snapshotKey d.message.origin ≤ snapshotKey d'.message.origin) →
        receive urls config ∅ (earlier ++ [d]) = receive urls config ∅ earlier := by
  constructor
  · rintro earlier later rfl
    exact (tracks h.earlier).2
  · rintro earlier d later rfl hd ⟨d', hd', hfrom, hle⟩
    have hpast : OrderedStream urls config nodeId (earlier ++ [d]) := by
      rw [List.append_cons] at h
      exact h.earlier
    obtain ⟨m, entry, hlatest, hlookup, hcarries⟩ := (tracks hpast.earlier).2 ⟨d', hd', hfrom⟩
    rw [receive_concat, process_of_ignored]
    left
    rw [hpast.stale_iff hd hlatest hlookup hcarries]
    exact hle.trans (hlatest.2.2 d' hd' hfrom)

/-! ## A restarted node -/

/-- A node that accepts every version. -/
def nodeA : NodeConfig := ⟨"node-a", "1.22.6", 5, "warn", []⟩

/-- A snapshot of `node-b`, delivered at a time. -/
def snapshotOf (started epoch seq now : Nat) : Delivery where
  message := ⟨{ placeholder ⟨"node-b", "http://10.0.0.2:9000"⟩ 0 with
    version := "1.22.6", startedAtUnix := started, gossipEpoch := epoch, gossipSeq := seq
    ready := true }, []⟩
  source := none
  now := now
  seenAt := fun _ => now

/-- A snapshot of the restarted node, and then a delayed one of the process before. -/
def delayedSnapshot : List Delivery := [snapshotOf 200 7 1 201, snapshotOf 100 3 40 202]

private theorem orderedStream_delayedSnapshot :
    OrderedStream literalUrls nodeA "node-b" delayedSnapshot where
  ordered := by
    intro d hd _
    simp only [delayedSnapshot, List.mem_cons, List.not_mem_nil, or_false] at hd
    rcases hd with rfl | rfl
    · rfl
    · rfl
  accepted := by
    intro d hd _
    simp only [delayedSnapshot, List.mem_cons, List.not_mem_nil, or_false] at hd
    rcases hd with rfl | rfl
    · decide
    · decide
  processes := by
    intro d hd d' hd' _ _
    simp only [delayedSnapshot, List.mem_cons, List.not_mem_nil, or_false] at hd hd'
    rcases hd with rfl | rfl <;> rcases hd' with rfl | rfl <;> simp [snapshotOf]
  within := by
    intro earlier d later heq _ entry hentry
    match earlier with
    | [] => cases hentry
    | [first] =>
      simp only [delayedSnapshot, List.cons_append, List.nil_append, List.cons.injEq] at heq
      obtain ⟨rfl, rfl, -⟩ := heq
      have hfresh : ((receive literalUrls nodeA ∅ [snapshotOf 200 7 1 201]).lookup
          "node-b").all (fresh nodeA 202) = true := by
        decide +kernel
      rw [hentry] at hfresh
      exact hfresh
    | first :: second :: rest =>
      have hlength := congrArg List.length heq
      simp [delayedSnapshot] at hlength

/-- The delayed snapshot is dropped: the entry is the snapshot of the restarted node. -/
theorem delayedSnapshot_converges :
    receive literalUrls nodeA ∅ delayedSnapshot =
        receive literalUrls nodeA ∅ [snapshotOf 200 7 1 201] ∧
      Converged literalUrls nodeA "node-b" delayedSnapshot := by
  have hconverges := gossip_converges orderedStream_delayedSnapshot
  refine ⟨?_, hconverges.1 delayedSnapshot [] (List.append_nil _).symm⟩
  apply hconverges.2 [snapshotOf 200 7 1 201] (snapshotOf 100 3 40 202) [] rfl rfl
  refine ⟨snapshotOf 200 7 1 201, List.mem_singleton.mpr rfl, rfl, ?_⟩
  simp [snapshotKey, snapshotOf, Prod.Lex.toLex_le_toLex]

end Llamesh.Gossip
