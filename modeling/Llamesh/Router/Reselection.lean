import Llamesh.CircuitBreaker.Operations
import Llamesh.Router.Selection

/-!
# Immediate reselection

The rounds of the two routing loops of `route_request` (`src/router.rs:1049–1254,1317–1923`) while
nothing around them changes: the peers, their circuits and loads and the probe intervals stay as
they are. A round admits a dispatch, starts to acquire an instance, waits, returns, or is denied the
probe slot of a recovering peer; after a first denial the loop selects again at once, without the
peer. The exclusion lasts one selection and the loop remembers the last denial only, so two
recovering peers whose slots are taken are chosen in turns.
-/

namespace Llamesh.Router

open Gossip Ranking CircuitBreaker

/-- What a round reads: a selection, what `routing_preflight` checks (`src/router.rs:143–165`), and
whether the requested profile is still in the cookbook. -/
structure Surroundings extends View where
  draining : Bool
  deadlinePassed : Bool
  clientGone : Bool
  resolves : Bool

/-- The node's own entry has its name. -/
theorem Surroundings.selfPeer_named (s : Surroundings) : s.selfPeer.nodeId = s.config.nodeId :=
  s.selfPeer_nodeId

/-- What a loop carries from round to round. -/
structure Memory where
  drainedPeers : List String
  excludePeer : Option String
  lastProbeDenied : Option String
  modelWasFound : Bool
  deriving DecidableEq, Repr

/-- How a round ends. `again` is a denial without a wait, with the circuits the claim left. -/
inductive Round where
  | returned
  | waited (m : Memory)
  | acquiring (m : Memory)
  | admitted (peer : PeerState) (probeTicket : Bool) (m : Memory)
  | again (m : Memory) (circuits : Circuits)

/-- The memory of a new loop. -/
def Memory.init (drainedPeers : List String) : Memory := ⟨drainedPeers, none, none, false⟩

/-- The peers a selection leaves out. -/
def Memory.excluded (m : Memory) : List String := m.drainedPeers ++ m.excludePeer.toList

namespace Surroundings

variable (s : Surroundings)

/-- `routing_preflight` returns an error. -/
def preflightFails : Bool := s.draining || s.deadlinePassed || s.clientGone

/-- Whether a peer that was heard of in time accepts the model. `src/node_state/mod.rs:876–895`. -/
def anyPeerAdvertisesModel : Bool :=
  s.peers.any fun peer =>
    decide (s.now - peer.lastSeen ≤ gossipTimeout s.config) && peerAccepts peer s.request

/-- No peer was selected. `src/router.rs:1062–1110,1333–1368`. -/
def unavailable (loop : Loop) (m : Memory) : Round :=
  match loop with
  | .unknown =>
    if s.draining then .returned
    else if !m.modelWasFound && !s.anyPeerAdvertisesModel then .returned
    else .waited m
  | .known =>
    if !s.resolves then .returned
    else if s.draining then .returned
    else .waited m

/-- The claim was denied. `src/router.rs:1196–1231,1838–1923`. -/
def probeDenied (loop : Loop) (m : Memory) (peerId : String) : Round :=
  let repeated := decide (m.lastProbeDenied = some peerId)
  let after := { m with lastProbeDenied := some peerId, excludePeer := some peerId }
  let circuits := (s.claim peerId).2
  match loop with
  | .unknown =>
    if repeated then
      if s.draining then .returned else .waited after
    else .again after circuits
  | .known =>
    if s.draining then .returned
    else if repeated then .waited after
    else .again after circuits

variable {σ : Type} [LinearOrder σ] (score : PeerState → Nat → σ)

/-- One round of a loop. -/
def round (loop : Loop) (m : Memory) : Round :=
  if s.preflightFails then .returned
  else
    match s.choose score loop m.excluded with
    | none => s.unavailable loop { m with excludePeer := none }
    | some peer =>
      let m := { m with excludePeer := none, modelWasFound := true }
      if s.preflightFails then .returned
      else if loop = .known ∧ peer.nodeId = s.config.nodeId then .acquiring m
      else
        match (s.claim peer.nodeId).1 with
        | .admitted probeTicket => .admitted peer probeTicket m
        | .denied => s.probeDenied loop m peer.nodeId

/-- The memory after this many rounds in a row that only deny, when there are so many. -/
def spin (loop : Loop) : Surroundings → Nat → Memory → Option Memory
  | _, 0, m => some m
  | s, n + 1, m =>
    match s.round score loop m with
    | .again after circuits =>
      spin loop { s with circuits := circuits, selfPeer_nodeId := s.selfPeer_named } n after
    | _ => none

/-- Among `N` peers the loop makes at most `N + 1` such rounds in a row. -/
def BoundedReselection (loop : Loop) (m : Memory) : Prop :=
  ∀ n, s.peers.length + 1 < n → spin score loop s n m = none

/-- The peer that is selected when these are left out, when it is denied a dispatch. -/
def deniedChoice (loop : Loop) (excluded : List String) : Option String :=
  (s.choose score loop excluded).bind fun peer =>
    if loop = .known ∧ peer.nodeId = s.config.nodeId then none
    else if (s.claim peer.nodeId).1 = .denied then some peer.nodeId
    else none

/-- The preflight passes, the selection is denied for the first time, and so is the one without
it. -/
def TwoDenied (loop : Loop) (m : Memory) : Prop :=
  s.preflightFails = false ∧
    ∃ p q, s.deniedChoice score loop m.excluded = some p ∧ m.lastProbeDenied ≠ some p ∧
      s.deniedChoice score loop (m.drainedPeers ++ [p]) = some q

/-! ### One round -/

variable {s} {score}

private theorem deniedChoice_eq_some {loop : Loop} {excluded : List String} {p : String} :
    s.deniedChoice score loop excluded = some p ↔
      ∃ peer, s.choose score loop excluded = some peer ∧ peer.nodeId = p ∧
        ¬ (loop = .known ∧ p = s.config.nodeId) ∧ (s.claim p).1 = .denied := by
  unfold deniedChoice
  rw [Option.bind_eq_some_iff]
  apply exists_congr
  intro peer
  apply and_congr_right
  intro _
  constructor
  · intro h
    split at h
    · cases h
    · next hremote =>
      split at h
      · next hdenied =>
        obtain rfl := Option.some.inj h
        exact ⟨rfl, hremote, hdenied⟩
      · cases h
  · rintro ⟨rfl, hremote, hdenied⟩
    rw [if_neg hremote, if_pos hdenied]

private theorem unavailable_ne_again {loop : Loop} {m after : Memory} {circuits : Circuits} :
    s.unavailable loop m ≠ .again after circuits := by
  unfold unavailable
  cases loop with
  | unknown =>
    dsimp only
    split
    · simp
    · split <;> simp
  | known =>
    dsimp only
    split
    · simp
    · split <;> simp

private theorem draining_of_preflight (h : s.preflightFails = false) : s.draining = false := by
  simp only [preflightFails, Bool.or_eq_false_iff] at h
  exact h.1.1

/-- A denial selects again at once unless the same peer was denied before. -/
theorem probeDenied_eq_again {loop : Loop} {m after : Memory} {circuits : Circuits} {p : String}
    (hpre : s.preflightFails = false) (hdenied : (s.claim p).1 = .denied) :
    s.probeDenied loop m p = .again after circuits ↔ m.lastProbeDenied ≠ some p ∧
      circuits = s.circuits ∧
        after = { m with lastProbeDenied := some p, excludePeer := some p } := by
  have hkept : (s.claim p).2 = s.circuits := tryClaimDispatchSync_denied hdenied
  have hdrain := draining_of_preflight hpre
  unfold probeDenied
  by_cases hlast : m.lastProbeDenied = some p
  · cases loop <;> simp [hlast, hdrain]
  · cases loop with
    | unknown =>
      simp only [hlast, decide_false, Bool.false_eq_true, if_false, hkept, Round.again.injEq]
      exact ⟨fun h => ⟨hlast, h.2.symm, h.1.symm⟩, fun h => ⟨h.2.2.symm, h.2.1.symm⟩⟩
    | known =>
      simp only [hlast, hdrain, decide_false, Bool.false_eq_true, if_false, hkept,
        Round.again.injEq]
      exact ⟨fun h => ⟨hlast, h.2.symm, h.1.symm⟩, fun h => ⟨h.2.2.symm, h.2.1.symm⟩⟩

/-- The rounds that select again at once: a first denial, which leaves the circuits as they are. -/
theorem round_eq_again {loop : Loop} {m after : Memory} {circuits : Circuits} :
    s.round score loop m = .again after circuits ↔
      s.preflightFails = false ∧ circuits = s.circuits ∧
        ∃ p, s.deniedChoice score loop m.excluded = some p ∧ m.lastProbeDenied ≠ some p ∧
          after = ⟨m.drainedPeers, some p, some p, true⟩ := by
  constructor
  · intro h
    unfold round at h
    split at h
    · cases h
    · next hpre =>
      rw [Bool.not_eq_true] at hpre
      split at h
      · exact absurd h unavailable_ne_again
      · next peer hchoose =>
        split at h
        · cases h
        · next hremote =>
          split at h
          · cases h
          · next hdenied =>
            obtain ⟨hlast, hcircuits, hafter⟩ := (probeDenied_eq_again hpre hdenied).mp h
            exact ⟨hpre, hcircuits, peer.nodeId,
              deniedChoice_eq_some.mpr ⟨peer, hchoose, rfl, hremote, hdenied⟩, hlast, hafter⟩
  · rintro ⟨hpre, hcircuits, p, hp, hlast, hafter⟩
    obtain ⟨peer, hchoose, rfl, hremote, hdenied⟩ := deniedChoice_eq_some.mp hp
    unfold round
    rw [hpre, if_neg Bool.false_ne_true, hchoose]
    dsimp only
    rw [if_neg Bool.false_ne_true, if_neg hremote, hdenied]
    exact (probeDenied_eq_again hpre hdenied).mpr ⟨hlast, hcircuits, hafter⟩

/-! ### Two denied peers -/

/-- Two peers that are denied one after the other are selected in turns. -/
theorem deniedChoice_alternates {loop : Loop} {drained : List String} {e : Option String}
    {p q : String} (hp : s.deniedChoice score loop (drained ++ e.toList) = some p)
    (hq : s.deniedChoice score loop (drained ++ [p]) = some q) :
    s.deniedChoice score loop (drained ++ [q]) = some p ∧ p ≠ q := by
  obtain ⟨a, ha, rfl, hremote, hdenied⟩ := deniedChoice_eq_some.mp hp
  obtain ⟨b, hb, rfl, hremote', -⟩ := deniedChoice_eq_some.mp hq
  -- neither is the node itself, so the exclusions apply to both
  have hae : some a.nodeId ≠ e := by
    obtain hown | hother := s.mem_others_of_choose score ha
    · exact absurd hown hremote
    · rw [View.others_append] at hother
      exact of_decide_eq_true (List.mem_filter.mp hother).2
  have hba : b.nodeId ≠ a.nodeId := by
    obtain hown | hother := s.mem_others_of_choose score hb
    · exact absurd hown hremote'
    · have hnot := s.notMem_of_mem_others hother
      intro h
      exact hnot (List.mem_append_right _ (List.mem_singleton.mpr h))
  refine ⟨?_, fun h => hba h.symm⟩
  have hbest : ∀ {e : Option String} {c : PeerState},
      s.choose score loop (drained ++ e.toList) = some c →
      ¬ (loop = .known ∧ c.nodeId = s.config.nodeId) →
      ¬ (loop = .known ∧ (s.servesSelf && s.preferLocal) = true) ∧
        best (s.prefers score loop) (s.own loop ++
          (s.others drained loop).filter fun peer => decide (some peer.nodeId ≠ e)) = some c := by
    intro e c hc hremote
    rw [View.choose_eq_best] at hc
    split at hc
    · next hlocal =>
      obtain rfl := Option.some.inj hc
      exact absurd ⟨hlocal.1, s.selfPeer_nodeId⟩ hremote
    · next hlocal =>
      rw [View.others_append] at hc
      exact ⟨hlocal, hc⟩
  obtain ⟨hlocal, hbestA⟩ := hbest ha hremote
  obtain ⟨-, hbestB⟩ := hbest (e := some a.nodeId) hb hremote'
  have hback := best_alternates (s.prefers_preference score loop) hbestA hbestB hae hba
  rw [deniedChoice_eq_some]
  refine ⟨a, ?_, rfl, hremote, hdenied⟩
  rw [View.choose_eq_best, if_neg hlocal]
  have hothers := s.others_append loop drained (some b.nodeId)
  rw [Option.toList_some] at hothers
  rw [hothers]
  exact hback

/-- The loop goes on between two peers that are denied in turns. -/
theorem spin_of_alternating {loop : Loop} {drained : List String} (hpre : s.preflightFails = false)
    (n : Nat) {p q : String} (hne : p ≠ q)
    (hq : s.deniedChoice score loop (drained ++ [p]) = some q)
    (hp : s.deniedChoice score loop (drained ++ [q]) = some p) :
    (spin score loop s n ⟨drained, some p, some p, true⟩).isSome = true := by
  induction n generalizing p q with
  | zero => rfl
  | succ n ih =>
    have hround : s.round score loop ⟨drained, some p, some p, true⟩ =
        .again ⟨drained, some q, some q, true⟩ s.circuits :=
      round_eq_again.mpr ⟨hpre, rfl, q, hq, fun h => hne (Option.some.inj h), rfl⟩
    rw [spin, hround]
    exact ih hne.symm hp hq

/-- From two denied peers on, the loop never stops on its own. -/
theorem spin_of_twoDenied {loop : Loop} {m : Memory} (h : s.TwoDenied score loop m) (n : Nat) :
    (spin score loop s n m).isSome = true := by
  obtain ⟨hpre, p, q, hp, hlast, hq⟩ := h
  obtain ⟨hback, hne⟩ := deniedChoice_alternates hp hq
  cases n with
  | zero => rfl
  | succ n =>
    have hround : s.round score loop m =
        .again ⟨m.drainedPeers, some p, some p, true⟩ s.circuits :=
      round_eq_again.mpr ⟨hpre, rfl, p, hp, hlast, rfl⟩
    rw [spin, hround]
    exact spin_of_alternating hpre n hne hq hback

/-- Without two denied peers the second round does something else. -/
theorem spin_of_not_twoDenied {loop : Loop} {m : Memory} (h : ¬ s.TwoDenied score loop m)
    (n : Nat) :
    spin score loop s (n + 2) m = none := by
  rw [spin]
  split
  · next after circuits hround =>
    obtain ⟨hpre, rfl, p, hp, hlast, rfl⟩ := round_eq_again.mp hround
    change spin score loop s (n + 1) _ = none
    rw [spin]
    split
    · next after circuits hround =>
      obtain ⟨-, -, q, hq, -, -⟩ := round_eq_again.mp hround
      exact absurd ⟨hpre, p, q, hp, hlast, hq⟩ h
    · rfl
  · rfl

/-- The loops select again at once at most `N + 1` times in a row exactly when they do not meet two
peers that are denied one after the other. -/
theorem boundedReselection_iff (s : Surroundings) {σ : Type} [LinearOrder σ]
    (score : PeerState → Nat → σ) (loop : Loop) (m : Memory) :
    s.BoundedReselection score loop m ↔ ¬ s.TwoDenied score loop m := by
  constructor
  · intro hbounded htwo
    have hspin := spin_of_twoDenied htwo (s.peers.length + 2)
    rw [hbounded (s.peers.length + 2) (by omega)] at hspin
    cases hspin
  · intro h n hn
    obtain ⟨k, rfl⟩ : ∃ k, n = k + 2 := ⟨n - 2, by omega⟩
    exact spin_of_not_twoDenied h k

end Surroundings

/-- A peer that serves the model `llama`. -/
def llamaPeer (nodeId : String) : PeerState :=
  { placeholder ⟨nodeId, "http://10.0.0.2:9000"⟩ 999 with
    supportedModels := ["llama"], ready := true, maxInstances := 1 }

/-- Two peers with the model, both half-open with the probe of this second sent. -/
def twoRecovering : Surroundings where
  config := ⟨"node-a", "0.1.0", 5, "warn", []⟩
  tables := latin1
  breaker := { }
  circuits peerId :=
    if peerId = "node-b" ∨ peerId = "node-c" then
      some { PeerCircuit.fresh 0 with state := .halfOpen, lastProbeMs := 40 }
    else none
  instant := 90 * nanosPerMilli
  contended := false
  now := 1000
  peers := [llamaPeer "node-b", llamaPeer "node-c"]
  request := "llama"
  modelName := "llama"
  profileId := "default"
  selfPeer := llamaPeer "node-a"
  canServeLocally := false
  preferLocal := false
  pending := []
  selfPeer_nodeId := rfl
  draining := false
  deadlinePassed := false
  clientGone := false
  resolves := false

private theorem twoRecovering_choose {excluded : List String} {peer : PeerState}
    (hfirst : (twoRecovering.others excluded .unknown).find?
      (fun x => twoRecovering.prefersLoaded x peer) = some peer)
    (hleast : ∀ x ∈ twoRecovering.others excluded .unknown,
      twoRecovering.prefersLoaded peer x = true) :
    twoRecovering.choose (fun _ _ => 0) .unknown excluded = some peer := by
  rw [View.choose_eq_best, if_neg (by simp)]
  exact (best_eq_some_iff twoRecovering.prefersLoaded_preference).mpr ⟨hfirst, hleast⟩

/-- The loop for unknown models selects the two in turn without end. -/
theorem twoRecovering_unbounded :
    ¬ twoRecovering.BoundedReselection (fun _ _ => 0) .unknown (Memory.init []) := by
  have htwo : twoRecovering.TwoDenied (fun _ _ => 0) .unknown (Memory.init []) := by
    refine ⟨rfl, "node-b", "node-c", ?_, by decide, ?_⟩
    · rw [Surroundings.deniedChoice_eq_some]
      refine ⟨llamaPeer "node-b", twoRecovering_choose ?_ ?_, rfl, by simp, by decide +kernel⟩
      · decide +kernel
      · decide +kernel
    · rw [Surroundings.deniedChoice_eq_some]
      refine ⟨llamaPeer "node-c", twoRecovering_choose ?_ ?_, rfl, by simp, by decide +kernel⟩
      · decide +kernel
      · decide +kernel
  intro hbounded
  have hspin := Surroundings.spin_of_twoDenied htwo 4
  rw [hbounded 4 (by decide)] at hspin
  cases hspin

end Llamesh.Router
