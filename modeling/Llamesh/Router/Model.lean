import Llamesh.Library.Table
import Llamesh.Router.Reselection
import Llamesh.Router.Responses

/-!
# Requests through the router

`route_request` (`src/router.rs:858–1943`) as the pieces between its awaits, for any number of
requests at once: the loop for an unknown model, the loop for a model of the cookbook, local serving
and the fallback to a peer after failed spawns. Each piece says what it does to what the requests
share: `current_requests`, the pending forwards of each peer
(`src/node_state/mod.rs:422–425,496–510,3428–3447`) and the circuit breaker.

A request is counted together with the creation of its `RequestGuard`, and the guard or the cleanup
future that takes over from it takes the count back (`src/router.rs:216–267,1950–2060,2415–2500`). A
dispatch is tracked by a `PeerForwardGuard`, which the same cleanup future may take over. `cancel`
is a client disconnect or any other drop of the handler or of the response body, at any await. The
runtime is alive, so a future that is spawned runs.
-/

namespace Llamesh.Router

open Transition Gossip CircuitBreaker

/-- Where a request is dispatched to a peer. -/
inductive Site where
  | loop (l : Loop)
  | fallback
  deriving DecidableEq, Repr

/-- What a request waits for. In `tracked` it holds the forward guard but no claim, in `sending` an
admitted dispatch runs, in `recording` its result is about to be recorded; `responding` is the
response with the cleanup future it may still have to spawn, `cleaning` that future. -/
inductive Phase where
  | resolving
  | selecting (l : Loop)
  | waiting (l : Loop)
  | tracking (site : Site) (peer : String)
  | tracked (site : Site) (peer : String)
  | sending (site : Site) (peer : String) (probeTicket : Bool)
  | recording (site : Site) (peer : String) (result : Op) (outcome : ForwardOutcome)
  | acquiring
  | routed
  | fallback
  | responding (forward : Option String)
  | cleaning (forward : Option String)
  | finished

/-- An admitted dispatch of a request, with what came of it: how it ended, the results the breaker
was told, and whether `attempt_peer_forward` returned. -/
structure Dispatched where
  site : Site
  peer : String
  probeTicket : Bool
  ending : Option Ending
  recorded : List Op
  settled : Bool

/-- A request: whether its response streams, what its loops carry, its admitted dispatches, newest
first, and how often it was counted and discounted in `current_requests`. -/
structure Request where
  responseStreaming : Bool
  memory : Memory
  phase : Phase
  log : List Dispatched
  counted : Nat
  discounted : Nat

/-- A new request. -/
def Request.arrived (responseStreaming : Bool) : Request :=
  ⟨responseStreaming, Memory.init [], .resolving, [], 0, 0⟩

/-- What a piece does to what the requests share. -/
structure Effect where
  counts : Bool := false
  discounts : Bool := false
  tracks : Option String := none
  releases : Option String := none
  circuits : Option Circuits := none

variable {σ : Type} [LinearOrder σ]

/-- The pieces of a request. `draining` is the flag as the piece reads it. -/
inductive Action (σ : Type) where
  | reject
  | resolve (l : Loop)
  | select (s : Surroundings) (score : PeerState → Nat → σ)
  | wake (ok : Bool)
  | track
  | claim (s : Surroundings)
  | answer (ending : Ending) (draining : Bool)
  | record (now : Nat) (draining : Bool)
  | acquired
  | spawnFailuresExhausted
  | acquireFailed
  | respondLocally
  | upstreamFailed
  | endResponse
  | clean
  | cancel

namespace Request

variable (r : Request)

/-- The request goes on in another phase. -/
def enter (phase : Phase) : Request := { r with phase := phase }

/-- The guards of the handler are dropped. -/
def fails (forward : Option String) : Request × Effect :=
  (r.enter .finished, { discounts := true, releases := forward })

/-- `guard.complete()`, with the guards in the cleanup future of the response. -/
def responds (forward : Option String) : Request × Effect := (r.enter (.responding forward), {})

/-- A round of a loop ends without a dispatch, and a forward guard that is held is dropped. -/
def after (l : Loop) (forward : Option String) : Round → Request × Effect
  | .waited m => ({ r with memory := m, phase := .waiting l }, { releases := forward })
  | .again m _ => ({ r with memory := m, phase := .selecting l }, { releases := forward })
  | .returned | .acquiring _ | .admitted _ _ _ => r.fails forward

/-- The node is draining, or the request goes on without its forward. -/
def continues (draining : Bool) (peer : String) (phase : Phase) : Request × Effect :=
  if draining then r.fails (some peer) else (r.enter phase, { releases := some peer })

/-- The dispatch loops on an outcome. `src/router.rs:1149–1254,1654–1705,1766–1923`. -/
def settle (site : Site) (peer : String) (draining : Bool) (outcome : ForwardOutcome) :
    Request × Effect :=
  let drained := { r.memory with drainedPeers := peer :: r.memory.drainedPeers }
  match outcome, site with
  | .surface _, _ | .streamingSurface _, _ => r.responds (some peer)
  | .heal _ _, .fallback => r.responds (some peer)
  | .heal _ _, .loop l => r.continues draining peer (.waiting l)
  | .draining, .fallback =>
    ({ r with memory := drained, phase := .fallback }, { releases := some peer })
  | .draining, .loop .unknown =>
    ({ r with memory := drained, phase := .selecting .unknown }, { releases := some peer })
  | .draining, .loop .known =>
    { r with memory := drained }.continues draining peer (.selecting .known)
  | .transport _, .fallback => r.fails (some peer)
  | .transport _, .loop l => r.continues draining peer (.waiting l)

/-- The newest dispatch has ended. -/
def ended (ending : Ending) (settled : Bool) : Request :=
  { r with log := r.log.modifyHead fun d => { d with ending := some ending, settled := settled } }

/-- The breaker was told a result of the newest dispatch. -/
def told (result : Op) : Request :=
  { r with log := r.log.modifyHead fun d =>
      { d with recorded := result :: d.recorded, settled := true } }

/-- The selection of a phase. `src/router.rs:1051–1126,1318–1372,1632–1640,1733–1739`. -/
def selects (s : Surroundings) (score : PeerState → Nat → σ) : Site → Request × Effect
  | .loop l =>
    if s.preflightFails then r.fails none
    else
      match s.choose score l r.memory.excluded with
      | none => r.after l none (s.unavailable l { r.memory with excludePeer := none })
      | some peer =>
        let m := { r.memory with excludePeer := none, modelWasFound := true }
        if l = .known ∧ peer.nodeId = s.config.nodeId then
          ({ r with memory := m, phase := .acquiring }, {})
        else ({ r with memory := m, phase := .tracking (.loop l) peer.nodeId }, {})
  | .fallback =>
    if s.preflightFails then r.fails none
    else
      match s.findPeerForModel r.memory.drainedPeers with
      | none => r.fails none
      | some peer => (r.enter (.tracking .fallback peer.nodeId), {})

/-- The claim at the commit point. `src/router.rs:1127,1384–1397,1641,1740`. -/
def claims (s : Surroundings) (site : Site) (peer : String) : Request × Effect :=
  if s.preflightFails then r.fails (some peer)
  else
    match (s.claim peer).1 with
    | .admitted probeTicket =>
      ({ r with
          phase := .sending site peer probeTicket
          log := ⟨site, peer, probeTicket, none, [], false⟩ :: r.log },
        { circuits := some (s.claim peer).2 })
    | .denied =>
      match site with
      | .loop l => r.after l (some peer) (s.probeDenied l r.memory peer)
      | .fallback => r.fails (some peer)

/-- Dropping the request at an await. -/
def cancels : Option (Request × Effect) :=
  match r.phase with
  | .resolving => some (r.enter .finished, {})
  | .selecting _ | .waiting _ | .tracking _ _ | .acquiring | .routed | .fallback =>
    some (r.fails none)
  | .tracked _ peer | .sending _ peer _ | .recording _ peer _ _ => some (r.fails (some peer))
  | .responding forward => some (r.enter (.cleaning forward), {})
  | .cleaning _ | .finished => none

end Request

variable (cfg : CircuitBreakerConfig) (parse : List UInt8 → Option Json)

/-- One piece of a request, with the circuits as it finds them. -/
def Request.act (circuits : Circuits) (r : Request) : Action σ → Option (Request × Effect)
  | .reject =>
    match r.phase with
    | .resolving => some (r.enter .finished, {})
    | _ => none
  | .resolve l =>
    match r.phase with
    | .resolving => some (r.enter (.selecting l), { counts := true })
    | _ => none
  | .select s score =>
    match r.phase with
    | .selecting l =>
      some (r.selects { s with breaker := cfg, circuits := circuits } score (.loop l))
    | .fallback => some (r.selects { s with breaker := cfg, circuits := circuits } score .fallback)
    | _ => none
  | .wake ok =>
    match r.phase with
    | .waiting l => some (if ok then (r.enter (.selecting l), {}) else r.fails none)
    | _ => none
  | .track =>
    match r.phase with
    | .tracking site peer => some (r.enter (.tracked site peer), { tracks := some peer })
    | _ => none
  | .claim s =>
    match r.phase with
    | .tracked site peer =>
      some (r.claims { s with breaker := cfg, circuits := circuits } site peer)
    | _ => none
  | .answer ending draining =>
    match r.phase with
    | .sending site peer probeTicket =>
      if ending.fits r.responseStreaming then
        match classifyPeerResponse parse peer probeTicket ending with
        | (some result, outcome) =>
          some ((r.ended ending false).enter (.recording site peer result outcome), {})
        | (none, outcome) => some ((r.ended ending true).settle site peer draining outcome)
      else none
    | _ => none
  | .record now draining =>
    match r.phase with
    | .recording site peer result outcome =>
      let (next, effect) := (r.told result).settle site peer draining outcome
      some (next, { effect with circuits := some (apply cfg circuits now result) })
    | _ => none
  | .acquired =>
    match r.phase with
    | .acquiring => some (r.enter .routed, {})
    | _ => none
  | .spawnFailuresExhausted =>
    match r.phase with
    | .acquiring => some (r.enter .fallback, {})
    | _ => none
  | .acquireFailed =>
    match r.phase with
    | .acquiring => some (r.fails none)
    | _ => none
  | .respondLocally =>
    match r.phase with
    | .routed => some (r.responds none)
    | _ => none
  | .upstreamFailed =>
    match r.phase with
    | .routed => some (r.fails none)
    | _ => none
  | .endResponse =>
    match r.phase with
    | .responding forward => some (r.enter (.cleaning forward), {})
    | _ => none
  | .clean =>
    match r.phase with
    | .cleaning forward => some (r.enter .finished, { discounts := true, releases := forward })
    | _ => none
  | .cancel => r.cancels

/-! ### The node -/

/-- What the requests share, and the requests. -/
structure Node where
  circuits : Circuits
  currentRequests : Nat
  peerPendingForwards : Table String Nat
  requests : Table Nat Request

/-- Startup. -/
def Node.init : Node := ⟨fun _ => none, 0, ∅, ∅⟩

/-- `fetch_sub(1)` on a `usize`. -/
def fetchSub (n : Nat) : Nat := if n = 0 then 2 ^ 64 - 1 else n - 1

/-- `track_peer_forward`: `or_insert_with` and `fetch_add(1)`. -/
def trackPeerForward (forwards : Table String Nat) (peer : String) : Table String Nat :=
  forwards.insert peer ((forwards.lookup peer).getD 0 + 1)

/-- `PeerForwardGuard::release`. -/
def releaseForward (forwards : Table String Nat) (peer : String) : Table String Nat :=
  forwards.modify peer fetchSub

/-- `inc_requests`, `dec_current_requests` (`src/metrics.rs:569–587`), the forward counters and the
circuits. -/
def Node.apply (n : Node) (e : Effect) : Node where
  circuits := e.circuits.getD n.circuits
  currentRequests :=
    let counted := if e.counts then n.currentRequests + 1 else n.currentRequests
    if e.discounts then counted - 1 else counted
  peerPendingForwards :=
    let tracked :=
      (e.tracks.map (trackPeerForward n.peerPendingForwards)).getD n.peerPendingForwards
    (e.releases.map (releaseForward tracked)).getD tracked
  requests := n.requests

/-- The request's own tally of an effect. -/
def Request.tally (r : Request) (e : Effect) : Request :=
  { r with counted := r.counted + e.counts.toNat, discounted := r.discounted + e.discounts.toNat }

/-- A request took a piece. -/
def Node.took (n : Node) (id : Nat) (after : Request × Effect) : Node :=
  { n.apply after.2 with requests := n.requests.insert id (after.1.tally after.2) }

/-- The steps: a request comes in, a request takes a piece, or another user of the breaker changes
the circuits. -/
inductive Label (σ : Type) where
  | arrive (id : Nat) (responseStreaming : Bool)
  | act (id : Nat) (a : Action σ)
  | others (circuits : Circuits)

/-- One step of the node. -/
def step (n : Node) : Label σ → Option Node
  | .arrive id responseStreaming =>
    guarded (id ∉ n.requests)
      { n with requests := n.requests.insert id (.arrived responseStreaming) }
  | .act id a =>
    match n.requests.lookup id with
    | none => none
    | some r =>
      match r.act cfg parse n.circuits a with
      | none => none
      | some after => some (n.took id after)
  | .others circuits => some { n with circuits := circuits }

/-! ### What a piece does -/

variable {cfg} {parse}

/-- Everything a piece of a request can do. -/
inductive Piece (cfg : CircuitBreakerConfig) (parse : List UInt8 → Option Json)
    (circuits : Circuits) (r : Request) : Action σ → Request × Effect → Prop where
  | reject (h : r.phase = .resolving) : Piece cfg parse circuits r .reject (r.enter .finished, {})
  | resolve (l : Loop) (h : r.phase = .resolving) :
      Piece cfg parse circuits r (.resolve l) (r.enter (.selecting l), { counts := true })
  | select (l : Loop) (s : Surroundings) (score : PeerState → Nat → σ)
      (h : r.phase = .selecting l) :
      Piece cfg parse circuits r (.select s score)
        (r.selects { s with breaker := cfg, circuits := circuits } score (.loop l))
  | fallBack (s : Surroundings) (score : PeerState → Nat → σ) (h : r.phase = .fallback) :
      Piece cfg parse circuits r (.select s score)
        (r.selects { s with breaker := cfg, circuits := circuits } score .fallback)
  | wake (l : Loop) (h : r.phase = .waiting l) :
      Piece cfg parse circuits r (.wake true) (r.enter (.selecting l), {})
  | giveUp (l : Loop) (h : r.phase = .waiting l) :
      Piece cfg parse circuits r (.wake false) (r.fails none)
  | track (site : Site) (peer : String) (h : r.phase = .tracking site peer) :
      Piece cfg parse circuits r .track (r.enter (.tracked site peer), { tracks := some peer })
  | claim (site : Site) (peer : String) (s : Surroundings) (h : r.phase = .tracked site peer) :
      Piece cfg parse circuits r (.claim s)
        (r.claims { s with breaker := cfg, circuits := circuits } site peer)
  | answer (site : Site) (peer : String) (probeTicket : Bool) (ending : Ending) (draining : Bool)
      (result : Op) (outcome : ForwardOutcome) (h : r.phase = .sending site peer probeTicket)
      (hfits : ending.fits r.responseStreaming = true)
      (hclass : classifyPeerResponse parse peer probeTicket ending = (some result, outcome)) :
      Piece cfg parse circuits r (.answer ending draining)
        ((r.ended ending false).enter (.recording site peer result outcome), {})
  | drained (site : Site) (peer : String) (probeTicket : Bool) (ending : Ending) (draining : Bool)
      (outcome : ForwardOutcome) (h : r.phase = .sending site peer probeTicket)
      (hfits : ending.fits r.responseStreaming = true)
      (hclass : classifyPeerResponse parse peer probeTicket ending = (none, outcome)) :
      Piece cfg parse circuits r (.answer ending draining)
        ((r.ended ending true).settle site peer draining outcome)
  | record (site : Site) (peer : String) (result : Op) (outcome : ForwardOutcome) (now : Nat)
      (draining : Bool) (h : r.phase = .recording site peer result outcome) :
      Piece cfg parse circuits r (.record now draining)
        (((r.told result).settle site peer draining outcome).1,
          { ((r.told result).settle site peer draining outcome).2 with
            circuits := some (CircuitBreaker.apply cfg circuits now result) })
  | acquired (h : r.phase = .acquiring) :
      Piece cfg parse circuits r .acquired (r.enter .routed, {})
  | spawnFailuresExhausted (h : r.phase = .acquiring) :
      Piece cfg parse circuits r .spawnFailuresExhausted (r.enter .fallback, {})
  | acquireFailed (h : r.phase = .acquiring) :
      Piece cfg parse circuits r .acquireFailed (r.fails none)
  | respondLocally (h : r.phase = .routed) :
      Piece cfg parse circuits r .respondLocally (r.responds none)
  | upstreamFailed (h : r.phase = .routed) :
      Piece cfg parse circuits r .upstreamFailed (r.fails none)
  | endResponse (forward : Option String) (h : r.phase = .responding forward) :
      Piece cfg parse circuits r .endResponse (r.enter (.cleaning forward), {})
  | clean (forward : Option String) (h : r.phase = .cleaning forward) :
      Piece cfg parse circuits r .clean
        (r.enter .finished, { discounts := true, releases := forward })
  | cancel (after : Request × Effect) (h : r.cancels = some after) :
      Piece cfg parse circuits r .cancel after

/-- The inversion of a piece. -/
theorem piece_of_act {circuits : Circuits} {r : Request} {a : Action σ} {after : Request × Effect}
    (h : r.act cfg parse circuits a = some after) : Piece cfg parse circuits r a after := by
  cases a with
  | cancel => exact .cancel after h
  | select s score =>
    simp only [Request.act] at h
    split at h
    · next l hphase =>
      obtain rfl := Option.some.inj h
      exact .select l s score hphase
    · next hphase =>
      obtain rfl := Option.some.inj h
      exact .fallBack s score hphase
    · cases h
  | wake ok =>
    simp only [Request.act] at h
    split at h
    · next l hphase =>
      obtain rfl := Option.some.inj h
      cases ok with
      | true => exact .wake l hphase
      | false => exact .giveUp l hphase
    · cases h
  | answer ending draining =>
    simp only [Request.act] at h
    split at h
    · next site peer probeTicket hphase =>
      split at h
      · next hfits =>
        split at h
        · next result outcome hclass =>
          obtain rfl := Option.some.inj h
          exact .answer site peer probeTicket ending draining result outcome hphase hfits hclass
        · next outcome hclass =>
          obtain rfl := Option.some.inj h
          exact .drained site peer probeTicket ending draining outcome hphase hfits hclass
      · cases h
    · cases h
  | reject =>
    simp only [Request.act] at h
    split at h
    · next hphase =>
      obtain rfl := Option.some.inj h
      exact .reject hphase
    · cases h
  | resolve l =>
    simp only [Request.act] at h
    split at h
    · next hphase =>
      obtain rfl := Option.some.inj h
      exact .resolve l hphase
    · cases h
  | track =>
    simp only [Request.act] at h
    split at h
    · next site peer hphase =>
      obtain rfl := Option.some.inj h
      exact .track site peer hphase
    · cases h
  | claim s =>
    simp only [Request.act] at h
    split at h
    · next site peer hphase =>
      obtain rfl := Option.some.inj h
      exact .claim site peer s hphase
    · cases h
  | record now draining =>
    simp only [Request.act] at h
    split at h
    · next site peer result outcome hphase =>
      obtain rfl := Option.some.inj h
      exact .record site peer result outcome now draining hphase
    · cases h
  | acquired =>
    simp only [Request.act] at h
    split at h
    · next hphase =>
      obtain rfl := Option.some.inj h
      exact .acquired hphase
    · cases h
  | spawnFailuresExhausted =>
    simp only [Request.act] at h
    split at h
    · next hphase =>
      obtain rfl := Option.some.inj h
      exact .spawnFailuresExhausted hphase
    · cases h
  | acquireFailed =>
    simp only [Request.act] at h
    split at h
    · next hphase =>
      obtain rfl := Option.some.inj h
      exact .acquireFailed hphase
    · cases h
  | respondLocally =>
    simp only [Request.act] at h
    split at h
    · next hphase =>
      obtain rfl := Option.some.inj h
      exact .respondLocally hphase
    · cases h
  | upstreamFailed =>
    simp only [Request.act] at h
    split at h
    · next hphase =>
      obtain rfl := Option.some.inj h
      exact .upstreamFailed hphase
    · cases h
  | endResponse =>
    simp only [Request.act] at h
    split at h
    · next forward hphase =>
      obtain rfl := Option.some.inj h
      exact .endResponse forward hphase
    · cases h
  | clean =>
    simp only [Request.act] at h
    split at h
    · next forward hphase =>
      obtain rfl := Option.some.inj h
      exact .clean forward hphase
    · cases h

/-- The inversion of a step. -/
theorem step_cases {n t : Node} {l : Label σ} (h : step cfg parse n l = some t) :
    (∃ id streaming, l = .arrive id streaming ∧ id ∉ n.requests ∧
      t = { n with requests := n.requests.insert id (.arrived streaming) }) ∨
    (∃ id a r after, l = .act id a ∧ n.requests.lookup id = some r ∧
      Piece cfg parse n.circuits r a after ∧ t = n.took id after) ∨
    ∃ circuits, l = .others circuits ∧ t = { n with circuits := circuits } := by
  cases l with
  | arrive id streaming =>
    obtain ⟨hfresh, rfl⟩ := guarded_eq_some.mp h
    exact .inl ⟨id, streaming, rfl, hfresh, rfl⟩
  | act id a =>
    simp only [step] at h
    split at h
    · cases h
    · next r hr =>
      split at h
      · cases h
      · next after hact =>
        obtain rfl := Option.some.inj h
        exact .inr (.inl ⟨id, a, r, after, rfl, hr, piece_of_act hact, rfl⟩)
  | others circuits =>
    obtain rfl := Option.some.inj h
    exact .inr (.inr ⟨circuits, rfl, rfl⟩)

/-! ### How a request goes on -/

/-- The phases of a request that is counted, holds no forward and has no peer in mind. -/
def Phase.pauses : Phase → Bool
  | .selecting _ | .waiting _ | .acquiring | .fallback => true
  | .resolving | .tracking _ _ | .tracked _ _ | .sending _ _ _ | .recording _ _ _ _ | .routed
  | .responding _ | .cleaning _ | .finished => false

/-- What a request does that makes no dispatch, or is done with one: it fails, it responds with the
forward it holds, or it goes on without. It never forgets a drained peer. -/
inductive Turn (r : Request) (forward : Option String) : Request × Effect → Prop where
  | fails (m : Memory) (hm : r.memory.drainedPeers ⊆ m.drainedPeers) :
      Turn r forward
        ({ r with memory := m, phase := .finished }, { discounts := true, releases := forward })
  | responds : Turn r forward (r.enter (.responding forward), {})
  | goesOn (m : Memory) (phase : Phase) (hm : r.memory.drainedPeers ⊆ m.drainedPeers)
      (hphase : phase.pauses = true) :
      Turn r forward ({ r with memory := m, phase := phase }, { releases := forward })

variable {r : Request}

/-- A request that fails is done. -/
theorem fails_turn (r : Request) (forward : Option String) : Turn r forward (r.fails forward) :=
  .fails r.memory (List.Subset.refl _)

/-- A round that goes on has the drained peers it started with. -/
def Round.Remembers (drainedPeers : List String) : Round → Prop
  | .waited m | .again m _ => m.drainedPeers = drainedPeers
  | .returned | .acquiring _ | .admitted _ _ _ => True

private theorem unavailable_remembers (s : Surroundings) (l : Loop) (m : Memory) :
    (s.unavailable l m).Remembers m.drainedPeers := by
  unfold Surroundings.unavailable
  cases l with
  | unknown =>
    dsimp only
    split
    · trivial
    · split
      · trivial
      · rfl
  | known =>
    dsimp only
    split
    · trivial
    · split
      · trivial
      · rfl

private theorem probeDenied_remembers (s : Surroundings) (l : Loop) (m : Memory) (peer : String) :
    (s.probeDenied l m peer).Remembers m.drainedPeers := by
  unfold Surroundings.probeDenied
  cases l with
  | unknown =>
    dsimp only
    split
    · split
      · trivial
      · rfl
    · rfl
  | known =>
    dsimp only
    split
    · trivial
    · split
      · rfl
      · rfl

private theorem after_turn {round : Round} (h : round.Remembers r.memory.drainedPeers) (l : Loop)
    (forward : Option String) : Turn r forward (r.after l forward round) := by
  cases round with
  | waited m | again m circuits =>
    have hm : m.drainedPeers = r.memory.drainedPeers := h
    exact .goesOn m _ (fun peer hpeer => hm.symm ▸ hpeer) rfl
  | returned | acquiring | admitted => exact fails_turn r forward

private theorem continues_turn {m : Memory} {phase : Phase} (draining : Bool) (peer : String)
    (hm : r.memory.drainedPeers ⊆ m.drainedPeers) (hphase : phase.pauses = true) :
    Turn r (some peer) (({ r with memory := m } : Request).continues draining peer phase) := by
  unfold Request.continues
  split
  · exact .fails m hm
  · exact .goesOn m phase hm hphase

/-- A request whose dispatch is settled responds, fails or goes on without. -/
theorem settle_turn (site : Site) (peer : String) (draining : Bool) (outcome : ForwardOutcome) :
    Turn r (some peer) (r.settle site peer draining outcome) := by
  have hcontinues : ∀ l, Turn r (some peer) (r.continues draining peer (.waiting l)) := fun l =>
    continues_turn draining peer (List.Subset.refl _) rfl
  have hcons : r.memory.drainedPeers ⊆ peer :: r.memory.drainedPeers := List.subset_cons_self _ _
  cases outcome with
  | surface response => cases site <;> exact .responds
  | streamingSurface status => cases site <;> exact .responds
  | heal reason response =>
    cases site with
    | fallback => exact .responds
    | loop l => exact hcontinues l
  | draining =>
    cases site with
    | fallback => exact .goesOn _ _ hcons rfl
    | loop l =>
      cases l with
      | unknown => exact .goesOn _ _ hcons rfl
      | known => exact continues_turn draining peer hcons rfl
  | transport errorType =>
    cases site with
    | fallback => exact fails_turn r _
    | loop l => exact hcontinues l

/-- A selection that finds a peer leaves out every drained one. -/
theorem selects_turn (r : Request) (s : Surroundings) (score : PeerState → Nat → σ) (site : Site) :
    Turn r none (r.selects s score site) ∨
      ∃ m peer, m.drainedPeers = r.memory.drainedPeers ∧ peer ∉ r.memory.drainedPeers ∧
        r.selects s score site = ({ r with memory := m, phase := .tracking site peer }, {}) := by
  cases site with
  | loop l =>
    simp only [Request.selects]
    split
    · exact .inl (fails_turn r none)
    · split
      · have hround := unavailable_remembers s l { r.memory with excludePeer := none }
        exact .inl (after_turn hround l none)
      · next peer hchoose =>
        split
        · exact .inl (.goesOn _ _ (List.Subset.refl _) rfl)
        · next hself =>
          obtain hown | hother := s.mem_others_of_choose score hchoose
          · exact absurd hown hself
          · have hpeer := s.notMem_of_mem_others hother
            exact .inr ⟨{ r.memory with excludePeer := none, modelWasFound := true },
              peer.nodeId, rfl, fun hdrained => hpeer (List.mem_append_left _ hdrained), rfl⟩
  | fallback =>
    simp only [Request.selects]
    split
    · exact .inl (fails_turn r none)
    · split
      · exact .inl (fails_turn r none)
      · next peer hfind =>
        have hchoose : s.choose score .unknown r.memory.drainedPeers = some peer := hfind
        obtain ⟨hknown, -⟩ | hother := s.mem_others_of_choose score hchoose
        · cases hknown
        · exact .inr ⟨r.memory, peer.nodeId, rfl, s.notMem_of_mem_others hother, rfl⟩

/-- A request that claims a peer goes on without it, or sends. -/
theorem claims_turn (r : Request) (s : Surroundings) (site : Site) (peer : String) :
    Turn r (some peer) (r.claims s site peer) ∨
      ∃ probeTicket circuits, r.claims s site peer =
        ({ r with
            phase := .sending site peer probeTicket
            log := ⟨site, peer, probeTicket, none, [], false⟩ :: r.log },
          { circuits := some circuits }) := by
  unfold Request.claims
  split
  · exact .inl (fails_turn r _)
  · split
    · exact .inr ⟨_, _, rfl⟩
    · cases site with
      | loop l => exact .inl (after_turn (probeDenied_remembers s l r.memory peer) l _)
      | fallback => exact .inl (fails_turn r _)

/-- A request that is dropped fails, unless it is not counted yet or has its cleanup future. -/
theorem cancels_turn {after : Request × Effect} (h : r.cancels = some after) :
    (∃ forward, Turn r forward after) ∨ after = (r.enter .finished, {}) ∨
      ∃ forward, after = (r.enter (.cleaning forward), {}) := by
  obtain ⟨streaming, memory, phase, log, counted, discounted⟩ := r
  cases phase with
  | resolving =>
    cases h
    exact .inr (.inl rfl)
  | selecting | waiting | tracking | acquiring | routed | fallback | tracked | sending
  | recording =>
    cases h
    exact .inl ⟨_, fails_turn _ _⟩
  | responding forward =>
    cases h
    exact .inr (.inr ⟨forward, rfl⟩)
  | cleaning | finished => cases h

/-! ### A run to one peer -/

/-- One healthy peer with the model. -/
def onePeer : Surroundings :=
  { twoRecovering with peers := [llamaPeer "node-b"], circuits := fun _ => none }

private theorem onePeer_choose : onePeer.choose (fun _ _ => 0) .unknown [] = some
    (llamaPeer "node-b") := by
  rw [View.choose_eq_best, if_neg (by simp)]
  refine (Ranking.best_eq_some_iff onePeer.prefersLoaded_preference).mpr ⟨?_, ?_⟩
  · decide +kernel
  · decide +kernel

/-- The only peer is selected. -/
theorem step_select_onePeer {n : Node} (hn : n.circuits = fun _ => none)
    (hr : n.requests.lookup 1 = some r) (hphase : r.phase = .selecting .unknown)
    (hm : r.memory = Memory.init []) :
    step { } parse n (.act 1 (.select onePeer fun _ _ => 0)) =
      some (n.took 1 ({ r with
        memory := ⟨[], none, none, true⟩
        phase := .tracking (.loop .unknown) "node-b" }, {})) := by
  have hselects : r.selects onePeer (fun _ _ => 0) (.loop .unknown) =
      ({ r with
        memory := ⟨[], none, none, true⟩
        phase := .tracking (.loop .unknown) "node-b" }, {}) := by
    have hpre : onePeer.preflightFails = false := rfl
    have hexcluded : r.memory.excluded = [] := by
      rw [hm]
      rfl
    unfold Request.selects
    dsimp only
    rw [hpre, hexcluded, onePeer_choose, hm]
    rfl
  simp only [step, hr, Request.act, hphase, hn]
  exact congrArg (fun after => some (n.took 1 after)) hselects

end Llamesh.Router
