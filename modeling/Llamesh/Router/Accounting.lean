import Llamesh.Router.Model

/-!
# Requests and forwards are accounted for

In every reachable state `current_requests` is the number of requests whose guard or cleanup future
is still to take its count back, and the counter of a peer is the number of requests that hold a
forward guard for it. A piece of a request changes a counter exactly as it changes what the request
owes or holds, so no decrement acts on zero.
-/

namespace Llamesh.Router

open Transition CircuitBreaker

variable {σ : Type} [LinearOrder σ] {cfg : CircuitBreakerConfig} {parse : List UInt8 → Option Json}

/-! ### What a request owes -/

/-- The request is counted, and the guard or the cleanup future that takes it back is still
there. -/
def Phase.owes : Phase → Bool
  | .resolving | .finished => false
  | .selecting _ | .waiting _ | .tracking _ _ | .tracked _ _ | .sending _ _ _ | .recording _ _ _ _
  | .acquiring | .routed | .fallback | .responding _ | .cleaning _ => true

/-- The peer whose forward guard the request holds. -/
def Phase.forward : Phase → Option String
  | .tracked _ peer | .sending _ peer _ | .recording _ peer _ _ => some peer
  | .responding forward | .cleaning forward => forward
  | .resolving | .selecting _ | .waiting _ | .tracking _ _ | .acquiring | .routed | .fallback
  | .finished => none

/-- The request holds a forward guard of the peer. -/
def Phase.holds (peer : String) (phase : Phase) : Bool := decide (phase.forward = some peer)

/-- The forward counter of a peer. -/
def pending (forwards : Table String Nat) (peer : String) : Nat := (forwards.lookup peer).getD 0

/-- The requests that are still to be discounted. -/
def Node.outstandingRequests (n : Node) : Nat := Table.count n.requests fun r => r.phase.owes

/-- The outstanding tracked forwards to a peer. -/
def Node.outstandingForwards (n : Node) (peer : String) : Nat :=
  Table.count n.requests fun r => r.phase.holds peer

/-! ### One piece -/

/-- A piece changes what the request owes and holds as it changes the counters. -/
structure Balanced (before after : Phase) (e : Effect) : Prop where
  requests : after.owes.toNat + e.discounts.toNat = before.owes.toNat + e.counts.toNat
  forwards : ∀ peer, (after.holds peer).toNat + (decide (e.releases = some peer)).toNat =
    (before.holds peer).toNat + (decide (e.tracks = some peer)).toNat

/-- A piece that keeps the guards. -/
theorem Balanced.kept {before after : Phase} {circuits : Option Circuits}
    (howes : after.owes = before.owes) (hforward : after.forward = before.forward) :
    Balanced before after { circuits := circuits } where
  requests := by simp [howes]
  forwards peer := by simp [Phase.holds, hforward]

/-- A piece that drops the forward guard. -/
theorem Balanced.released {before after : Phase} (howes : after.owes = before.owes)
    (hforward : after.forward = none) : Balanced before after { releases := before.forward } where
  requests := by simp [howes]
  forwards peer := by simp [Phase.holds, hforward]

/-- A piece after which nothing is left. -/
theorem Balanced.finished {before : Phase} (howes : before.owes = true) :
    Balanced before .finished { discounts := true, releases := before.forward } where
  requests := by
    have hnone : Phase.finished.owes = false := rfl
    simp [howes, hnone]
  forwards peer := by simp [Phase.holds, Phase.forward]

variable {r : Request}

/-- A turn of a request that is counted settles what it held. -/
theorem Turn.balanced {forward : Option String} {after : Request × Effect}
    (h : Turn r forward after) (howes : r.phase.owes = true)
    (hforward : r.phase.forward = forward) :
    Balanced r.phase after.1.phase after.2 := by
  subst hforward
  cases h with
  | fails m hm => exact Balanced.finished howes
  | responds => exact Balanced.kept howes.symm rfl
  | goesOn m phase hm hphase =>
    have hpauses : phase.owes = true ∧ phase.forward = none := by
      cases phase with
      | selecting | waiting | acquiring | fallback => exact ⟨rfl, rfl⟩
      | resolving | tracking | tracked | sending | recording | routed | responding | cleaning
      | finished => cases hphase
    exact Balanced.released (hpauses.1.trans howes.symm) hpauses.2

private theorem selects_balanced {s : Surroundings} {score : Gossip.PeerState → Nat → σ}
    {site : Site}
    (howes : r.phase.owes = true) (hforward : r.phase.forward = none) :
    Balanced r.phase (r.selects s score site).1.phase (r.selects s score site).2 := by
  obtain hturn | ⟨m, peer, -, -, hselects⟩ := selects_turn r s score site
  · exact hturn.balanced howes hforward
  · rw [hselects]
    exact Balanced.kept howes.symm hforward.symm

private theorem claims_balanced {s : Surroundings} {site : Site} {peer : String}
    (howes : r.phase.owes = true) (hforward : r.phase.forward = some peer) :
    Balanced r.phase (r.claims s site peer).1.phase (r.claims s site peer).2 := by
  obtain hturn | ⟨probeTicket, circuits, hclaims⟩ := claims_turn r s site peer
  · exact hturn.balanced howes hforward
  · rw [hclaims]
    exact Balanced.kept howes.symm hforward.symm

private theorem cancels_balanced {next : Request} {e : Effect} (h : r.cancels = some (next, e)) :
    Balanced r.phase next.phase e := by
  obtain ⟨streaming, memory, phase, log, counted, discounted⟩ := r
  cases phase with
  | resolving =>
    cases h
    exact Balanced.kept rfl rfl
  | selecting | waiting | tracking | acquiring | routed | fallback =>
    cases h
    exact Balanced.finished rfl
  | tracked | sending | recording =>
    cases h
    exact Balanced.finished rfl
  | responding forward =>
    cases h
    exact Balanced.kept rfl rfl
  | cleaning | finished => cases h

/-- Every piece is balanced. -/
theorem Piece.balanced {circuits : Circuits} {a : Action σ} {after : Request × Effect}
    (h : Piece cfg parse circuits r a after) : Balanced r.phase after.1.phase after.2 := by
  cases h with
  | reject h =>
    rw [h]
    exact Balanced.kept rfl rfl
  | resolve l h =>
    rw [h]
    exact ⟨rfl, fun peer => rfl⟩
  | select l s score h => exact selects_balanced (by rw [h]; rfl) (by rw [h]; rfl)
  | fallBack s score h => exact selects_balanced (by rw [h]; rfl) (by rw [h]; rfl)
  | wake l h =>
    rw [h]
    exact Balanced.kept rfl rfl
  | giveUp l h => exact (fails_turn r none).balanced (by rw [h]; rfl) (by rw [h]; rfl)
  | track site peer h =>
    rw [h]
    exact ⟨rfl, fun p => by simp [Phase.holds, Phase.forward, Request.enter]⟩
  | claim site peer s h => exact claims_balanced (by rw [h]; rfl) (by rw [h]; rfl)
  | answer site peer probeTicket ending draining result outcome h hfits hclass =>
    rw [h]
    exact Balanced.kept rfl rfl
  | drained site peer probeTicket ending draining outcome h hfits hclass =>
    have hphase : (r.ended ending true).phase = .sending site peer probeTicket := h
    have hbalanced := (settle_turn site peer draining outcome).balanced (by rw [hphase]; rfl)
      (by rw [hphase]; rfl)
    rw [hphase] at hbalanced
    rw [h]
    exact hbalanced
  | record site peer result outcome now draining h =>
    have hphase : (r.told result).phase = .recording site peer result outcome := h
    have hbalanced := (settle_turn site peer draining outcome).balanced (by rw [hphase]; rfl)
      (by rw [hphase]; rfl)
    rw [hphase] at hbalanced
    rw [h]
    exact ⟨hbalanced.requests, hbalanced.forwards⟩
  | acquired h =>
    rw [h]
    exact Balanced.kept rfl rfl
  | spawnFailuresExhausted h =>
    rw [h]
    exact Balanced.kept rfl rfl
  | acquireFailed h => exact (fails_turn r none).balanced (by rw [h]; rfl) (by rw [h]; rfl)
  | respondLocally h =>
    rw [h]
    exact Balanced.kept rfl rfl
  | upstreamFailed h => exact (fails_turn r none).balanced (by rw [h]; rfl) (by rw [h]; rfl)
  | endResponse forward h =>
    rw [h]
    exact Balanced.kept rfl rfl
  | clean forward h =>
    rw [h]
    exact Balanced.finished rfl
  | cancel after h => exact cancels_balanced h

/-! ### Who counts -/

/-- A piece that neither counts its request nor tracks a forward, and leaves its tallies. -/
structure Uncounted (r : Request) (after : Request × Effect) : Prop where
  counts : after.2.counts = false
  tracks : after.2.tracks = none
  resolved : after.1.phase ≠ .resolving
  counted : after.1.counted = r.counted
  discounted : after.1.discounted = r.discounted

private theorem Turn.uncounted {forward : Option String} {after : Request × Effect}
    (h : Turn r forward after) : Uncounted r after := by
  cases h with
  | fails m hm | responds => exact ⟨rfl, rfl, nofun, rfl, rfl⟩
  | goesOn m phase hm hphase =>
    refine ⟨rfl, rfl, ?_, rfl, rfl⟩
    rintro rfl
    cases hphase

private theorem selects_uncounted (s : Surroundings) (score : Gossip.PeerState → Nat → σ)
    (site : Site) :
    Uncounted r (r.selects s score site) := by
  obtain hturn | ⟨m, peer, -, -, hselects⟩ := selects_turn r s score site
  · exact hturn.uncounted
  · rw [hselects]
    exact ⟨rfl, rfl, nofun, rfl, rfl⟩

/-- Every piece but the counting and the tracking one is such. -/
theorem Piece.uncounted {circuits : Circuits} {a : Action σ} {after : Request × Effect}
    (h : Piece cfg parse circuits r a after) :
    Uncounted r after ∨
      (r.phase = .resolving ∧ ∃ l, after = (r.enter (.selecting l), { counts := true })) ∨
        ∃ site peer, after = (r.enter (.tracked site peer), { tracks := some peer }) := by
  cases h with
  | resolve l h => exact .inr (.inl ⟨h, l, rfl⟩)
  | track site peer h => exact .inr (.inr ⟨site, peer, rfl⟩)
  | select l s score h => exact .inl (selects_uncounted _ _ _)
  | fallBack s score h => exact .inl (selects_uncounted _ _ _)
  | claim site peer s h =>
    refine .inl ?_
    obtain hturn | ⟨probeTicket, circuits, hclaims⟩ := claims_turn r _ site peer
    · exact hturn.uncounted
    · rw [hclaims]
      exact ⟨rfl, rfl, nofun, rfl, rfl⟩
  | giveUp | acquireFailed | upstreamFailed => exact .inl (fails_turn r none).uncounted
  | drained site peer probeTicket ending draining outcome h hfits hclass =>
    have hu := (settle_turn (r := r.ended ending true) site peer draining outcome).uncounted
    exact .inl ⟨hu.counts, hu.tracks, hu.resolved, hu.counted, hu.discounted⟩
  | record site peer result outcome now draining h =>
    have hu := (settle_turn (r := r.told result) site peer draining outcome).uncounted
    exact .inl ⟨hu.counts, hu.tracks, hu.resolved, hu.counted, hu.discounted⟩
  | cancel after h =>
    refine .inl ?_
    obtain ⟨forward, hturn⟩ | rfl | ⟨forward, rfl⟩ := cancels_turn h
    · exact hturn.uncounted
    · exact ⟨rfl, rfl, nofun, rfl, rfl⟩
    · exact ⟨rfl, rfl, nofun, rfl, rfl⟩
  | reject | wake | answer | acquired | spawnFailuresExhausted | respondLocally | endResponse
  | clean => exact .inl ⟨rfl, rfl, nofun, rfl, rfl⟩

/-- Only a resolving request is counted, no request resolves again, and the tallies are the
node's. -/
theorem Piece.tallied {circuits : Circuits} {a : Action σ} {after : Request × Effect}
    (h : Piece cfg parse circuits r a after) :
    after.1.counted = r.counted ∧ after.1.discounted = r.discounted ∧ after.1.phase ≠ .resolving ∧
      (after.2.counts = true → r.phase = .resolving) := by
  obtain hu | ⟨hphase, l, rfl⟩ | ⟨site, peer, rfl⟩ := h.uncounted
  · refine ⟨hu.counted, hu.discounted, hu.resolved, fun hc => ?_⟩
    rw [hu.counts] at hc
    cases hc
  · exact ⟨rfl, rfl, nofun, fun _ => hphase⟩
  · exact ⟨rfl, rfl, nofun, nofun⟩

/-- What a piece takes back, the request owed and held. -/
theorem Piece.takesBack {circuits : Circuits} {a : Action σ} {after : Request × Effect}
    (h : Piece cfg parse circuits r a after) :
    (after.2.discounts = true → r.phase.owes = true) ∧
      ∀ peer, after.2.releases = some peer → r.phase.holds peer = true := by
  have hb := h.balanced
  obtain hu | ⟨-, l, rfl⟩ | ⟨site, peer, rfl⟩ := h.uncounted
  · constructor
    · intro hd
      have hrequests := hb.requests
      rw [hd, hu.counts] at hrequests
      cases hr : r.phase.owes with
      | true => rfl
      | false =>
        rw [hr] at hrequests
        simp at hrequests
    · intro peer hrel
      have hforwards := hb.forwards peer
      rw [hrel, hu.tracks] at hforwards
      cases hr : r.phase.holds peer with
      | true => rfl
      | false =>
        rw [hr] at hforwards
        simp at hforwards
  · exact ⟨nofun, nofun⟩
  · exact ⟨nofun, nofun⟩

/-! ### The counters -/

private theorem pending_track (forwards : Table String Nat) (p q : String) :
    pending (trackPeerForward forwards q) p =
      pending forwards p + (decide (some q = some p)).toNat := by
  unfold pending trackPeerForward
  rw [Table.lookup_insert_eq]
  by_cases hpq : p = q
  · subst hpq
    simp
  · simp [hpq, Ne.symm hpq]

/-- A release of a counter that is not zero takes one away. -/
theorem pending_release {forwards : Table String Nat} {q : String} (hpos : 0 < pending forwards q)
    (p : String) :
    pending (releaseForward forwards q) p + (decide (some q = some p)).toNat =
      pending forwards p := by
  unfold pending releaseForward at *
  rw [Table.lookup_modify]
  by_cases hpq : p = q
  · subst hpq
    cases hlookup : forwards.lookup p with
    | none => simp [hlookup] at hpos
    | some n =>
      rw [hlookup, Option.getD_some] at hpos
      have hne : n ≠ 0 := by omega
      simp only [if_true, Option.map_some, Option.getD_some, fetchSub, if_neg hne, decide_true,
        Bool.toNat_true]
      omega
  · simp [hpq, Ne.symm hpq]

/-- What an effect does to the counter of a peer, when it releases nothing that is zero. -/
theorem pending_apply {n : Node} {e : Effect} {p : String}
    (hpos : ∀ q, e.releases = some q →
      0 < pending n.peerPendingForwards q + (decide (e.tracks = some q)).toNat) :
    pending (n.apply e).peerPendingForwards p + (decide (e.releases = some p)).toNat =
      pending n.peerPendingForwards p + (decide (e.tracks = some p)).toNat := by
  have htracked : ∀ q, pending ((e.tracks.map (trackPeerForward n.peerPendingForwards)).getD
      n.peerPendingForwards) q =
        pending n.peerPendingForwards q + (decide (e.tracks = some q)).toNat := by
    intro q
    cases e.tracks with
    | none => simp
    | some peer => exact pending_track n.peerPendingForwards q peer
  simp only [Node.apply]
  cases hrel : e.releases with
  | none => simp [htracked]
  | some q =>
    rw [Option.map_some, Option.getD_some, ← htracked p]
    apply pending_release
    rw [htracked]
    exact hpos q hrel

/-! ### Runs -/

/-- The invariant: the counters are what the requests owe and hold, and each request was discounted
as often as it was counted, but for what it still owes. -/
structure Accounted (n : Node) : Prop where
  requests : n.currentRequests = n.outstandingRequests
  forwards : ∀ peer, pending n.peerPendingForwards peer = n.outstandingForwards peer
  tallies : ∀ id r, n.requests.lookup id = some r →
    r.discounted + r.phase.owes.toNat = r.counted ∧ r.counted ≤ 1 ∧
      (r.phase = .resolving → r.counted = 0)

private theorem accounted_init : Accounted Node.init where
  requests := rfl
  forwards _ := rfl
  tallies := by
    intro id r h
    cases h

/-- Starting from what a request owes and holds, an effect leaves what the next phase owes and
holds. -/
theorem apply_accounted {n : Node} (hinv : Accounted n) {id : Nat} {next : Request} {e : Effect}
    (hr : n.requests.lookup id = some r) (hb : Balanced r.phase next.phase e) :
    (n.apply e).currentRequests =
        Table.count (n.requests.insert id (next.tally e)) (fun r => r.phase.owes) ∧
      ∀ peer, pending (n.apply e).peerPendingForwards peer =
        Table.count (n.requests.insert id (next.tally e)) fun r => r.phase.holds peer := by
  constructor
  · have hcount := Table.count_insert_add hr (next.tally e) fun r => r.phase.owes
    have hphase : (next.tally e).phase = next.phase := rfl
    have hcurrent : n.currentRequests = Table.count n.requests fun r => r.phase.owes :=
      hinv.requests
    have hrequests := hb.requests
    rw [hphase] at hcount
    simp only [Node.apply]
    generalize Table.count (n.requests.insert id (next.tally e)) (fun r => r.phase.owes) = after
      at *
    cases hc : e.counts <;> cases hd : e.discounts <;>
      simp only [hc, hd, Bool.toNat_true, Bool.toNat_false, if_true, Bool.false_eq_true, if_false]
        at hrequests ⊢ <;> omega
  · intro peer
    have hcount := Table.count_insert_add hr (next.tally e) fun r => r.phase.holds peer
    have hforwards := hb.forwards peer
    have hpending := hinv.forwards peer
    have happly := pending_apply (n := n) (e := e) (p := peer) (by
      intro q hq
      -- the released forward is held, or tracked by this very piece
      have hheld := hb.forwards q
      have hle := Table.count_insert_add hr (next.tally e) fun r => r.phase.holds q
      have hcounter := hinv.forwards q
      simp only [Node.outstandingForwards, hq, decide_true, Bool.toNat_true] at *
      have hpos : (r.phase.holds q).toNat ≤ Table.count n.requests fun r => r.phase.holds q := by
        cases hholds : r.phase.holds q with
        | false => simp
        | true =>
          rw [Bool.toNat_true]
          exact Table.count_pos hr hholds
      omega)
    simp only [Node.outstandingForwards, Request.tally] at *
    omega

private theorem accounted_step {n t : Node} {l : Label σ} (hinv : Accounted n)
    (h : step cfg parse n l = some t) : Accounted t := by
  obtain ⟨id, streaming, rfl, hfresh, rfl⟩ | ⟨id, a, r, ⟨next, e⟩, rfl, hr, hpiece, rfl⟩ |
    ⟨circuits, rfl, rfl⟩ := step_cases h
  · have hnone : n.requests.lookup id = none := AList.lookup_eq_none.mpr hfresh
    refine ⟨?_, ?_, ?_⟩
    · have hcount := Table.count_insert_of_notMem hfresh (.arrived streaming) fun r => r.phase.owes
      rw [Node.outstandingRequests, hcount]
      exact hinv.requests.trans (Nat.zero_add _).symm
    · intro peer
      have hcount := Table.count_insert_of_notMem hfresh (.arrived streaming)
        fun r => r.phase.holds peer
      rw [Node.outstandingForwards, hcount]
      exact (hinv.forwards peer).trans (Nat.zero_add _).symm
    · intro j r hj
      obtain ⟨-, rfl⟩ | ⟨-, hj⟩ := Table.lookup_insert_eq_some.mp hj
      · exact ⟨rfl, Nat.zero_le 1, fun _ => rfl⟩
      · exact hinv.tallies j r hj
  · have hb := hpiece.balanced
    obtain ⟨hcurrent, hforwards⟩ := apply_accounted hinv hr hb
    refine ⟨hcurrent, hforwards, ?_⟩
    intro j s hj
    obtain ⟨-, rfl⟩ | ⟨-, hj⟩ := Table.lookup_insert_eq_some.mp hj
    · obtain ⟨htally, honce, hresolving⟩ := hinv.tallies id r hr
      obtain ⟨hcounted, hdiscounted, hresolved, hcounts⟩ := hpiece.tallied
      have hrequests := hb.requests
      simp only [Request.tally] at *
      rw [hcounted, hdiscounted]
      refine ⟨by omega, ?_, fun hphase => absurd hphase hresolved⟩
      cases hc : e.counts with
      | false => simpa using honce
      | true =>
        rw [hresolving (hcounts hc)]
        exact le_refl 1
    · exact hinv.tallies j s hj
  · exact ⟨hinv.requests, hinv.forwards, hinv.tallies⟩

/-- The pieces that end a request that is dropped. -/
def Phase.drops : Phase → List (Action σ)
  | .finished => []
  | .cleaning _ => [.clean]
  | .responding _ => [.cancel, .clean]
  | .resolving | .selecting _ | .waiting _ | .tracking _ _ | .tracked _ _ | .sending _ _ _
  | .recording _ _ _ _ | .acquiring | .routed | .fallback => [.cancel]

/-- A piece of a request is a step of the node. -/
theorem step_act {n : Node} {id : Nat} {r next : Request} {e : Effect} {a : Action σ}
    (hr : n.requests.lookup id = some r) (hact : r.act cfg parse n.circuits a = some (next, e)) :
    ∃ t, step cfg parse n (.act id a) = some t ∧ t.requests.lookup id = some (next.tally e) := by
  refine ⟨n.took id (next, e), ?_, ?_⟩
  · simp only [step, hr, hact]
  · exact AList.lookup_insert _

variable (cfg parse) in
/-- A request that is dropped anywhere is finished by the pieces that are left of it. -/
theorem exec_drops {n : Node} {id : Nat} {r : Request} (hr : n.requests.lookup id = some r) :
    ∃ t last, exec (step cfg parse) n ((r.phase.drops (σ := σ)).map (.act id)) = some t ∧
      t.requests.lookup id = some last ∧ last.phase = .finished := by
  -- one piece that finishes
  have hlast : ∀ {n : Node} {r next : Request} {e : Effect} {a : Action σ},
      n.requests.lookup id = some r → r.act cfg parse n.circuits a = some (next, e) →
        next.phase = .finished → ∃ t last, exec (step cfg parse) n [.act id a] = some t ∧
          t.requests.lookup id = some last ∧ last.phase = .finished := by
    intro n r next e a hr hact hphase
    obtain ⟨t, ht, hlookup⟩ := step_act hr hact
    exact ⟨t, next.tally e, exec_cons_eq_some.mpr ⟨t, ht, rfl⟩, hlookup, hphase⟩
  have hcancel : ∀ {next : Request} {e : Effect}, r.cancels = some (next, e) →
      next.phase = .finished → ∃ t last,
        exec (step cfg parse) n [.act id (.cancel (σ := σ))] = some t ∧
        t.requests.lookup id = some last ∧ last.phase = .finished :=
    fun hcancels hphase => hlast hr hcancels hphase
  cases hphase : r.phase with
  | finished => exact ⟨n, r, rfl, hr, hphase⟩
  | cleaning forward =>
    exact hlast (a := .clean) hr (by simp only [Request.act, hphase]; rfl) rfl
  | responding forward =>
    have hact : r.act cfg parse n.circuits (.cancel (σ := σ)) =
        some (r.enter (.cleaning forward), {}) := by
      simp only [Request.act, Request.cancels, hphase]
    obtain ⟨m, hm, hlookup⟩ := step_act hr hact
    obtain ⟨t, last, ht, hfinished⟩ := hlast (a := .clean) hlookup rfl rfl
    exact ⟨t, last, exec_cons_eq_some.mpr ⟨m, hm, ht⟩, hfinished⟩
  | resolving | selecting | waiting | tracking | acquiring | routed | fallback | tracked | sending
  | recording =>
    exact hcancel (by simp only [Request.cancels, hphase]; rfl) rfl

/-- In every run `current_requests` is the number of requests that are still to be discounted, each
request is counted at most once and discounted exactly once for it, the counter of every peer is the
number of outstanding forwards to it, no piece takes from a counter that is zero, and a request that
is dropped at any await still settles its count. -/
theorem requests_accounted (cfg : CircuitBreakerConfig) (parse : List UInt8 → Option Json)
    {labels : List (Label σ)} {n : Node}
    (h : exec (step cfg parse) Node.init labels = some n) :
    n.currentRequests = n.outstandingRequests ∧
      (∀ peer, pending n.peerPendingForwards peer = n.outstandingForwards peer) ∧
      ∀ id r, n.requests.lookup id = some r →
        r.counted ≤ 1 ∧ r.discounted + r.phase.owes.toNat = r.counted ∧
        (∀ (a : Action σ) next e, r.act cfg parse n.circuits a = some (next, e) →
          (e.discounts = true → 0 < n.currentRequests) ∧
            ∀ peer, e.releases = some peer → 0 < pending n.peerPendingForwards peer) ∧
        ∃ t last, exec (step cfg parse) n ((r.phase.drops (σ := σ)).map (.act id)) = some t ∧
          t.requests.lookup id = some last ∧ last.phase = .finished ∧
            last.discounted = last.counted := by
  have hinv : Accounted n := exec_invariant (fun _ _ _ => accounted_step) accounted_init h
  refine ⟨hinv.requests, hinv.forwards, ?_⟩
  intro id r hr
  obtain ⟨htally, honce, -⟩ := hinv.tallies id r hr
  refine ⟨honce, htally, ?_, ?_⟩
  · intro a next e hact
    obtain ⟨howes, hholds⟩ := (piece_of_act hact).takesBack
    constructor
    · intro hd
      rw [hinv.requests]
      exact Table.count_pos hr (howes hd)
    · intro peer hrel
      rw [hinv.forwards]
      exact Table.count_pos hr (hholds peer hrel)
  · obtain ⟨t, last, ht, hlookup, hphase⟩ := exec_drops (σ := σ) cfg parse hr
    have hinvt : Accounted t := exec_invariant (fun _ _ _ => accounted_step) hinv ht
    have hlast := (hinvt.tallies id last hlookup).1
    rw [hphase] at hlast
    exact ⟨t, last, ht, hlookup, hphase, hlast⟩

/-- A streamed answer of a peer, and a client that goes away before its end. -/
def forwardedStream : List (Label Nat) :=
  ([.arrive 1 true, .act 1 (.resolve .unknown)] : List (Label Nat)) ++
    .act 1 (.select onePeer fun _ _ => 0) ::
      [.act 1 .track, .act 1 (.claim onePeer), .act 1 (.answer (.streamed 200) false),
        .act 1 (.record 5 false), .act 1 .cancel]

/-- The request and its forward are still counted. -/
theorem forwardedStream_accounted :
    ∃ n, exec (step { } fun _ => none) Node.init forwardedStream = some n ∧
      n.currentRequests = 1 ∧ n.outstandingRequests = 1 ∧ n.outstandingForwards "node-b" = 1 := by
  have hrun : ∃ n, exec (step { } fun _ => none) Node.init forwardedStream = some n ∧
      n.currentRequests = 1 ∧ pending n.peerPendingForwards "node-b" = 1 :=
    ⟨_, exec_append_eq_some.mpr
      ⟨_, rfl, exec_cons_eq_some.mpr ⟨_, step_select_onePeer rfl rfl rfl rfl, rfl⟩⟩, rfl, rfl⟩
  obtain ⟨n, hn, hcurrent, hpending⟩ := hrun
  obtain ⟨hrequests, hforwards, -⟩ := requests_accounted { } (fun _ => none) hn
  exact ⟨n, hn, hcurrent, hrequests.symm.trans hcurrent, (hforwards "node-b").symm.trans hpending⟩

end Llamesh.Router
