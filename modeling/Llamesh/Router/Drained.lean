import Llamesh.Router.Model

/-!
# Draining peers and breaker results

Every dispatch of a request is in its log. A peer that answered for its own drain is excluded from
every later selection of the request, whichever site selects. A dispatch that ends in a drain, the
peer's own or a relayed one, tells the breaker nothing; every other one that ends tells it one
result, with the ticket of the dispatch unless the answer is the head of a successful stream.
-/

namespace Llamesh.Router

open Transition CircuitBreaker

variable {σ : Type} [LinearOrder σ] {cfg : CircuitBreakerConfig}

section Endings

variable (parse : List UInt8 → Option Json)

/-- A complete 503 of a draining node. -/
def Ending.drains : Ending → Bool
  | .complete r => r.drains parse
  | .sendFailed _ | .streamed _ | .bodyFailed _ => false

/-- A complete 503 that the peer answers for. -/
def Ending.drainsAt (peer : String) : Ending → Bool
  | .complete r => r.drainsAt parse peer
  | .sendFailed _ | .streamed _ | .bodyFailed _ => false

/-- The head of a successful stream. -/
def Ending.streams : Ending → Bool
  | .streamed _ => true
  | .sendFailed _ | .bodyFailed _ | .complete _ => false

/-- The dispatch was answered with the peer's own drain. -/
def Dispatched.drainedByPeer (d : Dispatched) : Bool :=
  d.ending.any fun e => e.drainsAt parse d.peer

/-- A result of a request to the peer, with this ticket. -/
def IsResult (peer : String) (probeTicket : Bool) (op : Op) : Prop :=
  op = .success peer probeTicket ∨ op = .failure peer probeTicket

/-- What the breaker was told of a dispatch: nothing until it has ended, nothing for a drain, and
one result otherwise. -/
structure Dispatched.Told (d : Dispatched) : Prop where
  running : d.settled = false → d.recorded = []
  settled : d.settled = true → ∃ ending, d.ending = some ending ∧
    (ending.drains parse = true → d.recorded = []) ∧
      (ending.drains parse = false → ∃ op, d.recorded = [op] ∧
        IsResult d.peer (!ending.streams && d.probeTicket) op)

end Endings

variable {parse : List UInt8 → Option Json}

/-! ### Classification -/

private theorem recordPeerStatus_isResult (peer : String) (status : Nat) (probeTicket : Bool) :
    IsResult peer probeTicket (recordPeerStatus peer status probeTicket) := by
  unfold recordPeerStatus
  split
  · exact .inr rfl
  · exact .inl rfl

variable (parse) in
/-- The drain is the one case without a result. -/
theorem classifyBuffered_eq (peer : String) (probeTicket : Bool) (r : BufferedPeerResponse) :
    if r.drains parse then
      classifyBufferedPeerResponse parse peer probeTicket r =
        (none, if r.drainsAt parse peer then .draining else .surface r)
    else ∃ outcome, classifyBufferedPeerResponse parse peer probeTicket r =
      (some (recordPeerStatus peer r.status probeTicket), outcome) := by
  have hdrains : r.drains parse = true ↔
      r.status = 503 ∧ r.errorField parse "type" = some "draining" := by
    simp [BufferedPeerResponse.drains]
  split
  · next h =>
    have hat : r.drainsAt parse peer =
        decide (r.errorField parse "origin_node_id" = some peer) := by
      rw [BufferedPeerResponse.drainsAt, h, Bool.true_and, Bool.eq_iff_iff, beq_iff_eq,
        decide_eq_true_eq]
    unfold classifyBufferedPeerResponse
    rw [if_pos (hdrains.mp h), hat]
    split
    · next horigin => rw [if_pos (decide_eq_true horigin)]
    · next horigin => rw [if_neg (by rwa [decide_eq_true_eq])]
  · next h =>
    unfold classifyBufferedPeerResponse
    rw [if_neg (fun hd => h (hdrains.mpr hd))]
    dsimp only
    split
    · split
      · exact ⟨_, rfl⟩
      · exact ⟨_, rfl⟩
    · exact ⟨_, rfl⟩

/-- An ending that tells nothing is a drain, and the peer's own drain excludes it. -/
theorem classify_none {peer : String} {probeTicket : Bool} {ending : Ending}
    {outcome : ForwardOutcome}
    (h : classifyPeerResponse parse peer probeTicket ending = (none, outcome)) :
    ending.drains parse = true ∧ (ending.drainsAt parse peer = true → outcome = .draining) := by
  cases ending with
  | sendFailed | streamed | bodyFailed => cases h
  | complete r =>
    have hclass := classifyBuffered_eq parse peer probeTicket r
    simp only [classifyPeerResponse] at h
    split at hclass
    · next hdrains =>
      refine ⟨hdrains, ?_⟩
      intro hat
      have hat' : r.drainsAt parse peer = true := hat
      rw [h, if_pos hat', Prod.mk.injEq] at hclass
      exact hclass.2
    · obtain ⟨o, ho⟩ := hclass
      rw [h] at ho
      cases ho

/-- An ending that tells something is no drain, and it tells one result of the dispatch. -/
theorem classify_some {peer : String} {probeTicket : Bool} {ending : Ending} {result : Op}
    {outcome : ForwardOutcome}
    (h : classifyPeerResponse parse peer probeTicket ending = (some result, outcome)) :
    ending.drains parse = false ∧ IsResult peer (!ending.streams && probeTicket) result := by
  cases ending with
  | sendFailed | bodyFailed =>
    cases h
    exact ⟨rfl, .inr rfl⟩
  | streamed status =>
    cases h
    exact ⟨rfl, recordPeerStatus_isResult peer status false⟩
  | complete r =>
    have hclass := classifyBuffered_eq parse peer probeTicket r
    simp only [classifyPeerResponse] at h
    split at hclass
    · rw [h] at hclass
      cases hclass
    · next hdrains =>
      obtain ⟨o, ho⟩ := hclass
      rw [h, Prod.mk.injEq] at ho
      obtain rfl := Option.some.inj ho.1
      exact ⟨Bool.eq_false_iff.mpr hdrains, recordPeerStatus_isResult peer r.status probeTicket⟩

/-- The peer's own drain is a drain. -/
theorem Ending.drains_of_drainsAt {ending : Ending} {peer : String}
    (h : ending.drainsAt parse peer = true) : ending.drains parse = true := by
  cases ending with
  | sendFailed | streamed | bodyFailed => cases h
  | complete r => exact (Bool.and_eq_true _ _ ▸ h : _ ∧ _).1

/-! ### What a piece does to the log -/

/-- A dispatch is admitted and its result is not recorded yet. -/
def Phase.dispatching : Phase → Bool
  | .sending _ _ _ | .recording _ _ _ _ => true
  | .resolving | .selecting _ | .waiting _ | .tracking _ _ | .tracked _ _ | .acquiring | .routed
  | .fallback | .responding _ | .cleaning _ | .finished => false

/-- The request has no peer in mind. -/
def Phase.idle : Phase → Bool
  | .tracking _ _ | .tracked _ _ | .sending _ _ _ | .recording _ _ _ _ => false
  | .resolving | .selecting _ | .waiting _ | .acquiring | .routed | .fallback | .responding _
  | .cleaning _ | .finished => true

/-- No dispatch is added or changed, no drained peer is forgotten, and the request has no peer in
mind afterwards. -/
structure Keeps (r next : Request) : Prop where
  log : next.log = r.log
  drained : r.memory.drainedPeers ⊆ next.memory.drainedPeers
  idle : next.phase.idle = true

/-- What a piece does to the dispatches of a request. A dispatch that is admitted is left by its
answer, its result or a cancel only. -/
inductive Move (parse : List UInt8 → Option Json) (r : Request) (a : Action σ) (next : Request) :
    Prop where
  | keeps (hopen : r.phase.dispatching = true → a = .cancel) (h : Keeps r next)
  | selects (site : Site) (peer : String) (hopen : r.phase.dispatching = false)
      (hlog : next.log = r.log) (hdrained : next.memory.drainedPeers = r.memory.drainedPeers)
      (hphase : next.phase = .tracking site peer) (hpeer : peer ∉ r.memory.drainedPeers)
  | tracks (site : Site) (peer : String) (h : r.phase = .tracking site peer)
      (hnext : next = r.enter (.tracked site peer))
  | claims (site : Site) (peer : String) (probeTicket : Bool) (h : r.phase = .tracked site peer)
      (hlog : next.log = ⟨site, peer, probeTicket, none, [], false⟩ :: r.log)
      (hmemory : next.memory = r.memory) (hphase : next.phase = .sending site peer probeTicket)
  | answers (site : Site) (peer : String) (probeTicket : Bool) (ending : Ending) (result : Op)
      (outcome : ForwardOutcome) (h : r.phase = .sending site peer probeTicket)
      (hclass : classifyPeerResponse parse peer probeTicket ending = (some result, outcome))
      (hnext : next = (r.ended ending false).enter (.recording site peer result outcome))
  | drains (site : Site) (peer : String) (probeTicket : Bool) (ending : Ending)
      (outcome : ForwardOutcome) (h : r.phase = .sending site peer probeTicket)
      (hclass : classifyPeerResponse parse peer probeTicket ending = (none, outcome))
      (hkeeps : Keeps (r.ended ending true) next)
      (hexcludes : outcome = .draining → peer ∈ next.memory.drainedPeers)
  | records (site : Site) (peer : String) (result : Op) (outcome : ForwardOutcome)
      (h : r.phase = .recording site peer result outcome) (hkeeps : Keeps (r.told result) next)

variable {r : Request}

private theorem enter_keeps {phase : Phase} (h : phase.idle = true) : Keeps r (r.enter phase) :=
  ⟨rfl, List.Subset.refl _, h⟩

private theorem Turn.keeps {forward : Option String} {after : Request × Effect}
    (h : Turn r forward after) :
    Keeps r after.1 := by
  cases h with
  | fails m hm => exact ⟨rfl, hm, rfl⟩
  | responds => exact enter_keeps rfl
  | goesOn m phase hm hphase =>
    have hidle : phase.idle = true := by
      cases phase with
      | selecting | waiting | acquiring | fallback => rfl
      | resolving | tracking | tracked | sending | recording | routed | responding | cleaning
      | finished => cases hphase
    exact ⟨rfl, hm, hidle⟩

/-- On every site a drain excludes the peer. -/
theorem settle_draining_excludes (site : Site) (peer : String) (draining : Bool) :
    peer ∈ (r.settle site peer draining .draining).1.memory.drainedPeers := by
  cases site with
  | fallback => exact List.mem_cons_self
  | loop l =>
    cases l with
    | unknown => exact List.mem_cons_self
    | known =>
      simp only [Request.settle, Request.continues]
      split
      · exact List.mem_cons_self
      · exact List.mem_cons_self

private theorem selects_move {s : Surroundings} {score : Gossip.PeerState → Nat → σ} {site : Site}
    {a : Action σ} (hopen : r.phase.dispatching = false) :
    Move parse r a (r.selects s score site).1 := by
  obtain hturn | ⟨m, peer, hm, hpeer, hselects⟩ := selects_turn r s score site
  · exact .keeps (fun hd => absurd hd (Bool.eq_false_iff.mp hopen)) hturn.keeps
  · rw [hselects]
    exact .selects site peer hopen rfl hm rfl hpeer

omit [LinearOrder σ] in
private theorem claims_move {s : Surroundings} {site : Site} {peer : String} {a : Action σ}
    (h : r.phase = .tracked site peer) : Move parse r a (r.claims s site peer).1 := by
  obtain hturn | ⟨probeTicket, circuits, hclaims⟩ := claims_turn r s site peer
  · exact .keeps (by rw [h]; nofun) hturn.keeps
  · rw [hclaims]
    exact .claims site peer probeTicket h rfl rfl rfl

/-- Every piece is such a move. -/
theorem Piece.move {circuits : Circuits} {a : Action σ} {after : Request × Effect}
    (h : Piece cfg parse circuits r a after) : Move parse r a after.1 := by
  cases h with
  | select l s score h => exact selects_move (by rw [h]; rfl)
  | fallBack s score h => exact selects_move (by rw [h]; rfl)
  | track site peer h => exact .tracks site peer h rfl
  | claim site peer s h => exact claims_move h
  | answer site peer probeTicket ending draining result outcome h hfits hclass =>
    exact .answers site peer probeTicket ending result outcome h hclass rfl
  | drained site peer probeTicket ending draining outcome h hfits hclass =>
    refine .drains site peer probeTicket ending outcome h hclass
      (settle_turn site peer draining outcome).keeps ?_
    rintro rfl
    exact settle_draining_excludes site peer draining
  | record site peer result outcome now draining h =>
    exact .records site peer result outcome h (settle_turn site peer draining outcome).keeps
  | reject h | resolve l h | wake l h | acquired h | spawnFailuresExhausted h | respondLocally h
  | endResponse forward h | clean forward h =>
    exact .keeps (by rw [h]; nofun) (enter_keeps rfl)
  | giveUp l h | acquireFailed h | upstreamFailed h =>
    exact .keeps (by rw [h]; nofun) (fails_turn r none).keeps
  | cancel after h =>
    refine .keeps (fun _ => rfl) ?_
    obtain ⟨forward, hturn⟩ | rfl | ⟨forward, rfl⟩ := cancels_turn h
    · exact hturn.keeps
    · exact enter_keeps rfl
    · exact enter_keeps rfl

/-! ### The log of a request -/

/-- A peer that drained is in no later dispatch; the newest dispatch comes first. -/
def Avoids (parse : List UInt8 → Option Json) (log : List Dispatched) : Prop :=
  log.Pairwise fun later earlier => earlier.drainedByPeer parse = true → later.peer ≠ earlier.peer

/-- The dispatches of a request that excludes these peers. -/
structure Attributed (parse : List UInt8 → Option Json) (drainedPeers : List String)
    (log : List Dispatched) : Prop where
  avoids : Avoids parse log
  excluded : ∀ d ∈ log, d.drainedByPeer parse = true → d.peer ∈ drainedPeers
  told : ∀ d ∈ log, d.Told parse

namespace Attributed

variable {drained drained' : List String} {log : List Dispatched} {d old : Dispatched}

private theorem mono (h : Attributed parse drained log) (hsub : drained ⊆ drained') :
    Attributed parse drained' log where
  avoids := h.avoids
  excluded e he hdrained := hsub (h.excluded e he hdrained)
  told := h.told

/-- A dispatch to a peer that is not excluded is admitted. -/
theorem cons (h : Attributed parse drained log) {site : Site} {peer : String} {probeTicket : Bool}
    (hpeer : peer ∉ drained) :
    Attributed parse drained (⟨site, peer, probeTicket, none, [], false⟩ :: log) where
  avoids := by
    refine List.pairwise_cons.mpr ⟨?_, h.avoids⟩
    rintro earlier hearlier hdrained rfl
    exact hpeer (h.excluded earlier hearlier hdrained)
  excluded := by
    intro e he hdrained
    obtain rfl | he := List.mem_cons.mp he
    · cases hdrained
    · exact h.excluded e he hdrained
  told := by
    intro e he
    obtain rfl | he := List.mem_cons.mp he
    · exact ⟨fun _ => rfl, nofun⟩
    · exact h.told e he

/-- Something came of the newest dispatch. -/
theorem updateHead (h : Attributed parse drained (old :: log)) (hsub : drained ⊆ drained')
    (hpeer : d.peer = old.peer) (htold : d.Told parse)
    (hexcluded : d.drainedByPeer parse = true → d.peer ∈ drained') :
    Attributed parse drained' (d :: log) where
  avoids := by
    obtain ⟨hnewest, holder⟩ := List.pairwise_cons.mp h.avoids
    refine List.pairwise_cons.mpr ⟨?_, holder⟩
    intro earlier hearlier hdrained
    rw [hpeer]
    exact hnewest earlier hearlier hdrained
  excluded := by
    intro e he hdrained
    obtain rfl | he := List.mem_cons.mp he
    · exact hexcluded hdrained
    · exact hsub (h.excluded e (List.mem_cons_of_mem _ he) hdrained)
  told := by
    intro e he
    obtain rfl | he := List.mem_cons.mp he
    · exact htold
    · exact h.told e (List.mem_cons_of_mem _ he)

end Attributed

/-- What the phase of a request says of its newest dispatch. -/
def Request.InFlight (parse : List UInt8 → Option Json) (r : Request) : Prop :=
  match r.phase with
  | .tracking _ peer | .tracked _ peer => peer ∉ r.memory.drainedPeers
  | .sending site peer probeTicket =>
    ∃ older, r.log = ⟨site, peer, probeTicket, none, [], false⟩ :: older
  | .recording site peer result outcome =>
    ∃ ending probeTicket older,
      r.log = ⟨site, peer, probeTicket, some ending, [], false⟩ :: older ∧
        classifyPeerResponse parse peer probeTicket ending = (some result, outcome)
  | .resolving | .selecting _ | .waiting _ | .acquiring | .routed | .fallback | .responding _
  | .cleaning _ | .finished => True

/-- The invariant of a request. -/
structure Request.Tracked (parse : List UInt8 → Option Json) (r : Request) : Prop where
  attributed : Attributed parse r.memory.drainedPeers r.log
  inFlight : r.InFlight parse

private theorem Request.inFlight_of_idle {next : Request} (h : next.phase.idle = true) :
    next.InFlight parse := by
  obtain ⟨streaming, memory, phase, log, counted, discounted⟩ := next
  cases phase with
  | tracking | tracked | sending | recording => cases h
  | resolving | selecting | waiting | acquiring | routed | fallback | responding | cleaning
  | finished => trivial

/-- What a known phase says. -/
theorem Request.inFlight_iff {phase : Phase} (h : r.phase = phase) :
    r.InFlight parse ↔ (r.enter phase).InFlight parse := by
  obtain ⟨streaming, memory, _, log, counted, discounted⟩ := r
  obtain rfl := h
  rfl

private theorem Request.InFlight.sending {site : Site} {peer : String} {probeTicket : Bool}
    (hflight : r.InFlight parse) (h : r.phase = .sending site peer probeTicket) :
    ∃ older, r.log = ⟨site, peer, probeTicket, none, [], false⟩ :: older :=
  (Request.inFlight_iff h).mp hflight

private theorem Request.InFlight.recording {site : Site} {peer : String} {result : Op}
    {outcome : ForwardOutcome} (hflight : r.InFlight parse)
    (h : r.phase = .recording site peer result outcome) :
    ∃ ending probeTicket older,
      r.log = ⟨site, peer, probeTicket, some ending, [], false⟩ :: older ∧
        classifyPeerResponse parse peer probeTicket ending = (some result, outcome) :=
  (Request.inFlight_iff h).mp hflight

private theorem ended_log {d : Dispatched} {older : List Dispatched} (h : r.log = d :: older)
    (ending : Ending) (settled : Bool) :
    (r.ended ending settled).log =
      { d with ending := some ending, settled := settled } :: older := by
  rw [Request.ended, h, List.modifyHead_cons]

private theorem told_log {d : Dispatched} {older : List Dispatched} (h : r.log = d :: older)
    (result : Op) :
    (r.told result).log =
      { d with recorded := result :: d.recorded, settled := true } :: older := by
  rw [Request.told, h, List.modifyHead_cons]

/-- A settled dispatch told the breaker what its ending asks for. -/
theorem told_of_classify_none {site : Site} {peer : String} {probeTicket : Bool} {ending : Ending}
    {outcome : ForwardOutcome}
    (h : classifyPeerResponse parse peer probeTicket ending = (none, outcome)) :
    Dispatched.Told parse ⟨site, peer, probeTicket, some ending, [], true⟩ where
  running := nofun
  settled := by
    intro _
    obtain ⟨hdrains, -⟩ := classify_none h
    refine ⟨ending, rfl, fun _ => rfl, ?_⟩
    intro hnot
    rw [hdrains] at hnot
    cases hnot

private theorem told_of_classify_some {site : Site} {peer : String} {probeTicket : Bool}
    {ending : Ending}
    {result : Op} {outcome : ForwardOutcome}
    (h : classifyPeerResponse parse peer probeTicket ending = (some result, outcome)) :
    Dispatched.Told parse ⟨site, peer, probeTicket, some ending, [result], true⟩ where
  running := nofun
  settled := by
    intro _
    obtain ⟨hdrains, hresult⟩ := classify_some h
    refine ⟨ending, rfl, ?_, fun _ => ⟨result, rfl, hresult⟩⟩
    intro hyes
    rw [hdrains] at hyes
    cases hyes

/-- A dispatch that tells something was not answered with a drain of its peer. -/
theorem not_drainsAt_of_classify_some {peer : String} {probeTicket : Bool} {ending : Ending}
    {result : Op} {outcome : ForwardOutcome}
    (h : classifyPeerResponse parse peer probeTicket ending = (some result, outcome)) :
    ending.drainsAt parse peer ≠ true := by
  intro hat
  have hdrains := Ending.drains_of_drainsAt hat
  rw [(classify_some h).1] at hdrains
  cases hdrains

omit [LinearOrder σ] in
/-- Every move keeps the invariant of its request. -/
theorem Move.tracked {a : Action σ} {next : Request} (h : Move parse r a next)
    (hinv : r.Tracked parse) : next.Tracked parse := by
  obtain ⟨hattributed, hflight⟩ := hinv
  cases h with
  | keeps hopen h =>
    refine ⟨?_, Request.inFlight_of_idle h.idle⟩
    rw [h.log]
    exact hattributed.mono h.drained
  | selects site peer hopen hlog hdrained hphase hpeer =>
    refine ⟨?_, (Request.inFlight_iff hphase).mpr ?_⟩
    · rw [hlog, hdrained]
      exact hattributed
    · exact fun hmem => hpeer (hdrained ▸ hmem)
  | tracks site peer h hnext =>
    subst hnext
    exact ⟨hattributed, (Request.inFlight_iff h).mp hflight⟩
  | claims site peer probeTicket h hlog hmemory hphase =>
    have hpeer : peer ∉ r.memory.drainedPeers := (Request.inFlight_iff h).mp hflight
    refine ⟨?_, (Request.inFlight_iff hphase).mpr ⟨r.log, hlog⟩⟩
    rw [hlog, hmemory]
    exact hattributed.cons hpeer
  | answers site peer probeTicket ending result outcome h hclass hnext =>
    obtain ⟨older, hlog⟩ := hflight.sending h
    have hended := ended_log hlog ending false
    subst hnext
    refine ⟨?_, ⟨ending, probeTicket, older, hended, hclass⟩⟩
    change Attributed parse r.memory.drainedPeers (r.ended ending false).log
    rw [hended]
    rw [hlog] at hattributed
    refine hattributed.updateHead (List.Subset.refl _) rfl ⟨fun _ => rfl, nofun⟩ ?_
    exact fun hdrained => absurd hdrained (not_drainsAt_of_classify_some hclass)
  | drains site peer probeTicket ending outcome h hclass hkeeps hexcludes =>
    obtain ⟨older, hlog⟩ := hflight.sending h
    refine ⟨?_, Request.inFlight_of_idle hkeeps.idle⟩
    rw [hkeeps.log, ended_log hlog]
    rw [hlog] at hattributed
    refine hattributed.updateHead hkeeps.drained rfl (told_of_classify_none hclass) ?_
    exact fun hdrained => hexcludes ((classify_none hclass).2 hdrained)
  | records site peer result outcome h hkeeps =>
    obtain ⟨ending, probeTicket, older, hlog, hclass⟩ := hflight.recording h
    refine ⟨?_, Request.inFlight_of_idle hkeeps.idle⟩
    rw [hkeeps.log, told_log hlog]
    rw [hlog] at hattributed
    refine hattributed.updateHead hkeeps.drained rfl (told_of_classify_some hclass) ?_
    exact fun hdrained => absurd hdrained (not_drainsAt_of_classify_some hclass)

/-! ### Dispatches that are left -/

/-- Every dispatch but one that runs has been settled. -/
def Request.Settled (r : Request) : Prop :=
  ∀ d ∈ (if r.phase.dispatching then r.log.tail else r.log), d.settled = true

private theorem Phase.dispatching_of_idle {phase : Phase} (h : phase.idle = true) :
    phase.dispatching = false := by
  cases phase with
  | tracking | tracked | sending | recording => cases h
  | resolving | selecting | waiting | acquiring | routed | fallback | responding | cleaning
  | finished => rfl

private theorem Request.settled_open (h : r.phase.dispatching = true) :
    r.Settled ↔ ∀ d ∈ r.log.tail, d.settled = true := by
  rw [Request.Settled, if_pos h]

private theorem Request.settled_closed (h : r.phase.dispatching = false) :
    r.Settled ↔ ∀ d ∈ r.log, d.settled = true := by
  rw [Request.Settled, if_neg (Bool.eq_false_iff.mp h)]

/-- A dispatch that has not been settled is the newest, and it runs. -/
theorem Request.Settled.running (h : r.Settled) {d : Dispatched} (hd : d ∈ r.log)
    (hrunning : d.settled = false) : r.phase.dispatching = true ∧ r.log.head? = some d := by
  have hnot : d.settled ≠ true := Bool.eq_false_iff.mp hrunning
  cases hopen : r.phase.dispatching with
  | false => exact absurd ((Request.settled_closed hopen).mp h d hd) hnot
  | true =>
    have holder := (Request.settled_open hopen).mp h
    cases hlog : r.log with
    | nil =>
      rw [hlog] at hd
      cases hd
    | cons newest older =>
      rw [hlog] at hd holder
      obtain rfl | hd := List.mem_cons.mp hd
      · exact ⟨rfl, rfl⟩
      · exact absurd (holder d hd) hnot

private theorem settled_modifyHead {log : List Dispatched} {f : Dispatched → Dispatched}
    (hf : ∀ d, (f d).settled = true) (h : ∀ d ∈ log.tail, d.settled = true) :
    ∀ d ∈ log.modifyHead f, d.settled = true := by
  cases log with
  | nil => exact nofun
  | cons head older =>
    intro d hd
    obtain rfl | hd := List.mem_cons.mp hd
    · exact hf head
    · exact h d hd

omit [LinearOrder σ] in
/-- A dispatch is settled when it is left, unless the request is dropped. -/
theorem Move.settled {a : Action σ} {next : Request} (h : Move parse r a next) (ha : a ≠ .cancel)
    (hinv : r.Settled) : next.Settled := by
  cases h with
  | keeps hopen h =>
    have hclosed : r.phase.dispatching = false := by
      cases hd : r.phase.dispatching with
      | false => rfl
      | true => exact absurd (hopen hd) ha
    rw [Request.settled_closed (Phase.dispatching_of_idle h.idle), h.log]
    exact (Request.settled_closed hclosed).mp hinv
  | selects site peer hopen hlog hdrained hphase hpeer =>
    rw [Request.settled_closed (by rw [hphase]; rfl), hlog]
    exact (Request.settled_closed hopen).mp hinv
  | tracks site peer h hnext =>
    have hsettled := (Request.settled_closed (by rw [h]; rfl)).mp hinv
    subst hnext
    exact hsettled
  | claims site peer probeTicket h hlog hmemory hphase =>
    rw [Request.settled_open (by rw [hphase]; rfl), hlog]
    exact (Request.settled_closed (by rw [h]; rfl)).mp hinv
  | answers site peer probeTicket ending result outcome h hclass hnext =>
    have holder := (Request.settled_open (by rw [h]; rfl)).mp hinv
    subst hnext
    intro d hd
    exact holder d (List.tail_modifyHead ▸ hd)
  | drains site peer probeTicket ending outcome h hclass hkeeps hexcludes =>
    have holder := (Request.settled_open (by rw [h]; rfl)).mp hinv
    rw [Request.settled_closed (Phase.dispatching_of_idle hkeeps.idle), hkeeps.log]
    exact settled_modifyHead (fun _ => rfl) holder
  | records site peer result outcome h hkeeps =>
    have holder := (Request.settled_open (by rw [h]; rfl)).mp hinv
    rw [Request.settled_closed (Phase.dispatching_of_idle hkeeps.idle), hkeeps.log]
    exact settled_modifyHead (fun _ => rfl) holder

/-! ### The breaker -/

/-- The steps that change the circuits: a claim, a recorded result, and other users of the
breaker. -/
def Label.tellsBreaker : Label σ → Bool
  | .others _ | .act _ (.claim _) | .act _ (.record _ _) => true
  | .arrive _ _ | .act _ _ => false

private theorem Turn.quiet {forward : Option String} {after : Request × Effect}
    (h : Turn r forward after) :
    after.2.circuits = none := by
  cases h with
  | fails | responds | goesOn => rfl

private theorem selects_quiet (s : Surroundings) (score : Gossip.PeerState → Nat → σ)
    (site : Site) :
    (r.selects s score site).2.circuits = none := by
  obtain hturn | ⟨m, peer, -, -, hselects⟩ := selects_turn r s score site
  · exact hturn.quiet
  · rw [hselects]

/-- No other piece of a request touches the breaker, however a dispatch was answered. -/
theorem Piece.quiet {circuits : Circuits} {a : Action σ} {after : Request × Effect} {id : Nat}
    (h : Piece cfg parse circuits r a after) (ha : (Label.act id a).tellsBreaker = false) :
    after.2.circuits = none := by
  cases h with
  | select l s score h => exact selects_quiet _ _ _
  | fallBack s score h => exact selects_quiet _ _ _
  | drained site peer probeTicket ending draining outcome h hfits hclass =>
    exact (settle_turn site peer draining outcome).quiet
  | claim | record => cases ha
  | cancel after h =>
    obtain ⟨forward, hturn⟩ | rfl | ⟨forward, rfl⟩ := cancels_turn h
    · exact hturn.quiet
    · rfl
    · rfl
  | reject | resolve | wake | giveUp | track | answer | acquired | spawnFailuresExhausted
  | acquireFailed | respondLocally | upstreamFailed | endResponse | clean => rfl

/-! ### Runs -/

/-- Every request is tracked. -/
def Node.Tracked (parse : List UInt8 → Option Json) (n : Node) : Prop :=
  ∀ id r, n.requests.lookup id = some r → r.Tracked parse

private theorem tracked_init : Node.init.Tracked parse := by
  intro id r h
  cases h

private theorem tracked_step {n t : Node} {l : Label σ} (hinv : n.Tracked parse)
    (h : step cfg parse n l = some t) : t.Tracked parse := by
  intro j s hj
  obtain ⟨id, streaming, rfl, hfresh, rfl⟩ | ⟨id, a, r, ⟨next, e⟩, rfl, hr, hpiece, rfl⟩ |
    ⟨circuits, rfl, rfl⟩ := step_cases h
  · obtain ⟨-, rfl⟩ | ⟨-, hj⟩ := Table.lookup_insert_eq_some.mp hj
    · have hnone : ∀ d, d ∉ (Request.arrived streaming).log := fun d => List.not_mem_nil
      exact ⟨⟨List.Pairwise.nil, fun d hd => absurd hd (hnone d), fun d hd => absurd hd (hnone d)⟩,
        trivial⟩
    · exact hinv j s hj
  · obtain ⟨-, rfl⟩ | ⟨-, hj⟩ := Table.lookup_insert_eq_some.mp hj
    · have hnext := hpiece.move.tracked (hinv id r hr)
      exact ⟨hnext.attributed, hnext.inFlight⟩
    · exact hinv j s hj
  · exact hinv j s hj

private theorem settled_init (id : Nat) :
    ∀ r, Node.init.requests.lookup id = some r → r.Settled := by
  intro r h
  cases h

/-- A request that is never dropped settles every dispatch it leaves. -/
theorem settled_step {id : Nat} {n t : Node} {l : Label σ}
    (hinv : ∀ r, n.requests.lookup id = some r → r.Settled) (hl : l ≠ .act id .cancel)
    (h : step cfg parse n l = some t) : ∀ r, t.requests.lookup id = some r → r.Settled := by
  intro s hs
  obtain ⟨j, streaming, rfl, hfresh, rfl⟩ | ⟨j, a, r, ⟨next, e⟩, rfl, hr, hpiece, rfl⟩ |
    ⟨circuits, rfl, rfl⟩ := step_cases h
  · obtain ⟨-, rfl⟩ | ⟨-, hs⟩ := Table.lookup_insert_eq_some.mp hs
    · exact fun d hd => absurd hd List.not_mem_nil
    · exact hinv s hs
  · obtain ⟨rfl, rfl⟩ | ⟨-, hs⟩ := Table.lookup_insert_eq_some.mp hs
    · have hcancel : a ≠ .cancel := fun ha => hl (by rw [ha])
      exact hpiece.move.settled hcancel (hinv r hr)
    · exact hinv s hs
  · exact hinv s hs

/-- The newest dispatch of a request has been settled, and the breaker was told this. -/
def Node.Told (n : Node) (id : Nat) (recorded : List Op) : Prop :=
  ∃ r d older, n.requests.lookup id = some r ∧ r.log = d :: older ∧ d.settled = true ∧
    d.recorded = recorded

/-- A drain settles its dispatch without a result. -/
theorem step_answer_drains {n t : Node} {id : Nat} {ending : Ending} {draining : Bool}
    (hinv : n.Tracked parse)
    (h : step cfg parse n (.act id (.answer ending draining : Action σ)) = some t)
    (hdrains : ending.drains parse = true) : t.Told id [] := by
  obtain ⟨_, _, hl, _⟩ | ⟨id, a, r, after, hl, hr, hpiece, rfl⟩ | ⟨_, hl, _⟩ := step_cases h
  · cases hl
  · cases hl
    cases hpiece with
    | answer site peer probeTicket _ _ result outcome hphase hfits hclass =>
      have hnot := (classify_some hclass).1
      rw [hdrains] at hnot
      cases hnot
    | drained site peer probeTicket _ _ outcome hphase hfits hclass =>
      obtain ⟨older, hlog⟩ := (hinv id r hr).inFlight.sending hphase
      have hkeeps := (settle_turn (r := r.ended ending true) site peer draining outcome).keeps
      have hsettled := hkeeps.log.trans (ended_log hlog ending true)
      exact ⟨_, _, older, AList.lookup_insert _, hsettled, rfl, rfl⟩
  · cases hl

/-- A result settles its dispatch, and it is the one result the breaker is told. -/
theorem step_record {n t : Node} {id now : Nat} {draining : Bool} (hinv : n.Tracked parse)
    (h : step cfg parse n (.act id (.record now draining : Action σ)) = some t) :
    ∃ result, t.Told id [result] ∧ t.circuits = apply cfg n.circuits now result := by
  obtain ⟨_, _, hl, _⟩ | ⟨id, a, r, after, hl, hr, hpiece, rfl⟩ | ⟨_, hl, _⟩ := step_cases h
  · cases hl
  · cases hl
    cases hpiece with
    | record site peer result outcome _ _ hphase =>
      obtain ⟨ending, probeTicket, older, hlog, -⟩ := (hinv id r hr).inFlight.recording hphase
      have hkeeps := (settle_turn (r := r.told result) site peer draining outcome).keeps
      have hsettled := hkeeps.log.trans (told_log hlog result)
      exact ⟨result, ⟨_, _, older, AList.lookup_insert _, hsettled, rfl, rfl⟩, rfl⟩
  · cases hl

private theorem step_quiet {n t : Node} {l : Label σ} (h : step cfg parse n l = some t)
    (hl : l.tellsBreaker = false) : t.circuits = n.circuits := by
  obtain ⟨id, streaming, rfl, hfresh, rfl⟩ | ⟨id, a, r, ⟨next, e⟩, rfl, hr, hpiece, rfl⟩ |
    ⟨circuits, rfl, rfl⟩ := step_cases h
  · rfl
  · have hnone : e.circuits = none := hpiece.quiet hl
    simp only [Node.took, Node.apply, hnone, Option.getD_none]
  · cases hl

/-- In every run: no request is dispatched to a peer that answered an earlier dispatch of it with
its own drain; the breaker is told nothing of a drain and exactly one result of every other dispatch
that has ended, and a dispatch that has not is the one the request waits for, or the request was
dropped. A drain leaves the circuits alone, only claims and results change them, and a result
changes them as the breaker does on the one operation its dispatch tells. -/
theorem drains_avoided_and_untold (cfg : CircuitBreakerConfig) (parse : List UInt8 → Option Json)
    {labels : List (Label σ)} {n : Node}
    (h : exec (step cfg parse) Node.init labels = some n) :
    (∀ id r, n.requests.lookup id = some r → Avoids parse r.log ∧
      ∀ d ∈ r.log, d.Told parse ∧ (d.settled = false →
        r.phase.dispatching = true ∧ r.log.head? = some d ∨ Label.act id .cancel ∈ labels)) ∧
    ∀ (l : Label σ) t, step cfg parse n l = some t →
      (l.tellsBreaker = false → t.circuits = n.circuits) ∧
      (∀ id ending draining, l = .act id (.answer ending draining) →
        ending.drains parse = true → t.circuits = n.circuits ∧ t.Told id []) ∧
      ∀ id now draining, l = .act id (.record now draining) →
        ∃ result, t.Told id [result] ∧ t.circuits = apply cfg n.circuits now result := by
  have hinv : n.Tracked parse := exec_invariant (fun _ _ _ => tracked_step) tracked_init h
  refine ⟨?_, ?_⟩
  · intro id r hr
    have htracked := (hinv id r hr).attributed
    refine ⟨htracked.avoids, fun d hd => ⟨htracked.told d hd, ?_⟩⟩
    intro hrunning
    by_cases hcancel : Label.act id .cancel ∈ labels
    · exact .inr hcancel
    · have halong : Along (step cfg parse) (fun _ l => l ≠ .act id .cancel) Node.init labels := by
        apply along_of_forall_mem
        rintro l hl rfl
        exact hcancel hl
      have hsettled : r.Settled :=
        exec_invariant_along (P := fun n => ∀ r, n.requests.lookup id = some r → r.Settled)
          (fun _ _ _ => settled_step) (settled_init id) halong h r hr
      exact .inl (hsettled.running hd hrunning)
  · intro l t hstep
    refine ⟨step_quiet hstep, ?_, ?_⟩
    · rintro id ending draining rfl hdrains
      exact ⟨step_quiet hstep rfl, step_answer_drains hinv hstep hdrains⟩
    · rintro id now draining rfl
      exact step_record hinv hstep

/-- The step of an answer that tells nothing. -/
theorem step_drained {n : Node} {id : Nat} {site : Site} {peer : String}
    {probeTicket draining : Bool} {ending : Ending} {outcome : ForwardOutcome}
    (hr : n.requests.lookup id = some r)
    (hphase : r.phase = .sending site peer probeTicket)
    (hfits : ending.fits r.responseStreaming = true)
    (hclass : classifyPeerResponse parse peer probeTicket ending = (none, outcome)) :
    step cfg parse n (.act id (.answer ending draining : Action σ)) =
      some (n.took id ((r.ended ending true).settle site peer draining outcome)) := by
  simp only [step, hr, Request.act, hphase, hfits, hclass, if_true]

/-- The error of a node that drains. -/
def drainError : Json := .object
  [("error", .object [("type", .string "draining"), ("origin_node_id", .string "node-b")])]

/-- The answer of a node that drains. -/
def drainAnswer : BufferedPeerResponse :=
  ⟨503, [],
    "\x7b\"error\":\x7b\"type\":\"draining\",\"origin_node_id\":\"node-b\"\x7d\x7d".toUTF8.toList⟩

private theorem drainAnswer_classified :
    classifyPeerResponse (fun _ => some drainError) "node-b" false (.complete drainAnswer) =
      (none, .draining) := by
  have hdrains : drainAnswer.drains (fun _ => some drainError) = true := by decide +kernel
  have hat : drainAnswer.drainsAt (fun _ => some drainError) "node-b" = true := by decide +kernel
  have hclass := classifyBuffered_eq (fun _ => some drainError) "node-b" false drainAnswer
  rwa [if_pos hdrains, if_pos hat] at hclass

/-- A dispatch that is answered with the drain of its peer. -/
def drainedDispatch : List (Label Nat) :=
  ([.arrive 1 false, .act 1 (.resolve .unknown)] : List (Label Nat)) ++
    .act 1 (.select onePeer fun _ _ => 0) ::
      (([.act 1 .track, .act 1 (.claim onePeer)] : List (Label Nat)) ++
        ([.act 1 (.answer (.complete drainAnswer) false)] : List (Label Nat)))

/-- The draining peer is excluded and its circuit is not told. -/
theorem drainedDispatch_untold :
    ∃ n r, exec (step { } fun _ => some drainError) Node.init drainedDispatch = some n ∧
      n.requests.lookup 1 = some r ∧ r.memory.excluded = ["node-b"] ∧
        r.log.map (·.peer) = ["node-b"] ∧ ∀ d ∈ r.log, d.recorded = [] := by
  have hrun : ∃ n r, exec (step { } fun _ => some drainError) Node.init drainedDispatch = some n ∧
      n.requests.lookup 1 = some r ∧ r.memory.excluded = ["node-b"] ∧ r.log =
        [⟨.loop .unknown, "node-b", false, some (.complete drainAnswer), [], true⟩] :=
    ⟨_, _, exec_append_eq_some.mpr ⟨_, rfl, exec_cons_eq_some.mpr
      ⟨_, step_select_onePeer rfl rfl rfl rfl, exec_append_eq_some.mpr
        ⟨_, rfl, exec_cons_eq_some.mpr ⟨_, step_drained rfl rfl rfl drainAnswer_classified, rfl⟩⟩⟩⟩,
      rfl, rfl, rfl⟩
  obtain ⟨n, r, hn, hr, hexcluded, hlog⟩ := hrun
  obtain ⟨hrequests, -⟩ := drains_avoided_and_untold { } (fun _ => some drainError) hn
  obtain ⟨-, htold⟩ := hrequests 1 r hr
  refine ⟨n, r, hn, hr, hexcluded, by rw [hlog]; rfl, ?_⟩
  intro d hd
  obtain ⟨⟨-, hsettled⟩, -⟩ := htold d hd
  rw [hlog, List.mem_singleton] at hd
  subst hd
  obtain ⟨ending, hending, hdrains, -⟩ := hsettled rfl
  obtain rfl := Option.some.inj hending
  exact hdrains (classify_none drainAnswer_classified).1

end Llamesh.Router
