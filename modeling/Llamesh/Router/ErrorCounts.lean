import Llamesh.Router.Errors

/-!
# Errors are counted once

Every exit of a request that answers with an error of this node has counted it,
once for the node and, for a model of the cookbook, once for a hash; no request
counts twice, whatever happens on its way and to its stream. Two exits of the
source count nothing and answer an error: the read of a peer's body in
`peer_response_to_client`, and a key that fits in no header. Neither is reached:
a response that is not streamed has been read before it is classified, and an
instance is only started with a key that fits.
-/

namespace Llamesh.Router.Errors

/-! ### What a request has counted -/

/-- One error: for the node and, for a model of the cookbook, for one hash. -/
def Route.CountedOnce : Route → List Count → Prop
  | .unknown, counts => counts = [.node]
  | .known _, counts => ∃ argsHash, counts = [.node, .hash argsHash]

/-- The increments of the preflights and waits of a route. -/
theorem Route.countedOnce_counted (route : Route) :
    route.CountedOnce (counted route.hashMetrics) := by
  cases route with
  | unknown => rfl
  | known argsHash => exact ⟨argsHash, rfl⟩

/-- The increments that the exits for a model of the cookbook write out. -/
theorem Route.countedOnce_known (argsHash servedHash : String) :
    (Route.known argsHash).CountedOnce [.node, .hash servedHash] :=
  ⟨servedHash, rfl⟩

/-- An increment of the errors of some hash. -/
def Count.isHash : Count → Bool
  | .node => false
  | .hash _ => true

/-- How often an error of this route is counted under a hash. -/
def Route.hashCount : Route → Nat
  | .unknown => 0
  | .known _ => 1

/-- One error in numbers. -/
theorem Route.CountedOnce.numbers {route : Route} {counts : List Count}
    (h : route.CountedOnce counts) :
    counts.count .node = 1 ∧ counts.countP Count.isHash = route.hashCount := by
  cases route with
  | unknown =>
    rw [h]
    decide
  | known _ =>
    obtain ⟨argsHash, rfl⟩ := h
    simp [Count.isHash, Route.hashCount]

/-- A route has at most one hash. -/
theorem Route.hashCount_le_one (route : Route) : route.hashCount ≤ 1 := by
  cases route with
  | unknown => exact Nat.zero_le 1
  | known _ => exact le_refl 1

/-- A response that is not streamed is buffered before it is classified. -/
theorem streaming_of_streamingSurface {parse : List UInt8 → Option Json} {peer : String}
    {probeTicket responseStreaming : Bool} {ending : Ending} {status : Nat}
    (hfits : ending.fits responseStreaming = true)
    (h : (classifyPeerResponse parse peer probeTicket ending).2 = .streamingSurface status) :
    responseStreaming = true := by
  cases ending with
  | sendFailed errorType => cases h
  | streamed _ => exact (Bool.and_eq_true _ _ ▸ hfits).1
  | bodyFailed _ => cases h
  | complete response =>
    simp only [classifyPeerResponse, classifyBufferedPeerResponse] at h
    split_ifs at h
    split at h
    · split_ifs at h
    · cases h

/-- A request of this route is at this point. -/
def Point.Fits (route : Option Route) : Point → Prop
  | .resolving => route = none
  | .preflight ρ | .selecting ρ | .unavailable ρ | .waiting ρ _ _ | .retrying ρ _ => route = some ρ
  | .tracked (.loop ρ) _ | .dispatching (.loop ρ) _ => route = some ρ
  | .tracked (.fallback h) _ | .dispatching (.fallback h) _ => route = some (.known h)
  | .chosen h _ | .rechecking h | .acquiring h | .fallback h | .fallbackSelecting h =>
    route = some (.known h)
  | .sending _ | .reading _ _ => ∃ h, route = some (.known h)
  | .readingPeer _ _ | .streaming _ _ | .done => False

/-- The points of the handler. -/
def Point.handling : Point → Bool
  | .streaming _ _ | .done => false
  | _ => true

namespace Request

variable {r : Request}

/-- No error, or one. -/
def AtMostOnce (r : Request) : Prop :=
  r.counts = [] ∨ ∃ route, r.route = some route ∧ route.CountedOnce r.counts

/-- An error of this node that the client received is counted. -/
def ErrorsCounted (r : Request) : Prop :=
  ∀ e, r.reply = some (.error e) → ∃ route, r.route = some route ∧ route.CountedOnce r.counts

/-- In the handler nothing is counted, and what is left of a stream is counted only if nothing was
before. -/
def Accounted (r : Request) : Prop :=
  match r.point with
  | .done => r.ErrorsCounted ∧ r.AtMostOnce
  | .streaming recorder errorRecorded =>
    (∃ status, r.reply = some (.streamed status)) ∧ r.AtMostOnce ∧
      (recorder.isSome = true →
        (∃ h, r.route = some (.known h)) ∧ (errorRecorded = false → r.counts = []))
  | point => point.Fits r.route ∧ r.reply = none ∧ r.counts = []

/-- A request in the handler. -/
structure Handled (r : Request) (route : Route) : Prop where
  route : r.route = some route
  reply : r.reply = none
  counts : r.counts = []

/-- The account of a request wherever it is. -/
theorem Accounted.errorsCounted_and_atMostOnce (h : r.Accounted) :
    r.ErrorsCounted ∧ r.AtMostOnce := by
  unfold Accounted at h
  split at h
  · exact h
  · obtain ⟨⟨status, hreply⟩, honce, -⟩ := h
    refine ⟨fun e he => ?_, honce⟩
    rw [hreply] at he
    cases he
  · obtain ⟨-, hreply, hcounts⟩ := h
    refine ⟨fun e he => ?_, Or.inl hcounts⟩
    rw [hreply] at he
    cases he

/-- At most one error in numbers. -/
theorem AtMostOnce.numbers (h : r.AtMostOnce) :
    r.counts.count .node ≤ 1 ∧ r.counts.countP Count.isHash ≤ 1 := by
  rcases h with hnone | ⟨route, -, honce⟩
  · rw [hnone]
    decide
  · obtain ⟨hnode, hhash⟩ := honce.numbers
    exact ⟨hnode.le, hhash ▸ route.hashCount_le_one⟩

/-! ### One step -/

/-- A request that stays in the handler is accounted for by where it is. -/
theorem accounted_of_fits (hfits : r.point.Fits r.route) (hreply : r.reply = none)
    (hcounts : r.counts = []) : r.Accounted := by
  unfold Accounted
  split
  · next hp =>
    rw [hp] at hfits
    exact hfits.elim
  · next hp =>
    rw [hp] at hfits
    exact hfits.elim
  · exact ⟨hfits, hreply, hcounts⟩

/-- An accounted request at a point of the handler has the route of the point. -/
theorem Accounted.handledAt (h : r.Accounted) {point : Point} {route : Route} (hp : r.point = point)
    (hhandling : point.handling = true) (hroute : point.Fits r.route → r.route = some route) :
    r.Handled route := by
  unfold Accounted at h
  rw [hp] at h
  split at h
  · cases hhandling
  · cases hhandling
  · exact ⟨hroute h.1, h.2.1, h.2.2⟩

namespace Handled

variable {route : Route}

private theorem goes (h : r.Handled route) {point : Point} (hfits : point.Fits (some route)) :
    (r.charged (r.goes point)).Accounted := by
  refine accounted_of_fits ?_ h.reply ?_
  · exact h.route ▸ hfits
  · simp [charged, Request.goes, h.counts]

private theorem answers (h : r.Handled route) {reply : Reply} {counts : List Count}
    (herror : ∀ e, reply = .error e → route.CountedOnce counts)
    (honce : counts = [] ∨ route.CountedOnce counts) :
    (r.charged (r.answers reply counts)).Accounted := by
  have hcounts : (r.charged (r.answers reply counts)).counts = counts := by
    simp [charged, Request.answers, h.counts]
  refine ⟨fun e he => ⟨route, h.route, ?_⟩, ?_⟩
  · rw [hcounts]
    exact herror e (Option.some.inj he)
  · rcases honce with hnone | honce
    · exact Or.inl (hcounts.trans hnone)
    · exact Or.inr ⟨route, h.route, hcounts.symm ▸ honce⟩

private theorem error (h : r.Handled route) {e : AppError} {counts : List Count}
    (honce : route.CountedOnce counts) : (r.charged (r.answers (.error e) counts)).Accounted :=
  h.answers (fun _ _ => honce) (Or.inr honce)

private theorem disconnects (h : r.Handled route) :
    (r.charged (r.answers .clientDisconnected [])).Accounted :=
  h.answers (fun _ he => nomatch he) (Or.inl rfl)

private theorem relays (h : r.Handled route) {status : Nat} {counts : List Count}
    (honce : counts = [] ∨ route.CountedOnce counts) :
    (r.charged (r.answers (.relayed status) counts)).Accounted :=
  h.answers (fun _ he => nomatch he) honce

private theorem streams (h : r.Handled route) {recorder : Option String} {status : Nat}
    {counts : List Count} (honce : counts = [] ∨ route.CountedOnce counts)
    (hrecorder : recorder.isSome = true → (∃ argsHash, route = .known argsHash) ∧ counts = []) :
    (r.charged ({ r with point := .streaming recorder false, reply := some (.streamed status) },
      counts)).Accounted := by
  have hcounts : (r.charged ({ r with
      point := .streaming recorder false, reply := some (.streamed status) }, counts)).counts =
      counts := by
    simp [charged, h.counts]
  refine ⟨⟨status, rfl⟩, ?_, fun hsome => ⟨?_, fun _ => ?_⟩⟩
  · rcases honce with hnone | honce
    · exact Or.inl (hcounts.trans hnone)
    · exact Or.inr ⟨route, h.route, hcounts.symm ▸ honce⟩
  · obtain ⟨⟨argsHash, hknown⟩, -⟩ := hrecorder hsome
    exact ⟨argsHash, hknown ▸ h.route⟩
  · exact hcounts.trans (hrecorder hsome).2

private theorem routingPreflight (h : r.Handled route) {f : Flags} {hashMetrics : Option String}
    {next : Point} (honce : route.CountedOnce (counted hashMetrics))
    (hfits : next.Fits (some route)) :
    (r.charged (r.routingPreflight f hashMetrics next)).Accounted := by
  unfold Request.routingPreflight
  split_ifs
  · exact h.error honce
  · exact h.error honce
  · exact h.disconnects
  · exact h.goes hfits

private theorem waits (h : r.Handled route) {w : Wait} {hashMetrics : Option String} {next : Point}
    (honce : route.CountedOnce (counted hashMetrics)) (hfits : next.Fits (some route)) :
    (r.charged (r.waits w hashMetrics next)).Accounted := by
  cases w with
  | woken => exact h.goes hfits
  | intervalPassed => exact h.goes hfits
  | clientGone => exact h.disconnects
  | deadlinePassed => exact h.error honce

private theorem unavailableUnknown (h : r.Handled .unknown) (draining advertised : Bool) :
    (r.charged (r.unavailableUnknown draining advertised)).Accounted := by
  unfold Request.unavailableUnknown
  split_ifs
  · exact h.error rfl
  · exact h.error rfl
  · exact h.goes rfl

variable {argsHash : String}

private theorem unavailableKnown (h : r.Handled (.known argsHash)) (draining resolves : Bool) :
    (r.charged (r.unavailableKnown argsHash draining resolves)).Accounted := by
  unfold Request.unavailableKnown
  split_ifs
  · exact h.error (Route.countedOnce_known ..)
  · exact h.error (Route.countedOnce_known ..)
  · exact h.goes rfl

private theorem retries (h : r.Handled route) (draining : Bool) (wait : Option Bool) :
    (r.charged (r.retries draining route wait)).Accounted := by
  unfold Request.retries
  split
  · split_ifs
    · exact h.error rfl
    · exact h.goes rfl
  · split_ifs
    · exact h.error (Route.countedOnce_known ..)
    · split
      · exact h.goes rfl
      · exact h.goes rfl

private theorem rechecks (h : r.Handled (.known argsHash)) (draining : Bool) :
    (r.charged (r.rechecks argsHash draining)).Accounted := by
  unfold Request.rechecks
  split_ifs
  · exact h.error (Route.countedOnce_known ..)
  · exact h.goes rfl

private theorem remembersDenial (h : r.Handled route) (peer : String) :
    (r.remembersDenial peer).Handled route :=
  ⟨h.route, h.reply, h.counts⟩

/-- A peer's response is relayed as it comes in; its body is not read in the handler. -/
theorem relaysPeer (h : r.Handled route) (hstream : r.responseStreaming = true)
    (fallback : Option String) (status : Nat) :
    (r.charged (r.relaysPeer fallback status)).Accounted := by
  unfold Request.relaysPeer
  rw [if_pos hstream]
  exact h.streams (Or.inl rfl) (fun hsome => nomatch hsome)

private theorem settlesUnknown (h : r.Handled .unknown) {peer : String}
    {outcome : Option ForwardOutcome}
    (hstream : ∀ status, outcome = some (.streamingSurface status) → r.responseStreaming = true) :
    (r.charged (r.settlesUnknown peer outcome)).Accounted := by
  unfold Request.settlesUnknown
  split
  · exact h.relaysPeer (hstream _ rfl) _ _
  · exact h.relays (Or.inl rfl)
  · exact h.goes rfl
  · exact h.goes rfl
  · exact h.goes rfl
  · split_ifs
    · exact (h.remembersDenial peer).goes rfl
    · exact (h.remembersDenial peer).goes rfl

private theorem settlesKnown (h : r.Handled (.known argsHash)) {peer : String}
    {outcome : Option ForwardOutcome}
    (hstream : ∀ status, outcome = some (.streamingSurface status) → r.responseStreaming = true) :
    (r.charged (r.settlesKnown argsHash peer outcome)).Accounted := by
  unfold Request.settlesKnown
  split
  · exact h.relaysPeer (hstream _ rfl) _ _
  · exact h.relays (Or.inl rfl)
  · exact h.goes rfl
  · exact h.goes rfl
  · exact h.goes rfl
  · split_ifs
    · exact (h.remembersDenial peer).goes rfl
    · exact (h.remembersDenial peer).goes rfl

private theorem fallbackCounts (argsHash : String) (status : Nat) :
    fallbackCounts argsHash status = [] ∨
      (Route.known argsHash).CountedOnce (fallbackCounts argsHash status) := by
  unfold Request.fallbackCounts
  split_ifs
  · exact Or.inr (Route.countedOnce_known ..)
  · exact Or.inl rfl

/-- In the fallback an error status of the peer counts too, and its stream then counts nothing. -/
theorem settlesFallback (h : r.Handled (.known argsHash)) {outcome : Option ForwardOutcome}
    (hstream : ∀ status, outcome = some (.streamingSurface status) → r.responseStreaming = true) :
    (r.charged (r.settlesFallback argsHash outcome)).Accounted := by
  unfold Request.settlesFallback
  split
  · exact h.goes rfl
  · exact h.error (Route.countedOnce_known ..)
  · split_ifs
    · exact h.error (Route.countedOnce_known ..)
    · exact h.error (Route.countedOnce_known ..)
  · next status =>
    have hs := hstream status rfl
    unfold Request.relaysPeer
    rw [if_pos hs, if_pos hs]
    exact h.streams (fallbackCounts argsHash status) (fun hsome => nomatch hsome)
  · exact h.relays (fallbackCounts ..)
  · exact h.relays (fallbackCounts ..)

private theorem dispatched (h : r.Handled route) {parse : List UInt8 → Option Json} {site : Site}
    {peer : String} {f : Forward} {out : Request × List Count}
    (hout : r.dispatched parse site peer f = some out)
    (hfits : Point.Fits (some route) (.dispatching site peer)) : (r.charged out).Accounted := by
  have settles (outcome : Option ForwardOutcome)
      (hstream : ∀ status, outcome = some (.streamingSurface status) →
        r.responseStreaming = true) :
      (r.charged (r.settles site peer outcome)).Accounted := by
    rcases site with (_ | argsHash) | argsHash
    · obtain rfl := Option.some.inj hfits
      exact h.settlesUnknown hstream
    · obtain rfl := Option.some.inj hfits
      exact h.settlesKnown hstream
    · obtain rfl := Option.some.inj hfits
      exact h.settlesFallback hstream
  cases f with
  | clientGone =>
    obtain rfl := Option.some.inj hout
    exact h.disconnects
  | probeDenied =>
    obtain rfl := Option.some.inj hout
    exact settles none (fun _ hs => nomatch hs)
  | ended probeTicket ending =>
    simp only [Request.dispatched] at hout
    split_ifs at hout with hend
    obtain rfl := Option.some.inj hout
    exact settles _ fun status hs => streaming_of_streamingSurface hend (Option.some.inj hs)

/-- A key of a running instance always fits in the header. -/
theorem acquires (h : r.Handled (.known argsHash)) (a : Acquisition) :
    (r.charged (r.acquires argsHash a)).Accounted := by
  cases a with
  | clientGone => exact h.disconnects
  | failed e =>
    simp only [Request.acquires]
    split_ifs
    · exact h.goes rfl
    · exact h.error (Route.countedOnce_known ..)
  | acquired servedHash backendApiKey =>
    have hkey : Instance.sendable (backendApiKey.map (·.1)) = .ok (backendApiKey.map (·.1)) := by
      cases backendApiKey with
      | none => rfl
      | some key => exact key.2
    simp only [Request.acquires, Request.serves, hkey]
    exact h.goes ⟨argsHash, rfl⟩

private theorem sends (h : r.Handled (.known argsHash)) (servedHash : String) (status : Nat)
    (u : Upstream) : (r.charged (r.sends servedHash status u)).Accounted := by
  cases u with
  | clientGone => exact h.disconnects
  | failed => exact h.error (Route.countedOnce_known ..)
  | ok =>
    simp only [Request.sends]
    split_ifs
    · exact h.streams (Or.inl rfl) (fun _ => ⟨⟨argsHash, rfl⟩, rfl⟩)
    · exact h.goes ⟨argsHash, rfl⟩

private theorem reads (h : r.Handled (.known argsHash)) (servedHash : String) (status : Nat)
    (u : Upstream) : (r.charged (r.reads servedHash status u)).Accounted := by
  cases u with
  | clientGone => exact h.disconnects
  | failed => exact h.error (Route.countedOnce_known ..)
  | ok => exact h.relays (Or.inl rfl)

end Handled

/-- What is left of a stream. -/
theorem Accounted.streamFails {recorder : Option String} {errorRecorded : Bool}
    (h : r.Accounted) (hp : r.point = .streaming recorder errorRecorded) :
    (r.charged (r.streamFails recorder errorRecorded)).Accounted := by
  unfold Accounted at h
  rw [hp] at h
  obtain ⟨hreply, honce, hrecorder⟩ := h
  unfold Request.streamFails
  split_ifs with hrec
  · -- A second error adds nothing.
    have hcharged : r.charged (r.goes (.streaming recorder errorRecorded)) =
        { r with point := .streaming recorder errorRecorded } := by
      simp [charged, Request.goes]
    rw [hcharged]
    exact ⟨hreply, honce, hrecorder⟩
  · cases recorder with
    | none =>
      refine ⟨hreply, ?_, fun hsome => nomatch hsome⟩
      have hcounts : (r.charged ({ r with point := .streaming none true },
          recordLocalBodyReadError none)).counts = r.counts := by
        simp [charged, recordLocalBodyReadError]
      unfold AtMostOnce
      rw [hcounts]
      exact honce
    | some servedHash =>
      obtain ⟨⟨argsHash, hroute⟩, hnone⟩ := hrecorder rfl
      have hcounts : (r.charged ({ r with point := .streaming (some servedHash) true },
          recordLocalBodyReadError (some servedHash))).counts = [.node, .hash servedHash] := by
        simp [charged, recordLocalBodyReadError, hnone (Bool.eq_false_iff.mpr hrec)]
      refine ⟨hreply, Or.inr ⟨.known argsHash, hroute, ?_⟩, fun _ => ⟨⟨argsHash, hroute⟩, ?_⟩⟩
      · rw [hcounts]
        exact Route.countedOnce_known ..
      · exact fun hfalse => nomatch hfalse

/-- A request that is dropped, or whose stream has ended, has counted what it has. -/
theorem Accounted.ends (h : r.Accounted) : (r.charged (r.goes .done)).Accounted := by
  have hcharged : r.charged (r.goes .done) = { r with point := .done } := by
    simp [charged, Request.goes]
  rw [hcharged]
  exact h.errorsCounted_and_atMostOnce

/-- A request that has not been resolved is rejected uncounted, or gets its route. -/
theorem Accounted.resolving (h : r.Accounted) (hp : r.point = .resolving) :
    r.route = none ∧ r.reply = none ∧ r.counts = [] := by
  unfold Accounted at h
  rw [hp] at h
  exact h

/-- A served request has a model of the cookbook. -/
theorem Accounted.served (h : r.Accounted) {servedHash : String}
    (hp : r.point = .sending servedHash ∨ ∃ status, r.point = .reading servedHash status) :
    ∃ argsHash, r.Handled (.known argsHash) := by
  unfold Accounted at h
  obtain hp | ⟨status, hp⟩ := hp
  · rw [hp] at h
    obtain ⟨⟨argsHash, hroute⟩, hreply, hcounts⟩ := h
    exact ⟨argsHash, hroute, hreply, hcounts⟩
  · rw [hp] at h
    obtain ⟨⟨argsHash, hroute⟩, hreply, hcounts⟩ := h
    exact ⟨argsHash, hroute, hreply, hcounts⟩

/-- The read of a peer's body is never reached. -/
theorem Accounted.not_readingPeer (h : r.Accounted) {fallback : Option String} {status : Nat} :
    r.point ≠ .readingPeer fallback status := by
  intro hp
  unfold Accounted at h
  rw [hp] at h
  exact h.1

/-- Every answer keeps the account, at every point. -/
theorem Accounted.act (h : r.Accounted) {parse : List UInt8 → Option Json} {a : Answer}
    {out : Request × List Count} (hout : r.act parse a = some out) : (r.charged out).Accounted := by
  unfold Request.act at hout
  split at hout
  · split_ifs at hout
    obtain rfl := Option.some.inj hout
    exact h.ends
  · split at hout
    · next hp _ =>
      obtain rfl := Option.some.inj hout
      obtain ⟨-, -, hcounts⟩ := h.resolving hp
      have hnone : (r.charged (r.answers .rejected [])).counts = [] := by
        simp [charged, Request.answers, hcounts]
      exact ⟨fun _ he => (nomatch he), Or.inl hnone⟩
    · next route hp _ =>
      obtain rfl := Option.some.inj hout
      obtain ⟨-, hreply, hcounts⟩ := h.resolving hp
      have h' : ({ r with route := some route } : Request).Handled route := ⟨rfl, hreply, hcounts⟩
      exact h'.goes rfl
    · next route f hp _ =>
      obtain rfl := Option.some.inj hout
      exact (h.handledAt hp rfl fun hf => hf).routingPreflight route.countedOnce_counted rfl
    · next route hp _ =>
      obtain rfl := Option.some.inj hout
      exact (h.handledAt hp rfl fun hf => hf).goes rfl
    · next peer hp _ =>
      obtain rfl := Option.some.inj hout
      have hr : r.Handled .unknown := h.handledAt hp rfl fun hf => hf
      have h' : ({ r with modelWasFound := true } : Request).Handled .unknown :=
        ⟨hr.route, hr.reply, hr.counts⟩
      exact h'.goes rfl
    · next hp _ =>
      obtain rfl := Option.some.inj hout
      exact (h.handledAt hp rfl fun hf => hf).goes rfl
    · next hp _ =>
      obtain rfl := Option.some.inj hout
      exact (h.handledAt hp rfl fun hf => hf).goes rfl
    · next hp _ =>
      obtain rfl := Option.some.inj hout
      exact (h.handledAt hp rfl fun hf => hf).unavailableUnknown _ _
    · next hp _ =>
      obtain rfl := Option.some.inj hout
      exact (h.handledAt hp rfl fun hf => hf).unavailableKnown _ _
    · next route bounded recheck w hp _ =>
      split_ifs at hout
      obtain rfl := Option.some.inj hout
      have hnext : (afterWait route recheck).Fits (some route) := by
        unfold afterWait
        split
        · rfl
        · rfl
      exact (h.handledAt hp rfl fun hf => hf).waits route.countedOnce_counted hnext
    · next argsHash peer f hp _ =>
      obtain rfl := Option.some.inj hout
      have hnext : (chosenNext argsHash peer).Fits (some (.known argsHash)) := by
        cases peer with
        | none => rfl
        | some peer => rfl
      exact (h.handledAt hp rfl fun hf => hf).routingPreflight (Route.countedOnce_known ..) hnext
    · next site peer f hp _ =>
      obtain rfl := Option.some.inj hout
      rcases site with route | argsHash
      · exact (h.handledAt hp rfl fun hf => hf).routingPreflight route.countedOnce_counted rfl
      · exact (h.handledAt hp rfl fun hf => hf).routingPreflight (Route.countedOnce_known ..) rfl
    · next site peer f hp _ =>
      rcases site with route | argsHash
      · exact (h.handledAt hp rfl fun hf => hf).dispatched hout rfl
      · exact (h.handledAt hp rfl fun hf => hf).dispatched hout rfl
    · next hp _ =>
      obtain rfl := Option.some.inj hout
      exact (h.handledAt hp rfl fun hf => hf).retries _ _
    · next hp _ =>
      obtain rfl := Option.some.inj hout
      exact (h.handledAt hp rfl fun hf => hf).rechecks _
    · next hp _ =>
      obtain rfl := Option.some.inj hout
      exact (h.handledAt hp rfl fun hf => hf).routingPreflight (Route.countedOnce_known ..) rfl
    · next hp _ =>
      obtain rfl := Option.some.inj hout
      exact (h.handledAt hp rfl fun hf => hf).error (Route.countedOnce_known ..)
    · next hp _ =>
      obtain rfl := Option.some.inj hout
      exact (h.handledAt hp rfl fun hf => hf).goes rfl
    · next hp _ =>
      obtain rfl := Option.some.inj hout
      exact (h.handledAt hp rfl fun hf => hf).acquires _
    · next hp _ =>
      obtain rfl := Option.some.inj hout
      obtain ⟨argsHash, hr⟩ := h.served (Or.inl hp)
      exact hr.sends _ _ _
    · next hp _ =>
      obtain rfl := Option.some.inj hout
      obtain ⟨argsHash, hr⟩ := h.served (Or.inr ⟨_, hp⟩)
      exact hr.reads _ _ _
    · next hp _ => exact (h.not_readingPeer hp).elim
    · next hp _ =>
      obtain rfl := Option.some.inj hout
      exact h.streamFails hp
    · next hp _ =>
      obtain rfl := Option.some.inj hout
      exact h.ends
    · cases hout

end Request

/-! ### Whole runs -/

/-- The requests are accounted for, and the counters are the sums of what the requests counted. -/
structure Node.Accounted (n : Node) : Prop where
  requests : ∀ id r, n.requests.lookup id = some r → r.Accounted
  node : n.errorsTotal = n.requests.sum fun _ r => r.counts.count .node
  hash : ∀ argsHash,
    n.hashErrors argsHash = n.requests.sum fun _ r => r.counts.count (.hash argsHash)

/-- The node before its first request is accounted for. -/
theorem Node.accounted_init : Node.init.Accounted where
  requests _ _ h := nomatch h
  node := rfl
  hash _ := rfl

/-- A new request has counted nothing. -/
theorem Node.Accounted.arrive {n : Node} (h : n.Accounted) {id : Nat} (hid : id ∉ n.requests)
    (responseStreaming : Bool) :
    { n with requests := n.requests.insert id (.arrived responseStreaming) : Node }.Accounted where
  requests j r hr := by
    rcases Table.lookup_insert_eq_some.mp hr with ⟨-, rfl⟩ | ⟨-, hr⟩
    · exact Request.accounted_of_fits rfl rfl rfl
    · exact h.requests j r hr
  node := by
    rw [Table.sum_insert_of_notMem hid, ← h.node]
    simp [Request.arrived]
  hash argsHash := by
    rw [Table.sum_insert_of_notMem hid, ← h.hash argsHash]
    simp [Request.arrived]

/-- What a request counts is added to its own increments and to the counters. -/
theorem Node.Accounted.answer {n : Node} (h : n.Accounted) {parse : List UInt8 → Option Json}
    {id : Nat} {r : Request} {a : Answer} {out : Request × List Count}
    (hr : n.requests.lookup id = some r) (hout : r.act parse a = some out) :
    { n.counts out.2 with
      requests := n.requests.insert id (r.charged out) : Node }.Accounted where
  requests j s hs := by
    rcases Table.lookup_insert_eq_some.mp hs with ⟨-, rfl⟩ | ⟨-, hs⟩
    · exact (h.requests id r hr).act hout
    · exact h.requests j s hs
  node := by
    have hsum := Table.sum_insert_add hr (r.charged out) fun _ r => r.counts.count .node
    simp only [Request.charged, List.count_append] at hsum
    have hnode := h.node
    simp only [Node.counts, Request.charged]
    omega
  hash argsHash := by
    have hsum := Table.sum_insert_add hr (r.charged out) fun _ r => r.counts.count (.hash argsHash)
    simp only [Request.charged, List.count_append] at hsum
    have hhash := h.hash argsHash
    simp only [Node.counts, Request.charged]
    omega

/-- Every event keeps the account. -/
theorem Node.Accounted.step {n m : Node} (h : n.Accounted) {parse : List UInt8 → Option Json}
    {e : Event} (hstep : n.step parse e = some m) : m.Accounted := by
  cases e with
  | arrive id responseStreaming =>
    simp only [Node.step] at hstep
    split_ifs at hstep with hid
    obtain rfl := Option.some.inj hstep
    exact h.arrive hid responseStreaming
  | answer id a =>
    simp only [Node.step] at hstep
    split at hstep
    · cases hstep
    · next r hr =>
      split at hstep
      · cases hstep
      · next out hout =>
        obtain rfl := Option.some.inj hstep
        exact h.answer hr hout

/-- Every reachable node is accounted for. -/
theorem Node.accounted_of_reachable {parse : List UInt8 → Option Json} {n : Node}
    (h : Transition.Reachable (Node.step parse) Node.init n) : n.Accounted :=
  h.invariant (fun _ _ _ hn hstep => hn.step hstep) Node.accounted_init

/-- In every run: a request that is answered with an error of this node has counted it exactly once
for the node and, for a model of the cookbook, exactly once for a hash; no request counts an error
twice; and the counters are what the requests counted. -/
theorem errors_counted_once {parse : List UInt8 → Option Json} {n : Node}
    (h : Transition.Reachable (Node.step parse) Node.init n) :
    (∀ id r, n.requests.lookup id = some r →
      (∀ route e, r.route = some route → r.reply = some (.error e) →
        r.counts.count .node = 1 ∧ r.counts.countP Count.isHash = route.hashCount) ∧
      r.counts.count .node ≤ 1 ∧ r.counts.countP Count.isHash ≤ 1) ∧
    (n.errorsTotal = n.requests.sum fun _ r => r.counts.count .node) ∧
    ∀ argsHash,
      n.hashErrors argsHash = n.requests.sum fun _ r => r.counts.count (.hash argsHash) := by
  have hn := Node.accounted_of_reachable h
  refine ⟨fun id r hr => ⟨fun route e hroute he => ?_, ?_⟩, hn.node, hn.hash⟩
  · obtain ⟨ρ, hρ, honce⟩ := (hn.requests id r hr).errorsCounted_and_atMostOnce.1 e he
    obtain rfl : ρ = route := Option.some.inj (hρ.symm.trans hroute)
    exact honce.numbers
  · exact (hn.requests id r hr).errorsCounted_and_atMostOnce.2.numbers

/-- A request whose instance fails to start, answered with an error while another waits. -/
def failedStart : List Event :=
  [.arrive 1 false, .arrive 2 true, .answer 1 (.resolved (.known "hash")),
    .answer 2 (.resolved .unknown), .answer 1 (.flags ⟨false, false, false⟩),
    .answer 2 (.flags ⟨false, false, false⟩), .answer 1 .local,
    .answer 1 (.flags ⟨false, false, false⟩), .answer 2 (.selected none),
    .answer 1 (.acquired (.failed (.acquisition "port"))), .answer 2 (.draining false true)]

/-- The run ends with one error of the first request. -/
theorem failedStart_counted_once :
    ∃ n r, Transition.exec (Node.step fun _ => none) Node.init failedStart = some n ∧
      n.requests.lookup 1 = some r ∧ r.route = some (.known "hash") ∧
      r.reply = some (.error (.acquisition "port")) ∧
      r.counts.count .node = 1 ∧ r.counts.countP Count.isHash = 1 := by
  refine ⟨_, _, rfl, rfl, rfl, rfl, ?_⟩
  have h := @errors_counted_once (fun _ => none) _ ⟨failedStart, rfl⟩
  exact (h.1 1 _ rfl).1 (.known "hash") _ rfl rfl

end Llamesh.Router.Errors
