import Llamesh.Noise.Handshake

/-!
# What the handshake authenticates

`respond` returns `Ok` only in a session whose initiator is a node that computed the HMAC of this
session, in every run (`responder_authenticates`). `initiate` does so in runs in which no message
the initiator sent is echoed to it (`notReflected`): both directions carry the same HMAC, so a
responder without the token can send the initiator's own HMAC back.
-/

namespace Llamesh.Noise.Handshake

open Transition Text

variable {Node : Type} {c : Cluster Node} {s : Sessions Node} {hash : List UInt8} {σ : Session Node}

/-- The end is a node that computed the HMAC of the session under the cluster token, and sent it as
its message. -/
def Computed (c : Cluster Node) (hash : List UInt8) (party : Endpoint Node)
    (message : Option (List UInt8)) : Prop :=
  ∃ node hmac, party = .honest node ∧ computeTokenVerification c hash = some hmac ∧
    message = some (hmac ++ utf8Encode (c.nodeId node))

/-- Every initiator that returned `Ok` has a responder that computed the HMAC of the session. -/
def ResponderAuthentic (c : Cluster Node) (s : Sessions Node) : Prop :=
  ∀ hash σ node peer, s.lookup hash = some σ → σ.initiator = .honest node →
    σ.initiatorPc = .done (.ok peer) → Computed c hash σ.responder σ.responderMessage

/-- Every responder that returned `Ok` has an initiator that computed the HMAC of the session, and
returned the static key that the session binds to this initiator. -/
def InitiatorAuthentic (c : Cluster Node) (s : Sessions Node) : Prop :=
  ∀ hash σ node peer, s.lookup hash = some σ → σ.responder = .honest node →
    σ.responderPc = .done (.ok peer) → Computed c hash σ.initiator σ.initiatorMessage ∧
      peer.peerPublicKey = σ.initiatorKey ∧ σ.initiator.uses c σ.initiatorKey

/-- The condition on a step: the adversary does not answer an initiator with the 32 octets this
initiator's message starts with. -/
def notReflected (s : Sessions Node) : Event Node → Bool
  | .act hash (.inject .responder plaintext) => (s.lookup hash).all fun σ =>
    σ.initiatorMessage.all fun sent => sent.take 32 ≠ plaintext.take 32
  | _ => true

/-! ## The invariant -/

/-- The responder has verified the initiator's message. -/
def ResponderPc.verified : ResponderPc → Bool
  | .receiving => false
  | .sending _ => true
  | .done result => result.isOk

/-- What holds of every session. Nobody but its nodes ever has its HMAC, and a responder only sends
it to a node. -/
structure Sound (c : Cluster Node) (hash : List UInt8) (σ : Session Node) : Prop where
  keys : σ.initiator.uses c σ.initiatorKey
  initiatorSent : ∀ node payload, σ.initiator = .honest node → σ.initiatorMessage = some payload →
    tokenMessage c hash node = some payload
  initiatorForeign : ∀ plaintext, σ.initiator = .adversary →
    σ.initiatorMessage = some plaintext →
      computeTokenVerification c hash ≠ some (plaintext.take 32)
  responderSent : ∀ node payload, σ.responder = .honest node →
    σ.responderMessage = some payload → tokenMessage c hash node = some payload ∧
      σ.initiator ≠ .adversary
  responderVerified : ∀ node, σ.responder = .honest node → σ.responderPc.verified = true →
    σ.initiator ≠ .adversary ∧ σ.initiatorMessage ≠ none
  responderResult : ∀ peer, σ.responderPc = .done (.ok peer) →
    peer.peerPublicKey = σ.initiatorKey
  initiatorResult : ∀ peer, σ.initiatorPc = .done (.ok peer) → ∃ plaintext,
    σ.responderMessage = some plaintext ∧
      computeTokenVerification c hash = some (plaintext.take 32)

/-- Every session is sound, and no two sessions share an HMAC. -/
structure AllSound (c : Cluster Node) (s : Sessions Node) : Prop where
  sound : ∀ hash σ, s.lookup hash = some σ → Sound c hash σ
  distinct : ∀ hash σ hash' σ' hmac, s.lookup hash = some σ → s.lookup hash' = some σ' →
    computeTokenVerification c hash = some hmac → computeTokenVerification c hash' = some hmac →
      hash = hash'

private theorem mem_entries {e : Σ _ : List UInt8, Session Node} :
    e ∈ s.entries ↔ s.lookup e.1 = some e.2 := by
  rw [← AList.mem_lookup_iff, Option.mem_def]

private theorem Sound.take_sentToAdversary (h : Sound c hash σ) {sent : List UInt8}
    (hsent : σ.sentToAdversary = some sent) :
    computeTokenVerification c hash = some (sent.take 32) := by
  unfold Session.sentToAdversary at hsent
  split at hsent
  · next node hinitiator _ => exact take_tokenMessage (h.initiatorSent node sent hinitiator hsent)
  · next node _ hresponder =>
    exact take_tokenMessage (h.responderSent node sent hresponder hsent).1
  · cases hsent

private theorem AllSound.sentToAdversary_of_derivable (hs : AllSound c s)
    (hσ : s.lookup hash = some σ) {plaintext : List UInt8}
    (hderivable : derivable c s plaintext = true)
    (hhmac : computeTokenVerification c hash = some (plaintext.take 32)) :
    ∃ sent, σ.sentToAdversary = some sent ∧ sent.take 32 = plaintext.take 32 := by
  -- the HMACs the adversary has from other sessions are different ones
  have hall := List.all_eq_true.mp hderivable ⟨hash, σ⟩ (mem_entries.mpr hσ)
  rw [Bool.or_eq_true, decide_eq_true_eq] at hall
  have hany := hall.resolve_left (not_not.mpr hhmac)
  obtain ⟨⟨hash', σ'⟩, hmem, hsome⟩ := List.any_eq_true.mp hany
  obtain ⟨sent, hsent, htake⟩ := (Option.any_eq_true _ _).mp hsome
  have htake' : sent.take 32 = plaintext.take 32 := of_decide_eq_true htake
  have hσ' : s.lookup hash' = some σ' := mem_entries.mp hmem
  have hhmac' := (hs.sound hash' σ' hσ').take_sentToAdversary hsent
  rw [htake'] at hhmac'
  have hhash : hash' = hash := hs.distinct hash' σ' hash σ _ hσ' hσ hhmac' hhmac
  subst hhash
  obtain rfl : σ' = σ := Option.some.inj (hσ'.symm.trans hσ)
  exact ⟨sent, hsent, htake'⟩

private theorem foreign_injectInitiator (hs : AllSound c s) (hσ : s.lookup hash = some σ)
    {plaintext : List UInt8} (hderivable : derivable c s plaintext = true)
    (hend : σ.initiator = .adversary) :
    computeTokenVerification c hash ≠ some (plaintext.take 32) := by
  -- only the responder could have sent it to this end, and a responder only answers a node
  intro hhmac
  obtain ⟨sent, hsent, -⟩ := hs.sentToAdversary_of_derivable hσ hderivable hhmac
  unfold Session.sentToAdversary at hsent
  split at hsent
  · next node hinitiator _ =>
    rw [hend] at hinitiator
    cases hinitiator
  · next node _ hresponder =>
    exact ((hs.sound hash σ hσ).responderSent node sent hresponder hsent).2 hend
  · cases hsent

private theorem foreign_injectResponder (hs : AllSound c s) (hσ : s.lookup hash = some σ)
    {plaintext : List UInt8} (hderivable : derivable c s plaintext = true)
    (hend : σ.responder = .adversary)
    (hreflect : notReflected s (.act hash (.inject .responder plaintext)) = true) :
    computeTokenVerification c hash ≠ some (plaintext.take 32) := by
  intro hhmac
  obtain ⟨sent, hsent, htake⟩ := hs.sentToAdversary_of_derivable hσ hderivable hhmac
  unfold Session.sentToAdversary at hsent
  split at hsent
  · simp only [notReflected, hσ, hsent, Option.all_some, decide_eq_true_eq] at hreflect
    exact hreflect htake
  · next node _ hresponder =>
    rw [hend] at hresponder
    cases hresponder
  · cases hsent

/-! ## Steps -/

private theorem sound_effect (hs : AllSound c s) (hσ : s.lookup hash = some σ) {action : Action}
    {σ' : Session Node} (h : Effect c s hash σ action σ') : Sound c hash σ' := by
  have hsound := hs.sound hash σ hσ
  cases h with
  | initiatorFails _ e =>
    exact { hsound with initiatorResult := fun peer hpeer => by cases hpeer }
  | responderFails _ e =>
    exact { hsound with
      responderVerified := fun node _ hverified => by cases hverified
      responderResult := fun peer hpeer => by cases hpeer }
  | initiateSend node payload hend hpayload =>
    refine { hsound with
      initiatorSent := ?_
      initiatorForeign := ?_
      responderVerified := ?_
      initiatorResult := ?_ }
    · intro other sent hother hsent
      cases hsent
      rw [hend] at hother
      cases hother
      exact hpayload
    · intro plaintext hadversary
      rw [hend] at hadversary
      cases hadversary
    · intro other hother hverified
      exact ⟨(hsound.responderVerified other hother hverified).1, Option.some_ne_none payload⟩
    · intro peer hpeer
      cases hpeer
  | initiateReceive node plaintext peerNodeId hend hpc hmessage hhmac =>
    exact { hsound with initiatorResult := fun _ _ => ⟨plaintext, hmessage, hhmac⟩ }
  | respondReceive node plaintext peerNodeId hend hmessage hhmac =>
    refine { hsound with responderVerified := ?_, responderResult := ?_ }
    · intro other hother hverified
      refine ⟨?_, ?_⟩
      · intro hadversary
        exact hsound.initiatorForeign plaintext hadversary hmessage hhmac
      · show σ.initiatorMessage ≠ none
        rw [hmessage]
        exact Option.some_ne_none plaintext
    · intro peer hpeer
      cases hpeer
  | respondSend node payload peerNodeId hend hpc hpayload =>
    have hverified := hsound.responderVerified node hend (by rw [hpc]; rfl)
    refine { hsound with
      responderSent := ?_
      responderVerified := ?_
      responderResult := ?_
      initiatorResult := ?_ }
    · intro other sent hother hsent
      cases hsent
      rw [hend] at hother
      cases hother
      exact ⟨hpayload, hverified.1⟩
    · intro other hother _
      exact hverified
    · intro peer hpeer
      cases hpeer
      rfl
    · intro peer hpeer
      exact ⟨payload, rfl, take_tokenMessage hpayload⟩
  | injectInitiator plaintext hend hfirst hderivable =>
    refine { hsound with
      initiatorSent := ?_
      initiatorForeign := ?_
      responderVerified := ?_ }
    · intro node sent hnode
      rw [hend] at hnode
      cases hnode
    · intro sent _ hsent
      cases hsent
      exact foreign_injectInitiator hs hσ hderivable hend
    · intro node hnode hverified
      exact absurd hend (hsound.responderVerified node hnode hverified).1
  | injectResponder plaintext hend hfirst hderivable =>
    refine { hsound with
      responderSent := ?_
      initiatorResult := ?_ }
    · intro node payload hnode
      rw [hend] at hnode
      cases hnode
    · intro peer hpeer
      obtain ⟨received, hreceived, -⟩ := hsound.initiatorResult peer hpeer
      rw [hfirst] at hreceived
      cases hreceived

private theorem sound_connect {initiator responder : Endpoint Node}
    {initiatorKey responderKey : List UInt8} (hkey : initiator.uses c initiatorKey = true) :
    Sound c hash
      { initiator, responder, initiatorKey, responderKey
        initiatorPc := .sending, responderPc := .receiving
        initiatorMessage := none, responderMessage := none } where
  keys := hkey
  initiatorSent := by
    intro node payload _ hmessage
    cases hmessage
  initiatorForeign := by
    intro plaintext _ hmessage
    cases hmessage
  responderSent := by
    intro node payload _ hmessage
    cases hmessage
  responderVerified := by
    intro node _ hverified
    cases hverified
  responderResult := by
    intro peer hpeer
    cases hpeer
  initiatorResult := by
    intro peer hpeer
    cases hpeer

private theorem allSound_empty : AllSound c (∅ : Sessions Node) where
  sound := by
    intro hash σ hσ
    cases hσ
  distinct := by
    intro hash σ hash' σ' hmac hσ
    cases hσ

private theorem AllSound.sound_insert {σ' : Session Node} (hs : AllSound c s)
    (hsound : Sound c hash σ') (other : List UInt8) (τ : Session Node)
    (hτ : (s.insert hash σ').lookup other = some τ) : Sound c other τ := by
  rcases Table.lookup_insert_eq_some.mp hτ with ⟨rfl, rfl⟩ | ⟨-, hτ⟩
  · exact hsound
  · exact hs.sound other τ hτ

private theorem AllSound.act {σ' : Session Node} (hs : AllSound c s) (hσ : s.lookup hash = some σ)
    (hsound : Sound c hash σ') : AllSound c (s.insert hash σ') where
  sound := hs.sound_insert hsound
  distinct := by
    -- The hashes in use stay the same.
    have hused : ∀ other τ, (s.insert hash σ').lookup other = some τ →
        ∃ τ', s.lookup other = some τ' := by
      intro other τ hτ
      rcases Table.lookup_insert_eq_some.mp hτ with ⟨rfl, rfl⟩ | ⟨-, hτ⟩
      · exact ⟨σ, hσ⟩
      · exact ⟨τ, hτ⟩
    intro hash₁ σ₁ hash₂ σ₂ hmac h₁ h₂ hhmac₁ hhmac₂
    obtain ⟨τ₁, hτ₁⟩ := hused hash₁ σ₁ h₁
    obtain ⟨τ₂, hτ₂⟩ := hused hash₂ σ₂ h₂
    exact hs.distinct hash₁ τ₁ hash₂ τ₂ hmac hτ₁ hτ₂ hhmac₁ hhmac₂

private theorem AllSound.connect (hs : AllSound c s) (hfresh : fresh c s hash = true)
    (hsound : Sound c hash σ) : AllSound c (s.insert hash σ) where
  sound := hs.sound_insert hsound
  distinct := by
    have hother : ∀ other τ hmac, s.lookup other = some τ →
        computeTokenVerification c other = some hmac →
          computeTokenVerification c hash ≠ some hmac := by
      intro other τ hmac hτ hhmac heq
      rw [fresh, Bool.and_eq_true] at hfresh
      have hne := List.all_eq_true.mp hfresh.2 ⟨other, τ⟩ (mem_entries.mpr hτ)
      rw [Bool.or_eq_true, decide_eq_true_eq, decide_eq_true_eq, hhmac, heq] at hne
      exact hne.elim (fun hnone => Option.some_ne_none hmac hnone) fun hself => hself rfl
    intro hash₁ σ₁ hash₂ σ₂ hmac h₁ h₂ hhmac₁ hhmac₂
    rcases Table.lookup_insert_eq_some.mp h₁ with ⟨rfl, rfl⟩ | ⟨-, hold₁⟩
    · rcases Table.lookup_insert_eq_some.mp h₂ with ⟨rfl, rfl⟩ | ⟨-, hold₂⟩
      · rfl
      · exact absurd hhmac₁ (hother hash₂ σ₂ hmac hold₂ hhmac₂)
    · rcases Table.lookup_insert_eq_some.mp h₂ with ⟨rfl, rfl⟩ | ⟨-, hold₂⟩
      · exact absurd hhmac₂ (hother hash₁ σ₁ hmac hold₁ hhmac₁)
      · exact hs.distinct hash₁ σ₁ hash₂ σ₂ hmac hold₁ hold₂ hhmac₁ hhmac₂

/-- Every step keeps all sessions sound. -/
theorem allSound_step {event : Event Node} {t : Sessions Node} (hs : AllSound c s)
    (h : step c s event = some t) : AllSound c t := by
  cases event with
  | connect hash initiator responder initiatorKey responderKey =>
    obtain ⟨⟨hfresh, hkey, -⟩, rfl⟩ := guarded_eq_some.mp h
    exact hs.connect hfresh (sound_connect hkey)
  | act hash action =>
    obtain ⟨σ, hσ, hmap⟩ := Option.bind_eq_some_iff.mp h
    obtain ⟨σ', hact, rfl⟩ := Option.map_eq_some_iff.mp hmap
    exact hs.act hσ (sound_effect hs hσ (act_effect hact))

private theorem allSound_exec {run : List (Event Node)} {t : Sessions Node}
    (h : exec (step c) ∅ run = some t) : AllSound c t :=
  exec_invariant (fun _ _ _ hs hstep => allSound_step hs hstep) allSound_empty h

private theorem computed_of_tokenMessage {party : Endpoint Node} {message : Option (List UInt8)}
    {node : Node} {payload : List UInt8} (hparty : party = .honest node)
    (hpayload : tokenMessage c hash node = some payload) (hmessage : message = some payload) :
    Computed c hash party message := by
  obtain ⟨hmac, hhmac, rfl⟩ := Option.map_eq_some_iff.mp hpayload
  exact ⟨node, hmac, hparty, hhmac, hmessage⟩

/-! ## Two nodes -/

/-- The decoded token of the example cluster. -/
def exampleToken : List UInt8 :=
  [0x01, 0x02, 0x03, 0x04, 0x05, 0x06, 0x07, 0x08, 0x09, 0x0a, 0x0b, 0x0c, 0x0d, 0x0e, 0x0f, 0x10,
    0x11, 0x12, 0x13, 0x14, 0x15, 0x16, 0x17, 0x18, 0x19, 0x1a, 0x1b, 0x1c, 0x1d, 0x1e, 0x1f, 0x20]

/-- The handshake hash of the example session. -/
def exampleHash : List UInt8 :=
  [0xa0, 0xa1, 0xa2, 0xa3, 0xa4, 0xa5, 0xa6, 0xa7, 0xa8, 0xa9, 0xaa, 0xab, 0xac, 0xad, 0xae, 0xaf,
    0xb0, 0xb1, 0xb2, 0xb3, 0xb4, 0xb5, 0xb6, 0xb7, 0xb8, 0xb9, 0xba, 0xbb, 0xbc, 0xbd, 0xbe, 0xbf]

/-- HMAC-SHA256 of `exampleHash` under `exampleToken`. -/
def exampleHmac : List UInt8 :=
  [0x99, 0x9b, 0x1c, 0x04, 0xca, 0xdb, 0xee, 0xc1, 0x46, 0x4d, 0x5f, 0x3b, 0x74, 0x98, 0xf0, 0x43,
    0x3b, 0xdc, 0x05, 0xe3, 0x1c, 0x60, 0xf9, 0xe0, 0x9a, 0x0b, 0xa2, 0x56, 0xda, 0x94, 0x10, 0x73]

/-- A cluster of two nodes; the HMAC is the true one on the input of the example. -/
def exampleCluster : Cluster Bool where
  token := some exampleToken
  hmac := fun key message =>
    if key = exampleToken ∧ message = exampleHash then exampleHmac else List.replicate 32 0
  length_hmac := by
    intro key message
    split
    · rfl
    · exact List.length_replicate
  nodeId := fun node => if node then "node-b".toList else "node-a".toList
  publicKey := fun node => if node then List.replicate 32 0xb0 else List.replicate 32 0xa0

/-- Two nodes complete a handshake. -/
def exampleRun : List (Event Bool) :=
  [.connect exampleHash (.honest false) (.honest true) (List.replicate 32 0xa0)
      (List.replicate 32 0xb0),
    .act exampleHash .initiateSend, .act exampleHash .respondReceive,
    .act exampleHash .respondSend, .act exampleHash .initiateReceive]

/-- The initiator has returned `Ok`. -/
def InitiatorPc.accepted : InitiatorPc → Bool
  | .done result => result.isOk
  | _ => false

private theorem InitiatorPc.eq_done_of_accepted {pc : InitiatorPc} (h : pc.accepted = true) :
    ∃ peer, pc = .done (.ok peer) := by
  cases pc with
  | sending => cases h
  | receiving => cases h
  | done result =>
    cases result with
    | error e => cases h
    | ok peer => exact ⟨peer, rfl⟩

/-- The responder has returned `Ok`. -/
def ResponderPc.accepted : ResponderPc → Bool
  | .done result => result.isOk
  | _ => false

/-- Both ends of the example session have returned `Ok`. -/
def exampleDone (s : Sessions Bool) : Bool :=
  (s.lookup exampleHash).any fun σ => σ.initiatorPc.accepted && σ.responderPc.accepted

/-! ## The responder -/

/-- In every run of nodes and adversary, a responder returns `Ok` only when the remote end of its
session is a node that computed the HMAC of this session under the cluster token, and it returns the
static key bound to this session. -/
theorem responder_authenticates (run : List (Event Node)) (s : Sessions Node)
    (hrun : exec (step c) ∅ run = some s) : InitiatorAuthentic c s := by
  intro hash σ node peer hσ hend hpc
  have hsound := (allSound_exec hrun).sound hash σ hσ
  obtain ⟨hhonest, hsent⟩ := hsound.responderVerified node hend (by rw [hpc]; rfl)
  refine ⟨?_, hsound.responderResult peer hpc, hsound.keys⟩
  obtain ⟨payload, hpayload⟩ := Option.ne_none_iff_exists'.mp hsent
  cases hinitiator : σ.initiator with
  | honest initiator =>
    have hmessage := hsound.initiatorSent initiator payload hinitiator hpayload
    exact computed_of_tokenMessage rfl hmessage hpayload
  | adversary => exact absurd hinitiator hhonest

/-- The responder of the example run has authenticated its peer. -/
theorem exampleRun_authenticates_initiator :
    ∃ s, exec (step exampleCluster) ∅ exampleRun = some s ∧ exampleDone s = true ∧
      InitiatorAuthentic exampleCluster s := by
  have hrun : ((exec (step exampleCluster) ∅ exampleRun).any exampleDone) = true := by
    decide +kernel
  obtain ⟨s, hs, hdone⟩ := (Option.any_eq_true _ _).mp hrun
  exact ⟨s, hs, hdone, responder_authenticates exampleRun s hs⟩

/-! ## The initiator -/

/-- No adversary has answered an initiator with the HMAC of its session. -/
structure Unreflected (c : Cluster Node) (s : Sessions Node) : Prop where
  all : AllSound c s
  foreign : ∀ hash σ plaintext, s.lookup hash = some σ → σ.responder = .adversary →
    σ.responderMessage = some plaintext →
      computeTokenVerification c hash ≠ some (plaintext.take 32)

private theorem responder_effect {action : Action} {σ' : Session Node}
    (h : Effect c s hash σ action σ') (hend : σ'.responder = .adversary) :
    σ.responder = .adversary ∧ (σ'.responderMessage = σ.responderMessage ∨
      ∃ plaintext, action = .inject .responder plaintext ∧ derivable c s plaintext = true ∧
        σ'.responderMessage = some plaintext) := by
  cases h with
  | initiatorFails _ e => exact ⟨hend, Or.inl rfl⟩
  | responderFails _ e => exact ⟨hend, Or.inl rfl⟩
  | initiateSend node payload _ _ => exact ⟨hend, Or.inl rfl⟩
  | initiateReceive node plaintext peerNodeId _ _ _ _ => exact ⟨hend, Or.inl rfl⟩
  | respondReceive node plaintext peerNodeId _ _ _ => exact ⟨hend, Or.inl rfl⟩
  | respondSend node payload peerNodeId hnode _ _ =>
    have hadversary : σ.responder = .adversary := hend
    rw [hnode] at hadversary
    cases hadversary
  | injectInitiator plaintext _ _ _ => exact ⟨hend, Or.inl rfl⟩
  | injectResponder plaintext hresponder _ hderivable =>
    exact ⟨hresponder, Or.inr ⟨plaintext, rfl, hderivable, rfl⟩⟩

/-- Every step that does not reflect keeps the adversary's answers foreign. -/
theorem unreflected_step {event : Event Node} {t : Sessions Node} (hs : Unreflected c s)
    (hevent : notReflected s event = true) (h : step c s event = some t) : Unreflected c t where
  all := allSound_step hs.all h
  foreign := by
    intro other τ plaintext hτ hend hmessage
    cases event with
    | connect hash initiator responder initiatorKey responderKey =>
      obtain ⟨-, rfl⟩ := guarded_eq_some.mp h
      rcases Table.lookup_insert_eq_some.mp hτ with ⟨rfl, rfl⟩ | ⟨-, hold⟩
      · cases hmessage
      · exact hs.foreign other τ plaintext hold hend hmessage
    | act hash action =>
      obtain ⟨σ, hσ, hmap⟩ := Option.bind_eq_some_iff.mp h
      obtain ⟨σ', hact, rfl⟩ := Option.map_eq_some_iff.mp hmap
      rcases Table.lookup_insert_eq_some.mp hτ with ⟨rfl, rfl⟩ | ⟨-, hold⟩
      · obtain ⟨hadversary, hsame | ⟨sent, rfl, hderivable, hsent⟩⟩ :=
          responder_effect (act_effect hact) hend
        · exact hs.foreign other σ plaintext hσ hadversary (hsame ▸ hmessage)
        · rw [hsent] at hmessage
          cases hmessage
          exact foreign_injectResponder hs.all hσ hderivable hadversary hevent
      · exact hs.foreign other τ plaintext hold hend hmessage

/-- In every run in which no adversary echoes the start of an initiator's message to it, an
initiator returns `Ok` only when the responder of its session is a node that computed the HMAC of
this session under the cluster token. -/
theorem initiator_authenticates (run : List (Event Node)) (s : Sessions Node)
    (hrun : exec (step c) ∅ run = some s)
    (hreflect : Along (step c) (fun s event => notReflected s event = true) ∅ run) :
    ResponderAuthentic c s := by
  have hempty : Unreflected c (∅ : Sessions Node) := by
    refine ⟨allSound_empty, ?_⟩
    intro hash σ plaintext hσ
    cases hσ
  have hs : Unreflected c s := exec_invariant_along
    (fun _ _ _ hs hevent hstep => unreflected_step hs hevent hstep) hempty hreflect hrun
  intro hash σ node peer hσ hend hpc
  have hsound := hs.all.sound hash σ hσ
  obtain ⟨plaintext, hmessage, hhmac⟩ := hsound.initiatorResult peer hpc
  cases hresponder : σ.responder with
  | honest responder =>
    have hpayload := (hsound.responderSent responder plaintext hresponder hmessage).1
    exact computed_of_tokenMessage rfl hpayload hmessage
  | adversary => exact absurd hhmac (hs.foreign hash σ plaintext hσ hresponder hmessage)

/-- The initiator of the example run has authenticated its peer. -/
theorem exampleRun_authenticates_responder :
    ∃ s, exec (step exampleCluster) ∅ exampleRun = some s ∧ exampleDone s = true ∧
      ResponderAuthentic exampleCluster s := by
  have hrun : ((exec (step exampleCluster) ∅ exampleRun).any exampleDone) = true := by
    decide +kernel
  have hreflect : Along (step exampleCluster) (fun s event => notReflected s event = true) ∅
      exampleRun :=
    along_of_checkAlong (by decide +kernel)
  obtain ⟨s, hs, hdone⟩ := (Option.any_eq_true _ _).mp hrun
  exact ⟨s, hs, hdone, initiator_authenticates exampleRun s hs hreflect⟩

/-- A responder that does not hold the token sends the initiator's HMAC back, with a node id of its
choice. -/
def reflectingRun : List (Event Bool) :=
  [.connect exampleHash (.honest false) .adversary (List.replicate 32 0xa0)
      (List.replicate 32 0xee),
    .act exampleHash .initiateSend,
    .act exampleHash (.inject .responder (exampleHmac ++ utf8Encode "node-b".toList)),
    .act exampleHash .initiateReceive]

/-- The initiator accepts an adversary as its peer: no node computed an HMAC as the responder. -/
theorem reflected_hmac_accepted :
    ∃ s, exec (step exampleCluster) ∅ reflectingRun = some s ∧
      ¬ ResponderAuthentic exampleCluster s := by
  have hrun : ((exec (step exampleCluster) ∅ reflectingRun).any fun s =>
      (s.lookup exampleHash).any fun σ =>
        !σ.initiator.isAdversary && σ.responder.isAdversary && σ.initiatorPc.accepted) = true := by
    decide +kernel
  obtain ⟨s, hs, hsession⟩ := (Option.any_eq_true _ _).mp hrun
  refine ⟨s, hs, ?_⟩
  intro hauthentic
  obtain ⟨σ, hσ, hends⟩ := (Option.any_eq_true _ _).mp hsession
  rw [Bool.and_eq_true, Bool.and_eq_true] at hends
  obtain ⟨⟨hinitiator, hresponder⟩, haccepted⟩ := hends
  obtain ⟨peer, hpc⟩ := InitiatorPc.eq_done_of_accepted haccepted
  cases hnode : σ.initiator with
  | adversary =>
    rw [hnode] at hinitiator
    cases hinitiator
  | honest node =>
    obtain ⟨responder, -, hhonest, -⟩ := hauthentic exampleHash σ node peer hσ hnode hpc
    rw [hhonest] at hresponder
    cases hresponder

end Llamesh.Noise.Handshake
