import Llamesh.Library.Run
import Llamesh.Library.Table
import Llamesh.Library.Utf8

/-!
# The Noise handshake with a network adversary

`initiate` and `respond` run a Noise XX handshake and then exchange one message in each direction:
the HMAC of the handshake hash under the cluster token, and the node id
(`src/noise/handshake.rs:103–296`).

The model is symbolic in the cryptography and exact in the code. The XX handshake of the `snow`
crate gives the two ends of a session one fresh hash and each end the static key of the other; the
channel after it is only readable and writable by the two ends. The adversary is any party that does
not hold the token. It may be an end of any number of sessions, cut any connection, and write
whatever it can derive: everything but the HMAC of a session that no node has sent it.
-/

namespace Llamesh.Noise.Handshake

open Transition Text

/-- What the nodes of a cluster share, and what each node brings: `token` is the decoded cluster
token, `none` when `token::decode` rejects it. -/
structure Cluster (Node : Type) where
  token : Option (List UInt8)
  hmac : List UInt8 → List UInt8 → List UInt8
  length_hmac : ∀ key message, (hmac key message).length = 32
  nodeId : Node → List Char
  publicKey : Node → List UInt8

/-- The errors of `initiate` and `respond`. -/
inductive HandshakeError where
  | io
  | handshakeFailed
  | bufferTooSmall
  | tokenSendFailed
  | tokenRecvFailed
  | tokenMessageTooShort
  | tokenResponseTooShort
  | invalidToken
  | tokenVerificationFailed
deriving DecidableEq

/-- What a completed handshake returns of the peer; `src/noise/handshake.rs:36–41`. -/
structure NoiseSession where
  peerPublicKey : List UInt8
  peerNodeId : List Char
deriving DecidableEq

/-! ## The token exchange -/

section Code

variable {Node : Type} (c : Cluster Node)

/-- `compute_token_verification` under the cluster token; `src/noise/handshake.rs:104–108`. -/
def computeTokenVerification (hash : List UInt8) : Option (List UInt8) :=
  c.token.map fun token => c.hmac token hash

/-- `verify_token`; `src/noise/handshake.rs:111–121`. -/
def verifyToken (expected received : List UInt8) : Bool :=
  if expected.length ≠ received.length then false
  else (expected.zip received).foldl (fun result (a, b) => result ||| (a ^^^ b)) 0 = 0

/-- The plaintext both sides send, if the token decodes;
`src/noise/handshake.rs:191–193`, `src/noise/handshake.rs:256–258`. -/
def tokenMessage (hash : List UInt8) (node : Node) : Option (List UInt8) :=
  (computeTokenVerification c hash).map fun hmac => hmac ++ utf8Encode (c.nodeId node)

/-- Writes the token message: `snow` takes at most 65535 octets with the tag;
`src/noise/handshake.rs:195–199`, `src/noise/handshake.rs:260–264`. -/
def sendToken (hash : List UInt8) (node : Node) : Except HandshakeError (List UInt8) :=
  match tokenMessage c hash node with
  | none => .error .invalidToken
  | some payload => if payload.length + 16 > 65535 then .error .tokenSendFailed else .ok payload

/-- Reads the token message of the peer: `recv_message` into 1024 octets, the length check of the
side that reads, the HMAC, and the node id after it;
`src/noise/handshake.rs:169–188`, `src/noise/handshake.rs:266–283`. -/
def recvToken (tooShort : HandshakeError) (hash plaintext : List UInt8) :
    Except HandshakeError (List Char) :=
  if plaintext.length + 16 > 1024 then .error .bufferTooSmall
  else if plaintext.length < 32 then .error tooShort
  else match computeTokenVerification c hash with
    | none => .error .invalidToken
    | some expected =>
      if verifyToken expected (plaintext.take 32) then .ok (fromUtf8Lossy (plaintext.drop 32))
      else .error .tokenVerificationFailed

end Code

/-! ## Sessions -/

/-- Who holds an end of a session. -/
inductive Endpoint (Node : Type) where
  | honest (node : Node)
  | adversary
deriving DecidableEq

inductive Role where
  | initiator
  | responder
deriving DecidableEq

/-- An honest initiator after the XX handshake. -/
inductive InitiatorPc where
  | sending
  | receiving
  | done (result : Except HandshakeError NoiseSession)

/-- An honest responder after the XX handshake. -/
inductive ResponderPc where
  | receiving
  | sending (peerNodeId : List Char)
  | done (result : Except HandshakeError NoiseSession)

/-- A session: its ends, the static keys it binds, and the one plaintext each end sends. -/
structure Session (Node : Type) where
  initiator : Endpoint Node
  responder : Endpoint Node
  initiatorKey : List UInt8
  responderKey : List UInt8
  initiatorPc : InitiatorPc
  responderPc : ResponderPc
  initiatorMessage : Option (List UInt8)
  responderMessage : Option (List UInt8)

/-- All sessions, by their handshake hash. -/
abbrev Sessions (Node : Type) := Table (List UInt8) (Session Node)

/-- What an end of a session does next. -/
inductive Action where
  | initiateSend
  | initiateReceive
  | respondReceive
  | respondSend
  | inject (role : Role) (plaintext : List UInt8)
  | abort (role : Role) (error : HandshakeError)

/-- A completed XX handshake, or an action on a session. -/
inductive Event (Node : Type) where
  | connect (hash : List UInt8) (initiator responder : Endpoint Node)
      (initiatorKey responderKey : List UInt8)
  | act (hash : List UInt8) (action : Action)

/-! ## Steps -/

section Steps

variable {Node : Type} (c : Cluster Node)

def Endpoint.isAdversary : Endpoint Node → Bool
  | .honest _ => false
  | .adversary => true

/-- An honest end uses its own static key. -/
def Endpoint.uses (key : List UInt8) : Endpoint Node → Bool
  | .honest node => key = c.publicKey node
  | .adversary => true

/-- The message a node has sent to the adversary in a session. -/
def Session.sentToAdversary (σ : Session Node) : Option (List UInt8) :=
  match σ.initiator, σ.responder with
  | .honest _, .adversary => σ.initiatorMessage
  | .adversary, .honest _ => σ.responderMessage
  | _, _ => none

/-- A plaintext that can be written without the token: it does not start with the HMAC of a session,
or these 32 octets were sent to the adversary. -/
def derivable (s : Sessions Node) (plaintext : List UInt8) : Bool :=
  s.entries.all fun e => computeTokenVerification c e.1 ≠ some (plaintext.take 32) ||
    s.entries.any fun other => other.2.sentToAdversary.any fun sent =>
      sent.take 32 = plaintext.take 32

/-- A hash that no session has, and whose HMAC is that of no session. -/
def fresh (s : Sessions Node) (hash : List UInt8) : Bool :=
  hash ∉ s.keys && s.entries.all fun e =>
    computeTokenVerification c e.1 = none ||
      computeTokenVerification c e.1 ≠ computeTokenVerification c hash

/-- `initiate`, from the completed XX handshake to the token message it sends;
`src/noise/handshake.rs:255–264`. -/
def initiateSend (hash : List UInt8) (σ : Session Node) : Option (Session Node) :=
  match σ.initiator, σ.initiatorPc with
  | .honest node, .sending =>
    match sendToken c hash node with
    | .error e => some { σ with initiatorPc := .done (.error e) }
    | .ok payload => some { σ with initiatorPc := .receiving, initiatorMessage := some payload }
  | _, _ => none

/-- `initiate`, from the token message it receives to its result;
`src/noise/handshake.rs:266–295`. -/
def initiateReceive (hash : List UInt8) (σ : Session Node) : Option (Session Node) :=
  match σ.initiator, σ.initiatorPc, σ.responderMessage with
  | .honest _, .receiving, some plaintext =>
    match recvToken c .tokenResponseTooShort hash plaintext with
    | .error e => some { σ with initiatorPc := .done (.error e) }
    | .ok peerNodeId => some { σ with initiatorPc := .done (.ok ⟨σ.responderKey, peerNodeId⟩) }
  | _, _, _ => none

/-- `respond`, from the completed XX handshake to the peer's node id;
`src/noise/handshake.rs:169–188`. -/
def respondReceive (hash : List UInt8) (σ : Session Node) : Option (Session Node) :=
  match σ.responder, σ.responderPc, σ.initiatorMessage with
  | .honest _, .receiving, some plaintext =>
    match recvToken c .tokenMessageTooShort hash plaintext with
    | .error e => some { σ with responderPc := .done (.error e) }
    | .ok peerNodeId => some { σ with responderPc := .sending peerNodeId }
  | _, _, _ => none

/-- `respond`, from its own token message to its result; `src/noise/handshake.rs:190–211`. -/
def respondSend (hash : List UInt8) (σ : Session Node) : Option (Session Node) :=
  match σ.responder, σ.responderPc with
  | .honest node, .sending peerNodeId =>
    match sendToken c hash node with
    | .error e => some { σ with responderPc := .done (.error e) }
    | .ok payload => some { σ with
        responderPc := .done (.ok ⟨σ.initiatorKey, peerNodeId⟩)
        responderMessage := some payload }
  | _, _ => none

/-- The adversary writes the first message of its end. -/
def inject (s : Sessions Node) (σ : Session Node) (plaintext : List UInt8) :
    Role → Option (Session Node)
  | .initiator =>
    guarded (σ.initiator.isAdversary ∧ σ.initiatorMessage.isNone ∧ derivable c s plaintext)
      { σ with initiatorMessage := some plaintext }
  | .responder =>
    guarded (σ.responder.isAdversary ∧ σ.responderMessage.isNone ∧ derivable c s plaintext)
      { σ with responderMessage := some plaintext }

/-- A node gives up: the connection is cut, or what it reads was not written by its peer. -/
def abort (σ : Session Node) (e : HandshakeError) : Role → Option (Session Node)
  | .initiator =>
    match σ.initiator, σ.initiatorPc with
    | .honest _, .done _ => none
    | .honest _, _ => some { σ with initiatorPc := .done (.error e) }
    | .adversary, _ => none
  | .responder =>
    match σ.responder, σ.responderPc with
    | .honest _, .done _ => none
    | .honest _, _ => some { σ with responderPc := .done (.error e) }
    | .adversary, _ => none

/-- The session after an action of one of its ends; `none` when the end cannot take it. -/
def act (s : Sessions Node) (hash : List UInt8) (σ : Session Node) : Action → Option (Session Node)
  | .initiateSend => initiateSend c hash σ
  | .initiateReceive => initiateReceive c hash σ
  | .respondReceive => respondReceive c hash σ
  | .respondSend => respondSend c hash σ
  | .inject role plaintext => inject c s σ plaintext role
  | .abort role e => abort σ e role

/-- One step of the nodes and the adversary. -/
def step (s : Sessions Node) : Event Node → Option (Sessions Node)
  | .connect hash initiator responder initiatorKey responderKey =>
    guarded (fresh c s hash ∧ initiator.uses c initiatorKey ∧ responder.uses c responderKey)
      (s.insert hash
        { initiator, responder, initiatorKey, responderKey
          initiatorPc := .sending, responderPc := .receiving
          initiatorMessage := none, responderMessage := none })
  | .act hash action =>
    (s.lookup hash).bind fun σ => (act c s hash σ action).map fun σ => s.insert hash σ

/-! ## What the code decides -/

private theorem foldl_or_eq_zero (pairs : List (UInt8 × UInt8)) (acc : UInt8) :
    pairs.foldl (fun result (a, b) => result ||| (a ^^^ b)) acc = 0 ↔
      acc = 0 ∧ ∀ pair ∈ pairs, pair.1 = pair.2 := by
  induction pairs generalizing acc with
  | nil => simp
  | cons pair pairs ih =>
    rw [List.foldl_cons, ih, UInt8.or_eq_zero_iff, UInt8.xor_eq_zero_iff, List.forall_mem_cons,
      and_assoc]

private theorem forall_mem_zip {xs ys : List UInt8} (hlength : xs.length = ys.length) :
    (∀ pair ∈ xs.zip ys, pair.1 = pair.2) ↔ xs = ys := by
  induction xs generalizing ys with
  | nil =>
    have hnil : ys = [] := List.length_eq_zero_iff.mp hlength.symm
    simp [hnil]
  | cons x xs ih =>
    cases ys with
    | nil => simp at hlength
    | cons y ys =>
      rw [List.zip_cons_cons, List.forall_mem_cons, ih (Nat.succ.inj hlength), List.cons.injEq]

/-- The comparison accepts the expected octets and nothing else. -/
theorem verifyToken_iff (expected received : List UInt8) :
    verifyToken expected received = true ↔ expected = received := by
  unfold verifyToken
  by_cases hlength : expected.length = received.length
  · rw [if_neg (not_not.mpr hlength), decide_eq_true_eq, foldl_or_eq_zero, forall_mem_zip hlength]
    simp
  · rw [if_pos hlength]
    constructor
    · intro h
      cases h
    · intro h
      exact absurd (congrArg List.length h) hlength

variable {c}

/-- A message is accepted only if it starts with the HMAC of the session. -/
theorem recvToken_eq_ok {tooShort : HandshakeError} {hash plaintext : List UInt8}
    {peerNodeId : List Char} (h : recvToken c tooShort hash plaintext = .ok peerNodeId) :
    computeTokenVerification c hash = some (plaintext.take 32) := by
  unfold recvToken at h
  split at h
  · cases h
  · split at h
    · cases h
    · split at h
      · cases h
      · next expected hexpected =>
        split at h
        · next hverify => rw [hexpected, (verifyToken_iff _ _).mp hverify]
        · cases h

private theorem sendToken_eq_ok {hash payload : List UInt8} {node : Node}
    (h : sendToken c hash node = .ok payload) : tokenMessage c hash node = some payload := by
  unfold sendToken at h
  split at h
  · cases h
  · next message hmessage =>
    split at h
    · cases h
    · cases h
      exact hmessage

/-- A token message starts with the HMAC of its session. -/
theorem take_tokenMessage {hash payload : List UInt8} {node : Node}
    (h : tokenMessage c hash node = some payload) :
    computeTokenVerification c hash = some (payload.take 32) := by
  obtain ⟨hmac, hhmac, rfl⟩ := Option.map_eq_some_iff.mp h
  have hlength : hmac.length = 32 := by
    obtain ⟨token, -, rfl⟩ := Option.map_eq_some_iff.mp hhmac
    exact c.length_hmac token hash
  rw [hhmac, ← hlength, List.take_left]

/-! ## What a step does -/

/-- What an action does to its session, and when. -/
inductive Effect (c : Cluster Node) (s : Sessions Node) (hash : List UInt8) (σ : Session Node) :
    Action → Session Node → Prop
  | initiatorFails (action : Action) (e : HandshakeError) :
      Effect c s hash σ action { σ with initiatorPc := .done (.error e) }
  | responderFails (action : Action) (e : HandshakeError) :
      Effect c s hash σ action { σ with responderPc := .done (.error e) }
  | initiateSend (node : Node) (payload : List UInt8) (hend : σ.initiator = .honest node)
      (hpayload : tokenMessage c hash node = some payload) :
      Effect c s hash σ .initiateSend
        { σ with initiatorPc := .receiving, initiatorMessage := some payload }
  | initiateReceive (node : Node) (plaintext : List UInt8) (peerNodeId : List Char)
      (hend : σ.initiator = .honest node) (hpc : σ.initiatorPc = .receiving)
      (hmessage : σ.responderMessage = some plaintext)
      (hhmac : computeTokenVerification c hash = some (plaintext.take 32)) :
      Effect c s hash σ .initiateReceive
        { σ with initiatorPc := .done (.ok ⟨σ.responderKey, peerNodeId⟩) }
  | respondReceive (node : Node) (plaintext : List UInt8) (peerNodeId : List Char)
      (hend : σ.responder = .honest node) (hmessage : σ.initiatorMessage = some plaintext)
      (hhmac : computeTokenVerification c hash = some (plaintext.take 32)) :
      Effect c s hash σ .respondReceive { σ with responderPc := .sending peerNodeId }
  | respondSend (node : Node) (payload : List UInt8) (peerNodeId : List Char)
      (hend : σ.responder = .honest node) (hpc : σ.responderPc = .sending peerNodeId)
      (hpayload : tokenMessage c hash node = some payload) :
      Effect c s hash σ .respondSend
        { σ with
          responderPc := .done (.ok ⟨σ.initiatorKey, peerNodeId⟩)
          responderMessage := some payload }
  | injectInitiator (plaintext : List UInt8) (hend : σ.initiator = .adversary)
      (hfirst : σ.initiatorMessage = none) (hderivable : derivable c s plaintext = true) :
      Effect c s hash σ (.inject .initiator plaintext) { σ with initiatorMessage := some plaintext }
  | injectResponder (plaintext : List UInt8) (hend : σ.responder = .adversary)
      (hfirst : σ.responderMessage = none) (hderivable : derivable c s plaintext = true) :
      Effect c s hash σ (.inject .responder plaintext) { σ with responderMessage := some plaintext }

private theorem eq_adversary {e : Endpoint Node} (h : e.isAdversary = true) : e = .adversary := by
  cases e with
  | honest node => cases h
  | adversary => rfl

variable {s : Sessions Node} {hash : List UInt8} {σ σ' : Session Node}

private theorem initiateSend_effect (h : initiateSend c hash σ = some σ') :
    Effect c s hash σ .initiateSend σ' := by
  unfold initiateSend at h
  split at h
  · next node hend hpc =>
    split at h
    · next e _ =>
      cases h
      exact .initiatorFails _ e
    · next payload hsend =>
      cases h
      exact .initiateSend node payload hend (sendToken_eq_ok hsend)
  · cases h

private theorem initiateReceive_effect (h : initiateReceive c hash σ = some σ') :
    Effect c s hash σ .initiateReceive σ' := by
  unfold initiateReceive at h
  split at h
  · next node plaintext hend hpc hmessage =>
    split at h
    · next e _ =>
      cases h
      exact .initiatorFails _ e
    · next peerNodeId hrecv =>
      cases h
      exact .initiateReceive node plaintext peerNodeId hend hpc hmessage (recvToken_eq_ok hrecv)
  · cases h

private theorem respondReceive_effect (h : respondReceive c hash σ = some σ') :
    Effect c s hash σ .respondReceive σ' := by
  unfold respondReceive at h
  split at h
  · next node plaintext hend hpc hmessage =>
    split at h
    · next e _ =>
      cases h
      exact .responderFails _ e
    · next peerNodeId hrecv =>
      cases h
      exact .respondReceive node plaintext peerNodeId hend hmessage (recvToken_eq_ok hrecv)
  · cases h

private theorem respondSend_effect (h : respondSend c hash σ = some σ') :
    Effect c s hash σ .respondSend σ' := by
  unfold respondSend at h
  split at h
  · next node peerNodeId hend hpc =>
    split at h
    · next e _ =>
      cases h
      exact .responderFails _ e
    · next payload hsend =>
      cases h
      exact .respondSend node payload peerNodeId hend hpc (sendToken_eq_ok hsend)
  · cases h

private theorem inject_effect {plaintext : List UInt8} {role : Role}
    (h : inject c s σ plaintext role = some σ') :
    Effect c s hash σ (.inject role plaintext) σ' := by
  cases role with
  | initiator =>
    obtain ⟨⟨hend, hfirst, hderivable⟩, rfl⟩ := guarded_eq_some.mp h
    exact .injectInitiator plaintext (eq_adversary hend) (Option.isNone_iff_eq_none.mp hfirst)
      hderivable
  | responder =>
    obtain ⟨⟨hend, hfirst, hderivable⟩, rfl⟩ := guarded_eq_some.mp h
    exact .injectResponder plaintext (eq_adversary hend) (Option.isNone_iff_eq_none.mp hfirst)
      hderivable

private theorem abort_effect {e : HandshakeError} {role : Role}
    (h : abort σ e role = some σ') : Effect c s hash σ (.abort role e) σ' := by
  cases role with
  | initiator =>
    simp only [abort] at h
    split at h
    · cases h
    · cases h
      exact .initiatorFails _ e
    · cases h
  | responder =>
    simp only [abort] at h
    split at h
    · cases h
    · cases h
      exact .responderFails _ e
    · cases h

/-- Every action has one of the effects. -/
theorem act_effect {action : Action} (h : act c s hash σ action = some σ') :
    Effect c s hash σ action σ' := by
  cases action with
  | initiateSend => exact initiateSend_effect h
  | initiateReceive => exact initiateReceive_effect h
  | respondReceive => exact respondReceive_effect h
  | respondSend => exact respondSend_effect h
  | inject role plaintext => exact inject_effect h
  | abort role e => exact abort_effect h

end Steps

end Llamesh.Noise.Handshake
