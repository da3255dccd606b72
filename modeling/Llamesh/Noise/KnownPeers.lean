import Llamesh.Library.Run
import Llamesh.Library.Table
import Llamesh.Library.Text

/-!
# Known peers

The store of trusted peer keys (`src/noise/known_peers.rs`). `verify_peer` checks the store under
its read lock, and a first contact then inserts under the write lock and saves the file; between
the two locks any other call may run. `step` is one such section of one call, so a run is an
interleaving of any number of calls. `remove` is the operation of the peer management CLI.

A call succeeds when it returns `Ok`; the history keeps the returns and the removals, newest first.
The file a save writes is the subject of `Llamesh.Noise.Persistence`; here a save either works or
fails, and a failed one leaves the inserted entry in the store.
-/

namespace Llamesh.Noise

open Transition

/-- A known peer; `first_seen` is counted in seconds. `src/noise/known_peers.rs:19–24`. -/
structure KnownPeer where
  nodeId : List Char
  publicKey : List Char
  firstSeen : Nat
deriving DecidableEq

/-- The peers map. -/
abbrev Peers := Table (List Char) KnownPeer

/-- What is made of the key of a peer. `src/noise/known_peers.rs:27–37`. -/
inductive TrustDecision where
  | trusted
  | tofuAccepted
  | rejected
  | keyMismatch (known : List Char)
deriving DecidableEq

/-- The trust fields of `ClusterNoiseConfig`; `src/config.rs:635,651`. -/
structure ClusterNoiseConfig where
  tofu : Bool
  allowedKeys : List (List Char)
deriving DecidableEq

/-- The errors of `verify_peer`. -/
inductive NoiseError where
  | peerNotAllowed (nodeId key : List Char)
  | keyMismatch (nodeId presented known : List Char)
  | io
deriving DecidableEq

/-- Rewrites the legacy prefix of a key; `src/noise/known_peers.rs:216–222`. -/
def normalizePublicKey (key : List Char) : List Char :=
  match Text.stripPrefix "ed25519:".toList key with
  | some value => "noise25519:".toList ++ value
  | none => key

/-- `check_peer`: pinning first, then the store, then TOFU;
`src/noise/known_peers.rs:119–162`. -/
def checkPeer (peers : Peers) (nodeId publicKey : List Char) (tofuEnabled : Bool)
    (allowedKeys : List (List Char)) : TrustDecision :=
  let presented := normalizePublicKey publicKey
  if allowedKeys ≠ [] ∧ ¬ allowedKeys.any (fun key => normalizePublicKey key = presented) then
    .rejected
  else match peers.lookup nodeId with
    | some known =>
      if normalizePublicKey known.publicKey = presented then .trusted
      else .keyMismatch known.publicKey
    | none =>
      if allowedKeys ≠ [] then .tofuAccepted
      else if tofuEnabled then .tofuAccepted
      else .rejected

/-- The arguments of a `verify_peer` call. -/
structure Verification where
  nodeId : List Char
  publicKey : List Char
  config : ClusterNoiseConfig
deriving DecidableEq

/-- Where a call stands: before the read lock, before the write lock, before the save of its entry,
and before its return. -/
inductive Pc where
  | checking
  | inserting
  | saving
  | returning (result : Except NoiseError Unit)
deriving DecidableEq

/-- A call under way. -/
structure Call where
  request : Verification
  pc : Pc
deriving DecidableEq

/-- What the callers of the store observe. -/
inductive Event where
  | succeeded (request : Verification)
  | removed (nodeId : List Char)
deriving DecidableEq

/-- The store, the calls under way and the events so far, newest first. -/
structure State where
  peers : Peers
  calls : Table Nat Call
  history : List Event

/-- A store as it was loaded. -/
def init (peers : Peers) : State := ⟨peers, ∅, []⟩

/-- The sections of a call, and the removal of an entry. -/
inductive Label where
  | call (c : Nat) (request : Verification)
  | check (c : Nat)
  | insert (c : Nat) (now : Nat)
  | save (c : Nat) (written : Bool)
  | ret (c : Nat)
  | remove (nodeId : List Char)

/-- What `verify_peer` does with the decision of `check_peer`;
`src/noise/known_peers.rs:233–259`. -/
def afterCheck (request : Verification) : TrustDecision → Pc
  | .trusted => .returning (.ok ())
  | .tofuAccepted => .inserting
  | .rejected => .returning (.error (.peerNotAllowed request.nodeId request.publicKey))
  | .keyMismatch known =>
    .returning (.error (.keyMismatch request.nodeId request.publicKey known))

/-- Moves call `c` on. -/
def State.move (s : State) (c : Nat) (call : Call) (pc : Pc) : State :=
  { s with calls := s.calls.insert c { call with pc } }

/-- One section of one call. `src/noise/known_peers.rs:165–214,225–260`. -/
def step (s : State) : Label → Option State
  | .call c request =>
    guarded (s.calls.lookup c = none) { s with calls := s.calls.insert c ⟨request, .checking⟩ }
  | .check c => (s.calls.lookup c).bind fun call =>
    guarded (call.pc = .checking) <|
      s.move c call <| afterCheck call.request <|
        checkPeer s.peers call.request.nodeId call.request.publicKey call.request.config.tofu
          call.request.config.allowedKeys
  | .insert c now => (s.calls.lookup c).bind fun call =>
    guarded (call.pc = .inserting) <|
      { s with peers := s.peers.insert call.request.nodeId
                 ⟨call.request.nodeId, call.request.publicKey, now⟩ }.move c call .saving
  | .save c written => (s.calls.lookup c).bind fun call =>
    guarded (call.pc = .saving) <|
      s.move c call (.returning (if written then .ok () else .error .io))
  | .ret c => (s.calls.lookup c).bind fun call =>
    match call.pc with
    | .returning (.ok ()) => some { s with
        calls := s.calls.erase c, history := .succeeded call.request :: s.history }
    | .returning (.error _) => some { s with calls := s.calls.erase c }
    | _ => none
  | .remove nodeId => match s.peers.lookup nodeId with
    | some _ => some { s with
        peers := s.peers.erase nodeId, history := .removed nodeId :: s.history }
    | none => some s

/-- Everything a step can do. -/
inductive Change (s : State) : Label → State → Prop
  | call {c r} : s.calls.lookup c = none →
      Change s (.call c r) { s with calls := s.calls.insert c ⟨r, .checking⟩ }
  | check {c r} : s.calls.lookup c = some ⟨r, .checking⟩ →
      Change s (.check c) (s.move c ⟨r, .checking⟩ (afterCheck r
        (checkPeer s.peers r.nodeId r.publicKey r.config.tofu r.config.allowedKeys)))
  | insert {c r now} : s.calls.lookup c = some ⟨r, .inserting⟩ →
      Change s (.insert c now)
        ({ s with peers := s.peers.insert r.nodeId ⟨r.nodeId, r.publicKey, now⟩ }.move c
          ⟨r, .inserting⟩ .saving)
  | save {c r written} : s.calls.lookup c = some ⟨r, .saving⟩ →
      Change s (.save c written) (s.move c ⟨r, .saving⟩
        (.returning (if written then .ok () else .error .io)))
  | succeed {c r} : s.calls.lookup c = some ⟨r, .returning (.ok ())⟩ →
      Change s (.ret c) { s with
        calls := s.calls.erase c, history := .succeeded r :: s.history }
  | fail {c r e} : s.calls.lookup c = some ⟨r, .returning (.error e)⟩ →
      Change s (.ret c) { s with calls := s.calls.erase c }
  | remove {nodeId known} : s.peers.lookup nodeId = some known →
      Change s (.remove nodeId) { s with
        peers := s.peers.erase nodeId, history := .removed nodeId :: s.history }
  | absent {nodeId} : s.peers.lookup nodeId = none → Change s (.remove nodeId) s

/-- Every step is one of the changes. -/
theorem step_change {s t : State} {l : Label} (h : step s l = some t) : Change s l t := by
  cases l with
  | call c r =>
    rw [step, guarded_eq_some] at h
    obtain ⟨hnone, rfl⟩ := h
    exact .call hnone
  | check c =>
    simp only [step, Option.bind_eq_some_iff, guarded_eq_some] at h
    obtain ⟨⟨r, pc⟩, hcall, rfl, rfl⟩ := h
    exact .check hcall
  | insert c now =>
    simp only [step, Option.bind_eq_some_iff, guarded_eq_some] at h
    obtain ⟨⟨r, pc⟩, hcall, rfl, rfl⟩ := h
    exact .insert hcall
  | save c written =>
    simp only [step, Option.bind_eq_some_iff, guarded_eq_some] at h
    obtain ⟨⟨r, pc⟩, hcall, rfl, rfl⟩ := h
    exact .save hcall
  | ret c =>
    simp only [step, Option.bind_eq_some_iff] at h
    obtain ⟨⟨r, pc⟩, hcall, h⟩ := h
    dsimp only at h
    split at h
    · cases h
      exact .succeed hcall
    · cases h
      exact .fail hcall
    · cases h
  | remove nodeId =>
    simp only [step] at h
    split at h
    · next known hknown =>
      cases h
      exact .remove hknown
    · next hnone =>
      cases h
      exact .absent hnone

end Llamesh.Noise
