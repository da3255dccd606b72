import Llamesh.Noise.KnownPeers

/-!
# Stability of trusted keys

Two guarantees of `verify_peer` over every interleaving of calls on one store. A non-empty
`allowed_keys` admits only the keys it lists, always. One key per node id (`KeyStable`) holds in
runs in which no first contact overwrites an entry with another key and no entry is removed under a
call that has decided but not returned (`Orderly`): the check and the insert are taken under
separate locks, so two first contacts of one id can both pass the check.
-/

namespace Llamesh.Noise

open Transition

/-- The normalised key of the request is among the pinned ones, when there are any. -/
def Verification.Pinned (r : Verification) : Prop :=
  r.config.allowedKeys ≠ [] →
    ∃ key ∈ r.config.allowedKeys, normalizePublicKey key = normalizePublicKey r.publicKey

/-- Between two successes for one node id with different normalised keys, the entry was removed.
The history is newest first. -/
def KeyStable (history : List Event) : Prop :=
  ∀ later between earlier r r',
    history = later ++ .succeeded r' :: (between ++ .succeeded r :: earlier) →
      r'.nodeId = r.nodeId → .removed r.nodeId ∉ between →
        normalizePublicKey r'.publicKey = normalizePublicKey r.publicKey

/-- The call has decided to return `Ok`, if its save works. -/
def Pc.decided : Pc → Bool
  | .saving => true
  | .returning (.ok ()) => true
  | _ => false

/-- The entry of the id is absent, or has the key of the request. -/
def vacant (peers : Peers) (r : Verification) : Bool :=
  (peers.lookup r.nodeId).all fun known =>
    normalizePublicKey known.publicKey = normalizePublicKey r.publicKey

/-- The condition on a step: an insert meets no entry with another key, and an entry is not removed
while a call for it has decided and not returned. -/
def orderly (s : State) : Label → Bool
  | .insert c _ => (s.calls.lookup c).all fun call => vacant s.peers call.request
  | .remove nodeId => s.calls.entries.all fun e =>
    !(e.2.request.nodeId = nodeId && e.2.pc.decided)
  | _ => true

/-- The store has an entry for the id with the normalised key of the request. -/
def Holds (peers : Peers) (r : Verification) : Prop :=
  ∃ known, peers.lookup r.nodeId = some known ∧
    normalizePublicKey known.publicKey = normalizePublicKey r.publicKey

/-! ## What the check decides -/

private theorem checkPeer_pinned (peers : Peers) {r : Verification}
    (h : afterCheck r (checkPeer peers r.nodeId r.publicKey r.config.tofu r.config.allowedKeys) =
        .inserting ∨
      afterCheck r (checkPeer peers r.nodeId r.publicKey r.config.tofu r.config.allowedKeys) =
        .returning (.ok ())) : r.Pinned := by
  intro hne
  unfold checkPeer at h
  by_cases hany : r.config.allowedKeys.any
      (fun key => normalizePublicKey key = normalizePublicKey r.publicKey)
  · simpa using hany
  · simp [hne, hany, afterCheck] at h

/-- A call that is trusted at its check finds its key in the store. -/
theorem checkPeer_trusted {peers : Peers} {r : Verification}
    (h : (afterCheck r
      (checkPeer peers r.nodeId r.publicKey r.config.tofu r.config.allowedKeys)).decided = true) :
    Holds peers r := by
  unfold checkPeer at h
  dsimp only at h
  split at h
  · simp [afterCheck, Pc.decided] at h
  · split at h
    · next known hknown =>
      split at h
      · next heq => exact ⟨known, hknown, heq⟩
      · simp [afterCheck, Pc.decided] at h
    · split at h
      · simp [afterCheck, Pc.decided] at h
      · split at h
        · simp [afterCheck, Pc.decided] at h
        · simp [afterCheck, Pc.decided] at h

/-! ## Pinned keys -/

/-- Every call that passed its check, and every success, has a pinned key. -/
structure PinnedOnly (s : State) : Prop where
  calls : ∀ c call, s.calls.lookup c = some call →
    call.pc = .inserting ∨ call.pc.decided = true → call.request.Pinned
  events : ∀ r, .succeeded r ∈ s.history → r.Pinned

private theorem pinnedOnly_init (peers : Peers) : PinnedOnly (init peers) where
  calls := by
    intro c call h
    cases h
  events := by
    intro r h
    cases h

private theorem PinnedOnly.move {s : State} {c : Nat} {call : Call} {pc : Pc} (hs : PinnedOnly s)
    (h : pc = .inserting ∨ pc.decided = true → call.request.Pinned) :
    PinnedOnly (s.move c call pc) where
  calls := by
    intro d other hd hpc
    rcases Table.lookup_insert_eq_some.mp hd with ⟨-, rfl⟩ | ⟨-, hd⟩
    · exact h hpc
    · exact hs.calls d other hd hpc
  events := hs.events

private theorem PinnedOnly.leave {s : State} {c : Nat} {history : List Event} (hs : PinnedOnly s)
    (h : ∀ r, .succeeded r ∈ history → r.Pinned) :
    PinnedOnly { s with calls := s.calls.erase c, history := history } where
  calls := by
    intro d other hd hpc
    exact hs.calls d other (Table.lookup_erase_eq_some.mp hd).2 hpc
  events := h

private theorem pinnedOnly_step {s t : State} {l : Label} (hs : PinnedOnly s)
    (h : step s l = some t) :
    PinnedOnly t := by
  cases step_change h with
  | @call c r hnone =>
    refine ⟨?_, hs.events⟩
    intro d other hd hpc
    rcases Table.lookup_insert_eq_some.mp hd with ⟨-, rfl⟩ | ⟨-, hd⟩
    · simp [Pc.decided] at hpc
    · exact hs.calls d other hd hpc
  | @check c r hcall =>
    apply hs.move
    intro hpc
    apply checkPeer_pinned s.peers
    rcases hpc with hpc | hpc
    · exact Or.inl hpc
    · right
      revert hpc
      cases checkPeer s.peers r.nodeId r.publicKey r.config.tofu r.config.allowedKeys with
      | trusted => exact fun _ => rfl
      | tofuAccepted => simp [afterCheck, Pc.decided]
      | rejected => simp [afterCheck, Pc.decided]
      | keyMismatch known => simp [afterCheck, Pc.decided]
  | @insert c r now hcall =>
    have hinserted : PinnedOnly { s with
        peers := s.peers.insert r.nodeId ⟨r.nodeId, r.publicKey, now⟩ } := ⟨hs.calls, hs.events⟩
    exact hinserted.move fun _ => hs.calls c _ hcall (Or.inl rfl)
  | @save c r written hcall => exact hs.move fun _ => hs.calls c _ hcall (Or.inr rfl)
  | @succeed c r hcall =>
    apply hs.leave
    intro r' hr'
    rcases List.mem_cons.mp hr' with heq | hr'
    · cases heq
      exact hs.calls c _ hcall (Or.inr rfl)
    · exact hs.events r' hr'
  | @fail c r e hcall => exact hs.leave hs.events
  | @remove nodeId known hknown =>
    refine ⟨hs.calls, ?_⟩
    intro r hr
    exact hs.events r (List.mem_of_ne_of_mem (by simp) hr)
  | absent hnone => exact hs

/-! ## One key per node id -/

private theorem Holds.insert {peers : Peers} {r r' : Verification} {now : Nat} (h : Holds peers r)
    (hvacant : vacant peers r') :
    Holds (peers.insert r'.nodeId ⟨r'.nodeId, r'.publicKey, now⟩) r := by
  obtain ⟨known, hknown, hkey⟩ := h
  by_cases hid : r.nodeId = r'.nodeId
  · refine ⟨⟨r'.nodeId, r'.publicKey, now⟩, ?_, ?_⟩
    · rw [hid, AList.lookup_insert]
    · rw [hid] at hknown
      simp only [vacant, hknown, Option.all_some, decide_eq_true_eq] at hvacant
      exact hvacant.symm.trans hkey
  · refine ⟨known, ?_, hkey⟩
    rw [AList.lookup_insert_ne hid, hknown]

private theorem Holds.inserted (peers : Peers) (r : Verification) (now : Nat) :
    Holds (peers.insert r.nodeId ⟨r.nodeId, r.publicKey, now⟩) r :=
  ⟨_, AList.lookup_insert peers, rfl⟩

private theorem Holds.erase {peers : Peers} {r : Verification} {nodeId : List Char}
    (h : Holds peers r) (hne : r.nodeId ≠ nodeId) : Holds (peers.erase nodeId) r := by
  obtain ⟨known, hknown, hkey⟩ := h
  exact ⟨known, by rw [AList.lookup_erase_ne hne, hknown], hkey⟩

private theorem Holds.unique {peers : Peers} {r r' : Verification} (h : Holds peers r)
    (h' : Holds peers r') (hid : r'.nodeId = r.nodeId) :
    normalizePublicKey r'.publicKey = normalizePublicKey r.publicKey := by
  obtain ⟨known, hknown, hkey⟩ := h
  obtain ⟨known', hknown', hkey'⟩ := h'
  rw [hid, hknown] at hknown'
  cases hknown'
  exact hkey'.symm.trans hkey

/-- A success that no later event of the history revokes. -/
def Standing (history : List Event) (r : Verification) : Prop :=
  ∃ later earlier, history = later ++ .succeeded r :: earlier ∧ .removed r.nodeId ∉ later

private theorem standing_cons {e : Event} {history : List Event} {r : Verification}
    (h : Standing (e :: history) r) :
    e = .succeeded r ∨ Standing history r ∧ e ≠ .removed r.nodeId := by
  obtain ⟨later, earlier, heq, hkept⟩ := h
  cases later with
  | nil =>
    rw [List.nil_append, List.cons.injEq] at heq
    exact Or.inl heq.1
  | cons e' later =>
    rw [List.cons_append, List.cons.injEq] at heq
    obtain ⟨rfl, heq⟩ := heq
    rw [List.mem_cons, not_or] at hkept
    exact Or.inr ⟨⟨later, earlier, heq, hkept.2⟩, Ne.symm hkept.1⟩

private theorem keyStable_cons {e : Event} {history : List Event} (h : KeyStable history)
    (hnew : ∀ r r', e = .succeeded r' → Standing history r → r'.nodeId = r.nodeId →
      normalizePublicKey r'.publicKey = normalizePublicKey r.publicKey) :
    KeyStable (e :: history) := by
  intro later between earlier r r' heq hid hkept
  cases later with
  | nil =>
    rw [List.nil_append, List.cons.injEq] at heq
    exact hnew r r' heq.1 ⟨between, earlier, heq.2, hkept⟩ hid
  | cons e' later =>
    rw [List.cons_append, List.cons.injEq] at heq
    exact h later between earlier r r' heq.2 hid hkept

/-- Every decided call and every standing success has its key in the store. -/
structure Trusts (s : State) : Prop where
  calls : ∀ c call, s.calls.lookup c = some call → call.pc.decided = true →
    Holds s.peers call.request
  events : ∀ r, Standing s.history r → Holds s.peers r
  stable : KeyStable s.history

private theorem trusts_init (peers : Peers) : Trusts (init peers) where
  calls := by
    intro c call h
    cases h
  events := by
    rintro r ⟨later, earlier, heq, -⟩
    exact absurd heq.symm (by simp [init])
  stable := by
    intro later between earlier r r' heq
    exact absurd heq.symm (by simp [init])

private theorem Trusts.move {s : State} {c : Nat} {call : Call} {pc : Pc} (hs : Trusts s)
    (h : pc.decided = true → Holds s.peers call.request) : Trusts (s.move c call pc) where
  calls := by
    intro d other hd hpc
    rcases Table.lookup_insert_eq_some.mp hd with ⟨-, rfl⟩ | ⟨-, hd⟩
    · exact h hpc
    · exact hs.calls d other hd hpc
  events := hs.events
  stable := hs.stable

private theorem Trusts.insert {s : State} {r : Verification} {now : Nat} (hs : Trusts s)
    (hvacant : vacant s.peers r) :
    Trusts { s with peers := s.peers.insert r.nodeId ⟨r.nodeId, r.publicKey, now⟩ } where
  calls := fun c call hc hpc => (hs.calls c call hc hpc).insert hvacant
  events := fun r' hr' => (hs.events r' hr').insert hvacant
  stable := hs.stable

private theorem Trusts.succeed {s : State} {c : Nat} {r : Verification} (hs : Trusts s)
    (hr : Holds s.peers r) :
    Trusts { s with calls := s.calls.erase c, history := .succeeded r :: s.history } where
  calls := by
    intro d other hd hpc
    exact hs.calls d other (Table.lookup_erase_eq_some.mp hd).2 hpc
  events := by
    intro r' hr'
    rcases standing_cons hr' with heq | ⟨hstanding, -⟩
    · cases heq
      exact hr
    · exact hs.events r' hstanding
  stable := by
    apply keyStable_cons hs.stable
    intro r₁ r₂ heq hstanding hid
    cases heq
    exact (hs.events r₁ hstanding).unique hr hid

private theorem Trusts.remove {s : State} {nodeId : List Char} (hs : Trusts s)
    (horderly : orderly s (.remove nodeId) = true) :
    Trusts { s with peers := s.peers.erase nodeId, history := .removed nodeId :: s.history } where
  calls := by
    intro c call hc hpc
    have hne : call.request.nodeId ≠ nodeId := by
      intro hid
      have hmem := AList.mem_lookup_iff.mp hc
      have := List.all_eq_true.mp horderly _ hmem
      simp [hid, hpc] at this
    exact (hs.calls c call hc hpc).erase hne
  events := by
    intro r hr
    rcases standing_cons hr with heq | ⟨hstanding, hne⟩
    · cases heq
    · apply (hs.events r hstanding).erase
      rintro rfl
      exact hne rfl
  stable := by
    apply keyStable_cons hs.stable
    intro r r' heq
    cases heq

private theorem trusts_step {s t : State} {l : Label} (hs : Trusts s)
    (horderly : orderly s l = true)
    (h : step s l = some t) : Trusts t := by
  cases step_change h with
  | @call c r hnone =>
    refine ⟨?_, hs.events, hs.stable⟩
    intro d other hd hpc
    rcases Table.lookup_insert_eq_some.mp hd with ⟨-, rfl⟩ | ⟨-, hd⟩
    · cases hpc
    · exact hs.calls d other hd hpc
  | check hcall => exact hs.move checkPeer_trusted
  | @insert c r now hcall =>
    have hvacant : vacant s.peers r := by simpa [orderly, hcall] using horderly
    exact (hs.insert hvacant).move fun _ => Holds.inserted s.peers r now
  | save hcall => exact hs.move fun _ => hs.calls _ _ hcall rfl
  | succeed hcall => exact hs.succeed (hs.calls _ _ hcall rfl)
  | @fail c r e hcall =>
    refine ⟨?_, hs.events, hs.stable⟩
    intro d other hd hpc
    exact hs.calls d other (Table.lookup_erase_eq_some.mp hd).2 hpc
  | remove hknown => exact hs.remove horderly
  | absent hnone => exact hs

/-- In every run from a loaded store, only pinned keys succeed; and in every run whose inserts meet
no entry with another key and whose removals meet no decided call, a node id has one key until its
entry is removed. -/
theorem trusted_keys_stable {peers : Peers} {run : List Label} {s : State}
    (h : exec step (init peers) run = some s) :
    (∀ r, .succeeded r ∈ s.history → r.Pinned) ∧
      (Along step (fun s l => orderly s l = true) (init peers) run → KeyStable s.history) := by
  refine ⟨?_, fun horderly => ?_⟩
  · have hpinned : PinnedOnly s :=
      exec_invariant (fun _ _ _ hs ht => pinnedOnly_step hs ht) (pinnedOnly_init peers) h
    exact hpinned.events
  · have htrusts : Trusts s :=
      exec_invariant_along (fun _ _ _ hs ho ht => trusts_step hs ho ht) (trusts_init peers)
        horderly h
    exact htrusts.stable

/-- A first contact of `node-b` with a key. -/
def firstContact (key : String) : Verification :=
  ⟨"node-b".toList, key.toList, ⟨true, []⟩⟩

/-- A first contact, and a later one with the same key under its legacy prefix. -/
def contactTwice : List Label :=
  [.call 0 (firstContact "ed25519:YQ=="), .check 0, .insert 0 7, .save 0 true, .ret 0,
    .call 1 (firstContact "noise25519:YQ=="), .check 1, .ret 1]

/-- Both succeed, in an orderly run. -/
theorem contactTwice_stable : ∃ s, exec step (init ∅) contactTwice = some s ∧
    s.history.length = 2 ∧ KeyStable s.history := by
  have hrun : ((exec step (init ∅) contactTwice).any fun s => s.history.length = 2) = true := by
    decide +kernel
  obtain ⟨s, hs, hlength⟩ := (Option.any_eq_true _ _).mp hrun
  refine ⟨s, hs, by simpa using hlength, (trusted_keys_stable hs).2 ?_⟩
  exact along_of_checkAlong (by decide +kernel)

/-- Two first contacts of one node id with different keys; both pass the check before either is
inserted. -/
def contactsRace : List Label :=
  [.call 0 (firstContact "noise25519:YQ=="), .call 1 (firstContact "noise25519:Yg=="), .check 0,
    .check 1, .insert 0 7, .save 0 true, .ret 0, .insert 1 8, .save 1 true, .ret 1]

/-- Both succeed, without a removal between them. -/
theorem racing_contacts_both_trusted : ∃ s, exec step (init ∅) contactsRace = some s ∧
    s.history = [.succeeded (firstContact "noise25519:Yg=="),
      .succeeded (firstContact "noise25519:YQ==")] ∧ ¬ KeyStable s.history := by
  have hrun : ((exec step (init ∅) contactsRace).any fun s => s.history =
      [.succeeded (firstContact "noise25519:Yg=="),
        .succeeded (firstContact "noise25519:YQ==")]) = true := by
    decide +kernel
  obtain ⟨s, hs, hhistory⟩ := (Option.any_eq_true _ _).mp hrun
  have heq := of_decide_eq_true hhistory
  refine ⟨s, hs, heq, fun hstable => ?_⟩
  have hkeys := hstable [] [] [] _ _ heq rfl (by simp)
  exact absurd hkeys (by decide)

end Llamesh.Noise
