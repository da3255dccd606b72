import Llamesh.Noise.KnownPeers

/-!
# The known-peers file

`save` writes a comment line and then one line `node_id pubkey first_seen` for each entry, in the
order in which the map happens to iterate; `parse_file` skips comments and blank lines and splits
each other line at whitespace (`src/noise/known_peers.rs:63–115`).

A node id comes from the handshake payload of the remote as any string
(`src/noise/handshake.rs:187`) and is neither escaped nor checked. So a store reads back as it was
exactly when each of its ids is one word that does not look like a comment.
-/

namespace Llamesh.Noise

open Transition

/-- The text form of `DateTime<Utc>`: RFC 3339 text is one word. -/
structure DateFormat where
  toRfc3339 : Nat → List Char
  parse : List Char → Option Nat
  isWord_toRfc3339 : ∀ t, Text.IsWord (toRfc3339 t)

variable (dates : DateFormat)

/-- One line of the file; `now` stands for `Utc::now()`. `src/noise/known_peers.rs:67–92`. -/
def parseLine (now : Nat) (peers : Peers) (line : List Char) : Peers :=
  let line := Text.trim line
  if line = [] ∨ line.head? = some '#' then peers
  else match Text.splitWhitespace line with
    | nodeId :: publicKey :: firstSeen :: _ =>
      peers.insert nodeId ⟨nodeId, publicKey, (dates.parse firstSeen).getD now⟩
    | _ => peers

/-- `parse_file`; `src/noise/known_peers.rs:63–96`. -/
def parseFile (now : Nat) (content : List Char) : Peers :=
  (Text.lines content).foldl (parseLine dates now) ∅

/-- `load_or_create`, on the content of the file if there is one;
`src/noise/known_peers.rs:48–60`. -/
def loadOrCreate (now : Nat) : Option (List Char) → Peers
  | some content => parseFile dates now content
  | none => ∅

/-- The line of one entry, without its line feed. -/
def entryLine (peer : KnownPeer) : List Char :=
  peer.nodeId ++ ' ' :: (peer.publicKey ++ ' ' :: dates.toRfc3339 peer.firstSeen)

/-- The content `save` writes when the map iterates in the given order;
`src/noise/known_peers.rs:99–115`. -/
def save (order : List KnownPeer) : List Char :=
  "# node_id pubkey first_seen\n".toList ++ order.flatMap fun peer => entryLine dates peer ++ ['\n']

/-- The order lists the values of the map. -/
def Lists (order : List KnownPeer) (peers : Peers) : Prop :=
  order.Perm (peers.entries.map (·.2))

/-- The text form of a static key, as the handshake's callers present it;
`src/noise/transport.rs:229–234`. -/
def displayKey (key : Vector UInt8 32) : List Char :=
  "noise25519:".toList ++ Text.base64 key.toList

/-- Reading the saved file gives the node ids and keys of the store, in whatever order the map
iterates. -/
def RoundTrips (peers : Peers) : Prop :=
  ∀ order now, Lists order peers → ∀ nodeId,
    ((parseFile dates now (save dates order)).lookup nodeId).map KnownPeer.publicKey =
      (peers.lookup nodeId).map KnownPeer.publicKey

/-- The node ids a line can hold: one word, and not the start of a comment. -/
def Storable (nodeId : List Char) : Prop := Text.IsWord nodeId ∧ nodeId.head? ≠ some '#'

instance (nodeId : List Char) : Decidable (Storable nodeId) := inferInstanceAs (Decidable (_ ∧ _))

/-! ## What a file can hold -/

variable {dates}

/-- What is known of an entry of a store: it is filed under its own id, and its key is one word. -/
def EntryOk (nodeId : List Char) (peer : KnownPeer) : Prop :=
  peer.nodeId = nodeId ∧ Text.IsWord peer.publicKey

private theorem parseLine_cases (dates : DateFormat) (now : Nat) (peers : Peers)
    (line : List Char) :
    parseLine dates now peers line = peers ∨
      ∃ peer, Storable peer.nodeId ∧ Text.IsWord peer.publicKey ∧
        parseLine dates now peers line = peers.insert peer.nodeId peer := by
  unfold parseLine
  dsimp only
  split
  · exact Or.inl rfl
  · next hskip =>
    split
    · next nodeId publicKey firstSeen rest hwords =>
      have hmem : ∀ word ∈ [nodeId, publicKey], Text.IsWord word := by
        intro word hword
        apply Text.isWord_of_mem_splitWhitespace
        rw [hwords]
        rw [List.mem_cons, List.mem_singleton] at hword
        rcases hword with rfl | rfl
        · exact List.mem_cons_self
        · exact List.mem_cons_of_mem _ List.mem_cons_self
      refine Or.inr ⟨⟨nodeId, publicKey, (dates.parse firstSeen).getD now⟩, ⟨?_, ?_⟩, ?_, rfl⟩
      · exact hmem nodeId List.mem_cons_self
      · -- The first word starts where the trimmed line starts.
        show nodeId.head? ≠ some '#'
        cases htrim : Text.trim line with
        | nil => exact absurd (Or.inl htrim) hskip
        | cons c cs =>
          obtain ⟨word, words, hfirst⟩ := Text.splitWhitespace_cons (Text.head_trim htrim) cs
          rw [htrim, hfirst, List.cons.injEq] at hwords
          rw [htrim] at hskip
          rw [← hwords.1, List.head?_cons]
          exact fun hc => hskip (Or.inr hc)
      · exact hmem publicKey (List.mem_cons_of_mem _ List.mem_cons_self)
    · exact Or.inl rfl

/-- Every entry of a parsed file has a storable id and its fields in place. -/
theorem parseFile_lookup {now : Nat} {content nodeId : List Char} {peer : KnownPeer}
    (h : (parseFile dates now content).lookup nodeId = some peer) :
    Storable nodeId ∧ EntryOk nodeId peer := by
  have hall : ∀ (lines : List (List Char)) (peers : Peers),
      (∀ id p, peers.lookup id = some p → Storable id ∧ EntryOk id p) →
      ∀ id p, (lines.foldl (parseLine dates now) peers).lookup id = some p →
        Storable id ∧ EntryOk id p := by
    intro lines
    induction lines with
    | nil => exact fun peers hpeers => hpeers
    | cons line lines ih =>
      intro peers hpeers
      rw [List.foldl_cons]
      apply ih
      rcases parseLine_cases dates now peers line with heq | ⟨new, hid, hkey, heq⟩
      · rw [heq]
        exact hpeers
      · rw [heq]
        intro id p hp
        rcases Table.lookup_insert_eq_some.mp hp with ⟨rfl, rfl⟩ | ⟨-, hp⟩
        · exact ⟨hid, rfl, hkey⟩
        · exact hpeers id p hp
  apply hall _ ∅ _ nodeId peer h
  intro id p hp
  cases hp

/-! ## Reading an entry back -/

private theorem isWhitespace_of_mem_entryLine {peer : KnownPeer} (hid : Text.IsWord peer.nodeId)
    (hkey : Text.IsWord peer.publicKey) {c : Char} (hc : c ∈ entryLine dates peer) :
    Text.isWhitespace c = false ∨ c = ' ' := by
  simp only [entryLine, List.mem_append, List.mem_cons] at hc
  rcases hc with hc | rfl | hc | rfl | hc
  · exact Or.inl (hid.2 c hc)
  · exact Or.inr rfl
  · exact Or.inl (hkey.2 c hc)
  · exact Or.inr rfl
  · exact Or.inl ((dates.isWord_toRfc3339 _).2 c hc)

private theorem newline_notMem_entryLine {peer : KnownPeer} (hid : Text.IsWord peer.nodeId)
    (hkey : Text.IsWord peer.publicKey) : '\n' ∉ entryLine dates peer := by
  intro hmem
  rcases isWhitespace_of_mem_entryLine hid hkey hmem with hws | heq
  · exact absurd hws (by decide)
  · exact absurd heq (by decide)

private theorem last_entryLine (peer : KnownPeer) {c : Char}
    (h : c ∈ (entryLine dates peer).getLast?) : Text.isWhitespace c = false := by
  have hdate := dates.isWord_toRfc3339 peer.firstSeen
  have hlast : (entryLine dates peer).getLast? =
      (dates.toRfc3339 peer.firstSeen).getLast? := by
    unfold entryLine
    rw [List.getLast?_append_of_ne_nil _ (by simp), ← List.singleton_append,
      List.getLast?_append_of_ne_nil _ (by simp), List.getLast?_append_of_ne_nil _ (by simp),
      ← List.singleton_append, List.getLast?_append_of_ne_nil _ hdate.1]
  rw [hlast] at h
  exact hdate.2 c (List.mem_of_mem_getLast? h)

private theorem head_entryLine (dates : DateFormat) {peer : KnownPeer}
    (hid : Text.IsWord peer.nodeId) :
    (entryLine dates peer).head? = peer.nodeId.head? := by
  unfold entryLine
  cases hcs : peer.nodeId with
  | nil => exact absurd hcs hid.1
  | cons c cs => rfl

private theorem parseLine_entryLine {now : Nat} {peers : Peers} {peer : KnownPeer}
    (hid : Storable peer.nodeId) (hkey : Text.IsWord peer.publicKey) :
    parseLine dates now peers (entryLine dates peer) = peers.insert peer.nodeId
      ⟨peer.nodeId, peer.publicKey,
        (dates.parse (dates.toRfc3339 peer.firstSeen)).getD now⟩ := by
  have hhead := head_entryLine dates hid.1
  have htrim : Text.trim (entryLine dates peer) = entryLine dates peer := by
    apply Text.trim_eq_self
    · intro c hc
      rw [hhead] at hc
      exact hid.1.2 c (List.mem_of_mem_head? hc)
    · exact fun c hc => last_entryLine peer hc
  have hskip : ¬ (entryLine dates peer = [] ∨ (entryLine dates peer).head? = some '#') := by
    rintro (hnil | hhash)
    · rw [hnil] at hhead
      exact hid.1.1 (List.head?_eq_none_iff.mp hhead.symm)
    · exact hid.2 (hhead.symm.trans hhash)
  have hwords : Text.splitWhitespace (entryLine dates peer) =
      [peer.nodeId, peer.publicKey, dates.toRfc3339 peer.firstSeen] := by
    unfold entryLine
    rw [Text.splitWhitespace_append_space hid.1 (by decide),
      Text.splitWhitespace_append_space hkey (by decide),
      Text.splitWhitespace_word (dates.isWord_toRfc3339 _)]
  simp only [parseLine, htrim, hskip, if_false, hwords]

private theorem lines_save {order : List KnownPeer}
    (h : ∀ peer ∈ order, Text.IsWord peer.nodeId ∧ Text.IsWord peer.publicKey) :
    Text.lines (save dates order) =
      "# node_id pubkey first_seen".toList :: order.map (entryLine dates) := by
  have hentries : Text.lines (order.flatMap fun peer => entryLine dates peer ++ ['\n']) =
      order.map (entryLine dates) := by
    induction order with
    | nil => rfl
    | cons peer order ih =>
      have hpeer := h peer List.mem_cons_self
      have hlast : (entryLine dates peer).getLast? ≠ some '\r' := by
        intro hcr
        exact absurd (last_entryLine peer hcr) (by decide)
      rw [List.flatMap_cons, List.append_assoc, List.singleton_append,
        Text.lines_append_newline (newline_notMem_entryLine hpeer.1 hpeer.2) hlast,
        ih fun p hp => h p (List.mem_cons_of_mem peer hp), List.map_cons]
  have hheader : "# node_id pubkey first_seen\n".toList =
      "# node_id pubkey first_seen".toList ++ ['\n'] := by
    decide
  unfold save
  rw [hheader, List.append_assoc, List.singleton_append,
    Text.lines_append_newline (by decide) (by decide), hentries]

/-! ## Reading the store back -/

/-- An entry as the file gives it back. -/
private def reread (dates : DateFormat) (now : Nat) (peer : KnownPeer) : KnownPeer :=
  ⟨peer.nodeId, peer.publicKey, (dates.parse (dates.toRfc3339 peer.firstSeen)).getD now⟩

private theorem parseFile_save {now : Nat} {order : List KnownPeer}
    (h : ∀ peer ∈ order, Storable peer.nodeId ∧ Text.IsWord peer.publicKey) :
    parseFile dates now (save dates order) =
      order.foldl (fun peers peer => peers.insert peer.nodeId (reread dates now peer)) ∅ := by
  have hlines : ∀ (rest : List KnownPeer) (peers : Peers), (∀ peer ∈ rest, peer ∈ order) →
      (rest.map (entryLine dates)).foldl (parseLine dates now) peers =
        rest.foldl (fun peers peer => peers.insert peer.nodeId (reread dates now peer)) peers := by
    intro rest
    induction rest with
    | nil => exact fun _ _ => rfl
    | cons peer rest ih =>
      intro peers hrest
      have hpeer := h peer (hrest peer List.mem_cons_self)
      rw [List.map_cons, List.foldl_cons, List.foldl_cons,
        parseLine_entryLine hpeer.1 hpeer.2]
      exact ih _ fun p hp => hrest p (List.mem_cons_of_mem peer hp)
  have hheader : parseLine dates now ∅ "# node_id pubkey first_seen".toList = ∅ := by
    have hcomment : (Text.trim "# node_id pubkey first_seen".toList).head? = some '#' := by
      decide
    simp only [parseLine, hcomment, or_true, if_true]
  unfold parseFile
  rw [lines_save fun peer hpeer => ⟨(h peer hpeer).1.1, (h peer hpeer).2⟩, List.foldl_cons,
    hheader, hlines order ∅ fun _ hp => hp]

private theorem lookup_foldl_of_notMem {f : KnownPeer → KnownPeer} {order : List KnownPeer}
    {nodeId : List Char} (h : ∀ peer ∈ order, peer.nodeId ≠ nodeId) (peers : Peers) :
    (order.foldl (fun peers peer => peers.insert peer.nodeId (f peer)) peers).lookup nodeId =
      peers.lookup nodeId := by
  induction order generalizing peers with
  | nil => rfl
  | cons peer order ih =>
    have hne : nodeId ≠ peer.nodeId := (h peer List.mem_cons_self).symm
    rw [List.foldl_cons, ih fun p hp => h p (List.mem_cons_of_mem peer hp),
      AList.lookup_insert_ne hne]

private theorem lookup_foldl_of_mem {f : KnownPeer → KnownPeer} {order : List KnownPeer}
    (hnodup : (order.map KnownPeer.nodeId).Nodup) {peer : KnownPeer} (h : peer ∈ order)
    (peers : Peers) :
    (order.foldl (fun peers peer => peers.insert peer.nodeId (f peer)) peers).lookup peer.nodeId =
      some (f peer) := by
  induction order generalizing peers with
  | nil => cases h
  | cons first order ih =>
    rw [List.map_cons, List.nodup_cons] at hnodup
    rw [List.foldl_cons]
    rcases List.mem_cons.mp h with rfl | hmem
    · rw [lookup_foldl_of_notMem, AList.lookup_insert]
      intro p hp heq
      exact hnodup.1 (heq ▸ List.mem_map_of_mem hp)
    · exact ih hnodup.2 hmem _

private theorem mem_order {peers : Peers} {order : List KnownPeer} (h : Lists order peers)
    {peer : KnownPeer} : peer ∈ order ↔ ∃ nodeId, peers.lookup nodeId = some peer := by
  rw [h.mem_iff, List.mem_map]
  constructor
  · rintro ⟨⟨nodeId, p⟩, hmem, rfl⟩
    exact ⟨nodeId, AList.mem_lookup_iff.mpr hmem⟩
  · rintro ⟨nodeId, hlookup⟩
    exact ⟨⟨nodeId, peer⟩, AList.mem_lookup_iff.mp hlookup, rfl⟩

private theorem nodup_order {peers : Peers} (hok : ∀ id p, peers.lookup id = some p → EntryOk id p)
    {order : List KnownPeer} (h : Lists order peers) : (order.map KnownPeer.nodeId).Nodup := by
  have hperm : (order.map KnownPeer.nodeId).Perm peers.entries.keys := by
    refine (h.map KnownPeer.nodeId).trans (List.Perm.of_eq ?_)
    rw [List.map_map]
    apply List.map_congr_left
    rintro ⟨id, p⟩ hmem
    exact (hok id p (AList.mem_lookup_iff.mpr hmem)).1
  exact hperm.nodup_iff.mpr peers.nodupKeys

private theorem roundTrips_of_storable {peers : Peers}
    (hok : ∀ id p, peers.lookup id = some p → EntryOk id p)
    (hids : ∀ nodeId ∈ peers, Storable nodeId) : RoundTrips dates peers := by
  intro order now hlists nodeId
  have horder : ∀ peer ∈ order, Storable peer.nodeId ∧ Text.IsWord peer.publicKey := by
    intro peer hpeer
    obtain ⟨id, hid⟩ := (mem_order hlists).mp hpeer
    obtain ⟨rfl, hkey⟩ := hok id peer hid
    exact ⟨hids _ (AList.lookup_isSome.mp (by simp [hid])), hkey⟩
  rw [parseFile_save horder]
  cases hlookup : peers.lookup nodeId with
  | none =>
    rw [lookup_foldl_of_notMem]
    · rfl
    · rintro peer hpeer rfl
      obtain ⟨id, hid⟩ := (mem_order hlists).mp hpeer
      rw [(hok id peer hid).1, hid] at hlookup
      cases hlookup
  | some peer =>
    have hmem : peer ∈ order := (mem_order hlists).mpr ⟨nodeId, hlookup⟩
    obtain ⟨rfl, -⟩ := hok nodeId peer hlookup
    rw [lookup_foldl_of_mem (nodup_order hok hlists) hmem]
    rfl

private theorem storable_of_roundTrips {peers : Peers} (h : RoundTrips dates peers)
    {nodeId : List Char} (hmem : nodeId ∈ peers) : Storable nodeId := by
  obtain ⟨peer, hpeer⟩ := Option.isSome_iff_exists.mp (AList.lookup_isSome.mpr hmem)
  have hlists : Lists (peers.entries.map (·.2)) peers := List.Perm.refl _
  have hread := h _ 0 hlists nodeId
  rw [hpeer, Option.map_some, Option.map_eq_some_iff] at hread
  obtain ⟨read, hread, -⟩ := hread
  exact (parseFile_lookup hread).1

/-! ## Reachable stores -/

/-- The entries of the store and the requests under way are in order. -/
private structure Presentable (s : State) : Prop where
  peers : ∀ id p, s.peers.lookup id = some p → EntryOk id p
  calls : ∀ c call, s.calls.lookup c = some call → Text.IsWord call.request.publicKey

private theorem isWord_displayKey (key : Vector UInt8 32) : Text.IsWord (displayKey key) := by
  have hscheme : ∀ c ∈ "noise25519:".toList, Text.isWhitespace c = false :=
    Text.isWhitespace_of_all (by decide)
  refine ⟨?_, ?_⟩
  · intro hnil
    exact absurd (List.append_eq_nil_iff.mp hnil).1 (by decide)
  · intro c hc
    rcases List.mem_append.mp hc with hc | hc
    · exact hscheme c hc
    · exact Text.isWhitespace_of_mem_base64 hc

private theorem presentable_move {s : State} (hs : Presentable s) {c : Nat} {call : Call} {pc : Pc}
    (hcall : s.calls.lookup c = some call) : Presentable (s.move c call pc) where
  peers := hs.peers
  calls := by
    intro d other hd
    rcases Table.lookup_insert_eq_some.mp hd with ⟨-, rfl⟩ | ⟨-, hd⟩
    · exact hs.calls c call hcall
    · exact hs.calls d other hd

private theorem presentable_erase {s : State} (hs : Presentable s) (c : Nat)
    (history : List Event) :
    Presentable { s with calls := s.calls.erase c, history := history } where
  peers := hs.peers
  calls := fun d other hd => hs.calls d other (Table.lookup_erase_eq_some.mp hd).2

private theorem presentable_step {s t : State} {l : Label} (hs : Presentable s)
    (hl : ∀ c r, l = .call c r → ∃ key, r.publicKey = displayKey key)
    (h : step s l = some t) : Presentable t := by
  cases step_change h with
  | @call c r hnone =>
    refine ⟨hs.peers, ?_⟩
    intro d other hd
    rcases Table.lookup_insert_eq_some.mp hd with ⟨-, rfl⟩ | ⟨-, hd⟩
    · obtain ⟨key, hkey⟩ := hl c r rfl
      show Text.IsWord r.publicKey
      rw [hkey]
      exact isWord_displayKey key
    · exact hs.calls d other hd
  | check hcall => exact presentable_move hs hcall
  | @insert c r now hcall =>
    have hinserted : Presentable { s with
        peers := s.peers.insert r.nodeId ⟨r.nodeId, r.publicKey, now⟩ } := by
      refine ⟨?_, hs.calls⟩
      intro id p hp
      rcases Table.lookup_insert_eq_some.mp hp with ⟨rfl, rfl⟩ | ⟨-, hp⟩
      · exact ⟨rfl, hs.calls c _ hcall⟩
      · exact hs.peers id p hp
    exact presentable_move hinserted hcall
  | save hcall => exact presentable_move hs hcall
  | @succeed c r hcall => exact presentable_erase hs c _
  | @fail c r e hcall => exact presentable_erase hs c _
  | @remove nodeId known hknown =>
    refine ⟨?_, hs.calls⟩
    exact fun id p hp => hs.peers id p (Table.lookup_erase_eq_some.mp hp).2
  | absent hnone => exact hs

private theorem presentable_init (now : Nat) (file : Option (List Char)) :
    Presentable (init (loadOrCreate dates now file)) where
  peers := by
    intro id p hp
    cases file with
    | none => cases hp
    | some content => exact (parseFile_lookup hp).2
  calls := by
    intro c call hc
    cases hc

/-- A store that was loaded and then used by any calls of the handshake survives being saved and
parsed exactly when each of its node ids is one word that does not start a comment. -/
theorem saved_peers_reload_iff (dates : DateFormat) {now : Nat} {file : Option (List Char)}
    {run : List Label} {s : State}
    (hkeys : ∀ c r, .call c r ∈ run → ∃ key, r.publicKey = displayKey key)
    (h : exec step (init (loadOrCreate dates now file)) run = some s) :
    RoundTrips dates s.peers ↔ ∀ nodeId ∈ s.peers, Storable nodeId := by
  have halong : Along step (fun _ l => ∀ c r, l = .call c r → ∃ key, r.publicKey = displayKey key)
      (init (loadOrCreate dates now file)) run := by
    apply along_of_forall_mem
    rintro l hl c r rfl
    exact hkeys c r hl
  have hs : Presentable s :=
    exec_invariant_along (fun _ _ _ hs hl ht => presentable_step hs hl ht)
      (presentable_init now file) halong h
  constructor
  · intro hround nodeId hmem
    exact storable_of_roundTrips hround hmem
  · exact roundTrips_of_storable hs.peers

/-- A clock that stands at one instant. -/
def stoppedClock : DateFormat where
  toRfc3339 _ := "2024-01-15T10:30:00+00:00".toList
  parse _ := some 1705314600
  isWord_toRfc3339 _ := by decide

/-- One node with an all-zero static key makes contact and is accepted. -/
def firstContactOf (nodeId : String) : List Label :=
  [.call 0 ⟨nodeId.toList, displayKey (Vector.replicate 32 0), ⟨true, []⟩⟩, .check 0,
    .insert 0 1705314600, .save 0 true, .ret 0]

private theorem presented_firstContactOf (nodeId : String) :
    ∀ c r, .call c r ∈ firstContactOf nodeId → ∃ key, r.publicKey = displayKey key := by
  intro c r hmem
  simp only [firstContactOf, List.mem_cons, List.not_mem_nil, Label.call.injEq, reduceCtorEq,
    or_false] at hmem
  exact ⟨Vector.replicate 32 0, by rw [hmem.2]⟩

/-- The store of one contact of `node-b` survives the file. -/
theorem nodeB_survives_reload :
    ∃ s, exec step (init (loadOrCreate stoppedClock 0 none)) (firstContactOf "node-b") = some s ∧
      s.peers.keys = ["node-b".toList] ∧ RoundTrips stoppedClock s.peers := by
  have hrun : ((exec step (init (loadOrCreate stoppedClock 0 none)) (firstContactOf "node-b")).any
      fun s => s.peers.keys = ["node-b".toList]) = true := by
    decide +kernel
  obtain ⟨s, hs, hkeys⟩ := (Option.any_eq_true _ _).mp hrun
  have heq := of_decide_eq_true hkeys
  refine ⟨s, hs, heq, ?_⟩
  rw [saved_peers_reload_iff stoppedClock (presented_firstContactOf "node-b") hs]
  intro nodeId hmem
  rw [AList.mem_keys, heq, List.mem_singleton] at hmem
  rw [hmem]
  decide

/-- A node that names itself `node b` is trusted, and its entry does not survive the file: the
restarted node knows a node `node` with the key `b` instead. -/
theorem spaced_node_id_lost_on_reload :
    ∃ s, exec step (init (loadOrCreate stoppedClock 0 none)) (firstContactOf "node b") = some s ∧
      s.history.length = 1 ∧ s.peers.keys = ["node b".toList] ∧
      (let reloaded := parseFile stoppedClock 0 (save stoppedClock (s.peers.entries.map (·.2)))
       reloaded.lookup "node b".toList = none ∧
         (reloaded.lookup "node".toList).map KnownPeer.publicKey = some "b".toList) ∧
      ¬ RoundTrips stoppedClock s.peers := by
  have hrun : ((exec step (init (loadOrCreate stoppedClock 0 none)) (firstContactOf "node b")).any
      fun s => s.history.length = 1 ∧ s.peers.keys = ["node b".toList] ∧
        (parseFile stoppedClock 0 (save stoppedClock (s.peers.entries.map (·.2)))).lookup
          "node b".toList = none ∧
        ((parseFile stoppedClock 0 (save stoppedClock (s.peers.entries.map (·.2)))).lookup
          "node".toList).map KnownPeer.publicKey = some "b".toList) = true := by
    decide +kernel
  obtain ⟨s, hs, hfacts⟩ := (Option.any_eq_true _ _).mp hrun
  obtain ⟨hlength, hkeys, hlost, hmangled⟩ := of_decide_eq_true hfacts
  refine ⟨s, hs, hlength, hkeys, ⟨hlost, hmangled⟩, fun hround => ?_⟩
  have hmem : "node b".toList ∈ s.peers := by
    rw [AList.mem_keys, hkeys]
    exact List.mem_cons_self
  exact absurd (storable_of_roundTrips hround hmem) (by decide)

end Llamesh.Noise
