import Llamesh.Library.Run
import Mathlib.Data.List.Basic

/-!
# Accepting connections

One port serves TLS, HTTP/1, cleartext HTTP/2 and Noise. The accept loop
(`src/api.rs:464–569`) gives every connection a task of its own, which peeks at the first octets
(`src/protocol_detect.rs:37–98`) and hands the connection to the handler of its protocol. Octets
arrive in any segments, and a peek sees some prefix of what has arrived, so a connection is handed
to the handler its client means however its octets are cut.

Shutdown stores the drain flag and then wakes the waiters (`src/node_state/mod.rs:3779–3783`). The
flag is loaded with `Relaxed`: a load may miss the store, unless it comes after a `Notified` that
was created after the shutdown's `notify_waiters`. A `Notified` is the number of `notify_waiters`
calls made before it was created.
-/

namespace Llamesh.Api

open Transition

/-- What a connection may speak. `src/protocol_detect.rs:14–23`. -/
inductive DetectedProtocol where
  | tls
  | http
  | http2
  | noise
deriving DecidableEq, Repr

/-- `"PRI "`. -/
def http2Preface : List UInt8 := [0x50, 0x52, 0x49, 0x20]

/-- `classify`, on octets that are not empty; `none` asks for more.
`src/protocol_detect.rs:63–98`. -/
def classify : List UInt8 → Option DetectedProtocol
  | [] => none
  | first :: rest =>
    if first = 0x16 then
      match rest with
      | [] => none
      | second :: _ => if second = 0x03 then some .tls else some .noise
    else if first = 0x50 then
      match rest with
      | [] => none
      | second :: _ =>
        if second = 0x52 then
          if 4 ≤ (first :: rest).length then
            if (first :: rest).take 4 = http2Preface then some .http2 else some .http
          else none
        else some .http
    -- `G`, `D`, `H`, `O`, `C` and `T`
    else if first ∈ ([0x47, 0x44, 0x48, 0x4F, 0x43, 0x54] : List UInt8) then some .http
    else some .noise

/-- What a connection is handed to. `src/api.rs:524–562`. -/
inductive Handler where
  | tls
  /-- TLS is not configured: the connection is closed. -/
  | refused
  | http (useHttp2 : Bool)
  | noise
deriving DecidableEq, Repr

/-- The handler of a protocol. -/
def dispatch (tlsConfigured : Bool) : DetectedProtocol → Handler
  | .tls => if tlsConfigured then .tls else .refused
  | .http => .http false
  | .http2 => .http true
  | .noise => .noise

/-- The task of a connection: its `Notified` is created, the drain flag is checked, the protocol is
detected, and the flag is checked again. -/
inductive ConnectionPc where
  | spawned
  | subscribed (calls : Nat)
  | detecting (calls : Nat)
  | detected (protocol : DetectedProtocol)
  | serving (handler : Handler)
  | ended
deriving DecidableEq, Repr

/-- A connection: the octets that have arrived, whether the client has closed its side, and its
task. -/
structure Connection where
  arrived : List UInt8
  closed : Bool
  pc : ConnectionPc
deriving DecidableEq, Repr

/-- The accept loop. -/
inductive AcceptPc where
  | top
  | subscribed (calls : Nat)
  | waiting (calls : Nat)
  | accepted
  | stopped
deriving DecidableEq, Repr

/-- `begin_shutdown_drain`, up to its `notify_waiters`, with the number of calls made then. -/
inductive ShutdownPc where
  | idle
  | stored
  | notified (calls : Nat)
deriving DecidableEq, Repr

/-- The listener, its connections and the shutdown. -/
structure Server where
  shutdown : ShutdownPc
  notifyCalls : Nat
  accept : AcceptPc
  connections : List Connection
deriving DecidableEq, Repr

/-- A started server. -/
def Server.init : Server := ⟨.idle, 0, .top, []⟩

/-- The flag as a load may read it: the store may be missed. -/
def mayLoad (s : Server) (sees : Bool) : Bool := !sees || s.shutdown ≠ .idle

/-- A load after creating a `Notified` misses the store only if the shutdown's `notify_waiters` is
still to come for it. -/
def subscribedLoad (s : Server) (calls : Nat) (sees : Bool) : Bool :=
  if sees then s.shutdown ≠ .idle
  else match s.shutdown with
    | .notified shutdownCalls => decide (calls < shutdownCalls)
    | _ => true

/-- What a task, a client or the shutdown does. -/
inductive Label where
  | storeDraining
  | notifyWaiters
  | acceptSubscribe
  | acceptCheck (sees : Bool)
  /-- A client connects, or `accept` fails. -/
  | accept
  | acceptFailed
  | acceptShutdown
  | spawn (sees : Bool)
  | arrive (i : Nat) (octets : List UInt8)
  | close (i : Nat)
  | subscribe (i : Nat)
  | check (i : Nat) (sees : Bool)
  /-- A peek sees `n` octets. -/
  | peek (i n : Nat)
  | peekFailed (i : Nat)
  | detectTimeout (i : Nat)
  | shutdown (i : Nat)
  | handle (i : Nat) (sees : Bool)

/-- A step of the task of connection `i`. -/
def Server.update (s : Server) (i : Nat) (f : Connection → Option Connection) : Option Server :=
  (s.connections[i]?.bind f).map fun c => { s with connections := s.connections.set i c }

/-- A peek: no octets at the end of a silent stream, else a prefix of at most four.
`src/protocol_detect.rs:40–49`. -/
def Connection.peek (c : Connection) (calls n : Nat) : Option Connection :=
  if n = 0 then
    guarded (c.arrived = [] ∧ c.closed = true) { c with pc := .detected .noise }
  else guarded (n ≤ 4 ∧ n ≤ c.arrived.length)
    { c with
      pc := match classify (c.arrived.take n) with
        | some protocol => .detected protocol
        | none => .detecting calls }

/-- One step of a connection or its client. `src/api.rs:500–567`. -/
def Connection.step (tlsConfigured : Bool) (s : Server) (c : Connection) :
    Label → Option Connection
  | .arrive _ octets => guarded (c.closed = false) { c with arrived := c.arrived ++ octets }
  | .close _ => some { c with closed := true }
  | .subscribe _ => guarded (c.pc = .spawned) { c with pc := .subscribed s.notifyCalls }
  | .check _ sees =>
    match c.pc with
    | .subscribed calls =>
      guarded (subscribedLoad s calls sees = true)
        { c with pc := if sees then .ended else .detecting calls }
    | _ => none
  | .peek _ n =>
    match c.pc with
    | .detecting calls => c.peek calls n
    | _ => none
  | .peekFailed _ =>
    match c.pc with
    | .detecting _ => some { c with pc := .ended }
    | _ => none
  | .detectTimeout _ =>
    match c.pc with
    | .detecting _ => some { c with pc := .ended }
    | _ => none
  | .shutdown _ =>
    match c.pc with
    | .detecting calls => guarded (calls < s.notifyCalls) { c with pc := .ended }
    | _ => none
  | .handle _ sees =>
    match c.pc with
    | .detected protocol =>
      guarded (mayLoad s sees = true)
        { c with pc := if sees then .ended else .serving (dispatch tlsConfigured protocol) }
    | _ => none
  | _ => none

/-- One step of the accept loop. `src/api.rs:465–500`. -/
def acceptStep (s : Server) : Label → Option Server
  | .acceptSubscribe =>
    guarded (s.accept = .top) { s with accept := .subscribed s.notifyCalls }
  | .acceptCheck sees =>
    match s.accept with
    | .subscribed calls =>
      guarded (subscribedLoad s calls sees = true)
        { s with accept := if sees then .stopped else .waiting calls }
    | _ => none
  | .accept =>
    match s.accept with
    | .waiting _ => some { s with accept := .accepted }
    | _ => none
  | .acceptFailed =>
    match s.accept with
    | .waiting _ => some { s with accept := .top }
    | _ => none
  | .acceptShutdown =>
    match s.accept with
    | .waiting calls => guarded (calls < s.notifyCalls) { s with accept := .stopped }
    | _ => none
  | .spawn sees =>
    guarded (s.accept = .accepted ∧ mayLoad s sees = true)
      (if sees then { s with accept := .stopped }
      else { s with accept := .top, connections := s.connections ++ [⟨[], false, .spawned⟩] })
  | _ => none

/-- One step of the server. -/
def step (tlsConfigured : Bool) (s : Server) (label : Label) : Option Server :=
  match label with
  | .storeDraining => guarded (s.shutdown = .idle) { s with shutdown := .stored }
  | .notifyWaiters =>
    guarded (s.shutdown = .stored)
      { s with shutdown := .notified (s.notifyCalls + 1), notifyCalls := s.notifyCalls + 1 }
  | .arrive i _ | .close i | .subscribe i | .check i _ | .peek i _ | .peekFailed i
  | .detectTimeout i | .shutdown i | .handle i _ =>
    s.update i fun c => c.step tlsConfigured s label
  | _ => acceptStep s label

/-! ## Detection -/

/-- More octets do not change a decision. -/
theorem classify_append {octets : List UInt8} {protocol : DetectedProtocol}
    (h : classify octets = some protocol) (more : List UInt8) :
    classify (octets ++ more) = some protocol := by
  match octets with
  | [] => cases h
  | [first] =>
    simp only [classify] at h ⊢
    split at h
    · cases h
    · next htls =>
      rw [List.cons_append, List.nil_append]
      split at h
      · cases h
      · next hp => simpa only [classify, htls, hp, if_false] using h
  | first :: second :: rest =>
    rw [List.cons_append, List.cons_append]
    simp only [classify] at h ⊢
    split at h
    · next htls => simpa only [htls, if_true] using h
    · next htls =>
      simp only [htls, if_false]
      split at h
      · next hp =>
        simp only [hp, if_true]
        split at h
        · next hr =>
          split at h
          · next hlength =>
            -- the four octets that decide are there already
            have hlong : 4 ≤ (first :: second :: (rest ++ more)).length := by
              simp only [List.length_cons, List.length_append] at hlength ⊢
              omega
            have htake : (first :: second :: (rest ++ more)).take 4 =
                (first :: second :: rest).take 4 := by
              rw [← List.cons_append, ← List.cons_append, List.take_append_of_le_length hlength]
            rw [hp] at hlong htake h
            rw [if_pos hr, if_pos hlong, htake]
            exact h
          · cases h
        · next hr => simpa only [hr, if_false] using h
      · next hp => simpa only [hp, if_false] using h

/-- A client by the octets it starts with: a TLS handshake record, an HTTP/1 request, the HTTP/2
preface, or the first message of a Noise handshake, whose ephemeral key is sent after its length. -/
inductive Client where
  | tls (rest : List UInt8)
  | http (method : String) (rest : List UInt8)
  | http2 (rest : List UInt8)
  | noise (ephemeral : Vector UInt8 32) (rest : List UInt8)

/-- The methods of HTTP/1. -/
def httpMethods : List String :=
  ["GET", "POST", "PUT", "DELETE", "HEAD", "OPTIONS", "CONNECT", "TRACE", "PATCH"]

/-- `send_message` of the handshake: the length in two octets, then the message.
`src/noise/handshake.rs:299–309`. -/
def sendMessage (data : List UInt8) : List UInt8 :=
  UInt8.ofNat (data.length / 256) :: UInt8.ofNat data.length :: data

/-- The octets of a client. -/
def Client.octets : Client → List UInt8
  | .tls rest => 0x16 :: 0x03 :: rest
  | .http method rest => method.toUTF8.toList ++ 0x20 :: rest
  | .http2 rest => http2Preface ++ rest
  | .noise ephemeral rest => sendMessage ephemeral.toList ++ rest

/-- The protocol a client speaks. -/
def Client.protocol : Client → DetectedProtocol
  | .tls _ => .tls
  | .http _ _ => .http
  | .http2 _ => .http2
  | .noise _ _ => .noise

/-- An HTTP/1 client uses one of the methods. -/
def Client.WellFormed : Client → Prop
  | .http method _ => method ∈ httpMethods
  | _ => True

/-- The octets of a client decide for its protocol. -/
theorem classify_octets {client : Client} (h : client.WellFormed) :
    classify client.octets = some client.protocol := by
  cases client with
  | tls rest => rfl
  | http method rest =>
    have hmethod : ∀ name ∈ httpMethods, classify name.toUTF8.toList = some .http := by
      decide +kernel
    exact classify_append (hmethod method h) _
  | http2 rest =>
    have hpreface : classify http2Preface = some .http2 := by decide
    exact classify_append hpreface rest
  | noise ephemeral rest =>
    have hlength : ephemeral.toList.length = 32 := by simp
    simp [Client.octets, sendMessage, hlength, classify, Client.protocol]

/-! ## Every interleaving -/

/-- A `Notified` that is awaited: the shutdown's `notify_waiters` wakes it. -/
def Woken (s : Server) (calls : Nat) : Prop :=
  calls ≤ s.notifyCalls ∧
    ∀ shutdownCalls, s.shutdown = .notified shutdownCalls → calls < shutdownCalls

/-- The octets of the connection decide for the protocol, or there are none. -/
def Connection.Speaks (c : Connection) (protocol : DetectedProtocol) : Prop :=
  c.arrived = [] ∧ c.closed = true ∧ protocol = .noise ∨ classify c.arrived = some protocol

/-- What is known of a connection by where its task stands. -/
def Connection.Sound (tlsConfigured : Bool) (s : Server) (c : Connection) : Prop :=
  match c.pc with
  | .subscribed calls => calls ≤ s.notifyCalls
  | .detecting calls => Woken s calls
  | .detected protocol => c.Speaks protocol
  | .serving handler => ∃ protocol, c.Speaks protocol ∧ handler = dispatch tlsConfigured protocol
  | _ => True

/-- What is known of the accept loop. -/
def AcceptPc.Sound (s : Server) : AcceptPc → Prop
  | .subscribed calls => calls ≤ s.notifyCalls
  | .waiting calls => Woken s calls
  | _ => True

/-- The invariant of the server. -/
structure ServerInv (tlsConfigured : Bool) (s : Server) : Prop where
  notified : ∀ calls, s.shutdown = .notified calls → calls = s.notifyCalls
  early : s.shutdown = .idle → s.notifyCalls = 0
  stopped : s.accept = .stopped → s.shutdown ≠ .idle
  accept : s.accept.Sound s
  connections : ∀ c ∈ s.connections, c.Sound tlsConfigured s

variable {tlsConfigured : Bool} {s t : Server} {c d : Connection} {label : Label}

private theorem woken_of_load {calls : Nat} (hle : calls ≤ s.notifyCalls)
    (h : subscribedLoad s calls false = true) : Woken s calls := by
  refine ⟨hle, fun shutdownCalls hshutdown => ?_⟩
  simpa [subscribedLoad, hshutdown] using h

private theorem woken_of_le {calls notifyCalls : Nat} {shutdown : ShutdownPc}
    (hle : calls ≤ s.notifyCalls) (hcalls : s.notifyCalls ≤ notifyCalls)
    (hshutdown : ∀ shutdownCalls, shutdown = .notified shutdownCalls →
      s.notifyCalls < shutdownCalls) :
    Woken { s with shutdown := shutdown, notifyCalls := notifyCalls } calls :=
  ⟨Nat.le_trans hle hcalls,
    fun shutdownCalls h => Nat.lt_of_le_of_lt hle (hshutdown shutdownCalls h)⟩

private theorem Connection.Speaks.arrive {protocol : DetectedProtocol} (h : c.Speaks protocol)
    (hopen : c.closed = false) (octets : List UInt8) :
    Connection.Speaks { c with arrived := c.arrived ++ octets } protocol := by
  obtain ⟨-, hclosed, -⟩ | hclass := h
  · rw [hopen] at hclosed
    cases hclosed
  · exact .inr (classify_append hclass octets)

private theorem Connection.Speaks.close {protocol : DetectedProtocol} (h : c.Speaks protocol) :
    Connection.Speaks { c with closed := true } protocol :=
  h.imp_left fun ⟨hnone, _, hprotocol⟩ => ⟨hnone, rfl, hprotocol⟩

private theorem Connection.Sound.of_speaks (hc : c.Sound tlsConfigured s) (hpc : d.pc = c.pc)
    (hspeaks : ∀ protocol, c.Speaks protocol → d.Speaks protocol) : d.Sound tlsConfigured s := by
  unfold Connection.Sound at hc ⊢
  rw [hpc]
  cases h : c.pc with
  | spawned => trivial
  | subscribed calls =>
    rw [h] at hc
    exact hc
  | detecting calls =>
    rw [h] at hc
    exact hc
  | detected protocol =>
    rw [h] at hc
    exact hspeaks protocol hc
  | serving handler =>
    rw [h] at hc
    obtain ⟨protocol, hc, hhandler⟩ := hc
    exact ⟨protocol, hspeaks protocol hc, hhandler⟩
  | ended => trivial

private theorem sound_peek {calls n : Nat} (hcalls : Woken s calls) (h : c.peek calls n = some d) :
    d.Sound tlsConfigured s := by
  unfold Connection.peek at h
  split at h
  · obtain ⟨⟨hnone, hclosed⟩, rfl⟩ := guarded_eq_some.mp h
    exact .inl ⟨hnone, hclosed, rfl⟩
  · obtain ⟨-, rfl⟩ := guarded_eq_some.mp h
    cases hclass : classify (c.arrived.take n) with
    | none => exact hcalls
    | some protocol =>
      have hwhole := classify_append hclass (c.arrived.drop n)
      rw [List.take_append_drop] at hwhole
      exact .inr hwhole

private theorem sound_step (hc : c.Sound tlsConfigured s)
    (h : c.step tlsConfigured s label = some d) : d.Sound tlsConfigured s := by
  cases label with
  | arrive i octets =>
    obtain ⟨hopen, rfl⟩ := guarded_eq_some.mp h
    exact hc.of_speaks rfl fun protocol hspeaks => hspeaks.arrive hopen octets
  | close i =>
    cases h
    exact hc.of_speaks rfl fun protocol hspeaks => hspeaks.close
  | subscribe i =>
    obtain ⟨-, rfl⟩ := guarded_eq_some.mp h
    exact Nat.le_refl s.notifyCalls
  | check i sees =>
    simp only [Connection.step] at h
    split at h
    · next calls hpc =>
      obtain ⟨hload, rfl⟩ := guarded_eq_some.mp h
      simp only [Connection.Sound, hpc] at hc
      cases sees with
      | true => trivial
      | false => exact woken_of_load hc hload
    · cases h
  | peek i n =>
    simp only [Connection.step] at h
    split at h
    · next calls hpc =>
      simp only [Connection.Sound, hpc] at hc
      exact sound_peek hc h
    · cases h
  | peekFailed i =>
    simp only [Connection.step] at h
    split at h
    · cases h
      trivial
    · cases h
  | detectTimeout i =>
    simp only [Connection.step] at h
    split at h
    · cases h
      trivial
    · cases h
  | shutdown i =>
    simp only [Connection.step] at h
    split at h
    · obtain ⟨-, rfl⟩ := guarded_eq_some.mp h
      trivial
    · cases h
  | handle i sees =>
    simp only [Connection.step] at h
    split at h
    · next protocol hpc =>
      obtain ⟨-, rfl⟩ := guarded_eq_some.mp h
      simp only [Connection.Sound, hpc] at hc
      cases sees with
      | true => trivial
      | false => exact ⟨protocol, hc, rfl⟩
    · cases h
  | _ => cases h

private theorem serverInv_update (inv : ServerInv tlsConfigured s) {i : Nat}
    (h : s.update i (fun c => c.step tlsConfigured s label) = some t) :
    ServerInv tlsConfigured t := by
  obtain ⟨d, hd, rfl⟩ := Option.map_eq_some_iff.mp h
  obtain ⟨c, hc, hstep⟩ := Option.bind_eq_some_iff.mp hd
  have hmem := List.mem_of_getElem? hc
  refine { inv with connections := fun c' hc' => ?_ }
  obtain hold | rfl := List.mem_or_eq_of_mem_set hc'
  · exact inv.connections c' hold
  · exact sound_step (inv.connections c hmem) hstep

private theorem serverInv_shutdown (inv : ServerInv tlsConfigured s) {shutdown : ShutdownPc}
    {notifyCalls : Nat} (hcalls : s.notifyCalls ≤ notifyCalls)
    (hbegun : shutdown ≠ .idle) (hshutdown : ∀ shutdownCalls, shutdown = .notified shutdownCalls →
      shutdownCalls = notifyCalls ∧ s.notifyCalls < shutdownCalls) :
    ServerInv tlsConfigured { s with shutdown := shutdown, notifyCalls := notifyCalls } where
  notified := fun calls h => (hshutdown calls h).1
  early := fun hidle => absurd hidle hbegun
  stopped := fun _ => hbegun
  accept := by
    have haccept := inv.accept
    change AcceptPc.Sound _ s.accept
    cases hpc : s.accept with
    | subscribed calls =>
      rw [hpc] at haccept
      exact Nat.le_trans haccept hcalls
    | waiting calls =>
      rw [hpc] at haccept
      exact woken_of_le haccept.1 hcalls fun _ h => (hshutdown _ h).2
    | top => trivial
    | accepted => trivial
    | stopped => trivial
  connections := by
    intro c hc
    have hsound := inv.connections c hc
    unfold Connection.Sound at hsound ⊢
    cases hpc : c.pc with
    | subscribed calls =>
      rw [hpc] at hsound
      exact Nat.le_trans hsound hcalls
    | detecting calls =>
      rw [hpc] at hsound
      exact woken_of_le hsound.1 hcalls fun _ h => (hshutdown _ h).2
    | detected protocol =>
      rw [hpc] at hsound
      exact hsound
    | serving handler =>
      rw [hpc] at hsound
      exact hsound
    | spawned => trivial
    | ended => trivial

private theorem begun_of_load {calls : Nat} (h : subscribedLoad s calls true = true) :
    s.shutdown ≠ .idle := by
  simpa [subscribedLoad] using h

private theorem begun_of_mayLoad (h : mayLoad s true = true) : s.shutdown ≠ .idle := by
  simpa [mayLoad] using h

private theorem begun_of_woken (inv : ServerInv tlsConfigured s) {calls : Nat}
    (h : calls < s.notifyCalls) : s.shutdown ≠ .idle := by
  intro hidle
  rw [inv.early hidle] at h
  exact absurd h (Nat.not_lt_zero calls)

private theorem serverInv_accept (inv : ServerInv tlsConfigured s)
    (h : acceptStep s label = some t) : ServerInv tlsConfigured t := by
  cases label with
  | acceptSubscribe =>
    obtain ⟨-, rfl⟩ := guarded_eq_some.mp h
    exact { inv with
      accept := Nat.le_refl s.notifyCalls
      stopped := fun hstopped => by cases hstopped }
  | acceptCheck sees =>
    simp only [acceptStep] at h
    split at h
    · next calls hpc =>
      obtain ⟨hload, rfl⟩ := guarded_eq_some.mp h
      have haccept := inv.accept
      rw [hpc] at haccept
      cases sees with
      | true => exact { inv with accept := trivial, stopped := fun _ => begun_of_load hload }
      | false =>
        exact { inv with
          accept := woken_of_load haccept hload
          stopped := fun hstopped => by cases hstopped }
    · cases h
  | accept =>
    simp only [acceptStep] at h
    split at h
    · cases h
      exact { inv with accept := trivial, stopped := fun hstopped => by cases hstopped }
    · cases h
  | acceptFailed =>
    simp only [acceptStep] at h
    split at h
    · cases h
      exact { inv with accept := trivial, stopped := fun hstopped => by cases hstopped }
    · cases h
  | acceptShutdown =>
    simp only [acceptStep] at h
    split at h
    · obtain ⟨hwoken, rfl⟩ := guarded_eq_some.mp h
      have hbegun := begun_of_woken inv hwoken
      exact { inv with accept := trivial, stopped := fun _ => hbegun }
    · cases h
  | spawn sees =>
    obtain ⟨⟨-, hload⟩, rfl⟩ := guarded_eq_some.mp h
    cases sees with
    | true => exact { inv with accept := trivial, stopped := fun _ => begun_of_mayLoad hload }
    | false =>
      refine { inv with
        accept := trivial
        stopped := fun hstopped => by cases hstopped
        connections := fun c hc => ?_ }
      rcases List.mem_append.mp hc with hc | hc
      · exact inv.connections c hc
      · rw [List.mem_singleton.mp hc]
        trivial
  | _ => cases h

private theorem serverInv_step (inv : ServerInv tlsConfigured s)
    (h : step tlsConfigured s label = some t) : ServerInv tlsConfigured t := by
  unfold step at h
  split at h
  · obtain ⟨-, rfl⟩ := guarded_eq_some.mp h
    exact serverInv_shutdown inv (Nat.le_refl _) (by decide) fun _ hstored => by cases hstored
  · obtain ⟨-, rfl⟩ := guarded_eq_some.mp h
    refine serverInv_shutdown inv (Nat.le_succ _) (by simp) ?_
    rintro shutdownCalls ⟨⟩
    exact ⟨rfl, Nat.lt_succ_self _⟩
  · exact serverInv_update inv h
  · exact serverInv_update inv h
  · exact serverInv_update inv h
  · exact serverInv_update inv h
  · exact serverInv_update inv h
  · exact serverInv_update inv h
  · exact serverInv_update inv h
  · exact serverInv_update inv h
  · exact serverInv_update inv h
  · exact serverInv_accept inv h

private theorem serverInv_init : ServerInv tlsConfigured Server.init where
  notified := fun calls h => by cases h
  early := fun _ => rfl
  stopped := fun h => by cases h
  accept := trivial
  connections := fun c hc => by cases hc

/-! ## Dropped connections -/

private theorem begun_of_ended (inv : ServerInv tlsConfigured s) (hopen : c.pc ≠ .ended)
    (h : c.step tlsConfigured s label = some d) (hended : d.pc = .ended) :
    s.shutdown ≠ .idle ∨ ∃ i, label = .peekFailed i ∨ label = .detectTimeout i := by
  cases label with
  | peekFailed i => exact .inr ⟨i, .inl rfl⟩
  | detectTimeout i => exact .inr ⟨i, .inr rfl⟩
  | arrive i octets =>
    obtain ⟨-, rfl⟩ := guarded_eq_some.mp h
    exact absurd hended hopen
  | close i =>
    cases h
    exact absurd hended hopen
  | subscribe i =>
    obtain ⟨-, rfl⟩ := guarded_eq_some.mp h
    cases hended
  | check i sees =>
    simp only [Connection.step] at h
    split at h
    · obtain ⟨hload, rfl⟩ := guarded_eq_some.mp h
      cases sees with
      | true => exact .inl (begun_of_load hload)
      | false => cases hended
    · cases h
  | peek i n =>
    simp only [Connection.step] at h
    split at h
    · unfold Connection.peek at h
      split at h
      · obtain ⟨-, rfl⟩ := guarded_eq_some.mp h
        cases hended
      · obtain ⟨-, rfl⟩ := guarded_eq_some.mp h
        cases hclass : classify (c.arrived.take n) <;> simp [hclass] at hended
    · cases h
  | shutdown i =>
    simp only [Connection.step] at h
    split at h
    · obtain ⟨hwoken, -⟩ := guarded_eq_some.mp h
      exact .inl (begun_of_woken inv hwoken)
    · cases h
  | handle i sees =>
    simp only [Connection.step] at h
    split at h
    · obtain ⟨hload, rfl⟩ := guarded_eq_some.mp h
      cases sees with
      | true => exact .inl (begun_of_mayLoad hload)
      | false => cases hended
    · cases h
  | _ => cases h

private theorem connections_accept (h : acceptStep s label = some t) :
    ∃ more, t.connections = s.connections ++ more := by
  cases label with
  | acceptSubscribe =>
    obtain ⟨-, rfl⟩ := guarded_eq_some.mp h
    exact ⟨[], (List.append_nil _).symm⟩
  | acceptCheck sees =>
    simp only [acceptStep] at h
    split at h
    · obtain ⟨-, rfl⟩ := guarded_eq_some.mp h
      exact ⟨[], (List.append_nil _).symm⟩
    · cases h
  | accept =>
    simp only [acceptStep] at h
    split at h
    · cases h
      exact ⟨[], (List.append_nil _).symm⟩
    · cases h
  | acceptFailed =>
    simp only [acceptStep] at h
    split at h
    · cases h
      exact ⟨[], (List.append_nil _).symm⟩
    · cases h
  | acceptShutdown =>
    simp only [acceptStep] at h
    split at h
    · obtain ⟨-, rfl⟩ := guarded_eq_some.mp h
      exact ⟨[], (List.append_nil _).symm⟩
    · cases h
  | spawn sees =>
    obtain ⟨-, rfl⟩ := guarded_eq_some.mp h
    cases sees with
    | true => exact ⟨[], (List.append_nil _).symm⟩
    | false => exact ⟨_, rfl⟩
  | _ => cases h

private theorem begun_of_dropped (inv : ServerInv tlsConfigured s) {i : Nat}
    (h : step tlsConfigured s label = some t) (hc : s.connections[i]? = some c)
    (hd : t.connections[i]? = some d) (hopen : c.pc ≠ .ended) (hended : d.pc = .ended) :
    s.shutdown ≠ .idle ∨ label = .peekFailed i ∨ label = .detectTimeout i := by
  have hkept : ∀ more, t.connections ≠ s.connections ++ more := by
    intro more hconnections
    have hlt := (List.getElem?_eq_some_iff.mp hc).1
    rw [hconnections, List.getElem?_append_left hlt, hc] at hd
    obtain rfl := Option.some.inj hd
    exact hopen hended
  have hupdate : ∀ j, s.update j (fun c => c.step tlsConfigured s label) = some t →
      (∀ k, label = .peekFailed k ∨ label = .detectTimeout k → k = j) →
      s.shutdown ≠ .idle ∨ label = .peekFailed i ∨ label = .detectTimeout i := by
    intro j hj hlabel
    obtain ⟨d', hd', rfl⟩ := Option.map_eq_some_iff.mp hj
    obtain ⟨c', hc', hstep⟩ := Option.bind_eq_some_iff.mp hd'
    by_cases hij : j = i
    · subst hij
      obtain rfl := Option.some.inj (hc.symm.trans hc')
      have hlt := (List.getElem?_eq_some_iff.mp hc).1
      rw [List.getElem?_set_self hlt] at hd
      obtain rfl := Option.some.inj hd
      refine (begun_of_ended inv hopen hstep hended).imp_right ?_
      rintro ⟨k, hk⟩
      rwa [hlabel k hk] at hk
    · rw [List.getElem?_set_ne hij, hc] at hd
      obtain rfl := Option.some.inj hd
      exact absurd hended hopen
  unfold step at h
  split at h
  · obtain ⟨-, rfl⟩ := guarded_eq_some.mp h
    exact absurd (List.append_nil _).symm (hkept [])
  · obtain ⟨-, rfl⟩ := guarded_eq_some.mp h
    exact absurd (List.append_nil _).symm (hkept [])
  · exact hupdate _ h (by simp)
  · exact hupdate _ h (by simp)
  · exact hupdate _ h (by simp)
  · exact hupdate _ h (by simp)
  · exact hupdate _ h (by simp)
  · exact hupdate _ h (by simp)
  · exact hupdate _ h (by simp)
  · exact hupdate _ h (by simp)
  · exact hupdate _ h (by simp)
  · obtain ⟨more, hmore⟩ := connections_accept h
    exact absurd hmore (hkept more)

/-! ## The last connection -/

/-- Whether the accept loop may still hand over a connection, once the shutdown has woken it. -/
def mayAccept (s : Server) : Nat :=
  match s.accept with
  | .subscribed calls => if calls < s.notifyCalls then 1 else 0
  | .waiting _ => 1
  | .accepted => 1
  | _ => 0

/-- After the shutdown's `notify_waiters` the loop hands over what it may, and no more. -/
structure Closing (n : Nat) (s : Server) : Prop where
  notified : s.shutdown = .notified s.notifyCalls
  bound : s.connections.length + mayAccept s ≤ n

private theorem closing_step {n : Nat} (hs : Closing n s)
    (h : step tlsConfigured s label = some t) :
    Closing n t := by
  have hbound := hs.bound
  have hupdate : ∀ j, s.update j (fun c => c.step tlsConfigured s label) = some t →
      Closing n t := by
    intro j hj
    obtain ⟨d', -, rfl⟩ := Option.map_eq_some_iff.mp hj
    refine ⟨hs.notified, ?_⟩
    rw [List.length_set]
    exact hbound
  cases label with
  | storeDraining =>
    obtain ⟨hidle, -⟩ := guarded_eq_some.mp h
    cases hidle.symm.trans hs.notified
  | notifyWaiters =>
    obtain ⟨hstored, -⟩ := guarded_eq_some.mp h
    cases hstored.symm.trans hs.notified
  | arrive j octets => exact hupdate j h
  | close j => exact hupdate j h
  | subscribe j => exact hupdate j h
  | check j sees => exact hupdate j h
  | peek j n => exact hupdate j h
  | peekFailed j => exact hupdate j h
  | detectTimeout j => exact hupdate j h
  | shutdown j => exact hupdate j h
  | handle j sees => exact hupdate j h
  | acceptSubscribe =>
    obtain ⟨hpc, rfl⟩ := guarded_eq_some.mp h
    refine ⟨hs.notified, ?_⟩
    simpa [mayAccept, hpc] using hbound
  | acceptCheck sees =>
    simp only [step, acceptStep] at h
    split at h
    · next calls hpc =>
      obtain ⟨hload, rfl⟩ := guarded_eq_some.mp h
      refine ⟨hs.notified, ?_⟩
      cases sees with
      | true => exact Nat.le_trans (Nat.le_add_right _ _) hbound
      | false =>
        -- The flag is missed only by a load that the shutdown still wakes.
        have hearly : calls < s.notifyCalls := by
          simpa [subscribedLoad, hs.notified] using hload
        simpa [mayAccept, hpc, hearly] using hbound
    · cases h
  | accept =>
    simp only [step, acceptStep] at h
    split at h
    · next calls hpc =>
      cases h
      refine ⟨hs.notified, ?_⟩
      simpa [mayAccept, hpc] using hbound
    · cases h
  | acceptFailed =>
    simp only [step, acceptStep] at h
    split at h
    · cases h
      exact ⟨hs.notified, Nat.le_trans (Nat.le_add_right _ _) hbound⟩
    · cases h
  | acceptShutdown =>
    simp only [step, acceptStep] at h
    split at h
    · obtain ⟨-, rfl⟩ := guarded_eq_some.mp h
      exact ⟨hs.notified, Nat.le_trans (Nat.le_add_right _ _) hbound⟩
    · cases h
  | spawn sees =>
    obtain ⟨⟨hpc, -⟩, rfl⟩ := guarded_eq_some.mp h
    cases sees with
    | true => exact ⟨hs.notified, Nat.le_trans (Nat.le_add_right _ _) hbound⟩
    | false =>
      refine ⟨hs.notified, ?_⟩
      simpa [mayAccept, hpc] using hbound

private theorem mayAccept_le (s : Server) : mayAccept s ≤ 1 := by
  unfold mayAccept
  split
  · split <;> omega
  · exact Nat.le_refl 1
  · exact Nat.le_refl 1
  · exact Nat.zero_le 1

/-- A Noise client whose first octets come one by one, while a POST is cut after its `P`. -/
def slowClients : List Label :=
  [.acceptSubscribe, .acceptCheck false, .accept, .spawn false, .acceptSubscribe,
    .acceptCheck false, .accept, .spawn false, .subscribe 0, .subscribe 1, .check 0 false,
    .check 1 false, .arrive 0 [0x00], .peek 0 1, .arrive 1 [0x50], .peek 1 1,
    .arrive 1 [0x4F, 0x53, 0x54, 0x20], .storeDraining, .handle 0 false, .peek 1 2,
    .notifyWaiters, .handle 1 true]

end Llamesh.Api
