import Llamesh.Library.Octets

/-!
# Framing over a Noise session

`send_data` cuts a message into chunks, encrypts each, writes it after its length, and ends the
message with a zero length; `recv_data` reads frames until that length
(`src/noise/transport.rs:333–386`). A response body is a sequence of messages that an empty message
ends (`src/api.rs:1132–1160`, `src/noise/transport.rs:496–557`).

The stream is the list of octets still to be read, and the AEAD transport of the `snow` crate a
parameter: in order, decryption inverts encryption, which adds 16 octets.
-/

namespace Llamesh.Noise

open Octets

/-- `MAX_FRAME_SIZE`: the largest plaintext of one frame. `src/noise/transport.rs:21`. -/
def maxFrameSize : Nat := 65535 - 16

/-- `MAX_MESSAGE_SIZE`, 64 MiB; `src/noise/transport.rs:24`. -/
def maxMessageSize : Nat := 64 * 1024 * 1024

/-- One direction of a `snow` transport: the states of the two ends, and what encryption and
decryption do to them. Ends in step stay in step, as long as every ciphertext is decrypted in the
order of encryption. -/
structure SnowTransport where
  Sender : Type
  Receiver : Type
  writeMessage : Sender → List UInt8 → Option (List UInt8 × Sender)
  readMessage : Receiver → List UInt8 → Option (List UInt8 × Receiver)
  InStep : Sender → Receiver → Prop
  inOrder : ∀ s r plaintext, InStep s r → plaintext.length ≤ maxFrameSize →
    ∃ ciphertext s' r', writeMessage s plaintext = some (ciphertext, s') ∧
      ciphertext.length = plaintext.length + 16 ∧
      readMessage r ciphertext = some (plaintext, r') ∧ InStep s' r'

/-- The errors of the transport. -/
inductive TransportError where
  | encryptFailed
  | decryptFailed
  | frameTooLarge
  | messageTooLarge
  | closed
  | timedOut
deriving DecidableEq

variable (snow : SnowTransport)

/-- Encrypts and writes chunks, each after its length; `src/noise/transport.rs:374–379`. -/
def sendChunks (s : snow.Sender) : List (List UInt8) → Except TransportError
    (List (List UInt8) × snow.Sender)
  | [] => .ok ([], s)
  | chunk :: rest =>
    match snow.writeMessage s chunk with
    | none => .error .encryptFailed
    | some (encrypted, s) =>
      match sendChunks s rest with
      | .error e => .error e
      | .ok (frames, s) => .ok (encrypted :: frames, s)

/-- What stands on the wire for a frame: its length and its octets. -/
def frameOctets (encrypted : List UInt8) : List UInt8 := toBeBytes encrypted.length ++ encrypted

/-- `send_data`: the frames it writes and the octets on the wire;
`src/noise/transport.rs:368–386`. -/
def sendData (s : snow.Sender) (data : List UInt8) :
    Except TransportError (List (List UInt8) × List UInt8 × snow.Sender) :=
  match sendChunks snow s (chunks maxFrameSize data) with
  | .error e => .error e
  | .ok (frames, s) => .ok (frames, frames.flatMap frameOctets ++ toBeBytes 0, s)

/-- The loop of `recv_data`, `result` being what was read so far;
`src/noise/transport.rs:333–365`. -/
def recvLoop (r : snow.Receiver) (stream result : List UInt8) :
    Except TransportError (List UInt8 × snow.Receiver × List UInt8) :=
  match _h₁ : readExact 4 stream with
  | none => .error .closed
  | some (lenBuf, stream₁) =>
    let len := fromBeBytes lenBuf
    if len = 0 then .ok (result, r, stream₁)
    else if len > maxFrameSize + 16 then .error .frameTooLarge
    else match _h₂ : readExact len stream₁ with
      | none => .error .closed
      | some (encrypted, stream₂) =>
        match snow.readMessage r encrypted with
        | none => .error .decryptFailed
        | some (decrypted, r) =>
          let result := result ++ decrypted
          if result.length > maxMessageSize then .error .messageTooLarge
          else recvLoop r stream₂ result
termination_by stream.length
decreasing_by
  have h₁ := readExact_length _h₁
  have h₂ := readExact_length _h₂
  omega

/-- `recv_data`; `src/noise/transport.rs:333–365`. -/
def recvData (r : snow.Receiver) (stream : List UInt8) :
    Except TransportError (List UInt8 × snow.Receiver × List UInt8) :=
  recvLoop snow r stream []

/-- Sends messages one after the other: all frames, and all octets on the wire. -/
def sendAll (s : snow.Sender) : List (List UInt8) →
    Except TransportError (List (List UInt8) × List UInt8 × snow.Sender)
  | [] => .ok ([], [], s)
  | data :: rest =>
    match sendData snow s data with
    | .error e => .error e
    | .ok (frames, wire, s) =>
      match sendAll s rest with
      | .error e => .error e
      | .ok (frames', wire', s) => .ok (frames ++ frames', wire ++ wire', s)

/-- Receives `n` messages one after the other. -/
def recvTimes : Nat → snow.Receiver → List UInt8 →
    Except TransportError (List (List UInt8) × snow.Receiver × List UInt8)
  | 0, r, stream => .ok ([], r, stream)
  | n + 1, r, stream =>
    match recvData snow r stream with
    | .error e => .error e
    | .ok (data, r, stream) =>
      match recvTimes n r stream with
      | .error e => .error e
      | .ok (rest, r, stream) => .ok (data :: rest, r, stream)

/-! ## Response bodies -/

/-- The body part of `send_noise_response`: every non-empty data frame is a message, trailers and
empty frames are not, and an empty message ends the body; `src/api.rs:1150–1160`. -/
def sendBody (s : snow.Sender) : List (Option (List UInt8)) →
    Except TransportError (List UInt8 × snow.Sender)
  | [] => match sendData snow s [] with
    | .error e => .error e
    | .ok (_, wire, s) => .ok (wire, s)
  | frame :: rest =>
    match frame with
    | none => sendBody s rest
    | some data =>
      if data.isEmpty then sendBody s rest
      else match sendData snow s data with
        | .error e => .error e
        | .ok (_, wire, s) =>
          match sendBody s rest with
          | .error e => .error e
          | .ok (wire', s) => .ok (wire ++ wire', s)

/-- `NoiseBodyStream`: reading from a connection, after the body that came with the head if there
is one, or done. `src/noise/transport.rs:50–66`. -/
inductive NoiseBodyStream where
  | reading (r : snow.Receiver) (stream : List UInt8) (firstBody : Option (List UInt8))
  | done

/-- `into_body_stream`; `src/noise/transport.rs:78–93`. -/
def intoBodyStream (r : snow.Receiver) (stream firstBody : List UInt8) : NoiseBodyStream snow :=
  .reading r stream (if firstBody.isEmpty then none else some firstBody)

/-- `poll_next` once it is ready: the item, `none` at the end of the stream;
`src/noise/transport.rs:499–556`. `deadlinePassed` is the request's deadline at this poll. -/
def pollNext (body : NoiseBodyStream snow) (deadlinePassed : Bool) :
    Option (Except TransportError (List UInt8)) × NoiseBodyStream snow :=
  match body with
  | .done => (none, .done)
  | .reading r stream firstBody =>
    if deadlinePassed then (some (.error .timedOut), .done)
    else match firstBody with
      | some bytes => (some (.ok bytes), .reading r stream none)
      | none =>
        match recvData snow r stream with
        | .error e => (some (.error e), .done)
        | .ok (bytes, r, stream) =>
          if bytes.isEmpty then (none, .done) else (some (.ok bytes), .reading r stream none)

/-- The items of `n` polls within the deadline. -/
def pollTimes : Nat → NoiseBodyStream snow →
    List (Option (Except TransportError (List UInt8))) × NoiseBodyStream snow
  | 0, body => ([], body)
  | n + 1, body =>
    let (item, body) := pollNext snow body false
    let (items, body) := pollTimes n body
    (item :: items, body)

/-! ## One frame -/

variable {snow}

private theorem recvLoop_end (r : snow.Receiver) (rest result : List UInt8) :
    recvLoop snow r (toBeBytes 0 ++ rest) result = .ok (result, r, rest) := by
  have hread : readExact 4 (toBeBytes 0 ++ rest) = some (toBeBytes 0, rest) :=
    readExact_append (toBeBytes 0) rest
  have hzero : fromBeBytes (toBeBytes 0) = 0 := by decide
  rw [recvLoop]
  split
  · next h =>
    rw [hread] at h
    cases h
  · next lenBuf stream h =>
    rw [hread] at h
    cases h
    dsimp only
    rw [if_pos hzero]

private theorem recvLoop_frame {r r' : snow.Receiver} {encrypted plaintext : List UInt8}
    (hpos : encrypted.length ≠ 0) (hlimit : encrypted.length ≤ maxFrameSize + 16)
    (hdecrypt : snow.readMessage r encrypted = some (plaintext, r')) (rest result : List UInt8) :
    recvLoop snow r (frameOctets encrypted ++ rest) result =
      if (result ++ plaintext).length > maxMessageSize then .error .messageTooLarge
      else recvLoop snow r' rest (result ++ plaintext) := by
  have hlen : fromBeBytes (toBeBytes encrypted.length) = encrypted.length := by
    apply fromBeBytes_toBeBytes
    unfold maxFrameSize at hlimit
    omega
  have hread : readExact 4 (frameOctets encrypted ++ rest) =
      some (toBeBytes encrypted.length, encrypted ++ rest) := by
    rw [frameOctets, List.append_assoc]
    exact readExact_append (toBeBytes encrypted.length) (encrypted ++ rest)
  have hnot : ¬ encrypted.length > maxFrameSize + 16 := Nat.not_lt.mpr hlimit
  rw [recvLoop]
  split
  · next h =>
    rw [hread] at h
    cases h
  · next lenBuf stream h =>
    rw [hread] at h
    cases h
    dsimp only
    rw [hlen, if_neg hpos, if_neg hnot]
    split
    · next h =>
      rw [readExact_append] at h
      cases h
    · next octets stream h =>
      rw [readExact_append] at h
      cases h
      rw [hdecrypt]

/-! ## Messages -/

private theorem recvLoop_sendChunks (pieces : List (List UInt8))
    (hpieces : ∀ piece ∈ pieces, 0 < piece.length ∧ piece.length ≤ maxFrameSize) :
    ∀ {s : snow.Sender} {r : snow.Receiver}, snow.InStep s r →
      ∃ frames s' r', sendChunks snow s pieces = .ok (frames, s') ∧ snow.InStep s' r' ∧
        (∀ frame ∈ frames, frame.length ≤ maxFrameSize + 16) ∧
        ∀ result rest, result.length ≤ maxMessageSize →
          recvLoop snow r (frames.flatMap frameOctets ++ toBeBytes 0 ++ rest) result =
            if (result ++ pieces.flatten).length > maxMessageSize then .error .messageTooLarge
            else .ok (result ++ pieces.flatten, r', rest) := by
  induction pieces with
  | nil =>
    intro s r hstep
    refine ⟨[], s, r, rfl, hstep, by simp, ?_⟩
    intro result rest hresult
    have hnot : ¬ (result ++ ([] : List (List UInt8)).flatten).length > maxMessageSize := by
      rw [List.flatten_nil, List.append_nil]
      exact Nat.not_lt.mpr hresult
    rw [if_neg hnot, List.flatMap_nil, List.nil_append, recvLoop_end, List.flatten_nil,
      List.append_nil]
  | cons piece pieces ih =>
    intro s r hstep
    have hpiece := hpieces piece List.mem_cons_self
    obtain ⟨encrypted, s₁, r₁, hwrite, hlength, hread, hstep₁⟩ :=
      snow.inOrder s r piece hstep hpiece.2
    obtain ⟨frames, s', r', hsend, hstep', hframes, hrecv⟩ :=
      ih (fun p hp => hpieces p (List.mem_cons_of_mem piece hp)) hstep₁
    refine ⟨encrypted :: frames, s', r', ?_, hstep', ?_, ?_⟩
    · simp only [sendChunks, hwrite, hsend]
    · intro frame hframe
      rcases List.mem_cons.mp hframe with rfl | hframe
      · omega
      · exact hframes frame hframe
    · intro result rest hresult
      rw [List.flatMap_cons, List.append_assoc, List.append_assoc,
        recvLoop_frame (by omega) (by omega) hread, ← List.append_assoc, List.flatten_cons,
        ← List.append_assoc]
      by_cases hlarge : (result ++ piece).length > maxMessageSize
      · -- The limit is passed here: the rest of the message only adds to it.
        have hlarger : (result ++ piece ++ pieces.flatten).length > maxMessageSize := by
          rw [List.length_append]
          omega
        rw [if_pos hlarge, if_pos hlarger]
      · rw [if_neg hlarge]
        exact hrecv (result ++ piece) rest (Nat.not_lt.mp hlarge)

/-- What `recv_data` makes of what `send_data` wrote. -/
theorem recvData_sendData {s : snow.Sender} {r : snow.Receiver} (hstep : snow.InStep s r)
    (data : List UInt8) :
    ∃ frames wire s' r', sendData snow s data = .ok (frames, wire, s') ∧ snow.InStep s' r' ∧
      (∀ frame ∈ frames, frame.length ≤ maxFrameSize + 16) ∧
      ∀ rest, recvData snow r (wire ++ rest) =
        if data.length > maxMessageSize then .error .messageTooLarge
        else .ok (data, r', rest) := by
  have hframe : maxFrameSize ≠ 0 := by decide
  obtain ⟨frames, s', r', hsend, hstep', hframes, hrecv⟩ :=
    recvLoop_sendChunks (chunks maxFrameSize data) (fun _ h => length_of_mem_chunks h) hstep
  refine ⟨frames, frames.flatMap frameOctets ++ toBeBytes 0, s', r', ?_, hstep', hframes, ?_⟩
  · simp only [sendData, hsend]
  · intro rest
    rw [recvData, hrecv [] rest (Nat.zero_le _), List.nil_append, flatten_chunks hframe]

private theorem recvTimes_sendAll (messages : List (List UInt8))
    (hlimit : ∀ data ∈ messages, data.length ≤ maxMessageSize) :
    ∀ {s : snow.Sender} {r : snow.Receiver}, snow.InStep s r →
      ∃ frames wire s' r', sendAll snow s messages = .ok (frames, wire, s') ∧ snow.InStep s' r' ∧
        (∀ frame ∈ frames, frame.length ≤ maxFrameSize + 16) ∧
        ∀ rest, recvTimes snow messages.length r (wire ++ rest) = .ok (messages, r', rest) := by
  induction messages with
  | nil =>
    intro s r hstep
    exact ⟨[], [], s, r, rfl, hstep, by simp, fun rest => rfl⟩
  | cons data messages ih =>
    intro s r hstep
    obtain ⟨frames₁, wire₁, s₁, r₁, hsend₁, hstep₁, hframes₁, hrecv₁⟩ :=
      recvData_sendData hstep data
    obtain ⟨frames₂, wire₂, s₂, r₂, hsend₂, hstep₂, hframes₂, hrecv₂⟩ :=
      ih (fun d hd => hlimit d (List.mem_cons_of_mem data hd)) hstep₁
    have hdata : ¬ data.length > maxMessageSize :=
      Nat.not_lt.mpr (hlimit data List.mem_cons_self)
    refine ⟨frames₁ ++ frames₂, wire₁ ++ wire₂, s₂, r₂, ?_, hstep₂, ?_, ?_⟩
    · simp only [sendAll, hsend₁, hsend₂]
    · intro frame hframe
      rcases List.mem_append.mp hframe with hframe | hframe
      · exact hframes₁ frame hframe
      · exact hframes₂ frame hframe
    · intro rest
      simp only [List.length_cons, recvTimes, List.append_assoc, hrecv₁, hdata, if_false, hrecv₂]

/-! ## Bodies -/

/-- The messages of a body: its data frames that are not empty. -/
def bodyMessages (frames : List (Option (List UInt8))) : List (List UInt8) :=
  (frames.filterMap id).filter (· ≠ [])

private theorem flatten_bodyMessages (frames : List (Option (List UInt8))) :
    (bodyMessages frames).flatten = (frames.filterMap id).flatten := by
  unfold bodyMessages
  induction frames.filterMap id with
  | nil => rfl
  | cons data rest ih =>
    cases data with
    | nil => simpa using ih
    | cons b data => simpa using ih

@[simp] private theorem bodyMessages_nil : bodyMessages [] = [] := rfl

@[simp] private theorem bodyMessages_none (rest : List (Option (List UInt8))) :
    bodyMessages (none :: rest) = bodyMessages rest := rfl

private theorem pollTimes_done (k : Nat) :
    (pollTimes snow k .done).1 = List.replicate k none := by
  induction k with
  | zero => rfl
  | succ k ih =>
    rw [List.replicate_succ, ← ih]
    rfl

private theorem pollTimes_message {r r' : snow.Receiver} {stream rest data : List UInt8} {n : Nat}
    (hrecv : recvData snow r stream = .ok (data, r', rest)) (hdata : data.isEmpty = false) :
    (pollTimes snow (n + 1) (.reading r stream none)).1 =
      some (.ok data) :: (pollTimes snow n (.reading r' rest none)).1 := by
  simp only [pollTimes, pollNext, hrecv, hdata, Bool.false_eq_true, if_false]

private theorem pollTimes_end {r r' : snow.Receiver} {stream rest : List UInt8} {k : Nat}
    (hrecv : recvData snow r stream = .ok ([], r', rest)) :
    (pollTimes snow k (.reading r stream none)).1 = List.replicate k none := by
  cases k with
  | zero => rfl
  | succ k =>
    simp only [pollTimes, pollNext, hrecv, List.isEmpty_nil, Bool.false_eq_true, if_false,
      if_true, pollTimes_done, List.replicate_succ]

private theorem pollTimes_sendBody (frames : List (Option (List UInt8)))
    (hlimit : ∀ data, some data ∈ frames → data.length ≤ maxMessageSize) :
    ∀ {s : snow.Sender} {r : snow.Receiver}, snow.InStep s r →
      ∃ wire s', sendBody snow s frames = .ok (wire, s') ∧ (∃ r', snow.InStep s' r') ∧
        ∀ rest k, (pollTimes snow ((bodyMessages frames).length + k)
            (.reading r (wire ++ rest) none)).1 =
          (bodyMessages frames).map (fun data => some (.ok data)) ++ List.replicate k none := by
  induction frames with
  | nil =>
    intro s r hstep
    obtain ⟨pieces, wire, s', r', hsend, hstep', -, hrecv⟩ := recvData_sendData hstep []
    refine ⟨wire, s', ?_, ⟨r', hstep'⟩, ?_⟩
    · simp only [sendBody, hsend]
    · intro rest k
      have hend := hrecv rest
      rw [List.length_nil, if_neg (by decide)] at hend
      rw [bodyMessages_nil, List.length_nil, Nat.zero_add, List.map_nil, List.nil_append]
      exact pollTimes_end hend
  | cons frame frames ih =>
    intro s r hstep
    have hrest : ∀ data, some data ∈ frames → data.length ≤ maxMessageSize :=
      fun data hdata => hlimit data (List.mem_cons_of_mem frame hdata)
    cases frame with
    | none => exact ih hrest hstep
    | some data =>
      cases hempty : data.isEmpty with
      | true =>
        obtain ⟨wire, s', hsend, hstep', hpoll⟩ := ih hrest hstep
        have hnil : data = [] := List.isEmpty_iff.mp hempty
        have hsame : bodyMessages (some data :: frames) = bodyMessages frames := by
          simp [bodyMessages, hnil]
        refine ⟨wire, s', ?_, hstep', ?_⟩
        · simp only [sendBody, hempty, if_true, hsend]
        · rw [hsame]
          exact hpoll
      | false =>
        have hcons : bodyMessages (some data :: frames) = data :: bodyMessages frames := by
          have hne : data ≠ [] := by
            rintro rfl
            cases hempty
          simp [bodyMessages, hne]
        obtain ⟨pieces, wire₁, s₁, r₁, hsend₁, hstep₁, -, hrecv₁⟩ := recvData_sendData hstep data
        obtain ⟨wire₂, s₂, hsend₂, hstep₂, hpoll₂⟩ := ih hrest hstep₁
        have hdata : ¬ data.length > maxMessageSize :=
          Nat.not_lt.mpr (hlimit data List.mem_cons_self)
        refine ⟨wire₁ ++ wire₂, s₂, ?_, hstep₂, ?_⟩
        · simp only [sendBody, hempty, Bool.false_eq_true, if_false, hsend₁, hsend₂]
        · intro rest k
          have hnext := hrecv₁ (wire₂ ++ rest)
          rw [if_neg hdata, ← List.append_assoc] at hnext
          rw [hcons, List.length_cons, Nat.add_right_comm, pollTimes_message hnext hempty, hpoll₂,
            List.map_cons, List.cons_append]

/-- Over ends in step, messages within the limit arrive as they were sent, in frames the receiver
accepts; and a body of data frames within the limit is read as its non-empty frames, which
concatenate to the whole body, and then ends for good. -/
theorem framing_round_trip {snow : SnowTransport} {s : snow.Sender} {r : snow.Receiver}
    (hstep : snow.InStep s r) :
    (∀ messages : List (List UInt8), (∀ data ∈ messages, data.length ≤ maxMessageSize) →
      ∃ frames wire s' r', sendAll snow s messages = .ok (frames, wire, s') ∧ snow.InStep s' r' ∧
        (∀ frame ∈ frames, frame.length ≤ maxFrameSize + 16) ∧
        ∀ rest, recvTimes snow messages.length r (wire ++ rest) = .ok (messages, r', rest)) ∧
    (∀ frames : List (Option (List UInt8)),
      (∀ data, some data ∈ frames → data.length ≤ maxMessageSize) →
      (bodyMessages frames).flatten = (frames.filterMap id).flatten ∧
      ∃ wire s', sendBody snow s frames = .ok (wire, s') ∧
        ∀ rest k, (pollTimes snow ((bodyMessages frames).length + k)
            (intoBodyStream snow r (wire ++ rest) [])).1 =
          (bodyMessages frames).map (fun data => some (.ok data)) ++ List.replicate k none) := by
  constructor
  · intro messages hlimit
    exact recvTimes_sendAll messages hlimit hstep
  · intro frames hlimit
    obtain ⟨wire, s', hsend, -, hpoll⟩ := pollTimes_sendBody frames hlimit hstep
    exact ⟨flatten_bodyMessages frames, wire, s', hsend, hpoll⟩

/-! ## A counting transport -/

/-- A transport whose tag is the number of the message, as 16 equal octets. -/
def countingTransport : SnowTransport where
  Sender := Nat
  Receiver := Nat
  writeMessage n plaintext := some (plaintext ++ List.replicate 16 (UInt8.ofNat n), n + 1)
  readMessage n ciphertext :=
    let length := ciphertext.length - 16
    if ciphertext.drop length = List.replicate 16 (UInt8.ofNat n) then
      some (ciphertext.take length, n + 1)
    else none
  InStep s r := s = r
  inOrder := by
    rintro n _ plaintext rfl -
    refine ⟨_, n + 1, n + 1, rfl, by simp, ?_, rfl⟩
    simp

/-- An empty message, an octet and the end of a body with an empty frame, over that transport. -/
theorem countingTransport_round_trip :
    (∃ frames wire s' r',
      sendAll countingTransport (0 : Nat) [[], [7]] = .ok (frames, wire, s') ∧
        countingTransport.InStep s' r' ∧
        (∀ frame ∈ frames, frame.length ≤ maxFrameSize + 16) ∧
        ∀ rest, recvTimes countingTransport 2 (0 : Nat) (wire ++ rest) =
          .ok ([[], [7]], r', rest)) ∧
      ∃ wire s', sendBody countingTransport (0 : Nat) [some [], some [7]] = .ok (wire, s') ∧
        ∀ rest k, (pollTimes countingTransport (1 + k)
            (intoBodyStream countingTransport (0 : Nat) (wire ++ rest) [])).1 =
          some (.ok [7]) :: List.replicate k none := by
  have hstep : countingTransport.InStep (0 : Nat) (0 : Nat) := rfl
  have htrip := framing_round_trip hstep
  refine ⟨htrip.1 [[], [7]] ?_, (htrip.2 [some [], some [7]] ?_).2⟩
  · decide
  · intro data hdata
    rw [List.mem_cons, List.mem_singleton, Option.some.injEq, Option.some.injEq] at hdata
    rcases hdata with rfl | rfl
    · decide
    · decide

private theorem pollNext_oversized {s : snow.Sender} {r : snow.Receiver} (hstep : snow.InStep s r)
    {data : List UInt8} (hempty : data.isEmpty = false) (hlarge : data.length > maxMessageSize) :
    ∃ wire s', sendBody snow s [some data] = .ok (wire, s') ∧
      (pollNext snow (intoBodyStream snow r wire []) false).1 =
        some (.error .messageTooLarge) := by
  obtain ⟨pieces, wire, s₁, r₁, hsend, hstep₁, -, hrecv⟩ := recvData_sendData hstep data
  obtain ⟨pieces', wire', s₂, r₂, hend, -⟩ := recvData_sendData hstep₁ []
  refine ⟨wire ++ wire', s₂, ?_, ?_⟩
  · simp only [sendBody, hempty, Bool.false_eq_true, if_false, hsend, hend]
  · have herror := hrecv wire'
    rw [if_pos hlarge] at herror
    simp only [pollNext, intoBodyStream, List.isEmpty_nil, if_true, Bool.false_eq_true, if_false,
      herror]

/-- A body frame of 64 MiB and one octet is sent, and the body stream fails on it. -/
theorem oversized_chunk_fails :
    ∃ wire s', sendBody countingTransport (0 : Nat)
        [some (List.replicate (maxMessageSize + 1) 0)] = .ok (wire, s') ∧
      (pollNext countingTransport (intoBodyStream countingTransport (0 : Nat) wire []) false).1 =
        some (.error .messageTooLarge) := by
  have hstep : countingTransport.InStep (0 : Nat) (0 : Nat) := rfl
  apply pollNext_oversized hstep
  · rw [List.replicate_succ, List.isEmpty_cons]
  · rw [List.length_replicate]
    exact Nat.lt_succ_self maxMessageSize

end Llamesh.Noise
