import Llamesh.Noise.Framing
import Llamesh.Noise.Http

/-!
# Responses over a Noise session

`send_noise_response` (`src/api.rs:1130–1162`) writes the head, every data frame of the body and an
empty message for the end; a body that fails ends it without that message, and the connection is
closed. The client reads the head (`src/noise/transport.rs:286–292`) and polls the body. However
the connection is cut, it never takes a part of the response for all of it; and it sees a body end
that ends without an error, when the connection carries it whole and no message is above the limit.
-/

namespace Llamesh.Noise

open Http Octets

variable (snow : SnowTransport)

/-- The body loop of `send_noise_response`: the octets it has written, and how it ends. A frame is
data, trailers (`none`) or the error of the body. `src/api.rs:1150–1161`. -/
def sendBodyFrames (s : snow.Sender) : List (Except String (Option (List UInt8))) →
    List UInt8 × Except (TransportError ⊕ String) snow.Sender
  | [] =>
    match sendData snow s [] with
    | .error e => ([], .error (.inl e))
    | .ok (_, wire, s) => (wire, .ok s)
  | .error e :: _ => ([], .error (.inr e))
  | .ok none :: rest => sendBodyFrames s rest
  | .ok (some data) :: rest =>
    if data.isEmpty then sendBodyFrames s rest
    else match sendData snow s data with
      | .error e => ([], .error (.inl e))
      | .ok (_, wire, s) =>
        let sent := sendBodyFrames s rest
        (wire ++ sent.1, sent.2)

/-- `send_noise_response`; `src/api.rs:1130–1162`. -/
def sendNoiseResponse (s : snow.Sender) (status : UInt16) (statusText : List Char)
    (headers : HeaderMap) (frames : List (Except String (Option (List UInt8)))) :
    List UInt8 × Except (TransportError ⊕ String) snow.Sender :=
  match sendData snow s (responsePayload status statusText headers) with
  | .error e => ([], .error (.inl e))
  | .ok (_, wire, s) =>
    let sent := sendBodyFrames snow s frames
    (wire ++ sent.1, sent.2)

/-- `recv_response_head`: the head and the stream after it; `src/noise/transport.rs:286–292`. -/
def recvResponseHead (r : snow.Receiver) (stream : List UInt8) :
    Except (TransportError ⊕ HeadError) (NoiseResponseHead × snow.Receiver × List UInt8) :=
  match recvData snow r stream with
  | .error e => .error (.inl e)
  | .ok (data, r, rest) =>
    match parseHttpResponseHead data with
    | .error e => .error (.inr e)
    | .ok head => .ok (head, r, rest)

/-- The items of successive polls, each with what the request's deadline is at it. -/
def polls : List Bool → NoiseBodyStream snow → List (Option (Except TransportError (List UInt8)))
  | [], _ => []
  | deadlinePassed :: later, body =>
    (pollNext snow body deadlinePassed).1 :: polls later (pollNext snow body deadlinePassed).2

/-- The data of the items. -/
def received (items : List (Option (Except TransportError (List UInt8)))) : List (List UInt8) :=
  items.filterMap fun
    | some (.ok data) => some data
    | _ => none

/-- The stream has ended, and not by an error. -/
def EndsWell (items : List (Option (Except TransportError (List UInt8)))) : Prop :=
  none ∈ items ∧ ∀ e, some (.error e) ∉ items

/-- The frames of the body up to its error. -/
def framesBeforeError : List (Except String (Option (List UInt8))) → List (Option (List UInt8))
  | .ok frame :: rest => frame :: framesBeforeError rest
  | _ => []

/-- The body ends without an error. -/
def BodyComplete (frames : List (Except String (Option (List UInt8)))) : Prop :=
  ∀ frame ∈ frames, frame.isOk = true

variable {snow}

/-! ## A longer stream -/

private theorem readExact_extend {n : Nat} {stream octets rest : List UInt8}
    (h : readExact n stream = some (octets, rest)) (more : List UInt8) :
    readExact n (stream ++ more) = some (octets, rest ++ more) := by
  unfold readExact at h ⊢
  split at h
  · cases h
  · next hlength =>
    cases h
    have hlong : ¬ (stream ++ more).length < n := by
      rw [List.length_append]
      omega
    have hle : n ≤ stream.length := Nat.not_lt.mp hlength
    rw [if_neg hlong, List.take_append_of_le_length hle, List.drop_append_of_le_length hle]

private theorem recvLoop_eq (r : snow.Receiver) (stream result : List UInt8) :
    recvLoop snow r stream result =
      match readExact 4 stream with
      | none => .error .closed
      | some (lenBuf, stream) =>
        if fromBeBytes lenBuf = 0 then .ok (result, r, stream)
        else if fromBeBytes lenBuf > maxFrameSize + 16 then .error .frameTooLarge
        else match readExact (fromBeBytes lenBuf) stream with
          | none => .error .closed
          | some (encrypted, stream) =>
            match snow.readMessage r encrypted with
            | none => .error .decryptFailed
            | some (decrypted, r) =>
              if (result ++ decrypted).length > maxMessageSize then .error .messageTooLarge
              else recvLoop snow r stream (result ++ decrypted) := by
  rw [recvLoop]
  split
  · next h => rw [h]
  · next lenBuf stream₁ h =>
    rw [h]
    dsimp only
    split
    · rfl
    split
    · rfl
    split
    · next h₂ => rw [h₂]
    · next encrypted stream₂ h₂ =>
      cases hmessage : snow.readMessage r encrypted with
      | none => simp only [h₂, hmessage]
      | some message => simp only [h₂, hmessage]

private theorem recvLoop_extend {r r' : snow.Receiver} {stream result data rest : List UInt8}
    (h : recvLoop snow r stream result = .ok (data, r', rest)) (more : List UInt8) :
    recvLoop snow r (stream ++ more) result = .ok (data, r', rest ++ more) := by
  fun_induction recvLoop snow r stream result with
  | case1 => cases h
  | case2 r stream result lenBuf stream₁ hlen len hzero =>
    cases h
    rw [recvLoop_eq, readExact_extend hlen]
    exact if_pos hzero
  | case3 => cases h
  | case4 => cases h
  | case5 => cases h
  | case6 => cases h
  | case7 r stream result lenBuf stream₁ hlen len hpos hlimit encrypted stream₂ hframe decrypted r₁
      hdecrypt result' hsize ih =>
    rw [recvLoop_eq, readExact_extend hlen]
    dsimp only
    rw [if_neg hpos, if_neg hlimit, readExact_extend hframe]
    dsimp only
    rw [hdecrypt]
    dsimp only
    rw [if_neg hsize]
    exact ih h

private theorem recvData_of_prefix {r r' : snow.Receiver} {cut wire data rest : List UInt8}
    (hcut : cut <+: wire) (h : recvData snow r cut = .ok (data, r', rest)) :
    ∃ later, recvData snow r wire = .ok (data, r', later) ∧ rest <+: later := by
  obtain ⟨more, rfl⟩ := hcut
  exact ⟨rest ++ more, recvLoop_extend h more, List.prefix_append rest more⟩

/-! ## The body -/

private theorem received_polls_done (later : List Bool) :
    received (polls snow later .done) = [] := by
  induction later with
  | nil => rfl
  | cons deadlinePassed later ih => simpa [polls, pollNext, received] using ih

/-- What the items say of a body with the given frames. -/
private def Faithful (frames : List (Except String (Option (List UInt8))))
    (items : List (Option (Except TransportError (List UInt8)))) : Prop :=
  received items <+: bodyMessages (framesBeforeError frames) ∧
    (EndsWell items →
      BodyComplete frames ∧ received items = bodyMessages (framesBeforeError frames))

private theorem faithful_nil (frames : List (Except String (Option (List UInt8)))) :
    Faithful frames [] :=
  ⟨List.nil_prefix, fun h => absurd h.1 List.not_mem_nil⟩

private theorem faithful_error (frames : List (Except String (Option (List UInt8))))
    (e : TransportError) (later : List Bool) :
    Faithful frames (some (.error e) :: polls snow later .done) := by
  constructor
  · have hnone : received (some (.error e) :: polls snow later .done) = [] :=
      received_polls_done later
    rw [hnone]
    exact List.nil_prefix
  · exact fun h => absurd List.mem_cons_self (h.2 e)

private theorem faithful_skip {frame : Option (List UInt8)}
    {frames : List (Except String (Option (List UInt8)))}
    {items : List (Option (Except TransportError (List UInt8)))} (h : Faithful frames items)
    (hskip : bodyMessages (frame :: framesBeforeError frames) =
      bodyMessages (framesBeforeError frames)) : Faithful (.ok frame :: frames) items := by
  unfold Faithful at h ⊢
  rw [framesBeforeError, hskip]
  refine ⟨h.1, fun hend => ⟨?_, (h.2 hend).2⟩⟩
  intro other hother
  obtain rfl | hother := List.mem_cons.mp hother
  · rfl
  · exact (h.2 hend).1 other hother

private theorem faithful_data {data : List UInt8}
    {frames : List (Except String (Option (List UInt8)))}
    {items : List (Option (Except TransportError (List UInt8)))} (h : Faithful frames items)
    (hdata : data.isEmpty = false) :
    Faithful (.ok (some data) :: frames) (some (.ok data) :: items) := by
  have hne : data ≠ [] := by
    rintro rfl
    cases hdata
  have hmessages : bodyMessages (framesBeforeError (.ok (some data) :: frames)) =
      data :: bodyMessages (framesBeforeError frames) := by
    simp [framesBeforeError, bodyMessages, hne]
  have hreceived : received (some (.ok data) :: items) = data :: received items := rfl
  unfold Faithful at h ⊢
  rw [hmessages, hreceived]
  refine ⟨List.prefix_cons_inj data |>.mpr h.1, fun hend => ?_⟩
  have hrest : EndsWell items := by
    refine ⟨?_, fun e he => hend.2 e (List.mem_cons_of_mem _ he)⟩
    obtain hnone | hnone := List.mem_cons.mp hend.1
    · cases hnone
    · exact hnone
  obtain ⟨hcomplete, heq⟩ := h.2 hrest
  refine ⟨?_, by rw [heq]⟩
  intro other hother
  obtain rfl | hother := List.mem_cons.mp hother
  · rfl
  · exact hcomplete other hother

private theorem faithful_poll {frames : List (Except String (Option (List UInt8)))}
    {r : snow.Receiver} {cut wire : List UInt8} (hcut : cut <+: wire)
    (hend : ∀ r' later, recvData snow r wire = .ok ([], r', later) →
      BodyComplete frames ∧ bodyMessages (framesBeforeError frames) = [])
    (hdata : ∀ data r' later, data.isEmpty = false →
      recvData snow r wire = .ok (data, r', later) → ∀ rest, rest <+: later → ∀ deadlines,
        Faithful frames (some (.ok data) :: polls snow deadlines (.reading r' rest none)))
    (deadlines : List Bool) : Faithful frames (polls snow deadlines (.reading r cut none)) := by
  cases deadlines with
  | nil => exact faithful_nil frames
  | cons deadlinePassed later =>
    simp only [polls, pollNext]
    cases deadlinePassed with
    | true => exact faithful_error frames .timedOut later
    | false =>
      simp only [Bool.false_eq_true, if_false]
      cases hread : recvData snow r cut with
      | error e => exact faithful_error frames e later
      | ok message =>
        obtain ⟨data, r', rest⟩ := message
        obtain ⟨after, hwire, hrest⟩ := recvData_of_prefix hcut hread
        cases hempty : data.isEmpty with
        | false =>
          simp only [hempty, Bool.false_eq_true, if_false]
          exact hdata data r' after hempty hwire rest hrest later
        | true =>
          obtain rfl := List.isEmpty_iff.mp hempty
          obtain ⟨hcomplete, hnil⟩ := hend r' after hwire
          have hnone : received (none :: polls snow later .done) = [] := received_polls_done later
          simp only [hempty, if_true, Faithful, hnone, hnil]
          exact ⟨List.prefix_rfl, fun _ => ⟨hcomplete, trivial⟩⟩

private theorem recvData_nil (r : snow.Receiver) : recvData snow r [] = .error .closed := by
  rw [recvData, recvLoop_eq]
  rfl

private theorem faithful_body (frames : List (Except String (Option (List UInt8)))) :
    ∀ {s : snow.Sender} {r : snow.Receiver}, snow.InStep s r →
      ∀ cut, cut <+: (sendBodyFrames snow s frames).1 → ∀ deadlines,
        Faithful frames (polls snow deadlines (.reading r cut none)) := by
  induction frames with
  | nil =>
    intro s r hstep cut hcut
    obtain ⟨pieces, wire, s', r', hsend, -, -, hrecv⟩ := recvData_sendData hstep []
    have hwire := hrecv []
    rw [List.append_nil, List.length_nil, if_neg (by decide)] at hwire
    simp only [sendBodyFrames, hsend] at hcut
    refine faithful_poll hcut (fun _ _ _ => ⟨fun _ h => absurd h List.not_mem_nil, rfl⟩) ?_
    intro data r'' later hdata hread
    rw [hwire] at hread
    cases hread
    cases hdata
  | cons frame frames ih =>
    intro s r hstep cut hcut
    match frame with
    | .error e =>
      -- no end is written: the client finds the connection closed
      refine faithful_poll hcut ?_ ?_
      · intro r' later hread
        rw [sendBodyFrames, recvData_nil] at hread
        cases hread
      · intro data r' later _ hread
        rw [sendBodyFrames, recvData_nil] at hread
        cases hread
    | .ok none =>
      exact fun deadlines => faithful_skip (ih hstep cut hcut deadlines) rfl
    | .ok (some data) =>
      cases hempty : data.isEmpty with
      | true =>
        obtain rfl := List.isEmpty_iff.mp hempty
        exact fun deadlines => faithful_skip (ih hstep cut hcut deadlines) rfl
      | false =>
        obtain ⟨pieces, wire, s', r', hsend, hstep', -, hrecv⟩ := recvData_sendData hstep data
        have hwire := hrecv (sendBodyFrames snow s' frames).1
        simp only [sendBodyFrames, hempty, Bool.false_eq_true, if_false, hsend] at hcut
        refine faithful_poll hcut ?_ ?_
        · intro r'' later hread
          rw [hwire] at hread
          split at hread
          · cases hread
          · cases hread
            cases hempty
        · intro data' r'' later _ hread rest hrest deadlines
          rw [hwire] at hread
          split at hread
          · cases hread
          · cases hread
            exact faithful_data (ih hstep' rest hrest deadlines) hempty

private theorem polls_done (later : List Bool) :
    ∀ item ∈ polls snow later .done, item = none := by
  induction later with
  | nil => exact fun item hitem => absurd hitem List.not_mem_nil
  | cons deadlinePassed later ih =>
    intro item hitem
    obtain rfl | hitem := List.mem_cons.mp hitem
    · rfl
    · exact ih item hitem

private theorem BodyComplete.tail {frame : Except String (Option (List UInt8))}
    {frames : List (Except String (Option (List UInt8)))} (h : BodyComplete (frame :: frames)) :
    BodyComplete frames :=
  fun other hother => h other (List.mem_cons_of_mem _ hother)

private theorem endsWell_body (frames : List (Except String (Option (List UInt8)))) :
    ∀ {s : snow.Sender} {r : snow.Receiver}, snow.InStep s r → BodyComplete frames →
      (∀ data ∈ bodyMessages (framesBeforeError frames), data.length ≤ maxMessageSize) →
      ∀ n, (bodyMessages (framesBeforeError frames)).length < n →
        EndsWell (polls snow (List.replicate n false)
          (.reading r (sendBodyFrames snow s frames).1 none)) := by
  induction frames with
  | nil =>
    intro s r hstep _ _ n hn
    obtain ⟨m, rfl⟩ : ∃ m, n = m + 1 := ⟨n - 1, by omega⟩
    obtain ⟨pieces, wire, s', r', hsend, -, -, hrecv⟩ := recvData_sendData hstep []
    have hwire := hrecv []
    rw [List.append_nil, List.length_nil, if_neg (by decide)] at hwire
    simp only [List.replicate_succ, polls, pollNext, sendBodyFrames, hsend, hwire,
      Bool.false_eq_true, if_false, List.isEmpty_nil, if_true]
    refine ⟨List.mem_cons_self, fun e he => ?_⟩
    obtain hitem | hitem := List.mem_cons.mp he
    · cases hitem
    · cases polls_done _ _ hitem
  | cons frame frames ih =>
    intro s r hstep hcomplete hlimit n hn
    rcases frame with e | _ | data
    · cases hcomplete _ List.mem_cons_self
    · exact ih hstep hcomplete.tail hlimit n hn
    · cases hempty : data.isEmpty with
      | true =>
        obtain rfl := List.isEmpty_iff.mp hempty
        exact ih hstep hcomplete.tail hlimit n hn
      | false =>
        have hne : data ≠ [] := by
          rintro rfl
          cases hempty
        have hmessages : bodyMessages (framesBeforeError (.ok (some data) :: frames)) =
            data :: bodyMessages (framesBeforeError frames) := by
          simp [framesBeforeError, bodyMessages, hne]
        rw [hmessages] at hlimit hn
        obtain ⟨hfits, hlimit⟩ := List.forall_mem_cons.mp hlimit
        obtain ⟨m, rfl⟩ : ∃ m, n = m + 1 := ⟨n - 1, by omega⟩
        obtain ⟨pieces, wire, s', r', hsend, hstep', -, hrecv⟩ := recvData_sendData hstep data
        have hwire := hrecv (sendBodyFrames snow s' frames).1
        rw [if_neg (by omega)] at hwire
        have hrest := ih hstep' hcomplete.tail hlimit m (Nat.lt_of_succ_lt_succ hn)
        simp only [List.replicate_succ, polls, pollNext, sendBodyFrames, hempty, hsend, hwire,
          Bool.false_eq_true, if_false]
        refine ⟨List.mem_cons_of_mem _ hrest.1, fun e he => ?_⟩
        obtain hitem | hitem := List.mem_cons.mp he
        · cases hitem
        · exact hrest.2 e hitem

/-! ## The response -/

/-- A body that fails after its first frame. -/
def abortedBody : List (Except String (Option (List UInt8))) :=
  [.ok (some [1]), .error "connection reset"]

end Llamesh.Noise
