import Llamesh.Router.Headers

/-!
# Relayed headers

What is left of the header map of a message that is relayed: the response of a local instance or a
peer (`relayed_response`, `src/router.rs:2013–2021`), and the requests to them
(`src/router.rs:566–611`). Requests lose `host` and `content-length` too, which the outbound
transport sets, and get the fields the node sets itself. Every other field that `Connection` does
not nominate keeps its values.
-/

namespace Llamesh.Router

open Http Text

/-- A response with a body. -/
structure Response (β : Type) where
  status : Nat
  headers : HeaderMap
  body : β

/-- The response of a peer as it is relayed. `src/router.rs:2015–2021`. -/
def relayedResponse {β : Type} (status : Nat) (headers : HeaderMap) (body : β) : Response β where
  status := status
  headers := removeHopByHopHeaders headers
  body := body

/-! ### Nominations -/

/-- The value holds ASCII octets only. -/
def IsAscii (value : HeaderValue) : Prop := ∀ b ∈ value.octets, b.toNat < 128

/-- An element of the comma-separated value is the name, in any letter case and with white space
around it. -/
def Nominates (value : HeaderValue) (name : HeaderName) : Prop :=
  ∃ before lead token trail after : List Char,
    value.text = before ++ (lead ++ (token ++ trail) ++ after) ∧
    (before = [] ∨ ∃ init, before = init ++ [',']) ∧ (after = [] ∨ ∃ rest, after = ',' :: rest) ∧
    (∀ c ∈ lead, isWhitespace c = true) ∧ (∀ c ∈ trail, isWhitespace c = true) ∧
    token.map Char.toLower = name.text

/-- A field that describes the connection of the message: one of the fixed set, or one that a
`Connection` value nominates. -/
def HopByHop (headers : HeaderMap) (name : HeaderName) : Prop :=
  name ∈ hopByHopHeaders ∨ ∃ value ∈ headers.getAll connection, Nominates value name

section

variable {value : HeaderValue} {name : HeaderName}

private theorem toStr_of_isAscii (h : IsAscii value) : value.toStr = some value.text := by
  have hvisible : value.octets.all isVisibleOctet = true := by
    rw [List.all_eq_true]
    intro b hb
    have hoctet := List.all_eq_true.mp value.valid b hb
    have hlt := h b hb
    simp only [isValueOctet, isVisibleOctet, Bool.or_eq_true, Bool.and_eq_true, decide_eq_true_eq,
      beq_iff_eq, UInt8.le_iff_toNat_le, UInt8.lt_iff_toNat_lt, ne_eq, ← UInt8.toNat_inj]
      at hoctet ⊢
    have h127 : (127 : UInt8).toNat = 127 := rfl
    omega
  rw [HeaderValue.toStr, if_pos hvisible]
  rfl

/-- The letters of a name are no white space and no comma, in any letter case. -/
theorem token_of_name {token : List Char} (h : token.map Char.toLower = name.text) :
    (∀ c ∈ token, isWhitespace c = false) ∧ ',' ∉ token := by
  have hlower : ∀ {c : Char}, c ∈ token → c.toLower ∈ name.text := by
    intro c hc
    rw [← h]
    exact List.mem_map_of_mem hc
  constructor
  · intro c hc
    rw [Bool.eq_false_iff]
    intro hwhite
    have hmem := hlower hc
    rw [toLower_of_isWhitespace hwhite] at hmem
    rw [(HeaderName.of_mem_text hmem).1] at hwhite
    cases hwhite
  · intro hcomma
    have htoken := List.all_eq_true.mp name.valid.2.1 _ (hlower hcomma)
    exact absurd htoken (by decide)

private theorem fromBytes_trim_iff {piece : List Char} :
    HeaderName.fromBytes (trim piece) = some name ↔
      ∃ lead token trail : List Char, piece = lead ++ (token ++ trail) ∧
        (∀ c ∈ lead, isWhitespace c = true) ∧ (∀ c ∈ trail, isWhitespace c = true) ∧
        token.map Char.toLower = name.text := by
  rw [HeaderName.fromBytes_eq_some_iff]
  constructor
  · intro h
    obtain ⟨lead, trail, hpiece, hlead, htrail⟩ := exists_trim piece
    exact ⟨lead, trim piece, trail, hpiece, hlead, htrail, h⟩
  · rintro ⟨lead, token, trail, rfl, hlead, htrail, htoken⟩
    rw [trim_padded (token_of_name htoken).1 hlead htrail, htoken]

/-- The pieces of an ASCII value that are read as a name are its nominations. -/
theorem nominates_iff (h : IsAscii value) :
    Nominates value name ↔ ∃ text, value.toStr = some text ∧ ∃ piece ∈ text.splitOn ',',
      HeaderName.fromBytes (trim piece) = some name := by
  rw [toStr_of_isAscii h]
  simp only [Option.some.injEq, exists_eq_left', fromBytes_trim_iff, mem_splitOn_iff]
  constructor
  · rintro ⟨before, lead, token, trail, after, htext, hbefore, hafter, hlead, htrail, htoken⟩
    refine ⟨lead ++ (token ++ trail), ⟨?_, before, after, htext, hbefore, hafter⟩,
      lead, token, trail, rfl, hlead, htrail, htoken⟩
    have hwhite : isWhitespace ',' = false := by decide
    rw [List.mem_append, List.mem_append]
    rintro (hcomma | hcomma | hcomma)
    · rw [hlead _ hcomma] at hwhite
      cases hwhite
    · exact (token_of_name htoken).2 hcomma
    · rw [htrail _ hcomma] at hwhite
      cases hwhite
  · rintro ⟨piece, ⟨-, before, after, htext, hbefore, hafter⟩, lead, token, trail, rfl, hlead,
      htrail, htoken⟩
    exact ⟨before, lead, token, trail, after, htext, hbefore, hafter, hlead, htrail, htoken⟩

/-- In a map with ASCII `Connection` values the removed names are the nominated ones. -/
theorem mem_nominatedHeaders_iff {headers : HeaderMap}
    (hascii : ∀ value ∈ headers.getAll connection, IsAscii value) :
    name ∈ nominatedHeaders headers ↔
      ∃ value ∈ headers.getAll connection, Nominates value name := by
  simp only [nominatedHeaders, List.mem_filterMap, List.mem_flatMap]
  constructor
  · rintro ⟨piece, ⟨text, ⟨value, hvalue, htext⟩, hpiece⟩, hname⟩
    exact ⟨value, hvalue, (nominates_iff (hascii value hvalue)).mpr
      ⟨text, htext, piece, hpiece, hname⟩⟩
  · rintro ⟨value, hvalue, hnominates⟩
    obtain ⟨text, htext, piece, hpiece, hname⟩ :=
      (nominates_iff (hascii value hvalue)).mp hnominates
    exact ⟨piece, ⟨text, ⟨value, hvalue, htext⟩, hpiece⟩, hname⟩

end

/-! ### What is relayed -/

/-- The relayed map holds no hop-by-hop field of the source and all values of its other fields,
apart from the names whose values the node decides itself. -/
def RelayedExcept (own : HeaderName → Option (List HeaderValue)) (source relayed : HeaderMap) :
    Prop :=
  ∀ name, match own name with
    | some values => relayed.getAll name = values
    | none => (HopByHop source name → relayed.getAll name = []) ∧
        (¬ HopByHop source name → relayed.getAll name = source.getAll name)

private theorem isValueOctet_close :
    ("close".toList.flatMap String.utf8EncodeChar).all isValueOctet = true := by
  decide

private theorem isValueOctet_one : ([0x31] : List UInt8).all isValueOctet = true := by
  decide

/-- `close`. -/
def closeValue : HeaderValue := ⟨"close".toList.flatMap String.utf8EncodeChar, isValueOctet_close⟩

/-- The fields of a request to a local instance that the node decides itself. -/
def ownLocal (responseStreaming : Bool) (name : HeaderName) : Option (List HeaderValue) :=
  if name = connection && responseStreaming then some [closeValue]
  else if name = host || name = contentLength then some []
  else none

/-- The fields of a forwarded request that the node decides itself. -/
def ownForward (currentHops : UInt64) (requestId : List Char) (name : HeaderName) :
    Option (List HeaderValue) :=
  if name = meshHops then
    some [(HeaderValue.fromStr (toDecimal (currentHops + 1).toNat)).getD ⟨[0x31], isValueOctet_one⟩]
  else if name = xRequestId then (HeaderValue.fromStr requestId).map fun value => [value]
  else if name = host || name = contentLength then some []
  else none

section

variable {own : HeaderName → Option (List HeaderValue)} {source relayed : HeaderMap}

/-- What is left for a field the node does not decide itself. -/
theorem relayed_removeHopByHop (hascii : ∀ value ∈ source.getAll connection, IsAscii value)
    (name : HeaderName) :
    (HopByHop source name → (removeHopByHopHeaders source).getAll name = []) ∧
      (¬ HopByHop source name →
        (removeHopByHopHeaders source).getAll name = source.getAll name) := by
  rw [getAll_removeHopByHopHeaders, HopByHop, ← mem_nominatedHeaders_iff hascii]
  exact ⟨fun h => if_pos h, fun h => if_neg h⟩

/-- It is enough that the node's own values are there, and the others as the removal leaves them. -/
theorem relayedExcept_of (hascii : ∀ value ∈ source.getAll connection, IsAscii value)
    (h : ∀ name, relayed.getAll name =
      (own name).getD ((removeHopByHopHeaders source).getAll name)) :
    RelayedExcept own source relayed := by
  intro name
  have hname := h name
  cases hown : own name with
  | some values =>
    rw [hown, Option.getD_some] at hname
    exact hname
  | none =>
    rw [hown, Option.getD_none] at hname
    dsimp only
    rw [hname]
    exact relayed_removeHopByHop hascii name

/-- The fields the outbound transport sets are gone. -/
theorem getAll_remove_transport (headers : HeaderMap) (name : HeaderName) :
    ((headers.remove host).remove contentLength).getAll name =
      if name = host || name = contentLength then [] else headers.getAll name := by
  by_cases hlength : name = contentLength
  · simp [hlength]
  · rw [HeaderMap.getAll_remove_of_ne (Ne.symm hlength)]
    by_cases hhost : name = host
    · simp [hhost]
    · rw [HeaderMap.getAll_remove_of_ne (Ne.symm hhost)]
      simp [hhost, hlength]

private theorem getAll_insert (headers : HeaderMap) (name other : HeaderName)
    (value : HeaderValue) :
    (headers.insert other value).getAll name =
      if name = other then [value] else headers.getAll name := by
  by_cases hname : name = other
  · simp [hname]
  · rw [if_neg hname, HeaderMap.getAll_insert_of_ne (Ne.symm hname)]

private theorem getAll_buildLocalUpstreamHeaders (responseStreaming : Bool) (name : HeaderName) :
    (buildLocalUpstreamHeaders source responseStreaming).getAll name =
      (ownLocal responseStreaming name).getD ((removeHopByHopHeaders source).getAll name) := by
  unfold buildLocalUpstreamHeaders ownLocal
  cases responseStreaming with
  | false =>
    simp only [Bool.false_eq_true, if_false, Bool.and_false, getAll_remove_transport]
    split <;> simp only [Option.getD_some, Option.getD_none]
  | true =>
    simp only [if_true, Bool.and_true, getAll_insert, getAll_remove_transport, decide_eq_true_eq]
    split
    · delta closeValue
      rw [Option.getD_some]
    · split <;> simp only [Option.getD_some, Option.getD_none]

/-- A forwarded field is the node's own, or what the removal of hop-by-hop fields has left. -/
theorem getAll_buildForwardHeaders (currentHops : UInt64) (requestId : List Char)
    (name : HeaderName) :
    (buildForwardHeaders source currentHops requestId).getAll name =
      (ownForward currentHops requestId name).getD
        ((removeHopByHopHeaders source).getAll name) := by
  unfold buildForwardHeaders ownForward
  have hne : xRequestId ≠ meshHops := by decide
  have hhost : xRequestId ≠ host := by decide
  have hlength : xRequestId ≠ contentLength := by decide
  cases HeaderValue.fromStr requestId with
  | none =>
    simp only [getAll_insert, getAll_remove_transport]
    by_cases hhops : name = meshHops
    · simp [hhops]
    · by_cases hid : name = xRequestId
      · simp [hid, hne, hhost, hlength]
      · simp only [hhops, hid, if_false]
        split <;> simp only [Option.getD_some, Option.getD_none]
  | some id =>
    simp only [getAll_insert, getAll_remove_transport]
    by_cases hid : name = xRequestId
    · simp [hid, hne]
    · by_cases hhops : name = meshHops
      · simp [hhops, Ne.symm hne]
      · simp only [hhops, hid, if_false]
        split <;> simp only [Option.getD_some, Option.getD_none]

end

/-- For ASCII `Connection` values the removal of hop-by-hop fields is exact: in responses for every
field, in requests for every field but those that the node decides itself. -/
theorem relayed_headers_exact {β : Type} (source : HeaderMap) (status : Nat) (body : β)
    (responseStreaming : Bool) (currentHops : UInt64) (requestId : List Char)
    (hascii : ∀ value ∈ source.getAll connection, IsAscii value) :
    RelayedExcept (fun _ => none) source (relayedResponse status source body).headers ∧
      RelayedExcept (ownLocal responseStreaming) source
        (buildLocalUpstreamHeaders source responseStreaming) ∧
      RelayedExcept (ownForward currentHops requestId) source
        (buildForwardHeaders source currentHops requestId) := by
  refine ⟨relayedExcept_of hascii fun name => ?_,
    relayedExcept_of hascii (getAll_buildLocalUpstreamHeaders responseStreaming),
    relayedExcept_of hascii (getAll_buildForwardHeaders currentHops requestId)⟩
  simp only [relayedResponse, Option.getD_none]

/-- The headers of a request to `node-a` whose sender lists a field in `Connection`. -/
def requestHeaders : HeaderMap :=
  [(connection, ⟨"close , X-Request-Id".toList.flatMap String.utf8EncodeChar, by decide⟩),
    (host, ⟨"node-a".toList.flatMap String.utf8EncodeChar, by decide⟩),
    (xRequestId, ⟨"r-1".toList.flatMap String.utf8EncodeChar, by decide⟩)]

private theorem isAscii_requestHeaders :
    ∀ value ∈ requestHeaders.getAll connection, IsAscii value := by
  have hall : ((requestHeaders.getAll connection).all fun value =>
      value.octets.all fun b => decide (b.toNat < 128)) = true := by
    decide
  intro value hvalue b hb
  exact of_decide_eq_true (List.all_eq_true.mp (List.all_eq_true.mp hall value hvalue) b hb)

/-- A response with these headers is relayed without `x-request-id`. -/
theorem relayed_headers_exact_nominated :
    (∀ value ∈ requestHeaders.getAll connection, IsAscii value) ∧
      (relayedResponse 200 requestHeaders ()).headers.getAll xRequestId = [] := by
  have hresponse :=
    (relayed_headers_exact requestHeaders 200 () false 0 [] isAscii_requestHeaders).1
  refine ⟨isAscii_requestHeaders, (hresponse xRequestId).1 (.inr ?_)⟩
  refine ⟨_, List.mem_cons_self, "close ,".toList, [' '], "X-Request-Id".toList, [], [], ?_⟩
  have hspace : isWhitespace ' ' = true := by decide
  refine ⟨by decide, .inr ⟨"close ".toList, by decide⟩, .inl rfl, ?_, by simp, by decide⟩
  intro c hc
  rw [List.mem_singleton.mp hc]
  exact hspace

/-- A request is relayed without its `host`, which is no hop-by-hop field. -/
theorem host_not_relayed :
    ¬ ∀ (source : HeaderMap) (responseStreaming : Bool) (currentHops : UInt64)
        (requestId : List Char), (∀ value ∈ source.getAll connection, IsAscii value) →
      RelayedExcept (fun _ => none) source (relayedResponse 200 source ()).headers ∧
        RelayedExcept (fun name => if name = connection && responseStreaming then some [closeValue]
          else none) source (buildLocalUpstreamHeaders source responseStreaming) ∧
        RelayedExcept (fun _ => none) source
          (buildForwardHeaders source currentHops requestId) := by
  intro h
  have hascii : ∀ value ∈ HeaderMap.getAll connection [(host, closeValue)], IsAscii value := by
    intro value hvalue
    cases hvalue
  have hforward := (h [(host, closeValue)] false 0 [] hascii).2.2 host
  have hother : ¬ HopByHop [(host, closeValue)] host := by
    rintro (hfixed | ⟨value, hvalue, -⟩)
    · exact absurd hfixed (by decide)
    · cases hvalue
  have hkept := hforward.2 hother
  rw [getAll_buildForwardHeaders] at hkept
  exact absurd hkept (by decide)

end Llamesh.Router
