import Llamesh.Router.FrontDoor
import Llamesh.Router.Relay

/-!
# A request on its way through the mesh

A node that admits a request may send it on, with the body of its own reading and the header map of
`build_forward_headers`; the peer takes it in through the same front door
(`src/router.rs:917–998`). What a node makes of a request is its `Admitted`. Which peer is chosen is
left open, as is what a transport adds: it delivers the fields it was given whose values are
trimmed text, and nominates none of them in a `Connection` field of its own.
-/

namespace Llamesh.Router

open Http Json Text Transition Api.Auth

/-- The settings of a node that the front door reads. -/
structure FrontConfig where
  nodeId : String
  defaultModel : String
  auth : Option AuthConfig
  requestBodyLimitBytes : Nat
  maxHops : UInt64
deriving DecidableEq

/-- How the reading of a body ends. -/
inductive BodyRead where
  | timedOut
  | failed (e : String)
  | read (bytes : List UInt8)
deriving DecidableEq

/-- `axum::body::to_bytes`. -/
def toBytes (limit : Nat) : BodyRead → BodyRead
  | .read bytes => if bytes.length ≤ limit then .read bytes else .failed "length limit exceeded"
  | other => other

/-- A request at a node, with an order in which the node visits its fields and the identifiers it
generates if the request has none. -/
structure Incoming where
  node : FrontConfig
  draining : Bool
  pathAndQuery : List Char
  headers : HeaderMap
  fields : HeaderMap
  visited : HeaderMap.IsIteration fields headers
  body : BodyRead
  newSessionId : List Char
  newRequestId : List Char

/-- `parts.uri.path()`. -/
def Incoming.path (r : Incoming) : List Char := r.pathAndQuery.takeWhile (· ≠ '?')

/-- The header under which a client may name its session. -/
def xSessionId : HeaderName := ⟨"x-session-id".toList, by decide⟩

/-- The session of the request. `src/router.rs:968–973`. -/
def Incoming.sessionId (r : Incoming) : List Char :=
  ((r.headers.get xSessionId).bind HeaderValue.toStr).getD r.newSessionId

/-- An admitted request, as the node goes on with it. -/
structure Admitted extends Reading where
  sessionId : List Char
  requestId : List Char
  currentHops : UInt64
deriving DecidableEq

variable {ν : Type} (json : Codec ν) (tables : CaseTables)

/-- The front door; `src/router.rs:917–998`. -/
def frontDoor (r : Incoming) : Except Refusal Admitted :=
  if r.draining then .error (.nodeDraining r.node.nodeId)
  else
    match checkApiKeyAuth tables r.node.auth r.headers r.fields with
    | .error message => .error (.authenticationError message)
    | .ok () =>
      match toBytes r.node.requestBodyLimitBytes r.body with
      | .timedOut => .error (.requestTimeout "Request body read timed out")
      | .failed e => .error (.invalidRequest s!"Body too large or error: {e}")
      | .read bytes =>
        match readRequest json r.path r.node.defaultModel bytes with
        | .error e => .error e
        | .ok reading =>
          match currentHops r.node.maxHops r.headers with
          | .error e => .error ⟨e, none, none, none⟩
          | .ok hops =>
            .ok
              { reading with
                sessionId := r.sessionId
                requestId := requestId r.newRequestId r.headers
                currentHops := hops }

/-- What a transport makes of the header map it is given. -/
def Delivered (sent received : HeaderMap) : Prop :=
  ∀ field ∈ sent, field.1 ∉ nominatedHeaders received ∧
    ((∀ v ∈ sent.getAll field.1, v.IsTrimmed) →
      received.getAll field.1 = sent.getAll field.1)

instance (sent received : HeaderMap) : Decidable (Delivered sent received) :=
  inferInstanceAs (Decidable (∀ field ∈ sent, field.1 ∉ nominatedHeaders received ∧
    ((∀ v ∈ sent.getAll field.1, v.IsTrimmed) →
      received.getAll field.1 = sent.getAll field.1)))

/-- One forward: the next node has taken in what the node sent on. -/
def sendOn (r next : Incoming) : Option Incoming :=
  match frontDoor json tables r with
  | .ok a =>
    guarded
      (next.pathAndQuery = r.pathAndQuery ∧ next.body = .read a.forwardBody ∧
        Delivered (buildForwardHeaders r.headers a.currentHops a.requestId) next.headers) next
  | .error _ => none

/-! ## The front door -/

section

variable {json tables} {r next t : Incoming} {a : Admitted}

/-- What it takes to be admitted. -/
theorem frontDoor_eq_ok :
    frontDoor json tables r = .ok a ↔
      r.draining = false ∧ checkApiKeyAuth tables r.node.auth r.headers r.fields = .ok () ∧
      ∃ bytes, r.body = .read bytes ∧ bytes.length ≤ r.node.requestBodyLimitBytes ∧
        readRequest json r.path r.node.defaultModel bytes = .ok a.toReading ∧
        currentHops r.node.maxHops r.headers = .ok a.currentHops ∧
        a.sessionId = r.sessionId ∧ a.requestId = requestId r.newRequestId r.headers := by
  unfold frontDoor
  cases r.draining with
  | true => simp
  | false =>
    simp only [Bool.false_eq_true, if_false, true_and]
    cases checkApiKeyAuth tables r.node.auth r.headers r.fields with
    | error message => simp
    | ok _ =>
      simp only [true_and]
      cases r.body with
      | timedOut => simp [toBytes]
      | failed e => simp [toBytes]
      | read bytes =>
        simp only [BodyRead.read.injEq, exists_eq_left']
        by_cases hlimit : bytes.length ≤ r.node.requestBodyLimitBytes
        · have hread : toBytes r.node.requestBodyLimitBytes (.read bytes) = .read bytes :=
            if_pos hlimit
          simp only [hread, hlimit, true_and]
          cases readRequest json r.path r.node.defaultModel bytes with
          | error e => simp
          | ok reading =>
            cases currentHops r.node.maxHops r.headers with
            | error e => simp
            | ok hops =>
              simp only [Except.ok.injEq]
              constructor
              · rintro rfl
                exact ⟨rfl, rfl, rfl, rfl⟩
              · rintro ⟨rfl, rfl, hsession, hrequest⟩
                rw [← hsession, ← hrequest]
        · simp [toBytes, hlimit]

/-- An admitted body was read. -/
theorem readRequest_of_frontDoor {bytes : List UInt8} (h : frontDoor json tables r = .ok a)
    (hbody : r.body = .read bytes) :
    readRequest json r.path r.node.defaultModel bytes = .ok a.toReading := by
  obtain ⟨-, -, received, hreceived, -, hread, -⟩ := frontDoor_eq_ok.mp h
  rw [hbody] at hreceived
  rw [BodyRead.read.inj hreceived]
  exact hread

private theorem sendOn_eq_some :
    sendOn json tables r next = some t ↔
      next = t ∧ ∃ a, frontDoor json tables r = .ok a ∧ next.pathAndQuery = r.pathAndQuery ∧
        next.body = .read a.forwardBody ∧
        Delivered (buildForwardHeaders r.headers a.currentHops a.requestId) next.headers := by
  unfold sendOn
  cases frontDoor json tables r with
  | error e => simp
  | ok a => simp only [guarded_eq_some, Except.ok.injEq, exists_eq_left', and_comm]

end

/-! ## Fields on the way -/

/-- A field that is neither about one connection nor set by the node. -/
def PassedOn (name : HeaderName) : Prop :=
  name ∉ hopByHopHeaders ∧ name ∉ [meshHops, xRequestId, host, contentLength]

section

variable {source received : HeaderMap} {hops : UInt64} {id : List Char}

/-- A forwarded request has made one hop more. -/
theorem parsedHops_delivered (h : Delivered (buildForwardHeaders source hops id) received) :
    parsedHops received = .ok (hops + 1) := by
  obtain ⟨value, hsingle, hstr⟩ := getAll_meshHops_buildForwardHeaders source hops id
  have hsent : (meshHops, value) ∈ buildForwardHeaders source hops id := by
    rw [← HeaderMap.mem_getAll, hsingle]
    exact List.mem_cons_self
  have htrimmed : value.IsTrimmed := HeaderValue.isTrimmed_of_toStr hstr fun c hc => by
    have hdigit := toNat_of_mem_toDecimal hc
    omega
  refine parsedHops_of_single (((h _ hsent).2 fun v hv => ?_).trans hsingle) hstr
  rw [hsingle, List.mem_singleton] at hv
  rw [hv]
  exact htrimmed

/-- A forwarded request keeps its identifier. -/
theorem requestId_delivered {value : HeaderValue} (hvalue : value.IsTrimmed)
    (h : Delivered (buildForwardHeaders source hops value.text) received)
    (generated : List Char) : requestId generated received = value.text := by
  have hne : xRequestId ≠ meshHops := by decide
  have hsingle : (buildForwardHeaders source hops value.text).getAll xRequestId = [value] := by
    rw [getAll_buildForwardHeaders, ownForward, if_neg hne, if_pos rfl, hvalue.fromStr_text,
      Option.map_some, Option.getD_some]
  have hsent : (xRequestId, value) ∈ buildForwardHeaders source hops value.text := by
    rw [← HeaderMap.mem_getAll, hsingle]
    exact List.mem_cons_self
  have hreceived : received.getAll xRequestId = [value] := by
    refine ((h _ hsent).2 fun v hv => ?_).trans hsingle
    rw [hsingle, List.mem_singleton] at hv
    rw [hv]
    exact hvalue
  rw [requestId, HeaderMap.get, hreceived, List.head?_cons, Option.bind_some, hvalue.toStr,
    Option.getD_some]

/-- A forwarded request keeps a field that is passed on, unless its sender nominated it. -/
theorem getAll_delivered {name : HeaderName} (hname : PassedOn name)
    (hnominated : name ∉ nominatedHeaders source) (hne : source.getAll name ≠ [])
    (htrimmed : ∀ v ∈ source.getAll name, v.IsTrimmed)
    (h : Delivered (buildForwardHeaders source hops id) received) :
    received.getAll name = source.getAll name ∧ name ∉ nominatedHeaders received := by
  obtain ⟨hfixed, hown⟩ := hname
  simp only [List.mem_cons, List.not_mem_nil, or_false, not_or] at hown
  obtain ⟨hhops, hid, hhost, hlength⟩ := hown
  have hkept : (buildForwardHeaders source hops id).getAll name = source.getAll name := by
    have hnone : ownForward hops id name = none := by simp [ownForward, hhops, hid, hhost, hlength]
    rw [getAll_buildForwardHeaders, hnone, Option.getD_none, getAll_removeHopByHopHeaders,
      if_neg (not_or.mpr ⟨hfixed, hnominated⟩)]
  obtain ⟨value, hvalue⟩ := List.exists_mem_of_ne_nil _ hne
  have hsent : (name, value) ∈ buildForwardHeaders source hops id := by
    rw [← HeaderMap.mem_getAll, hkept]
    exact hvalue
  rw [← hkept] at htrimmed
  exact ⟨((h _ hsent).2 htrimmed).trans hkept, (h _ hsent).1⟩

end

/-! ## Every chain of forwards -/

section

variable {json tables} {s t : Incoming} {a : Admitted} {chain : List Incoming}

/-- A field that is passed on arrives at every node of a chain. -/
theorem getAll_of_exec {name : HeaderName} (hname : PassedOn name)
    (hnominated : name ∉ nominatedHeaders s.headers) (hne : s.headers.getAll name ≠ [])
    (htrimmed : ∀ v ∈ s.headers.getAll name, v.IsTrimmed)
    (hrun : exec (sendOn json tables) s chain = some t) :
    t.headers.getAll name = s.headers.getAll name := by
  have hboth : t.headers.getAll name = s.headers.getAll name ∧
      name ∉ nominatedHeaders t.headers := by
    refine exec_invariant (P := fun u => u.headers.getAll name = s.headers.getAll name ∧
      name ∉ nominatedHeaders u.headers) ?_ ⟨rfl, hnominated⟩ hrun
    rintro u next _ ⟨hvalues, hfree⟩ hstep
    obtain ⟨rfl, b, -, -, -, hdelivered⟩ := sendOn_eq_some.mp hstep
    rw [← hvalues] at hne htrimmed
    have hnext := getAll_delivered hname hfree hne htrimmed hdelivered
    exact ⟨hnext.1.trans hvalues, hnext.2⟩
  exact hboth.1

/-- What a request is at a node it was forwarded to. -/
structure Carried (s : Incoming) (a : Admitted) (hops : UInt64) (u : Incoming) : Prop where
  pathAndQuery : u.pathAndQuery = s.pathAndQuery
  body : u.body = .read a.forwardBody
  hops : parsedHops u.headers = .ok hops
  requestId : requestId u.newRequestId u.headers = a.requestId

/-- A forwarded request as the next node goes on with it. -/
def Admitted.at (a : Admitted) (model : String) (hops : UInt64) (u : Incoming) : Admitted :=
  { a with
    model := model
    sessionId := u.sessionId
    currentHops := hops }

/-- A node reads a carried request as the first one did, and admits it unless it drains, does not
authorise the sender, takes no body of that length or no request of that many hops. -/
theorem Carried.frontDoor_eq_ok {u : Incoming} {b : Admitted} {hops : UInt64} {bytes : List UInt8}
    (hcarried : Carried s a hops u) (hs : frontDoor json tables s = .ok a)
    (hbody : s.body = .read bytes) :
    frontDoor json tables u = .ok b ↔
      u.draining = false ∧ checkApiKeyAuth tables u.node.auth u.headers u.fields = .ok () ∧
      a.forwardBody.length ≤ u.node.requestBodyLimitBytes ∧ hops ≤ u.node.maxHops ∧
      b = a.at ((namedModel json bytes).getD u.node.defaultModel) hops u := by
  have hpath : u.path = s.path := congrArg (List.takeWhile (· ≠ '?')) hcarried.pathAndQuery
  have hagain := (readRequest_forwardBody (readRequest_of_frontDoor hs hbody) u.node.defaultModel).2
  rw [← hpath] at hagain
  rw [Router.frontDoor_eq_ok, hcarried.body]
  simp only [BodyRead.read.injEq, exists_eq_left', hagain, currentHops_eq_ok, hcarried.hops,
    hcarried.requestId, Except.ok.injEq]
  constructor
  · rintro ⟨hdraining, hauth, hlimit, hreading, ⟨rfl, hhops⟩, hsession, hrequest⟩
    refine ⟨hdraining, hauth, hlimit, hhops, ?_⟩
    cases b
    subst hsession hrequest hreading
    rfl
  · rintro ⟨hdraining, hauth, hlimit, hhops, rfl⟩
    exact ⟨hdraining, hauth, hlimit, rfl, ⟨rfl, hhops⟩, rfl, rfl⟩

private theorem carried_of_sendOn {u next : Incoming} {b : Admitted} {value : HeaderValue}
    (hvalue : value.IsTrimmed) (hid : value.text = a.requestId)
    (hb : frontDoor json tables u = .ok b) (hpath : u.pathAndQuery = s.pathAndQuery)
    (hbody : b.forwardBody = a.forwardBody) (hrequest : b.requestId = a.requestId)
    (hstep : sendOn json tables u next = some t) : Carried s a (b.currentHops + 1) t := by
  obtain ⟨rfl, b', hb', hnext, hsent, hdelivered⟩ := sendOn_eq_some.mp hstep
  obtain rfl : b = b' := by
    rw [hb] at hb'
    exact Except.ok.inj hb'
  refine ⟨hnext.trans hpath, hsent.trans (congrArg _ hbody), parsedHops_delivered hdelivered, ?_⟩
  rw [hrequest, ← hid] at hdelivered
  rw [← hid]
  exact requestId_delivered hvalue hdelivered _

private theorem carried_of_exec {value : HeaderValue} {bytes : List UInt8}
    (hs : frontDoor json tables s = .ok a) (hbody : s.body = .read bytes)
    (hvalue : value.IsTrimmed) (hid : value.text = a.requestId) (hchain : chain ≠ [])
    (hrun : exec (sendOn json tables) s chain = some t) :
    Carried s a (a.currentHops + UInt64.ofNat chain.length) t := by
  have hcarried : (chain = [] ∧ t = s) ∨
      Carried s a (a.currentHops + UInt64.ofNat chain.length) t := by
    refine exec_trace_invariant (C := fun _ _ => True) (P := fun as u => (as = [] ∧ u = s) ∨
      Carried s a (a.currentHops + UInt64.ofNat as.length) u) (.inl ⟨rfl, rfl⟩) ?_ chain t
      (along_true s chain) hrun
    intro as u next v _ hu _ hstep
    right
    have hlength : a.currentHops + UInt64.ofNat (as ++ [next]).length =
        a.currentHops + UInt64.ofNat as.length + 1 := by
      rw [List.length_append, List.length_singleton, UInt64.ofNat_add, UInt64.add_assoc]
      rfl
    rw [hlength]
    rcases hu with ⟨rfl, rfl⟩ | hu
    · have hnext := carried_of_sendOn hvalue hid hs rfl rfl rfl hstep
      simpa using hnext
    · obtain ⟨-, b, hb, -⟩ := sendOn_eq_some.mp hstep
      obtain ⟨-, -, -, -, rfl⟩ := (hu.frontDoor_eq_ok hs hbody).mp hb
      exact carried_of_sendOn hvalue hid hb hu.pathAndQuery rfl rfl hstep
  exact hcarried.resolve_left fun h => hchain h.1

private theorem checkApiKeyAuth_of_exec (hs : frontDoor json tables s = .ok a)
    (hauth : t.node.auth = s.node.auth)
    (hkey : ∀ config, s.node.auth = some config → config.enabled = true →
      ∀ name : HeaderName, name.text = config.lowered tables → PassedOn name ∧
        name ∉ nominatedHeaders s.headers ∧ ∀ v ∈ s.headers.getAll name, v.IsTrimmed)
    (hrun : exec (sendOn json tables) s chain = some t) :
    checkApiKeyAuth tables t.node.auth t.headers t.fields = .ok () := by
  have hok := (frontDoor_eq_ok.mp hs).2.1
  rw [hauth, ← hok]
  refine checkApiKeyAuth_congr s.visited t.visited fun config hconfig henabled => ?_
  rw [hconfig] at hok
  obtain ⟨key, -, hpresented⟩ := (checkApiKeyAuth_iff s.visited henabled).mp hok
  obtain ⟨name, hname⟩ := exists_name_of_presented hpresented
  obtain ⟨hpassed, hnominated, htrimmed⟩ := hkey config hconfig henabled name hname
  have hne : s.headers.getAll name ≠ [] := by
    intro hnil
    rw [presented_eq hname, HeaderMap.get, hnil] at hpresented
    cases hpresented
  have hvalues := getAll_of_exec hpassed hnominated hne htrimmed hrun
  rw [presented_eq hname, presented_eq hname, HeaderMap.get, HeaderMap.get, hvalues]

/-- A request that one node admits, with an identifier that no transport trims, is read the same by
every node it is forwarded to, over any number of hops: the endpoint, whether the response streams,
the body for the instance and the identifier are those of the first node, and the model is the one
the body names, or else the default of the node that reads it. A node refuses it only while it
drains, for its key check, or for the length of the body or the number of hops; and not for its key
check where it has the configuration of the first node and the field of the key is passed on. -/
theorem forwarded_request_admitted {bytes : List UInt8} {value : HeaderValue}
    (hs : frontDoor json tables s = .ok a) (hbody : s.body = .read bytes)
    (hvalue : value.IsTrimmed) (hid : value.text = a.requestId)
    (hchain : chain ≠ []) (hrun : exec (sendOn json tables) s chain = some t) :
    a.model = (namedModel json bytes).getD s.node.defaultModel ∧
    (∀ b, frontDoor json tables t = .ok b ↔
      t.draining = false ∧ checkApiKeyAuth tables t.node.auth t.headers t.fields = .ok () ∧
      a.forwardBody.length ≤ t.node.requestBodyLimitBytes ∧
      a.currentHops + UInt64.ofNat chain.length ≤ t.node.maxHops ∧
      b = a.at ((namedModel json bytes).getD t.node.defaultModel)
        (a.currentHops + UInt64.ofNat chain.length) t) ∧
    (t.node.auth = s.node.auth →
      (∀ config, s.node.auth = some config → config.enabled = true →
        ∀ name : HeaderName, name.text = config.lowered tables → PassedOn name ∧
          name ∉ nominatedHeaders s.headers ∧ ∀ v ∈ s.headers.getAll name, v.IsTrimmed) →
      checkApiKeyAuth tables t.node.auth t.headers t.fields = .ok ()) := by
  have hcarried := carried_of_exec hs hbody hvalue hid hchain hrun
  exact ⟨model_of_readRequest (readRequest_of_frontDoor hs hbody),
    fun b => hcarried.frontDoor_eq_ok hs hbody,
    fun hauth hkey => checkApiKeyAuth_of_exec hs hauth hkey hrun⟩

/-! ### An embeddings request with `stream` -/

/-- An object with a text and `stream`. -/
def streamedText : List UInt8 :=
  "\x7b\"input\":\"x\",\"stream\":true\x7d".toList.flatMap String.utf8EncodeChar

/-- The object without `stream`. -/
def plainText : List UInt8 := "\x7b\"input\":\"x\"\x7d".toList.flatMap String.utf8EncodeChar

/-- A codec for the two texts. -/
def textCodec : Codec Unit where
  fromSlice octets :=
    if octets = streamedText then some (.object [("input", .string "x"), ("stream", .bool true)])
    else if octets = plainText then some (.object [("input", .string "x")])
    else none
  toVec
    | .object [("input", .string "x")] => some plainText
    | _ => none
  fromSlice_toVec := by
    intro octets out members key _ hwrite
    split at hwrite
    · next _ hplain =>
      obtain rfl := Option.some.inj hwrite
      refine ⟨.object [("input", .string "x")], rfl, ?_⟩
      rw [Value.object.inj hplain]
    · cases hwrite

/-- A node of a mesh with one key. -/
def meshNode (nodeId defaultModel : String) : FrontConfig :=
  ⟨nodeId, defaultModel, some xApiKey, 1000, 3⟩

/-- A request without a model at a node that takes all of it in. -/
def atNode (nodeId defaultModel : String) (headers : HeaderMap) (bytes : List UInt8) :
    Incoming where
  node := meshNode nodeId defaultModel
  draining := false
  pathAndQuery := "/v1/embeddings?trace=1".toList
  headers := headers
  fields := headers
  visited := fun _ => rfl
  body := .read bytes
  newSessionId := "s".toList
  newRequestId := "n".toList

/-- The identifier the client gave. -/
def clientId : HeaderValue := ⟨[114, 45, 49], by decide⟩

/-- The name the nodes share. -/
def meshHost : HeaderValue := ⟨[109, 101, 115, 104], by decide⟩

/-- The client's header map, and those at the second and the third node. -/
def headersAtA : HeaderMap := [keyField, (host, meshHost), (xRequestId, clientId)]

def headersAtB : HeaderMap :=
  (host, meshHost) :: buildForwardHeaders headersAtA 0 clientId.text

def headersAtC : HeaderMap :=
  (host, meshHost) :: buildForwardHeaders headersAtB 1 clientId.text

/-- What the first node goes on with. -/
def admittedAtA : Admitted where
  endpointKind := .embeddings
  model := "small"
  responseStreaming := false
  forwardBody := plainText
  sessionId := "s".toList
  requestId := clientId.text
  currentHops := 0

private theorem frontDoor_atA :
    frontDoor textCodec asciiTables (atNode "node-a" "small" headersAtA streamedText) =
      .ok admittedAtA := by
  decide +kernel

private theorem frontDoor_atB :
    frontDoor textCodec asciiTables (atNode "node-b" "large" headersAtB plainText) =
      .ok (admittedAtA.at "large" 1 (atNode "node-b" "large" headersAtB plainText)) := by
  decide +kernel

private theorem sendOn_atNode {nodeId other model otherModel : String}
    {headers received : HeaderMap} {bytes : List UInt8}
    (hb : frontDoor textCodec asciiTables (atNode nodeId model headers bytes) = .ok a)
    (hdelivered : Delivered (buildForwardHeaders headers a.currentHops a.requestId) received) :
    sendOn textCodec asciiTables (atNode nodeId model headers bytes)
        (atNode other otherModel received a.forwardBody) =
      some (atNode other otherModel received a.forwardBody) :=
  sendOn_eq_some.mpr ⟨rfl, a, hb, rfl, rfl, hdelivered⟩

private theorem exec_atA :
    exec (sendOn textCodec asciiTables) (atNode "node-a" "small" headersAtA streamedText)
        [atNode "node-b" "large" headersAtB plainText,
          atNode "node-c" "other" headersAtC plainText] =
      some (atNode "node-c" "other" headersAtC plainText) := by
  refine exec_cons_eq_some.mpr ⟨_, sendOn_atNode frontDoor_atA (by decide +kernel), ?_⟩
  exact exec_cons_eq_some.mpr ⟨_, sendOn_atNode frontDoor_atB (by decide +kernel), rfl⟩

/-- The third node takes its own default and no stream, and finds the key. -/
theorem forwarded_request_at_third_node :
    frontDoor textCodec asciiTables (atNode "node-c" "other" headersAtC plainText) =
      .ok (admittedAtA.at "other" 2 (atNode "node-c" "other" headersAtC plainText)) := by
  have hkey : ∀ name : HeaderName, name.text = xApiKey.lowered asciiTables →
      PassedOn name ∧ name ∉ nominatedHeaders headersAtA ∧
        ∀ v ∈ headersAtA.getAll name, v.IsTrimmed := by
    intro name hname
    have hlowered : xApiKey.lowered asciiTables = keyField.1.text := by decide +kernel
    obtain rfl : name = keyField.1 := by
      cases name
      rw [hlowered] at hname
      cases hname
      rfl
    unfold PassedOn
    decide +kernel
  have hid : clientId.IsTrimmed := by decide +kernel
  obtain ⟨-, hread, haccepted⟩ := forwarded_request_admitted frontDoor_atA rfl hid rfl
    (List.cons_ne_nil _ _) exec_atA
  refine (hread _).mpr ⟨rfl, haccepted rfl ?_, by decide +kernel, by decide +kernel, rfl⟩
  intro config hconfig _ name hname
  obtain rfl := Option.some.inj hconfig
  exact hkey name hname

end

end Llamesh.Router
