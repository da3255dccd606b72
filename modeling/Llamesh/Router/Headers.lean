import Llamesh.Library.HeaderMap

/-!
# Headers of relayed requests

`src/router.rs:533–611`: the fields a proxy must not relay, and the header maps of a request
sent on to a local `llama-server` instance or to a peer. `usize` is 64 bits wide and its addition
wraps, as it does in the release profile of `Cargo.toml`, which sets no overflow checks.
-/

namespace Llamesh.Router

open Http

/-- The hop counter of a forwarded request. -/
def meshHops : HeaderName := ⟨"x-llama-mesh-hops".toList, by decide⟩

/-- The identifier under which every node logs one request. -/
def xRequestId : HeaderName := ⟨"x-request-id".toList, by decide⟩

/-- `header::CONNECTION`. -/
def connection : HeaderName := ⟨"connection".toList, by decide⟩

/-- `header::HOST`. -/
def host : HeaderName := ⟨"host".toList, by decide⟩

/-- `header::CONTENT_LENGTH`. -/
def contentLength : HeaderName := ⟨"content-length".toList, by decide⟩

/-- `HOP_BY_HOP_HEADERS`; `src/router.rs:533–543`. -/
def hopByHopHeaders : List HeaderName :=
  [connection, ⟨"keep-alive".toList, by decide⟩, ⟨"proxy-authenticate".toList, by decide⟩,
    ⟨"proxy-authorization".toList, by decide⟩, ⟨"proxy-connection".toList, by decide⟩,
    ⟨"te".toList, by decide⟩, ⟨"trailer".toList, by decide⟩,
    ⟨"transfer-encoding".toList, by decide⟩, ⟨"upgrade".toList, by decide⟩]

/-- The names the sender listed in `Connection`; `src/router.rs:551–557`. -/
def nominatedHeaders (headers : HeaderMap) : List HeaderName :=
  (((headers.getAll connection).filterMap HeaderValue.toStr).flatMap (·.splitOn ',')).filterMap
    fun token => HeaderName.fromBytes (Text.trim token)

/-- Removes the hop-by-hop fields: the nominated ones, then the fixed set;
`src/router.rs:550–564`. -/
def removeHopByHopHeaders (headers : HeaderMap) : HeaderMap :=
  let headers := (nominatedHeaders headers).foldl (fun h name => h.remove name) headers
  hopByHopHeaders.foldl (fun h name => h.remove name) headers

/-- The headers of a request to a local instance; `src/router.rs:576–589`. -/
def buildLocalUpstreamHeaders (source : HeaderMap) (responseStreaming : Bool) : HeaderMap :=
  let headers := ((removeHopByHopHeaders source).remove host).remove contentLength
  if responseStreaming then
    headers.insert connection ⟨"close".toList.flatMap String.utf8EncodeChar, by decide⟩
  else headers

/-- The headers of a request forwarded to a peer; `src/router.rs:591–611`. -/
def buildForwardHeaders (source : HeaderMap) (currentHops : UInt64) (requestId : List Char) :
    HeaderMap :=
  let forwardHeaders := ((removeHopByHopHeaders source).remove host).remove contentLength
  let forwardHeaders := forwardHeaders.insert meshHops
    ((HeaderValue.fromStr (Text.toDecimal (currentHops + 1).toNat)).getD ⟨[0x31], by decide⟩)
  match HeaderValue.fromStr requestId with
  | some value => forwardHeaders.insert xRequestId value
  | none => forwardHeaders

private theorem getAll_foldl_remove (names : List HeaderName) (name : HeaderName) (h : HeaderMap) :
    (names.foldl (fun h name => h.remove name) h).getAll name =
      if name ∈ names then [] else h.getAll name := by
  induction names generalizing h with
  | nil => simp
  | cons other names ih =>
    rw [List.foldl_cons, ih]
    by_cases hin : name ∈ names
    · simp [hin]
    · by_cases hname : other = name
      · simp [hname]
      · simp [hin, hname, Ne.symm hname]

/-- A relayed message keeps the values of an end-to-end field and no value of a hop-by-hop field. -/
theorem getAll_removeHopByHopHeaders (headers : HeaderMap) (name : HeaderName) :
    (removeHopByHopHeaders headers).getAll name =
      if name ∈ hopByHopHeaders ∨ name ∈ nominatedHeaders headers then [] else
        headers.getAll name := by
  simp only [removeHopByHopHeaders, getAll_foldl_remove]
  by_cases hfixed : name ∈ hopByHopHeaders
  · simp [hfixed]
  · simp [hfixed]

/-- The hop field of a forwarded request has one value, whatever the incoming map held: the decimal
of the count the node computed. -/
theorem getAll_meshHops_buildForwardHeaders (source : HeaderMap) (currentHops : UInt64)
    (requestId : List Char) :
    ∃ value, (buildForwardHeaders source currentHops requestId).getAll meshHops = [value] ∧
      value.toStr = some (Text.toDecimal (currentHops + 1).toNat) := by
  obtain ⟨value, hvalue, hstr⟩ := HeaderValue.toStr_fromStr
    fun c hc => visible_toDecimal (n := (currentHops + 1).toNat) hc
  have hne : xRequestId ≠ meshHops := by decide
  refine ⟨value, ?_, hstr⟩
  unfold buildForwardHeaders
  rw [hvalue]
  -- The request id is inserted last, under another name.
  cases HeaderValue.fromStr requestId with
  | none => simp
  | some id => simp [hne]

end Llamesh.Router
