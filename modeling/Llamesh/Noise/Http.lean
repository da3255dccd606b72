import Llamesh.Library.Crlf
import Llamesh.Router.Headers

/-!
# HTTP heads over a Noise session

A request and a response head are written as HTTP/1.1 text and sent as one message
(`src/noise/transport.rs:115–139`, `src/noise/transport.rs:245–269`); the receiver looks for the
first CRLFCRLF of the message and reads the lines before it
(`src/noise/transport.rs:388–474`). Both sides then rebuild a header map from the fields
(`src/api.rs:1084–1100`, `src/router.rs:619–630`).

A map is written in the order in which a loop visits it, which keeps the order of the values of one
name and nothing else.
-/

namespace Llamesh.Noise

open Http Text Crlf

/-- A field as the parser yields it. -/
abbrev RawField := List Char × List Char

/-- `NoiseRequest`; `src/noise/transport.rs:35–40`. -/
structure NoiseRequest where
  method : List Char
  path : List Char
  headers : List RawField
  body : List UInt8
deriving DecidableEq

/-- `NoiseResponseHead`; `src/noise/transport.rs:44–48`. -/
structure NoiseResponseHead where
  status : UInt16
  headers : List RawField
  firstBody : List UInt8
deriving DecidableEq

/-- The errors of the two parsers. -/
inductive HeadError where
  | noRequestBoundary
  | noRequestLine
  | invalidRequestLine
  | noResponseBoundary
  | noStatusLine
  | invalidStatusLine
  | invalidStatus
deriving DecidableEq

/-- The text of the `NoiseError::Transport` each error is raised as. -/
def HeadError.message : HeadError → String
  | .noRequestBoundary => "Invalid HTTP request: no header boundary"
  | .noRequestLine => "No request line"
  | .invalidRequestLine => "Invalid request line"
  | .noResponseBoundary => "Invalid HTTP response: no header boundary"
  | .noStatusLine => "No status line"
  | .invalidStatusLine => "Invalid status line"
  | .invalidStatus => "Invalid HTTP status"

/-! ## Writing -/

/-- One field of a head; a value that is not visible ASCII is left out.
`src/noise/transport.rs:126–132`. -/
def writeField (field : HeaderName × HeaderValue) : List Char :=
  match field.2.toStr with
  | some value => field.1.text ++ ": ".toList ++ value ++ "\r\n".toList
  | none => []

/-- The message `send_request` sends, `headers` being the fields in the order of the loop;
`src/noise/transport.rs:116–139`. -/
def requestPayload (method path : List Char) (headers : HeaderMap) (body : List UInt8) :
    List UInt8 :=
  let request := method ++ " ".toList ++ path ++ " HTTP/1.1\r\n".toList
  let request := request ++ headers.flatMap writeField
  let request := request ++ ("Content-Length: ".toList ++ toDecimal body.length ++ "\r\n".toList)
  let request := request ++ "\r\n".toList
  utf8Encode request ++ body

/-- `eq_ignore_ascii_case` against the two names a response head leaves out, on the lower-case text
of a name; `src/noise/transport.rs:255–257`. -/
def isDropped (name : HeaderName) : Bool :=
  name.text = "content-length".toList || name.text = "transfer-encoding".toList

/-- The message `send_response_head` sends; `src/noise/transport.rs:246–269`. -/
def responsePayload (status : UInt16) (statusText : List Char) (headers : HeaderMap) :
    List UInt8 :=
  let response := "HTTP/1.1 ".toList ++ toDecimal status.toNat ++ " ".toList ++ statusText ++
    "\r\n".toList
  let response := response ++ headers.flatMap fun field =>
    if isDropped field.1 then [] else writeField field
  utf8Encode (response ++ "\r\n".toList)

/-! ## Reading -/

/-- `find_header_boundary`; `src/noise/transport.rs:391–393`. -/
def findHeaderBoundary (data : List UInt8) : Option Nat := findBoundary data

/-- One line after the first: a field, if it has a colon; `src/noise/transport.rs:423–425`. -/
def parseField (line : List Char) : Option RawField :=
  (splitOnce ':' line).map fun (name, value) => (trim name, trim value)

/-- `parse_http_request`; `src/noise/transport.rs:396–437`. -/
def parseHttpRequest (data : List UInt8) : Except HeadError NoiseRequest :=
  match findHeaderBoundary data with
  | none => .error .noRequestBoundary
  | some headerEnd =>
    match Text.lines (fromUtf8Lossy (data.take headerEnd)) with
    | [] => .error .noRequestLine
    | requestLine :: lines =>
      match splitWhitespace requestLine with
      | method :: path :: _ =>
        .ok { method, path, headers := lines.filterMap parseField
              body := data.drop (headerEnd + 4) }
      | _ => .error .invalidRequestLine

/-- `parse_http_response_head`; `src/noise/transport.rs:439–474`. -/
def parseHttpResponseHead (data : List UInt8) : Except HeadError NoiseResponseHead :=
  match findHeaderBoundary data with
  | none => .error .noResponseBoundary
  | some headerEnd =>
    match Text.lines (fromUtf8Lossy (data.take headerEnd)) with
    | [] => .error .noStatusLine
    | statusLine :: lines =>
      match splitn ' ' 3 statusLine with
      | _version :: status :: _ =>
        match parseUnsigned 65535 status with
        | some status =>
          .ok { status := UInt16.ofNat status, headers := lines.filterMap parseField
                firstBody := data.drop (headerEnd + 4) }
        | none => .error .invalidStatus
      | _ => .error .invalidStatusLine

/-- A header map with every field whose name and value are valid. -/
def headersOfRaw (raw : List RawField) : HeaderMap :=
  raw.foldl (fun headers field =>
    match HeaderName.fromBytes field.1, HeaderValue.fromStr field.2 with
    | some name, some value => headers.append name value
    | _, _ => headers) []

/-- `build_noise_request_headers`; `src/api.rs:1089–1100`. -/
def buildNoiseRequestHeaders (raw : List RawField) : HeaderMap := headersOfRaw raw

/-- `build_peer_response_headers`; `src/router.rs:619–630`. -/
def buildPeerResponseHeaders (raw : List RawField) : HeaderMap := headersOfRaw raw

/-! ## Heads read back -/

section Lines

variable {line : List Char} {lines : List (List Char)} (h : ∀ other ∈ line :: lines, IsLine other)
  (body : List UInt8)

include h

private theorem parseHttpRequest_lines :
    parseHttpRequest (utf8Encode (crlf.intercalate (line :: lines)) ++ boundary ++ body) =
      match splitWhitespace line with
      | method :: path :: _ => .ok ⟨method, path, lines.filterMap parseField, body⟩
      | _ => .error .invalidRequestLine := by
  have hcut := take_drop_boundary (utf8Encode (crlf.intercalate (line :: lines))) body
  unfold parseHttpRequest findHeaderBoundary
  rw [findBoundary_head line lines h]
  dsimp only
  rw [hcut.1, hcut.2, fromUtf8Lossy_utf8Encode, lines_intercalate h]

private theorem parseHttpResponseHead_lines :
    parseHttpResponseHead (utf8Encode (crlf.intercalate (line :: lines)) ++ boundary ++ body) =
      match splitn ' ' 3 line with
      | _version :: status :: _ =>
        match parseUnsigned 65535 status with
        | some status => .ok ⟨UInt16.ofNat status, lines.filterMap parseField, body⟩
        | none => .error .invalidStatus
      | _ => .error .invalidStatusLine := by
  have hcut := take_drop_boundary (utf8Encode (crlf.intercalate (line :: lines))) body
  unfold parseHttpResponseHead findHeaderBoundary
  rw [findBoundary_head line lines h]
  dsimp only
  rw [hcut.1, hcut.2, fromUtf8Lossy_utf8Encode, lines_intercalate h]

end Lines

/-! ## Fields -/

/-- The field a parser yields for a written one. -/
def rawField (field : HeaderName × HeaderValue) : RawField := (field.1.text, field.2.text)

/-- The line of a field. -/
private def fieldLine (field : HeaderName × HeaderValue) : List Char :=
  field.1.text ++ ": ".toList ++ field.2.text

/-- The line that gives the length of the body. -/
private def lengthLine (n : Nat) : List Char := "Content-Length: ".toList ++ toDecimal n

private theorem writeField_eq {field : HeaderName × HeaderValue} (h : field.2.IsTrimmed) :
    writeField field = fieldLine field ++ crlf := by
  rw [writeField, h.toStr]
  rfl

private theorem isLine_fieldLine {field : HeaderName × HeaderValue} (h : field.2.IsTrimmed) :
    IsLine (fieldLine field) := by
  constructor
  · simp [fieldLine]
  · intro hmem
    simp only [fieldLine, List.mem_append] at hmem
    rcases hmem with (hname | hcolon) | hvalue
    · exact (HeaderName.of_mem_text hname).2.2 rfl
    · exact absurd hcolon (by decide)
    · exact h.newline_notMem hvalue

private theorem parseField_fieldLine {field : HeaderName × HeaderValue} (h : field.2.IsTrimmed) :
    parseField (fieldLine field) = some (rawField field) := by
  have hcolon : ':' ∉ field.1.text := fun hmem => (HeaderName.of_mem_text hmem).2.1 rfl
  have hname : trim field.1.text = field.1.text := by
    apply trim_eq_self
    · intro c hc
      exact (HeaderName.of_mem_text (List.mem_of_head? hc)).1
    · intro c hc
      exact (HeaderName.of_mem_text (List.mem_of_getLast? hc)).1
  have hline : fieldLine field = field.1.text ++ ':' :: (' ' :: field.2.text) := by
    rw [fieldLine, List.append_assoc]
    rfl
  rw [parseField, hline, splitOnce_append hcolon, Option.map_some]
  dsimp only
  rw [hname, h.trim_space, rawField]

private theorem isLine_lengthLine (n : Nat) : IsLine (lengthLine n) := by
  refine ⟨List.append_ne_nil_of_left_ne_nil (by decide) _, ?_⟩
  intro hmem
  rcases List.mem_append.mp hmem with hname | hdigits
  · exact absurd hname (by decide)
  · exact absurd (isWhitespace_of_mem_toDecimal hdigits) (by decide)

private theorem parseField_lengthLine (n : Nat) :
    parseField (lengthLine n) = some ("Content-Length".toList, toDecimal n) := by
  have hcolon : ':' ∉ "Content-Length".toList := by decide
  have hname : trim "Content-Length".toList = "Content-Length".toList := by decide
  have hvalue : trim (' ' :: toDecimal n) = toDecimal n := by
    apply trim_space
    · intro c hc
      exact isWhitespace_of_mem_toDecimal (List.mem_of_head? hc)
    · intro c hc
      exact isWhitespace_of_mem_toDecimal (List.mem_of_getLast? hc)
  have hlabel : "Content-Length: ".toList = "Content-Length".toList ++ [':', ' '] := by decide
  have hline : lengthLine n = "Content-Length".toList ++ ':' :: (' ' :: toDecimal n) := by
    show "Content-Length: ".toList ++ toDecimal n = _
    rw [hlabel, List.append_assoc, List.cons_append, List.cons_append, List.nil_append]
  rw [parseField, hline, splitOnce_append hcolon, Option.map_some]
  dsimp only
  rw [hname, hvalue]

private theorem flatMap_writeField {fields : HeaderMap}
    (h : ∀ field ∈ fields, field.2.IsTrimmed) :
    fields.flatMap writeField = (fields.map fieldLine).flatMap (· ++ crlf) := by
  rw [List.flatMap_map]
  apply List.flatMap_congr
  intro field hfield
  exact writeField_eq (h field hfield)

private theorem filterMap_parseField {fields : HeaderMap}
    (h : ∀ field ∈ fields, field.2.IsTrimmed) :
    (fields.map fieldLine).filterMap parseField = fields.map rawField := by
  rw [List.filterMap_map, ← List.filterMap_eq_map]
  apply List.filterMap_congr
  intro field hfield
  exact parseField_fieldLine (h field hfield)

private theorem foldl_rawField {fields : HeaderMap} (h : ∀ field ∈ fields, field.2.IsTrimmed)
    (headers : HeaderMap) :
    (fields.map rawField).foldl (fun headers field =>
      match HeaderName.fromBytes field.1, HeaderValue.fromStr field.2 with
      | some name, some value => headers.append name value
      | _, _ => headers) headers = headers ++ fields := by
  induction fields generalizing headers with
  | nil => simp
  | cons field fields ih =>
    have hfield := h field List.mem_cons_self
    have hrest := fun headers =>
      ih (fun other hother => h other (List.mem_cons_of_mem field hother)) headers
    rw [List.map_cons, List.foldl_cons, rawField, HeaderName.fromBytes_text, hfield.fromStr_text]
    dsimp only
    rw [hrest, HeaderMap.append, List.append_assoc, List.singleton_append]

private theorem headersOfRaw_map {fields : HeaderMap} (h : ∀ field ∈ fields, field.2.IsTrimmed) :
    headersOfRaw (fields.map rawField) = fields := by
  rw [headersOfRaw, foldl_rawField h, List.nil_append]

/-! ## Requests -/

section Request

variable {method path : List Char} {fields : HeaderMap}

/-- The first line of a request. -/
private def requestLine (method path : List Char) : List Char :=
  method ++ " ".toList ++ path ++ " HTTP/1.1".toList

private theorem newline_notMem_word {word : List Char} (h : ∀ c ∈ word, isWhitespace c = false) :
    '\n' ∉ word := by
  intro hmem
  exact absurd (h _ hmem) (by decide)

private theorem isLine_requestLine (hmethod : ∀ c ∈ method, isWhitespace c = false)
    (hpath : ∀ c ∈ path, isWhitespace c = false) : IsLine (requestLine method path) := by
  refine ⟨List.append_ne_nil_of_right_ne_nil _ (by decide), ?_⟩
  intro hmem
  simp only [requestLine, List.mem_append] at hmem
  rcases hmem with ((hmem | hspace) | hmem) | hversion
  · exact newline_notMem_word hmethod hmem
  · exact absurd hspace (by decide)
  · exact newline_notMem_word hpath hmem
  · exact absurd hversion (by decide)

private theorem requestPayload_eq (method path : List Char)
    (hfields : ∀ field ∈ fields, field.2.IsTrimmed) (body : List UInt8) :
    requestPayload method path fields body =
      utf8Encode (crlf.intercalate (requestLine method path ::
        (fields.map fieldLine ++ [lengthLine body.length]))) ++ boundary ++ body := by
  have htext : method ++ " ".toList ++ path ++ " HTTP/1.1\r\n".toList ++
      fields.flatMap writeField ++
      ("Content-Length: ".toList ++ toDecimal body.length ++ "\r\n".toList) ++ "\r\n".toList =
      (requestLine method path :: (fields.map fieldLine ++ [lengthLine body.length])).flatMap
        (· ++ crlf) ++ crlf := by
    have hversion : " HTTP/1.1\r\n".toList = " HTTP/1.1".toList ++ crlf := by decide
    have hcrlf : "\r\n".toList = crlf := by decide
    rw [flatMap_writeField hfields, hversion, hcrlf]
    unfold requestLine lengthLine
    generalize " HTTP/1.1".toList = version
    generalize "Content-Length: ".toList = name
    simp only [List.flatMap_cons, List.flatMap_append, List.flatMap_nil,
      List.append_assoc, List.append_nil]
  rw [← utf8Encode_head, ← htext, requestPayload]

private theorem parse_requestPayload (hmethod : ∀ c ∈ method, isWhitespace c = false)
    (hpath : ∀ c ∈ path, isWhitespace c = false)
    (hfields : ∀ field ∈ fields, field.2.IsTrimmed) (body : List UInt8) :
    parseHttpRequest (requestPayload method path fields body) =
      match splitWhitespace (requestLine method path) with
      | method :: path :: _ => .ok ⟨method, path,
          fields.map rawField ++ [("Content-Length".toList, toDecimal body.length)], body⟩
      | _ => .error .invalidRequestLine := by
  have hlines : ∀ line ∈ requestLine method path ::
      (fields.map fieldLine ++ [lengthLine body.length]), IsLine line := by
    intro line hline
    rcases List.mem_cons.mp hline with rfl | hline
    · exact isLine_requestLine hmethod hpath
    · rcases List.mem_append.mp hline with hline | hline
      · obtain ⟨field, hfield, rfl⟩ := List.mem_map.mp hline
        exact isLine_fieldLine (hfields field hfield)
      · rw [List.mem_singleton.mp hline]
        exact isLine_lengthLine body.length
  rw [requestPayload_eq method path hfields, parseHttpRequest_lines hlines]
  rw [List.filterMap_append, filterMap_parseField hfields, List.filterMap_cons,
    parseField_lengthLine, List.filterMap_nil]

/-- A request with a method and a path is read as it was written. -/
theorem parseHttpRequest_requestPayload (hmethod : IsWord method) (hpath : IsWord path)
    (hfields : ∀ field ∈ fields, field.2.IsTrimmed) (body : List UInt8) :
    parseHttpRequest (requestPayload method path fields body) =
      .ok ⟨method, path, fields.map rawField ++
        [("Content-Length".toList, toDecimal body.length)], body⟩ := by
  have hspace : isWhitespace ' ' = true := by decide
  have hversion : IsWord "HTTP/1.1".toList := by decide
  have hline : requestLine method path =
      method ++ ' ' :: (path ++ ' ' :: "HTTP/1.1".toList) := by
    simp only [requestLine, List.append_assoc]
    rfl
  have hwords : splitWhitespace (requestLine method path) =
      [method, path, "HTTP/1.1".toList] := by
    rw [hline, splitWhitespace_append_space hmethod hspace,
      splitWhitespace_append_space hpath hspace, splitWhitespace_word hversion]
  rw [parse_requestPayload hmethod.2 hpath.2 hfields, hwords]

end Request

/-! ## Response heads -/

section Response

variable {statusText : List Char} {fields : HeaderMap}

/-- The first line of a response. -/
private def statusLine (status : UInt16) (statusText : List Char) : List Char :=
  "HTTP/1.1 ".toList ++ toDecimal status.toNat ++ " ".toList ++ statusText

/-- The fields a response head keeps. -/
def keptFields (fields : HeaderMap) : HeaderMap := fields.filter fun field => !isDropped field.1

private theorem flatMap_keptFields (fields : HeaderMap) :
    (fields.flatMap fun field => if isDropped field.1 then [] else writeField field) =
      (keptFields fields).flatMap writeField := by
  unfold keptFields
  induction fields with
  | nil => rfl
  | cons field fields ih =>
    rw [List.flatMap_cons, ih]
    cases hdropped : isDropped field.1 with
    | true => rw [if_pos rfl, List.filter_cons_of_neg (by simp [hdropped]), List.nil_append]
    | false =>
      rw [if_neg (by simp), List.filter_cons_of_pos (by simp [hdropped]), List.flatMap_cons]

private theorem isLine_statusLine (status : UInt16) (h : '\n' ∉ statusText) :
    IsLine (statusLine status statusText) := by
  unfold statusLine
  constructor
  · intro hnil
    rw [List.append_assoc, List.append_assoc, List.append_eq_nil_iff] at hnil
    exact absurd hnil.1 (by decide)
  · intro hmem
    simp only [List.mem_append] at hmem
    rcases hmem with ((hversion | hdigits) | hspace) | htext
    · exact absurd hversion (by decide)
    · exact absurd (isWhitespace_of_mem_toDecimal hdigits) (by decide)
    · exact absurd hspace (by decide)
    · exact h htext

private theorem splitn_statusLine (status : UInt16) (statusText : List Char) :
    splitn ' ' 3 (statusLine status statusText) =
      ["HTTP/1.1".toList, toDecimal status.toNat, statusText] := by
  have hline : statusLine status statusText =
      "HTTP/1.1".toList ++ ' ' :: (toDecimal status.toNat ++ ' ' :: statusText) := by
    unfold statusLine
    rw [List.append_assoc, List.append_assoc]
    rfl
  have hversion : ' ' ∉ "HTTP/1.1".toList := by decide
  have hdigits : ' ' ∉ toDecimal status.toNat := by
    intro hmem
    exact absurd (isWhitespace_of_mem_toDecimal hmem) (by decide)
  rw [hline, splitn, splitOnce_append hversion]
  dsimp only
  rw [splitn, splitOnce_append hdigits]
  rfl

private theorem responsePayload_eq (status : UInt16) (statusText : List Char)
    (hfields : ∀ field ∈ keptFields fields, field.2.IsTrimmed) :
    responsePayload status statusText fields =
      utf8Encode (crlf.intercalate (statusLine status statusText ::
        (keptFields fields).map fieldLine)) ++ boundary := by
  have htext : "HTTP/1.1 ".toList ++ toDecimal status.toNat ++ " ".toList ++ statusText ++
      "\r\n".toList ++ (keptFields fields).flatMap writeField ++ "\r\n".toList =
      (statusLine status statusText :: (keptFields fields).map fieldLine).flatMap (· ++ crlf) ++
        crlf := by
    have hcrlf : "\r\n".toList = crlf := by decide
    rw [flatMap_writeField hfields, hcrlf]
    unfold statusLine
    generalize "HTTP/1.1 ".toList = version
    simp only [List.flatMap_cons, List.append_assoc]
  unfold responsePayload
  dsimp only
  rw [← utf8Encode_head, ← htext, flatMap_keptFields]

/-- A response head is read as it was written, less the fields that are left out. -/
theorem parseHttpResponseHead_responsePayload (status : UInt16) (hstatus : '\n' ∉ statusText)
    (hfields : ∀ field ∈ fields, field.2.IsTrimmed) :
    parseHttpResponseHead (responsePayload status statusText fields) =
      .ok ⟨status, (keptFields fields).map rawField, []⟩ := by
  have hkept : ∀ field ∈ keptFields fields, field.2.IsTrimmed := by
    intro field hfield
    exact hfields field (List.mem_of_mem_filter hfield)
  have hlines : ∀ line ∈ statusLine status statusText :: (keptFields fields).map fieldLine,
      IsLine line := by
    intro line hline
    rcases List.mem_cons.mp hline with rfl | hline
    · exact isLine_statusLine status hstatus
    · obtain ⟨field, hfield, rfl⟩ := List.mem_map.mp hline
      exact isLine_fieldLine (hkept field hfield)
  have hparsed := parseHttpResponseHead_lines hlines []
  have hnumber : parseUnsigned 65535 (toDecimal status.toNat) = some status.toNat := by
    apply parseUnsigned_toDecimal
    have hsize := status.toNat_lt
    omega
  rw [List.append_nil] at hparsed
  rw [responsePayload_eq status statusText hkept, hparsed, splitn_statusLine]
  dsimp only
  rw [hnumber, filterMap_parseField hkept]
  dsimp only
  rw [UInt16.ofNat_toNat]

end Response

/-! ## Round trip -/

/-- The text of an HTTP head survives the Noise session. A request is read with its method, its
path, its body and every field in the order in which it was written, then one added
`Content-Length`; the map rebuilt from it has the values of every name in order. A response head is
read with its status and every field but those it leaves out. -/
theorem http_heads_round_trip (method path : List Char) (hmethod : IsWord method)
    (hpath : IsWord path) (headers fields : HeaderMap)
    (hvalues : ∀ field ∈ headers, field.2.IsTrimmed) (hloop : HeaderMap.IsIteration fields headers)
    (body : List UInt8) (status : UInt16) (statusText : List Char) (hstatus : '\n' ∉ statusText) :
    (∃ request, parseHttpRequest (requestPayload method path fields body) = .ok request ∧
      request.method = method ∧ request.path = path ∧ request.body = body ∧
      request.headers =
        fields.map rawField ++ [("Content-Length".toList, toDecimal body.length)] ∧
      ∃ length, HeaderValue.fromStr (toDecimal body.length) = some length ∧
        ∀ name, (buildNoiseRequestHeaders request.headers).getAll name =
          headers.getAll name ++ if name = Router.contentLength then [length] else []) ∧
    ∃ head, parseHttpResponseHead (responsePayload status statusText fields) = .ok head ∧
      head.status = status ∧ head.headers = (keptFields fields).map rawField ∧
      head.firstBody = [] ∧
      ∀ name, (buildPeerResponseHeaders head.headers).getAll name =
        if isDropped name then [] else headers.getAll name := by
  have hfields : ∀ field ∈ fields, field.2.IsTrimmed := by
    intro field hfield
    exact hvalues field ((hloop.mem_iff field).mp hfield)
  constructor
  · refine ⟨_, parseHttpRequest_requestPayload hmethod hpath hfields body, rfl, rfl, rfl, rfl, ?_⟩
    obtain ⟨length, hlength, -⟩ := HeaderValue.toStr_fromStr
      fun c hc => visible_toDecimal (n := body.length) hc
    have hname : HeaderName.fromBytes "Content-Length".toList = some Router.contentLength := by
      decide
    refine ⟨length, hlength, fun name => ?_⟩
    have hmap : buildNoiseRequestHeaders
        (fields.map rawField ++ [("Content-Length".toList, toDecimal body.length)]) =
        HeaderMap.append Router.contentLength length fields := by
      rw [buildNoiseRequestHeaders, headersOfRaw, List.foldl_append, foldl_rawField hfields,
        List.foldl_cons, List.foldl_nil, hname, hlength, List.nil_append]
    rw [hmap, ← hloop name]
    by_cases hlen : name = Router.contentLength
    · rw [if_pos hlen, hlen, HeaderMap.getAll_append_self]
    · rw [if_neg hlen, HeaderMap.getAll_append_of_ne (Ne.symm hlen), List.append_nil]
  · refine ⟨_, parseHttpResponseHead_responsePayload status hstatus hfields, rfl, rfl, rfl, ?_⟩
    intro name
    have hkept : ∀ field ∈ keptFields fields, field.2.IsTrimmed := by
      intro field hfield
      exact hfields field (List.mem_of_mem_filter hfield)
    rw [buildPeerResponseHeaders, headersOfRaw_map hkept, keptFields,
      HeaderMap.getAll_filter fun name => !isDropped name, hloop name]
    cases isDropped name <;> rfl

/-- A map with two cookies. -/
def twoCookies : HeaderMap :=
  [(⟨"cookie".toList, by decide⟩, ⟨[0x61, 0x20, 0x62], by decide⟩),
    (⟨"cookie".toList, by decide⟩, ⟨[0x63], by decide⟩)]

/-- A body that is itself a boundary, and a repeated field, arrive as they were sent. -/
theorem twoCookies_round_trip :
    ∃ request, parseHttpRequest (requestPayload "POST".toList "/v1".toList twoCookies
        [13, 10, 13, 10]) = .ok request ∧
      request.body = [13, 10, 13, 10] ∧
      request.headers = [("cookie".toList, "a b".toList), ("cookie".toList, "c".toList),
        ("Content-Length".toList, "4".toList)] := by
  obtain ⟨⟨request, hparsed, -, -, hbody, hheaders, -⟩, -⟩ :=
    http_heads_round_trip "POST".toList "/v1".toList (by decide) (by decide) twoCookies twoCookies
      (by decide) (fun _ => rfl) [13, 10, 13, 10] 200 "OK".toList (by decide)
  exact ⟨request, hparsed, hbody, by rw [hheaders]; decide⟩

/-- A request with an empty path, which no whitespace spoils, is read with the version as its
path. -/
theorem empty_path_read_as_version :
    (∀ c ∈ "GET".toList ++ "".toList, isWhitespace c = false) ∧
      ∃ request, parseHttpRequest (requestPayload "GET".toList "".toList [] []) = .ok request ∧
        request.path = "HTTP/1.1".toList ∧ request.path ≠ "".toList := by
  have hwords : splitWhitespace (requestLine "GET".toList "".toList) =
      ["GET".toList, "HTTP/1.1".toList] := by
    decide
  have hget : ∀ c ∈ "GET".toList ++ "".toList, isWhitespace c = false :=
    isWhitespace_of_all (by decide)
  have hparsed := @parse_requestPayload "GET".toList "".toList []
    (isWhitespace_of_all (by decide)) (isWhitespace_of_all (by decide)) (by decide) []
  rw [hwords] at hparsed
  exact ⟨hget, _, hparsed, rfl, by decide⟩

end Llamesh.Noise
