import Llamesh.Library.Text

/-!
# Peer addresses

The addresses a gossip handler compares (`src/cluster.rs:468–552`): hosts and loopback tests read
from the text of a URL, URLs compared through the URL parser, and the address derived from a
transport source. IP addresses follow `std::net`, including their display; the URL parser is a
parameter, of which the handler reads the scheme and the port.
-/

namespace Llamesh.Gossip

/-- `std::net::IpAddr`: four octets, or eight segments of 16 bits. -/
inductive IpAddr where
  | v4 (a b c d : UInt8)
  | v6 (segments : Vector UInt16 8)
deriving DecidableEq

/-- `std::net::SocketAddr`, without the flow label and scope of IPv6, which are never read. -/
structure SocketAddr where
  ip : IpAddr
  port : UInt16
deriving DecidableEq

namespace IpAddr

/-- `to_canonical`: an IPv4-mapped IPv6 address as IPv4. -/
def toCanonical : IpAddr → IpAddr
  | v4 a b c d => v4 a b c d
  | v6 s =>
    if s[0] = 0 ∧ s[1] = 0 ∧ s[2] = 0 ∧ s[3] = 0 ∧ s[4] = 0 ∧ s[5] = 0xffff then
      v4 (s[6] >>> 8).toUInt8 s[6].toUInt8 (s[7] >>> 8).toUInt8 s[7].toUInt8
    else v6 s

/-- `is_unspecified`. -/
def isUnspecified : IpAddr → Bool
  | v4 a b c d => a = 0 && b = 0 && c = 0 && d = 0
  | v6 s => s.toList.all (· = 0)

/-- `is_multicast`. -/
def isMulticast : IpAddr → Bool
  | v4 a _ _ _ => 224 ≤ a && a ≤ 239
  | v6 s => s[0] &&& 0xff00 = 0xff00

/-- `is_loopback`. -/
def isLoopback : IpAddr → Bool
  | v4 a _ _ _ => a = 127
  | v6 s => s.toList = [0, 0, 0, 0, 0, 0, 0, 1]

/-- `Ipv4Addr::is_broadcast`, false for IPv6. -/
def isBroadcast : IpAddr → Bool
  | v4 a b c d => a = 255 && b = 255 && c = 255 && d = 255
  | v6 _ => false

/-- `Ipv6Addr::is_unicast_link_local`, false for IPv4. -/
def isUnicastLinkLocal : IpAddr → Bool
  | v4 .. => false
  | v6 s => s[0] &&& 0xffc0 = 0xfe80

/-- Segments in lower-case hexadecimal, separated by colons. -/
def displaySegments (segments : List UInt16) : String :=
  ":".intercalate (segments.map fun s => String.ofList (Nat.toDigits 16 s.toNat))

/-- The first longest run of zero segments, as its start and length. -/
def longestZeros (segments : List UInt16) : Nat × Nat :=
  let scan := segments.zipIdx.foldl (fun (longest, current) (segment, i) =>
    if segment = 0 then
      let current := if current.2 = 0 then (i, 1) else (current.1, current.2 + 1)
      (if current.2 > longest.2 then current else longest, current)
    else (longest, (0, 0))) ((0, 0), (0, 0))
  scan.1

/-- `Display` of `Ipv4Addr` and `Ipv6Addr`. -/
def display : IpAddr → String
  | v4 a b c d => s!"{a.toNat}.{b.toNat}.{c.toNat}.{d.toNat}"
  | v6 s =>
    match toCanonical (v6 s) with
    | v4 a b c d => s!"::ffff:{a.toNat}.{b.toNat}.{c.toNat}.{d.toNat}"
    | v6 s =>
      let segments := s.toList
      let (start, len) := longestZeros segments
      if len > 1 then
        displaySegments (segments.take start) ++ "::" ++
          displaySegments (segments.drop (start + len))
      else displaySegments segments

end IpAddr

/-- `Display` of `SocketAddr`. -/
def SocketAddr.display (addr : SocketAddr) : String :=
  match addr.ip with
  | .v4 .. => s!"{addr.ip.display}:{addr.port.toNat}"
  | .v6 _ => s!"[{addr.ip.display}]:{addr.port.toNat}"

/-! ## Text of a URL -/

/-- The text after `http://` or `https://`. -/
def afterScheme (url : List Char) : List Char :=
  ((Text.stripPrefix "http://".toList url).or (Text.stripPrefix "https://".toList url)).getD url

/-- The text before the first `c`. -/
def before (c : Char) (cs : List Char) : List Char := cs.takeWhile (· ≠ c)

/-- `extract_host_from_url`; `src/cluster.rs:471–488`. -/
def extractHostFromUrl (url : String) : String :=
  let rest := afterScheme url.toList
  String.ofList <|
    if rest.head? = some '[' then
      if ']' ∈ rest then (before ']' rest).drop 1 else rest
    else before ':' rest

/-- `is_loopback_address`; `src/cluster.rs:491–515`. -/
def isLoopbackAddress (url : String) : Bool :=
  let rest := afterScheme url.toList
  let host :=
    if rest.head? = some '[' then
      if ']' ∈ rest then before ']' rest ++ [']'] else rest
    else before ':' rest
  host = "localhost".toList || host = "127.0.0.1".toList || "127.".toList.isPrefixOf host ||
    host = "::1".toList || host = "[::1]".toList

/-! ## Parsed URLs -/

/-- What the handler uses of `reqwest::Url`. -/
structure UrlParser where
  Url : Type
  eq : DecidableEq Url
  parse : String → Option Url
  scheme : Url → String
  portOrKnownDefault : Url → Option UInt16

instance (urls : UrlParser) : DecidableEq urls.Url := urls.eq

/-- A parser that knows the addresses of one host at port 9000, for concrete runs. -/
def literalUrls : UrlParser where
  Url := String
  eq := inferInstance
  parse s := if s ∈ ["http://10.0.0.2:9000", "http://127.0.0.1:9000"] then some s else none
  scheme _ := "http"
  portOrKnownDefault _ := some 9000

variable (urls : UrlParser)

/-- `str::contains` of `"://"`. -/
def containsScheme : List Char → Bool
  | [] => false
  | c :: cs => "://".toList.isPrefixOf (c :: cs) || containsScheme cs

/-- `parse_peer_url`: a bare address implies HTTP; `src/cluster.rs:523–531`. -/
def parsePeerUrl (address : String) : Option urls.Url :=
  (urls.parse (if containsScheme address.toList then address else "http://" ++ address)).filter
    fun url => urls.scheme url = "http" || urls.scheme url = "https"

/-- `same_peer_url`; `src/cluster.rs:519–521`. -/
def samePeerUrl (left right : String) : Bool :=
  match parsePeerUrl urls left, parsePeerUrl urls right with
  | some left, some right => left = right
  | _, _ => false

/-- `source_peer_url`: the canonical source IP with the scheme and port the peer advertised;
`src/cluster.rs:533–552`. -/
def sourcePeerUrl (advertised : String) (source : SocketAddr) : Option String :=
  let ip := source.ip.toCanonical
  if ip.isUnspecified || ip.isMulticast then none
  else if ip.isBroadcast then none
  else if ip.isUnicastLinkLocal then none
  else do
    let advertised ← parsePeerUrl urls advertised
    let port ← (urls.portOrKnownDefault advertised).filter (· ≠ 0)
    return urls.scheme advertised ++ "://" ++ (SocketAddr.mk ip port).display

end Llamesh.Gossip
