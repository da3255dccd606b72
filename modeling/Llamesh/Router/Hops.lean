import Llamesh.Library.Run
import Llamesh.Router.Headers

/-!
# The hop limit

`route_request` reads the hop count of a request, refuses a count above `max_hops`
(`src/router.rs:983–998`), and forwards with the header map of `build_forward_headers`
(`src/router.rs:1042,1316`). Which peer a node picks, and whether it forwards at all, is left open:
a label of a run is any choice of peer, any generated request id and any header map the peer
receives, as long as the transport relays the values of the hop field unchanged.

The count is a `usize` that is incremented without a check. The two guarantees of the counter
(`CountsForwards`, `BoundsChains`) both hold exactly when `max_hops` is not `usize::MAX`; at that
limit the count of an accepted request can wrap to zero.
-/

namespace Llamesh.Router

open Http Transition

/-- An error response: its status, message and type; `src/errors.rs:14–28`. -/
structure AppError where
  status : Nat
  message : String
  type_ : String
deriving DecidableEq

/-- `AppError::invalid_request`; `src/errors.rs:78–80`. -/
def AppError.invalidRequest (message : String) : AppError :=
  ⟨400, message, "invalid_request_error"⟩

/-- `usize::MAX`. -/
def usizeMax : UInt64 := 18446744073709551615

/-- `str::parse::<usize>`. -/
def parseUsize (cs : List Char) : Option UInt64 :=
  (Text.parseUnsigned usizeMax.toNat cs).map UInt64.ofNat

/-- The hop count of a request: its first hop field, or zero without one;
`src/router.rs:984–994`. -/
def parsedHops (headers : HeaderMap) : Except AppError UInt64 :=
  match headers.get meshHops with
  | some header =>
    match header.toStr with
    | some text =>
      match parseUsize text with
      | some hops => .ok hops
      | none => .error (.invalidRequest "Invalid x-llama-mesh-hops header value")
    | none => .error (.invalidRequest "Invalid x-llama-mesh-hops header encoding")
  | none => .ok 0

/-- The hop count of a request that may be forwarded; `src/router.rs:984–998`. -/
def currentHops (maxHops : UInt64) (headers : HeaderMap) : Except AppError UInt64 :=
  match parsedHops headers with
  | .ok hops =>
    if hops > maxHops then .error (.invalidRequest "Too many hops (loop detected)") else .ok hops
  | .error e => .error e

/-- The incoming request id, or the one generated for the request; `src/router.rs:975–981`. -/
def requestId (generated : List Char) (headers : HeaderMap) : List Char :=
  ((headers.get xRequestId).bind HeaderValue.toStr).getD generated

/-- The header map of every forward of a request that passed the hop check. -/
def forwardedHeaders (maxHops : UInt64) (generated : List Char) (headers : HeaderMap) :
    Except AppError HeaderMap :=
  (currentHops maxHops headers).map fun hops =>
    buildForwardHeaders headers hops (requestId generated headers)

/-- A request at a node of the mesh. -/
structure Arrival where
  node : String
  headers : HeaderMap

/-- One forward: the peer chosen, the request id generated at the forwarding node for a request
without one, and the header map the peer receives. -/
structure Forward where
  peer : String
  generated : List Char
  received : HeaderMap

/-- One forward of a request in a mesh whose nodes all have the limit `maxHops`. The transport may
set its own fields and relays the values of the hop field. -/
def forward (maxHops : UInt64) (s : Arrival) (l : Forward) : Option Arrival :=
  match forwardedHeaders maxHops l.generated s.headers with
  | .ok sent => guarded (l.received.getAll meshHops = sent.getAll meshHops) ⟨l.peer, l.received⟩
  | .error _ => none

/-- Every forwarded request carries one hop field, whose value is the parsed count plus one. -/
def CountsForwards (maxHops : UInt64) : Prop :=
  ∀ generated headers sent, forwardedHeaders maxHops generated headers = .ok sent →
    ∃ hops, parsedHops headers = .ok hops ∧
      (sent.getAll meshHops).map HeaderValue.toStr = [some (Text.toDecimal (hops.toNat + 1))]

/-- Every chain of forwards of a request that enters without a hop field has at most
`max_hops + 1` forwards. -/
def BoundsChains (maxHops : UInt64) : Prop :=
  ∀ (s t : Arrival) (chain : List Forward), s.headers.get meshHops = none →
    exec (forward maxHops) s chain = some t → chain.length ≤ maxHops.toNat + 1

/-! ## Reading the counter -/

private theorem parseUsize_toDecimal (n : UInt64) : parseUsize
    (Text.toDecimal n.toNat) = some n := by
  have hle : n.toNat ≤ usizeMax.toNat := by
    have := n.toNat_lt
    show n.toNat ≤ 18446744073709551615
    omega
  unfold parseUsize
  rw [Text.parseUnsigned_toDecimal hle, Option.map_some, UInt64.ofNat_toNat]

/-- A request without a hop field has made no hop. -/
theorem parsedHops_of_none {headers : HeaderMap} (h : headers.get meshHops = none) :
    parsedHops headers = .ok 0 := by
  simp only [parsedHops, h]

/-- A request whose one hop field is a decimal has made that many hops. -/
theorem parsedHops_of_single {n : UInt64} {headers : HeaderMap} {value : HeaderValue}
    (h : headers.getAll meshHops = [value]) (hv : value.toStr = some (Text.toDecimal n.toNat)) :
    parsedHops headers = .ok n := by
  have hget : headers.get meshHops = some value := by
    rw [HeaderMap.get, h, List.head?_cons]
  simp only [parsedHops, hget, hv, parseUsize_toDecimal]

/-- A request passes the hop check when its count parses and is at most the limit. -/
theorem currentHops_eq_ok {maxHops hops : UInt64} {headers : HeaderMap} :
    currentHops maxHops headers = .ok hops ↔ parsedHops headers = .ok hops ∧ hops ≤ maxHops := by
  unfold currentHops
  cases parsedHops headers with
  | error e => simp
  | ok n =>
    dsimp only
    split
    · next hgt =>
      have hne : ¬ n ≤ maxHops := UInt64.not_le.mpr hgt
      constructor
      · intro h
        cases h
      · rintro ⟨h, hle⟩
        cases h
        exact absurd hle hne
    · next hle =>
      have hn : n ≤ maxHops := UInt64.not_lt.mp hle
      constructor
      · intro h
        cases h
        exact ⟨rfl, hn⟩
      · rintro ⟨h, -⟩
        cases h
        rfl

/-- What a forward carries: one hop field, the wrapped successor of the parsed count. -/
theorem forwardedHeaders_eq_ok {maxHops : UInt64} {generated : List Char}
    {headers sent : HeaderMap} (h : forwardedHeaders maxHops generated headers = .ok sent) :
    ∃ hops value, parsedHops headers = .ok hops ∧ hops ≤ maxHops ∧
      sent.getAll meshHops = [value] ∧ value.toStr = some (Text.toDecimal (hops + 1).toNat) := by
  unfold forwardedHeaders at h
  cases hcurrent : currentHops maxHops headers with
  | error e =>
    rw [hcurrent] at h
    cases h
  | ok hops =>
    rw [hcurrent] at h
    cases h
    obtain ⟨hparsed, hle⟩ := currentHops_eq_ok.mp hcurrent
    obtain ⟨value, hsingle, hstr⟩ :=
      getAll_meshHops_buildForwardHeaders headers hops (requestId generated headers)
    exact ⟨hops, value, hparsed, hle, hsingle, hstr⟩

/-- A request that parses to an allowed count is forwarded. -/
theorem forwardedHeaders_of_le {maxHops hops : UInt64} {headers : HeaderMap}
    (generated : List Char) (h : parsedHops headers = .ok hops) (hle : hops ≤ maxHops) :
    ∃ sent, forwardedHeaders maxHops generated headers = .ok sent := by
  have hcurrent := currentHops_eq_ok.mpr ⟨h, hle⟩
  refine ⟨buildForwardHeaders headers hops (requestId generated headers), ?_⟩
  rw [forwardedHeaders, hcurrent]
  rfl

/-! ## Below the largest limit -/

private theorem toNat_succ_of_le {hops maxHops : UInt64} (hle : hops ≤ maxHops)
    (hmax : maxHops ≠ usizeMax) : (hops + 1).toNat = hops.toNat + 1 := by
  have hhops : hops.toNat ≤ maxHops.toNat := UInt64.le_iff_toNat_le.mp hle
  have hlimit : maxHops.toNat ≠ 18446744073709551615 := by
    intro h
    exact hmax (UInt64.toNat_inj.mp h)
  have hsize := maxHops.toNat_lt
  rw [UInt64.toNat_add]
  show (hops.toNat + 1) % 18446744073709551616 = hops.toNat + 1
  omega

private theorem countsForwards_of_ne {maxHops : UInt64} (hmax : maxHops ≠ usizeMax) :
    CountsForwards maxHops := by
  intro generated headers sent h
  obtain ⟨hops, value, hparsed, hle, hsingle, hstr⟩ := forwardedHeaders_eq_ok h
  refine ⟨hops, hparsed, ?_⟩
  rw [hsingle, List.map_singleton, hstr, toNat_succ_of_le hle hmax]

/-- What is known of a request after `chain` forwards: it has made as many hops as it was
forwarded, and it was forwarded at most once from a count at the limit. -/
private def Counted (maxHops : UInt64) (chain : List Forward) (s : Arrival) : Prop :=
  ∃ hops : UInt64, parsedHops s.headers = .ok hops ∧ hops.toNat = chain.length ∧
    chain.length ≤ maxHops.toNat + 1

private theorem forward_eq_some {maxHops : UInt64} {s t : Arrival} {l : Forward}
    (h : forward maxHops s l = some t) :
    ∃ hops, parsedHops s.headers = .ok hops ∧ hops ≤ maxHops ∧
      parsedHops t.headers = .ok (hops + 1) := by
  unfold forward at h
  split at h
  · next sent hsent =>
    obtain ⟨hops, value, hparsed, hle, hsingle, hstr⟩ := forwardedHeaders_eq_ok hsent
    rw [guarded_eq_some] at h
    obtain ⟨hrelayed, rfl⟩ := h
    exact ⟨hops, hparsed, hle, parsedHops_of_single (hrelayed.trans hsingle) hstr⟩
  · cases h

private theorem counted_step {maxHops : UInt64} (hmax : maxHops ≠ usizeMax) {chain : List Forward}
    {s t : Arrival} {l : Forward} (hs : Counted maxHops chain s)
    (h : forward maxHops s l = some t) : Counted maxHops (chain ++ [l]) t := by
  obtain ⟨n, hn, hlength, -⟩ := hs
  obtain ⟨hops, hparsed, hle, hnext⟩ := forward_eq_some h
  obtain rfl : n = hops := by
    rw [hn] at hparsed
    cases hparsed
    rfl
  have hsucc := toNat_succ_of_le hle hmax
  have hbound : n.toNat ≤ maxHops.toNat := UInt64.le_iff_toNat_le.mp hle
  refine ⟨n + 1, hnext, ?_, ?_⟩
  · rw [hsucc, hlength, List.length_append, List.length_singleton]
  · rw [List.length_append, List.length_singleton]
    omega

private theorem boundsChains_of_ne {maxHops : UInt64} (hmax : maxHops ≠ usizeMax) :
    BoundsChains maxHops := by
  intro s t chain hnone hrun
  have hstart : Counted maxHops [] s := by
    refine ⟨0, parsedHops_of_none hnone, rfl, ?_⟩
    exact Nat.zero_le _
  have hcounted : Counted maxHops chain t := by
    apply exec_trace_invariant (C := fun _ _ => True) hstart
    · intro as u l v _ hu _ hv
      exact counted_step hmax hu hv
    · exact along_true s chain
    · exact hrun
  exact hcounted.choose_spec.2.2

/-! ## At the largest limit -/

/-- A request whose count is `usize::MAX`. -/
def fullCount : HeaderMap := [(meshHops, ⟨"18446744073709551615".toList.flatMap
  String.utf8EncodeChar, by decide⟩)]

private theorem le_usizeMax (hops : UInt64) : hops ≤ usizeMax := by
  rw [UInt64.le_iff_toNat_le]
  have := hops.toNat_lt
  show hops.toNat ≤ 18446744073709551615
  omega

private theorem forward_of_parsed {s : Arrival} {hops : UInt64}
    (h : parsedHops s.headers = .ok hops) :
    ∃ l t, forward usizeMax s l = some t ∧ ∃ next, parsedHops t.headers = .ok next := by
  obtain ⟨sent, hsent⟩ := forwardedHeaders_of_le [] h (le_usizeMax hops)
  obtain ⟨n, value, -, -, hsingle, hstr⟩ := forwardedHeaders_eq_ok hsent
  refine ⟨⟨s.node, [], sent⟩, ⟨s.node, sent⟩, ?_, n + 1, parsedHops_of_single hsingle hstr⟩
  simp only [forward, hsent, guarded_eq_some, and_self]

private theorem exists_chain (n : Nat) {s : Arrival} {hops : UInt64}
    (h : parsedHops s.headers = .ok hops) :
    ∃ chain t, chain.length = n ∧ exec (forward usizeMax) s chain = some t := by
  -- no count is refused at this limit
  induction n generalizing s hops with
  | zero => exact ⟨[], s, rfl, rfl⟩
  | succ n ih =>
    obtain ⟨l, u, hstep, next, hnext⟩ := forward_of_parsed h
    obtain ⟨chain, t, hlength, hrun⟩ := ih hnext
    refine ⟨l :: chain, t, ?_, ?_⟩
    · rw [List.length_cons, hlength]
    · exact exec_cons_eq_some.mpr ⟨u, hstep, hrun⟩

private theorem not_boundsChains_usizeMax : ¬ BoundsChains usizeMax := by
  intro h
  have hempty : HeaderMap.get meshHops [] = none := rfl
  obtain ⟨chain, t, hlength, hrun⟩ :=
    exists_chain (usizeMax.toNat + 2) (s := ⟨"a", []⟩) (parsedHops_of_none hempty)
  have := h ⟨"a", []⟩ t chain hempty hrun
  omega

private theorem parsedHops_fullCount : parsedHops fullCount = .ok usizeMax := by
  decide +kernel

private theorem not_countsForwards_usizeMax : ¬ CountsForwards usizeMax := by
  intro h
  obtain ⟨sent, hsent⟩ := forwardedHeaders_of_le [] parsedHops_fullCount (le_usizeMax usizeMax)
  obtain ⟨n, value, hn, -, hsingle, hstr⟩ := forwardedHeaders_eq_ok hsent
  obtain ⟨m, hm, hcount⟩ := h [] fullCount sent hsent
  rw [parsedHops_fullCount] at hn hm
  cases hn
  cases hm
  rw [hsingle, List.map_singleton, hstr] at hcount
  exact absurd hcount (by decide +kernel)

/-- The hop counter counts every forward and bounds every chain exactly when the common limit is
below `usize::MAX`. -/
theorem hop_limit_exact (maxHops : UInt64) :
    (CountsForwards maxHops ↔ maxHops ≠ usizeMax) ∧
      (BoundsChains maxHops ↔ maxHops ≠ usizeMax) := by
  refine ⟨⟨?_, countsForwards_of_ne⟩, ⟨?_, boundsChains_of_ne⟩⟩
  · rintro h rfl
    exact not_countsForwards_usizeMax h
  · rintro h rfl
    exact not_boundsChains_usizeMax h

/-- A request that arrives with the count `usize::MAX` under that limit is forwarded with the count
zero. -/
theorem full_count_forwarded_as_zero :
    parsedHops fullCount = .ok usizeMax ∧
      (∃ sent, forwardedHeaders usizeMax [] fullCount = .ok sent ∧
        (sent.getAll meshHops).map HeaderValue.toStr = [some ['0']]) ∧
      ¬ CountsForwards usizeMax := by
  refine ⟨parsedHops_fullCount, ?_, not_countsForwards_usizeMax⟩
  refine ⟨buildForwardHeaders fullCount usizeMax [], ?_, ?_⟩
  · decide +kernel
  · decide +kernel

end Llamesh.Router
