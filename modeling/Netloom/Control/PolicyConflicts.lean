import Netloom.Control.Separation

/-!
# Conflicts of policy routes

Two policy routes of one VPC and one priority conflict if some packet meets both. The
validation compares the matches field by field: prefixes, protocols and port ranges that
may overlap.
-/
namespace Netloom.Control

open Model Netloom.Topology List Checked
open Netip (Addr Prefix)

/-! ### A common value of each field -/

theorem exists_ip_of_mayOverlap {left right : Prefix}
    (overlap : prefixesMayOverlap left right) : ∃ ip,
      (left.isValid → left.contains ip) ∧
        (right.isValid → right.contains ip) := by
  by_cases validLeft : left.isValid
  · by_cases validRight : right.isValid
    · simp only [prefixesMayOverlap, validLeft, validRight, Bool.not_true, Bool.false_or,
        prefixesOverlap] at overlap
      -- the first address of one block lies in the other
      rcases (Bool.or_eq_true _ _).mp ((Bool.and_eq_true _ _).mp overlap).2 with inside | inside
      · refine ⟨right.masked.addr, fun _ => ?_, fun _ => ?_⟩
        · rwa [Prefix.contains_masked] at inside
        · rw [← Prefix.contains_masked]
          exact Prefix.contains_addr (by rwa [Prefix.masked_isValid])
      · refine ⟨left.masked.addr, fun _ => ?_, fun _ => ?_⟩
        · rw [← Prefix.contains_masked]
          exact Prefix.contains_addr (by rwa [Prefix.masked_isValid])
        · rwa [Prefix.contains_masked] at inside
    · exact ⟨left.addr, fun _ => Prefix.contains_addr validLeft, fun valid => absurd valid validRight⟩
  · exact ⟨right.addr, fun valid => absurd valid validLeft, Prefix.contains_addr⟩

/-- The start of every range is not behind its end. -/
def Ascending (ranges : List PortRange) : Prop := ∀ range ∈ ranges, range.fromPort ≤ range.toPort

variable {ranges : List PortRange}

theorem portRangesContain_iff {port : BitVec 16} :
    Topology.portRangesContain ranges port ↔
      ∃ range ∈ ranges, range.fromPort ≤ port ∧ port ≤ range.toPort := by
  simp [Topology.portRangesContain]

theorem exists_port (ascending : Ascending ranges) :
    ∃ port, ranges ≠ [] → Topology.portRangesContain ranges port := by
  cases ranges with
  | nil => exact ⟨0, fun some => absurd rfl some⟩
  | cons range rest =>
    refine ⟨range.fromPort, fun _ => portRangesContain_iff.mpr ⟨range, by simp, ?_, ?_⟩⟩
    · exact BitVec.le_refl _
    · exact ascending range (by simp)

theorem exists_port_of_mayOverlap {left right : List PortRange} (ascending : Ascending left)
    (ascending' : Ascending right) (overlap : portRangesMayOverlap left right) : ∃ port,
      (left ≠ [] → Topology.portRangesContain left port) ∧
        (right ≠ [] → Topology.portRangesContain right port) := by
  simp only [portRangesMayOverlap, Bool.or_eq_true, List.isEmpty_iff, any_eq_true,
    Bool.and_eq_true, decide_eq_true_eq] at overlap
  rcases overlap with (rfl | rfl) | ⟨a, memberA, b, memberB, aToB, bToA⟩
  · obtain ⟨port, inRight⟩ := exists_port ascending'
    exact ⟨port, fun some => absurd rfl some, inRight⟩
  · obtain ⟨port, inLeft⟩ := exists_port ascending
    exact ⟨port, inLeft, fun some => absurd rfl some⟩
  · -- the later of the two starts lies in both ranges
    rcases BitVec.le_total a.fromPort b.fromPort with le | le
    · exact ⟨b.fromPort, fun _ => portRangesContain_iff.mpr ⟨a, memberA, le, bToA⟩,
        fun _ => portRangesContain_iff.mpr ⟨b, memberB, BitVec.le_refl _, ascending' b memberB⟩⟩
    · exact ⟨a.fromPort,
        fun _ => portRangesContain_iff.mpr ⟨a, memberA, BitVec.le_refl _, ascending a memberA⟩,
        fun _ => portRangesContain_iff.mpr ⟨b, memberB, le, aToB⟩⟩

theorem exists_protocol_of_mayOverlap {left right : Protocol}
    (overlap : protocolsMayOverlap left right) : ∃ protocol,
      (left = .unset ∨ left = .any ∨ left = protocol) ∧
        (right = .unset ∨ right = .any ∨ right = protocol) := by
  simp only [protocolsMayOverlap, Bool.or_eq_true, decide_eq_true_eq] at overlap
  rcases overlap with (((unset | any) | unset') | any') | same
  · exact ⟨right, .inl unset, .inr (.inr rfl)⟩
  · exact ⟨right, .inr (.inl any), .inr (.inr rfl)⟩
  · exact ⟨left, .inr (.inr rfl), .inl unset'⟩
  · exact ⟨left, .inr (.inr rfl), .inr (.inl any')⟩
  · exact ⟨left, .inr (.inr rfl), .inr (.inr same.symm)⟩

variable {matched : RouteMatch}

theorem routeMatch_iff {packet : Packet} :
    routeMatch matched packet ↔
      (matched.source.isValid → matched.source.contains packet.source) ∧
      (matched.destination.isValid → matched.destination.contains packet.dest) ∧
      (matched.protocol = .unset ∨ matched.protocol = .any ∨ matched.protocol = packet.protocol) ∧
      (matched.srcPorts ≠ [] → Topology.portRangesContain matched.srcPorts packet.sourcePort) ∧
      (matched.dstPorts ≠ [] → Topology.portRangesContain matched.dstPorts packet.destPort) := by
  simp [routeMatch, and_assoc, or_assoc, imp_iff_not_or]

/-- Port ranges of a valid match are ascending. -/
theorem ascending_of_validate (valid : matched.validate = .ok ()) :
    Ascending matched.srcPorts ∧ Ascending matched.dstPorts := by
  have ranges : ∀ {wrap : Nat → String → String} {ports : List PortRange},
      forEach (fun i p => context (wrap i) p.validate) ports = .ok () →
      Ascending ports := by
    intro wrap ports checked range member
    obtain ⟨i, accepted⟩ := of_forEach checked range member
    simp only [context_eq_ok, PortRange.validate, bind_eq_ok,
      require_eq_ok, decide_eq_true_eq] at accepted
    obtain ⟨_, _, ascending⟩ := accepted
    exact ascending
  simp only [RouteMatch.validate, bind_eq_ok] at valid
  obtain ⟨_, _, _, _, _, _, _, _, _, _, _, _, _, srcPorts, dstPorts⟩ := valid
  exact ⟨ranges srcPorts, ranges dstPorts⟩

theorem validMatch {route : PolicyRoute} (valid : route.validate = .ok ()) :
    route.match.validate = .ok () := by
  simp only [PolicyRoute.validate, bind_eq_ok, context_eq_ok] at valid
  obtain ⟨_, _, _, _, _, _, _, _, _, _, _, _, _, _, _, matched, _⟩ := valid
  exact matched

/-- Valid matches overlap if and only if a packet meets both. -/
theorem routeMatchesOverlap_iff {left right : RouteMatch} (valid : left.validate = .ok ())
    (valid' : right.validate = .ok ()) : routeMatchesOverlap left right ↔
      ∃ packet, routeMatch left packet ∧ routeMatch right packet := by
  constructor
  · intro overlap
    simp only [routeMatchesOverlap, Bool.and_eq_true] at overlap
    obtain ⟨⟨⟨⟨sources, destinations⟩, protocols⟩, srcPorts⟩, dstPorts⟩ := overlap
    obtain ⟨src, dst⟩ := ascending_of_validate valid
    obtain ⟨src', dst'⟩ := ascending_of_validate valid'
    obtain ⟨source, inSource, inSource'⟩ := exists_ip_of_mayOverlap sources
    obtain ⟨dest, inDest, inDest'⟩ := exists_ip_of_mayOverlap destinations
    obtain ⟨protocol, ofProtocol, ofProtocol'⟩ := exists_protocol_of_mayOverlap protocols
    obtain ⟨sourcePort, inSrc, inSrc'⟩ := exists_port_of_mayOverlap src src' srcPorts
    obtain ⟨destPort, inDst, inDst'⟩ := exists_port_of_mayOverlap dst dst' dstPorts
    refine ⟨{ sourcePort, vpc := "", source, dest, protocol, destPort }, ?_, ?_⟩
    · exact routeMatch_iff.mpr ⟨inSource, inDest, ofProtocol, inSrc, inDst⟩
    · exact routeMatch_iff.mpr ⟨inSource', inDest', ofProtocol', inSrc', inDst'⟩
  · rintro ⟨packet, met, met'⟩
    exact routeMatchesOverlap_of_routeMatch met met'

/-! ### Lists of routes -/

/-- Two routes of one VPC and one priority whose matches overlap. -/
def Clash (old route : PolicyRoute) : Prop :=
  old.vpc = route.vpc ∧ old.priority = route.priority ∧
    routeMatchesOverlap old.match route.match = true

/-- What the validation of a list of routes asks for. -/
theorem validatePolicyRoutes_eq_ok {routes : List PolicyRoute} :
    validatePolicyRoutes routes = .ok () ↔
      (∀ route ∈ routes, route.validate = .ok ()) ∧ routes.Pairwise fun old route =>
        objectKey old.vpc old.name ≠ objectKey route.vpc route.name ∧ ¬ Clash old route := by
  rw [validatePolicyRoutes]
  refine growing_iff_pairwise (fun seen route => ?_) routes
  simp only [validatePolicyRoute, bind_eq_ok, require_eq_ok, forM_eq_ok,
    Bool.not_eq_true', any_eq_false, decide_eq_true_eq, Clash]
  grind

/-- Some packet meets two different routes of one VPC and one priority. -/
def Conflict (routes : List PolicyRoute) : Prop :=
  ∃ packet, ∃ left ∈ routes, ∃ right ∈ routes, left ≠ right ∧ left.vpc = right.vpc ∧
    left.priority = right.priority ∧ routeMatch left.match packet = true ∧
    routeMatch right.match packet = true

/-- Different routes are not given one text for VPC and name. -/
def KeysApart (routes : List PolicyRoute) : Prop :=
  ∀ left ∈ routes, ∀ right ∈ routes,
    objectKey left.vpc left.name = objectKey right.vpc right.name → left = right

section

variable {routes : List PolicyRoute} (valid : ∀ route ∈ routes, route.validate = .ok ())
  (unique : (routes.map fun route => (route.vpc, route.name)).Nodup)

include valid unique

/-- Valid routes with different names are accepted if their keys differ and no packet meets two
of them. -/
theorem validatePolicyRoutes_iff :
    validatePolicyRoutes routes = .ok () ↔ KeysApart routes ∧ ¬ Conflict routes := by
  have nodup : routes.Nodup := unique.of_map
  rw [validatePolicyRoutes_eq_ok, and_iff_right valid, pairwise_and_iff]
  have keys : (routes.Pairwise fun old route =>
      objectKey old.vpc old.name ≠ objectKey route.vpc route.name) ↔ KeysApart routes := by
    have : Std.Symm fun old route : PolicyRoute =>
        objectKey old.vpc old.name ≠ objectKey route.vpc route.name := ⟨fun _ _ => Ne.symm⟩
    constructor
    · intro paired left inLeft right inRight same
      by_contra differ
      exact paired.forall inLeft inRight differ same
    · intro apart
      exact nodup.pairwise_of_forall_ne fun left inLeft right inRight differ same =>
        differ (apart left inLeft right inRight same)
  have clashes : (routes.Pairwise fun old route => ¬ Clash old route) ↔ ¬ Conflict routes := by
    -- a clash is a packet that meets both routes
    have meets : ∀ {left right}, left ∈ routes → right ∈ routes →
        (¬ Clash left right ↔ RoutesApart left right) := by
      intro left right inLeft inRight
      simp only [Clash, RoutesApart, routeMatchesOverlap_iff (validMatch (valid _ inLeft))
        (validMatch (valid _ inRight)), not_and, not_exists]
      exact ⟨fun apart packet vpc priority => apart vpc priority packet,
        fun apart vpc priority packet => apart packet vpc priority⟩
    rw [List.Pairwise.iff_of_mem meets]
    constructor
    · rintro paired ⟨packet, left, inLeft, right, inRight, differ, vpc, priority, met, met'⟩
      exact paired.forall inLeft inRight differ packet vpc priority met met'
    · intro none
      refine nodup.pairwise_of_forall_ne fun left inLeft right inRight differ => ?_
      intro packet vpc priority met met'
      exact none ⟨packet, left, inLeft, right, inRight, differ, vpc, priority, met, met'⟩
  rw [keys, clashes]

end

/-- A VPC name without the separator is read back from the key. -/
theorem keysApart_of_plain {routes : List PolicyRoute}
    (unique : (routes.map fun route => (route.vpc, route.name)).Nodup)
    (plain : ∀ route ∈ routes, '\x00' ∉ route.vpc.toList) : KeysApart routes := by
  intro left inLeft right inRight same
  have texts := congrArg String.toList same
  simp only [objectKey, String.toList_append, show "\x00".toList = ['\x00'] from rfl,
    append_assoc, singleton_append] at texts
  have parts := Text.cut_injective (plain _ inLeft) (plain _ inRight) texts
  refine inj_on_of_nodup_map unique inLeft inRight ?_
  rw [String.toList_injective parts.1, String.toList_injective parts.2]

/-- On valid routes with different names the validation is exact unless it refuses routes for
their keys alone. -/
theorem policyRoutes_exact_iff (routes : List PolicyRoute)
    (valid : ∀ route ∈ routes, route.validate = .ok ())
    (unique : (routes.map fun route => (route.vpc, route.name)).Nodup) :
    ((validatePolicyRoutes routes = .ok () ↔ ¬ Conflict routes) ↔
      KeysApart routes ∨ Conflict routes) ∧
    ((∀ route ∈ routes, '\x00' ∉ route.vpc.toList) → KeysApart routes) := by
  refine ⟨?_, keysApart_of_plain unique⟩
  rw [validatePolicyRoutes_iff valid unique]
  tauto

/-- A route that lets packets to one port through. -/
def portRoute (vpc name : String) (port : BitVec 16) : PolicyRoute where
  name
  vpc
  priority := 100
  «match» := { protocol := .tcp, dstPorts := [{ fromPort := port, toPort := port }] }
  action := { type := .allow, nextHops := [] }

theorem policyRoutes_exact_web :
    ¬ Conflict [portRoute "red" "web" 80, portRoute "red" "tls" 443] := by
  have exact := policyRoutes_exact_iff [portRoute "red" "web" 80, portRoute "red" "tls" 443]
    (by decide +kernel) (by decide +kernel)
  exact (exact.1.mpr (.inl (exact.2 (by decide +kernel)))).mp (by decide +kernel)

/-- Two routes of different VPCs are refused as duplicates. -/
theorem policyRoutes_joined :
    (∀ route ∈ [portRoute "a\x00b" "c" 80, portRoute "a" "b\x00c" 443],
      route.validate = .ok ()) ∧
    ([portRoute "a\x00b" "c" 80, portRoute "a" "b\x00c" 443].map
      fun route => (route.vpc, route.name)).Nodup ∧
    validatePolicyRoutes [portRoute "a\x00b" "c" 80, portRoute "a" "b\x00c" 443] ≠ .ok () ∧
    ¬ Conflict [portRoute "a\x00b" "c" 80, portRoute "a" "b\x00c" 443] := by
  refine ⟨by decide +kernel, by decide +kernel, by decide +kernel, ?_⟩
  rintro ⟨packet, left, inLeft, right, inRight, differ, vpc, _⟩
  simp only [mem_cons, not_mem_nil, or_false] at inLeft inRight
  rcases inLeft with rfl | rfl <;> rcases inRight with rfl | rfl
  · exact differ rfl
  · exact absurd vpc (by decide)
  · exact absurd vpc (by decide)
  · exact differ rfl

end Netloom.Control
