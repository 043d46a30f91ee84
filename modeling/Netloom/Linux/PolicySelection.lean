import Netloom.Lib.FirstMatch
import Netloom.Linux.PolicyRules
import Netloom.Topology.WellDefined

/-!
# Linux rules and the resolver

The resolver takes the matching policy route of the greatest priority. The kernel takes the
first matching rule, and the numbers of rules fall as priorities grow, down to one: routes
with a priority of 9999 and more share that number, and the order among them is not known.
-/
namespace Netloom.Linux

open Model Control Netloom.Topology List Checked
open Netip (Addr Prefix)
open FirstMatch (Arranged Least)

variable {state : DesiredState} {packet : Packet}

/-! ### The family of a route -/

/-- A route has rules for the family of a packet it matches: it has a prefix, its next hops are
of the family, or it has none and the packet is IPv4. -/
def Sees (route : PolicyRoute) (packet : Packet) : Prop :=
  route.match.source.isValid = true ∨ route.match.destination.isValid = true ∨
    (route.action.nextHops.head?.map Addr.is6).getD false = packet.source.is6

/-- An address of a prefix has the family of the prefix. -/
theorem is6_of_contains {cidr : Prefix} {ip : Addr} (inside : cidr.contains ip) :
    cidr.addr.is6 = ip.is6 := by
  cases cidr <;> cases ip <;> simp_all [Prefix.contains, Prefix.addr, Addr.is6]

theorem is4_eq_iff {a b : Addr} (valid : a.isValid) (valid' : b.isValid) :
    a.is4 = b.is4 ↔ a.is6 = b.is6 := by
  cases a <;> cases b <;> simp_all [Addr.isValid, Addr.is4, Addr.is6]

theorem is6_of_oneFamily (family : OneFamily packet) : packet.dest.is6 = packet.source.is6 :=
  ((is4_eq_iff family.1 family.2.1).mp family.2.2).symm

theorem policyRouteFamily_iff {route : PolicyRoute} (valid : route.validate = .ok ())
    (family : OneFamily packet) (met : routeMatch route.match packet) :
    policyRouteFamily route = ipRuleFamily packet.source ↔ Sees route packet := by
  obtain ⟨source, destination, _⟩ := routeMatch_iff.mp met
  rw [policyRouteFamily_eq_iff valid, Sees]
  split
  next sourced => simp [sourced, is6_of_contains (source sourced)]
  next sourceless =>
    split
    next destined =>
      simp only [destined, true_or, or_true, iff_true]
      exact (is6_of_contains (destination destined)).trans (is6_of_oneFamily family)
    next destinationless => rw [or_iff_right sourceless, or_iff_right destinationless]

/-! ### Routes and rules of a node -/

/-- A route of the state that is for the packet. -/
structure Meets (state : DesiredState) (packet : Packet) (route : PolicyRoute) : Prop where
  listed : route ∈ state.policyRoutes
  vpc : route.vpc = packet.vpc
  met : routeMatch route.match packet = true

/-- A route for the packet of the greatest priority. -/
structure Chosen (state : DesiredState) (packet : Packet) (route : PolicyRoute) : Prop
    extends Meets state packet route where
  greatest : ∀ other, Meets state packet other → other.priority ≤ route.priority

/-- The state is accepted and all endpoints of the node are in the VPC of the packet. -/
structure Home (sha256 : Sha256) (state : DesiredState) (node : String) (packet : Packet) : Prop where
  accepted : validateState sha256 state = .ok ()
  populated : ∃ endpoint ∈ state.endpoints, endpoint.node = node
  home : ∀ endpoint ∈ state.endpoints, endpoint.node = node → endpoint.vpc = packet.vpc
  family : OneFamily packet

section

variable {sha256 : Sha256} {node : String} (home : Home sha256 state node packet)

include home

theorem Home.valid (route : PolicyRoute) (listed : route ∈ state.policyRoutes) :
    route.validate = .ok () :=
  (objectsValid_of_validateState home.accepted).policyRoutes route listed

variable {a b : PolicyRoute}

/-- Two routes for one packet have different priorities. -/
theorem Home.unique (meets : Meets state packet a) (meets' : Meets state packet b)
    (same : a.priority = b.priority) : a = b := by
  by_contra differ
  exact (separated_of_validateState home.accepted).policyRoutes.forall meets.listed meets'.listed
    differ packet (meets.vpc.trans meets'.vpc.symm) same meets.met meets'.met

/-- A decision names its route. -/
theorem Home.route_of_decision (listed : a ∈ state.policyRoutes) (listed' : b ∈ state.policyRoutes)
    (same : policyRouteDecision packet a = policyRouteDecision packet b) : a = b := by
  have selection := Option.some.inj (congrArg Decision.policyRoute same)
  refine inj_on_of_nodup_map (keyed_of_validateState home.accepted).policyRoutes
    listed listed' ?_
  exact congrArg₂ objectKey (congrArg PolicyRouteSelection.vpc selection)
    (congrArg PolicyRouteSelection.name selection)

/-- The applicable routes are those of the VPC of the packet. -/
theorem Home.applicable : ∃ applicable,
    applicablePolicyRoutes (sortPolicyRoutes state.policyRoutes)
      (localVPCSet state.endpoints node) = .ok applicable ∧
    ∀ route, route ∈ applicable ↔ route ∈ state.policyRoutes ∧ route.vpc = packet.vpc := by
  have here : ∀ vpc, vpc ∈ localVPCSet state.endpoints node ↔ vpc = packet.vpc := by
    intro vpc
    simp only [localVPCSet, mem_map, mem_filter, decide_eq_true_eq]
    constructor
    · rintro ⟨endpoint, ⟨listed, there⟩, rfl⟩
      exact home.home endpoint listed there
    · rintro rfl
      obtain ⟨endpoint, listed, there⟩ := home.populated
      exact ⟨endpoint, ⟨listed, there⟩, home.home endpoint listed there⟩
  let known := (sortPolicyRoutes state.policyRoutes).filter fun route =>
    (localVPCSet state.endpoints node).contains route.vpc
  have member : ∀ route, route ∈ known ↔ route ∈ state.policyRoutes ∧ route.vpc = packet.vpc := by
    intro route
    simp [known, sortPolicyRoutes, here]
  refine ⟨known, ?_, member⟩
  have passes : (forM known fun route : PolicyRoute =>
      context (fun err => s!"policy route {route.name}: {err}") route.validate) =
      .ok () := by
    rw [forM_eq_ok]
    intro route listed
    rw [context_eq_ok]
    exact home.valid route ((member route).mp listed).1
  rw [applicablePolicyRoutes]
  simp only [known] at passes ⊢
  rw [passes]
  rfl

omit home in
/-- The resolver takes the route of the greatest priority. -/
theorem exists_resolved (meets : ∃ route, Meets state packet route) : ∃ route,
    Chosen state packet route ∧
      resolvePolicyRoute state.policyRoutes packet = some (policyRouteDecision packet route) := by
  obtain ⟨route, meets⟩ := meets
  let test : PolicyRoute → Bool := fun route =>
    route.vpc = packet.vpc && routeMatch route.match packet
  have member : ∀ {route}, route ∈ byPriority state.policyRoutes ↔ route ∈ state.policyRoutes :=
    mem_insertionSort _
  have tests : ∀ {route}, test route ↔
      route.vpc = packet.vpc ∧ routeMatch route.match packet := by
    intro route
    simp [test]
  obtain ⟨first, found⟩ := Ranging.exists_find?
    ⟨route, member.mpr meets.listed, tests.mpr ⟨meets.vpc, meets.met⟩⟩
  obtain ⟨vpc, met⟩ := tests.mp (find?_some found)
  refine ⟨first, ⟨⟨member.mp (mem_of_find?_eq_some found), vpc, met⟩, fun other meets => ?_⟩, ?_⟩
  · exact Ranging.find?_sorted (byPriority_sorted _) (fun _ => le_refl _) found other
      (member.mpr meets.listed) (tests.mpr ⟨meets.vpc, meets.met⟩)
  · exact congrArg (Option.map (policyRouteDecision packet)) found

/-! ### The first rule -/

/-- What the rules of the node do to the packet, whatever their tables and the order among rules
with one number: the first rule that matches is of the route that the resolver takes. -/
def LinuxFollows (state : DesiredState) (node : String) (packet : Packet) : Prop :=
  ∃ applicable, applicablePolicyRoutes (sortPolicyRoutes state.policyRoutes)
    (localVPCSet state.endpoints node) = .ok applicable ∧
  ∀ tables installed,
    Arranged (fun entry => entry.2.priority) (routeRules tables applicable) installed →
    ∃ entry, installed.find? (fun entry => entry.2.matches packet) = some entry ∧
      resolvePolicyRoute state.policyRoutes packet = some (policyRouteDecision packet entry.1)

variable {applicable : List PolicyRoute}

/-- Rules of the node that match belong to routes for the packet that see its family. -/
theorem Home.rules_iff (known : ∀ route, route ∈ applicable ↔
      route ∈ state.policyRoutes ∧ route.vpc = packet.vpc) (tables : AList fun _ : String => Int)
    (route : PolicyRoute) :
    (∃ rule, (route, rule) ∈ routeRules tables applicable ∧ rule.matches packet) ↔
      Meets state packet route ∧ Sees route packet := by
  simp only [mem_routeRules, known]
  constructor
  · rintro ⟨rule, ⟨⟨listed, vpc⟩, made⟩, hit⟩
    obtain ⟨family, met⟩ := (rules_match_iff (home.valid route listed) _ _ packet).mp
      ⟨rule, made, hit⟩
    exact ⟨⟨listed, vpc, met⟩,
      (policyRouteFamily_iff (home.valid route listed) home.family met).mp family⟩
  · rintro ⟨meets, sees⟩
    have valid := home.valid route meets.listed
    obtain ⟨rule, made, hit⟩ := (rules_match_iff valid _ _ packet).mpr
      ⟨(policyRouteFamily_iff valid home.family meets.met).mpr sees, meets.met⟩
    exact ⟨rule, ⟨⟨meets.listed, meets.vpc⟩, made⟩, hit⟩

omit home in
/-- The number of a rule comes from the priority of its route. -/
theorem priority_of_mem {tables : AList fun _ : String => Int} {entry : PolicyRoute × Rule}
    (made : entry ∈ routeRules tables applicable) :
    entry.2.priority = linuxPolicyRulePriority entry.1.priority := by
  simp only [routeRules, netlinkPolicyRules, mem_flatMap, mem_map] at made
  obtain ⟨route, _, rule, ⟨_, _, _, _, rfl⟩, rfl⟩ := made
  rfl

end

/-- Linux follows the resolver on a packet exactly if the route that the resolver takes has rules
for the family of the packet and no two routes with a priority of 9999 and more have rules for
the packet. -/
theorem linux_follows_iff (sha256 : Sha256) (state : DesiredState) (node : String) (packet : Packet)
    (home : Home sha256 state node packet) (meets : ∃ route, Meets state packet route) :
    LinuxFollows state node packet ↔
      (∀ route, Chosen state packet route → Sees route packet) ∧
      ∀ a b, Meets state packet a → Meets state packet b → Sees a packet → Sees b packet →
        9999 ≤ a.priority → 9999 ≤ b.priority → a = b := by
  obtain ⟨chosen, best, resolved⟩ := exists_resolved meets
  obtain ⟨applicable, returned, known⟩ := home.applicable
  have only : ∀ route, Chosen state packet route → route = chosen := fun route other =>
    home.unique other.toMeets best.toMeets (le_antisymm (best.greatest route other.toMeets)
      (other.greatest chosen best.toMeets))
  have follows : LinuxFollows state node packet ↔ ∀ tables,
      (∃ entry ∈ routeRules tables applicable, entry.2.matches packet) ∧
      ∀ entry, Least (fun entry => entry.2.priority) (fun entry => entry.2.matches packet)
        (routeRules tables applicable) entry → entry.1 = chosen := by
    have same : ∀ entry : PolicyRoute × Rule, entry.1 ∈ state.policyRoutes →
        (some (policyRouteDecision packet chosen) = some (policyRouteDecision packet entry.1) ↔
          entry.1 = chosen) := fun entry listed =>
      ⟨fun equal => home.route_of_decision listed best.listed (Option.some.inj equal).symm,
        fun equal => by rw [equal]⟩
    unfold LinuxFollows
    simp only [returned, Except.ok.injEq, exists_eq_left', resolved]
    refine forall_congr' fun tables => ?_
    rw [FirstMatch.first_in_every_order (fun entry : PolicyRoute × Rule => entry.2.priority)
      (fun entry => entry.2.matches packet)
      (fun entry => some (policyRouteDecision packet chosen) =
        some (policyRouteDecision packet entry.1))]
    refine and_congr_right fun _ => forall_congr' fun entry => forall_congr' fun least => ?_
    exact same entry ((home.rules_iff known tables entry.1).mp ⟨entry.2, least.listed,
      least.hit⟩).1.listed
  rw [follows]
  constructor
  · intro first
    obtain ⟨some, firsts⟩ := first ∅
    constructor
    · obtain ⟨entry, least⟩ := FirstMatch.exists_least (fun entry => entry.2.priority) some
      have sees := ((home.rules_iff known ∅ entry.1).mp ⟨entry.2, least.listed, least.hit⟩).2
      intro route other
      rwa [only route other, ← firsts entry least]
    · -- a rule with the number one can always be the first
      have here : ∀ route, Meets state packet route → Sees route packet → 9999 ≤ route.priority →
          route = chosen := by
        intro route meets sees high
        obtain ⟨rule, made, hit⟩ := (home.rules_iff known ∅ route).mpr ⟨meets, sees⟩
        refine firsts (route, rule) ⟨made, hit, fun other made' _ => ?_⟩
        rw [priority_of_mem made, priority_of_mem made']
        dsimp only [linuxPolicyRulePriority]
        omega
      intro a b meets meets' sees sees' high high'
      rw [here a meets sees high, here b meets' sees' high']
  · rintro ⟨sees, single⟩ tables
    obtain ⟨rule, made, hit⟩ := (home.rules_iff known tables chosen).mpr
      ⟨best.toMeets, sees chosen best⟩
    refine ⟨⟨(chosen, rule), made, hit⟩, fun entry least => ?_⟩
    obtain ⟨meets, sees'⟩ := (home.rules_iff known tables entry.1).mp
      ⟨entry.2, least.listed, least.hit⟩
    have lower := best.greatest entry.1 meets
    have number := least.least (chosen, rule) made hit
    rw [priority_of_mem least.listed, priority_of_mem made] at number
    dsimp only [linuxPolicyRulePriority] at number
    by_cases same : entry.1.priority = chosen.priority
    · exact home.unique meets best.toMeets same
    · -- a smaller priority has the same number only below the least number
      exact single entry.1 chosen meets best.toMeets sees' (sees chosen best) (by omega) (by omega)

/-! ### Two routes with high priorities -/

def narrowRoute : PolicyRoute where
  name := "narrow"
  vpc := "red"
  priority := 20000
  «match» := { destination := Netip.prefixFrom (.v4 0x0a000000) 24 }
  action := { type := .allow, nextHops := [] }

/-- A route without prefixes, which drops what no other route is for. -/
def wideRoute : PolicyRoute where
  name := "wide"
  vpc := "red"
  priority := 10000
  «match» := {}
  action := { type := .drop, nextHops := [] }

/-- One endpoint on one node, with the two routes. -/
def highState : DesiredState where
  vpcs := [⟨"red"⟩]
  subnets := [⟨"net", "red", Netip.prefixFrom (.v4 0x0a000000) 24, .v4 0x0a000001, [], "", 0,
    ⟨false, 0, 0, [], "", []⟩⟩]
  endpoints := [⟨"web", "red", "net", .v4 0x0a000002, "", "n1", [], [], ∅⟩]
  policyRoutes := [narrowRoute, wideRoute]

def packetTo (source dest : Addr) : Packet := ⟨1000, "red", source, dest, .tcp, 80⟩

theorem linux_follows_outside :
    Home (fun _ => []) highState "n1" (packetTo (.v4 0x0a000002) (.v4 0x08080808)) ∧
    LinuxFollows highState "n1" (packetTo (.v4 0x0a000002) (.v4 0x08080808)) := by
  have home : Home (fun _ => []) highState "n1" (packetTo (.v4 0x0a000002) (.v4 0x08080808)) :=
    ⟨by decide +kernel, by decide +kernel, by decide +kernel, rfl, rfl, rfl⟩
  -- only the wide route is for packets that leave the subnet
  have only : ∀ route,
      Meets highState (packetTo (.v4 0x0a000002) (.v4 0x08080808)) route → route = wideRoute := by
    rintro route ⟨listed, _, met⟩
    rcases mem_pair.mp listed with rfl | rfl
    · exact absurd met (by decide +kernel)
    · rfl
  refine ⟨home, (linux_follows_iff _ _ _ _ home
    ⟨wideRoute, by decide +kernel, rfl, by decide +kernel⟩).mpr ⟨fun route chosen => ?_, ?_⟩⟩
  · rw [only route chosen.toMeets]
    exact .inr (.inr rfl)
  · intro a b meets meets' _ _ _ _
    rw [only a meets, only b meets']

/-- Both routes have the number one, so the wide route can come first for a packet that the
resolver gives to the narrow one; and no rule matches a packet of IPv6. -/
theorem linux_strays_on_high_priorities :
    (Home (fun _ => []) highState "n1" (packetTo (.v4 0x0a000002) (.v4 0x0a000003)) ∧
      Meets highState (packetTo (.v4 0x0a000002) (.v4 0x0a000003)) narrowRoute ∧
      ¬LinuxFollows highState "n1" (packetTo (.v4 0x0a000002) (.v4 0x0a000003))) ∧
    Home (fun _ => []) highState "n1" (packetTo (.v6 1 "") (.v6 2 "")) ∧
      Meets highState (packetTo (.v6 1 "") (.v6 2 "")) wideRoute ∧
      ¬LinuxFollows highState "n1" (packetTo (.v6 1 "") (.v6 2 "")) := by
  have applicable : applicablePolicyRoutes (sortPolicyRoutes highState.policyRoutes)
      (localVPCSet highState.endpoints "n1") = .ok [narrowRoute, wideRoute] := by decide +kernel
  have arranged : Arranged (fun entry => entry.2.priority)
      (routeRules ∅ [narrowRoute, wideRoute]) (routeRules ∅ [narrowRoute, wideRoute]).reverse :=
    ⟨reverse_perm _, by decide +kernel⟩
  refine ⟨⟨⟨?_, ?_, ?_, rfl, rfl, rfl⟩, ⟨?_, rfl, ?_⟩, ?_⟩, ⟨?_, ?_, ?_, rfl, rfl, rfl⟩,
    ⟨?_, rfl, ?_⟩, ?_⟩
  all_goals try decide +kernel
  all_goals
    rintro ⟨_, returned, follows⟩
    rw [applicable, Except.ok.injEq] at returned
    subst returned
    obtain ⟨entry, found, resolved⟩ := follows ∅ _ arranged
  · have first : entry.1 = wideRoute := by
      have := congrArg (Option.map Prod.fst) found
      rw [Option.map_some] at this
      exact Option.some.inj (this.symm.trans (by decide +kernel))
    rw [first] at resolved
    exact absurd resolved (by decide +kernel)
  · exact absurd found (by rw [show find? _ _ = none by decide +kernel]; simp)

/-! ### Other VPCs

A rule selects packets by addresses, protocol and ports, and not by VPC.
-/

/-- A route is for packets from an address: its source holds the address, or it has no source
and is for the address family. -/
def Captures (route : PolicyRoute) (ip : Addr) : Prop :=
  if route.match.source.isValid then route.match.source.contains ip = true
  else if route.match.destination.isValid then route.match.destination.addr.is6 = ip.is6
  else (route.action.nextHops.head?.map Addr.is6).getD false = ip.is6

/-- No rule matches a packet that an endpoint of the node in another VPC sends. -/
def Isolated (state : DesiredState) (node : String) (rules : List (PolicyRoute × Rule)) : Prop :=
  ∀ entry ∈ rules, ∀ endpoint ∈ state.endpoints, endpoint.node = node →
    endpoint.vpc ≠ entry.1.vpc → ∀ packet : Packet, packet.vpc = endpoint.vpc →
      packet.source = endpoint.ip → OneFamily packet → entry.2.matches packet = false

variable {route : PolicyRoute} {ip : Addr}

theorem captures_iff (valid : route.validate = .ok ()) :
    Captures route ip ↔ policyRouteFamily route = ipRuleFamily ip ∧
      (route.match.source.isValid → route.match.source.contains ip) := by
  rw [policyRouteFamily_eq_iff valid, Captures]
  split
  next sourced =>
    exact ⟨fun inside => ⟨is6_of_contains inside, fun _ => inside⟩, fun both => both.2 sourced⟩
  next sourceless => exact (and_iff_left fun sourced => absurd sourced sourceless).symm

theorem Prefix.isValid_addr {cidr : Prefix} (valid : cidr.isValid) : cidr.addr.isValid := by
  cases cidr <;> simp_all [Prefix.isValid, Prefix.addr, Addr.isValid]

/-- The destination of a valid route has the family of the addresses it captures. -/
theorem destination_is6 (valid : route.validate = .ok ()) (captured : Captures route ip)
    (destined : route.match.destination.isValid) : route.match.destination.addr.is6 = ip.is6 := by
  rw [Captures] at captured
  split at captured
  next sourced =>
    have matched := validMatch valid
    simp only [RouteMatch.validate, bind_eq_ok, require_eq_ok] at matched
    obtain ⟨_, _, _, _, _, _, _, same, _⟩ := matched
    simp only [sourced, destined, Bool.and_self, Bool.true_and, Bool.not_eq_true',
      bne_eq_false_iff_eq] at same
    exact ((is4_eq_iff (Prefix.isValid_addr sourced) (Prefix.isValid_addr destined)).mp same).symm.trans
      (is6_of_contains captured)
  next => exact captured

/-- A captured address sends a packet that the route matches. -/
theorem exists_packet (valid : route.validate = .ok ()) (usable : ip.isValid)
    (captured : Captures route ip) (vpc : String) :
    ∃ packet : Packet, packet.vpc = vpc ∧ packet.source = ip ∧ OneFamily packet ∧
      routeMatch route.match packet := by
  obtain ⟨ascending, ascending'⟩ := ascending_of_validate (validMatch valid)
  obtain ⟨sourcePort, inSrc⟩ := exists_port ascending
  obtain ⟨destPort, inDst⟩ := exists_port ascending'
  have inside := ((captures_iff valid).mp captured).2
  -- the packet goes to the destination of the route, or to any address of the family
  by_cases destined : route.match.destination.isValid
  · refine ⟨⟨sourcePort, vpc, ip, route.match.destination.addr, route.match.protocol, destPort⟩,
      rfl, rfl, ⟨usable, Prefix.isValid_addr destined, ?_⟩, routeMatch_iff.mpr
        ⟨inside, Prefix.contains_addr, .inr (.inr rfl), inSrc, inDst⟩⟩
    exact (is4_eq_iff usable (Prefix.isValid_addr destined)).mpr
      (destination_is6 valid captured destined).symm
  · exact ⟨⟨sourcePort, vpc, ip, ip, route.match.protocol, destPort⟩, rfl, rfl,
      ⟨usable, usable, rfl⟩, routeMatch_iff.mpr
        ⟨inside, fun valid => absurd valid destined, .inr (.inr rfl), inSrc, inDst⟩⟩

/-! ### The rules of a node -/

/-- The rules of a node are those of the routes in VPCs of its endpoints. -/
theorem mem_rules {underlay : Except String Unit} {state : DesiredState} {options : Options}
    {rules : List (PolicyRoute × Rule)}
    (returned : applyPolicyRoutesNetlink underlay state options = .ok rules) :
    ∃ table : PolicyRoute → Int, ∀ entry, entry ∈ rules ↔ entry.1 ∈ state.policyRoutes ∧
      (∃ own ∈ state.endpoints, own.node = options.node ∧ own.vpc = entry.1.vpc) ∧
      entry.2 ∈ netlinkPolicyRules entry.1 (linuxPolicyRulePriority entry.1.priority)
        (table entry.1) := by
  simp only [applyPolicyRoutesNetlink, bind_eq_ok] at returned
  obtain ⟨applicable, found, _, _, tables, _, result⟩ := returned
  have member : ∀ route, route ∈ applicable ↔ route ∈ state.policyRoutes ∧
      ∃ own ∈ state.endpoints, own.node = options.node ∧ own.vpc = route.vpc := by
    intro route
    rw [applicablePolicyRoutes, map_eq_ok] at found
    obtain ⟨_, _, rfl⟩ := found
    simp [sortPolicyRoutes, localVPCSet, and_assoc]
  refine ⟨fun route => if route.action.type = .allow then linuxMainRouteTable
      else (tables.lookup (policyRouteTableKey route)).getD 0, fun entry => ?_⟩
  rw [← Except.ok.inj result, ← and_assoc, ← member]
  exact mem_routeRules

/-- The rules of a node are isolated exactly if no route of a VPC on the node captures the address
of an endpoint of the node in another VPC. -/
theorem rules_isolated_iff (sha256 : Sha256) (underlay : Except String Unit) (state : DesiredState)
    (options : Options) (rules : List (PolicyRoute × Rule))
    (accepted : validateState sha256 state = .ok ())
    (returned : applyPolicyRoutesNetlink underlay state options = .ok rules) :
    Isolated state options.node rules ↔
      ∀ route ∈ state.policyRoutes, ∀ own ∈ state.endpoints, ∀ other ∈ state.endpoints,
        own.node = options.node → own.vpc = route.vpc → other.node = options.node →
        other.vpc ≠ route.vpc → ¬Captures route other.ip := by
  obtain ⟨table, member⟩ := mem_rules returned
  have valid := objectsValid_of_validateState accepted
  constructor
  · intro isolated route listed own inside other outside here mine there yours captured
    have usable : other.ip.isValid := by
      have checked := valid.endpoints other outside
      simp only [Endpoint.validate, bind_eq_ok, require_eq_ok] at checked
      obtain ⟨_, _, _, _, _, _, _, usable, _⟩ := checked
      exact usable
    obtain ⟨packet, vpc, source, family, met⟩ :=
      exists_packet (valid.policyRoutes route listed) usable captured other.vpc
    obtain ⟨rule, made, hit⟩ := (rules_match_iff (valid.policyRoutes route listed)
      (linuxPolicyRulePriority route.priority) (table route) packet).mpr
      ⟨source ▸ ((captures_iff (valid.policyRoutes route listed)).mp captured).1, met⟩
    have missed := isolated (route, rule) ((member _).mpr ⟨listed, ⟨own, inside, here, mine⟩, made⟩)
      other outside there yours packet vpc source family
    rw [hit] at missed
    exact absurd missed (by simp)
  · intro apart entry made other outside there yours packet _ source family
    obtain ⟨listed, ⟨own, inside, here, mine⟩, made⟩ := (member entry).mp made
    by_contra hit
    obtain ⟨same, met⟩ := (rules_match_iff (valid.policyRoutes entry.1 listed) _ _ packet).mp
      ⟨entry.2, made, by simpa using hit⟩
    refine apart entry.1 listed own inside other outside here mine there yours ?_
    rw [← source]
    exact (captures_iff (valid.policyRoutes entry.1 listed)).mpr ⟨same, (routeMatch_iff.mp met).1⟩

/-! ### Two tenants on one node -/

def tenantNet (vpc : String) (block : BitVec 32) : Subnet :=
  ⟨"net", vpc, Netip.prefixFrom (.v4 block) 24, .v4 (block + 1), [], "", 0, ⟨false, 0, 0, [], "", []⟩⟩

def tenantEndpoint (vpc : String) (ip : BitVec 32) : Endpoint :=
  ⟨"web", vpc, "net", .v4 ip, "", "n1", [], [], ∅⟩

/-- A route of the first tenant that drops what its subnet sends. -/
def tenantRoute : PolicyRoute where
  name := "quiet"
  vpc := "red"
  priority := 100
  «match» := { source := Netip.prefixFrom (.v4 0x0a000000) 24 }
  action := { type := .drop, nextHops := [] }

/-- The two tenants, with the addresses of the second one given. -/
def tenantState (block : BitVec 32) : DesiredState where
  vpcs := [⟨"red"⟩, ⟨"blue"⟩]
  subnets := [tenantNet "red" 0x0a000000, tenantNet "blue" block]
  endpoints := [tenantEndpoint "red" 0x0a000002, tenantEndpoint "blue" (block + 2)]
  policyRoutes := [tenantRoute]

def tenantOptions : Options := { node := "n1", policyTableBase := 20000, policyTableSize := 16 }

def tenantRule : Rule where
  priority := 9900
  table := 20012
  family := .inet
  protocol := 186
  src := some (Netip.prefixFrom (.v4 0x0a000000) 24)

theorem rules_isolated_apart :
    validateState (fun _ => []) (tenantState 0x0a000100) = .ok () ∧
    applyPolicyRoutesNetlink (.ok ()) (tenantState 0x0a000100) tenantOptions =
      .ok [(tenantRoute, tenantRule)] ∧
    Isolated (tenantState 0x0a000100) "n1" [(tenantRoute, tenantRule)] := by
  have accepted : validateState (fun _ => []) (tenantState 0x0a000100) = .ok () := by
    decide +kernel
  have returned : applyPolicyRoutesNetlink (.ok ()) (tenantState 0x0a000100) tenantOptions =
      .ok [(tenantRoute, tenantRule)] := by decide +kernel
  refine ⟨accepted, returned, (rules_isolated_iff _ _ _ _ _ accepted returned).mpr ?_⟩
  unfold Captures
  decide +kernel

/-- Both tenants have the same addresses, and the route of one drops packets of the other. -/
theorem rules_reach_other_tenant :
    validateState (fun _ => []) (tenantState 0x0a000000) = .ok () ∧
    applyPolicyRoutesNetlink (.ok ()) (tenantState 0x0a000000) tenantOptions =
      .ok [(tenantRoute, tenantRule)] ∧
    ¬Isolated (tenantState 0x0a000000) "n1" [(tenantRoute, tenantRule)] := by
  refine ⟨by decide +kernel, by decide +kernel, fun isolated => ?_⟩
  have missed := isolated _ (List.mem_singleton.mpr rfl) (tenantEndpoint "blue" 0x0a000002)
    (.tail _ (.head _)) rfl (by decide) ⟨1000, "blue", .v4 0x0a000002, .v4 0x08080808, .tcp, 80⟩
    rfl rfl ⟨rfl, rfl, rfl⟩
  exact absurd missed (by decide +kernel)

end Netloom.Linux
