import Netloom.Control.Validate
import Netloom.Topology.Resolver

/-!
# What an accepted state keeps apart

The conflict checks of the controller compare texts. Behind each text stands a
fact about packets: no packet belongs to two endpoints, two inbound rules, two
frontends, two routes of one length or two policy routes of one priority.
-/
namespace Netloom.Control

open Model Netloom.Topology List Checked
open Netip (Addr Prefix)

/-! ### Overlapping matches -/

variable {left right : Prefix} {ip : Addr}

theorem prefixesOverlap_of_contains (inLeft : left.contains ip)
    (inRight : right.contains ip) : prefixesOverlap left right := by
  -- Of two blocks that share a word one covers the other, so it contains its first word.
  have nested : ∀ {w : Nat} (a b : Cidr w) (word : BitVec w), a.contains word →
      b.contains word →
      a.masked.contains b.masked.addr ∨ b.masked.contains a.masked.addr := by
    intro w a b word inA inB
    have first : ∀ x y : Cidr w, x.covers y → x.masked.contains y.masked.addr := by
      intro x y covered
      rw [Cidr.contains_masked]
      refine (Cidr.covers_iff x y).mp covered _ ?_
      rw [← Cidr.contains_masked]
      exact y.masked.contains_addr
    rcases Nat.le_total a.bits b.bits with shorter | longer
    · exact .inl (first a b (Cidr.covers_of_overlap shorter inA inB))
    · exact .inr (first b a (Cidr.covers_of_overlap longer inB inA))
  cases left with
  | invalid => simp [Prefix.contains] at inLeft
  | v4 a =>
    cases right with
    | invalid => simp [Prefix.contains] at inRight
    | v6 b => cases ip <;> simp [Prefix.contains] at inLeft inRight
    | v4 b =>
      cases ip with
      | zero | v6 => simp [Prefix.contains] at inLeft
      | v4 word =>
        simpa [prefixesOverlap, Prefix.masked, Prefix.isValid, Prefix.addr, Addr.is4,
          Prefix.contains] using nested a b word inLeft inRight
  | v6 a =>
    cases right with
    | invalid => simp [Prefix.contains] at inRight
    | v4 b => cases ip <;> simp [Prefix.contains] at inLeft inRight
    | v6 b =>
      cases ip with
      | zero | v4 => simp [Prefix.contains] at inLeft
      | v6 word zone =>
        simp only [Prefix.contains, Bool.and_eq_true] at inLeft inRight
        simpa [prefixesOverlap, Prefix.masked, Prefix.isValid, Prefix.addr, Addr.is4,
          Prefix.contains] using nested a b word inLeft.2 inRight.2

theorem prefixesMayOverlap_of_contains (inLeft : left.isValid → left.contains ip)
    (inRight : right.isValid → right.contains ip) : prefixesMayOverlap left right := by
  unfold prefixesMayOverlap
  cases validLeft : left.isValid with
  | false => rfl
  | true =>
    cases validRight : right.isValid with
    | false => rfl
    | true => simp [prefixesOverlap_of_contains (inLeft validLeft) (inRight validRight)]

theorem portRangesMayOverlap_of_contains {left right : List PortRange} {port : BitVec 16}
    (inLeft : left ≠ [] → Topology.portRangesContain left port)
    (inRight : right ≠ [] → Topology.portRangesContain right port) :
    portRangesMayOverlap left right := by
  by_cases emptyLeft : left = []
  · simp [portRangesMayOverlap, emptyLeft]
  by_cases emptyRight : right = []
  · simp [portRangesMayOverlap, emptyRight]
  simp only [Topology.portRangesContain, any_eq_true, Bool.and_eq_true, decide_eq_true_eq]
    at inLeft inRight
  obtain ⟨a, memberA, fromA, toA⟩ := inLeft emptyLeft
  obtain ⟨b, memberB, fromB, toB⟩ := inRight emptyRight
  simp only [portRangesMayOverlap, Bool.or_eq_true, any_eq_true, Bool.and_eq_true,
    decide_eq_true_eq]
  exact .inr ⟨a, memberA, b, memberB, BitVec.le_trans fromA toB, BitVec.le_trans fromB toA⟩

/-- Matches that a packet meets at once overlap. -/
theorem routeMatchesOverlap_of_routeMatch {left right : RouteMatch} {packet : Packet}
    (matchedLeft : routeMatch left packet) (matchedRight : routeMatch right packet) :
    routeMatchesOverlap left right := by
  simp only [routeMatch, Bool.and_eq_true, Bool.not_eq_true', Bool.and_eq_false_iff,
    Bool.not_eq_false', decide_eq_false_iff_not, not_not, List.isEmpty_iff]
    at matchedLeft matchedRight
  obtain ⟨⟨⟨⟨source, dest⟩, protocol⟩, srcPorts⟩, dstPorts⟩ := matchedLeft
  obtain ⟨⟨⟨⟨source', dest'⟩, protocol'⟩, srcPorts'⟩, dstPorts'⟩ := matchedRight
  have given : ∀ {cidr : Prefix} {ip : Addr},
      cidr.isValid = false ∨ cidr.contains ip → cidr.isValid →
      cidr.contains ip := by
    rintro cidr ip (invalid | inside) valid
    · simp [invalid] at valid
    · exact inside
  simp only [routeMatchesOverlap, Bool.and_eq_true]
  refine ⟨⟨⟨⟨prefixesMayOverlap_of_contains (given source) (given source'),
    prefixesMayOverlap_of_contains (given dest) (given dest')⟩, ?_⟩,
    portRangesMayOverlap_of_contains srcPorts.resolve_left srcPorts'.resolve_left⟩,
    portRangesMayOverlap_of_contains dstPorts.resolve_left dstPorts'.resolve_left⟩
  simp only [protocolsMayOverlap, Bool.or_eq_true, decide_eq_true_eq]
  grind

/-! ### Pairs of objects -/

/-- No packet is translated by both rules. -/
def InboundApart (left right : NATRule) : Prop :=
  ∀ packet, dnatApplies packet left = true → ¬ dnatApplies packet right = true

/-- No packet meets both routes, if they have the same priority. -/
def RoutesApart (left right : PolicyRoute) : Prop :=
  ∀ packet, left.vpc = right.vpc → left.priority = right.priority →
    routeMatch left.match packet = true → ¬ routeMatch right.match packet = true

instance : Std.Symm InboundApart where
  symm _ _ apart packet applies applies' := apart packet applies' applies

instance : Std.Symm RoutesApart where
  symm _ _ apart packet vpc priority matched matched' :=
    apart packet vpc.symm priority.symm matched' matched

variable {rule : NATRule}

/-- The key of a port starts with the key of its address and a bar. -/
theorem isPrefixOf_natPortKey {old : NATRule} (same : natBaseKey old = natBaseKey rule) :
    (natBaseKey rule ++ "|").toList.isPrefixOf (natPortKey old).toList := by
  have split : natPortKey old = natBaseKey old ++ "|" ++
      (old.protocol.text ++ "|" ++ toString old.externalPort.toNat) := by
    simp [natPortKey, portKey, natBaseKey, toString, String.append_assoc]
  rw [split, same, isPrefixOf_iff_prefix]
  exact ⟨_, String.toList_append.symm⟩

theorem inboundApart_of_validateNATRule {seen : List NATRule}
    (accepted : validateNATRule seen rule = .ok ()) : ∀ old ∈ seen, InboundApart old rule := by
  intro old member packet appliesOld appliesNew
  simp only [dnatApplies, dnatPortMatches, Bool.and_eq_true, Bool.or_eq_true, decide_eq_true_eq]
    at appliesOld appliesNew
  obtain ⟨⟨⟨vpcOld, typeOld⟩, ipOld⟩, portOld⟩ := appliesOld
  obtain ⟨⟨⟨vpcNew, typeNew⟩, ipNew⟩, portNew⟩ := appliesNew
  have inboundOld : isInbound old := by
    rcases typeOld with type | type <;> simp [isInbound, type]
  have inboundNew : rule.type ≠ .snat := by rcases typeNew with type | type <;> simp [type]
  have base : natBaseKey old = natBaseKey rule := by
    rw [natBaseKey, natBaseKey, vpcOld, vpcNew, ipOld, ipNew]
  simp only [validateNATRule, bind_eq_ok, if_neg inboundNew, validateInboundNATRule,
    absent_eq_ok] at accepted
  obtain ⟨_, valid, _, _, _, noneAll, ports⟩ := accepted
  have portOf : old.externalPort ≠ 0 := by
    intro all
    refine find?_eq_none.mp noneAll old member ?_
    simp only [Bool.and_eq_true, decide_eq_true_eq]
    exact ⟨⟨inboundOld, all⟩, base⟩
  by_cases all : rule.externalPort = 0
  · rw [if_pos all, absent_eq_ok] at ports
    refine find?_eq_none.mp ports old member ?_
    simp only [Bool.and_eq_true, decide_eq_true_eq]
    exact ⟨⟨inboundOld, portOf⟩, isPrefixOf_natPortKey base⟩
  · rw [if_neg all, absent_eq_ok] at ports
    -- The new rule names its protocol, so the packet has it and the old rule names it too.
    have has := NATRule.hasPorts_of_validate valid inboundNew all
    have named : rule.protocol = packet.protocol := by
      rcases portNew with zero | ⟨protocol, _⟩
      · exact absurd zero all
      · rwa [if_neg (by rintro unset; simp [unset, Protocol.hasPorts] at has)] at protocol
    have namedOld : old.protocol = packet.protocol := by
      rcases portOld with zero | ⟨protocol, _⟩
      · exact absurd zero portOf
      · split at protocol
        · rw [named, ← protocol] at has
          simp [Protocol.hasPorts] at has
        · exact protocol
    have port : old.externalPort = rule.externalPort :=
      (portOld.resolve_left portOf).2.symm.trans (portNew.resolve_left all).2
    have same : natPortKey old = natPortKey rule := by
      rw [natPortKey, natPortKey, vpcOld, vpcNew, ipOld, ipNew, namedOld, named, port]
    refine find?_eq_none.mp ports old member ?_
    simp only [Bool.and_eq_true, decide_eq_true_eq]
    exact ⟨⟨inboundOld, portOf⟩, same⟩

theorem routesApart_of_validatePolicyRoute {seen : List PolicyRoute} {route : PolicyRoute}
    (accepted : validatePolicyRoute seen route = .ok ()) : ∀ old ∈ seen, RoutesApart old route := by
  intro old member packet vpc priority matched matched'
  simp only [validatePolicyRoute, bind_eq_ok, forM_eq_ok, require_eq_ok]
    at accepted
  obtain ⟨_, _, _, _, apart⟩ := accepted
  have := apart old member
  simp [vpc, priority, routeMatchesOverlap_of_routeMatch matched matched'] at this

/-! ### Accepted states -/

structure Separated (state : DesiredState) : Prop where
  endpoints : (state.endpoints.map fun endpoint => ipKey endpoint.vpc endpoint.ip).Nodup
  natRules : state.natRules.Pairwise InboundApart
  frontends : ((allFrontends state.loadBalancers).map fun entry =>
    frontendKey entry.1 entry.2).Nodup
  destinations : ((allRoutes state.routeTables).map fun entry =>
    destinationKey entry.1 entry.2).Nodup
  masked : ∀ table ∈ state.routeTables, ∀ route ∈ table.routes,
    route.destination.masked = route.destination
  policyRoutes : state.policyRoutes.Pairwise RoutesApart

variable {sha256 : Sha256} {state : DesiredState}

theorem nodup_endpoints (accepted : validateObjectGraph sha256 state = .ok ()) :
    (state.endpoints.map fun endpoint => ipKey endpoint.vpc endpoint.ip).Nodup := by
  simp only [validateObjectGraph, bind_eq_ok] at accepted
  obtain ⟨_, _, _, _, _, _, _, _, _, _, _, _, _, _, _, endpoints, _⟩ := accepted
  refine nodup_of_growing _ (fun seen endpoint checked old member same => ?_) endpoints
  simp only [validateEndpoint, bind_eq_ok, absent_eq_ok] at checked
  obtain ⟨_, _, _, _, _, _, _, _, _, _, absent⟩ := checked
  simpa [same] using find?_eq_none.mp absent old member

theorem nodup_frontends {loadBalancers : List LoadBalancer}
    (accepted : validateLoadBalancers loadBalancers = .ok ()) :
    ((allFrontends loadBalancers).map fun entry => frontendKey entry.1 entry.2).Nodup := by
  have flat : growing validateFrontend [] (allFrontends loadBalancers) = .ok () := by
    refine growing_flatMap (fun seen lb checked => ?_) [] loadBalancers accepted
    simp only [validateLoadBalancer, bind_eq_ok] at checked
    obtain ⟨_, _, _, _, frontends⟩ := checked
    exact frontends
  refine nodup_of_growing _ (fun seen entry checked old member same => ?_) flat
  rw [validateFrontend, absent_eq_ok] at checked
  simpa [same] using find?_eq_none.mp checked old member

variable {tables : List RouteTable}

theorem nodup_destinations (accepted : validateRouteTables tables = .ok ()) :
    ((allRoutes tables).map fun entry => destinationKey entry.1 entry.2).Nodup := by
  have flat : growing validateDestination [] (allRoutes tables) = .ok () := by
    refine growing_flatMap (fun seen table checked => ?_) [] tables accepted
    simp only [validateRouteTable, bind_eq_ok] at checked
    obtain ⟨_, _, _, _, routes⟩ := checked
    exact routes
  refine nodup_of_growing _ (fun seen entry checked old member same => ?_) flat
  rw [validateDestination, absent_eq_ok] at checked
  simpa [same] using find?_eq_none.mp checked old member

theorem masked_destinations (accepted : validateRouteTables tables = .ok ()) : ∀ table ∈ tables,
    ∀ route ∈ table.routes, route.destination.masked = route.destination := by
  intro table member
  obtain ⟨before, checked⟩ := mem_of_growing accepted member
  simp only [validateRouteTable, bind_eq_ok] at checked
  obtain ⟨_, valid, _⟩ := checked
  exact RouteTable.masked_of_validate valid

theorem separated_of_validateState (accepted : validateState sha256 state = .ok ()) :
    Separated state := by
  simp only [validateState, bind_eq_ok] at accepted
  obtain ⟨_, graph, _, natRules, _, loadBalancers, _, _, _, tables, routes⟩ := accepted
  exact {
    endpoints := nodup_endpoints graph
    natRules := pairwise_of_growing _ (fun _ _ => inboundApart_of_validateNATRule) natRules
    frontends := nodup_frontends loadBalancers
    destinations := nodup_destinations tables
    masked := masked_destinations tables
    policyRoutes :=
      pairwise_of_growing _ (fun _ _ => routesApart_of_validatePolicyRoute) routes }

/-! ### Keys and references

In an accepted state no key occurs twice among the objects of one kind, every object
passes its own check, and what it refers to exists. -/

variable {sha256 : Sha256} {state : DesiredState}

/-- No two objects of one kind have the same key. -/
structure Keyed (state : DesiredState) : Prop where
  vpcs : (state.vpcs.map VPC.name).Nodup
  subnets : (state.subnets.map fun subnet => subnetKey subnet.vpc subnet.name).Nodup
  endpoints : (state.endpoints.map fun endpoint => endpointKey endpoint.vpc endpoint.id).Nodup
  routeTables : (state.routeTables.map fun table => routeTableKey table.vpc table.name).Nodup
  policyRoutes : (state.policyRoutes.map fun route => objectKey route.vpc route.name).Nodup
  gateways : (state.gateways.map fun gateway => gatewayKey gateway.vpc gateway.name).Nodup
  natRules : (state.natRules.map fun rule => natRuleKey rule.vpc rule.name).Nodup
  loadBalancers : (state.loadBalancers.map fun lb => loadBalancerKey lb.vpc lb.name).Nodup

/-- A check that refuses a key it has seen leaves no key twice. -/
theorem nodup_of_any {α : Type} {check : List α → α → Except String Unit} {items : List α}
    (key : α → String)
    (refuses : ∀ seen item, check seen item = .ok () →
      (!seen.any fun old => key old = key item))
    (accepted : growing check [] items = .ok ()) : (items.map key).Nodup := by
  refine nodup_of_growing key (fun seen item checked old member same => ?_) accepted
  have fresh := refuses seen item checked
  simp only [Bool.not_eq_true', any_eq_false, decide_eq_true_eq] at fresh
  exact fresh old member same

/-- The checks start with that of the object itself and that of its key. -/
private theorem of_check {validate rest : Except String Unit} {fresh : Bool} {message : String}
    (checked : (do validate; require fresh message; rest) = .ok ()) :
    validate = .ok () ∧ fresh := by
  simp only [bind_eq_ok, require_eq_ok] at checked
  obtain ⟨_, valid, _, fresh, _⟩ := checked
  exact ⟨valid, fresh⟩

section

variable (accepted : validateState sha256 state = .ok ())

include accepted

theorem keyed_of_validateState : Keyed state := by
  simp only [validateState, validateObjectGraph, bind_eq_ok] at accepted
  obtain ⟨_, ⟨_, vpcs, _, _, _, subnets, _, _, _, _, _, _, _, _, _, endpoints, _, _, _, gateways, _⟩,
    _, natRules, _, loadBalancers, _, _, _, tables, routes⟩ := accepted
  refine ⟨(of_distinct vpcs).2, nodup_of_any _ (fun seen item checked => ?_) subnets,
    nodup_of_any _ ?_ endpoints, nodup_of_any _ ?_ tables, nodup_of_any _ ?_ routes,
    nodup_of_any _ ?_ gateways, nodup_of_any _ ?_ natRules, nodup_of_any _ ?_ loadBalancers⟩
  · have fresh := (of_check checked).2
    rw [findSubnet, Option.isNone_iff_eq_none, find?_eq_none] at fresh
    simpa using fresh
  all_goals exact fun seen item checked => (of_check checked).2

/-! ### Checks of single objects -/

omit accepted in
theorem mem_of_knownVPC {vpcs : List VPC} {name : String} (known : knownVPC vpcs name) :
    name ∈ vpcs.map VPC.name := by
  simp only [knownVPC, any_eq_true, decide_eq_true_eq] at known
  obtain ⟨vpc, member, same⟩ := known
  exact mem_map.mpr ⟨vpc, member, same⟩

omit accepted in
theorem contains_of_validateAddressInVPCSubnets {subnets : List Subnet} {vpc subject : String}
    {ip : Addr} {result : Unit}
    (accepted : validateAddressInVPCSubnets subnets vpc ip subject = .ok result) :
    ∃ cidr : Prefix, cidr.contains ip := by
  rw [validateAddressInVPCSubnets] at accepted
  split at accepted
  · cases accepted
  · next subnet found =>
    have hit := find?_some found
    simp only [Bool.and_eq_true, decide_eq_true_eq] at hit
    exact ⟨subnet.cidr, hit.2⟩

/-- Objects that are checked once more when they are handed to a backend. -/
structure ObjectsValid (state : DesiredState) : Prop where
  vpcs : ∀ vpc ∈ state.vpcs, vpc.validate = .ok ()
  subnets : ∀ subnet ∈ state.subnets, subnet.validate = .ok ()
  routeTables : ∀ table ∈ state.routeTables, table.validate = .ok ()
  policyRoutes : ∀ route ∈ state.policyRoutes, route.validate = .ok ()
  gateways : ∀ gateway ∈ state.gateways, gateway.validate = .ok ()
  endpoints : ∀ endpoint ∈ state.endpoints, endpoint.validate = .ok ()

theorem objectsValid_of_validateState :
    ObjectsValid state := by
  have front : ∀ {α : Type} {check : List α → α → Except String Unit}
      {validate : α → Except String Unit} {items : List α},
      (∀ seen item, check seen item = .ok () → validate item = .ok ()) →
      growing check [] items = .ok () → ∀ item ∈ items, validate item = .ok () := by
    intro α check validate items first accepted item member
    obtain ⟨before, checked⟩ := mem_of_growing accepted member
    exact first before item checked
  simp only [validateState, validateObjectGraph, bind_eq_ok] at accepted
  obtain ⟨_, ⟨_, vpcs, _, _, _, subnets, _, _, _, _, _, _, _, _, _, endpoints, _, _, _, gateways, _⟩,
    _, _, _, _, _, _, _, tables, routes⟩ := accepted
  refine ⟨fun vpc member => ?_, front ?_ subnets, front ?_ tables, front ?_ routes,
    front ?_ gateways, front ?_ endpoints⟩
  · obtain ⟨_, checked⟩ := (of_distinct vpcs).1 vpc member
    exact checked
  all_goals exact fun seen item checked => (of_check checked).1

/-- What the controller has checked of a route table. -/
structure TableAccepted (state : DesiredState) (table : RouteTable) : Prop where
  valid : table.validate = .ok ()
  vpc : table.vpc ∈ state.vpcs.map VPC.name
  nextHops : ∀ route ∈ table.routes, route.blackhole = false → ∀ nextHop ∈ route.nextHops,
    ∃ cidr : Prefix, cidr.contains nextHop = true

theorem tableAccepted_of_validateState
    {table : RouteTable} (member : table ∈ state.routeTables) : TableAccepted state table := by
  simp only [validateState, validateObjectGraph, bind_eq_ok] at accepted
  obtain ⟨_, ⟨_, _, _, _, _, _, _, _, _, _, _, _, _, _, _, _, _, _, _, _, _, _, _, tables, _⟩, _⟩ :=
    accepted
  have checked := (forM_eq_ok _ _ _).mp tables table member
  simp only [validateRouteTableReferences, bind_eq_ok, require_eq_ok] at checked
  obtain ⟨_, valid, _, known, routes⟩ := checked
  refine ⟨valid, mem_of_knownVPC known, fun route listed open' nextHop hop => ?_⟩
  have references := (forM_eq_ok _ _ _).mp routes route listed
  simp only [validateRouteReferences, open', checkIf_eq_ok, Bool.not_false, forall_true_left,
    bind_eq_ok] at references
  obtain ⟨_, hops, _⟩ := references
  exact contains_of_validateAddressInVPCSubnets ((forM_eq_ok _ _ _).mp hops nextHop hop)

/-- What the controller has checked of a load balancer. -/
structure BalancerAccepted (lb : LoadBalancer) : Prop where
  valid : lb.validate = .ok ()
  backends : ∀ frontend ∈ lb.frontends, ∀ backend ∈ frontend.backends,
    ∃ cidr : Prefix, cidr.contains backend.ip = true

theorem balancerAccepted_of_validateState
    {lb : LoadBalancer} (member : lb ∈ state.loadBalancers) : BalancerAccepted lb := by
  simp only [validateState, validateObjectGraph, bind_eq_ok] at accepted
  obtain ⟨_, ⟨_, _, _, _, _, _, _, balancers, _⟩, _⟩ := accepted
  obtain ⟨_, checked⟩ := mem_of_growing balancers member
  simp only [validateLoadBalancerReferences, bind_eq_ok, require_eq_ok] at checked
  obtain ⟨_, valid, _, _, _, _, _, _, frontends⟩ := checked
  refine ⟨valid, fun frontend listed backend serves => ?_⟩
  have references := (forM_eq_ok _ _ _).mp frontends frontend listed
  simp only [bind_eq_ok] at references
  obtain ⟨_, _, backends⟩ := references
  exact contains_of_validateAddressInVPCSubnets
    ((forM_eq_ok _ _ _).mp backends backend serves)

end

end Netloom.Control
