import Netloom.Control.Separation

/-!
# Resolution does not depend on orders

The topology that the controller derives from an accepted state resolves every
packet to one decision, whatever the orders of the loops over its maps and of
the policy routes.
-/
namespace Netloom.Control

open Model Netloom.Topology List Fold
open Netip (Addr Prefix)
open Ranging (Order)

/-- The maps of a desired state. -/
def desiredTopologyState (state : DesiredState) : Topology.State where
  vpcs := insertAll VPC.name id state.vpcs
  subnets := insertAll (fun subnet => subnetKey subnet.vpc subnet.name) id state.subnets
  endpoints := insertAll (fun endpoint => endpointKey endpoint.vpc endpoint.id) id
    state.endpoints
  routeTables := insertAll (fun table => routeTableKey table.vpc table.name) id
    state.routeTables
  policyRoutes := state.policyRoutes
  gateways := insertAll (fun gateway => gatewayKey gateway.vpc gateway.name) id state.gateways
  natRules := insertAll (fun rule => natRuleKey rule.vpc rule.name) id state.natRules
  loadBalancers := insertAll (fun lb => loadBalancerKey lb.vpc lb.name) id state.loadBalancers
  dnsRecords := state.dnsRecords

/-- The values of such a map come from the list. -/
theorem mem_of_mem_values {α : Type} {key : α → String} {items : List α} {order : Order}
    {item : α} (member : item ∈ order.values (insertAll key id items)) : item ∈ items := by
  obtain ⟨k, held⟩ := Ranging.Order.lookup_of_mem_values member
  obtain ⟨source, listed, _, rfl⟩ := of_lookup_insertAll key id held
  exact listed

/-- Two orders run through the same values. -/
theorem values_perm_values {κ α : Type} (order order' : Order) (map : AList fun _ : κ => α) :
    (order.values map).Perm (order'.values map) :=
  (order.values_perm map).trans (order'.values_perm map).symm

section

variable {state : DesiredState} (packet : Packet)

section

variable (separated : Separated state)

include separated

variable (orders orders' : Orders) (order order' : Order)

theorem findEndpoint_order (vpc : String)
    (ip : Addr) : findEndpoint order (desiredTopologyState state) vpc ip =
      findEndpoint order' (desiredTopologyState state) vpc ip := by
  refine Ranging.find?_perm _ (values_perm_values order order' _) fun a inA b inB hitA hitB => ?_
  simp only [Bool.and_eq_true, decide_eq_true_eq] at hitA hitB
  refine inj_on_of_nodup_map separated.endpoints (mem_of_mem_values inA)
    (mem_of_mem_values inB) ?_
  rw [hitA.1, hitA.2, hitB.1, hitB.2]

theorem resolveDNAT_order : resolveDNAT orders (desiredTopologyState state) packet =
      resolveDNAT orders' (desiredTopologyState state) packet := by
  have rule := Ranging.find?_perm (dnatApplies packet)
    (values_perm_values (orders .dnat) (orders' .dnat) (desiredTopologyState state).natRules)
    fun a inA b inB hitA hitB => by
      by_contra differ
      exact separated.natRules.forall (mem_of_mem_values inA) (mem_of_mem_values inB) differ packet
        hitA hitB
  rw [resolveDNAT, resolveDNAT, rule]
  simp [findEndpoint_order separated (orders .target) (orders' .target)]

theorem resolveFrontend_order (lb : LoadBalancer) (frontend : LoadBalancerFrontend) :
    resolveFrontend orders (desiredTopologyState state) packet lb frontend =
      resolveFrontend orders' (desiredTopologyState state) packet lb frontend := by
  have subnets : ∀ subnet, subnetContainsSource (orders (.subnets lb.name subnet))
      (desiredTopologyState state) lb.vpc subnet packet.source =
      subnetContainsSource (orders' (.subnets lb.name subnet))
        (desiredTopologyState state) lb.vpc subnet packet.source := by
    intro subnet
    rw [subnetContainsSource, subnetContainsSource,
      Ranging.any_perm _ (values_perm_values _ (orders' (.subnets lb.name subnet)) _)]
  have allows : ∀ endpoint, loadBalancerAllowsSourceSubnet orders (desiredTopologyState state) lb
      endpoint packet.source = loadBalancerAllowsSourceSubnet orders'
        (desiredTopologyState state) lb endpoint packet.source := by
    intro endpoint
    simp [loadBalancerAllowsSourceSubnet, subnets]
  rw [resolveFrontend, resolveFrontend, allows,
    findEndpoint_order separated (orders .source) (orders' .source)]

omit separated in
/-- A frontend that takes the packet has its address, its protocol and its port. -/
theorem frontendKey_of_resolveFrontend {orders : Orders} {topology : Topology.State}
    {lb : LoadBalancer} {frontend : LoadBalancerFrontend} {decision : Decision}
    (vpc : lb.vpc = packet.vpc)
    (resolved : resolveFrontend orders topology packet lb frontend = some decision) :
    frontendKey lb frontend = portKey packet.vpc packet.dest packet.protocol packet.destPort := by
  unfold resolveFrontend at resolved
  split at resolved
  · simp at resolved
  · next taken =>
    simp only [ne_eq, not_or, not_not] at taken
    rw [frontendKey, vpc, taken.1, taken.2.1, taken.2.2]

theorem resolveLoadBalancer_order : resolveLoadBalancer orders (desiredTopologyState state) packet =
      resolveLoadBalancer orders' (desiredTopologyState state) packet := by
  have same : resolveLoadBalancer orders' (desiredTopologyState state) packet =
      ((orders' .loadBalancers).values (desiredTopologyState state).loadBalancers).findSome?
        fun lb => if lb.vpc ≠ packet.vpc then none
          else lb.frontends.findSome?
            (resolveFrontend orders (desiredTopologyState state) packet lb) := by
    have inner : resolveFrontend orders' (desiredTopologyState state) packet =
        resolveFrontend orders (desiredTopologyState state) packet :=
      funext₂ (resolveFrontend_order packet separated orders' orders)
    rw [resolveLoadBalancer, inner]
  rw [same]
  refine Ranging.findSome?_perm _ (values_perm_values _ _ _) fun a inA b inB x y hitA hitB => ?_
  -- Either balancer has a frontend with the key of the packet, and there is only one.
  have frontend : ∀ lb z, (if lb.vpc ≠ packet.vpc then none else lb.frontends.findSome?
      (resolveFrontend orders (desiredTopologyState state) packet lb)) = some z →
      ∃ frontend ∈ lb.frontends,
        resolveFrontend orders (desiredTopologyState state) packet lb frontend = some z ∧
        frontendKey lb frontend =
          portKey packet.vpc packet.dest packet.protocol packet.destPort := by
    intro lb z hit
    split at hit
    · simp at hit
    · next vpc =>
      obtain ⟨frontend, member, resolved⟩ := exists_of_findSome?_eq_some hit
      exact ⟨frontend, member, resolved,
        frontendKey_of_resolveFrontend packet (not_not.mp vpc) resolved⟩
  obtain ⟨frontendA, memberA, resolvedA, keyA⟩ := frontend a x hitA
  obtain ⟨frontendB, memberB, resolvedB, keyB⟩ := frontend b y hitB
  have listed : ∀ lb ∈ state.loadBalancers, ∀ frontend ∈ lb.frontends,
      (lb, frontend) ∈ allFrontends state.loadBalancers := by
    intro lb member frontend inside
    exact mem_flatMap.mpr ⟨lb, member, mem_map.mpr ⟨frontend, inside, rfl⟩⟩
  have equal := inj_on_of_nodup_map separated.frontends
    (listed a (mem_of_mem_values inA) frontendA memberA)
    (listed b (mem_of_mem_values inB) frontendB memberB) (keyA.trans keyB.symm)
  obtain ⟨rfl, rfl⟩ := Prod.mk.inj equal
  exact Option.some.inj (resolvedA.symm.trans resolvedB)

/-! ### Routes -/

omit separated in
theorem byPriority_sorted (routes : List PolicyRoute) :
    (byPriority routes).Pairwise fun left right => right.priority ≤ left.priority :=
  pairwise_insertionSort _ routes

variable {routes : List PolicyRoute}

omit separated in
theorem byPriority_perm {routes' : List PolicyRoute} (perm : routes.Perm routes') :
    (byPriority routes).Perm (byPriority routes') :=
  ((perm_insertionSort _ routes).trans perm).trans (perm_insertionSort _ routes').symm

theorem resolvePolicyRoute_perm (perm : routes.Perm state.policyRoutes) :
    resolvePolicyRoute routes packet = resolvePolicyRoute state.policyRoutes packet := by
  have first := Ranging.find?_sorted_perm
    (fun route : PolicyRoute => route.vpc = packet.vpc && routeMatch route.match packet)
    PolicyRoute.priority (byPriority_perm perm) (byPriority_sorted routes)
    (byPriority_sorted state.policyRoutes) fun a inA b inB hitA hitB priority => by
      simp only [Bool.and_eq_true, decide_eq_true_eq] at hitA hitB
      have listed : ∀ route ∈ byPriority routes, route ∈ state.policyRoutes := fun route member =>
        perm.mem_iff.mp ((mem_insertionSort _).mp member)
      by_contra differ
      exact separated.policyRoutes.forall (listed a inA) (listed b inB) differ packet
        (hitA.1.trans hitB.1.symm) priority hitA.2 hitB.2
  rw [resolvePolicyRoute, resolvePolicyRoute, first]

omit separated in
/-- A route of the packet's VPC comes from a table of the state. -/
theorem of_mem_routesOf {order : Order} {vpc : String} {entry : Route × String}
    (member : entry ∈ routesOf order (desiredTopologyState state).routeTables vpc) :
    ∃ table ∈ state.routeTables, table.vpc = vpc ∧ table.name = entry.2 ∧
      entry.1 ∈ table.routes := by
  simp only [routesOf, mem_flatMap, mem_filter, decide_eq_true_eq, mem_map]
    at member
  obtain ⟨table, ⟨held, vpcs⟩, route, inside, rfl⟩ := member
  exact ⟨table, mem_of_mem_values held, vpcs, rfl, inside⟩

theorem resolveRouteTables_order :
    resolveRouteTables order (desiredTopologyState state).routeTables packet =
      resolveRouteTables order' (desiredTopologyState state).routeTables packet := by
  have perm : (routesOf order (desiredTopologyState state).routeTables packet.vpc).Perm
      (routesOf order' (desiredTopologyState state).routeTables packet.vpc) :=
    ((values_perm_values order order' _).filter _).flatMap_right _
  have best := BestMatch.select_perm
    (fun entry : Route × String => entry.1.destination.contains packet.dest)
    (fun entry best => decide (best.1.destination.bits < entry.1.destination.bits))
    (fun entry => entry.1.destination.bits) (fun a b => decide_eq_true_iff) perm
    fun a inA b inB hitA hitB bits => by
      obtain ⟨tableA, listedA, vpcA, nameA, routeA⟩ := of_mem_routesOf inA
      obtain ⟨tableB, listedB, vpcB, nameB, routeB⟩ := of_mem_routesOf inB
      have destination := Prefix.eq_of_contains (separated.masked tableA listedA a.1 routeA)
        (separated.masked tableB listedB b.1 routeB) bits hitA hitB
      have listed : ∀ table ∈ state.routeTables, ∀ route ∈ table.routes,
          (table, route) ∈ allRoutes state.routeTables := by
        intro table member route inside
        exact mem_flatMap.mpr ⟨table, member, mem_map.mpr ⟨route, inside, rfl⟩⟩
      have key : destinationKey tableA a.1 = destinationKey tableB b.1 := by
        rw [destinationKey, destinationKey, vpcA, vpcB, destination]
      obtain ⟨table, route⟩ := Prod.mk.inj (inj_on_of_nodup_map separated.destinations
        (listed tableA listedA a.1 routeA) (listed tableB listedB b.1 routeB) key)
      exact Prod.ext route (by rw [← nameA, ← nameB, table])
  rw [resolveRouteTables, resolveRouteTables, best]

omit separated in
theorem sortedValues_order {α : Type} (order order' : Order) (map : AList fun _ : String => α) :
    sortedValues order map = sortedValues order' map := by
  have keys : (order.keys map).Perm (order'.keys map) :=
    (order.perm map.keys).trans (order'.perm map.keys).symm
  rw [sortedValues, sortedValues, Strings.sortStrings_congr keys]

omit separated in
theorem applyNATAndGateway_order (topology : Topology.State) (orders orders' : Orders)
    (decision : Decision) :
    applyNATAndGateway orders topology packet decision =
      applyNATAndGateway orders' topology packet decision := by
  have gateway : applyGateway orders topology packet = applyGateway orders' topology packet := by
    funext decision
    rw [applyGateway, applyGateway,
      sortedValues_order (orders (.gatewayNames 0)) (orders' (.gatewayNames 0)),
      sortedValues_order (orders (.gatewayNames 1)) (orders' (.gatewayNames 1))]
  rw [applyNATAndGateway, applyNATAndGateway, gateway,
    sortedValues_order (orders .natNames) (orders' .natNames)]

theorem resolveRoutes_order : resolveRoutes orders (desiredTopologyState state) packet =
      resolveRoutes orders' (desiredTopologyState state) packet := by
  rw [resolveRoutes, resolveRoutes,
    resolveRouteTables_order packet separated (orders .routeTables) (orders' .routeTables)]
  simp [applyNATAndGateway_order packet (desiredTopologyState state) orders orders']

/-! ### Whole resolution -/

theorem resolvePacket_order : resolvePacket orders (desiredTopologyState state) packet =
      resolvePacket orders' (desiredTopologyState state) packet := by
  rw [resolvePacket, resolvePacket,
    findEndpoint_order separated (orders .destination) (orders' .destination),
    resolveDNAT_order packet separated orders orders',
    resolveLoadBalancer_order packet separated orders orders',
    resolveRoutes_order packet separated orders orders']

end

/-- Only the first policy route that the packet meets counts. -/
theorem resolvePacket_policyRoutes {topology : Topology.State} (orders : Orders)
    (same : resolvePolicyRoute routes packet = resolvePolicyRoute topology.policyRoutes packet) :
    resolvePacket orders { topology with policyRoutes := routes } packet =
      resolvePacket orders topology packet := by
  have routed : resolveRoutes orders { topology with policyRoutes := routes } packet =
      resolveRoutes orders topology packet := by
    simp only [resolveRoutes, same]
    rfl
  simp only [resolvePacket, routed]
  rfl

end

/-- Every order of the loops and of the policy routes gives the same decision. -/
theorem resolve_wellDefined (sha256 : Sha256) (state : DesiredState)
    (accepted : validateState sha256 state = .ok ()) (routes : List PolicyRoute)
    (perm : routes.Perm state.policyRoutes) (orders orders' : Orders) (packet : Packet) :
    resolve orders (desiredTopologyState { state with policyRoutes := routes }) packet =
      resolve orders' (desiredTopologyState state) packet := by
  have separated := separated_of_validateState accepted
  have same : ∀ packet, resolvePacket orders
      (desiredTopologyState { state with policyRoutes := routes }) packet =
      resolvePacket orders' (desiredTopologyState state) packet := fun packet =>
    (resolvePacket_policyRoutes packet orders
      (resolvePolicyRoute_perm packet separated perm)).trans
      (resolvePacket_order packet separated orders orders')
  simp [resolve, same]

/-- A VPC with one of everything, and two routes of each kind. -/
def shopState : DesiredState where
  vpcs := [⟨"shop"⟩]
  subnets := [{
    name := "web", vpc := "shop", cidr := Netip.prefixFrom (.v4 0x0a000000) 24,
    gateway := .v4 0x0a000001 }]
  endpoints := [
    ⟨"a", "shop", "web", .v4 0x0a000005, "", "node1", [], [], ∅⟩,
    ⟨"b", "shop", "web", .v4 0x0a000006, "", "node2", [], [], ∅⟩]
  routeTables := [
    ⟨"main", "shop", [{ destination := Netip.prefixFrom (.v4 0) 0, nextHops := [.v4 0x0a0000fe] }]⟩,
    ⟨"lab", "shop", [{
      destination := Netip.prefixFrom (.v4 0xac100000) 12,
      nextHops := [.v4 0x0a0000fd, .v4 0x0a0000fc] }]⟩]
  policyRoutes := [
    { name := "quarantine", vpc := "shop", priority := 20,
      «match» := { protocol := .tcp, dstPorts := [⟨25, 25⟩] }, action := ⟨.drop, []⟩ },
    { name := "pass", vpc := "shop", priority := 10, «match» := {}, action := ⟨.allow, []⟩ }]
  natRules := [{
    name := "out", vpc := "shop", type := .snat, matchCIDR := Netip.prefixFrom (.v4 0x0a000000) 24,
    externalIP := .v4 0xc6336401, targetIP := .zero, protocol := .unset,
    externalPort := 0, targetPort := 0, logicalPort := "", externalMAC := "" }]
  gateways := [⟨"edge", "shop", "node1", "eth1", .v4 0x0a0000fe, false⟩]
  loadBalancers := [{
    name := "front", vpc := "shop", vip := .v4 0xc6336402,
    ports := [⟨"", 80, .tcp, [⟨.v4 0x0a000005, 8080, none⟩, ⟨.v4 0x0a000006, 8080, none⟩]⟩],
    subnets := ["web"],
    healthCheck := ⟨false, 0, 0, 0, 0⟩ }]

def shopPacket : Packet where
  sourcePort := 40000
  vpc := "shop"
  source := .v4 0x0a000005
  dest := .v4 0xac100101
  protocol := .tcp
  destPort := 443

theorem resolve_wellDefined_shop :
    validateState (fun _ => []) shopState = .ok () ∧
      resolve (fun _ => .identity) (desiredTopologyState
          { shopState with policyRoutes := shopState.policyRoutes.reverse }) shopPacket =
        resolve (fun _ => .reversed) (desiredTopologyState shopState) shopPacket :=
  have accepted : validateState (fun _ => []) shopState = .ok () := by decide +kernel
  ⟨accepted, resolve_wellDefined _ shopState accepted _ (reverse_perm _) _ _ _⟩

end Netloom.Control
