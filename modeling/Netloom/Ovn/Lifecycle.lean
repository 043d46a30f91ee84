import Netloom.Ovn.Planner

/-!
# From one desired state to the next

A snapshot holds the objects of a desired state by key. `cleanupOperations` removes
what the next snapshot no longer has, and the signatures say which objects need
not be planned again.
-/
namespace Netloom.Ovn

open Model Fold
open Netip (Addr Prefix)
open Strings (sortStrings)

structure RouteRecord where
  vpc : String
  route : Route
  deriving DecidableEq, Repr

structure PolicyRouteRecord where
  route : PolicyRoute
  «match» : String
  deriving DecidableEq, Repr

structure DesiredSnapshot where
  vpcs : AList (fun _ : String => VPC) := ∅
  subnets : AList (fun _ : String => Subnet) := ∅
  endpoints : AList (fun _ : String => Endpoint) := ∅
  routes : AList (fun _ : String => RouteRecord) := ∅
  policyRoutes : AList (fun _ : String => PolicyRouteRecord) := ∅
  gateways : AList (fun _ : String => Gateway) := ∅
  natRules : AList (fun _ : String => NATRule) := ∅
  loadBalancers : AList (fun _ : String => LoadBalancer) := ∅

def routeKey (vpc : String) (route : Route) : String := vpc ++ "|" ++ route.destination.string

/-- The routes of some tables, each with the VPC of its table. -/
def routeRecords (tables : List RouteTable) : List RouteRecord :=
  tables.flatMap fun table => table.routes.map fun route => ⟨table.vpc, route⟩

/-- The values of a map in the order in which it is walked. -/
def valuesOf {α : Type} (map : AList fun _ : String => α) : List α :=
  map.entries.map fun entry => entry.2

def snapshotDesired (state : Topology.State) : DesiredSnapshot where
  vpcs := state.vpcs
  subnets := insertAll (fun subnet => subnetStateKey subnet.vpc subnet.name) id
    (valuesOf state.subnets)
  endpoints := insertAll (fun endpoint => endpointKey endpoint.vpc endpoint.id) id
    (valuesOf state.endpoints)
  routes := insertAll (fun record => routeKey record.vpc record.route) id
    (routeRecords (valuesOf state.routeTables))
  policyRoutes := insertAll policyRouteKey
    (fun route => ⟨route, policyRouteMatch route.match⟩) state.policyRoutes
  gateways := insertAll (fun gateway => gatewayStateKey gateway.vpc gateway.name) id
    (valuesOf state.gateways)
  natRules := insertAll (fun rule => natRuleStateKey rule.vpc rule.name) id
    (valuesOf state.natRules)
  loadBalancers := insertAll loadBalancerStateKey id (valuesOf state.loadBalancers)

/-! ### Keys -/

section

variable {α : Type} (old next : AList fun _ : String => α)

def commonKeys : List String := sortStrings (old.keys.filter fun key => (next.lookup key).isSome)

def staleKeys : List String := sortStrings (old.keys.filter fun key => (next.lookup key).isNone)

/-- The values that are gone, in the order of their keys. -/
def staleValues : List α := (staleKeys old next).filterMap old.lookup

/-- The old and the new value under every common key, in the order of the keys. -/
def commonValues : List (α × α) :=
  (commonKeys old next).filterMap fun key =>
    (old.lookup key).bind fun before => (next.lookup key).map fun after => (before, after)

/-- The signatures of the objects that the next snapshot has again. -/
def unchanged (key : α → String) (signature : α → String) (same : α → α → Bool) : StringMap :=
  insertAll key signature
    (((commonValues old next).filter fun pair => same pair.1 pair.2).map Prod.snd)

end

def removedStrings (old next : List String) : List String :=
  sortStrings (old.filter fun value => !next.contains value)

/-! ### Signatures -/

def sortedRouteNextHops (route : Route) : List String :=
  sortStrings (route.nextHops.map Addr.string)

def routeSignature (record : RouteRecord) : String :=
  let route := record.route
  let bfd := route.bfd
  if route.blackhole then routeKey record.vpc route ++ "|discard"
  else routeKey record.vpc route ++ "|" ++ ",".intercalate (sortedRouteNextHops route) ++
    if bfd.enabled then
      s!"|bfd={bfd.logicalPort},{bfd.minTx.toNat},{bfd.minRx.toNat},{bfd.detectMult.toNat}"
    else ""

def policyRouteNextHops (action : RouteAction) : String :=
  ",".intercalate (sortStrings (action.nextHops.map Addr.string))

def policyRouteSignature (route : PolicyRoute) : String :=
  "|".intercalate [route.vpc, route.name, toString route.priority, policyRouteMatch route.match,
    route.action.type.text, policyRouteNextHops route.action]

def natRuleSignature (rule : NATRule) : String :=
  "|".intercalate [rule.vpc, rule.type.text, rule.matchCIDR.string, rule.externalIP.string,
    rule.targetIP.string, rule.protocol.text, toString rule.externalPort.toNat,
    toString rule.targetPort.toNat, rule.logicalPort, rule.externalMAC]

def loadBalancerSignature (lb : LoadBalancer) : String :=
  "###".intercalate
    [lb.vpc,
      "||".intercalate (sortStrings (lb.frontends.map fun frontend =>
        "|".intercalate [loadBalancerFrontendVIP frontend, frontend.protocol.text,
          loadBalancerFrontendBackends frontend])),
      "|".intercalate (loadBalancerOptions lb),
      loadBalancerHealthCheckSignature lb,
      ",".intercalate (sortStrings lb.subnets)]

/-- The zero value of a subnet. -/
def noSubnet : Subnet := {}

def subnetForEndpoint (subnets : AList fun _ : String => Subnet) (endpoint : Endpoint) : Subnet :=
  (subnets.lookup (subnetStateKey endpoint.vpc endpoint.subnet)).getD noSubnet

def NamedPort.before (left right : NamedPort) : Prop :=
  left.name < right.name ∨ left.name = right.name ∧
    (left.protocol.text < right.protocol.text ∨ left.protocol.text = right.protocol.text ∧
      left.port ≤ right.port)

instance : DecidableRel NamedPort.before := fun left right =>
  inferInstanceAs (Decidable (left.name < right.name ∨ left.name = right.name ∧
    (left.protocol.text < right.protocol.text ∨ left.protocol.text = right.protocol.text ∧
      left.port ≤ right.port)))

/-- What the hash of an endpoint is taken of. -/
def endpointSignatureText (endpoint : Endpoint) (subnet : Subnet) : String :=
  "|".intercalate
    [endpoint.id, endpoint.vpc, endpoint.subnet, endpoint.ip.string, endpoint.mac, endpoint.node,
      subnet.name, subnet.cidr.string, subnet.gateway.string, toString subnet.vlan.toNat,
      subnet.providerNetwork, toString subnet.dhcp.enabled, toString subnet.dhcp.leaseTime.toNat,
      toString subnet.dhcp.mtu.toNat,
      ",".intercalate (sortStrings (subnet.dhcp.dnsServers.map Addr.string)),
      subnet.dhcp.domainName,
      ",".intercalate (sortStrings subnet.dhcp.searchDomains),
      ",".intercalate (sortStrings endpoint.securityGroups),
      String.join ((endpoint.namedPorts.insertionSort NamedPort.before).map fun namedPort =>
        namedPort.name ++ "|" ++ namedPort.protocol.text ++ "|" ++
          toString namedPort.port.toNat ++ "|"),
      ",".intercalate (sortStrings (endpoint.labels.entries.map fun label =>
        label.1 ++ "=" ++ label.2))]

section

variable (sha256 : Sha256)

def endpointSignature (endpoint : Endpoint) (subnet : Subnet) : String :=
  hexBytes (sha256 (endpointSignatureText endpoint subnet))

/-! ### Cleaning up routes -/

def deleteStaticRouteDestinationOperation (record : RouteRecord) : Operation :=
  .lrRouteDel (logicalRouter sha256 record.vpc) record.route.destination.string none

def deleteStaticRouteNextHopOperation (record : RouteRecord) (nextHop : String) : Operation :=
  .lrRouteDel (logicalRouter sha256 record.vpc) record.route.destination.string (some nextHop)

def routeUpdateCleanupOperations (oldRecord nextRecord : RouteRecord) : List Operation :=
  if routeSignature oldRecord = routeSignature nextRecord then []
  else if oldRecord.route.blackhole || nextRecord.route.blackhole then
    [deleteStaticRouteDestinationOperation sha256 oldRecord]
  else
    let oldNextHops := sortedRouteNextHops oldRecord.route
    let nextNextHops := sortedRouteNextHops nextRecord.route
    let removed := oldNextHops.filter fun nextHop => !nextNextHops.contains nextHop
    let peers := removed.map (deleteStaticRouteNextHopOperation sha256 oldRecord)
    if oldNextHops.length = 1 && decide (1 < nextNextHops.length) then
      if removed.isEmpty then [] else [deleteStaticRouteDestinationOperation sha256 oldRecord]
    else if decide (1 < oldNextHops.length) && nextNextHops.length = 1 then
      -- the destination is kept if one of the peers stays
      if oldNextHops.any nextNextHops.contains then peers
      else [deleteStaticRouteDestinationOperation sha256 oldRecord]
    else if oldNextHops.length = 1 && nextNextHops.length = 1 then []
    else peers

/-! ### Cleaning up policy routes -/

/-- Two reroutes with the same match and priority, each with a number of next hops that
`size` accepts. -/
def policyRouteCanBeUpdated (size : Nat → Bool) (oldRoute nextRoute : PolicyRoute) : Bool :=
  oldRoute.vpc = nextRoute.vpc && oldRoute.priority = nextRoute.priority &&
    policyRouteMatch oldRoute.match = policyRouteMatch nextRoute.match &&
    oldRoute.action.type = .reroute && nextRoute.action.type = .reroute &&
    size oldRoute.action.nextHops.length && size nextRoute.action.nextHops.length &&
    policyRouteSignature nextRoute ≠ policyRouteSignature oldRoute

def policyRouteCanBeUpdatedByNexthop : PolicyRoute → PolicyRoute → Bool :=
  policyRouteCanBeUpdated fun hops => hops = 1

def policyRouteCanBeUpdatedByNexthops : PolicyRoute → PolicyRoute → Bool :=
  policyRouteCanBeUpdated fun hops => 1 < hops

def policyRouteDelete (record : PolicyRouteRecord) : Operation :=
  .lrPolicyDel (logicalRouter sha256 record.route.vpc) (toString record.route.priority) record.match

def policyRouteUpdateCleanupOperations (oldRecord nextRecord : PolicyRouteRecord) :
    List Operation :=
  let next := nextRecord.route
  if policyRouteSignature oldRecord.route = policyRouteSignature next then []
  else if policyRouteCanBeUpdatedByNexthop oldRecord.route next then
    [.syncPolicyRouteNexthop next.vpc next.name (toString next.priority) nextRecord.match
      (next.action.nextHops.headD .zero).string]
  else if policyRouteCanBeUpdatedByNexthops oldRecord.route next then
    [.syncPolicyRouteNexthops next.vpc next.name (toString next.priority) nextRecord.match
      (nextHopSet next.action.nextHops)]
  else [policyRouteDelete sha256 oldRecord]

/-! ### Cleaning up NAT rules -/

def natDeleteMatch (rule : NATRule) : String :=
  if rule.type = .snat then rule.matchCIDR.string else rule.externalIP.string

def natDeleteOperations (rule : NATRule) : List Operation :=
  if natUsesManagedRecord rule then [.gcNATRule rule.name rule.vpc]
  else [.lrNatDel (logicalRouter sha256 rule.vpc) (natType rule.type) (natDeleteMatch rule)]

/-! ### Cleaning up load balancers -/

def loadBalancerVIPs (lb : LoadBalancer) (protocol : Protocol) : List String :=
  sortStrings ((frontendsOf lb protocol).map loadBalancerFrontendVIP)

/-- The backends of every address of one protocol. -/
def loadBalancerFrontendSignatures (lb : LoadBalancer) (protocol : Protocol) : StringMap :=
  insertAll loadBalancerFrontendVIP loadBalancerFrontendBackends (frontendsOf lb protocol)

def staleLoadBalancerOperations (lb : LoadBalancer) : List Operation :=
  let names := loadBalancerProtocolNames sha256 lb
  clearHealthChecks names ++ [.gcLoadBalancerHealthChecks lb.name lb.vpc] ++
    names.flatMap fun name =>
      [.lrLbDel (logicalRouter sha256 lb.vpc) name] ++
        lb.subnets.map (fun subnet => .lsLbDel (logicalSwitch sha256 lb.vpc subnet) name) ++
        [.lbDel name none]

/-- The protocols that both load balancers have, in order. -/
def keptProtocols (oldLB nextLB : LoadBalancer) : List Protocol :=
  (sortedLoadBalancerProtocols oldLB).filter (sortedLoadBalancerProtocols nextLB).contains

def commonLoadBalancerOperations (oldLB nextLB : LoadBalancer) : List Operation :=
  let oldNames := loadBalancerProtocolNames sha256 oldLB
  let removedNames := removedStrings oldNames (loadBalancerProtocolNames sha256 nextLB)
  let router := logicalRouter sha256 oldLB.vpc
  let removedSubnets := removedStrings oldLB.subnets nextLB.subnets
  clearHealthChecks removedNames ++
  (if !removedNames.isEmpty then [.gcLoadBalancerHealthChecks oldLB.name oldLB.vpc] else []) ++
  (if oldLB.vpc ≠ nextLB.vpc then oldNames.map fun name => .lrLbDel router name else []) ++
  ((keptProtocols oldLB nextLB).flatMap fun protocol =>
    (removedStrings (loadBalancerVIPs oldLB protocol) (loadBalancerVIPs nextLB protocol)).map
      fun vip => .lbDel (loadBalancerProtocolName sha256 oldLB.vpc oldLB.name protocol) (some vip)) ++
  ((keptProtocols oldLB nextLB).flatMap fun protocol =>
    let oldSignatures := loadBalancerFrontendSignatures oldLB protocol
    let nextSignatures := loadBalancerFrontendSignatures nextLB protocol
    ((commonKeys oldSignatures nextSignatures).filter fun vip =>
      valueAt oldSignatures vip ≠ valueAt nextSignatures vip).map fun vip =>
        .lbDel (loadBalancerProtocolName sha256 oldLB.vpc oldLB.name protocol) (some vip)) ++
  (removedSubnets.flatMap fun subnet =>
    oldNames.map fun name => .lsLbDel (logicalSwitch sha256 oldLB.vpc subnet) name) ++
  removedNames.flatMap fun name =>
    (if oldLB.vpc = nextLB.vpc then [.lrLbDel router name] else []) ++
      ((oldLB.subnets.filter fun subnet => !removedSubnets.contains subnet).map fun subnet =>
        .lsLbDel (logicalSwitch sha256 oldLB.vpc subnet) name) ++
      [.lbDel name none]

/-! ### Cleaning up -/

def staleEndpointOperations (old : DesiredSnapshot) (endpoint : Endpoint) : List Operation :=
  let port := logicalPort sha256 endpoint.vpc endpoint.id
  let dhcp := (old.subnets.lookup (subnetStateKey endpoint.vpc endpoint.subnet)).any fun subnet =>
    subnet.dhcp.enabled
  (if dhcp then
    [.lspSetDHCPv4Options port, .lspSetDHCPv6Options port, gcDHCPOptionsOperation endpoint]
    else []) ++ [.lspDel port]

def staleSubnetOperations (subnet : Subnet) : List Operation :=
  let switch := logicalSwitch sha256 subnet.vpc subnet.name
  [.lspDel (localnetPortName sha256 switch subnet.name),
    .lspDel (switchRouterPortName sha256 switch subnet.name),
    .lrpDel (routerPortName sha256 (logicalRouter sha256 subnet.vpc) subnet.name),
    .lsDel switch]

def staleGatewayOperations (gateway : Gateway) : List Operation :=
  let router := logicalRouter sha256 gateway.vpc
  [.remove .logicalRouter router "external_ids" "netloom_gateway",
    .remove .logicalRouter router "external_ids" "netloom_external_if",
    .remove .logicalRouter router "external_ids" "netloom_gateway_lan_ip",
    .remove .logicalRouter router "external_ids" "netloom_gateway_distributed",
    .remove .logicalRouter router "options" "chassis"]

variable (old next : DesiredSnapshot)

def routeCleanupOperations : List Operation :=
  (staleValues old.routes next.routes).map (deleteStaticRouteDestinationOperation sha256) ++
  (commonValues old.routes next.routes).flatMap fun pair =>
    routeUpdateCleanupOperations sha256 pair.1 pair.2

def cleanupOperations : List Operation :=
  (staleValues old.endpoints next.endpoints).flatMap (staleEndpointOperations sha256 old) ++
  (staleValues old.subnets next.subnets).flatMap (staleSubnetOperations sha256) ++
  routeCleanupOperations sha256 old next ++
  (staleValues old.policyRoutes next.policyRoutes).map (policyRouteDelete sha256) ++
  ((commonValues old.policyRoutes next.policyRoutes).flatMap fun pair =>
    policyRouteUpdateCleanupOperations sha256 pair.1 pair.2) ++
  (staleValues old.natRules next.natRules).flatMap (natDeleteOperations sha256) ++
  ((commonValues old.natRules next.natRules).flatMap fun pair =>
    if natRuleSignature pair.1 = natRuleSignature pair.2 then []
    else natDeleteOperations sha256 pair.1) ++
  (staleValues old.loadBalancers next.loadBalancers).flatMap (staleLoadBalancerOperations sha256) ++
  ((commonValues old.loadBalancers next.loadBalancers).flatMap fun pair =>
    commonLoadBalancerOperations sha256 pair.1 pair.2) ++
  (staleValues old.gateways next.gateways).flatMap (staleGatewayOperations sha256) ++
  (staleKeys old.vpcs next.vpcs).map fun vpc => .lrDel (logicalRouter sha256 vpc)

/-! ### Objects that stay as they are -/

def unchangedNATRules : StringMap :=
  unchanged old.natRules next.natRules (fun rule => natRuleStateKey rule.vpc rule.name)
    natRuleSignature fun before after => natRuleSignature before = natRuleSignature after

def unchangedLoadBalancers : StringMap :=
  unchanged old.loadBalancers next.loadBalancers loadBalancerStateKey loadBalancerSignature
    fun before after => loadBalancerSignature before = loadBalancerSignature after

/-- A route whose next hops the cleanup has brought up to date counts as unchanged. -/
def unchangedPolicyRoutes : StringMap :=
  unchanged old.policyRoutes next.policyRoutes (fun record => policyRouteKey record.route)
    (fun record => policyRouteSignature record.route) fun before after =>
      policyRouteSignature before.route = policyRouteSignature after.route ||
        policyRouteCanBeUpdatedByNexthop before.route after.route ||
        policyRouteCanBeUpdatedByNexthops before.route after.route

def unchangedRoutes : StringMap :=
  unchanged old.routes next.routes (fun record => routeKey record.vpc record.route) routeSignature
    fun before after => routeSignature before = routeSignature after

def unchangedEndpoints : StringMap :=
  unchanged old.endpoints next.endpoints (fun endpoint => endpointKey endpoint.vpc endpoint.id)
    (fun endpoint => endpointSignature sha256 endpoint (subnetForEndpoint next.subnets endpoint))
    fun before after =>
      endpointSignature sha256 before (subnetForEndpoint old.subnets before) =
        endpointSignature sha256 after (subnetForEndpoint next.subnets after)

/-! ### The first cleanup -/

/-- Maps the values of a map in the order of their keys. -/
def inKeyOrder {α : Type} (map : AList fun _ : String => α) : List α :=
  (sortStrings map.keys).filterMap map.lookup

def gcStaleNATRulesOperation (rules : AList fun _ : String => NATRule) : Operation :=
  .gcStaleNATRules ((inKeyOrder rules).map fun rule => (rule.vpc, rule.name))

def gcStalePolicyRoutesOperation (routes : AList fun _ : String => PolicyRouteRecord) : Operation :=
  .gcStalePolicyRoutes ((inKeyOrder routes).map fun record => (record.route.vpc, record.route.name))

def gcStaleDHCPOptionsOperation (endpoints : AList fun _ : String => Endpoint)
    (subnets : AList fun _ : String => Subnet) : Operation :=
  .gcStaleDHCPOptions (((inKeyOrder endpoints).filter fun endpoint =>
      (subnets.lookup (subnetStateKey endpoint.vpc endpoint.subnet)).any fun subnet =>
        subnet.dhcp.enabled).map fun endpoint =>
    (endpointExternalID endpoint.vpc endpoint.id, endpoint.vpc))

end

/-! ### Which operations a plan contains

A property that depends on one kind of operation need not look at the other plans. -/

/-- All operations of a plan are of some of these kinds. -/
def OfKinds (kinds : List Kind) (ops : List Operation) : Prop := ∀ op ∈ ops, op.kind ∈ kinds

section

variable {kinds more : List Kind} {ops rest : List Operation}

@[simp] theorem ofKinds_nil : OfKinds kinds [] := by simp [OfKinds]

@[simp] theorem ofKinds_cons {op : Operation} :
    OfKinds kinds (op :: ops) ↔ op.kind ∈ kinds ∧ OfKinds kinds ops := by simp [OfKinds]

@[simp] theorem ofKinds_append : OfKinds kinds (ops ++ rest) ↔ OfKinds kinds ops ∧ OfKinds kinds rest := by
  simp [OfKinds, or_imp, forall_and]

@[simp] theorem ofKinds_map {α : Type} {items : List α} {plan : α → Operation} :
    OfKinds kinds (items.map plan) ↔ ∀ item ∈ items, (plan item).kind ∈ kinds := by
  simp [OfKinds]

@[simp] theorem ofKinds_flatMap {α : Type} {items : List α} {plan : α → List Operation} :
    OfKinds kinds (items.flatMap plan) ↔ ∀ item ∈ items, OfKinds kinds (plan item) := by
  simp only [OfKinds, List.mem_flatMap]
  exact ⟨fun all item member op inside => all op ⟨item, member, inside⟩,
    fun all op ⟨item, member, inside⟩ => all item member op inside⟩

theorem OfKinds.ite {p : Prop} [Decidable p] (yes : OfKinds kinds ops) (no : OfKinds kinds rest) :
    OfKinds kinds (if p then ops else rest) := by
  split <;> assumption

/-- What sees operations of other kinds only sees nothing of a plan. -/
theorem OfKinds.filter_eq_nil {p : Operation → Bool} {seen : List Kind} (only : OfKinds kinds ops)
    (sees : ∀ op, p op → op.kind ∈ seen) (apart : ∀ kind ∈ seen, kind ∉ kinds) :
    ops.filter p = [] :=
  List.filter_eq_nil_iff.mpr fun op member hit => apart _ (sees op hit) (only op member)

end

variable (sha256 : Sha256)

/-! ### Plans for objects -/

theorem kinds_vpcOperations (vpc : VPC) : OfKinds [.router, .column] (vpcOperations sha256 vpc) := by
  simp [vpcOperations]

theorem kinds_logicalSwitchIPAMOperations (switch : String) (subnet : Subnet) :
    OfKinds [.column] (logicalSwitchIPAMOperations switch subnet) := by
  unfold logicalSwitchIPAMOperations
  refine OfKinds.ite ?_ (by simp)
  dsimp only
  split <;> simp

variable (subnet : Subnet)

theorem kinds_localnetOperations :
    OfKinds [.switchPort, .column] (localnetOperations sha256 subnet) := by
  unfold localnetOperations
  refine OfKinds.ite ?_ (by simp)
  split <;> simp

theorem kinds_subnetOperations :
    OfKinds [.switch, .routerPort, .switchPort, .column] (subnetOperations sha256 subnet) := by
  have ipam := kinds_logicalSwitchIPAMOperations (logicalSwitch sha256 subnet.vpc subnet.name) subnet
  have localnet := kinds_localnetOperations sha256 subnet
  simp only [subnetOperations, ofKinds_append, ofKinds_cons, ofKinds_nil, and_true]
  refine ⟨⟨⟨by simp, ?_⟩, ?_⟩, ?_⟩
  · exact fun op member => by have := ipam op member; simp_all
  · split <;> simp
  · exact fun op member => by have := localnet op member; simp_all

theorem kinds_dhcpOperations (endpoint : Endpoint) (family : Family) :
    OfKinds [.column] (dhcpOperations sha256 subnet endpoint family) := by
  unfold dhcpOperations
  refine OfKinds.ite ?_ (by simp)
  cases family <;> simp

theorem kinds_endpointOperations (known : Option Subnet) (endpoint : Endpoint) :
    OfKinds [.switchPort, .column, .dhcp] (endpointOperations sha256 known endpoint) := by
  have dhcp : ∀ subnet family, OfKinds [.switchPort, .column, .dhcp]
      (dhcpOperations sha256 subnet endpoint family) := fun subnet family op member => by
    have := kinds_dhcpOperations sha256 subnet endpoint family op member
    simp_all
  cases known with
  | none => simp [endpointOperations]
  | some subnet =>
    simp [endpointOperations, Operation.kind, gcDHCPOptionsOperation, dhcp]

theorem kinds_routeOperations (router : String) (route : Route) :
    OfKinds [.route] (routeOperations router route) := by
  unfold routeOperations
  refine OfKinds.ite (by simp) ?_
  split <;> simp

theorem kinds_routeTableOperations (table : RouteTable) :
    OfKinds [.route] (routeTableOperations sha256 table) := by
  simp [routeTableOperations, kinds_routeOperations]

theorem kinds_policyRouteOperations (route : PolicyRoute) :
    OfKinds [.policyRoute] (policyRouteOperations sha256 route) := by
  unfold policyRouteOperations
  refine OfKinds.ite ?_ (by simp)
  split <;> simp

theorem kinds_gatewayOperations (gateway : Gateway) :
    OfKinds [.column] (gatewayOperations sha256 gateway) := by
  unfold gatewayOperations
  rw [ofKinds_append]
  exact ⟨by simp, OfKinds.ite (by simp) (by simp)⟩

theorem kinds_natRuleOperations (rule : NATRule) :
    OfKinds [.natRule, .column] (natRuleOperations sha256 rule) := by
  have managed : OfKinds [.natRule, .column] (managedNATOperations sha256 rule) := by
    simp [managedNATOperations]
  unfold natRuleOperations
  split
  · simp [tagNATRuleOperation]
  · exact OfKinds.ite managed (by simp [tagNATRuleOperation])
  · exact OfKinds.ite managed (by simp [tagNATRuleOperation])
  · simp

theorem kinds_loadBalancerProtocolOperations (lb : LoadBalancer) (protocol : Protocol) :
    OfKinds [.loadBalancer, .column] (loadBalancerProtocolOperations sha256 lb protocol) := by
  simp only [loadBalancerProtocolOperations, ofKinds_append, ofKinds_map, ofKinds_cons]
  refine ⟨⟨⟨by simp, by simp⟩, ?_⟩, by simp⟩
  exact OfKinds.ite (by simp) (by simp)

@[simp] theorem kinds_clearHealthChecks (names : List String) :
    OfKinds [.column] (clearHealthChecks names) := by
  simp [clearHealthChecks]

/-! ### Plans of a cleanup -/

theorem kinds_staleEndpointOperations (old : DesiredSnapshot) (endpoint : Endpoint) :
    OfKinds [.switchPort, .column, .dhcp] (staleEndpointOperations sha256 old endpoint) := by
  unfold staleEndpointOperations
  rw [ofKinds_append]
  exact ⟨OfKinds.ite (by simp [gcDHCPOptionsOperation]) (by simp), by simp⟩

theorem kinds_staleSubnetOperations :
    OfKinds [.switchPort, .routerPort, .switch] (staleSubnetOperations sha256 subnet) := by
  simp [staleSubnetOperations]

theorem kinds_routeUpdateCleanupOperations (oldRecord nextRecord : RouteRecord) :
    OfKinds [.route] (routeUpdateCleanupOperations sha256 oldRecord nextRecord) := by
  have delete : OfKinds [.route] [deleteStaticRouteDestinationOperation sha256 oldRecord] := by
    simp [deleteStaticRouteDestinationOperation]
  have peers : ∀ hops : List String, OfKinds [.route]
      (hops.map (deleteStaticRouteNextHopOperation sha256 oldRecord)) := by
    simp [deleteStaticRouteNextHopOperation]
  unfold routeUpdateCleanupOperations
  exact OfKinds.ite (by simp) (OfKinds.ite delete (OfKinds.ite (OfKinds.ite (by simp) delete)
    (OfKinds.ite (OfKinds.ite (peers _) delete) (OfKinds.ite (by simp) (peers _)))))

theorem kinds_routeCleanupOperations (old next : DesiredSnapshot) :
    OfKinds [.route] (routeCleanupOperations sha256 old next) := by
  simp [routeCleanupOperations, kinds_routeUpdateCleanupOperations,
    deleteStaticRouteDestinationOperation]

theorem kinds_policyRouteUpdateCleanupOperations (oldRecord nextRecord : PolicyRouteRecord) :
    OfKinds [.policyRoute] (policyRouteUpdateCleanupOperations sha256 oldRecord nextRecord) := by
  unfold policyRouteUpdateCleanupOperations
  exact OfKinds.ite (by simp) (OfKinds.ite (by simp)
    (OfKinds.ite (by simp) (by simp [policyRouteDelete])))

theorem kinds_natDeleteOperations (rule : NATRule) :
    OfKinds [.natRule] (natDeleteOperations sha256 rule) := by
  unfold natDeleteOperations
  exact OfKinds.ite (by simp) (by simp)

theorem kinds_staleLoadBalancerOperations (lb : LoadBalancer) :
    OfKinds [.loadBalancer, .healthCheck, .column] (staleLoadBalancerOperations sha256 lb) := by
  simp [staleLoadBalancerOperations, clearHealthChecks]

theorem kinds_commonLoadBalancerOperations (oldLB nextLB : LoadBalancer) :
    OfKinds [.loadBalancer, .healthCheck, .column]
      (commonLoadBalancerOperations sha256 oldLB nextLB) := by
  simp only [commonLoadBalancerOperations, ofKinds_append, ofKinds_flatMap, ofKinds_map]
  refine ⟨⟨⟨⟨⟨⟨by simp [clearHealthChecks], ?_⟩, ?_⟩, by simp⟩, by simp⟩, by simp⟩, ?_⟩
  · exact OfKinds.ite (by simp) (by simp)
  · exact OfKinds.ite (by simp) (by simp)
  · exact fun name member => ⟨⟨OfKinds.ite (by simp) (by simp), by simp⟩, by simp⟩

theorem kinds_staleGatewayOperations (gateway : Gateway) :
    OfKinds [.column] (staleGatewayOperations sha256 gateway) := by
  simp [staleGatewayOperations]

/-- What sees routes, routers and health checks of a cleanup. -/
theorem filter_cleanupSections {p : Operation → Bool}
    (sees : ∀ op, p op → op.kind ∈ [.route, .router, .healthCheck]) (old next : DesiredSnapshot) :
    (cleanupOperations sha256 old next).filter p =
      (routeCleanupOperations sha256 old next).filter p ++
      ((staleValues old.loadBalancers next.loadBalancers).flatMap
        (staleLoadBalancerOperations sha256)).filter p ++
      ((commonValues old.loadBalancers next.loadBalancers).flatMap fun pair =>
        commonLoadBalancerOperations sha256 pair.1 pair.2).filter p ++
      ((staleKeys old.vpcs next.vpcs).map fun vpc =>
        Operation.lrDel (logicalRouter sha256 vpc)).filter p := by
  have none : ∀ {kinds : List Kind} {ops : List Operation}, OfKinds kinds ops →
      (∀ kind ∈ [Kind.route, .router, .healthCheck], kind ∉ kinds) → ops.filter p = [] :=
    fun only => only.filter_eq_nil sees
  simp only [cleanupOperations, List.filter_append]
  rw [none (ofKinds_flatMap.mpr fun endpoint _ => kinds_staleEndpointOperations sha256 old endpoint)
      (by decide),
    none (ofKinds_flatMap.mpr fun subnet _ => kinds_staleSubnetOperations sha256 subnet) (by decide),
    @none [.policyRoute] (List.map _ _) (by simp [policyRouteDelete]) (by decide),
    none (ofKinds_flatMap.mpr fun pair _ =>
      kinds_policyRouteUpdateCleanupOperations sha256 pair.1 pair.2) (by decide),
    none (ofKinds_flatMap.mpr fun rule _ => kinds_natDeleteOperations sha256 rule) (by decide),
    none (ofKinds_flatMap.mpr fun pair _ => OfKinds.ite ofKinds_nil
      (kinds_natDeleteOperations sha256 pair.1)) (by decide),
    none (ofKinds_flatMap.mpr fun gateway _ => kinds_staleGatewayOperations sha256 gateway)
      (by decide)]
  simp

end Netloom.Ovn
