import Netloom.Ovn.Dhcp
import Netloom.Ovn.Match
import Netloom.Ovn.Operation

/-!
# Planning operations

What the planner emits for each object. It remembers the subnets it has seen, for
the DHCP options of endpoints, and the last health check it planned for each load
balancer. The router of a VPC, which the source also keeps in a map, is a function
of the VPC.
-/
namespace Netloom.Ovn

open Model
open Netip (Addr Prefix)
open Strings (sortStrings)

structure Planner where
  subnets : AList fun _ : String => Subnet := ∅
  loadBalancerHealthChecks : StringMap := ∅

/-- The key of an object of a VPC. -/
def stateKey (vpc name : String) : String := vpc ++ "\x00" ++ name

def subnetStateKey : String → String → String := stateKey
def gatewayStateKey : String → String → String := stateKey
def natRuleStateKey : String → String → String := stateKey
def loadBalancerStateKey (lb : LoadBalancer) : String := stateKey lb.vpc lb.name
def policyRouteKey (route : PolicyRoute) : String := stateKey route.vpc route.name

/-- The pairs that mark a record as one of a VPC. -/
def ownerPairs (ids : List String) (vpc : String) : List String :=
  "external_ids:netloom_owner=netloom" :: ids ++ ["external_ids:netloom_vpc=" ++ vpc]

/-! ### Addresses that a switch keeps free -/

structure OvnIPv4Interval where
  start : BitVec 32
  stop : BitVec 32
  deriving DecidableEq, Repr

def OvnIPv4Interval.before (a b : OvnIPv4Interval) : Prop :=
  a.start < b.start ∨ a.start = b.start ∧ a.stop ≤ b.stop

instance : DecidableRel OvnIPv4Interval.before := fun a b =>
  inferInstanceAs (Decidable (a.start < b.start ∨ a.start = b.start ∧ a.stop ≤ b.stop))

/-- One pass over sorted intervals, joining those that touch. The addition wraps around. -/
def mergeFrom (current : OvnIPv4Interval) : List OvnIPv4Interval → List OvnIPv4Interval
  | [] => [current]
  | interval :: rest =>
    if interval.start ≤ current.stop + 1 then
      mergeFrom (if current.stop < interval.stop then { current with stop := interval.stop }
        else current) rest
    else current :: mergeFrom interval rest

def mergeIPv4Intervals (intervals : List OvnIPv4Interval) : List OvnIPv4Interval :=
  match intervals.insertionSort OvnIPv4Interval.before with
  | [] => []
  | first :: rest => mergeFrom first rest

def ipv4AddrUint32 (addr : Addr) : BitVec 32 :=
  match addr with
  | .v4 word => word
  | _ => 0

def ovnExcludeIPs (subnet : Subnet) : String :=
  if !subnet.cidr.addr.is4 then ""
  else
    let gateway := ipv4AddrUint32 subnet.gateway
    let excluded := (subnet.excludeCIDRs.map Prefix.masked).filter fun cidr => cidr.addr.is4
    let intervals := ⟨gateway, gateway⟩ :: excluded.map fun cidr =>
      (⟨ipv4AddrUint32 cidr.addr, ipv4AddrUint32 (prefixLastAddr cidr)⟩ : OvnIPv4Interval)
    " ".intercalate ((mergeIPv4Intervals intervals).map fun interval =>
      let start := (Addr.v4 interval.start).string
      if interval.start = interval.stop then start
      else start ++ ".." ++ (Addr.v4 interval.stop).string)

def logicalSwitchIPAMOperations (switch : String) (subnet : Subnet) : List Operation :=
  if subnet.cidr.addr.is4 then
    let excludeIPs := ovnExcludeIPs subnet
    [.set .logicalSwitch switch ["other_config:subnet=" ++ subnet.cidr.string],
      .remove .logicalSwitch switch "other_config" "ipv6_prefix",
      if excludeIPs = "" then .remove .logicalSwitch switch "other_config" "exclude_ips"
      else .set .logicalSwitch switch ["other_config:exclude_ips=" ++ ovnStringValue excludeIPs]]
  else
    [.remove .logicalSwitch switch "other_config" "subnet",
      .remove .logicalSwitch switch "other_config" "exclude_ips",
      .set .logicalSwitch switch
        ["other_config:ipv6_prefix=" ++ subnet.cidr.masked.addr.string]]

section

variable (sha256 : Sha256)

/-! ### VPCs and subnets -/

def vpcOperations (vpc : VPC) : List Operation :=
  [.lrAdd (logicalRouter sha256 vpc.name),
    .set .logicalRouter (logicalRouter sha256 vpc.name) (ownerPairs [] vpc.name)]

variable (subnet : Subnet)

def subnetNetwork : String :=
  subnet.gateway.string ++ "/" ++ toString subnet.cidr.bits

def localnetOperations : List Operation :=
  let switch := logicalSwitch sha256 subnet.vpc subnet.name
  let port := localnetPortName sha256 switch subnet.name
  if subnet.providerNetwork ≠ "" then
    [.lspDel port,
      .lspAddLocalnetPort switch port subnet.providerNetwork,
      .set .logicalSwitchPort port
        (ownerPairs ["external_ids:netloom_subnet=" ++ subnet.name] subnet.vpc ++
          ["external_ids:netloom_provider_network=" ++ subnet.providerNetwork]),
      if subnet.vlan ≠ 0 then .set .logicalSwitchPort port [s!"tag={subnet.vlan.toNat}"]
      else .clear .logicalSwitchPort port "tag"]
  else [.lspDel port]

def subnetOperations : List Operation :=
  let router := logicalRouter sha256 subnet.vpc
  let switch := logicalSwitch sha256 subnet.vpc subnet.name
  let routerPort := routerPortName sha256 router subnet.name
  let switchPort := switchRouterPortName sha256 switch subnet.name
  let routerMAC := deterministicMAC sha256 subnet
  let pairs := ownerPairs ["external_ids:netloom_subnet=" ++ subnet.name] subnet.vpc
  [.lsAdd switch,
    .set .logicalSwitch switch pairs,
    .lrpAdd router routerPort routerMAC (subnetNetwork subnet),
    .set .logicalRouterPort routerPort pairs,
    .lspAdd switch switchPort,
    .lspSetType switchPort "router",
    .lspSetAddresses switchPort routerMAC,
    .lspSetOptions switchPort ("router-port=" ++ routerPort),
    .set .logicalSwitchPort switchPort (pairs ++ ["external_ids:netloom_role=router"])] ++
  logicalSwitchIPAMOperations switch subnet ++
  [if subnet.dhcp.enabled && subnet.cidr.addr.is6 then
      .set .logicalRouterPort routerPort ["ipv6_ra_configs:address_mode=dhcpv6_stateful"]
    else .remove .logicalRouterPort routerPort "ipv6_ra_configs" "address_mode"] ++
  localnetOperations sha256 subnet

def Planner.ensureSubnet (planner : Planner) (subnet : Subnet) : Planner × List Operation :=
  ({ planner with
      subnets := planner.subnets.insert (subnetStateKey subnet.vpc subnet.name) subnet },
    subnetOperations sha256 subnet)

/-! ### Endpoints -/

def endpointAddress (endpoint : Endpoint) : String :=
  if endpoint.normalizedMAC ≠ "" then endpoint.normalizedMAC ++ " " ++ endpoint.ip.string
  else "dynamic " ++ endpoint.ip.string

def gcDHCPOptionsOperation (endpoint : Endpoint) : Operation :=
  .gcDHCPOptions (endpointExternalID endpoint.vpc endpoint.id) endpoint.vpc

def dhcpOptionsUUID (endpoint : Endpoint) (family : Family) : String :=
  namedUUID sha256 ((match family with | .v4 => "nl_dhcp_" | .v6 => "nl_dhcp6_") ++
    ovnSanitize endpoint.vpc ++ "_" ++ ovnSanitize endpoint.id)

def dhcpDNSServers (family : Family) : List String :=
  let servers := (subnet.dhcp.dnsServers.filter family.holds).map Addr.string
  if servers.isEmpty then [] else ["options:dns_server=" ++ ovnStringSetValues servers]

def dhcpv4DNSOptions : List String :=
  dhcpDNSServers subnet .v4 ++
    (if subnet.dhcp.domainName ≠ "" then ["options:domain_name=" ++ subnet.dhcp.domainName]
      else []) ++
    (if !subnet.dhcp.searchDomains.isEmpty then
      ["options:domain_search_list=" ++ ovnStringSetValues subnet.dhcp.searchDomains] else [])

def dhcpv6DNSOptions : List String :=
  dhcpDNSServers subnet .v6 ++
    (let domains := dhcpv6SearchDomains subnet.dhcp
    if !domains.isEmpty then ["options:domain_search=" ++ ",".intercalate domains] else [])

def dhcpExternalIDs (endpoint : Endpoint) : List String :=
  ownerPairs ["external_ids:netloom_subnet=" ++ subnet.name,
    "external_ids:netloom_endpoint=" ++ endpointExternalID endpoint.vpc endpoint.id] endpoint.vpc

def dhcpv4OptionsArgs (endpoint : Endpoint) : List String :=
  let leaseTime := if subnet.dhcp.leaseTime = 0 then 3600 else subnet.dhcp.leaseTime.toNat
  ["DHCP_Options",
    "cidr=" ++ subnet.cidr.string,
    "options:server_id=" ++ subnet.gateway.string,
    "options:server_mac=" ++ deterministicMAC sha256 subnet,
    "options:router=" ++ subnet.gateway.string,
    s!"options:lease_time={leaseTime}"] ++
  dhcpExternalIDs subnet endpoint ++
  (if subnet.dhcp.mtu ≠ 0 then [s!"options:mtu={subnet.dhcp.mtu.toNat}"] else []) ++
  dhcpv4DNSOptions subnet

def dhcpv6OptionsArgs (endpoint : Endpoint) : List String :=
  ["DHCP_Options",
    "cidr=" ++ ovnStringValue subnet.cidr.string,
    "options:server_id=" ++ deterministicMAC sha256 subnet] ++
  dhcpExternalIDs subnet endpoint ++
  dhcpv6DNSOptions subnet

/-- The options of an endpoint in one family. -/
def dhcpOperations (subnet : Subnet) (endpoint : Endpoint) (family : Family) : List Operation :=
  let port := logicalPort sha256 endpoint.vpc endpoint.id
  let id := dhcpOptionsUUID sha256 endpoint family
  if subnet.dhcp.enabled && family.holds endpoint.ip then
    match family with
    | .v4 => [.create id (dhcpv4OptionsArgs sha256 subnet endpoint),
        .set .logicalSwitchPort port ["dhcpv4_options=" ++ id]]
    | .v6 => [.create id (dhcpv6OptionsArgs sha256 subnet endpoint),
        .set .logicalSwitchPort port ["dhcpv6_options=" ++ id]]
  else []

/-- The operations for an endpoint whose subnet the planner may know. -/
def endpointOperations (known : Option Subnet) (endpoint : Endpoint) : List Operation :=
  let port := logicalPort sha256 endpoint.vpc endpoint.id
  [.lspAdd (logicalSwitch sha256 endpoint.vpc endpoint.subnet) port,
    .lspSetAddresses port (endpointAddress endpoint),
    .set .logicalSwitchPort port
      (ownerPairs ["external_ids:netloom_endpoint=" ++
          endpointExternalID endpoint.vpc endpoint.id,
        "external_ids:netloom_node=" ++ endpoint.node] endpoint.vpc ++
        ["external_ids:netloom_subnet=" ++ endpoint.subnet]),
    .lspSetDHCPv4Options port,
    .lspSetDHCPv6Options port] ++
  (if known.isSome then [gcDHCPOptionsOperation endpoint] else []) ++
  [.lspSetPortSecurity port
    (if endpoint.normalizedMAC ≠ "" then [endpointAddress endpoint] else [])] ++
  match known with
  | none => []
  | some subnet =>
    dhcpOperations sha256 subnet endpoint .v4 ++ dhcpOperations sha256 subnet endpoint .v6

def Planner.ensureEndpoint (planner : Planner) (endpoint : Endpoint) : List Operation :=
  endpointOperations sha256
    (planner.subnets.lookup (subnetStateKey endpoint.vpc endpoint.subnet)) endpoint

/-! ### Routes -/

def routeOperations (router : String) (route : Route) : List Operation :=
  if route.blackhole then [.lrRouteAdd false router route.destination.string "discard"]
  else match route.nextHops with
    | [nextHop] => [.lrRouteAdd false router route.destination.string nextHop.string]
    | nextHops => nextHops.map fun nextHop =>
        .lrRouteAdd true router route.destination.string nextHop.string

def routeTableOperations (table : RouteTable) : List Operation :=
  table.routes.flatMap (routeOperations (logicalRouter sha256 table.vpc))

/-- The addresses of next hops, sorted and written as a set. -/
def nextHopSet (nextHops : List Addr) : String := ovnStringSetValues (nextHops.map Addr.string)

def policyRouteOperations (route : PolicyRoute) : List Operation :=
  let router := logicalRouter sha256 route.vpc
  let priority := toString route.priority
  let «match» := policyRouteMatch route.match
  if route.action.type = .reroute then
    match route.action.nextHops with
    | [nextHop] =>
      [.lrPolicyAdd router priority «match» "reroute" (some nextHop.string),
        .tagPolicyRoute route.vpc route.name priority «match»,
        .syncPolicyRouteNexthop route.vpc route.name priority «match» nextHop.string]
    | nextHops =>
      [.ensurePolicyRouteNexthops route.vpc route.name priority «match» (nextHopSet nextHops)]
  else
    let action := if route.action.type = .reject then .drop else route.action.type
    [.lrPolicyAdd router priority «match» action.text none,
      .tagPolicyRoute route.vpc route.name priority «match»]

/-! ### Gateways -/

def gatewayOperations (gateway : Gateway) : List Operation :=
  let router := logicalRouter sha256 gateway.vpc
  [.set .logicalRouter router
    (["external_ids:netloom_gateway=" ++ gateway.name,
      "external_ids:netloom_gateway_lan_ip=" ++ gateway.lanIP.string,
      s!"external_ids:netloom_gateway_distributed={gateway.distributed}"] ++
    (if !gateway.distributed then ["options:chassis=" ++ gateway.node] else []) ++
    (if gateway.externalIF ≠ "" then
      ["external_ids:netloom_external_if=" ++ gateway.externalIF] else []) ++
    ["external_ids:netloom_owner=netloom"])] ++
  if gateway.distributed then [.remove .logicalRouter router "options" "chassis"] else []

/-! ### NAT rules -/

def natType (action : Action) : String := action.text

def natUsesManagedRecord (rule : NATRule) : Bool :=
  (rule.type = .dnat || rule.type = .dnatAndSnat) && rule.externalPort ≠ 0 && rule.targetPort ≠ 0

def natTagLogicalIP (rule : NATRule) : String :=
  if rule.type = .snat then rule.matchCIDR.string else rule.targetIP.string

def tagNATRuleOperation (rule : NATRule) : Operation :=
  .tagNATRule rule.name rule.vpc (natType rule.type) rule.externalIP.string (natTagLogicalIP rule)

def natPortTranslationArgs (rule : NATRule) : List String :=
  ["NAT",
    "type=" ++ natType rule.type,
    "external_ip=" ++ rule.externalIP.string,
    "logical_ip=" ++ rule.targetIP.string,
    s!"external_port_range={rule.externalPort.toNat}",
    s!"logical_port_range={rule.targetPort.toNat}",
    "protocol=" ++ rule.protocol.text] ++
  ownerPairs ["external_ids:netloom_nat=" ++ rule.name] rule.vpc ++
  if rule.type = .dnatAndSnat ∧ rule.logicalPort ≠ "" then
    ["logical_port=" ++ rule.logicalPort, "external_mac=" ++ rule.externalMAC]
  else []

/-- A rule with ports is a record of its own. -/
def managedNATOperations (rule : NATRule) : List Operation :=
  [.gcNATRule rule.name rule.vpc,
    .create (natRuleNamedUUID sha256 rule) (natPortTranslationArgs rule),
    .add .logicalRouter (logicalRouter sha256 rule.vpc) "nat" (natRuleNamedUUID sha256 rule)]

def natRuleOperations (rule : NATRule) : List Operation :=
  let router := logicalRouter sha256 rule.vpc
  match rule.type with
  | .snat =>
    [.lrNatAdd router "snat" rule.externalIP.string rule.matchCIDR.string [] false,
      tagNATRuleOperation rule]
  | .dnat =>
    if natUsesManagedRecord rule then managedNATOperations sha256 rule
    else
      [.lrNatAdd router "dnat" rule.externalIP.string rule.targetIP.string
          (if rule.externalPort ≠ 0 then [toString rule.externalPort.toNat] else [])
          (rule.externalPort ≠ 0),
        tagNATRuleOperation rule]
  | .dnatAndSnat =>
    if natUsesManagedRecord rule then managedNATOperations sha256 rule
    else
      [.lrNatAdd router "dnat_and_snat" rule.externalIP.string rule.targetIP.string
          (if rule.logicalPort ≠ "" then [rule.logicalPort, rule.externalMAC] else []) false,
        tagNATRuleOperation rule]
  | _ => []

/-! ### Load balancers -/

def loadBalancerFrontendVIP (frontend : LoadBalancerFrontend) : String :=
  addrPortString frontend.vip frontend.port

def loadBalancerFrontendBackends (frontend : LoadBalancerFrontend) : String :=
  ",".intercalate (sortStrings ((frontend.backends.filter LoadBalancerBackend.isHealthy).map
    fun backend => addrPortString backend.ip backend.port))

variable (lb : LoadBalancer)

/-- The frontends of one protocol, in the order of the load balancer. -/
def frontendsOf (protocol : Protocol) : List LoadBalancerFrontend :=
  lb.frontends.filter fun frontend => frontend.protocol = protocol

/-- The protocols of the frontends, each once and sorted by their texts. -/
def sortedLoadBalancerProtocols : List Protocol :=
  (Fold.dedupeBy id (lb.frontends.map LoadBalancerFrontend.protocol)).insertionSort
    fun a b => a.text ≤ b.text

def loadBalancerProtocolNames : List String :=
  (sortedLoadBalancerProtocols lb).map (loadBalancerProtocolName sha256 lb.vpc lb.name)

def loadBalancerOptions : List String :=
  ["external_ids:netloom_owner=netloom",
    "external_ids:netloom_load_balancer=" ++ lb.name,
    "external_ids:netloom_vpc=" ++ lb.vpc,
    "selection_fields=" ++ ovnStringSetValues lb.effectiveSelectionFields] ++
  if lb.sessionAffinity then
    let timeout := if lb.affinityTimeout = 0 then 10800 else lb.affinityTimeout.toNat
    [s!"options:affinity_timeout={timeout}", "external_ids:netloom_session_affinity=true"]
  else ["external_ids:netloom_session_affinity=false"]

def loadBalancerProtocolOperations (protocol : Protocol) : List Operation :=
  let name := loadBalancerProtocolName sha256 lb.vpc lb.name protocol
  ((frontendsOf lb protocol).map fun frontend =>
    .lbAdd name (loadBalancerFrontendVIP frontend) (loadBalancerFrontendBackends frontend)
      frontend.protocol.text) ++
  [.set .loadBalancer name (loadBalancerOptions lb), .lrLbAdd (logicalRouter sha256 lb.vpc) name] ++
  (if !lb.sessionAffinity then [.remove .loadBalancer name "options" "affinity_timeout"] else []) ++
  lb.subnets.map fun subnet => .lsLbAdd (logicalSwitch sha256 lb.vpc subnet) name

/-! ### Health checks of load balancers -/

/-- A number of the health check, or its default. -/
def orDefault (value : BitVec 32) (default : Nat) : Nat := if value = 0 then default else value.toNat

/-- The columns of a health check after its address. -/
def loadBalancerHealthCheckColumns (lb : LoadBalancer) : List String :=
  [s!"options:interval={orDefault lb.healthCheck.interval 5}",
    s!"options:timeout={orDefault lb.healthCheck.timeout 20}",
    s!"options:success_count={orDefault lb.healthCheck.successCount 3}",
    s!"options:failure_count={orDefault lb.healthCheck.failureCount 3}"] ++
  ownerPairs ["external_ids:netloom_load_balancer=" ++ lb.name] lb.vpc

def loadBalancerHealthCheckArgs (lb : LoadBalancer) (frontend : LoadBalancerFrontend) :
    List String :=
  ["Load_Balancer_Health_Check", "vip=" ++ ovnStringValue (loadBalancerFrontendVIP frontend)] ++
    loadBalancerHealthCheckColumns lb

variable (planner : Planner) (lb : LoadBalancer)

def loadBalancerHealthCheckSignature : String :=
  if !lb.healthCheck.enabled then "disabled"
  else "||".intercalate (sortStrings ((frontendsOf lb .tcp).map fun frontend =>
    "|".intercalate (loadBalancerHealthCheckArgs lb frontend)))

/-- The operations that detach the health checks of a load balancer's records. -/
def clearHealthChecks (names : List String) : List Operation :=
  names.map fun name => .clear .loadBalancer name "health_check"

def ensureHealthChecks : List Operation :=
  (frontendsOf lb .tcp).map fun frontend =>
    .ensureLoadBalancerHealthCheck (loadBalancerProtocolName sha256 lb.vpc lb.name .tcp) lb.name
      lb.vpc (loadBalancerFrontendVIP frontend) (loadBalancerHealthCheckColumns lb)

/-- A health check is planned again only if its signature has changed. -/
def Planner.loadBalancerHealthCheckOperations : Planner × List Operation :=
  let names := loadBalancerProtocolNames sha256 lb
  let key := loadBalancerStateKey lb
  let signature := loadBalancerHealthCheckSignature lb
  if !lb.healthCheck.enabled then
    ({ planner with loadBalancerHealthChecks := planner.loadBalancerHealthChecks.erase key },
      clearHealthChecks names ++ [.gcLoadBalancerHealthChecks lb.name lb.vpc])
  else if valueAt planner.loadBalancerHealthChecks key = signature then (planner, [])
  else
    ({ planner with
        loadBalancerHealthChecks := planner.loadBalancerHealthChecks.insert key signature },
      clearHealthChecks names ++ ensureHealthChecks sha256 lb ++
        [.gcStaleLoadBalancerHealthChecks lb.name lb.vpc
          ((frontendsOf lb .tcp).map loadBalancerFrontendVIP)])

def Planner.ensureLoadBalancer : Planner × List Operation :=
  let (planner, checks) := planner.loadBalancerHealthCheckOperations sha256 lb
  (planner,
    (sortedLoadBalancerProtocols lb).flatMap (loadBalancerProtocolOperations sha256 lb) ++ checks)

/-- Forgets the health checks of load balancers that are no longer there. -/
def Planner.syncLoadBalancerHealthChecks
    (loadBalancers : AList fun _ : String => LoadBalancer) : Planner :=
  { planner with
    loadBalancerHealthChecks := Fold.keep (fun key _ => (loadBalancers.lookup key).isSome)
      planner.loadBalancerHealthChecks }

end

end Netloom.Ovn
