import Netloom.Model.Routing

/-!
# The controller's checks of a desired state

`validateState` is what a state has to pass before the controller touches a
backend: every object on its own, its references, and the conflicts between
objects. Where the source keeps the objects it has seen in maps, the checks
below look them up in the list of those before.
-/
namespace Netloom.Control

open Model

structure DesiredState where
  vpcs : List VPC := []
  /-- The names of the provider networks. -/
  providerNetworks : List String := []
  subnets : List Subnet := []
  endpoints : List Endpoint := []
  routeTables : List RouteTable := []
  policyRoutes : List PolicyRoute := []
  natRules : List NATRule := []
  gateways : List Gateway := []
  loadBalancers : List LoadBalancer := []
  securityGroups : List SecurityGroup := []
  cidrGroups : List CIDRGroup := []
  dnsRecords : List DNSRecord := []
  /-- The outcome of the agent's checks of the policy rollouts. -/
  rolloutChecks : Except String Unit := .ok ()
  /-- The outcome of the controller's checks of provider networks with their queues and
  quotas, of identity groups and of policy rollouts. -/
  providerChecks : Except String Unit := .ok ()

open Strings
open Netip (Addr Prefix)
open Checked (require checkIf absent context distinct growing)

/-! ### Keys -/

variable (subnets : List Subnet) (vpc : String)

/-- The text under which an object of a VPC is stored. -/
def objectKey (name : String) : String := vpc ++ "\x00" ++ name

def securityGroupKey : String → String → String := objectKey
def cidrGroupKey : String → String → String := objectKey
def loadBalancerKey : String → String → String := objectKey
def natRuleKey : String → String → String := objectKey
def routeTableKey : String → String → String := objectKey
def subnetKey : String → String → String := objectKey
def gatewayKey : String → String → String := objectKey

/-! ### Prefixes and subnets -/

def prefixesOverlap (left right : Prefix) : Bool :=
  left.masked.isValid && right.masked.isValid && left.masked.addr.is4 == right.masked.addr.is4 &&
    (left.masked.contains right.masked.addr || right.masked.contains left.masked.addr)

def subnetExcludes (subnet : Subnet) (ip : Addr) : Bool :=
  subnet.excludeCIDRs.any fun exclude => exclude.contains ip

def subnetContainingAddress (ip : Addr) : Option Subnet :=
  subnets.find? fun subnet => subnet.vpc = vpc && subnet.cidr.contains ip

def prefixLastAddress (cidr : Prefix) : Addr := prefixLastAddr cidr.masked

def subnetContainingPrefix (cidr : Prefix) : Option Subnet :=
  subnets.find? fun subnet => subnet.vpc = vpc && subnet.cidr.contains cidr.masked.addr &&
    subnet.cidr.contains (prefixLastAddress cidr)

def validateAddressOutsideVPCSubnets (ip : Addr) (subject : String) : Except String Unit :=
  absent (fun subnet => s!"{subject} is inside subnet {quote subnet.name} in vpc {quote vpc}")
    (subnetContainingAddress subnets vpc ip)

variable (subnets : List Subnet) (vpc : String)

def validateAddressInVPCSubnets (ip : Addr) (subject : String) : Except String Unit :=
  match subnetContainingAddress subnets vpc ip with
  | none => .error s!"{subject} is outside vpc {quote vpc} subnets"
  | some subnet =>
    require (!subnetExcludes subnet ip) s!"{subject} is excluded by subnet {quote subnet.name}"

def prefixOverlapsSubnetExclude (subnet : Subnet) (cidr : Prefix) : Option Prefix :=
  (subnet.excludeCIDRs.map Prefix.masked).find? fun exclude => prefixesOverlap cidr.masked exclude

def validatePrefixInVPCSubnets (cidr : Prefix) (subject : String) : Except String Unit :=
  match subnetContainingPrefix subnets vpc cidr with
  | none => .error s!"{subject} is outside vpc {quote vpc} subnets"
  | some subnet =>
    absent (fun exclude => s!"{subject} overlaps excluded cidr {exclude.string} in " ++
        s!"subnet {quote subnet.name}")
      (prefixOverlapsSubnetExclude subnet cidr)

def findSubnet (name : String) : Option Subnet :=
  subnets.find? fun subnet => subnetKey subnet.vpc subnet.name = subnetKey vpc name

def knownVPC (vpcs : List VPC) (name : String) : Bool := vpcs.any fun vpc => vpc.name = name

def validateVPCs (vpcs : List VPC) : Except String Unit :=
  distinct (fun _ vpc => vpc.validate) VPC.name
    (fun _ vpc => s!"duplicate vpc name {quote vpc.name}") vpcs

def validateSubnet (state : DesiredState) (seen : List Subnet) (subnet : Subnet) :
    Except String Unit := do
  subnet.validate
  require (findSubnet seen subnet.vpc subnet.name).isNone
    s!"duplicate subnet name {quote subnet.name} in vpc {quote subnet.vpc}"
  require (knownVPC state.vpcs subnet.vpc)
    s!"subnet {quote subnet.name} references unknown vpc {quote subnet.vpc}"
  require (subnet.providerNetwork = "" || state.providerNetworks.contains subnet.providerNetwork)
    (s!"subnet {quote subnet.name} references unknown provider network " ++
      quote subnet.providerNetwork)
  forM seen fun existing =>
    require (!(existing.vpc = subnet.vpc && prefixesOverlap existing.cidr subnet.cidr))
      (s!"subnet {quote subnet.name} cidr {subnet.cidr.string} overlaps with subnet " ++
        s!"{quote existing.name} cidr {existing.cidr.string} in vpc {quote subnet.vpc}")

/-! ### Load balancers, CIDR groups and security groups -/

def validateLoadBalancerSubnet (lb : LoadBalancer) (name : String) : Except String Unit :=
  match findSubnet subnets lb.vpc name with
  | none => .error s!"load balancer {quote lb.name} references unknown subnet {quote name}"
  | some subnet => require (subnet.vpc = lb.vpc)
      (s!"load balancer {quote lb.name} references subnet {quote name} in vpc " ++
        s!"{quote subnet.vpc}, want {quote lb.vpc}")

variable (state : DesiredState)

def validateLoadBalancerReferences (seen : List LoadBalancer)
    (lb : LoadBalancer) : Except String Unit := do
  lb.validate
  require (!seen.any fun old => loadBalancerKey old.vpc old.name = loadBalancerKey lb.vpc lb.name)
    s!"duplicate load balancer name {quote lb.name} in vpc {quote lb.vpc}"
  require (knownVPC state.vpcs lb.vpc)
    s!"load balancer {quote lb.name} references unknown vpc {quote lb.vpc}"
  forM lb.subnets (validateLoadBalancerSubnet state.subnets lb)
  forM lb.frontends fun frontend => do
    validateAddressOutsideVPCSubnets state.subnets lb.vpc frontend.vip
      s!"load balancer {quote lb.name} vip {frontend.vip.string}"
    forM frontend.backends fun backend =>
      validateAddressInVPCSubnets state.subnets lb.vpc backend.ip
        s!"load balancer {quote lb.name} backend {addrPortString backend.ip backend.port}"

def validateCIDRGroup (seen : List CIDRGroup) (group : CIDRGroup) : Except String Unit := do
  group.validate
  require (!seen.any fun old => cidrGroupKey old.vpc old.name = cidrGroupKey group.vpc group.name)
    s!"duplicate cidr group name {quote group.name} in vpc {quote group.vpc}"
  require (knownVPC state.vpcs group.vpc)
    s!"cidr group {quote group.name} references unknown vpc {quote group.vpc}"

def findSecurityGroup (groups : List SecurityGroup) (vpc name : String) : Option SecurityGroup :=
  groups.find? fun group => securityGroupKey group.vpc group.name = securityGroupKey vpc name

def validateSecurityGroup (seen : List SecurityGroup)
    (group : SecurityGroup) : Except String Unit := do
  group.validate
  require (findSecurityGroup seen group.vpc group.name).isNone
    s!"duplicate security group name {quote group.name} in vpc {quote group.vpc}"
  require (knownVPC state.vpcs group.vpc)
    s!"security group {quote group.name} references unknown vpc {quote group.vpc}"

def effectiveProtocol (protocol : Protocol) : Protocol :=
  if protocol = .unset then .any else protocol

def loadBalancerHasMatchingFrontendProtocol (lb : LoadBalancer) (protocol : Protocol) : Bool :=
  lb.frontends.any fun frontend =>
    effectiveProtocol protocol = .any || frontend.protocol = effectiveProtocol protocol

def portRangesContain (ranges : List PortRange) (port : BitVec 16) : Bool :=
  ranges.any fun range => range.fromPort ≤ port && port ≤ range.toPort

def loadBalancerHasMatchingFrontendPort (lb : LoadBalancer) (protocol : Protocol)
    (ports : List PortRange) : Bool :=
  lb.frontends.any fun frontend =>
    (effectiveProtocol protocol = .any || frontend.protocol = effectiveProtocol protocol) &&
      portRangesContain ports frontend.port

def portRangesKey (ranges : List PortRange) : String :=
  ",".intercalate (ranges.map fun range => s!"{range.fromPort.toNat}-{range.toPort.toNat}")

def validateRemoteService (group : SecurityGroup) (rule : SecurityGroupRule) : Except String Unit :=
  match state.loadBalancers.find? fun lb =>
      loadBalancerKey lb.vpc lb.name = loadBalancerKey group.vpc rule.remoteService with
  | none => .error (s!"security group rule {quote rule.id} references unknown remote service " ++
      quote rule.remoteService)
  | some service => do
    require (loadBalancerHasMatchingFrontendProtocol service rule.protocol)
      (s!"security group rule {quote rule.id} references remote service " ++
        s!"{quote rule.remoteService} without matching " ++
        s!"{(effectiveProtocol rule.protocol).text} frontend")
    require (rule.ports.isEmpty ||
        loadBalancerHasMatchingFrontendPort service rule.protocol rule.ports)
      (s!"security group rule {quote rule.id} references remote service " ++
        s!"{quote rule.remoteService} without matching " ++
        s!"{(effectiveProtocol rule.protocol).text} frontend port {portRangesKey rule.ports}")

def validateRuleReferences (group : SecurityGroup)
    (rule : SecurityGroupRule) : Except String Unit := do
  checkIf (rule.remoteGroup ≠ "")
    (require (findSecurityGroup state.securityGroups group.vpc rule.remoteGroup).isSome
      (s!"security group rule {quote rule.id} references unknown remote group " ++
        quote rule.remoteGroup))
  checkIf (rule.remoteCIDRGroup ≠ "")
    (require (state.cidrGroups.any fun cidrGroup => cidrGroupKey cidrGroup.vpc cidrGroup.name =
        cidrGroupKey group.vpc rule.remoteCIDRGroup)
      (s!"security group rule {quote rule.id} references unknown remote cidr group " ++
        quote rule.remoteCIDRGroup))
  checkIf (rule.remoteService ≠ "") (validateRemoteService state group rule)

/-! ### Endpoints -/

def ipKey (vpc : String) (ip : Addr) : String := vpc ++ "|" ++ ip.string

def macKey (endpoint : Endpoint) : String :=
  subnetKey endpoint.vpc endpoint.subnet ++ "|" ++ endpoint.normalizedMAC

def findEndpointByIPKey (endpoints : List Endpoint) (vpc : String) (ip : Addr) : Option Endpoint :=
  endpoints.find? fun endpoint => ipKey endpoint.vpc endpoint.ip = ipKey vpc ip

variable (sha256 : Sha256)

def validateEndpointMAC (seen : List Endpoint) (subnet : Subnet)
    (endpoint : Endpoint) : Except String Unit :=
  checkIf (endpoint.normalizedMAC ≠ "") do
    require (endpoint.normalizedMAC ≠ subnetGatewayMAC sha256 subnet.vpc subnet.name subnet.gateway)
      (s!"endpoint {quote endpoint.id} mac {endpoint.normalizedMAC} conflicts with subnet " ++
        s!"{quote endpoint.subnet} gateway mac")
    absent (fun previous => s!"endpoint {quote endpoint.id} conflicts with {quote previous.id} " ++
        s!"on mac {endpoint.normalizedMAC} in subnet {endpoint.subnet}")
      (seen.find? fun old => old.normalizedMAC ≠ "" && macKey old = macKey endpoint)

def validateEndpointSubnet (subnets : List Subnet) (seen : List Endpoint)
    (endpoint : Endpoint) : Except String Unit :=
  match findSubnet subnets endpoint.vpc endpoint.subnet with
  | none => .error
      s!"endpoint {quote endpoint.id} references unknown subnet {quote endpoint.subnet}"
  | some subnet => do
    require (subnet.vpc = endpoint.vpc)
      (s!"endpoint {quote endpoint.id} references subnet {quote endpoint.subnet} in vpc " ++
        s!"{quote subnet.vpc}, want {quote endpoint.vpc}")
    require (subnet.cidr.contains endpoint.ip)
      (s!"endpoint {quote endpoint.id} ip {endpoint.ip.string} is outside subnet " ++
        s!"{quote endpoint.subnet} cidr {subnet.cidr.string}")
    require (!subnetExcludes subnet endpoint.ip)
      (s!"endpoint {quote endpoint.id} ip {endpoint.ip.string} is excluded by subnet " ++
        quote endpoint.subnet)
    require (endpoint.ip ≠ subnet.gateway)
      (s!"endpoint {quote endpoint.id} ip {endpoint.ip.string} conflicts with subnet " ++
        s!"{quote endpoint.subnet} gateway ip")
    validateEndpointMAC sha256 seen subnet endpoint

def validateEndpoint (state : DesiredState) (seen : List Endpoint)
    (endpoint : Endpoint) : Except String Unit := do
  endpoint.validate
  require (!seen.any fun old =>
      endpointKey old.vpc old.id = endpointKey endpoint.vpc endpoint.id)
    s!"duplicate endpoint id {quote endpoint.id} in vpc {quote endpoint.vpc}"
  require (knownVPC state.vpcs endpoint.vpc)
    s!"endpoint {quote endpoint.id} references unknown vpc {quote endpoint.vpc}"
  validateEndpointSubnet sha256 state.subnets seen endpoint
  forM endpoint.securityGroups fun name =>
    require (findSecurityGroup state.securityGroups endpoint.vpc name).isSome
      s!"endpoint {quote endpoint.id} references unknown security group {quote name}"
  absent (fun previous => s!"endpoint {quote endpoint.id} conflicts with {quote previous.id} " ++
      s!"on ip {endpoint.ip.string} in vpc {endpoint.vpc}")
    (findEndpointByIPKey seen endpoint.vpc endpoint.ip)

def endpointDefinesNamedPort (endpoint : Endpoint) (protocol : Protocol) (name : String) : Bool :=
  endpoint.namedPorts.any fun port => port.protocol = protocol && port.name = name

def validateEndpointNamedPorts (rule : SecurityGroupRule) (endpoint : Endpoint) :
    Except String Unit :=
  forM rule.namedPorts fun name =>
    require (endpointDefinesNamedPort endpoint rule.protocol name)
      (s!"security group rule {quote rule.id} named port {rule.protocol.text}/{name} is not " ++
        s!"defined on endpoint {quote endpoint.id}")

/-- The endpoints whose named ports an egress rule of the endpoint refers to. -/
def egressNamedPortMembers (rule : SecurityGroupRule) (endpoint : Endpoint)
    (endpoints : List Endpoint) : Except String (List Endpoint) :=
  let others := endpoints.filter fun candidate =>
    candidate.id ≠ endpoint.id && candidate.vpc = endpoint.vpc
  if rule.remoteGroup ≠ "" then
    .ok (others.filter fun candidate => candidate.securityGroups.contains rule.remoteGroup)
  else if hasRemoteEndpointSelector rule then
    .ok (others.filter fun candidate =>
      Labels.matchesSelector candidate.labels rule.remoteEndpointSelector rule.remoteEndpointExprs)
  else .error (s!"security group rule {quote rule.id} named ports require remote_group or " ++
    "remote_endpoint_selector for egress rules")

def validateRuleNamedPorts (endpoints : List Endpoint) (endpoint : Endpoint)
    (rule : SecurityGroupRule) : Except String Unit :=
  checkIf (!rule.namedPorts.isEmpty) (match rule.direction with
    | .ingress => validateEndpointNamedPorts rule endpoint
    | .egress => do
      let members ← egressNamedPortMembers rule endpoint endpoints
      forM members fun member =>
        context (fun err =>
            s!"security group rule {quote rule.id} remote endpoint {quote member.id}: {err}")
          (validateEndpointNamedPorts rule member)
    | .other _ => .ok ())

/-- The rules of the groups an endpoint is in. -/
def attachedRules (state : DesiredState) (endpoint : Endpoint) : List SecurityGroupRule :=
  endpoint.securityGroups.flatMap fun name =>
    (findSecurityGroup state.securityGroups endpoint.vpc name).elim [] SecurityGroup.rules

def validateSecurityGroupNamedPortReferences (state : DesiredState) : Except String Unit :=
  forM state.endpoints fun endpoint =>
    forM (attachedRules state endpoint) (validateRuleNamedPorts state.endpoints endpoint)

def validateRemoteEntity (state : DesiredState) (endpoint : Endpoint) (rule : SecurityGroupRule)
    (entity : String) : Except String Unit :=
  let nodes := (state.gateways.filter fun gateway => gateway.vpc = endpoint.vpc).map Gateway.node
  match entity with
  | "cluster" | "world" | "world-ipv4" | "world-ipv6" =>
    require (state.subnets.any fun subnet => subnet.vpc = endpoint.vpc)
      (s!"security group rule {quote rule.id} remote entity {entity} requires at least one subnet " ++
        s!"in vpc {quote endpoint.vpc}")
  | "host" =>
    require (!nodes.isEmpty)
      (s!"security group rule {quote rule.id} remote entity host requires at least one gateway " ++
        s!"in vpc {quote endpoint.vpc}")
  | "remote-node" =>
    require (nodes.any fun node => node ≠ endpoint.node)
      (s!"security group rule {quote rule.id} remote entity remote-node requires at least one " ++
        s!"gateway on a different node in vpc {quote endpoint.vpc}")
  | _ => .ok ()

def validateSecurityGroupRemoteEntities (state : DesiredState) : Except String Unit :=
  forM state.endpoints fun endpoint =>
    forM (attachedRules state endpoint) fun rule =>
      forM rule.remoteEntities (validateRemoteEntity state endpoint rule)

/-! ### Gateways, routes and NAT rules -/

def validateGateway (state : DesiredState) (seen : List Gateway) (gateway : Gateway) :
    Except String Unit := do
  gateway.validate
  require (!seen.any fun old =>
      gatewayKey old.vpc old.name = gatewayKey gateway.vpc gateway.name)
    s!"duplicate gateway name {quote gateway.name} in vpc {quote gateway.vpc}"
  require (knownVPC state.vpcs gateway.vpc)
    s!"gateway {quote gateway.name} references unknown vpc {quote gateway.vpc}"
  validateAddressInVPCSubnets state.subnets gateway.vpc gateway.lanIP
    s!"gateway {quote gateway.name} lan ip {gateway.lanIP.string}"
  absent (fun subnet => s!"gateway {quote gateway.name} lan ip {gateway.lanIP.string} conflicts " ++
      s!"with subnet {quote subnet.name} gateway ip")
    ((subnetContainingAddress state.subnets gateway.vpc gateway.lanIP).filter fun subnet =>
      gateway.lanIP = subnet.gateway)
  absent (fun previous => s!"gateway {quote gateway.name} lan ip {gateway.lanIP.string} " ++
      s!"conflicts with endpoint {quote previous.id} in vpc {gateway.vpc}")
    (findEndpointByIPKey state.endpoints gateway.vpc gateway.lanIP)
  absent (fun previous => s!"gateway {quote gateway.name} conflicts with " ++
      s!"{quote previous.name} on lan ip {gateway.lanIP.string} in vpc {gateway.vpc}")
    (seen.find? fun old => ipKey old.vpc old.lanIP = ipKey gateway.vpc gateway.lanIP)
  absent (fun previous => s!"gateway {quote gateway.name} conflicts with " ++
      s!"{quote previous.name} on external_if {gateway.externalIF} on node {gateway.node}")
    (seen.find? fun old =>
      old.node ++ "|" ++ old.externalIF = gateway.node ++ "|" ++ gateway.externalIF)

def validateRouteReferences (state : DesiredState) (table : RouteTable)
    (route : Route) : Except String Unit :=
  checkIf (!route.blackhole) do
    forM route.nextHops fun nextHop =>
      validateAddressInVPCSubnets state.subnets table.vpc nextHop
        s!"route table {quote table.name} next hop {nextHop.string}"
    checkIf route.bfd.enabled
      (require (state.subnets.any fun subnet => subnet.vpc = table.vpc &&
          ovnLogicalRouterPortName sha256 subnet.vpc subnet.name = trimSpace route.bfd.logicalPort)
        (s!"route table {quote table.name} bfd logical port {quote route.bfd.logicalPort} does " ++
          s!"not reference a subnet router port in vpc {quote table.vpc}"))

def validateRouteTableReferences (state : DesiredState) (table : RouteTable) :
    Except String Unit := do
  table.validate
  require (knownVPC state.vpcs table.vpc)
    s!"route table {quote table.name} references unknown vpc {quote table.vpc}"
  forM table.routes (validateRouteReferences sha256 state table)

def validatePolicyRouteReferences (state : DesiredState) (route : PolicyRoute) :
    Except String Unit := do
  route.validate
  require (knownVPC state.vpcs route.vpc)
    s!"policy route {quote route.name} references unknown vpc {quote route.vpc}"
  checkIf route.match.source.isValid
    (validatePrefixInVPCSubnets state.subnets route.vpc route.match.source
      s!"policy route {quote route.name} source {route.match.source.string}")
  checkIf (route.action.type = .reroute)
    (forM route.action.nextHops fun nextHop =>
      validateAddressInVPCSubnets state.subnets route.vpc nextHop
        s!"policy route {quote route.name} next hop {nextHop.string}")

def findEndpointByKey (endpoints : List Endpoint) (vpc id : String) : Option Endpoint :=
  endpoints.find? fun endpoint => endpointKey endpoint.vpc endpoint.id = endpointKey vpc id

def validateDistributedNATEndpoint (sha256 : Sha256) (endpoints : List Endpoint) (rule : NATRule) :
    Except String Unit :=
  checkIf (trimSpace rule.logicalPort ≠ "") (match
      (findEndpointByIPKey endpoints rule.vpc rule.targetIP).bind fun holder =>
        findEndpointByKey endpoints rule.vpc holder.id with
    | none => .error (s!"nat rule {quote rule.name} logical_port requires target ip " ++
        s!"{rule.targetIP.string} to reference an endpoint in vpc {quote rule.vpc}")
    | some endpoint => do
      let expectedPort := ovnLogicalSwitchPortName sha256 rule.vpc endpoint.id
      require (rule.logicalPort = expectedPort)
        (s!"nat rule {quote rule.name} logical_port {quote rule.logicalPort} does not match " ++
          s!"endpoint {quote endpoint.id} logical port {quote expectedPort}")
      let mac := endpoint.normalizedMAC
      let expectedMAC := if mac = "" then gatewayMAC endpoint.ip else mac
      require (toLower rule.externalMAC = expectedMAC)
        (s!"nat rule {quote rule.name} external_mac {quote rule.externalMAC} does not match " ++
          s!"endpoint {quote endpoint.id} mac {quote expectedMAC}"))

def validateNATRuleReferences (sha256 : Sha256) (state : DesiredState) (rule : NATRule) :
    Except String Unit := do
  rule.validate
  require (knownVPC state.vpcs rule.vpc)
    s!"nat rule {quote rule.name} references unknown vpc {quote rule.vpc}"
  validateAddressOutsideVPCSubnets state.subnets rule.vpc rule.externalIP
    s!"nat rule {quote rule.name} external ip {rule.externalIP.string}"
  checkIf (rule.type = .snat)
    (validatePrefixInVPCSubnets state.subnets rule.vpc rule.matchCIDR
      s!"nat rule {quote rule.name} match cidr {rule.matchCIDR.string}")
  checkIf (rule.type = .dnat || rule.type = .dnatAndSnat)
    (validateAddressInVPCSubnets state.subnets rule.vpc rule.targetIP
      s!"nat rule {quote rule.name} target ip {rule.targetIP.string}")
  validateDistributedNATEndpoint sha256 state.endpoints rule

/-- The checks of single objects and their references. -/
def validateObjectGraph (sha256 : Sha256) (state : DesiredState) : Except String Unit := do
  validateVPCs state.vpcs
  state.providerChecks
  growing (validateSubnet state) [] state.subnets
  growing (validateLoadBalancerReferences state) [] state.loadBalancers
  growing (validateCIDRGroup state) [] state.cidrGroups
  growing (validateSecurityGroup state) [] state.securityGroups
  forM state.securityGroups fun group => forM group.rules (validateRuleReferences state group)
  growing (validateEndpoint sha256 state) [] state.endpoints
  validateSecurityGroupNamedPortReferences state
  growing (validateGateway state) [] state.gateways
  validateSecurityGroupRemoteEntities state
  forM state.routeTables (validateRouteTableReferences sha256 state)
  forM state.policyRoutes (validatePolicyRouteReferences state)
  forM state.natRules (validateNATRuleReferences sha256 state)
  forM state.dnsRecords DNSRecord.validate

/-! ### Conflicts -/

def isInbound (rule : NATRule) : Bool := rule.type ≠ .snat

def natBaseKey (rule : NATRule) : String := ipKey rule.vpc rule.externalIP

def portKey (vpc : String) (ip : Addr) (protocol : Protocol) (port : BitVec 16) : String :=
  s!"{ipKey vpc ip}|{protocol.text}|{port.toNat}"

variable (seen : List NATRule) (rule : NATRule)

def natPortKey : String :=
  portKey rule.vpc rule.externalIP rule.protocol rule.externalPort

/-- The rule before that takes all ports of the address. -/
def allPortsBefore : Option NATRule :=
  seen.find? fun old => isInbound old && old.externalPort = 0 && natBaseKey old = natBaseKey rule

/-- The rule before that takes one port of the address; its key starts with that of
the address and a bar. -/
def somePortBefore : Option NATRule :=
  seen.find? fun old => isInbound old && old.externalPort ≠ 0 &&
    (natBaseKey rule ++ "|").toList.isPrefixOf (natPortKey old).toList

def samePortBefore : Option NATRule :=
  seen.find? fun old => isInbound old && old.externalPort ≠ 0 && natPortKey old = natPortKey rule

/-- No earlier rule takes the address or the port. -/
def validateInboundNATRule : Except String Unit := do
  let conflict (previous : NATRule) : String :=
    s!"nat rule {quote rule.name} conflicts with {quote previous.name} on external ip " ++
      rule.externalIP.string
  absent conflict (allPortsBefore seen rule)
  if rule.externalPort = 0 then absent conflict (somePortBefore seen rule)
  else
    absent (fun previous => s!"nat rule {quote rule.name} conflicts with " ++
        s!"{quote previous.name} on {rule.externalIP.string}/{rule.protocol.text}:" ++
        s!"{rule.externalPort.toNat}")
      (samePortBefore seen rule)

def validateNATRule : Except String Unit := do
  rule.validate
  require (!seen.any fun old => natRuleKey old.vpc old.name = natRuleKey rule.vpc rule.name)
    s!"duplicate nat rule name {quote rule.name} in vpc {quote rule.vpc}"
  if rule.type = .snat then
    forM seen fun existing => require
      (!(existing.type = .snat && existing.vpc = rule.vpc &&
        prefixesOverlap existing.matchCIDR rule.matchCIDR))
      (s!"snat rule {quote rule.name} conflicts with {quote existing.name} on overlapping cidr " ++
        s!"{rule.matchCIDR.string} in vpc {rule.vpc}")
  else validateInboundNATRule seen rule

def validateNATRules (rules : List NATRule) : Except String Unit := growing validateNATRule [] rules

def frontendKey (lb : LoadBalancer) (frontend : LoadBalancerFrontend) : String :=
  portKey lb.vpc frontend.vip frontend.protocol frontend.port

/-- The frontends of all load balancers, each with its own. -/
def allFrontends (loadBalancers : List LoadBalancer) : List (LoadBalancer × LoadBalancerFrontend) :=
  loadBalancers.flatMap fun lb => lb.frontends.map fun frontend => (lb, frontend)

def validateFrontend (seen : List (LoadBalancer × LoadBalancerFrontend))
    (entry : LoadBalancer × LoadBalancerFrontend) : Except String Unit :=
  absent (fun previous => s!"load balancer {quote entry.1.name} conflicts with " ++
      s!"{quote previous.1.name} on {entry.2.vip.string}/{entry.2.protocol.text}:" ++
      s!"{entry.2.port.toNat}")
    (seen.find? fun old => frontendKey old.1 old.2 = frontendKey entry.1 entry.2)

def validateLoadBalancer (seen : List LoadBalancer) (lb : LoadBalancer) : Except String Unit := do
  lb.validate
  require (!seen.any fun old => loadBalancerKey old.vpc old.name = loadBalancerKey lb.vpc lb.name)
    s!"duplicate load balancer name {quote lb.name} in vpc {quote lb.vpc}"
  growing validateFrontend (allFrontends seen) (lb.frontends.map fun frontend => (lb, frontend))

def validateLoadBalancers (loadBalancers : List LoadBalancer) : Except String Unit :=
  growing validateLoadBalancer [] loadBalancers

def validateInboundVIPConflicts (rules : List NATRule) (loadBalancers : List LoadBalancer) :
    Except String Unit :=
  let inbound := rules.filter isInbound
  forM (allFrontends loadBalancers) fun (lb, frontend) => do
    absent (fun previous => s!"load balancer {quote lb.name} conflicts with nat rule " ++
        s!"{quote previous.name} on external ip {frontend.vip.string}")
      (inbound.find? fun rule =>
        rule.externalPort = 0 && natBaseKey rule = ipKey lb.vpc frontend.vip)
    absent (fun previous => s!"load balancer {quote lb.name} conflicts with nat rule " ++
        s!"{quote previous.name} on {frontend.vip.string}:{frontend.port.toNat}")
      (inbound.find? fun rule =>
        rule.externalPort ≠ 0 && natPortKey rule = frontendKey lb frontend)

def destinationKey (table : RouteTable) (route : Route) : String :=
  table.vpc ++ "|" ++ route.destination.string

/-- The routes of all tables, each with its table. -/
def allRoutes (tables : List RouteTable) : List (RouteTable × Route) :=
  tables.flatMap fun table => table.routes.map fun route => (table, route)

def validateDestination (seen : List (RouteTable × Route)) (entry : RouteTable × Route) :
    Except String Unit :=
  absent (fun previous => s!"route table {quote entry.1.name} conflicts with " ++
      s!"{quote previous.1.name} on {entry.2.destination.string} in vpc {entry.1.vpc}")
    (seen.find? fun old => destinationKey old.1 old.2 = destinationKey entry.1 entry.2)

def validateRouteTable (seen : List RouteTable) (table : RouteTable) : Except String Unit := do
  table.validate
  require (!seen.any fun old =>
      routeTableKey old.vpc old.name = routeTableKey table.vpc table.name)
    s!"duplicate route table name {quote table.name} in vpc {quote table.vpc}"
  growing validateDestination (allRoutes seen) (table.routes.map fun route => (table, route))

def validateRouteTables (tables : List RouteTable) : Except String Unit :=
  growing validateRouteTable [] tables

def prefixesMayOverlap (left right : Prefix) : Bool :=
  !left.isValid || !right.isValid || prefixesOverlap left right

def protocolsMayOverlap (left right : Protocol) : Bool :=
  left = .unset || left = .any || right = .unset || right = .any || left = right

def portRangesMayOverlap (left right : List PortRange) : Bool :=
  left.isEmpty || right.isEmpty || left.any fun a => right.any fun b =>
    a.fromPort ≤ b.toPort && b.fromPort ≤ a.toPort

def routeMatchesOverlap (left right : RouteMatch) : Bool :=
  prefixesMayOverlap left.source right.source &&
    prefixesMayOverlap left.destination right.destination &&
    protocolsMayOverlap left.protocol right.protocol &&
    portRangesMayOverlap left.srcPorts right.srcPorts &&
    portRangesMayOverlap left.dstPorts right.dstPorts

def routeMatchPortKey (ranges : List PortRange) : String :=
  ",".intercalate (sortStrings (ranges.map fun range =>
    s!"{range.fromPort.toNat}-{range.toPort.toNat}"))

def routeMatchKey (matched : RouteMatch) : String :=
  s!"src={matched.source.string}|dst={matched.destination.string}|" ++
    s!"proto={(effectiveProtocol matched.protocol).text}|" ++
    s!"sports={routeMatchPortKey matched.srcPorts}|dports={routeMatchPortKey matched.dstPorts}"

def validatePolicyRoute (seen : List PolicyRoute) (route : PolicyRoute) : Except String Unit := do
  route.validate
  require (!seen.any fun old => objectKey old.vpc old.name = objectKey route.vpc route.name)
    s!"duplicate policy route name {quote route.name} in vpc {quote route.vpc}"
  forM seen fun existing => require
    (!(existing.vpc = route.vpc && existing.priority = route.priority &&
      routeMatchesOverlap existing.match route.match))
    (s!"policy route {quote route.name} conflicts with {quote existing.name} on overlapping " ++
      s!"priority {route.priority} match {routeMatchKey route.match} in vpc {route.vpc}")

def validatePolicyRoutes (routes : List PolicyRoute) : Except String Unit :=
  growing validatePolicyRoute [] routes

/-- What `Reconcile` checks before it calls a backend. -/
def validateState (sha256 : Sha256) (state : DesiredState) : Except String Unit := do
  validateObjectGraph sha256 state
  validateNATRules state.natRules
  validateLoadBalancers state.loadBalancers
  validateInboundVIPConflicts state.natRules state.loadBalancers
  validateRouteTables state.routeTables
  validatePolicyRoutes state.policyRoutes

end Netloom.Control
