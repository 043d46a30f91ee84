import Netloom.Lib.Checked
import Netloom.Model.Types
import Netloom.Strings

/-!
# Validation of the objects of a desired state

Each `validate` runs the checks of the method of that name in source order and
returns the text of the first failing one. Only what the policy compiler
validates is here: endpoints, security groups, CIDR groups, DNS records, load
balancers, subnets and gateways.
-/
namespace Netloom.Model

open Strings
open Netip (Addr Prefix)
open Checked (require checkIf context distinct distinctFrom forEach)

/-! ### Prefixes and names -/

/-- `prefixLastAddr`. On the invalid prefix the source sets every bit of `::`. -/
def prefixLastAddr : Prefix → Addr
  | .invalid => .v6 (BitVec.allOnes 128) ""
  | .v4 block => .v4 block.last
  | .v6 block => .v6 block.last ""

def prefixContainsPrefix (parent child : Prefix) : Bool :=
  parent.isValid && child.isValid && parent.addr.is4 == child.addr.is4 &&
    decide (parent.bits ≤ child.bits) && parent.contains child.addr &&
    parent.contains (prefixLastAddr child)

def validateMaskedPrefix (cidr : Prefix) (name : String) : Except String Unit :=
  require (cidr = cidr.masked) s!"{name} must be masked"

private def isNameRune (c : Char) : Bool :=
  ('a' ≤ c && c ≤ 'z') || ('A' ≤ c && c ≤ 'Z') || ('0' ≤ c && c ≤ '9') || c == '-' || c == '_'

/-- The checks of one label of a DNS name. -/
def validateDNSLabel (name : String) (allowWildcard : Bool) (label : String) :
    Except String Unit := do
  require (label ≠ "") s!"dns name {quote name} contains empty label"
  require (label.utf8ByteSize ≤ 63) s!"dns label {quote label} exceeds 63 characters"
  require (label.toList.head? ≠ some '-' && label.toList.getLast? ≠ some '-')
    s!"dns label {quote label} must not start or end with '-'"
  forM label.toList fun c => require (isNameRune c || (allowWildcard && c == '*'))
    s!"dns name {quote name} contains unsupported character {quoteRune c}"

def validateDNSName (name : String) (allowWildcard : Bool) : Except String Unit := do
  let trimmed := trimSpace name
  require (trimmed ≠ "") "dns name is required"
  let name := trimSuffix trimmed "."
  require (name ≠ "") "dns name must contain at least one label"
  require (name.utf8ByteSize ≤ 253) s!"dns name {quote name} exceeds 253 characters"
  forM (split name '.') (validateDNSLabel name allowWildcard)

def validateNamedPortName (name : String) : Except String Unit := do
  require (name ≠ "") "named port name is required"
  forM name.toList fun c => require (isNameRune c)
    s!"named port name {quote name} contains unsupported character {quoteRune c}"

/-! ### Endpoints -/

def PortRange.validate (p : PortRange) : Except String Unit := do
  require (p.fromPort ≠ 0 && p.toPort ≠ 0) "port range must be non-zero"
  require (p.fromPort ≤ p.toPort)
    s!"port range start {p.fromPort.toNat} exceeds end {p.toPort.toNat}"

/-- The protocols that have ports. -/
def Protocol.hasPorts (p : Protocol) : Bool := p = .tcp || p = .udp || p = .sctp

def NamedPort.validate (p : NamedPort) : Except String Unit := do
  validateNamedPortName p.name
  require p.protocol.hasPorts "named port protocol must be tcp, udp, or sctp"
  require (p.port ≠ 0) "named port number must be between 1 and 65535"

private def labelSpaces : String := " \t\r\n"

def Labels.validate (labels : Labels) : Except String Unit :=
  forM labels.entries fun label => do
    let key := label.1
    require (trimSpace key ≠ "") "label key is required"
    require (trimSpace label.2 ≠ "") s!"label {quote key} value is required"
    require (!containsAny key labelSpaces)
      s!"label key {quote key} must not contain whitespace"

def normalizeLabelExprOperator (operator : String) : String :=
  removeRune (removeRune (toLower (trimSpace operator)) '_') '-'

def LabelExpr.validate (e : LabelExpr) : Except String Unit := do
  require (trimSpace e.key ≠ "") "label expression key is required"
  require (!containsAny e.key labelSpaces)
    s!"label expression key {quote e.key} must not contain whitespace"
  match normalizeLabelExprOperator e.operator with
  | "in" | "notin" =>
    require (!e.values.isEmpty)
      s!"label expression {quote e.key} operator {e.operator} requires values"
  | "exists" | "doesnotexist" =>
    require e.values.isEmpty
      s!"label expression {quote e.key} operator {e.operator} must not set values"
  | _ => .error s!"unsupported label expression operator {quote e.operator}"
  distinct (fun i value => require (trimSpace value ≠ "")
      s!"label expression {quote e.key} value {i} is required") id
    (fun _ value => s!"label expression {quote e.key} value {quote value} is duplicated") e.values

def Endpoint.validate (e : Endpoint) : Except String Unit := do
  require (e.id ≠ "") "endpoint id is required"
  require (e.vpc ≠ "") "endpoint vpc is required"
  require (e.subnet ≠ "") "endpoint subnet is required"
  require e.ip.isValid "endpoint ip is required"
  require (!e.ip.isUnspecified) "endpoint ip must not be unspecified"
  checkIf (trimSpace e.mac ≠ "") (context (fun err => s!"endpoint mac is invalid: {err}")
    ((fun _ => ()) <$> parseMAC e.mac))
  require (e.node ≠ "") "endpoint node is required"
  context (fun err => s!"endpoint labels: {err}") (Labels.validate e.labels)
  distinct (fun _ group => require (group ≠ "") "endpoint security group is empty") (fun group => group)
    (fun _ group => s!"endpoint security group {quote group} is duplicated") e.securityGroups
  distinct (fun i port => context (fun err => s!"named port {i}: {err}") port.validate)
    (fun port => port.protocol.text ++ "/" ++ port.name)
    (fun _ port => s!"named port {port.protocol.text}/{port.name} is duplicated") e.namedPorts

/-! ### Label selectors -/

def LabelExpr.matches (e : LabelExpr) (labels : Labels) : Bool :=
  match normalizeLabelExprOperator e.operator, labels.lookup e.key with
  | "in", some value => e.values.contains value
  | "in", none => false
  | "notin", some value => !e.values.contains value
  | "notin", none => true
  | "exists", found => found.isSome
  | "doesnotexist", found => found.isNone
  | _, _ => false

/-- `Labels.MatchesSelector`; a missing label reads as the empty string. -/
def Labels.matchesSelector (labels selector : Labels) (expressions : List LabelExpr) : Bool :=
  !(selector.entries.isEmpty && expressions.isEmpty) &&
    selector.entries.all (fun label => (labels.lookup label.1).getD "" == label.2) &&
    expressions.all fun expression => expression.matches labels

/-! ### Subnets and gateways -/

def DHCPOptions.validate (d : DHCPOptions) : Except String Unit :=
  if !d.enabled then
    require (d.leaseTime = 0 && d.mtu = 0 && d.dnsServers.isEmpty && d.domainName = "" &&
        d.searchDomains.isEmpty)
      "disabled dhcp must not set lease time, mtu, dns servers, domain name, or search domains"
  else do
    require (d.leaseTime = 0 || 60 ≤ d.leaseTime.toNat)
      "dhcp lease time must be at least 60 seconds"
    forEach (fun i server => do
      require server.isValid s!"dhcp dns server {i} is invalid"
      require (!server.isUnspecified) s!"dhcp dns server {i} must not be unspecified") d.dnsServers
    checkIf (d.domainName ≠ "")
      (context (fun err => s!"dhcp domain name: {err}") (validateDNSName d.domainName false))
    forEach (fun i domain => context (fun err => s!"dhcp search domain {i}: {err}")
      (validateDNSName domain false)) d.searchDomains

def Subnet.validate (s : Subnet) : Except String Unit := do
  require (s.name ≠ "") "subnet name is required"
  require (s.vpc ≠ "") "subnet vpc is required"
  require s.cidr.isValid "subnet cidr is required"
  validateMaskedPrefix s.cidr "subnet cidr"
  require s.gateway.isValid "subnet gateway is required"
  require (!s.gateway.isUnspecified) "subnet gateway must not be unspecified"
  require (s.cidr.contains s.gateway)
    s!"subnet gateway {s.gateway.string} is outside cidr {s.cidr.string}"
  distinct (fun i exclude => do
      require exclude.isValid s!"subnet exclude cidr {i} is invalid"
      validateMaskedPrefix exclude s!"subnet exclude cidr {i}"
      require (exclude.masked.addr.is4 == s.cidr.addr.is4)
        s!"subnet exclude cidr {exclude.masked.string} family must match cidr {s.cidr.string}"
      require (s.cidr.contains exclude.masked.addr &&
          s.cidr.contains (prefixLastAddr exclude.masked))
        s!"subnet exclude cidr {exclude.masked.string} is outside cidr {s.cidr.string}")
    Prefix.masked
    (fun _ exclude => s!"subnet exclude cidr {exclude.masked.string} is duplicated") s.excludeCIDRs
  require (s.vlan.toNat ≤ 4094) "subnet vlan must be between 1 and 4094"
  require (s.vlan = 0 || s.providerNetwork ≠ "") "subnet vlan requires provider network"
  context (fun err => s!"subnet dhcp: {err}") s.dhcp.validate
  forEach (fun i server => require (server.is4 == s.cidr.addr.is4)
    s!"subnet dhcp: dns server {i} family must match subnet cidr") s.dhcp.dnsServers

def Gateway.validate (g : Gateway) : Except String Unit := do
  require (g.name ≠ "") "gateway name is required"
  require (g.vpc ≠ "") "gateway vpc is required"
  require (g.node ≠ "") "gateway node is required"
  require (trimSpace g.externalIF ≠ "") "gateway external_if is required"
  require g.lanIP.isValid "gateway lan ip is required"
  require (!g.lanIP.isUnspecified) "gateway lan ip must not be unspecified"

/-! ### Load balancers -/

def LoadBalancer.frontends (l : LoadBalancer) : List LoadBalancerFrontend :=
  l.ports.map fun port =>
    let protocol := if port.protocol = .unset then .tcp else port.protocol
    { name := if port.name = "" then s!"{protocol.text}-{port.port.toNat}" else port.name
      vip := l.vip
      port := port.port
      protocol
      backends := port.backends }

def LoadBalancer.validateSelectionFields (l : LoadBalancer) : Except String Unit :=
  distinctFrom (fun i field => require (trimSpace field ≠ "")
      s!"load balancer selection field {i} is empty") trimSpace
    (fun _ field => s!"load balancer selection field {quote (trimSpace field)} is duplicated")
    (fun _ field => match trimSpace field with
      | "ip_src" | "ip_dst" =>
        require (!(l.vip.is6 && !l.vip.is4))
          s!"load balancer selection field {quote (trimSpace field)} requires IPv4 VIP"
      | "ipv6_src" | "ipv6_dst" =>
        require (!l.vip.is4)
          s!"load balancer selection field {quote (trimSpace field)} requires IPv6 VIP"
      | "tp_src" | "tp_dst" => .ok ()
      | other => .error s!"unsupported load balancer selection field {quote other}")
    0 [] l.selectionFields

def LoadBalancerHealthCheck.validate (h : LoadBalancerHealthCheck) : Except String Unit :=
  if !h.enabled then
    require (h.interval = 0 && h.timeout = 0 && h.successCount = 0 && h.failureCount = 0)
      "disabled health check must not set interval, timeout, success count or failure count"
  else do
    require (h.interval.toNat ≤ 86400) "health check interval must be at most 86400 seconds"
    require (h.timeout.toNat ≤ 86400) "health check timeout must be at most 86400 seconds"
    require (h.successCount.toNat ≤ 255) "health check success count must be at most 255"
    require (h.failureCount.toNat ≤ 255) "health check failure count must be at most 255"

def LoadBalancerBackend.validate (b : LoadBalancerBackend) : Except String Unit := do
  require b.ip.isValid "backend ip is required"
  require (!b.ip.isUnspecified) "backend ip must not be unspecified"
  require (b.port ≠ 0) "backend port is required"

def LoadBalancerBackend.isHealthy (b : LoadBalancerBackend) : Bool :=
  b.healthy.getD true

/-- `AddrPort.String`. -/
def addrPortString (ip : Addr) (port : BitVec 16) : String :=
  match ip with
  | .zero => "invalid AddrPort"
  | .v4 _ => s!"{ip.string}:{port.toNat}"
  | .v6 _ _ => s!"[{ip.string}]:{port.toNat}"

def LoadBalancer.validate (l : LoadBalancer) : Except String Unit := do
  require (l.name ≠ "") "load balancer name is required"
  require (l.vpc ≠ "") "load balancer vpc is required"
  require l.vip.isValid "load balancer vip is required"
  require (!l.vip.isUnspecified) "load balancer vip must not be unspecified"
  require (!l.ports.isEmpty) "load balancer ports are required"
  require (l.sessionAffinity || l.affinityTimeout = 0)
    "load balancer affinity timeout requires session affinity"
  require (l.affinityTimeout.toNat ≤ 86400)
    "load balancer affinity timeout must be at most 86400 seconds"
  l.validateSelectionFields
  context (fun err => s!"load balancer health check: {err}") l.healthCheck.validate
  distinctFrom (fun i frontend => do
      require (frontend.port ≠ 0) s!"load balancer frontend {i} port is required"
      require frontend.protocol.hasPorts
        s!"unsupported load balancer protocol {quote frontend.protocol.text}"
      require (!frontend.backends.isEmpty) s!"load balancer frontend {i} backends are required")
    (fun frontend => s!"{frontend.protocol.text}/{frontend.vip.string}/{frontend.port.toNat}")
    (fun _ frontend => s!"load balancer frontend {frontend.vip.string}/" ++
      s!"{frontend.protocol.text}:{frontend.port.toNat} is duplicated")
    (fun i frontend => do
      distinct (fun j backend => do
          context (fun err => s!"load balancer frontend {i} backend {j}: {err}") backend.validate
          require (backend.ip.is4 == l.vip.is4)
            s!"load balancer frontend {i} backend {j} ip family must match vip")
        (fun backend => addrPortString backend.ip backend.port)
        (fun _ backend => s!"load balancer frontend {i} backend " ++
          s!"{addrPortString backend.ip backend.port} is duplicated") frontend.backends
      require (frontend.backends.any LoadBalancerBackend.isHealthy)
        s!"load balancer frontend {i} must have at least one healthy backend")
    0 [] l.frontends
  require (!l.healthCheck.enabled || l.frontends.any fun frontend => frontend.protocol = .tcp)
    "load balancer health check requires at least one tcp frontend"
  distinct (fun i subnet => require (subnet ≠ "") s!"load balancer subnet {i} is empty")
    (fun subnet => subnet)
    (fun _ subnet => s!"load balancer subnet {quote subnet} is duplicated") l.subnets

/-! ### DNS records and CIDR groups -/

def FQDNSelector.validate (s : FQDNSelector) : Except String Unit :=
  let matchName := trimSpace s.matchName
  let matchPattern := trimSpace s.matchPattern
  if matchName = "" ∧ matchPattern = "" then .error "match name or match pattern is required"
  else if matchName ≠ "" ∧ matchPattern ≠ "" then
    .error "match name and match pattern are mutually exclusive"
  else if matchName ≠ "" then validateDNSName matchName false
  else validateDNSName matchPattern true

def DNSRecord.validate (r : DNSRecord) : Except String Unit := do
  context (fun err => s!"dns record name: {err}") (validateDNSName r.name false)
  require (!r.ips.isEmpty) "dns record ips are required"
  require (r.ttlSeconds = 0 || r.observedAt ≠ 0)
    "dns record observed_at is required when ttl_seconds is set"
  require (r.ttlSeconds ≠ 0 || r.observedAt = 0) "dns record observed_at requires ttl_seconds"
  distinct (fun i ip => do
      require ip.isValid s!"dns record ip {i} is invalid"
      require (!ip.isUnspecified) s!"dns record ip {i} must not be unspecified")
    (fun ip => ip) (fun _ ip => s!"dns record ip {ip.string} is duplicated") r.ips

/-- `DNSRecord.IsExpired` at a time that is not the zero time. -/
def DNSRecord.isExpired (r : DNSRecord) (now : Time) : Bool :=
  if r.ttlSeconds = 0 then false
  else r.observedAt + r.ttlSeconds.toNat * secondNanos ≤ now

/-- The checks of one except CIDR, of which `owner` and `cidr` are the texts and
the prefix it is cut out of. -/
def validateExceptCIDR (owner : String) (cidr : Prefix) (i : Nat) (except : Prefix) :
    Except String Unit := do
  require except.isValid s!"except cidr {i} is invalid"
  validateMaskedPrefix except s!"except cidr {i}"
  require (except.masked.addr.is4 == cidr.addr.is4)
    s!"except cidr {except.masked.string} family must match {owner}"
  require (prefixContainsPrefix cidr except.masked)
    s!"except cidr {except.masked.string} must be contained within {owner} {cidr.string}"

def validateExceptCIDRs (owner : String) (cidr : Prefix) (excepts : List Prefix) :
    Except String Unit :=
  distinct (validateExceptCIDR owner cidr) Prefix.masked
    (fun _ except => s!"except cidr {except.masked.string} is duplicated") excepts

def CIDRGroupEntry.validate (e : CIDRGroupEntry) : Except String Unit := do
  require e.cidr.isValid "cidr is invalid"
  validateMaskedPrefix e.cidr "cidr"
  validateExceptCIDRs "cidr" e.cidr.masked e.exceptCIDRs

def CIDRGroup.validate (g : CIDRGroup) : Except String Unit := do
  require (g.name ≠ "") "cidr group name is required"
  require (g.vpc ≠ "") "cidr group vpc is required"
  require (!(g.cidrs.isEmpty && g.entries.isEmpty)) "cidr group cidrs or entries are required"
  distinct (fun i cidr => do
      require cidr.isValid s!"cidr group cidr {i} is invalid"
      validateMaskedPrefix cidr s!"cidr group cidr {i}")
    Prefix.masked (fun _ cidr => s!"cidr group cidr {cidr.masked.string} is duplicated") g.cidrs
  -- The second loop goes on with the prefixes the first one has seen.
  distinctFrom (fun i entry => context (fun err => s!"cidr group entry {i}: {err}") entry.validate)
    (fun entry => entry.cidr.masked)
    (fun _ entry => s!"cidr group cidr {entry.cidr.masked.string} is duplicated")
    (fun _ _ => .ok ()) 0 (g.cidrs.map Prefix.masked) g.entries

/-! ### Security groups -/

def Protocol.isValid (p : Protocol) : Bool :=
  [Protocol.any, .tcp, .udp, .icmp, .sctp].contains p

def hasRemoteEndpointSelector (r : SecurityGroupRule) : Bool :=
  !r.remoteEndpointSelector.entries.isEmpty || !r.remoteEndpointExprs.isEmpty

/-- How many kinds of remote selector a rule sets. -/
def SecurityGroupRule.remoteSelectors (r : SecurityGroupRule) : Nat :=
  [r.remoteCIDR.isValid, decide (r.remoteGroup ≠ ""), hasRemoteEndpointSelector r,
    decide (r.remoteService ≠ ""), decide (r.remoteCIDRGroup ≠ ""), !r.remoteEntities.isEmpty,
    !r.remoteFQDNs.isEmpty].countP (· = true)

def supportedEntities : List String :=
  ["all", "world", "world-ipv4", "world-ipv6", "cluster", "private", "host", "remote-node", "none"]

def SecurityGroupRule.validate (r : SecurityGroupRule) : Except String Unit := do
  require (r.id ≠ "") "rule id is required"
  require (r.direction = .ingress || r.direction = .egress)
    s!"unsupported direction {quote r.direction.text}"
  let protocol := if r.protocol = .unset then .any else r.protocol
  require protocol.isValid s!"unsupported protocol {quote protocol.text}"
  require (securityGroupPriorityMin ≤ r.priority && r.priority ≤ securityGroupPriorityMax)
    s!"security group rule priority must be between {securityGroupPriorityMin} and {securityGroupPriorityMax}"
  require ([Action.allow, .drop, .reject, .log].contains r.action)
    s!"unsupported security action {quote r.action.text}"
  require (r.ports.isEmpty || protocol.hasPorts || (protocol = .any && r.remoteService ≠ ""))
    "ports require tcp, udp, or sctp protocol"
  require (r.namedPorts.isEmpty || protocol.hasPorts)
    "named ports require tcp, udp, or sctp protocol"
  require (!(!r.namedPorts.isEmpty && r.direction = .egress && r.remoteGroup = "" &&
      !hasRemoteEndpointSelector r))
    "egress named ports require remote_group or remote_endpoint_selector"
  distinct (fun i name => context (fun err => s!"named port {i}: {err}") (validateNamedPortName name))
    (fun name => name) (fun _ name => s!"named port {name} is duplicated") r.namedPorts
  require (r.icmpType.isNone || protocol = .icmp) "icmp_type requires icmp protocol"
  require (r.icmpCode.isNone || protocol = .icmp) "icmp_code requires icmp protocol"
  require (r.icmpCode.isNone || r.icmpType.isSome) "icmp_code requires icmp_type"
  require (r.remoteSelectors ≤ 1) ("remote cidr, remote group, remote endpoint selector, " ++
    "remote service, remote cidr group, remote entities and remote fqdns are mutually exclusive")
  require (r.remoteService = "" || r.direction = .egress)
    "remote service is only supported for egress rules"
  context (fun err => s!"remote endpoint selector: {err}") (Labels.validate r.remoteEndpointSelector)
  forEach (fun i expression => context (fun err => s!"remote endpoint expression {i}: {err}")
    expression.validate) r.remoteEndpointExprs
  distinct (fun i entity => require (supportedEntities.contains entity)
      s!"remote entity {i}: unsupported remote entity {quote entity}") (fun entity => entity)
    (fun _ entity => s!"remote entity {quote entity} is duplicated") r.remoteEntities
  require (!(r.remoteEntities.contains "none" && 1 < r.remoteEntities.length))
    "remote entity none must not be combined with other remote entities"
  require (r.exceptCIDRs.isEmpty || r.remoteCIDR.isValid) "except cidrs require remote cidr"
  checkIf r.remoteCIDR.isValid (validateMaskedPrefix r.remoteCIDR "remote cidr")
  validateExceptCIDRs "remote cidr" r.remoteCIDR.masked r.exceptCIDRs
  require (r.remoteFQDNs.isEmpty || r.direction = .egress)
    "remote fqdns are only supported for egress rules"
  forEach (fun i selector => context (fun err => s!"remote fqdn {i}: {err}") selector.validate)
    r.remoteFQDNs
  distinct (fun i p => context (fun err => s!"port range {i}: {err}") p.validate) (fun p => p)
    (fun i p => s!"port range {i} {p.fromPort.toNat}-{p.toPort.toNat} is duplicated") r.ports

def SecurityGroup.validate (s : SecurityGroup) : Except String Unit := do
  require (s.name ≠ "") "security group name is required"
  require (s.vpc ≠ "") "security group vpc is required"
  require (0 ≤ s.tier && s.tier ≤ 1) "security group tier must be between 0 and 1"
  distinct (fun i rule => context (fun err => s!"security group rule {i}: {err}") rule.validate)
    SecurityGroupRule.id
    (fun _ rule => s!"security group rule {quote rule.id} is duplicated") s.rules

/-! ### What the checks say of an accepted object -/

open List Checked

/-- A prefix that is cut out of another: masked and inside it. -/
structure ExceptOf (cidr except : Prefix) : Prop where
  masked : except.masked = except
  inside : prefixContainsPrefix cidr except = true

variable {result : Unit}

theorem exceptOf_of_validateExceptCIDRs {owner : String} {cidr : Prefix} {excepts : List Prefix}
    (accepted : validateExceptCIDRs owner cidr excepts = .ok result) :
    ∀ except ∈ excepts, ExceptOf cidr except := by
  intro except member
  obtain ⟨n, checked⟩ := (of_distinct accepted).1 except member
  simp only [validateExceptCIDR, validateMaskedPrefix, bind_eq_ok, require_eq_ok,
    decide_eq_true_eq] at checked
  obtain ⟨_, _, _, masked, _, _, inside⟩ := checked
  exact ⟨masked.symm, masked ▸ inside⟩

theorem Endpoint.namedPorts_of_validate {endpoint : Endpoint}
    (accepted : endpoint.validate = .ok result) :
    (endpoint.namedPorts.map fun port => port.protocol.text ++ "/" ++ port.name).Nodup := by
  simp only [Endpoint.validate, bind_eq_ok] at accepted
  obtain ⟨_, _, _, _, _, _, _, _, _, _, _, _, _, _, _, _, _, _, distinct⟩ := accepted
  exact (of_distinct distinct).2

/-- A DNS name has characters other than white space, none of which is a comma. -/
theorem of_validateDNSName {name : String} {wildcard : Bool}
    (accepted : validateDNSName name wildcard = .ok result) :
    trimSpace name ≠ "" ∧ ',' ∉ name.toList := by
  simp only [validateDNSName, bind_eq_ok, require_eq_ok, forM_eq_ok, decide_eq_true_eq] at accepted
  obtain ⟨_, some, _, _, _, _, labels⟩ := accepted
  refine ⟨some, fun comma => ?_⟩
  -- The comma is in the trimmed name, before a final dot, so in one of the labels.
  have trimmed := (mem_trimSpace (by decide)).mpr comma
  have inside : ',' ∈ (trimSuffix (trimSpace name) ".").toList := by
    unfold trimSuffix
    split
    · next dot =>
      obtain ⟨front, split⟩ := isSuffixOf_iff_suffix.mp dot
      rw [String.toList_ofList, ← split]
      rw [← split, mem_append] at trimmed
      rcases trimmed with before | last
      · simpa using before
      · exact absurd last (by decide)
    · exact trimmed
  obtain ⟨label, member, found⟩ : ∃ label ∈ split
      (trimSuffix (trimSpace name) ".") '.', ',' ∈ label.toList := by
    have joined := @intercalate_splitOn _
      (trimSuffix (trimSpace name) ".").toList _ _ '.'
    rw [← joined] at inside
    rcases Text.mem_join inside with same | ⟨piece, listed, found⟩
    · exact absurd same (by decide)
    · exact ⟨String.ofList piece, mem_map.mpr ⟨piece, listed, rfl⟩, by simpa using found⟩
  have checked := labels label member
  simp only [validateDNSLabel, bind_eq_ok, forM_eq_ok, require_eq_ok]
    at checked
  obtain ⟨_, _, _, _, _, _, runes⟩ := checked
  exact absurd (runes ',' found) (by cases wildcard <;> decide)

/-- What the DHCP settings of an accepted subnet are. -/
structure DHCPOptions.Accepted (dhcp : DHCPOptions) : Prop where
  servers : ∀ server ∈ dhcp.dnsServers, server.isValid = true
  domainName : ',' ∉ dhcp.domainName.toList
  searchDomains : ∀ domain ∈ dhcp.searchDomains,
    trimSpace domain ≠ "" ∧ ',' ∉ domain.toList

theorem DHCPOptions.accepted_of_validate {dhcp : DHCPOptions}
    (accepted : dhcp.validate = .ok result) (enabled : dhcp.enabled) : dhcp.Accepted := by
  simp only [DHCPOptions.validate, enabled, Bool.not_true, Bool.false_eq_true, if_false,
    bind_eq_ok, checkIf_eq_ok, context_eq_ok, decide_eq_true_eq]
    at accepted
  obtain ⟨_, _, _, servers, _, domain, domains⟩ := accepted
  refine ⟨fun server member => ?_, ?_, fun domain member => ?_⟩
  · obtain ⟨n, checked⟩ := of_forEach servers server member
    simp only [bind_eq_ok, require_eq_ok] at checked
    obtain ⟨_, valid, _⟩ := checked
    exact valid
  · by_cases empty : dhcp.domainName = ""
    · rw [empty]
      decide
    · exact (of_validateDNSName (domain empty)).2
  · obtain ⟨n, checked⟩ := of_forEach domains domain member
    exact of_validateDNSName ((context_eq_ok _ _ _).mp checked)

variable {subnet : Subnet}

section

variable (accepted : subnet.validate = .ok result)

include accepted

theorem Subnet.dhcp_of_validate :
    subnet.dhcp.validate = .ok () ∧
      ∀ server ∈ subnet.dhcp.dnsServers, server.is4 = subnet.cidr.addr.is4 := by
  simp only [Subnet.validate, bind_eq_ok, context_eq_ok] at accepted
  obtain ⟨_, _, _, _, _, _, _, _, _, _, _, _, _, _, _, _, _, _, _, _, _, dhcp, servers⟩ := accepted
  refine ⟨dhcp, fun server member => ?_⟩
  obtain ⟨n, checked⟩ := of_forEach servers server member
  simpa using checked

theorem Subnet.of_validate :
    subnet.cidr.isValid ∧ subnet.cidr.masked = subnet.cidr := by
  simp only [Subnet.validate, validateMaskedPrefix, bind_eq_ok, require_eq_ok,
    decide_eq_true_eq] at accepted
  obtain ⟨_, _, _, _, _, valid, _, masked, _⟩ := accepted
  exact ⟨valid, masked.symm⟩

theorem Subnet.gateway_of_validate :
    subnet.gateway.isValid := by
  simp only [Subnet.validate, bind_eq_ok, require_eq_ok] at accepted
  obtain ⟨_, _, _, _, _, _, _, _, _, valid, _⟩ := accepted
  exact valid

end

theorem Gateway.lanIP_of_validate {gateway : Gateway} (accepted : gateway.validate = .ok result) :
    gateway.lanIP.isValid := by
  simp only [Gateway.validate, bind_eq_ok, require_eq_ok] at accepted
  obtain ⟨_, _, _, _, _, _, _, _, _, valid, _⟩ := accepted
  exact valid

theorem DNSRecord.ips_of_validate {record : DNSRecord} (accepted : record.validate = .ok result) :
    ∀ ip ∈ record.ips, ip.isValid := by
  intro ip member
  simp only [DNSRecord.validate, bind_eq_ok] at accepted
  obtain ⟨_, _, _, _, _, _, _, _, distinct⟩ := accepted
  obtain ⟨n, checked⟩ := (of_distinct distinct).1 ip member
  simp only [bind_eq_ok, require_eq_ok] at checked
  obtain ⟨_, valid, _⟩ := checked
  exact valid

/-- The address of an accepted service is valid and its frontends have ports. -/
theorem LoadBalancer.of_validate {service : LoadBalancer}
    (accepted : service.validate = .ok result) :
    service.vip.isValid ∧
      ∀ frontend ∈ service.frontends, frontend.protocol.hasPorts := by
  simp only [LoadBalancer.validate, bind_eq_ok, require_eq_ok] at accepted
  obtain ⟨_, _, _, _, _, valid, _, _, _, _, _, _, _, _, _, _, _, _, _, frontends, _⟩ := accepted
  refine ⟨valid, fun frontend member => ?_⟩
  obtain ⟨checks, _, _⟩ := of_distinctFrom frontends
  obtain ⟨n, found⟩ := getElem?_of_mem member
  have checked := (checks n frontend found).1
  simp only [bind_eq_ok, require_eq_ok] at checked
  obtain ⟨_, _, _, ports, _⟩ := checked
  exact ports

theorem LoadBalancer.vip_of_mem_frontends {service : LoadBalancer}
    {frontend : LoadBalancerFrontend} (member : frontend ∈ service.frontends) :
    frontend.vip = service.vip := by
  obtain ⟨port, _, rfl⟩ := mem_map.mp member
  rfl

theorem CIDRGroupEntry.of_validate {entry : CIDRGroupEntry} (accepted : entry.validate = .ok result) :
    entry.cidr.isValid ∧ entry.cidr.masked = entry.cidr ∧
      ∀ except ∈ entry.exceptCIDRs, ExceptOf entry.cidr except := by
  simp only [CIDRGroupEntry.validate, validateMaskedPrefix, bind_eq_ok,
    require_eq_ok, decide_eq_true_eq] at accepted
  obtain ⟨_, valid, _, masked, excepts⟩ := accepted
  rw [← masked] at excepts
  exact ⟨valid, masked.symm, exceptOf_of_validateExceptCIDRs excepts⟩

theorem CIDRGroup.of_validate {group : CIDRGroup} (accepted : group.validate = .ok result) :
    (∀ cidr ∈ group.cidrs, cidr.isValid) ∧
      ∀ entry ∈ group.entries, entry.cidr.isValid ∧ entry.cidr.masked = entry.cidr ∧
        ∀ except ∈ entry.exceptCIDRs, ExceptOf entry.cidr except := by
  simp only [CIDRGroup.validate, bind_eq_ok, require_eq_ok] at accepted
  obtain ⟨_, _, _, _, _, _, _, cidrs, entries⟩ := accepted
  constructor
  · intro cidr member
    obtain ⟨n, checked⟩ := (of_distinct cidrs).1 cidr member
    simp only [bind_eq_ok, require_eq_ok] at checked
    obtain ⟨_, valid, _⟩ := checked
    exact valid
  · intro entry member
    obtain ⟨checks, _, _⟩ := of_distinctFrom entries
    obtain ⟨n, found⟩ := getElem?_of_mem member
    exact CIDRGroupEntry.of_validate ((context_eq_ok ..).mp (checks n entry found).1)

/-- What the compiler uses of an accepted rule. -/
structure SecurityGroupRule.Accepted (rule : SecurityGroupRule) : Prop where
  direction : rule.direction = .ingress ∨ rule.direction = .egress
  priority : securityGroupPriorityMin ≤ rule.priority ∧ rule.priority ≤ securityGroupPriorityMax
  action : rule.action = .allow ∨ rule.action = .drop ∨ rule.action = .reject ∨ rule.action = .log
  onlySelector : rule.remoteSelectors ≤ 1
  exceptsNeedCIDR : rule.exceptCIDRs = [] ∨ rule.remoteCIDR.isValid = true
  excepts : ∀ except ∈ rule.exceptCIDRs, ExceptOf rule.remoteCIDR.masked except

theorem SecurityGroupRule.accepted_of_validate {rule : SecurityGroupRule}
    (accepted : rule.validate = .ok result) : rule.Accepted := by
  simp only [SecurityGroupRule.validate, validateMaskedPrefix, bind_eq_ok,
    require_eq_ok, checkIf_eq_ok, Bool.or_eq_true, Bool.and_eq_true,
    decide_eq_true_eq, List.isEmpty_iff] at accepted
  obtain ⟨_, _, _, direction, _, _, _, priority, _, action, _, _, _, _, _, _, _, _, _, _, _, _, _, _,
    _, only, _, _, _, _, _, _, _, _, _, _, _, needCIDR, _, _, _, excepts, _⟩ := accepted
  exact ⟨direction, priority, by simpa using action, only, needCIDR, exceptOf_of_validateExceptCIDRs excepts⟩

theorem SecurityGroup.of_validate {group : SecurityGroup} (accepted : group.validate = .ok result) :
    (0 ≤ group.tier ∧ group.tier ≤ 1) ∧ ∀ rule ∈ group.rules, rule.Accepted := by
  simp only [SecurityGroup.validate, bind_eq_ok, require_eq_ok, Bool.and_eq_true,
    decide_eq_true_eq] at accepted
  obtain ⟨_, _, _, _, _, tier, distinct⟩ := accepted
  refine ⟨tier, fun rule member => ?_⟩
  obtain ⟨n, checked⟩ := (of_distinct distinct).1 rule member
  exact SecurityGroupRule.accepted_of_validate ((context_eq_ok _ _ _).mp checked)

end Netloom.Model
