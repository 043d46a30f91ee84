import Netloom.Policy.Cidrs
import Netloom.Lib.Aligned

/-!
# Expansion of one security-group rule

A rule of a security group becomes one compiled rule per port block and per remote
prefix, service frontend or remote endpoint its selector stands for.

A pattern of DNS names is compiled to a regular expression of three kinds of piece: a
character, the starred class a `*` becomes, and the repeated label a leading
`**.` becomes. Patterns reach the compiler only after validation, so their
characters are letters, digits, `-`, `_`, `.` and `*`, none of which the
expression language reads otherwise.
-/
namespace Netloom.Policy

open Netip (Addr Prefix)
open Model Strings

def normalizeDNSName (name : String) : String :=
  trimSuffix (toLower (trimSpace name)) "."

/-- A piece of the compiled expression. -/
inductive Piece where
  | rune (c : Char)
  | labelRunes
  | labels
  deriving DecidableEq, Repr

/-- The class `[-a-z0-9_]`. -/
def isLabelRune (c : Char) : Bool :=
  c == '-' || ('a' ≤ c && c ≤ 'z') || ('0' ≤ c && c ≤ '9') || c == '_'

/-- Characters stand for themselves; a run of stars is one starred class. -/
def wildcardPieces : Bool → List Char → List Piece
  | _, [] => []
  | afterStar, '*' :: rest =>
    if afterStar then wildcardPieces true rest else .labelRunes :: wildcardPieces true rest
  | _, c :: rest => .rune c :: wildcardPieces false rest

def fqdnPatternRegexp : List Char → List Piece
  | '*' :: '*' :: '.' :: rest => .labels :: fqdnPatternRegexp rest
  | pattern => wildcardPieces false pattern

/-- One or more labels, each with its dot. -/
def areLabels (text : List Char) : Bool :=
  text.getLast? == some '.' &&
    (List.splitOn '.' text.dropLast).all fun label => !label.isEmpty && label.all isLabelRune

/-- Whether the expression matches the whole text. -/
def matchString : List Piece → List Char → Bool
  | [], text => text.isEmpty
  | .rune _ :: _, [] => false
  | .rune c :: pieces, x :: text => x == c && matchString pieces text
  | .labelRunes :: pieces, text => (List.range (text.length + 1)).any fun n =>
    (text.take n).all isLabelRune && matchString pieces (text.drop n)
  | .labels :: pieces, text => (List.range (text.length + 1)).any fun n =>
    areLabels (text.take n) && matchString pieces (text.drop n)

def fqdnPatternMatches (pattern name : String) : Bool :=
  let pattern := normalizeDNSName (trimSpace pattern)
  matchString (fqdnPatternRegexp pattern.toList) (normalizeDNSName name).toList

def fqdnSelectorsMatch (selectors : List FQDNSelector) (name : String) : Bool :=
  selectors.any fun selector =>
    (selector.matchName ≠ "" && normalizeDNSName selector.matchName == name) ||
      (selector.matchPattern ≠ "" && fqdnPatternMatches selector.matchPattern name)

/-! ### The index of DNS records -/

def defaultFQDNMaxIPsPerHostname : Int := 50

def effectiveFQDNMaxIPsPerHostname (maxIPsPerHostname : Int) : Nat :=
  if maxIPsPerHostname = 0 then defaultFQDNMaxIPsPerHostname.toNat
  else if maxIPsPerHostname < 0 then 0
  else maxIPsPerHostname.toNat

def sortAddrs (ips : List Addr) : List Addr :=
  ips.insertionSort fun a b => ¬ b.string < a.string

/-- The addresses kept for one name: sorted by text, each once, up to the limit, where
zero is no limit. -/
def keptAddrs (limit : Nat) (ips : List Addr) : List Addr :=
  let sorted := dedupe (sortAddrs ips)
  if 0 < limit && limit < sorted.length then sorted.take limit else sorted

abbrev DNSIndex := AList (fun _ : String => List Addr)

/-- `indexDNSRecords`, where `clock` is what `time.Now` returns. -/
def indexDNSRecords (records : List DNSRecord) (now clock : Time) (maxIPsPerHostname : Int) :
    Except String DNSIndex :=
  if records.isEmpty then .ok ∅
  else do
    let now := if now = 0 then clock else now
    let limit := effectiveFQDNMaxIPsPerHostname maxIPsPerHostname
    let out ← records.foldlM (fun out record => do
      record.validate
      pure (if record.isExpired now then out
        else Fold.appendAt out (normalizeDNSName record.name) record.ips)) ∅
    pure (Fold.mapValues (keptAddrs limit) out)

example : fqdnPatternMatches "**.example.com" "a.b.example.com." := by decide

example : fqdnPatternMatches "*.example.com" "a.b.example.com" = false := by decide

/-! ### Ports and precedence

A port range is cut into aligned blocks, each of which becomes one map entry
with a number of significant bits: none for every protocol, 8 for the protocol
alone, and up to 24 with the port or the ICMP type and code. -/

structure PortPrefix where
  port : BitVec 16
  l4PrefixBits : BitVec 8
  deriving DecidableEq, Repr

structure PortBlock where
  port : BitVec 16
  prefixBits : BitVec 8
  deriving DecidableEq, Repr

def splitPortRange (first last : BitVec 16) : List PortBlock :=
  (Aligned.split 16 65536 first.toNat last.toNat).map fun block =>
    { port := BitVec.ofNat 16 block.1, prefixBits := BitVec.ofNat 8 block.2 }

def normalizedProtocol (protocol : Protocol) : Protocol :=
  if protocol = .unset then .any else protocol

def icmpPrefixes (rule : Rule) : List PortPrefix :=
  match rule.icmpType with
  | none => [{ port := 0, l4PrefixBits := 8 }]
  | some icmpType =>
    let value := icmpType.setWidth 16 <<< 8
    match rule.icmpCode with
    | none => [{ port := value, l4PrefixBits := 16 }]
    | some icmpCode => [{ port := value ||| icmpCode.setWidth 16, l4PrefixBits := 24 }]

def l4PortPrefixes (rule : Rule) : Except String (List PortPrefix) :=
  let protocol := normalizedProtocol rule.protocol
  if protocol = .icmp then .ok (icmpPrefixes rule)
  else if rule.ports.isEmpty then
    if protocol = .any then .ok [{ port := 0, l4PrefixBits := 0 }]
    else .ok [{ port := 0, l4PrefixBits := 8 }]
  else if protocol = .any then .error "ports require a concrete L4 protocol"
  else do
    let blocks ← rule.ports.mapM fun portRange => do
      portRange.validate
      pure ((splitPortRange portRange.fromPort portRange.toPort).map fun block =>
        { port := block.port, l4PrefixBits := 8 + block.prefixBits })
    pure blocks.flatten

/-- `precedence`: the tier in bit 31, the priority above bit 0, which is set to let a
deny win over an allow. -/
def precedence (rule : Rule) : BitVec 32 :=
  let tier := if rule.tier < 0 then 0 else if rule.tier > 1 then 1 else rule.tier
  let priority := if rule.priority < 0 then 0
    else if rule.priority > securityGroupPriorityMax then securityGroupPriorityMax
    else rule.priority
  let priorityScore := if priority ≠ 0 then securityGroupPriorityMax - priority + 1 else 0
  let precedence := BitVec.ofInt 32 (1 - tier) <<< 31 ||| BitVec.ofInt 32 priorityScore <<< 1
  if rule.action = .drop || rule.action = .reject then precedence ||| 1 else precedence

/-! ### Meaning of a port block -/

/-- The block of ports that agree with the port on the significant bits. -/
def PortBlock.contains (block : PortBlock) (port : BitVec 16) : Bool :=
  port >>> (16 - block.prefixBits.toNat) == block.port >>> (16 - block.prefixBits.toNat)

/-- The block as a start and a number of fixed leading bits. -/
def PortBlock.span (block : PortBlock) : Nat × Nat := (block.port.toNat, block.prefixBits.toNat)

section

variable {first last : BitVec 16} {block : PortBlock}

/-- The registers of the blocks are wide enough for what the loop computes. -/
theorem cuts_splitPortRange (first last : BitVec 16) :
    Aligned.Cuts 16 last.toNat first.toNat ((splitPortRange first last).map PortBlock.span) := by
  have small := last.isLt
  have cuts := Aligned.cuts_split 16 65536 first.toNat last.toNat (by omega) small (by omega)
  have same : (splitPortRange first last).map PortBlock.span =
      Aligned.split 16 65536 first.toNat last.toNat := by
    rw [splitPortRange, List.map_map]
    conv_rhs => rw [← List.map_id (Aligned.split ..)]
    refine List.map_congr_left fun pair found => ?_
    obtain ⟨bits, -, inside⟩ := cuts.spec.1 pair found
    have positive : 0 < 2 ^ (16 - pair.2) := by positivity
    simp only [Function.comp_apply, PortBlock.span, BitVec.toNat_ofNat, id_eq,
      Nat.mod_eq_of_lt (by omega : pair.1 < 2 ^ 16), Nat.mod_eq_of_lt (by omega : pair.2 < 2 ^ 8)]
  rw [same]
  exact cuts

section

variable (member : block ∈ splitPortRange first last)

include member

/-- A block of a range is aligned and lies within the range. -/
theorem bounds_splitPortRange :
    block.prefixBits.toNat ≤ 16 ∧ first.toNat ≤ block.port.toNat ∧
      2 ^ (16 - block.prefixBits.toNat) ∣ block.port.toNat ∧
      block.port.toNat + 2 ^ (16 - block.prefixBits.toNat) ≤ last.toNat + 1 := by
  have cuts := cuts_splitPortRange first last
  have inSpans := List.mem_map_of_mem (f := PortBlock.span) member
  obtain ⟨bits, divides, inside⟩ := cuts.spec.1 _ inSpans
  exact ⟨bits, cuts.le_of_mem inSpans, divides, inside⟩

theorem prefixBits_splitPortRange :
    block.prefixBits.toNat ≤ 16 :=
  (bounds_splitPortRange member).1

/-- A block of a range holds the ports from its own on. -/
theorem contains_iff_of_mem (port : BitVec 16) :
    block.contains port ↔ block.port.toNat ≤ port.toNat ∧
      port.toNat < block.port.toNat + 2 ^ (16 - block.prefixBits.toNat) := by
  obtain ⟨bits, -, divides, -⟩ := bounds_splitPortRange member
  rw [← Aligned.contains_iff_interval _ _ (by omega) divides block.port.isLt port (by omega)]
  have back : 16 - (16 - block.prefixBits.toNat) = block.prefixBits.toNat := by omega
  simp [PortBlock.contains, Cidr.contains, back]

end

/-- The blocks of a range are exactly its ports. -/
theorem contains_splitPortRange (first last port : BitVec 16) :
    (∃ block ∈ splitPortRange first last, block.contains port) ↔
      first ≤ port ∧ port ≤ last := by
  rw [BitVec.le_def, BitVec.le_def, ← (cuts_splitPortRange first last).spec.2 port.toNat]
  simp only [List.mem_map, exists_exists_and_eq_and, PortBlock.span]
  exact exists_congr fun block => and_congr_right fun member => contains_iff_of_mem member port

end

/-! ### Expansion -/

open Fold
open Netip (prefixFrom)
open Checked (require context)

/-- The prefix of a single address, 32 or 128 bits long. -/
def hostPrefix (ip : Addr) : Prefix := prefixFrom ip (if ip.is4 then 32 else 128)

/-! ### Ports -/

/-- The ports an endpoint names for a protocol; of equal names the last counts. -/
def namedPortIndex (protocol : Protocol) (endpoint : Endpoint) :
    AList (fun _ : String => BitVec 16) :=
  endpoint.namedPorts.foldl (fun byName port =>
    if port.protocol = protocol then byName.insert port.name port.port else byName) ∅

def sortPortRanges (ports : List PortRange) : List PortRange :=
  ports.insertionSort fun a b =>
    ¬ (if b.fromPort ≠ a.fromPort then b.fromPort < a.fromPort else b.toPort < a.toPort)

def resolveNamedPorts (staticPorts : List PortRange) (names : List String) (protocol : Protocol)
    (endpoint : Endpoint) : Except String (List PortRange) :=
  if names.isEmpty then .ok staticPorts
  else do
    require protocol.hasPorts "named ports require tcp, udp, or sctp protocol"
    let byName := namedPortIndex protocol endpoint
    let named ← names.mapM fun name => match byName.lookup name with
      | some port => .ok { fromPort := port, toPort := port : PortRange }
      | none => .error
        s!"named port {protocol.text}/{name} is not defined on endpoint {endpoint.id}"
    pure (sortPortRanges (staticPorts ++ named))

def portRangesContain (ranges : List PortRange) (port : BitVec 16) : Bool :=
  ranges.any fun portRange => portRange.fromPort ≤ port && port ≤ portRange.toPort

def portRangesKey (ports : List PortRange) : String :=
  String.intercalate "," (ports.map fun port => s!"{port.fromPort.toNat}-{port.toPort.toNat}")

/-! ### Selectors -/

def setCIDR (base : Rule) (cidr : Prefix) : Rule := { base with remoteCIDR := cidr }

def expandCIDRExceptRule (base : Rule) (exceptCIDRs : List Prefix) : List Rule :=
  (sortByString (subtractAll [base.remoteCIDR.masked] exceptCIDRs)).map (setCIDR base)

def expandCIDRGroupRule (base : Rule) (groups : AList (fun _ : String => List Prefix)) :
    Except String (List Rule) :=
  match groups.lookup base.remoteCIDRGroup with
  | none => .error s!"rule {base.id} references unknown remote cidr group {base.remoteCIDRGroup}"
  | some cidrs => .ok (cidrs.map (setCIDR base))

/-- The rule for one frontend of a service, if the protocol and ports admit it. -/
def serviceFrontendRule (base : Rule) (frontend : LoadBalancerFrontend) : Option Rule :=
  if base.protocol ≠ .unset ∧ base.protocol ≠ .any ∧ base.protocol ≠ frontend.protocol then none
  else if !base.ports.isEmpty ∧ ¬ portRangesContain base.ports frontend.port = true then none
  else some { base with
    remoteCIDR := hostPrefix frontend.vip
    protocol := if base.protocol = .unset ∨ base.protocol = .any then frontend.protocol
      else base.protocol
    ports := [{ fromPort := frontend.port, toPort := frontend.port }] }

def serviceRuleKey (rule : Rule) : String :=
  rule.remoteCIDR.string ++ "|" ++ rule.protocol.text ++ "|" ++ portRangesKey rule.ports

def expandServiceRule (base : Rule) (services : AList (fun _ : String => LoadBalancer)) :
    Except String (List Rule) :=
  match services.lookup base.remoteService with
  | none => .error s!"rule {base.id} references unknown remote service {base.remoteService}"
  | some service => do
    let out := dedupeBy serviceRuleKey (service.frontends.filterMap (serviceFrontendRule base))
    require (!out.isEmpty)
      s!"rule {base.id} remote service {base.remoteService} has no matching frontend"
    pure out

abbrev SubnetIndex := AList (fun _ : String => List Prefix)

abbrev GatewayIndex := AList (fun _ : String => List GatewayCIDR)

def prefix4All : Prefix := .v4 ⟨0, 0, by omega⟩

def prefix6All : Prefix := .v6 ⟨0, 0, by omega⟩

def allCIDRs : List Prefix := [prefix4All, prefix6All]

/-- The private ranges 10.0.0.0/8, 172.16.0.0/12, 192.168.0.0/16 and fc00::/7. -/
def privateCIDRs : List Prefix :=
  [.v4 ⟨0x0a000000, 8, by omega⟩, .v4 ⟨0xac100000, 12, by omega⟩, .v4 ⟨0xc0a80000, 16, by omega⟩,
    .v6 ⟨0xfc000000000000000000000000000000, 7, by omega⟩]

def gatewayCIDRs (gateways : List GatewayCIDR) (keep : GatewayCIDR → Bool) : List Prefix :=
  sortByString ((gateways.filter keep).map GatewayCIDR.cidr)

def worldCIDRs (vpc : String) (subnetsByVPC : SubnetIndex) (initial : List Prefix) :
    Except String (List Prefix) :=
  let clusterCIDRs := (subnetsByVPC.lookup vpc).getD []
  if clusterCIDRs.isEmpty then
    .error s!"remote entity world requires at least one subnet in vpc {vpc}"
  else .ok (sortByString (clusterCIDRs.foldl (fun cidrs clusterCIDR => cidrs.flatMap fun cidr =>
    if cidr.addr.is4 != clusterCIDR.masked.addr.is4 then [cidr]
    else subtractPrefix cidr clusterCIDR.masked) initial))

def entityCIDRs (entity : String) (endpoint : Endpoint) (subnetsByVPC : SubnetIndex)
    (gatewayCIDRsByVPC : GatewayIndex) : Except String (List Prefix) :=
  let gateways := (gatewayCIDRsByVPC.lookup endpoint.vpc).getD []
  match entity with
  | "all" => .ok allCIDRs
  | "world" => worldCIDRs endpoint.vpc subnetsByVPC allCIDRs
  | "world-ipv4" => worldCIDRs endpoint.vpc subnetsByVPC [prefix4All]
  | "world-ipv6" => worldCIDRs endpoint.vpc subnetsByVPC [prefix6All]
  | "host" => do
    let cidrs := gatewayCIDRs gateways fun _ => true
    require (!cidrs.isEmpty)
      s!"remote entity host requires at least one gateway in vpc {endpoint.vpc}"
    pure cidrs
  | "remote-node" => do
    let cidrs := gatewayCIDRs gateways fun gateway => gateway.node ≠ endpoint.node
    require (!cidrs.isEmpty) ("remote entity remote-node requires at least one gateway " ++
      s!"on a different node in vpc {endpoint.vpc}")
    pure cidrs
  | "private" => .ok privateCIDRs
  | "cluster" => do
    let cidrs := (subnetsByVPC.lookup endpoint.vpc).getD []
    require (!cidrs.isEmpty)
      s!"remote entity cluster requires at least one subnet in vpc {endpoint.vpc}"
    pure (sortByString cidrs)
  | "none" => .ok []
  | other => .error s!"unsupported remote entity {quote other}"

/-- The text both the entity and the FQDN expansion remove duplicates by. -/
def labelledKey (pair : String × Prefix) : String := pair.1 ++ "|" ++ pair.2.string

/-- The stable sort of labelled prefixes by label, then by text. -/
def sortLabelled (pairs : List (String × Prefix)) : List (String × Prefix) :=
  pairs.insertionSort fun a b =>
    ¬ (if b.1 ≠ a.1 then b.1 < a.1 else b.2.string < a.2.string)

def expandEntityRule (base : Rule) (endpoint : Endpoint) (entities : List String)
    (subnetsByVPC : SubnetIndex) (gatewayCIDRsByVPC : GatewayIndex) :
    Except String (List Rule) := do
  let pairs ← entities.mapM fun entity => do
    let cidrs ← context (fun err => s!"rule {base.id}: {err}")
      (entityCIDRs entity endpoint subnetsByVPC gatewayCIDRsByVPC)
    pure (cidrs.map fun cidr => (entity, cidr))
  pure ((sortLabelled (dedupeBy labelledKey pairs.flatten)).map fun pair =>
    { base with remoteEntity := pair.1, remoteCIDR := pair.2 })

/-- `expandFQDNRule`. The source visits the records in the order of a map, which the
final sort makes irrelevant. -/
def expandFQDNRule (base : Rule) (selectors : List FQDNSelector) (records : DNSIndex) : List Rule :=
  let pairs := records.entries.flatMap fun record =>
    if fqdnSelectorsMatch selectors record.1
    then record.2.map fun ip => (record.1, hostPrefix ip) else []
  (sortLabelled (dedupeBy labelledKey pairs)).map fun pair =>
    { base with remoteFQDN := pair.1, remoteCIDR := pair.2 }

/-! ### Remote endpoints -/

variable (endpoint : Endpoint)

def expandEndpointMembers (base : Rule) (rule : SecurityGroupRule)
    (members : List Endpoint) : Except String (List Rule) := do
  let others := members.filter fun candidate =>
    endpointKey candidate.vpc candidate.id ≠ endpointKey endpoint.vpc endpoint.id
  others.mapM fun candidate => do
    let ports ← if !rule.namedPorts.isEmpty ∧ rule.direction = .egress then
        context (fun err => s!"rule {rule.id} remote endpoint {candidate.id}: {err}")
          (resolveNamedPorts rule.ports rule.namedPorts rule.protocol candidate)
      else pure base.ports
    pure { base with
      remoteEndpoint := endpointKey candidate.vpc candidate.id
      ports
      remoteCIDR := if candidate.ip.is4 || candidate.ip.is6 then hostPrefix candidate.ip
        else base.remoteCIDR }

def expandEndpointSelectorRule (base : Rule) (rule : SecurityGroupRule)
    (endpoints : Option (List Endpoint)) : Except String (List Rule) :=
  match endpoints with
  | none => .error s!"rule {rule.id} remote_endpoint_selector has no endpoint context"
  | some endpoints => expandEndpointMembers endpoint base rule (endpoints.filter fun candidate =>
      Labels.matchesSelector candidate.labels rule.remoteEndpointSelector rule.remoteEndpointExprs)

/-- What the expansion of a rule looks up, built once per compilation. -/
structure Indexes where
  membersByGroup : Option (AList (fun _ : String => List Endpoint))
  endpointsBySelector : Option (List Endpoint)
  dnsRecords : DNSIndex
  cidrGroups : AList (fun _ : String => List Prefix)
  services : AList (fun _ : String => LoadBalancer)
  subnetsByVPC : SubnetIndex
  gatewayCIDRsByVPC : GatewayIndex

/-- The compiled rule every expansion starts from. -/
def baseRule (securityGroup : SecurityGroup) (rule : SecurityGroupRule) (ports : List PortRange) :
    Rule where
  id := rule.id
  vpc := securityGroup.vpc
  tier := securityGroup.tier
  priority := rule.priority
  direction := rule.direction
  protocol := rule.protocol
  remoteCIDR := rule.remoteCIDR
  remoteGroup := rule.remoteGroup
  remoteService := rule.remoteService
  remoteCIDRGroup := rule.remoteCIDRGroup
  ports
  namedPorts := rule.namedPorts
  icmpType := rule.icmpType
  icmpCode := rule.icmpCode
  action := rule.action
  stateful := rule.stateful
  log := rule.log
  securityGroup := securityGroup.name

/-- The ports of a rule on its own endpoint: the named ports of an ingress rule are
resolved there. -/
def rulePorts (rule : SecurityGroupRule) : Except String (List PortRange) :=
  if !rule.namedPorts.isEmpty ∧ rule.direction = .ingress then
    context (fun err => s!"rule {rule.id}: {err}")
      (resolveNamedPorts rule.ports rule.namedPorts rule.protocol endpoint)
  else .ok rule.ports

/-- The branches of `expandRule` after the ports are known. -/
def expandSelector (base : Rule) (rule : SecurityGroupRule)
    (indexes : Indexes) : Except String (List Rule) :=
  if !rule.remoteFQDNs.isEmpty then .ok (expandFQDNRule base rule.remoteFQDNs indexes.dnsRecords)
  else if !rule.remoteEntities.isEmpty then
    expandEntityRule base endpoint rule.remoteEntities indexes.subnetsByVPC
      indexes.gatewayCIDRsByVPC
  else if rule.remoteService ≠ "" then expandServiceRule base indexes.services
  else if rule.remoteCIDRGroup ≠ "" then expandCIDRGroupRule base indexes.cidrGroups
  else if rule.remoteCIDR.isValid ∧ !rule.exceptCIDRs.isEmpty then
    .ok (expandCIDRExceptRule base rule.exceptCIDRs)
  else if hasRemoteEndpointSelector rule then
    expandEndpointSelectorRule endpoint base rule indexes.endpointsBySelector
  else if rule.remoteGroup = "" then .ok [base]
  else match indexes.membersByGroup with
    | none => .error s!"rule {rule.id} remote_group has no endpoint context"
    | some membersByGroup => match membersByGroup.lookup rule.remoteGroup with
      | none => .error
        s!"rule {rule.id} references unknown remote security group {rule.remoteGroup}"
      | some members => expandEndpointMembers endpoint base rule members

def expandRule (securityGroup : SecurityGroup) (rule : SecurityGroupRule)
    (indexes : Indexes) : Except String (List Rule) := do
  let ports ← rulePorts endpoint rule
  require (!(!rule.namedPorts.isEmpty && rule.direction = .egress && rule.remoteGroup = "" &&
      !hasRemoteEndpointSelector rule))
    (s!"rule {rule.id}: named ports require remote_group or remote_endpoint_selector " ++
      "for egress rules")
  expandSelector endpoint (baseRule securityGroup rule ports) rule indexes

end Netloom.Policy
