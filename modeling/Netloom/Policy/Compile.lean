import Netloom.Policy.Expand

/-!
# Compilation of an endpoint's policy

The context is indexed, every rule of every attached group is expanded and
compacted, each resulting rule becomes map entries, and default-allow rules are
added for the directions in which no group asks for default deny.
-/
namespace Netloom.Policy

open Netip (Addr Prefix)
open Model Fold
open Checked (require context)
open Strings (quote)

/-! ### Indexes -/

def sortEndpoints (endpoints : List Endpoint) : List Endpoint :=
  endpoints.insertionSort fun a b => ¬ b.id < a.id

def indexRemoteGroupMembers (vpc : String) (groups : SecurityGroups)
    (endpoints : Option (List Endpoint)) :
    Except String (Option (AList (fun _ : String => List Endpoint))) :=
  match endpoints with
  | none => .ok none
  | some endpoints => do
    let empty : AList (fun _ : String => List Endpoint) := groups.entries.foldl (fun out group =>
      if group.2.vpc ≠ vpc then out else out.insert group.1 []) ∅
    let out ← endpoints.foldlM (fun out endpoint =>
      if endpoint.vpc ≠ vpc then pure out
      else do
        endpoint.validate
        pure (endpoint.securityGroups.foldl (fun out groupName =>
          if groupName ∈ out then appendAt out groupName [endpoint] else out) out)) empty
    pure (some (mapValues sortEndpoints out))

def indexEndpointSelectorMembers (vpc : String) (endpoints : Option (List Endpoint)) :
    Except String (Option (List Endpoint)) :=
  match endpoints with
  | none => .ok none
  | some endpoints => do
    let out := endpoints.filter fun endpoint => endpoint.vpc = vpc
    forM out Endpoint.validate
    pure (some (sortEndpoints out))

def expandCIDRGroupEntry (entry : CIDRGroupEntry) : List Prefix :=
  subtractAll [entry.cidr.masked] entry.exceptCIDRs

def cidrGroupPrefixes (group : CIDRGroup) : List Prefix :=
  dedupe (sortByString (group.cidrs.map Prefix.masked ++ group.entries.flatMap expandCIDRGroupEntry))

/-- The index of the objects of a VPC by name: every object is validated, and a name
occurs once. -/
def indexByName {α β : Type} (validate : α → Except String Unit) (vpcOf nameOf : α → String)
    (value : α → β) (kind vpc : String) (items : List α) :
    Except String (AList (fun _ : String => β)) :=
  items.foldlM (fun out item => do
    validate item
    if vpcOf item ≠ vpc then pure out
    else do
      require (nameOf item ∉ out) s!"duplicate {kind} {quote (nameOf item)} in vpc {vpc}"
      pure (out.insert (nameOf item) (value item))) ∅

def indexCIDRGroups (vpc : String) (groups : List CIDRGroup) :
    Except String (AList (fun _ : String => List Prefix)) :=
  indexByName CIDRGroup.validate CIDRGroup.vpc CIDRGroup.name cidrGroupPrefixes "cidr group" vpc
    groups

def indexServices (vpc : String) (services : List LoadBalancer) :
    Except String (AList (fun _ : String => LoadBalancer)) :=
  indexByName LoadBalancer.validate LoadBalancer.vpc LoadBalancer.name (fun service => service)
    "service" vpc services

def indexSubnetsByVPC (subnets : List Subnet) : Except String SubnetIndex := do
  let out ← subnets.foldlM (fun out subnet => do
    subnet.validate
    pure (appendAt out subnet.vpc [subnet.cidr.masked])) ∅
  pure (mapValues sortByString out)

def sortGatewayCIDRs (gateways : List GatewayCIDR) : List GatewayCIDR :=
  gateways.insertionSort fun a b =>
    ¬ (if b.cidr ≠ a.cidr then b.cidr.string < a.cidr.string else b.node < a.node)

def indexGatewayCIDRsByVPC (gateways : List Gateway) : Except String GatewayIndex := do
  let out ← gateways.foldlM (fun out gateway => do
    gateway.validate
    pure (appendAt out gateway.vpc
      [{ node := gateway.node, cidr := hostPrefix gateway.lanIP : GatewayCIDR }])) ∅
  pure (mapValues sortGatewayCIDRs out)

/-! ### Compaction of rules -/

private def optionKey (value : Option (BitVec 8)) : String :=
  value.elim "" fun byte => toString byte.toNat

variable (rule : Rule) (localVPC : String)

def ruleCompactionKey : String :=
  String.intercalate "\x00" [rule.id, rule.vpc, toString rule.tier, toString rule.priority,
    rule.direction.text, rule.protocol.text, rule.remoteGroup, rule.remoteService,
    rule.remoteCIDRGroup, rule.remoteEntity, rule.remoteEndpoint, rule.remoteFQDN,
    portRangesKey rule.ports, String.intercalate "," rule.namedPorts, optionKey rule.icmpType,
    optionKey rule.icmpCode, rule.action.text, toString rule.stateful, toString rule.log,
    rule.securityGroup]

/-- The rules of one compaction key, with their prefixes compacted. -/
def compactRuleGroup (group : List Rule) : List Rule :=
  match group with
  | [] => []
  | template :: rest =>
    if rest.isEmpty || !template.remoteCIDR.isValid then group
    else (compactCIDRs (group.map fun rule => rule.remoteCIDR.masked)).map (setCIDR template)

/-- `compactEquivalentCIDRRules`: the keys stay in the order of their first rules. -/
def compactEquivalentCIDRRules (rules : List Rule) : List Rule :=
  if rules.length < 2 then rules
  else (dedupe (rules.map ruleCompactionKey)).flatMap fun key =>
    compactRuleGroup (rules.filter fun rule => ruleCompactionKey rule = key)

/-! ### Map entries -/

/-- The 32-bit FNV-1a hash of the bytes of a text. -/
def fnv32a (value : String) : BitVec 32 :=
  value.toUTF8.data.toList.foldl (fun hash byte =>
    (hash ^^^ byte.toBitVec.setWidth 32) * 16777619) 2166136261

def stableIdentity (value : String) : BitVec 32 := 0x80000000 ||| (fnv32a value &&& 0x7fffffff)

/-- `remoteIdentity` with the resolver already chosen. -/
def remoteIdentity (rule : Rule) (resolver : IdentityResolver) : BitVec 32 :=
  let scope := (if localVPC = "" then "_global" else localVPC) ++ "\x00"
  if rule.remoteEndpoint ≠ "" then resolver ("endpoint:" ++ rule.remoteEndpoint)
  else if rule.remoteEntity ≠ "" then
    resolver ("entity:" ++ scope ++ rule.remoteEntity ++ ":" ++ rule.remoteCIDR.string)
  else if rule.remoteService ≠ "" then
    resolver ("service:" ++ scope ++ rule.remoteService ++ ":" ++ rule.remoteCIDR.string)
  else if rule.remoteCIDR.isValid then resolver ("cidr:" ++ scope ++ rule.remoteCIDR.string)
  else if rule.remoteGroup ≠ "" then resolver ("sg:" ++ scope ++ rule.remoteGroup)
  else 0

def ruleReference : String :=
  if rule.vpc = "" ∧ rule.securityGroup = "" then rule.id
  else rule.vpc ++ "/" ++ rule.securityGroup ++ "/" ++ rule.id

/-- The map entry of one port block of a rule. -/
def mapEntry (resolver : IdentityResolver) (port : PortPrefix) : MapEntry where
  key := {
    remoteIdentity := remoteIdentity localVPC rule resolver
    direction := rule.direction
    protocol := normalizedProtocol rule.protocol
    destPort := port.port
    l4PrefixBits := port.l4PrefixBits }
  value := {
    deny := rule.action = .drop || rule.action = .reject
    reject := rule.action = .reject
    precedence := precedence rule
    stateful := rule.stateful
    log := rule.log || rule.action = .log
    requireIdentity := rule.remoteEndpoint ≠ "" }
  remoteCIDR := rule.remoteCIDR
  ruleID := rule.id
  ruleRef := ruleReference rule

def compileMapEntries (resolver : IdentityResolver) : Except String (List MapEntry) := do
  let portPrefixes ← context (fun err => s!"rule {rule.id}: {err}") (l4PortPrefixes rule)
  pure (portPrefixes.map (mapEntry rule localVPC resolver))

/-! ### Default deny -/

def hasRulesForDirection (rules : List SecurityGroupRule) (direction : Direction) : Bool :=
  rules.any fun rule => rule.direction = direction

/-- The default-deny setting of a group, for the two directions that have one. -/
def defaultDenySetting (group : SecurityGroup) : Direction → Option (Option Bool)
  | .ingress => some group.defaultDenyIngress
  | .egress => some group.defaultDenyEgress
  | .other _ => none

/-- The loop of `defaultDenyDisabledForDirection` over the groups still to come. -/
def defaultDenyDisabledFrom (direction : Direction) : Bool → List SecurityGroup → Bool
  | hasDefaultAllowPolicy, [] => hasDefaultAllowPolicy
  | hasDefaultAllowPolicy, group :: rest => match defaultDenySetting group direction with
    | none => false
    | some (some false) => defaultDenyDisabledFrom direction true rest
    | some (some true) => false
    | some none =>
      if hasRulesForDirection group.rules direction then false
      else defaultDenyDisabledFrom direction hasDefaultAllowPolicy rest

def defaultDenyDisabledForDirection (groups : List SecurityGroup) (direction : Direction) : Bool :=
  defaultDenyDisabledFrom direction false groups

def defaultAllowRule (direction : Direction) : Rule where
  id := "netloom-default-allow-" ++ direction.text
  tier := 1
  direction
  protocol := .any
  action := .allow

/-! ### Compilation -/

/-- Rules with their map entries, as they are collected. -/
abbrev Compiled := List (Rule × List MapEntry)

def compileRules (rules : List Rule) (localVPC : String) (resolver : IdentityResolver) :
    Except String Compiled :=
  rules.mapM fun rule => do
    let entries ← compileMapEntries rule localVPC resolver
    pure (rule, entries)

/-- `appendDefaultAllowRules`: no resolver is passed, so the default one is used. -/
def defaultAllowRules (groups : List SecurityGroup) : Except String Compiled :=
  compileRules (([Direction.ingress, .egress].filter
    (defaultDenyDisabledForDirection groups)).map defaultAllowRule) "" stableIdentity

variable (endpoint : Endpoint) (groups : SecurityGroups)

def buildIndexes (ctx : CompileContext) (clock : Time) : Except String Indexes := do
  let membersByGroup ← indexRemoteGroupMembers endpoint.vpc groups ctx.endpoints
  let endpointsBySelector ← indexEndpointSelectorMembers endpoint.vpc ctx.endpoints
  let dnsRecords ← indexDNSRecords ctx.dnsRecords ctx.now clock ctx.fqdnMaxIPsPerHostname
  let cidrGroups ← indexCIDRGroups endpoint.vpc ctx.cidrGroups
  let services ← indexServices endpoint.vpc ctx.services
  let subnetsByVPC ← indexSubnetsByVPC ctx.subnets
  let gatewayCIDRsByVPC ← indexGatewayCIDRsByVPC ctx.gateways
  pure { membersByGroup, endpointsBySelector, dnsRecords, cidrGroups, services, subnetsByVPC,
         gatewayCIDRsByVPC }

/-- A group an endpoint names, if it exists in the endpoint's VPC and is valid. -/
def attachedGroup (groupName : String) : Except String SecurityGroup :=
  match groups.lookup groupName with
  | none => .error s!"endpoint {endpoint.id} references unknown security group {groupName}"
  | some group => do
    require (group.vpc = endpoint.vpc) (s!"security group {group.name} belongs to vpc " ++
      s!"{group.vpc}, endpoint {endpoint.id} belongs to {endpoint.vpc}")
    group.validate
    pure group

def compileGroup (indexes : Indexes) (resolver : IdentityResolver)
    (group : SecurityGroup) : Except String Compiled := do
  let compiled ← group.rules.mapM fun rule => do
    let rules ← expandRule endpoint group rule indexes
    compileRules (compactEquivalentCIDRRules rules) endpoint.vpc resolver
  pure compiled.flatten

def sortRules (rules : List Rule) : List Rule :=
  rules.insertionSort fun a b =>
    ¬ (if precedence b ≠ precedence a then precedence b > precedence a else b.id < a.id)

def sortMapEntries (entries : List MapEntry) : List MapEntry :=
  entries.insertionSort fun a b =>
    ¬ (if b.value.precedence ≠ a.value.precedence then b.value.precedence > a.value.precedence
      else b.ruleID < a.ruleID)

def compileForEndpointWithContext
    (ctx : CompileContext) (clock : Time) : Except String Program := do
  endpoint.validate
  let resolver := ctx.identityResolver.getD stableIdentity
  let indexes ← buildIndexes endpoint groups ctx clock
  let attached ← endpoint.securityGroups.mapM fun groupName => do
    let group ← attachedGroup endpoint groups groupName
    let compiled ← compileGroup endpoint indexes resolver group
    pure (group, compiled)
  let defaults ← defaultAllowRules (attached.map Prod.fst)
  let compiled := (attached.map Prod.snd).flatten ++ defaults
  pure {
    endpointID := endpointKey endpoint.vpc endpoint.id
    endpointIP := endpoint.ip
    mapEntries := sortMapEntries (compiled.map Prod.snd).flatten
    rules := sortRules (compiled.map Prod.fst) }

theorem endpointID_of_compile {endpoint : Endpoint} {groups : SecurityGroups} {ctx : CompileContext}
    {clock : Time} {program : Program}
    (compiles : compileForEndpointWithContext endpoint groups ctx clock = .ok program) :
    program.endpointID = endpointKey endpoint.vpc endpoint.id := by
  simp only [compileForEndpointWithContext, Checked.bind_eq_ok, Checked.pure_eq_ok] at compiles
  obtain ⟨_, _, _, _, _, _, _, _, rfl⟩ := compiles
  rfl

end Netloom.Policy
