import Netloom.Model.Validate

/-!
# Provider networks

Provider networks with the nodes they reach, the quotas of their tenants and the queue
policies of their tenants, and groups of endpoints by identity.
-/
namespace Netloom.Model

open Checked Strings

structure ProviderNetworkNode where
  node : String
  interface : String
  interfaces : List String
  deriving DecidableEq, Repr

structure ProviderNetworkQoS where
  egressRateBPS : BitVec 64
  egressBurstBPS : BitVec 64
  deriving DecidableEq, Repr

/-- What a quota limits. -/
inductive Resource where
  | subnets | endpoints | loadBalancers | natRules | policyRoutes | securityGroups
  | securityGroupRules
  deriving DecidableEq, Repr

/-- In the order of the checks. -/
def Resource.all : List Resource :=
  [.subnets, .endpoints, .loadBalancers, .natRules, .policyRoutes, .securityGroups,
    .securityGroupRules]

theorem Resource.mem_all (resource : Resource) : resource ∈ Resource.all := by
  cases resource <;> decide

/-- The resource in a message. -/
def Resource.noun : Resource → String
  | subnets => "subnets"
  | endpoints => "endpoints"
  | loadBalancers => "load balancers"
  | natRules => "nat rules"
  | policyRoutes => "policy routes"
  | securityGroups => "security groups"
  | securityGroupRules => "security group rules"

/-- The name of the field with the limit. -/
def Resource.field : Resource → String
  | subnets => "max_subnets"
  | endpoints => "max_endpoints"
  | loadBalancers => "max_load_balancers"
  | natRules => "max_nat_rules"
  | policyRoutes => "max_policy_routes"
  | securityGroups => "max_security_groups"
  | securityGroupRules => "max_security_group_rules"

structure ProviderNetworkTenantQuota where
  tenant : String
  max : Resource → Int

structure ProviderNetworkTenantQueuePolicy where
  tenant : String
  queueID : Int
  protocol : Protocol
  ports : List PortRange
  endpointSelector : Labels
  endpointExpressions : List LabelExpr
  identityGroups : List String
  identitySelector : Labels
  identityExpressions : List LabelExpr
  minRateBPS : BitVec 64
  maxRateBPS : BitVec 64
  burstBPS : BitVec 64
  deriving DecidableEq

structure IdentityGroup where
  name : String
  vpc : String
  source : String
  observedAt : Time
  ttlSeconds : BitVec 32
  endpointIDs : List String
  endpointSelector : Labels
  endpointExpressions : List LabelExpr
  deriving DecidableEq

structure ProviderNetwork where
  name : String
  nodes : List ProviderNetworkNode
  isolation : String
  controllerTargets : List String
  qos : ProviderNetworkQoS
  tenantQuotas : List ProviderNetworkTenantQuota
  tenantQueues : List ProviderNetworkTenantQueuePolicy

/-! ### Validation -/

def ProviderNetworkQoS.validate (q : ProviderNetworkQoS) : Except String Unit :=
  require (!(q.egressBurstBPS ≠ 0 && q.egressRateBPS = 0)) "egress_burst_bps requires egress_rate_bps"

def ProviderNetworkTenantQuota.validate (q : ProviderNetworkTenantQuota) : Except String Unit := do
  require (q.tenant ≠ "") "tenant is required"
  forM Resource.all fun resource =>
    require (0 ≤ q.max resource) s!"{resource.field} must not be negative"
  require (Resource.all.any fun resource => q.max resource ≠ 0)
    ("max_subnets, max_endpoints, max_load_balancers, max_nat_rules, max_policy_routes, " ++
      "max_security_groups, or max_security_group_rules is required")

def ProviderNetworkTenantQueuePolicy.validate (q : ProviderNetworkTenantQueuePolicy) :
    Except String Unit := do
  require (q.tenant ≠ "") "tenant is required"
  require (q.protocol = .unset || q.protocol = .tcp || q.protocol = .udp || q.protocol = .sctp)
    s!"protocol {quote q.protocol.text} is invalid"
  require (q.ports.isEmpty || q.protocol ≠ .unset) "ports require protocol"
  forEach (fun i port => do
    context (fun err => s!"port {i}: {err}") port.validate
    require (port.toPort.toNat - port.fromPort.toNat + 1 ≤ 1024)
      s!"port {i} range must not exceed 1024 ports") q.ports
  require (0 ≤ q.queueID) "queue_id must not be negative"
  require (!(q.minRateBPS = 0 && q.maxRateBPS = 0)) "min_rate_bps or max_rate_bps is required"
  require (!(q.burstBPS ≠ 0 && q.maxRateBPS = 0)) "burst_bps requires max_rate_bps"
  context (fun err => s!"endpoint_selector: {err}") (Labels.validate q.endpointSelector)
  forEach (fun i expression => context (fun err => s!"endpoint_expression {i}: {err}")
    expression.validate) q.endpointExpressions
  distinct (fun _ group => do
      require (trimSpace group ≠ "") "identity group is required"
      require (!containsAny group " \t\r\n")
        s!"identity group {quote group} must not contain whitespace")
    id (fun _ group => s!"identity group {quote group} is duplicated") q.identityGroups
  context (fun err => s!"identity_selector: {err}") (Labels.validate q.identitySelector)
  forEach (fun i expression => context (fun err => s!"identity_expression {i}: {err}")
    expression.validate) q.identityExpressions

def labelsSelectorKey (labels : Labels) : String :=
  ",".intercalate ((sortStrings labels.keys).map fun key =>
    key ++ "=" ++ (labels.lookup key).getD "")

def labelExpressionsSelectorKey (expressions : List LabelExpr) : String :=
  ";".intercalate (sortStrings (expressions.map fun expression =>
    expression.key ++ ":" ++ normalizeLabelExprOperator expression.operator ++ ":" ++
      ",".intercalate (sortStrings expression.values)))

/-- The order of port ranges in a selector key. -/
def portRangeBefore (a b : PortRange) : Bool :=
  if a.fromPort ≠ b.fromPort then a.fromPort < b.fromPort else a.toPort ≤ b.toPort

/-- A part of a selector key that is left out if it is empty. -/
private def namedPart (name value : String) : List String :=
  if value = "" then [] else [name ++ "=" ++ value]

def providerNetworkTenantQueueSelectorKey (queue : ProviderNetworkTenantQueuePolicy) : String :=
  "|".intercalate ([queue.tenant, queue.protocol.text] ++
    (queue.ports.insertionSort fun a b => portRangeBefore a b).map (fun port =>
      s!"{port.fromPort.toNat}-{port.toPort.toNat}") ++
    namedPart "selector" (labelsSelectorKey queue.endpointSelector) ++
    namedPart "expressions" (labelExpressionsSelectorKey queue.endpointExpressions) ++
    (if queue.identityGroups.isEmpty then []
      else ["identity_groups=" ++ ",".intercalate (sortStrings queue.identityGroups)]) ++
    namedPart "identity_selector" (labelsSelectorKey queue.identitySelector) ++
    namedPart "identity_expressions" (labelExpressionsSelectorKey queue.identityExpressions))

def ProviderNetworkNode.validate (n : ProviderNetworkNode) : Except String Unit := do
  require (n.node ≠ "") "provider network node is required"
  require (!(n.interface = "" && n.interfaces.isEmpty))
    "provider network interface or interfaces are required"
  require (!(n.interface ≠ "" && !n.interfaces.isEmpty))
    "provider network interface and interfaces are mutually exclusive"
  distinct (fun _ candidate => require (candidate ≠ "")
      "provider network candidate interface is required") id
    (fun _ candidate => s!"provider network candidate interface {quote candidate} is duplicated")
    n.interfaces

/-- Selectors and identifiers of queues are told apart. -/
def validateTenantQueue (seen : List ProviderNetworkTenantQueuePolicy)
    (queue : ProviderNetworkTenantQueuePolicy) : Except String Unit := do
  context (fun err => s!"provider network tenant queue {seen.length}: {err}") queue.validate
  require (!seen.any fun old => providerNetworkTenantQueueSelectorKey old =
      providerNetworkTenantQueueSelectorKey queue)
    (s!"provider network tenant queue selector " ++
      s!"{quote (providerNetworkTenantQueueSelectorKey queue)} is duplicated")
  require (!seen.any fun old => old.queueID = queue.queueID)
    s!"provider network tenant queue id {queue.queueID} is duplicated"

def ProviderNetwork.validate (p : ProviderNetwork) : Except String Unit := do
  require (p.name ≠ "") "provider network name is required"
  require (p.isolation = "" || p.isolation = "exclusive")
    s!"provider network isolation {quote p.isolation} is invalid"
  distinct (fun i target => do
      require (trimSpace target ≠ "") s!"provider network controller target {i} is required"
      require (target = trimSpace target) (s!"provider network controller target " ++
        s!"{quote target} must not contain leading or trailing whitespace"))
    id (fun _ target => s!"provider network controller target {quote target} is duplicated")
    p.controllerTargets
  context (fun err => s!"provider network qos: {err}") p.qos.validate
  distinct (fun i quota => context (fun err => s!"provider network tenant quota {i}: {err}")
      quota.validate) ProviderNetworkTenantQuota.tenant
    (fun _ quota => s!"provider network tenant quota {quote quota.tenant} is duplicated")
    p.tenantQuotas
  growing validateTenantQueue [] p.tenantQueues
  require (!p.nodes.isEmpty) "provider network nodes are required"
  distinct (fun i node => context (fun err => s!"provider network node {i}: {err}") node.validate)
    ProviderNetworkNode.node
    (fun _ node => s!"provider network node {quote node.node} is duplicated") p.nodes

/-- Tenants of one provider network have one quota each. -/
theorem ProviderNetwork.nodup_of_validate {p : ProviderNetwork} (valid : p.validate = .ok ()) :
    (p.tenantQuotas.map ProviderNetworkTenantQuota.tenant).Nodup := by
  simp only [ProviderNetwork.validate, bind_eq_ok] at valid
  obtain ⟨_, _, _, _, _, _, _, _, _, quotas, _⟩ := valid
  exact (of_distinct quotas).2

end Netloom.Model
