import Netloom.Model.Routing

/-!
# Operations on the northbound database

The commands that the planner writes and the executor runs, and the names of the
records they are about. A constructor stands for one command with the flags the
planner always gives it.
-/
namespace Netloom.Ovn

open Model

inductive Table where
  | logicalRouter
  | logicalSwitch
  | logicalRouterPort
  | logicalSwitchPort
  | loadBalancer
  deriving DecidableEq, Repr

inductive Operation where
  -- routers and switches: `--may-exist` on additions, `--if-exists` on deletions
  | lrAdd (router : String)
  | lrDel (router : String)
  | lsAdd (switch : String)
  | lsDel (switch : String)
  -- ports, with the same flags
  | lrpAdd (router port mac network : String)
  | lrpDel (port : String)
  | lspAdd (switch port : String)
  | lspDel (port : String)
  | lspAddLocalnetPort (switch port network : String)
  | lspSetType (port type : String)
  | lspSetAddresses (port addresses : String)
  | lspSetOptions (port options : String)
  | lspSetPortSecurity (port : String) (addresses : List String)
  | lspSetDHCPv4Options (port : String)
  | lspSetDHCPv6Options (port : String)
  -- columns of a record; `create` has the flag `--id`
  | set (table : Table) (record : String) (pairs : List String)
  | remove (table : Table) (record column key : String)
  | clear (table : Table) (record column : String)
  | create (id : String) (args : List String)
  | add (table : Table) (record column value : String)
  -- static routes: `--may-exist` and possibly `--ecmp`; `--if-exists`
  | lrRouteAdd (ecmp : Bool) (router destination nextHop : String)
  | lrRouteDel (router destination : String) (nextHop : Option String)
  -- policy routes; the last five are commands of the executor
  | lrPolicyAdd (router priority «match» action : String) (nextHop : Option String)
  | lrPolicyDel (router priority «match» : String)
  | tagPolicyRoute (vpc name priority «match» : String)
  | syncPolicyRouteNexthop (vpc name priority «match» nextHop : String)
  | syncPolicyRouteNexthops (vpc name priority «match» nextHops : String)
  | ensurePolicyRouteNexthops (vpc name priority «match» nextHops : String)
  | gcStalePolicyRoutes (keep : List (String × String))
  -- NAT rules: `--may-exist`, with `--portrange` if there is an external port; the last
  -- three are commands of the executor
  | lrNatAdd (router type externalIP logicalIP : String) (rest : List String) (portrange : Bool)
  | lrNatDel (router type «match» : String)
  | tagNATRule (name vpc type externalIP logicalIP : String)
  | gcNATRule (name vpc : String)
  | gcStaleNATRules (keep : List (String × String))
  -- load balancers; the last three are commands of the executor
  | lbAdd (name vip backends protocol : String)
  | lbDel (name : String) (vip : Option String)
  | lrLbAdd (router name : String)
  | lrLbDel (router name : String)
  | lsLbAdd (switch name : String)
  | lsLbDel (switch name : String)
  | gcLoadBalancerHealthChecks (loadBalancer vpc : String)
  | ensureLoadBalancerHealthCheck (ovnLoadBalancer loadBalancer vpc vip : String)
      (columns : List String)
  | gcStaleLoadBalancerHealthChecks (loadBalancer vpc : String) (keepVIPs : List String)
  -- DHCP options, commands of the executor
  | gcDHCPOptions (endpoint vpc : String)
  | gcStaleDHCPOptions (keep : List (String × String))
  deriving DecidableEq, Repr

/-! ### Kinds of operations -/

inductive Kind where
  | router
  | switch
  | routerPort
  | switchPort
  | column
  | route
  | policyRoute
  | natRule
  | loadBalancer
  | healthCheck
  | dhcp
  deriving DecidableEq, Repr

/-- The part of the database that an operation is about. -/
@[simp] def Operation.kind : Operation → Kind
  | lrAdd _ | lrDel _ => .router
  | lsAdd _ | lsDel _ => .switch
  | lrpAdd .. | lrpDel _ => .routerPort
  | lspAdd .. | lspDel _ | lspAddLocalnetPort .. => .switchPort
  | lspSetType .. | lspSetAddresses .. | lspSetOptions .. | lspSetPortSecurity ..
  | lspSetDHCPv4Options _ | lspSetDHCPv6Options _ | set .. | remove .. | clear .. | create ..
  | add .. => .column
  | lrRouteAdd .. | lrRouteDel .. => .route
  | lrPolicyAdd .. | lrPolicyDel .. | tagPolicyRoute .. | syncPolicyRouteNexthop ..
  | syncPolicyRouteNexthops .. | ensurePolicyRouteNexthops .. | gcStalePolicyRoutes _ =>
    .policyRoute
  | lrNatAdd .. | lrNatDel .. | tagNATRule .. | gcNATRule .. | gcStaleNATRules _ => .natRule
  | lbAdd .. | lbDel .. | lrLbAdd .. | lrLbDel .. | lsLbAdd .. | lsLbDel .. => .loadBalancer
  | gcLoadBalancerHealthChecks .. | ensureLoadBalancerHealthCheck ..
  | gcStaleLoadBalancerHealthChecks .. => .healthCheck
  | gcDHCPOptions .. | gcStaleDHCPOptions _ => .dhcp

/-! ### Names of records -/

section

variable (sha256 : Sha256)

def logicalRouter (vpc : String) : String := ovnLogicalRouterName sha256 vpc

def logicalSwitch (vpc subnet : String) : String :=
  ovnIdentifier sha256 ("nl_ls_" ++ ovnSanitize vpc ++ "_" ++ ovnSanitize subnet)

def logicalPort (vpc endpoint : String) : String := ovnLogicalSwitchPortName sha256 vpc endpoint

def routerPortName (router subnet : String) : String :=
  ovnIdentifier sha256 (router ++ "_to_" ++ ovnSanitize subnet)

def switchRouterPortName (switch subnet : String) : String :=
  ovnIdentifier sha256 (switch ++ "_to_" ++ ovnSanitize subnet ++ "_router")

def localnetPortName (switch subnet : String) : String :=
  ovnIdentifier sha256 (switch ++ "_to_" ++ ovnSanitize subnet ++ "_localnet")

def loadBalancerName (vpc name : String) : String :=
  ovnIdentifier sha256 ("nl_lb_" ++ ovnSanitize vpc ++ "_" ++ ovnSanitize name)

def loadBalancerProtocolName (vpc name : String) (protocol : Protocol) : String :=
  ovnIdentifier sha256 (loadBalancerName sha256 vpc name ++ "_" ++ ovnSanitize protocol.text)

def namedUUID (name : String) : String :=
  "@" ++ ovnIdentifier sha256
    (String.ofList (name.toList.flatMap fun c => if c = '-' then ['_', 'h'] else [c]))

def natRuleNamedUUID (rule : NATRule) : String :=
  namedUUID sha256 ("nl_nat_" ++ ovnSanitize rule.vpc ++ "_" ++ ovnSanitize rule.name)

end

/-! ### Identities of endpoints -/

private def base64Digit (n : Nat) : Char :=
  if n < 26 then Char.ofNat ('A'.toNat + n)
  else if n < 52 then Char.ofNat ('a'.toNat + (n - 26))
  else if n < 62 then Char.ofNat ('0'.toNat + (n - 52))
  else if n = 62 then '-' else '_'

/-- `base64.RawURLEncoding`: six bits a character, without padding. -/
def rawURLEncoding : List Nat → List Char
  | [] => []
  | [a] => [base64Digit (a / 4), base64Digit (a % 4 * 16)]
  | [a, b] => [base64Digit (a / 4), base64Digit (a % 4 * 16 + b / 16), base64Digit (b % 16 * 4)]
  | a :: b :: c :: rest =>
    base64Digit (a / 4) :: base64Digit (a % 4 * 16 + b / 16) ::
      base64Digit (b % 16 * 4 + c / 64) :: base64Digit (c % 64) :: rawURLEncoding rest

def endpointExternalID (vpc endpoint : String) : String :=
  String.ofList (rawURLEncoding
    ((endpointKey vpc endpoint).toUTF8.data.toList.map UInt8.toNat))

end Netloom.Ovn
