import Netloom.Model.Validate

/-!
# Compiled policy programs

A program is what the compiler hands to the data plane for one endpoint: the
expanded rules and one map entry per port block of each of them.
-/
namespace Netloom.Policy

open Netip (Addr Prefix)
open Model

structure Rule where
  id : String
  vpc : String := ""
  tier : Int := 0
  priority : Int := 0
  direction : Direction
  protocol : Protocol
  remoteCIDR : Prefix := .invalid
  remoteGroup : String := ""
  remoteService : String := ""
  remoteCIDRGroup : String := ""
  remoteEntity : String := ""
  remoteEndpoint : String := ""
  remoteFQDN : String := ""
  ports : List PortRange := []
  namedPorts : List String := []
  icmpType : Option (BitVec 8) := none
  icmpCode : Option (BitVec 8) := none
  action : Action
  stateful : Bool := false
  log : Bool := false
  securityGroup : String := ""
  deriving DecidableEq, Repr

structure MapKey where
  remoteIdentity : BitVec 32
  direction : Direction
  protocol : Protocol
  destPort : BitVec 16
  l4PrefixBits : BitVec 8
  deriving DecidableEq, Repr

structure MapValue where
  deny : Bool
  reject : Bool
  precedence : BitVec 32
  stateful : Bool
  log : Bool
  requireIdentity : Bool
  deriving DecidableEq, Repr

structure MapEntry where
  key : MapKey
  value : MapValue
  remoteCIDR : Prefix
  ruleID : String
  ruleRef : String
  deriving DecidableEq, Repr

structure Program where
  endpointID : String
  endpointIP : Addr
  mapEntries : List MapEntry
  rules : List Rule
  deriving DecidableEq, Repr

/-- An identity resolver; the default one hashes the text. -/
abbrev IdentityResolver := String → BitVec 32

/-- What a compilation reads besides the endpoint and its groups. Without
endpoints (a nil slice) there is no endpoint context at all. -/
structure CompileContext where
  endpoints : Option (List Endpoint) := none
  subnets : List Subnet := []
  gateways : List Gateway := []
  services : List LoadBalancer := []
  dnsRecords : List DNSRecord := []
  fqdnMaxIPsPerHostname : Int := 0
  cidrGroups : List CIDRGroup := []
  identityResolver : Option IdentityResolver := none
  now : Time := 0

abbrev SecurityGroups := AList (fun _ : String => SecurityGroup)

structure GatewayCIDR where
  node : String
  cidr : Prefix
  deriving DecidableEq, Repr

end Netloom.Policy
