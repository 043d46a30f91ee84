import Mathlib.Algebra.Group.Int.Defs
import Mathlib.Data.List.AList
import Netloom.Netip

/-!
# The objects of a desired state

Records keep the fields the modelled functions read; a numeric type of fixed
width is a bit vector, a pointer is an option and a map is an association list
without duplicate keys. An enumeration keeps the texts outside it in `other`,
which validation rejects.
-/
namespace Netloom.Model

open Netip (Addr Prefix)

/-- Nanoseconds since the zero time. -/
abbrev Time := Int

def secondNanos : Int := 1000000000

/-- `now.Sub(since)`: a duration has 64 bits, and a difference outside them is cut off. -/
def elapsed (since now : Time) : Int := max (-2 ^ 63) (min (2 ^ 63 - 1) (now - since))

inductive Action where
  | allow
  | drop
  | reroute
  | reject
  | log
  | snat
  | dnat
  | dnatAndSnat
  | other (text : String)
  deriving DecidableEq, Repr

def Action.text : Action → String
  | allow => "allow"
  | drop => "drop"
  | reroute => "reroute"
  | reject => "reject"
  | log => "log"
  | snat => "snat"
  | dnat => "dnat"
  | dnatAndSnat => "dnat_and_snat"
  | other text => text

inductive Direction where
  | ingress
  | egress
  | other (text : String)
  deriving DecidableEq, Repr

def Direction.text : Direction → String
  | ingress => "ingress"
  | egress => "egress"
  | other text => text

/-- A protocol name; `unset` is the empty string. -/
inductive Protocol where
  | unset
  | any
  | tcp
  | udp
  | icmp
  | sctp
  | other (text : String)
  deriving DecidableEq, Repr

def Protocol.text : Protocol → String
  | unset => ""
  | any => "any"
  | tcp => "tcp"
  | udp => "udp"
  | icmp => "icmp"
  | sctp => "sctp"
  | other text => text

def securityGroupPriorityMin : Int := 1
def securityGroupPriorityMax : Int := 16384

structure PortRange where
  fromPort : BitVec 16
  toPort : BitVec 16
  deriving DecidableEq, Repr

structure NamedPort where
  name : String
  protocol : Protocol
  port : BitVec 16
  deriving DecidableEq, Repr

abbrev Labels := AList (fun _ : String => String)

structure LabelExpr where
  key : String
  operator : String
  values : List String
  deriving DecidableEq, Repr

structure DHCPOptions where
  enabled : Bool := false
  leaseTime : BitVec 32 := 0
  mtu : BitVec 16 := 0
  dnsServers : List Addr := []
  domainName : String := ""
  searchDomains : List String := []
  deriving DecidableEq, Repr

structure Subnet where
  name : String := ""
  vpc : String := ""
  cidr : Prefix := .invalid
  gateway : Addr := .zero
  excludeCIDRs : List Prefix := []
  providerNetwork : String := ""
  vlan : BitVec 16 := 0
  dhcp : DHCPOptions := {}
  deriving DecidableEq, Repr

structure Endpoint where
  id : String
  vpc : String
  subnet : String
  ip : Addr
  mac : String := ""
  node : String := ""
  securityGroups : List String := []
  namedPorts : List NamedPort := []
  labels : Labels := ∅
  deriving DecidableEq

/-- `EndpointKey`: the text under which an endpoint is stored. -/
def endpointKey (vpc id : String) : String := vpc ++ "\x00" ++ id

structure Gateway where
  name : String
  vpc : String
  node : String
  externalIF : String
  lanIP : Addr
  distributed : Bool
  deriving DecidableEq, Repr

structure LoadBalancerBackend where
  ip : Addr
  port : BitVec 16
  healthy : Option Bool
  deriving DecidableEq, Repr

structure LoadBalancerPort where
  name : String
  port : BitVec 16
  protocol : Protocol
  backends : List LoadBalancerBackend
  deriving DecidableEq, Repr

structure LoadBalancerFrontend where
  name : String
  vip : Addr
  port : BitVec 16
  protocol : Protocol
  backends : List LoadBalancerBackend
  deriving DecidableEq, Repr

structure LoadBalancerHealthCheck where
  enabled : Bool
  interval : BitVec 32
  timeout : BitVec 32
  successCount : BitVec 32
  failureCount : BitVec 32
  deriving DecidableEq, Repr

structure LoadBalancer where
  name : String
  vpc : String
  vip : Addr
  ports : List LoadBalancerPort
  subnets : List String := []
  sessionAffinity : Bool := false
  affinityTimeout : BitVec 32 := 0
  selectionFields : List String := []
  healthCheck : LoadBalancerHealthCheck
  deriving DecidableEq, Repr

structure FQDNSelector where
  matchName : String
  matchPattern : String
  deriving DecidableEq, Repr

structure DNSRecord where
  name : String
  ips : List Addr
  ttlSeconds : BitVec 32
  observedAt : Time
  deriving DecidableEq, Repr

structure CIDRGroupEntry where
  cidr : Prefix
  exceptCIDRs : List Prefix
  deriving DecidableEq, Repr

structure CIDRGroup where
  name : String
  vpc : String
  cidrs : List Prefix
  entries : List CIDRGroupEntry
  deriving DecidableEq, Repr

structure SecurityGroupRule where
  id : String
  priority : Int
  direction : Direction
  protocol : Protocol
  remoteCIDR : Prefix := .invalid
  exceptCIDRs : List Prefix := []
  remoteGroup : String := ""
  remoteEndpointSelector : Labels := ∅
  remoteEndpointExprs : List LabelExpr := []
  remoteService : String := ""
  remoteCIDRGroup : String := ""
  remoteEntities : List String := []
  remoteFQDNs : List FQDNSelector := []
  ports : List PortRange := []
  namedPorts : List String := []
  icmpType : Option (BitVec 8) := none
  icmpCode : Option (BitVec 8) := none
  action : Action
  stateful : Bool := false
  log : Bool := false
  deriving DecidableEq

structure SecurityGroup where
  name : String
  vpc : String
  tier : Int := 0
  defaultDenyIngress : Option Bool := none
  defaultDenyEgress : Option Bool := none
  rules : List SecurityGroupRule
  deriving DecidableEq

end Netloom.Model
