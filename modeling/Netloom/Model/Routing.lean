import Netloom.Model.Validate

/-!
# Routes, policy routes, NAT rules and names in the OVN database

The objects of a desired state that only the topology reads, with their checks
in source order, the names under which objects appear in the OVN database, and the
hardware addresses of gateways.
-/
namespace Netloom.Model

open Checked Strings
open Netip (Addr Prefix)

structure VPC where
  name : String
  deriving DecidableEq, Repr

structure RouteBFD where
  enabled : Bool := false
  logicalPort : String := ""
  minTx : BitVec 32 := 0
  minRx : BitVec 32 := 0
  detectMult : BitVec 32 := 0
  deriving DecidableEq, Repr

structure Route where
  destination : Prefix
  nextHops : List Addr
  blackhole : Bool := false
  bfd : RouteBFD := {}
  deriving DecidableEq, Repr

structure RouteTable where
  name : String
  vpc : String
  routes : List Route
  deriving DecidableEq, Repr

structure RouteMatch where
  source : Prefix := .invalid
  destination : Prefix := .invalid
  protocol : Protocol := .unset
  srcPorts : List PortRange := []
  dstPorts : List PortRange := []
  deriving DecidableEq, Repr

structure RouteAction where
  type : Action
  nextHops : List Addr
  deriving DecidableEq, Repr

structure PolicyRoute where
  name : String
  vpc : String
  priority : Int
  «match» : RouteMatch
  action : RouteAction
  deriving DecidableEq, Repr

structure NATRule where
  name : String
  vpc : String
  type : Action
  matchCIDR : Prefix
  externalIP : Addr
  targetIP : Addr
  protocol : Protocol
  externalPort : BitVec 16
  targetPort : BitVec 16
  logicalPort : String
  externalMAC : String
  deriving DecidableEq, Repr

def policyRoutePriorityMin : Int := 0
def policyRoutePriorityMax : Int := 32767

def normalizedLoadBalancerSelectionFields (fields : List String) : List String :=
  sortStrings ((fields.map trimSpace).filter (· ≠ ""))

def LoadBalancer.effectiveSelectionFields (l : LoadBalancer) : List String :=
  let fields := normalizedLoadBalancerSelectionFields l.selectionFields
  if !fields.isEmpty then fields
  else if !l.sessionAffinity then []
  else if l.vip.is6 && !l.vip.is4 then ["ipv6_src"]
  else ["ip_src"]

/-! ### Validation -/

def VPC.validate (v : VPC) : Except String Unit := require (v.name ≠ "") "vpc name is required"

def RouteBFD.validate (b : RouteBFD) : Except String Unit :=
  checkIf b.enabled do
    require (trimSpace b.logicalPort ≠ "") "route bfd logical port is required"
    require (b.minTx ≠ 0) "route bfd min_tx is required"
    require (b.minRx ≠ 0) "route bfd min_rx is required"
    require (b.detectMult ≠ 0) "route bfd detect_mult is required"

def Route.validate (r : Route) : Except String Unit := do
  require r.destination.isValid "route destination is required"
  validateMaskedPrefix r.destination "route destination"
  if r.blackhole then do
    require r.nextHops.isEmpty "blackhole route must not set next hop"
    require (!r.bfd.enabled) "blackhole route must not enable bfd"
  else do
    require (!r.nextHops.isEmpty) "route next hop is required when route is not blackhole"
    distinct (fun _ nextHop => do
        require nextHop.isValid "route next hop is invalid"
        require (!nextHop.isUnspecified) "route next hop must not be unspecified"
        require (nextHop.is4 == r.destination.addr.is4)
          "route next hop family must match destination")
      (fun nextHop => nextHop)
      (fun _ nextHop => s!"route next hop {nextHop.string} is duplicated") r.nextHops
    r.bfd.validate

def RouteTable.validate (r : RouteTable) : Except String Unit := do
  require (r.name ≠ "") "route table name is required"
  require (r.vpc ≠ "") "route table vpc is required"
  forEach (fun i route => context (fun err => s!"route {i}: {err}") route.validate) r.routes

def RouteMatch.validate (m : RouteMatch) : Except String Unit := do
  let protocol := if m.protocol = .unset then .any else m.protocol
  require protocol.isValid s!"unsupported protocol {quote protocol.text}"
  checkIf m.source.isValid (validateMaskedPrefix m.source "source prefix")
  checkIf m.destination.isValid (validateMaskedPrefix m.destination "destination prefix")
  require (!(m.source.isValid && m.destination.isValid &&
      m.source.addr.is4 != m.destination.addr.is4))
    "source and destination prefixes must use the same IP family"
  require (m.srcPorts.isEmpty || protocol.hasPorts) "src ports require tcp, udp, or sctp protocol"
  require (m.dstPorts.isEmpty || protocol.hasPorts) "dst ports require tcp, udp, or sctp protocol"
  forEach (fun i p => context (fun err => s!"src port range {i}: {err}") p.validate) m.srcPorts
  forEach (fun i p => context (fun err => s!"dst port range {i}: {err}") p.validate) m.dstPorts

def PolicyRoute.validate (r : PolicyRoute) : Except String Unit := do
  require (r.name ≠ "") "policy route name is required"
  require (r.vpc ≠ "") "policy route vpc is required"
  require (policyRoutePriorityMin ≤ r.priority && r.priority ≤ policyRoutePriorityMax)
    s!"policy route priority must be between {policyRoutePriorityMin} and {policyRoutePriorityMax}"
  require (r.action.type.text ≠ "") "policy route action is required"
  require ([Action.allow, .drop, .reject, .reroute].contains r.action.type)
    s!"unsupported policy route action {quote r.action.type.text}"
  require (!(r.action.type = .reroute && r.action.nextHops.isEmpty))
    "policy route reroute action requires next hop"
  require (!(r.action.type ≠ .reroute && !r.action.nextHops.isEmpty))
    "policy route next hops are only supported for reroute action"
  context (fun err => s!"policy route match: {err}") r.match.validate
  checkIf (r.action.type = .reroute) do
    let familyIs4 := (r.action.nextHops.headD .zero).is4
    distinctFrom (fun i nextHop => do
        require nextHop.isValid s!"policy route reroute next hop {i} is invalid"
        require (!nextHop.isUnspecified)
          s!"policy route reroute next hop {i} must not be unspecified"
        require (nextHop.is4 == familyIs4)
          "policy route reroute next hops must use the same IP family")
      (fun nextHop => nextHop)
      (fun _ nextHop => s!"policy route reroute next hop {nextHop.string} is duplicated")
      (fun _ nextHop => do
        require (!(r.match.destination.isValid &&
            nextHop.is4 != r.match.destination.addr.is4))
          "policy route reroute next hop family must match destination"
        require (!(!r.match.destination.isValid && r.match.source.isValid &&
            nextHop.is4 != r.match.source.addr.is4))
          "policy route reroute next hop family must match source")
      0 [] r.action.nextHops

def NATRule.validateDistributedNATFields (n : NATRule) : Except String Unit := do
  let hasLogicalPort := trimSpace n.logicalPort ≠ ""
  let hasExternalMAC := trimSpace n.externalMAC ≠ ""
  checkIf (hasLogicalPort || hasExternalMAC) do
    require (n.type = .dnatAndSnat)
      "logical_port and external_mac are only supported for dnat_and_snat"
    require (hasLogicalPort && hasExternalMAC) "logical_port and external_mac must be set together"
    context (fun err => s!"external_mac is invalid: {err}")
      ((fun _ => ()) <$> parseMAC n.externalMAC)

/-- The checks of the two inbound types, which differ in the texts only. `single`
is the error for a protocol without ports. -/
def NATRule.validateInbound (n : NATRule) (protocol : Protocol) (kind single : String) :
    Except String Unit := do
  require n.targetIP.isValid s!"{kind} target ip is required"
  require (!n.targetIP.isUnspecified) s!"{kind} target ip must not be unspecified"
  require (n.externalIP.is4 == n.targetIP.is4) s!"{kind} external ip family must match target ip"
  if n.externalPort ≠ 0 ∨ n.targetPort ≠ 0 then do
    require (!(n.externalPort = 0 || n.targetPort = 0))
      s!"{kind} port mapping requires both external and target ports"
    require protocol.hasPorts s!"{kind} port mapping requires tcp, udp, or sctp protocol"
  else require (protocol = .any) single

def NATRule.validate (n : NATRule) : Except String Unit := do
  require (n.name ≠ "") "nat rule name is required"
  require (n.vpc ≠ "") "nat rule vpc is required"
  require ([Action.snat, .dnat, .dnatAndSnat].contains n.type)
    s!"unsupported nat action {quote n.type.text}"
  require n.externalIP.isValid "nat external ip is required"
  require (!n.externalIP.isUnspecified) "nat external ip must not be unspecified"
  let protocol := if n.protocol = .unset then .any else n.protocol
  require protocol.isValid s!"unsupported nat protocol {quote protocol.text}"
  n.validateDistributedNATFields
  match n.type with
  | .snat => do
    require n.matchCIDR.isValid "snat match cidr is required"
    validateMaskedPrefix n.matchCIDR "snat match cidr"
    require (n.externalIP.is4 == n.matchCIDR.addr.is4) "snat external ip family must match cidr"
    require (!n.targetIP.isValid) "snat target ip must be empty"
    require (n.externalPort = 0 && n.targetPort = 0) "snat port mapping is not supported"
    require (protocol = .any) "snat protocol must be any"
  | .dnat => n.validateInbound protocol "dnat" "dnat protocol must be any when port mapping is not set"
  | .dnatAndSnat =>
    n.validateInbound protocol "dnat_and_snat" "dnat_and_snat protocol must be any"
  | _ => .ok ()

/-! ### What validation guarantees -/

variable {result : Unit}

theorem Route.masked_of_validate {route : Route} (accepted : route.validate = .ok result) :
    route.destination.masked = route.destination := by
  simp only [Route.validate, validateMaskedPrefix, bind_eq_ok, require_eq_ok,
    decide_eq_true_eq] at accepted
  obtain ⟨_, _, _, masked, _⟩ := accepted
  exact masked.symm

theorem RouteTable.masked_of_validate {table : RouteTable}
    (accepted : table.validate = .ok result) :
    ∀ route ∈ table.routes, route.destination.masked = route.destination := by
  intro route member
  simp only [RouteTable.validate, bind_eq_ok] at accepted
  obtain ⟨_, _, _, _, routes⟩ := accepted
  obtain ⟨n, checked⟩ := of_forEach routes route member
  exact Route.masked_of_validate ((context_eq_ok _ _ _).mp checked)

/-- An inbound rule for one port names a protocol that has ports. -/
theorem NATRule.hasPorts_of_validate {rule : NATRule} (accepted : rule.validate = .ok result)
    (inbound : rule.type ≠ .snat) (port : rule.externalPort ≠ 0) : rule.protocol.hasPorts := by
  simp only [NATRule.validate, bind_eq_ok, require_eq_ok] at accepted
  obtain ⟨_, _, _, _, _, known, _, _, _, _, _, _, _, _, typed⟩ := accepted
  -- Both inbound types run the same checks, under other texts.
  have ports : ∀ kind single, rule.validateInbound
      (if rule.protocol = .unset then .any else rule.protocol) kind single = .ok result →
      rule.protocol.hasPorts := by
    intro kind single checked
    simp only [NATRule.validateInbound, bind_eq_ok, require_eq_ok,
      if_pos (Or.inl port : rule.externalPort ≠ 0 ∨ rule.targetPort ≠ 0)] at checked
    obtain ⟨_, _, _, _, _, _, _, _, has⟩ := checked
    split at has
    · cases has
    · exact has
  cases type : rule.type <;> simp [type] at known inbound typed
  · exact ports _ _ typed
  · exact ports _ _ typed

/-! ### Names and hardware addresses

Long names and the gateway addresses contain a digest; the hash function is a parameter. -/

open Text

/-- `sha256.Sum256` of the bytes of a text. -/
abbrev Sha256 := String → List (BitVec 8)

def hexPadded (width n : Nat) : List Char :=
  let digits := Nat.toDigits 16 n
  List.replicate (width - digits.length) '0' ++ digits

section Padded

variable {width n : Nat}

/-- Leading zeros do not change what a numeral stands for. -/
theorem readDigits_hexPadded (width n : Nat) : readDigits 16 (hexPadded width n) = some n := by
  have zeros : ∀ k, (List.replicate k '0').foldlM (readDigit 16) 0 = some 0 := by
    intro k
    induction k with
    | zero => rfl
    | succ k ih => rw [List.replicate_succ, List.foldlM_cons]; exact ih
  have digits := readDigits_toDigits 16 (by omega) (by omega) n
  rw [readDigits, if_neg Nat.toDigits_ne_nil] at digits
  rw [readDigits, hexPadded, if_neg (by simp), List.foldlM_append, zeros]
  exact digits

theorem hexPadded_inj {m : Nat} (equal : hexPadded width m = hexPadded width n) : m = n := by
  have read := readDigits_hexPadded width m
  rw [equal, readDigits_hexPadded] at read
  exact (Option.some.inj read).symm

theorem length_hexPadded (some : 0 < width) (small : n < 16 ^ width) :
    (hexPadded width n).length = width := by
  have short := (Nat.length_toDigits_le_iff (b := 16) (by omega) some).mpr small
  simp [hexPadded]
  omega

theorem forall_hexPadded {P : Char → Prop} (digits : ∀ digit < 16, P (Nat.digitChar digit)) :
    ∀ c ∈ hexPadded width n, P c := by
  intro c member
  rw [hexPadded, List.mem_append, List.mem_replicate] at member
  rcases member with ⟨_, rfl⟩ | digit
  · exact digits 0 (by omega)
  · obtain ⟨value, small, rfl⟩ := mem_toDigits 16 (by omega) _ _ digit
    exact digits value small

end Padded

/-- The verb `%x` on bytes. -/
def hexBytes (bytes : List (BitVec 8)) : String :=
  String.ofList (bytes.flatMap fun byte => hexPadded 2 byte.toNat)

/-! ### Names in the OVN database -/

def ovnSanitizeRune (c : Char) : List Char :=
  if ('a' ≤ c ∧ c ≤ 'z') ∨ ('A' ≤ c ∧ c ≤ 'Z') ∨ ('0' ≤ c ∧ c ≤ '9') ∨ c = '-' then [c]
  else if c = '_' then ['_', '_']
  else if c = '.' then ['_', 'd']
  else if c = '/' then ['_', 's']
  else if c = ':' then ['_', 'c']
  else ['_', 'x'] ++ hexPadded 4 c.toNat

def ovnSanitize (value : String) : String :=
  if value = "" then "empty" else String.ofList (value.toList.flatMap ovnSanitizeRune)

variable (sha256 : Sha256) (vpc : String)

def ovnIdentifierHash (name : String) : String := hexBytes ((sha256 name).take 6)

/-- Names are ASCII here, so their length in bytes is that in characters. -/
def ovnIdentifier (name : String) : String :=
  if name.length ≤ 63 then name
  else
    let hash := ovnIdentifierHash sha256 name
    let head := name.toList.take (max 1 (63 - "_h".length - hash.length))
    String.ofList (head.reverse.dropWhile fun c => c = '_' || c = '-').reverse ++ "_h" ++ hash

def ovnLogicalRouterName : String :=
  ovnIdentifier sha256 ("nl_lr_" ++ ovnSanitize vpc)

def ovnLogicalRouterPortName (subnet : String) : String :=
  ovnIdentifier sha256 (ovnLogicalRouterName sha256 vpc ++ "_to_" ++ ovnSanitize subnet)

def ovnLogicalSwitchPortName (endpoint : String) : String :=
  ovnIdentifier sha256 ("nl_lp_" ++ ovnSanitize vpc ++ "_" ++ ovnSanitize endpoint)

/-! ### Hardware addresses -/

/-- `0a:58` followed by four bytes. -/
private def localMAC (bytes : List (BitVec 8)) : String :=
  ":".intercalate ("0a" :: "58" :: (bytes.map fun byte => String.ofList (hexPadded 2 byte.toNat)))

def gatewayMAC : Addr → String
  | .zero => localMAC [0, 0, 0, 0]
  | .v4 word => localMAC (Netip.bytes4 word)
  | .v6 word _ => localMAC (Netip.bytes4 (word.extractLsb' 0 32))

def subnetGatewayMAC (subnet : String) (ip : Addr) : String :=
  localMAC ((sha256 (vpc ++ "\x00" ++ subnet ++ "\x00" ++ ip.string)).take 4)

/-- `HardwareAddr.String` of the digits of an address. -/
private def macText : List Char → List Char
  | a :: b :: c :: rest => a :: b :: ':' :: macText (c :: rest)
  | digits => digits

def Endpoint.normalizedMAC (e : Endpoint) : String :=
  if trimSpace e.mac = "" then ""
  else match parseMAC e.mac with
    | .ok digits => toLower (String.ofList (macText digits))
    | .error _ => ""

end Netloom.Model
