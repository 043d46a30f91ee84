import Netloom.Lib.Lpm
import Netloom.Dataplane.PolicyMap

/-!
# Projection of a program to TCX

The rules of a program that match by address, protocol and port are projected
to rules of one LPM trie per address family. The IPv4 and the IPv6 functions of
the source differ in the address width and in the number of ICMP only; they are
one definition here, with the family as a parameter. The bookkeeping map `seen`
is written but never read by the source and is left out.
-/
namespace Netloom.Dataplane

open Netip (Addr Prefix prefixFrom)
open Model
open Policy (Rule Program PortBlock splitPortRange precedence)
open Checked (require context)

/-- `TC_ACT_OK` and `TC_ACT_SHOT`. -/
def tcxPass : Int := 0
def tcxDrop : Int := 2

/-! ### Families -/

inductive Family where
  | v4
  | v6
  deriving DecidableEq, Repr

namespace Family

def width : Family → Nat
  | v4 => 32
  | v6 => 128

def text : Family → String
  | v4 => "IPv4"
  | v6 => "IPv6"

def icmpText : Family → String
  | v4 => "ICMP"
  | v6 => "ICMPv6"

/-- The protocol number of ICMP in the family. -/
def icmp : Family → BitVec 8
  | v4 => 1
  | v6 => 58

def has : Family → Addr → Bool
  | v4, ip => ip.is4
  | v6, ip => ip.is6 && !ip.is4

def unspecified : Family → Addr
  | v4 => .v4 0
  | v6 => .v6 0 ""

/-- The prefix lengths `ipv4L4LookupPrefixLen` and `ipv6L4LookupPrefixLen`. -/
def lookupPrefixLen : Family → Nat
  | v4 => 112
  | v6 => 304

/-- The bytes of an address (`As4`, `As16`), as a word. Another family gives zero; the
source would panic there, but keys are made of prefixes of the family only. -/
def word : (family : Family) → Addr → BitVec family.width
  | v4, .v4 word => word
  | v6, .v6 word _ => word
  | _, _ => 0

end Family

/-! ### Keys and rules -/

/-- `IPv4L4Key` and `IPv6L4Key`, without the padding, which is always zero. -/
structure L4Key (family : Family) where
  prefixLen : Int
  localIP : BitVec family.width
  protocol : BitVec 8
  peerIP : BitVec family.width
  destPort : BitVec 16
  deriving DecidableEq, Repr

/-- `IPv4L4ACLRule` and `IPv6L4ACLRule`. -/
structure L4ACLRule where
  localAddr : Addr
  localCIDR : Prefix
  source : Addr
  sourceCIDR : Prefix
  protocol : BitVec 8
  destPort : BitVec 16
  destPortPrefixBits : BitVec 8
  action : Int
  precedence : BitVec 32
  ruleCookie : BitVec 32
  log : Bool
  reject : Bool
  deriving DecidableEq, Repr

/-- `TCXL4ACLValue`. -/
structure L4ACLValue where
  action : Int
  ruleCookie : BitVec 32
  packets : BitVec 64
  bytes : BitVec 64
  log : BitVec 32
  reject : BitVec 32
  deriving DecidableEq, Repr

/-- `ipv4L4PrefixLen` and `ipv6L4PrefixLen`. -/
def l4PrefixLen (localPrefix peerPrefix : Prefix) (destPortPrefixBits : BitVec 8) : Int :=
  localPrefix.bits + 32 + peerPrefix.bits + destPortPrefixBits.toNat

/-- `ipv4L4RuleKey` and `ipv6L4RuleKey`. -/
def l4RuleKey (family : Family) (localCIDR sourceCIDR : Prefix) (protocol : BitVec 8)
    (destPort : BitVec 16) (destPortPrefixBits : BitVec 8) : L4Key family where
  prefixLen := l4PrefixLen localCIDR sourceCIDR destPortPrefixBits
  localIP := family.word localCIDR.addr
  protocol
  peerIP := family.word sourceCIDR.addr
  destPort

def L4ACLRule.key (family : Family) (rule : L4ACLRule) : L4Key family :=
  l4RuleKey family rule.localCIDR rule.sourceCIDR rule.protocol rule.destPort
    rule.destPortPrefixBits

/-- The two bytes of a number as a host stores them, first byte first. -/
def nativeBytes : Endian → BitVec 16 → BitVec 16
  | .little, value => swapBytes value
  | .big, value => value

/-- The bits of a key in memory: addresses and protocol as they stand in the packet, the
port in the byte order of the host, and zero padding. -/
abbrev keyWidth (family : Family) : Nat := family.width + 8 + 24 + family.width + 16 + 16

variable (family : Family)

def l4Word (host : Endian) (localIP : BitVec family.width) (protocol : BitVec 8)
    (peerIP : BitVec family.width) (destPort : BitVec 16) : BitVec (keyWidth family) :=
  localIP ++ protocol ++ 0#24 ++ peerIP ++ nativeBytes host destPort ++ 0#16

def L4Key.word {family : Family} (host : Endian) (key : L4Key family) : BitVec (keyWidth family) :=
  l4Word family host key.localIP key.protocol key.peerIP key.destPort

/-! ### Projection of one rule -/

def tcxAction : Action → Option Int
  | .allow | .log => some tcxPass
  | .drop | .reject => some tcxDrop
  | _ => none

/-- `tcxRulePrecedence` repeats the computation of `precedence`. -/
def tcxRulePrecedence (rule : Rule) : BitVec 32 := precedence rule

def tcxRuleCookieKey (rule : Rule) : String :=
  if rule.vpc = "" ∧ rule.securityGroup = "" then rule.id
  else rule.vpc ++ "/" ++ rule.securityGroup ++ "/" ++ rule.id

def tcxRuleLog (rule : Rule) : Bool := rule.log || rule.action = .log

def tcxRuleReject (rule : Rule) : Bool := rule.action = .reject

/-- `splitTCXPortRange` repeats the loop of `splitPortRange`. -/
def splitTCXPortRange (first last : BitVec 16) : List PortBlock := splitPortRange first last

/-- The type and code of an ICMP rule with the number of significant bits. -/
def icmpTCXMatch (rule : Rule) : PortBlock :=
  match rule.icmpType with
  | none => { port := 0, prefixBits := 0 }
  | some icmpType =>
    let value := icmpType.setWidth 16 <<< 8
    match rule.icmpCode with
    | none => { port := value, prefixBits := 8 }
    | some icmpCode => { port := value ||| icmpCode.setWidth 16, prefixBits := 16 }

/-- `protocolNumber` for IPv4 and `ipv6ProtocolNumber`. -/
def familyProtocolNumber (protocol : Protocol) : Except String (BitVec 8) :=
  match family, protocol with
  | .v6, .icmp => .ok 58
  | _, _ => protocolNumber protocol

/-- The protocols that are projected: ICMP of the family, tcp, udp and sctp. -/
def projectedProtocol (protocol : BitVec 8) : Bool :=
  protocol = family.icmp || protocol = 6 || protocol = 17 || protocol = 132

def isExactHostPrefix (cidr : Prefix) : Bool :=
  cidr.isValid && family.has cidr.masked.addr && cidr.masked.bits = family.width

/-- `validateIPv4L4ACLRuleSupport` and `validateIPv6L4ACLRuleSupport`. -/
def validateL4ACLRuleSupport (rule : Rule) : Except String Unit := do
  let protocol ← familyProtocolNumber family rule.protocol
  if !projectedProtocol family protocol then pure ()
  else if (tcxAction rule.action).isNone then pure ()
  else if rule.remoteEndpoint ≠ "" && rule.remoteCIDR.isValid &&
      (match family with
        | .v4 => !rule.remoteCIDR.addr.is4
        | .v6 => rule.remoteCIDR.addr.is4) then pure ()
  else
    require (!(rule.remoteEndpoint ≠ "" && !isExactHostPrefix family rule.remoteCIDR))
      ("remote endpoint identity TCX ACL projection requires exact " ++ family.text ++
        " endpoint CIDR")

variable (family : Family) (program : Program)

/-- `ipv4Prefix` and `ipv6Prefix`. -/
def familyPrefix (cidr : Prefix) : Option Prefix :=
  if !cidr.isValid || !family.has cidr.addr then none else some cidr.masked

/-- `programIPv4CIDR` and `programIPv6CIDR`: an endpoint of the other family stands on the
unspecified address. -/
def programCIDR : Prefix :=
  prefixFrom (if family.has program.endpointIP then program.endpointIP else family.unspecified)
    family.width

/-! ### Merging and covering -/

def tcxACLActionPrecedence (action : Int) (reject : Bool) : Nat :=
  if action = tcxDrop && reject then 2 else if action = tcxDrop then 1 else 0

/-- `mergeIPv4TCXRule` and `mergeIPv6TCXRule`. -/
def mergeTCXRule (existing candidate : L4ACLRule) : Except String L4ACLRule :=
  if existing.action = candidate.action && existing.reject = candidate.reject then do
    require (existing.ruleCookie = candidate.ruleCookie)
      "conflicting TCX ACL rule cookies for identical match key"
    pure { existing with log := existing.log || candidate.log }
  else if tcxACLActionPrecedence candidate.action candidate.reject >
      tcxACLActionPrecedence existing.action existing.reject then
    .ok { candidate with log := candidate.log || existing.log }
  else .ok { existing with log := existing.log || candidate.log }

def prefixCovers (candidate selected : Prefix) : Bool :=
  candidate.masked.isValid && selected.masked.isValid &&
    candidate.masked.addr.is4 == selected.masked.addr.is4 &&
    decide (candidate.masked.bits ≤ selected.masked.bits) &&
    candidate.masked.contains selected.masked.addr

def portPrefixCovers (candidatePort : BitVec 16) (candidateBits : BitVec 8)
    (selectedPort : BitVec 16) (selectedBits : BitVec 8) : Bool :=
  if candidateBits > selectedBits then false
  else if candidateBits = 0 then true
  else
    let mask := BitVec.allOnes 16 <<< (16 - candidateBits).toNat
    candidatePort &&& mask == selectedPort &&& mask

/-- `ipv4RuleCovers` and `ipv6RuleCovers`. -/
def ruleCovers (candidate selected : L4ACLRule) : Bool :=
  prefixCovers candidate.localCIDR selected.localCIDR &&
    candidate.protocol = selected.protocol &&
    prefixCovers candidate.sourceCIDR selected.sourceCIDR &&
    portPrefixCovers candidate.destPort candidate.destPortPrefixBits selected.destPort
      selected.destPortPrefixBits

/-- `appendIPv4ProjectedRule` and `appendIPv6ProjectedRule`: the loop over the rules
projected so far. It stops at a rule with the same key and precedence, into which the
candidate is merged, or at one that covers the candidate with at least its precedence.
Rules the candidate covers with a greater precedence are removed on the way. -/
def appendProjectedRule (family : Family) :
    List L4ACLRule → L4ACLRule → Except String (List L4ACLRule)
  | [], candidate => .ok [candidate]
  | existing :: rest, candidate =>
    if existing.key family = candidate.key family && existing.precedence = candidate.precedence then do
      let merged ← mergeTCXRule existing candidate
      pure (merged :: rest)
    else if ruleCovers existing candidate && existing.precedence ≥ candidate.precedence then
      .ok (existing :: rest)
    else if ruleCovers candidate existing && candidate.precedence > existing.precedence then
      appendProjectedRule family rest candidate
    else do
      let rest ← appendProjectedRule family rest candidate
      pure (existing :: rest)

/-! ### Projection of programs -/

/-- The rule projected for one port block of a policy rule. -/
def projectedRule (rule : Rule) (sourceCIDR : Prefix)
    (protocol : BitVec 8) (action : Int) (block : PortBlock) : L4ACLRule where
  localAddr := program.endpointIP
  localCIDR := programCIDR family program
  source := sourceCIDR.addr
  sourceCIDR
  protocol
  destPort := block.port
  destPortPrefixBits := block.prefixBits
  action
  precedence := tcxRulePrecedence rule
  ruleCookie := stableCookie (tcxRuleCookieKey rule)
  log := tcxRuleLog rule
  reject := tcxRuleReject rule

/-- The body of the loop over the policy rules, for a rule of the direction. -/
def appendL4ACLRule (rules : List L4ACLRule) (rule : Rule) : Except String (List L4ACLRule) := do
  let protocol ← familyProtocolNumber family rule.protocol
  if !projectedProtocol family protocol then pure rules
  else if !rule.remoteCIDR.isValid then pure rules
  else do
    validateL4ACLRuleSupport family rule
    match tcxAction rule.action, familyPrefix family rule.remoteCIDR with
    | some action, some sourceCIDR =>
      let append (rules : List L4ACLRule) (block : PortBlock) : Except String (List L4ACLRule) :=
        appendProjectedRule family rules
          (projectedRule family program rule sourceCIDR protocol action block)
      if protocol = family.icmp then
        if !rule.ports.isEmpty then
          .error (family.icmpText ++ " TCX ACL does not support destination ports")
        else append rules (icmpTCXMatch rule)
      else if rule.ports.isEmpty then append rules { port := 0, prefixBits := 0 }
      else rule.ports.foldlM (fun rules port => do
        port.validate
        (splitTCXPortRange port.fromPort port.toPort).foldlM append rules) rules
    | _, _ => pure rules

/-- `appendIPv4L4ACLRulesFromProgram` and `appendIPv6L4ACLRulesFromProgram`. -/
def appendL4ACLRulesFromProgram (direction : Direction)
    (rules : List L4ACLRule) (program : Program) : Except String (List L4ACLRule) :=
  program.rules.foldlM (fun rules rule =>
    if rule.direction ≠ direction then pure rules
    else context (fun err => s!"rule {rule.id}: {err}") (appendL4ACLRule family program rules rule))
    rules

/-- `hasEnforcingIPv4TCXRule` and `hasEnforcingIPv6TCXRule`. -/
def hasEnforcingTCXRule (rules : List L4ACLRule) : Bool :=
  rules.any fun rule => rule.action = tcxDrop

/-- The two checks every projection ends with. -/
def checkProjection (owner : String) (direction : Direction)
    (rules : List L4ACLRule) : Except String (List L4ACLRule) := do
  require (!rules.isEmpty)
    s!"{owner} no {family.text} L4 {direction.text} ACL rules for TCX"
  require (hasEnforcingTCXRule rules)
    s!"{owner} no enforcing {family.text} L4 {direction.text} ACL rules for TCX"
  pure rules

/-- The `…RulesFromProgramForDirection` functions. -/
def l4ACLRulesFromProgramForDirection (direction : Direction) : Except String (List L4ACLRule) := do
  let rules ← appendL4ACLRulesFromProgram family direction [] program
  checkProjection family s!"program {program.endpointID} has" direction rules

def ipv4L4ACLRulesFromProgramForDirection := l4ACLRulesFromProgramForDirection .v4
def ipv6L4ACLRulesFromProgramForDirection := l4ACLRulesFromProgramForDirection .v6

variable (family : Family) (rule : L4ACLRule)

/-- The `…RulesFromProgramsForDirection` functions: the programs share one list. -/
def l4ACLRulesFromProgramsForDirection (programs : List Program)
    (direction : Direction) : Except String (List L4ACLRule) := do
  let rules ← programs.foldlM (appendL4ACLRulesFromProgram family direction) []
  checkProjection family "programs have" direction rules

def ipv4L4ACLRulesFromProgramsForDirection := l4ACLRulesFromProgramsForDirection .v4
def ipv6L4ACLRulesFromProgramsForDirection := l4ACLRulesFromProgramsForDirection .v6

/-- `tcxEligibleProgramForDirection`. -/
def tcxEligibleProgramForDirection (program : Program) (direction : Direction) : Bool :=
  (ipv4L4ACLRulesFromProgramForDirection program direction).isOk ||
    (ipv6L4ACLRulesFromProgramForDirection program direction).isOk

/-! ### The trie -/

/-- `ruleSourceCIDR` and `ipv6RuleSourceCIDR`. -/
def ruleSourceCIDR : Except String Prefix :=
  if rule.sourceCIDR.isValid then do
    require (family.has rule.sourceCIDR.addr) ("source cidr must be " ++ family.text)
    pure rule.sourceCIDR.masked
  else do
    require (family.has rule.source) ("source address must be " ++ family.text)
    pure (prefixFrom rule.source family.width)

/-- `ipv4LocalCIDR` and `ipv6LocalCIDR`. -/
def ruleLocalCIDR : Except String Prefix :=
  if rule.localCIDR.isValid then do
    require (family.has rule.localCIDR.addr) ("local cidr must be " ++ family.text)
    pure rule.localCIDR.masked
  else if !rule.localAddr.isValid then .ok (prefixFrom family.unspecified family.width)
  else do
    require (family.has rule.localAddr) ("local address must be " ++ family.text)
    pure (prefixFrom rule.localAddr family.width)

/-- `normalizedDestPortPrefixBits` and `normalizedIPv6DestPortPrefixBits`. -/
def normalizedDestPortPrefixBits : BitVec 8 :=
  if rule.destPortPrefixBits = 0 ∧ rule.destPort ≠ 0 then 16 else rule.destPortPrefixBits

def flag (value : Bool) : BitVec 32 := if value then 1 else 0

/-- The value a rule is put with; the counters start at zero. -/
def L4ACLRule.value : L4ACLValue where
  action := rule.action
  ruleCookie := rule.ruleCookie
  packets := 0
  bytes := 0
  log := flag rule.log
  reject := flag rule.reject

abbrev L4ACLMap (family : Family) := Lpm.Trie (keyWidth family) L4ACLValue

/-- `putIPv4L4ACLRule` and `putIPv6L4ACLRule`. -/
def putL4ACLRule (host : Endian) (aclMap : L4ACLMap family) (rule : L4ACLRule) :
    Except String (L4ACLMap family) := do
  let localCIDR ← ruleLocalCIDR family rule
  let sourceCIDR ← ruleSourceCIDR family rule
  require (rule.protocol ≠ 0) "protocol is required"
  let destPortPrefixBits := normalizedDestPortPrefixBits rule
  require (!(rule.destPort = 0 && rule.protocol ≠ family.icmp && destPortPrefixBits ≠ 0))
    "destination port is required"
  require (rule.action = tcxPass || rule.action = tcxDrop)
    s!"unsupported tcx action {rule.action}"
  let key := l4RuleKey family localCIDR sourceCIDR rule.protocol rule.destPort destPortPrefixBits
  Lpm.put aclMap key.prefixLen.toNat (key.word host) rule.value

/-- `NewIPv4L4ACLMapFromRules` and `NewIPv6L4ACLMapFromRules`. -/
def newL4ACLMapFromRules (host : Endian) (rules : List L4ACLRule) :
    Except String (L4ACLMap family) := do
  require (!rules.isEmpty) ("at least one " ++ family.text ++ " L4 ACL rule is required")
  rules.foldlM (putL4ACLRule family host) ∅

/-- What the TCX program reads of a packet: the local and the remote address, the protocol
and the destination port, or the type and code of an ICMP message. -/
structure L4Packet (family : Family) where
  localIP : BitVec family.width
  protocol : BitVec 8
  peerIP : BitVec family.width
  field : BitVec 16
  deriving DecidableEq, Repr

/-- The verdict of a lookup: the action of the entry, and pass without one. -/
def lookupVerdict (family : Family) (host : Endian) (aclMap : L4ACLMap family)
    (packet : L4Packet family) : Int :=
  ((Lpm.lookup aclMap family.lookupPrefixLen
    (l4Word family host packet.localIP packet.protocol packet.peerIP packet.field)).map
      L4ACLValue.action).getD tcxPass

end Netloom.Dataplane
