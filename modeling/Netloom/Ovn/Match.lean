import Netloom.Lib.MatchExpr
import Netloom.Netip.Text
import Netloom.Topology.Resolver

/-!
# The match expression of a policy route

`policyRouteMatch` writes a match as an OVN expression: sorted clauses joined by
`&&`, a list of port ranges as a group of alternatives. The fields, flags and
constants of such expressions are read off a packet by `packetEnv`.
-/
namespace Netloom.Ovn

open Model List Checked Strings Text Netip
open Netloom.Topology (Packet routeMatch portRangesContain)
open MatchExpr

/-! ### Writing the expression -/

def ipFamily (cidr : Prefix) : String := if cidr.addr.is6 then "ip6" else "ip4"

def policyRoutePortClause (field : String) (port : PortRange) : String :=
  if port.fromPort = port.toPort then s!"{field} == {port.fromPort.toNat}"
  else s!"({field} >= {port.fromPort.toNat} && {field} <= {port.toPort.toNat})"

def portField (protocol : Protocol) (direction : String) : String :=
  s!"{protocol.text}.{direction}"

def policyRoutePortMatch (protocol : Protocol) (direction : String) (ports : List PortRange) :
    String :=
  if ports.isEmpty then ""
  else
    match sortStrings (ports.map (policyRoutePortClause (portField protocol direction))) with
    | [clause] => clause
    | clauses => "(" ++ " || ".intercalate clauses ++ ")"

def policyRouteParts («match» : RouteMatch) : List String :=
  let sources := policyRoutePortMatch «match».protocol "src" «match».srcPorts
  let destinations := policyRoutePortMatch «match».protocol "dst" «match».dstPorts
  (if «match».source.isValid then
    [ipFamily «match».source ++ ".src == " ++ «match».source.string] else []) ++
  (if «match».destination.isValid then
    [ipFamily «match».destination ++ ".dst == " ++ «match».destination.string] else []) ++
  (if «match».protocol ≠ .unset ∧ «match».protocol ≠ .any then [«match».protocol.text] else []) ++
  (if sources ≠ "" then [sources] else []) ++
  (if destinations ≠ "" then [destinations] else [])

def policyRouteMatch («match» : RouteMatch) : String :=
  let parts := sortStrings (policyRouteParts «match»)
  if parts.isEmpty then "1 == 1" else " && ".intercalate parts

/-! ### Reading it on a packet -/

/-- A field of a packet. An address field of one family has no value in a packet of the
other family, and a port no value in a packet of another protocol. -/
inductive Field where
  | ip4 (value : Addr)
  | ip6 (value : Addr)
  | port (value : Option (BitVec 16))

inductive Constant where
  | block (cidr : Prefix)
  | number (value : Nat)

def portOf (packet : Packet) (protocol : Protocol) (value : BitVec 16) : Field :=
  .port (if packet.protocol = protocol then some value else none)

def fieldOf (packet : Packet) : String → Option Field
  | "ip4.src" => some (.ip4 packet.source)
  | "ip4.dst" => some (.ip4 packet.dest)
  | "ip6.src" => some (.ip6 packet.source)
  | "ip6.dst" => some (.ip6 packet.dest)
  | "tcp.src" => some (portOf packet .tcp packet.sourcePort)
  | "tcp.dst" => some (portOf packet .tcp packet.destPort)
  | "udp.src" => some (portOf packet .udp packet.sourcePort)
  | "udp.dst" => some (portOf packet .udp packet.destPort)
  | "sctp.src" => some (portOf packet .sctp packet.sourcePort)
  | "sctp.dst" => some (portOf packet .sctp packet.destPort)
  | _ => none

/-- The protocol predicates. -/
def flagOf (packet : Packet) : String → Option Bool
  | "tcp" => some (packet.protocol = .tcp)
  | "udp" => some (packet.protocol = .udp)
  | "icmp" => some (packet.protocol = .icmp)
  | "sctp" => some (packet.protocol = .sctp)
  | _ => none

/-- A number or an address, with or without a length. A constant with bits outside
its mask is an error. -/
def constantOf (text : String) : Option Constant :=
  match Netip.parsePrefix text with
  | some cidr => if cidr = cidr.masked then some (.block cidr) else none
  | none =>
    match readDigits 10 text.toList with
    | some value => some (.number value)
    | none => (Netip.parseAddr text).map fun ip => .block (Netip.prefixFrom ip ip.bitLen)

/-- A field without value compares as false. -/
def compareField : Field → Relop → Constant → Option Bool
  | .ip4 value, .eq, .block (.v4 block) => some ((Prefix.v4 block).contains value)
  | .ip6 value, .eq, .block (.v6 block) => some ((Prefix.v6 block).contains value)
  | .port value, op, .number n =>
    if n < 2 ^ 16 then some (value.any fun port => op.holds port.toNat n) else none
  | _, _, _ => none

def packetEnv (packet : Packet) : Env where
  flag name := flagOf packet (String.ofList name)
  compare left op right :=
    match fieldOf packet (String.ofList left), constantOf (String.ofList left),
      constantOf (String.ofList right) with
    | some field, _, some constant => compareField field op constant
    | none, some (.number a), some (.number b) => some (op.holds a b)
    | _, _, _ => none

/-! ### Words -/

private theorem isWordChar_digitChar (digit : Nat) : isWordChar (Nat.digitChar digit) :=
  forall_digitChar (P := fun c => isWordChar c) (by decide) (by decide) digit

private theorem noDigit {c : Char} (other : isWordChar c = false) (digit : Nat) :
    Nat.digitChar digit ≠ c := by
  rintro rfl
  simp [isWordChar_digitChar] at other

theorem isWord_number (n : Nat) : IsWord (toString n).toList := by
  refine ⟨?_, fun c member => ?_⟩
  · change Netip.decimal n ≠ []
    rw [decimal_eq]
    exact Nat.toDigits_ne_nil
  · by_contra other
    exact notMem_decimal n c (noDigit (by simpa using other)) member

variable {cidr : Prefix}

theorem isWord_cidr (valid : cidr.isValid) : IsWord cidr.string.toList := by
  have other : ∀ {c : Char}, isWordChar c = false → c ≠ '.' ∧ c ≠ ':' ∧ c ≠ '/' := by
    intro c other
    refine ⟨?_, ?_, ?_⟩ <;> (rintro rfl; revert other; decide)
  rw [Prefix.string, String.toList_ofList]
  refine ⟨ne_nil_of_mem (slash_mem_text valid), fun c member => ?_⟩
  by_contra odd
  replace odd : isWordChar c = false := by simpa using odd
  exact Netip.Prefix.notMem_text valid c (other odd).1 (other odd).2.1 (other odd).2.2
    (noDigit odd) member

/-! ### Clauses -/

section Clauses

variable (packet : Packet) {cidr : Prefix}

private theorem constantOf_prefix (valid : cidr.isValid) (masked : cidr = cidr.masked) :
    constantOf cidr.string = some (.block cidr) := by
  simp only [constantOf, parsePrefix_string cidr valid]
  rw [if_pos masked]

private theorem constantOf_number (n : Nat) : constantOf (toString n) = some (.number n) := by
  have digits : (toString n).toList = Netip.decimal n := rfl
  have noSlash : '/' ∉ Netip.decimal n := notMem_decimal n '/' digit_ne_slash
  have uncut : (Netip.decimal n).dropWhile (· ≠ '/') = [] :=
    dropWhile_eq_nil_iff.mpr fun c member => by
      simpa using ne_of_mem_of_not_mem member noSlash
  have noPrefix : Netip.parsePrefix (toString n) = none := by
    simp only [Netip.parsePrefix, digits, uncut]
  have number : readDigits 10 (toString n).toList = some n := by
    rw [digits, decimal_eq, readDigits_toDigits 10 (by omega) (by omega)]
  simp only [constantOf, noPrefix, number]

/-- The address fields of the two families. -/
structure IsAddressField (direction : String) (ip : Addr) : Prop where
  v4 : fieldOf packet ("ip4" ++ direction) = some (.ip4 ip)
  v6 : fieldOf packet ("ip6" ++ direction) = some (.ip6 ip)
  word4 : IsWord ("ip4" ++ direction).toList
  word6 : IsWord ("ip6" ++ direction).toList

theorem isAddressField_src : IsAddressField packet ".src" packet.source :=
  ⟨rfl, rfl, by decide, by decide⟩

theorem isAddressField_dst : IsAddressField packet ".dst" packet.dest :=
  ⟨rfl, rfl, by decide, by decide⟩

variable {direction : String}

/-- A prefix clause tests the address of the packet. -/
theorem means_prefix {ip : Addr} (isField : IsAddressField packet direction ip)
    (valid : cidr.isValid) (masked : cidr = cidr.masked) :
    Means (packetEnv packet) .operand (ipFamily cidr ++ (direction ++ " == ") ++ cidr.string)
      (cidr.contains ip) := by
  have constant := constantOf_prefix valid masked
  have text : ipFamily cidr ++ (direction ++ " == ") ++ cidr.string =
      ipFamily cidr ++ direction ++ (" " ++ Relop.eq.text ++ " ") ++ cidr.string := by
    simp [Relop.text, String.append_assoc]
  rw [text]
  cases cidr with
  | invalid => simp [Prefix.isValid] at valid
  | v4 block =>
    refine means_compare isField.word4 (isWord_cidr valid) ?_
    simp only [packetEnv, String.ofList_toList, constant]
    rw [show ipFamily (.v4 block) ++ direction = "ip4" ++ direction from rfl, isField.v4]
    rfl
  | v6 block =>
    refine means_compare isField.word6 (isWord_cidr valid) ?_
    simp only [packetEnv, String.ofList_toList, constant]
    rw [show ipFamily (.v6 block) ++ direction = "ip6" ++ direction from rfl, isField.v6]
    rfl

/-- The name of a protocol is its predicate. -/
theorem means_protocol {protocol : Protocol} (named : protocol = .icmp ∨ protocol.hasPorts) :
    Means (packetEnv packet) .operand protocol.text (packet.protocol = protocol) := by
  cases protocol <;> first
    | exact means_flag (by decide) rfl
    | simp [Protocol.hasPorts] at named

/-- The field of a port, for the protocols that have ports. -/
structure IsPortField (protocol : Protocol) (field : String) (port : BitVec 16) : Prop where
  word : IsWord field.toList
  known : fieldOf packet field = some (portOf packet protocol port)

theorem isPortField_src {protocol : Protocol} (ports : protocol.hasPorts) :
    IsPortField packet protocol (portField protocol "src") packet.sourcePort := by
  cases protocol <;> first
    | exact ⟨by decide, rfl⟩
    | simp [Protocol.hasPorts] at ports

theorem isPortField_dst {protocol : Protocol} (ports : protocol.hasPorts) :
    IsPortField packet protocol (portField protocol "dst") packet.destPort := by
  cases protocol <;> first
    | exact ⟨by decide, rfl⟩
    | simp [Protocol.hasPorts] at ports

variable {packet} {protocol : Protocol} {field : String} {port : BitVec 16}

/-- One comparison of a port with a bound. -/
private theorem means_portBound (isField : IsPortField packet protocol field port) (op : Relop)
    (bound : BitVec 16) :
    Means (packetEnv packet) .operand
      (field ++ (" " ++ op.text ++ " ") ++ toString bound.toNat)
      (packet.protocol = protocol && op.holds port.toNat bound.toNat) := by
  refine means_compare isField.word (isWord_number _) ?_
  simp only [packetEnv, String.ofList_toList, constantOf_number, isField.known, portOf,
    compareField]
  rw [if_pos bound.isLt]
  by_cases same : packet.protocol = protocol <;> simp [same]

theorem means_portClause (isField : IsPortField packet protocol field port) (range : PortRange) :
    Means (packetEnv packet) .operand (policyRoutePortClause field range)
      (packet.protocol = protocol && (range.fromPort ≤ port && port ≤ range.toPort)) := by
  unfold policyRoutePortClause
  split
  · next single =>
    have clause := means_portBound isField .eq range.fromPort
    have text : s!"{field} == {range.fromPort.toNat}" =
        field ++ (" " ++ Relop.eq.text ++ " ") ++ toString range.fromPort.toNat := by
      simp [Relop.text, toString, String.append_assoc]
    have value : Relop.eq.holds port.toNat range.fromPort.toNat =
        (decide (range.fromPort ≤ port) && decide (port ≤ range.toPort)) := by
      rw [Bool.eq_iff_iff]
      simp only [Relop.holds, ← single, BitVec.le_def, Bool.and_eq_true, decide_eq_true_eq]
      omega
    rw [text, ← value]
    exact clause
  · have low := means_portBound isField .ge range.fromPort
    have high := means_portBound isField .le range.toPort
    have text : s!"({field} >= {range.fromPort.toNat} && {field} <= {range.toPort.toNat})" =
        "(" ++ (field ++ (" " ++ Relop.ge.text ++ " ") ++ toString range.fromPort.toNat ++ " && " ++
          (field ++ (" " ++ Relop.le.text ++ " ") ++ toString range.toPort.toNat)) ++ ")" := by
      simp [Relop.text, toString, String.append_assoc]
    have value : (decide (packet.protocol = protocol) &&
          (decide (range.fromPort ≤ port) && decide (port ≤ range.toPort))) =
        ((decide (packet.protocol = protocol) && Relop.ge.holds port.toNat range.fromPort.toNat) &&
          (decide (packet.protocol = protocol) && Relop.le.holds port.toNat range.toPort.toNat)) := by
      cases decide (packet.protocol = protocol) <;> simp [Relop.holds, BitVec.le_def]
    rw [text, value]
    exact ((low.join (high.lift .and)).lift .or).group

/-- A list of ranges holds if the port is in one of them. -/
theorem means_portMatch (isField : IsPortField packet protocol (portField protocol direction) port)
    {ports : List PortRange} (some : ports ≠ []) :
    Means (packetEnv packet) .operand (policyRoutePortMatch protocol direction ports)
      (packet.protocol = protocol && portRangesContain ports port) := by
  rw [policyRoutePortMatch, if_neg (by simpa using some)]
  have perm := sortStrings_perm (ports.map (policyRoutePortClause (portField protocol direction)))
  generalize sortStrings _ = sorted at perm ⊢
  have clauses : ∀ text ∈ sorted, Means (packetEnv packet) .operand text
      (holds (packetEnv packet) text) := by
    intro text member
    obtain ⟨range, _, rfl⟩ := mem_map.mp (perm.mem_iff.mp member)
    exact (means_portClause isField range).self
  have value : sorted.any (holds (packetEnv packet)) =
      (decide (packet.protocol = protocol) && portRangesContain ports port) := by
    rw [Ranging.any_perm _ perm, any_map, portRangesContain, and_any_distrib_left]
    congr 1
    funext range
    exact (means_portClause isField range).holds_eq
  have full : sorted ≠ [] := by
    rintro rfl
    exact some (map_eq_nil_iff.mp perm.nil_eq.symm)
  rw [← value]
  split
  · next _ clause => simpa using clauses clause (by simp)
  · exact (means_joined .or _ full fun text member => (clauses text member).lift .and).group

end Clauses

/-! ### The expression -/

/-- What validation says about a match. -/
structure MatchAccepted («match» : RouteMatch) : Prop where
  protocol : «match».protocol = .unset ∨ «match».protocol = .any ∨ «match».protocol = .icmp ∨
    «match».protocol.hasPorts = true
  source : «match».source.isValid = true → «match».source = «match».source.masked
  destination : «match».destination.isValid = true →
    «match».destination = «match».destination.masked
  srcPorts : «match».srcPorts ≠ [] → «match».protocol.hasPorts = true
  dstPorts : «match».dstPorts ≠ [] → «match».protocol.hasPorts = true

theorem matchAccepted {m : RouteMatch} (accepted : m.validate = .ok ()) : MatchAccepted m := by
  simp only [RouteMatch.validate, validateMaskedPrefix, bind_eq_ok, require_eq_ok,
    checkIf_eq_ok, decide_eq_true_eq] at accepted
  obtain ⟨_, known, _, source, _, destination, _, _, _, srcPorts, _, dstPorts, _⟩ := accepted
  have named : ∀ ports : List PortRange, (ports.isEmpty || (if m.protocol = .unset then .any
      else m.protocol).hasPorts) → ports ≠ [] → m.protocol.hasPorts := by
    intro ports allowed some
    cases ports with
    | nil => exact absurd rfl some
    | cons =>
      by_cases unset : m.protocol = .unset
      · simp [unset, Protocol.hasPorts] at allowed
      · simpa [unset] using allowed
  refine ⟨?_, source, destination, named _ srcPorts, named _ dstPorts⟩
  by_cases unset : m.protocol = .unset
  · exact .inl unset
  · simp only [unset, if_false, Protocol.isValid, contains_iff_mem, mem_cons,
      not_mem_nil, or_false] at known
    simp only [Protocol.hasPorts, Bool.or_eq_true, decide_eq_true_eq]
    tauto

/-- A part that is written only under a condition. -/
private theorem parts_ite {env : Env} {condition : Prop} [Decidable condition] {text : String}
    {value : Bool} (means : condition → Means env .operand text value) :
    Parts env (if condition then [text] else []) (!decide condition || value) := by
  by_cases written : condition
  · simpa [written] using (means written).parts
  · simpa [written] using parts_nil

private theorem parts_prefix {packet : Packet} {direction : String} {ip : Addr}
    (isField : IsAddressField packet direction ip) (masked : cidr.isValid → cidr = cidr.masked) :
    Parts (packetEnv packet) (if cidr.isValid then
      [ipFamily cidr ++ (direction ++ " == ") ++ cidr.string] else [])
      (!cidr.isValid || cidr.contains ip) := by
  simpa using parts_ite fun valid => means_prefix packet isField valid (masked valid)

section Expression

variable {m : RouteMatch} (accepted : MatchAccepted m) (packet : Packet)

include accepted in
private theorem parts_protocol :
    Parts (packetEnv packet) (if m.protocol ≠ .unset ∧ m.protocol ≠ .any then
      [m.protocol.text] else [])
      (!decide (m.protocol ≠ .unset ∧ m.protocol ≠ .any) || packet.protocol = m.protocol) := by
  refine parts_ite fun named => means_protocol packet ?_
  rcases accepted.protocol with unset | any | icmp | ports
  · exact absurd unset named.1
  · exact absurd any named.2
  · exact .inl icmp
  · exact .inr ports

/-- A port clause of an accepted match is empty exactly if there are no ports. -/
private theorem parts_ports {direction : String} {ports : List PortRange} {port : BitVec 16}
    (isField : ports ≠ [] → IsPortField packet m.protocol (portField m.protocol direction) port) :
    Parts (packetEnv packet) (if policyRoutePortMatch m.protocol direction ports ≠ "" then
      [policyRoutePortMatch m.protocol direction ports] else [])
      (ports.isEmpty || (packet.protocol = m.protocol && portRangesContain ports port)) := by
  cases ports with
  | nil => exact parts_nil
  | cons first rest =>
    have means := means_portMatch (isField (by simp)) (cons_ne_nil first rest)
    have full : policyRoutePortMatch m.protocol direction (first :: rest) ≠ "" := by
      intro empty
      obtain ⟨expr, reads, _⟩ := means
      rw [empty] at reads
      exact reads.1 (by decide)
    rw [if_pos full]
    simpa using means.parts

include accepted in
/-- The parts of the expression hold together if the match does. -/
theorem parts_policyRoute :
    Parts (packetEnv packet) (policyRouteParts m) (routeMatch m packet) := by
  have source := parts_prefix (isAddressField_src packet) accepted.source
  have destination := parts_prefix (isAddressField_dst packet) accepted.destination
  have protocol := parts_protocol accepted packet
  have sources := parts_ports packet fun some => isPortField_src packet (accepted.srcPorts some)
  have destinations := parts_ports packet fun some =>
    isPortField_dst packet (accepted.dstPorts some)
  have all := (((source.append destination).append protocol).append sources).append destinations
  rw [show ".src" ++ " == " = ".src == " by decide, show ".dst" ++ " == " = ".dst == " by decide]
    at all
  -- Ports are compared only under a protocol that has them, which the flag tests as well.
  have named : ∀ ports : List PortRange, (ports ≠ [] → m.protocol.hasPorts) →
      ports ≠ [] → m.protocol ≠ .unset ∧ m.protocol ≠ .any := by
    intro ports has some
    constructor <;> (intro same; simp [same, Protocol.hasPorts] at has; exact some has)
  have srcNamed := named _ accepted.srcPorts
  have dstNamed := named _ accepted.dstPorts
  have value : routeMatch m packet = ((((!m.source.isValid || m.source.contains packet.source) &&
      (!m.destination.isValid || m.destination.contains packet.dest)) &&
      (!decide (m.protocol ≠ .unset ∧ m.protocol ≠ .any) || packet.protocol = m.protocol)) &&
      (m.srcPorts.isEmpty ||
        (packet.protocol = m.protocol && portRangesContain m.srcPorts packet.sourcePort)) &&
      (m.dstPorts.isEmpty ||
        (packet.protocol = m.protocol && portRangesContain m.dstPorts packet.destPort))) := by
    rw [routeMatch, Bool.eq_iff_iff]
    by_cases same : packet.protocol = m.protocol
    · simp [same]
    · grind
  rw [value]
  exact all

include accepted in
theorem means_policyRouteMatch :
    Means (packetEnv packet) .conj (policyRouteMatch m) (routeMatch m packet) := by
  have parts := (parts_policyRoute accepted packet).perm (sortStrings_perm _)
  simp only [policyRouteMatch]
  split
  · next empty =>
    rw [isEmpty_iff.mp empty] at parts
    have always : routeMatch m packet := parts.2.symm
    rw [always]
    have one : Means (packetEnv packet) .operand ("1" ++ (" " ++ Relop.eq.text ++ " ") ++ "1") true :=
      means_compare (by decide) (by decide) rfl
    exact one.lift .and
  · next some => exact parts.means (by simpa using some)

end Expression

def webMatch : RouteMatch :=
  { source := Netip.prefixFrom (.v4 0x0a000000) 8
    protocol := .tcp
    dstPorts := [⟨8000, 8080⟩, ⟨80, 80⟩] }

def webPacket : Packet :=
  { sourcePort := 40000, vpc := "blue", source := .v4 0x0a010203, dest := .v4 0xc0a80001
    protocol := .tcp, destPort := 8042 }

end Netloom.Ovn
