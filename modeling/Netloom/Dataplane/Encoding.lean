import Netloom.Dataplane.Evaluator
import Netloom.Policy.Meaning
import Netloom.Policy.Compiled

/-!
# What the encoded entries of a rule match

The port blocks of a rule, encoded and tested by the evaluator, admit exactly
the ports of the rule, whatever the byte order of the host. Together with the
direction, the remote prefix and the protocol this gives the packets some entry
of the rule matches. ICMP goes through the same test: its type and code take
the place of the port. Among rules of one precedence all refuse or none does, so the
verdict does not depend on which entry the evaluator picks.
-/
namespace Netloom.Dataplane

open Netip (Addr Prefix)
open Model List Checked Policy

/-! ### Ports -/

theorem swapBytes_swapBytes (value : BitVec 16) : swapBytes (swapBytes value) = value := by
  apply BitVec.eq_of_getLsbD_eq
  intro i below
  simp only [swapBytes, BitVec.getLsbD_append, BitVec.getLsbD_extractLsb']
  by_cases low : i < 8
  · have high : ¬ 8 + i < 8 := by omega
    simp [low, high, show 8 + i - 8 = i by omega]
  · have low' : i - 8 < 8 := by omega
    simp [low, low', show 8 + (i - 8) = i by omega]

@[simp] theorem networkToHost16_hostToNetwork16 (host : Endian) (value : BitVec 16) :
    networkToHost16 host (hostToNetwork16 host value) = value := by
  cases host with
  | little => exact swapBytes_swapBytes value
  | big => rfl

/-- The ports a port prefix stands for, once the protocol agrees. -/
def admitsPort (p : PortPrefix) (port : BitVec 16) : Bool :=
  p.l4PrefixBits.toNat ≤ 8 ||
    port >>> (24 - p.l4PrefixBits.toNat) == p.port >>> (24 - p.l4PrefixBits.toNat)

private theorem portFieldMatches_iff (stored seen : BitVec 16) (bits : BitVec 8)
    (low : 8 < bits.toNat) (high : bits.toNat ≤ 24) :
    portFieldMatches stored seen (bits - 8) ↔
      seen >>> (24 - bits.toNat) = stored >>> (24 - bits.toNat) := by
  have shift : (16 - (bits - 8)).toNat = 24 - bits.toNat := by
    bv_omega
  simp only [portFieldMatches, shift, beq_iff_eq, Cidr.and_mask_eq_iff]
  exact eq_comm

/-- The field of a packet that is compared with the port of an entry: the type and the
code of an ICMP message, the destination port otherwise. -/
def l4Field (packet : Packet) : BitVec 16 :=
  if packet.protocol = 1 || packet.protocol = 58 then packet.icmpType ++ packet.icmpCode
  else packet.destPort

/-- Leaving the code out does not matter for a comparison of up to eight bits. -/
private theorem portFieldMatches_icmpField (stored : BitVec 16) (packet : Packet) (bits : BitVec 8)
    (high : bits.toNat ≤ 16) :
    portFieldMatches stored (icmpField packet bits) bits =
      portFieldMatches stored (packet.icmpType ++ packet.icmpCode) bits := by
  have whole : packet.icmpType ++ packet.icmpCode =
      packet.icmpType.setWidth 16 <<< 8 ||| packet.icmpCode.setWidth 16 := by
    rw [BitVec.append_def, BitVec.shiftLeftZeroExtend_eq, BitVec.setWidth'_eq]
  rw [whole]
  unfold icmpField
  simp only
  split
  · rfl
  · next short =>
    have small : bits.toNat ≤ 8 := by simpa [BitVec.lt_def] using short
    have shift : (16 - bits).toNat = 16 - bits.toNat := by bv_omega
    -- The bits of the code are shifted out.
    have code : packet.icmpCode.setWidth 16 >>> (16 - bits.toNat) = 0#16 := by
      grind
    rw [Bool.eq_iff_iff]
    simp only [portFieldMatches, shift, beq_iff_eq, Cidr.and_mask_eq_iff,
      BitVec.ushiftRight_or_distrib, code, BitVec.or_zero]

/-- The protocol and port test of an encoded port prefix. -/
theorem l4Matches_encoded (host : Endian) (key : PolicyKey) (p : PortPrefix) (packet : Packet)
    (prefixLen : key.prefixLen = staticPrefixBits + p.l4PrefixBits.setWidth 32)
    (destPort : key.destPortBE = hostToNetwork16 host p.port) (high : p.l4PrefixBits.toNat ≤ 24) :
    l4Matches host key packet ↔
      p.l4PrefixBits = 0 ∨
        (key.protocol = packet.protocol ∧ admitsPort p (l4Field packet)) := by
  have bits : (key.prefixLen - staticPrefixBits).setWidth 8 = p.l4PrefixBits := by
    rw [prefixLen, BitVec.add_comm, BitVec.add_sub_cancel]
    simp
  simp only [l4Matches, bits, destPort, networkToHost16_hostToNetwork16]
  split
  · next zero => simp [zero]
  next some =>
  split
  · next differ => simpa [differ] using some
  next same =>
  simp only [ne_eq, not_not] at same
  split
  · next short =>
    have small : p.l4PrefixBits.toNat ≤ 8 := by simpa [BitVec.le_def] using short
    simp [same, admitsPort, small]
  next long =>
  have large : 8 < p.l4PrefixBits.toNat := by simpa [BitVec.le_def] using long
  have field : ∀ value, portFieldMatches p.port value (p.l4PrefixBits - 8) ↔
      admitsPort p value := by
    intro value
    rw [portFieldMatches_iff _ _ _ large high]
    simp only [admitsPort, Nat.not_le.mpr large, decide_false, Bool.false_or, beq_iff_eq]
  split
  · next icmp =>
    rw [portFieldMatches_icmpField _ _ _ (by bv_omega)]
    simp only [some, same, true_and, false_or, field, l4Field, icmp, if_true]
  · next other =>
    simp only [some, same, true_and, false_or, field, l4Field, other, Bool.false_eq_true, if_false]

theorem toNat_l4PrefixBits {block : Policy.PortBlock} (short : block.prefixBits.toNat ≤ 16) :
    (8 + block.prefixBits).toNat = 8 + block.prefixBits.toNat := by
  bv_omega

private theorem admitsPort_block {first last : BitVec 16} {block : Policy.PortBlock}
    (member : block ∈ splitPortRange first last) (port : BitVec 16) :
    admitsPort { port := block.port, l4PrefixBits := 8 + block.prefixBits } port ↔
      block.contains port := by
  have bits := prefixBits_splitPortRange member
  have shift : 24 - (8 + block.prefixBits.toNat) = 16 - block.prefixBits.toNat := by omega
  simp only [admitsPort, Policy.PortBlock.contains, toNat_l4PrefixBits bits, shift,
    Bool.or_eq_true, decide_eq_true_eq, beq_iff_eq, or_iff_right_iff_imp]
  intro short
  -- No significant bits: everything is shifted out.
  have all : 16 - block.prefixBits.toNat = 16 := by omega
  rw [all, BitVec.ushiftRight_eq_zero (by omega), BitVec.ushiftRight_eq_zero (by omega)]

variable {rule : Rule} {ports : List PortPrefix}

/-- The port prefixes of a rule with a port-based protocol admit exactly its ports. -/
theorem admitsPort_l4PortPrefixes (returned : l4PortPrefixes rule = .ok ports)
    (protocol : (normalizedProtocol rule.protocol).hasPorts) (port : BitVec 16) :
    (∀ p ∈ ports, 8 ≤ p.l4PrefixBits.toNat ∧ p.l4PrefixBits.toNat ≤ 24) ∧
      ((∃ p ∈ ports, admitsPort p port) ↔
        rule.ports = [] ∨ portRangesContain rule.ports port) := by
  have notIcmp : normalizedProtocol rule.protocol ≠ .icmp := by
    intro icmp
    simp [icmp, Protocol.hasPorts] at protocol
  have notAny : normalizedProtocol rule.protocol ≠ .any := by
    intro any
    simp [any, Protocol.hasPorts] at protocol
  simp only [l4PortPrefixes, notIcmp, notAny, if_false] at returned
  split at returned
  · next none =>
    cases returned
    simp only [List.isEmpty_iff] at none
    simp [none, admitsPort]
  · next some =>
    simp only [bind_eq_ok, mapM_check, pure_eq_ok] at returned
    obtain ⟨blocks, ⟨_, rfl⟩, rfl⟩ := returned
    have empty : rule.ports ≠ [] := by simpa using some
    simp only [empty, false_or, mem_flatten, mem_map, exists_exists_and_eq_and,
      portRangesContain, any_eq_true, Bool.and_eq_true, decide_eq_true_eq]
    constructor
    · rintro p ⟨range, _, block, member, rfl⟩
      have bits := prefixBits_splitPortRange member
      simp only [toNat_l4PrefixBits bits]
      omega
    · constructor
      · rintro ⟨p, ⟨range, inPorts, block, member, rfl⟩, admits⟩
        refine ⟨range, inPorts, (contains_splitPortRange _ _ port).mp ⟨block, member, ?_⟩⟩
        exact (admitsPort_block member port).mp admits
      · rintro ⟨range, inPorts, inside⟩
        obtain ⟨block, member, admits⟩ := (contains_splitPortRange _ _ port).mpr inside
        exact ⟨_, ⟨range, inPorts, block, member, rfl⟩, (admitsPort_block member port).mpr admits⟩

/-- No port prefix of a rule goes beyond protocol and port. -/
theorem l4PrefixBits_l4PortPrefixes (returned : l4PortPrefixes rule = .ok ports) :
    ∀ p ∈ ports, p.l4PrefixBits.toNat ≤ 24 := by
  by_cases ported : (normalizedProtocol rule.protocol).hasPorts
  · exact fun p member => ((admitsPort_l4PortPrefixes returned ported 0).1 p member).2
  simp only [l4PortPrefixes] at returned
  split at returned
  · cases returned
    unfold icmpPrefixes
    split
    · simp
    · cases rule.icmpCode <;> simp
  split at returned
  · split at returned <;>
    · cases returned
      simp
  split at returned
  · simp at returned
  · simp only [bind_eq_ok, mapM_check, pure_eq_ok] at returned
    obtain ⟨blocks, ⟨_, rfl⟩, rfl⟩ := returned
    intro p member
    simp only [mem_flatten, mem_map, exists_exists_and_eq_and] at member
    obtain ⟨range, _, block, inBlocks, rfl⟩ := member
    have bits := prefixBits_splitPortRange inBlocks
    simp only [toNat_l4PrefixBits bits]
    omega

/-! ### Rules -/

/-- The parts of an encoded entry that decide its fate, in terms of the rule. -/
structure EncodedFrom (host : Endian) (rule : Rule) (p : PortPrefix) (entry : PolicyMapEntry) :
    Prop where
  direction : directionNumber rule.direction = .ok entry.key.direction
  protocol : protocolNumber rule.protocol = .ok entry.key.protocol
  prefixLen : entry.key.prefixLen = staticPrefixBits + p.l4PrefixBits.setWidth 32
  destPort : entry.key.destPortBE = hostToNetwork16 host p.port
  identity : entry.remoteCIDR.isValid = false → entry.key.remoteIdentity = 0
  remoteCIDR : entry.remoteCIDR = rule.remoteCIDR
  requireIdentity : entry.value.requireIdentity = 0
  precedence : entry.value.precedence = Policy.precedence rule
  deny : entry.value.deny = boolByte (rule.action = .drop || rule.action = .reject)
  reject : entry.value.reject = boolByte (rule.action = .reject)

private theorem protocolNumber_normalized (protocol : Protocol) :
    protocolNumber (normalizedProtocol protocol) = protocolNumber protocol := by
  cases protocol <;> rfl

/-- A compiled rule whose entries are matched by direction, remote prefix, protocol and
port alone: it has no remote endpoint, no identity stands in for a missing prefix, and
its prefix does not turn ICMP into ICMPv6. -/
structure Plain (rule : Rule) : Prop where
  noEndpoint : rule.remoteEndpoint = ""
  byPrefix : rule.remoteCIDR.isValid = true ∨
    (rule.remoteEntity = "" ∧ rule.remoteService = "" ∧ rule.remoteGroup = "")
  family : normalizedProtocol rule.protocol = .icmp → rule.remoteCIDR.addr.is6 = false

theorem Plain.of_addressed (addressed : rule.Addressed) : Plain rule := by
  obtain ⟨noEndpoint, byPrefix, protocol⟩ := addressed
  refine ⟨noEndpoint, byPrefix, fun icmp => ?_⟩
  simp [icmp, Protocol.hasPorts] at protocol

variable {host : Endian} {p : PortPrefix} {entry : PolicyMapEntry} {localVPC : String}
  {resolver : Policy.IdentityResolver}

/-- The entry of a rule goes in its direction. -/
theorem direction_of_encodeEntry
    (encoded : encodeEntry host (mapEntry rule localVPC resolver p) = .ok entry) :
    directionNumber rule.direction = .ok entry.key.direction := by
  simp only [encodeEntry, bind_eq_ok, pure_eq_ok] at encoded
  obtain ⟨_, _, direction, directionOk, rfl⟩ := encoded
  exact directionOk

theorem encodedFrom_of_encodeEntry (plain : Plain rule)
    (encoded : encodeEntry host (mapEntry rule localVPC resolver p) = .ok entry) :
    EncodedFrom host rule p entry := by
  obtain ⟨noEndpoint, byPrefix, family⟩ := plain
  have number : protocolNumberForEntry (mapEntry rule localVPC resolver p) =
      protocolNumber rule.protocol := by
    by_cases icmp : normalizedProtocol rule.protocol = .icmp
    · simp [protocolNumberForEntry, mapEntry, family icmp, protocolNumber_normalized]
    · simp [protocolNumberForEntry, mapEntry, icmp, protocolNumber_normalized]
  simp only [encodeEntry, number, bind_eq_ok, pure_eq_ok] at encoded
  obtain ⟨proto, protoOk, direction, directionOk, rfl⟩ := encoded
  refine ⟨directionOk, protoOk, rfl, rfl, ?_, rfl, ?_, rfl, rfl, rfl⟩
  · intro invalid
    have names := byPrefix.resolve_left (by simpa [mapEntry] using invalid)
    have notValid : ¬ rule.remoteCIDR.isValid := by simpa [mapEntry] using invalid
    simp [mapEntry, remoteIdentity, noEndpoint, names, notValid]
  · simp [mapEntry, noEndpoint, boolByte]

variable {packet : Packet}

/-- What one encoded entry of a rule matches. -/
theorem entryMatches_encodedFrom (encoded : EncodedFrom host rule p entry)
    (valid : packet.remoteIP.isValid) (short : p.l4PrefixBits.toNat ≤ 24) :
    entryMatches host entry packet ↔
      directionNumber rule.direction = .ok packet.direction ∧
      (rule.remoteCIDR.isValid → rule.remoteCIDR.contains packet.remoteIP) ∧
      (p.l4PrefixBits = 0 ∨ (protocolNumber rule.protocol = .ok packet.protocol ∧
        admitsPort p (l4Field packet))) := by
  have l4 := l4Matches_encoded host entry.key p packet encoded.prefixLen encoded.destPort short
  rw [encoded.direction, encoded.protocol]
  simp only [Except.ok.injEq, ← l4, ← encoded.remoteCIDR]
  have identity := encoded.identity
  simp only [entryMatches, remoteCIDRMatches, valid, encoded.requireIdentity, Bool.and_true]
  by_cases direction : entry.key.direction = packet.direction
  · grind
  · simp [direction]

/-- The compiled rule meets the packet: it goes in its direction, and some port block of
its remote prefix matches. -/
def Meets (packet : Packet) (rule : Rule) : Prop :=
  directionNumber rule.direction = .ok packet.direction ∧
  (rule.remoteCIDR.isValid = true → rule.remoteCIDR.contains packet.remoteIP = true) ∧
  ∃ ports, l4PortPrefixes rule = .ok ports ∧ ∃ p ∈ ports, p.l4PrefixBits = 0 ∨
    (protocolNumber rule.protocol = .ok packet.protocol ∧ admitsPort p (l4Field packet) = true)

/-! ### Flows -/

/-- A packet of a flow, whatever its direction. -/
structure Packet.Carries (packet : Packet) (flow : Flow) : Prop where
  remote : packet.remoteIP = flow.remote
  protocol : protocolNumber flow.protocol = .ok packet.protocol
  port : packet.destPort = flow.port

private theorem number_of_hasPorts {protocol : Protocol} {number : BitVec 8}
    (ported : protocol.hasPorts) (encoded : protocolNumber protocol = .ok number) :
    number = 6 ∨ number = 17 ∨ number = 132 := by
  cases protocol <;> simp_all [Protocol.hasPorts, protocolNumber]

/-- A packet is tcp, udp or sctp with a valid remote address exactly if it has a flow. -/
theorem Packet.Carries.valid {flow : Policy.Flow} (carries : packet.Carries flow) :
    packet.remoteIP.isValid ∧
      (packet.protocol = 6 ∨ packet.protocol = 17 ∨ packet.protocol = 132) := by
  obtain ⟨remote, number, _⟩ := carries
  exact ⟨remote ▸ flow.valid, number_of_hasPorts flow.ported number⟩

variable {flow : Flow}

/-- The rule speaks the protocol of the flow, in numbers and in names. -/
private theorem protocolNumber_eq_iff (carries : packet.Carries flow) (protocol : Protocol) :
    protocolNumber protocol = .ok packet.protocol ↔ protocol = flow.protocol := by
  have ported := flow.ported
  rw [← carries.protocol]
  cases protocol <;> cases h : flow.protocol <;> simp_all [Protocol.hasPorts, protocolNumber]

private theorem l4Field_of_hasPorts {protocol : Protocol} (ported : protocol.hasPorts)
    (encoded : protocolNumber protocol = .ok packet.protocol) :
    l4Field packet = packet.destPort := by
  rcases number_of_hasPorts ported encoded with h | h | h <;> simp [l4Field, h]

private theorem l4Field_carries (carries : packet.Carries flow) : l4Field packet = flow.port := by
  rw [← carries.port]
  exact l4Field_of_hasPorts flow.ported carries.protocol

/-- A rule with an address-based remote side meets a packet of its direction exactly if
it carries the flow of the packet. -/
theorem meets_iff_carries (addressed : rule.Addressed)
    (returned : l4PortPrefixes rule = .ok ports) (carries : packet.Carries flow) :
    Meets packet rule ↔
      directionNumber rule.direction = .ok packet.direction ∧ rule.Carries flow := by
  simp only [Meets, returned, Except.ok.injEq, exists_eq_left', l4Field_carries carries,
    protocolNumber_eq_iff carries, carries.remote]
  apply and_congr_right
  intro _
  rcases addressed.protocol with any | concrete
  · -- Every protocol: one block without significant bits, and no ports.
    simp only [l4PortPrefixes, any, reduceCtorEq, if_false, if_true] at returned
    split at returned
    · next empty =>
      cases returned
      rw [List.isEmpty_iff] at empty
      constructor
      · intro holds
        exact ⟨holds.1, .inl any, .inl empty⟩
      · intro holds
        exact ⟨holds.remote, by simp⟩
    · simp at returned
  · obtain ⟨bits, admits⟩ := admitsPort_l4PortPrefixes returned concrete flow.port
    have notAny : normalizedProtocol rule.protocol ≠ .any := by
      intro any
      simp [any, Protocol.hasPorts] at concrete
    have nonzero : ∀ p ∈ ports, p.l4PrefixBits ≠ 0 := by
      intro p member zero
      have := (bits p member).1
      simp [zero] at this
    constructor
    · rintro ⟨remote, p, member, admitted⟩
      obtain ⟨protocol, port⟩ := admitted.resolve_left (nonzero p member)
      exact ⟨remote, .inr protocol, admits.mp ⟨p, member, port⟩⟩
    · rintro ⟨remote, protocol, inPorts⟩
      obtain ⟨p, member, admitted⟩ := admits.mpr inPorts
      exact ⟨remote, p, member, .inr ⟨protocol.resolve_left notAny, admitted⟩⟩

/-! ### Port ranges -/

/-- The entry of a port prefix, encoded for a rule with ports, passes the port test for the
ports of the prefix. -/
private theorem l4Matches_encodeEntry (ported : rule.protocol.hasPorts)
    (directed : rule.direction = .ingress ∨ rule.direction = .egress)
    (protocol : protocolNumber rule.protocol = .ok packet.protocol)
    (some : p.l4PrefixBits ≠ 0) (high : p.l4PrefixBits.toNat ≤ 24) :
    (∃ entry, encodeEntry host (mapEntry rule localVPC resolver p) = .ok entry ∧
      l4Matches host entry.key packet) ↔ admitsPort p packet.destPort := by
  have number : protocolNumberForEntry (mapEntry rule localVPC resolver p) =
      .ok packet.protocol := by
    cases given : rule.protocol <;>
      simp_all [protocolNumberForEntry, mapEntry, normalizedProtocol, Protocol.hasPorts]
  have direction : ∃ d, directionNumber (mapEntry rule localVPC resolver p).key.direction =
      .ok d := by
    rcases directed with given | given <;> exact ⟨_, by rw [mapEntry, given]; rfl⟩
  obtain ⟨d, direction⟩ := direction
  simp only [encodeEntry, number, direction, bind_eq_ok, pure_eq_ok, Except.ok.injEq,
    exists_eq_left', ← l4Field_of_hasPorts ported protocol]
  rw [l4Matches_encoded host _ p packet rfl rfl high, or_iff_right some]
  exact and_iff_right rfl

/-- A valid port range is encoded exactly: its blocks are aligned powers of two, apart
from each other and at most thirty, and on a host of either byte order some entry of
theirs passes the port test for exactly the ports of the range. -/
theorem splitPortRange_exact (range : PortRange) (valid : range.validate = .ok ()) :
    (∀ block ∈ splitPortRange range.fromPort range.toPort,
      2 ^ (16 - block.prefixBits.toNat) ∣ block.port.toNat ∧
      ∀ port, block.contains port = true ↔ block.port.toNat ≤ port.toNat ∧
        port.toNat < block.port.toNat + 2 ^ (16 - block.prefixBits.toNat)) ∧
    (splitPortRange range.fromPort range.toPort).Pairwise (fun a b =>
      ∀ port, ¬ (a.contains port = true ∧ b.contains port = true)) ∧
    (splitPortRange range.fromPort range.toPort).length ≤ 30 ∧
    ∀ (rule : Rule) (localVPC : String) (resolver : IdentityResolver) (host : Endian)
      (packet : Packet), rule.protocol.hasPorts = true →
      (rule.direction = .ingress ∨ rule.direction = .egress) →
      protocolNumber rule.protocol = .ok packet.protocol →
      ((∃ block ∈ splitPortRange range.fromPort range.toPort, ∃ entry,
        encodeEntry host (mapEntry rule localVPC resolver
          { port := block.port, l4PrefixBits := 8 + block.prefixBits }) = .ok entry ∧
        l4Matches host entry.key packet = true) ↔
      range.fromPort ≤ packet.destPort ∧ packet.destPort ≤ range.toPort) := by
  have cuts := cuts_splitPortRange range.fromPort range.toPort
  have positive : 0 < range.fromPort.toNat := by
    simp only [PortRange.validate, bind_eq_ok, require_eq_ok] at valid
    obtain ⟨_, nonzero, _⟩ := valid
    simp only [ne_eq, Bool.and_eq_true, decide_eq_true_eq] at nonzero
    bv_omega
  refine ⟨fun block member => ?_, ?_, ?_, ?_⟩
  · exact ⟨(bounds_splitPortRange member).2.2.1, contains_iff_of_mem member⟩
  · refine (pairwise_map.mp cuts.pairwise).imp_of_mem fun inA inB apart port both => ?_
    have first := (contains_iff_of_mem inA port).mp both.1
    have second := (contains_iff_of_mem inB port).mp both.2
    simp only [PortBlock.span] at apart
    omega
  · have count := cuts.length_le range.toPort.isLt positive (Nat.one_dvd _) (by omega : 0 < 16)
    rw [length_map] at count
    omega
  · intro rule localVPC resolver host packet ported directed protocol
    rw [← contains_splitPortRange]
    refine exists_congr fun block => and_congr_right fun member => ?_
    have bits := prefixBits_splitPortRange member
    rw [← admitsPort_block member]
    exact l4Matches_encodeEntry ported directed protocol (by bv_omega)
      (by simp only [toNat_l4PrefixBits bits]; omega)

theorem splitPortRange_exact_most :
    (splitPortRange 1 65534).length = 30 ∧
    ((⟨1, 65534⟩ : PortRange).validate = .ok ()) ∧
    (splitPortRange 1 65534).Pairwise (fun a b =>
      ∀ port, ¬ (a.contains port = true ∧ b.contains port = true)) :=
  ⟨by decide +kernel, by decide, (splitPortRange_exact ⟨1, 65534⟩ (by decide)).2.1⟩

/-! ### Precedence -/

/-- The actions that refuse a packet. -/
def Denies (action : Action) : Prop := action = .drop ∨ action = .reject

instance (action : Action) : Decidable (Denies action) := inferInstanceAs (Decidable (_ ∨ _))

/-- The lowest bit of the precedence tells the refusing actions apart. -/
theorem precedence_lowest (rule : Rule) :
    (Policy.precedence rule).getLsbD 0 ↔ Denies rule.action := by
  unfold Policy.precedence Denies
  simp only
  split
  · next refuses => simpa using refuses
  · next allows => simpa using allows

theorem denies_iff_of_precedence_eq {a b : Rule}
    (same : (Policy.precedence a).toNat = (Policy.precedence b).toNat) :
    Denies a.action ↔ Denies b.action := by
  rw [← precedence_lowest a, BitVec.eq_of_toNat_eq same, precedence_lowest b]

/-! ### From entries to compiled rules -/

section Programs

variable {host : Endian} {rules : List Rule} {program : Program} {out : List PolicyMapEntry}
  {packet : Packet} {entry : PolicyMapEntry}

/-- The rules of the direction of a packet are matched without identities. -/
def PlainFor (packet : Packet) (rules : List Rule) : Prop :=
  ∀ rule ∈ rules, directionNumber rule.direction = .ok packet.direction → Plain rule

theorem direction_of_entryMatches (found : entryMatches host entry packet) :
    entry.key.direction = packet.direction := by
  by_contra differ
  simp [entryMatches, differ] at found

/-- A rule of greatest precedence among those that meet the packet. -/
structure Leads (packet : Packet) (rules : List Rule) (rule : Rule) : Prop where
  member : rule ∈ rules
  found : Meets packet rule
  greatest : ∀ other ∈ rules, Meets packet other →
    (Policy.precedence other).toNat ≤ (Policy.precedence rule).toNat

/-- Leading rules have the same precedence, hence refuse together. -/
theorem Leads.denies_iff {a b : Rule} (leadsA : Leads packet rules a)
    (leadsB : Leads packet rules b) : Denies a.action ↔ Denies b.action :=
  denies_iff_of_precedence_eq (Nat.le_antisymm (leadsB.greatest a leadsA.member leadsA.found)
    (leadsA.greatest b leadsB.member leadsB.found))

variable (entriesOf : Policy.EntriesOf rules program.mapEntries)
  (encoded : encodeProgram host program = .ok out)
include entriesOf encoded

theorem encoded_of_mem (member : entry ∈ out) :
    ∃ rule ∈ rules, ∃ localVPC resolver ports, ∃ p ∈ ports,
      l4PortPrefixes rule = .ok ports ∧
      encodeEntry host (mapEntry rule localVPC resolver p) = .ok entry := by
  simp only [encodeProgram, bind_eq_ok] at encoded
  obtain ⟨entries, entriesOk, canonical⟩ := encoded
  have inEntries := (canonicalPolicyMapEntries_spec canonical).sound entry member
  obtain ⟨source, inProgram, encodes⟩ := (mem_of_mapM entriesOk).1 entry inEntries
  obtain ⟨rule, inRules, localVPC, resolver, ports, p, inPorts, portsOk, rfl⟩ :=
    entriesOf.sound source inProgram
  exact ⟨rule, inRules, localVPC, resolver, ports, p, inPorts, portsOk,
    (context_eq_ok _ _ _).mp encodes⟩

/-- An entry in the direction of the packet comes from a plain rule. -/
private theorem encodedFrom_of_mem (plain : PlainFor packet rules)
    (member : entry ∈ out) (direction : entry.key.direction = packet.direction) :
    ∃ rule ∈ rules, ∃ ports, ∃ p ∈ ports, l4PortPrefixes rule = .ok ports ∧
      EncodedFrom host rule p entry := by
  obtain ⟨rule, inRules, _, _, ports, p, inPorts, portsOk, encodes⟩ :=
    encoded_of_mem entriesOf encoded member
  have goes := direction_of_encodeEntry encodes
  rw [direction] at goes
  exact ⟨rule, inRules, ports, p, inPorts, portsOk,
    encodedFrom_of_encodeEntry (plain rule inRules goes) encodes⟩

variable (plain : PlainFor packet rules) (valid : packet.remoteIP.isValid)
include plain valid

/-- An entry that matches comes from a rule that meets the packet. -/
private theorem rule_of_entryMatches (member : entry ∈ out)
    (found : entryMatches host entry packet) :
    ∃ rule ∈ rules, Meets packet rule ∧ entry.value.precedence = Policy.precedence rule ∧
      (entryVerdict entry.value = .allow ↔ ¬ Denies rule.action) := by
  obtain ⟨rule, inRules, ports, p, inPorts, portsOk, encodes⟩ :=
    encodedFrom_of_mem entriesOf encoded plain member (direction_of_entryMatches found)
  have short := l4PrefixBits_l4PortPrefixes portsOk p inPorts
  obtain ⟨direction, remote, block⟩ := (entryMatches_encodedFrom encodes valid short).mp found
  refine ⟨rule, inRules, ⟨direction, remote, ports, portsOk, p, inPorts, block⟩,
    encodes.precedence, ?_⟩
  unfold entryVerdict Denies
  rw [encodes.deny, encodes.reject]
  cases rule.action <;> simp [boolByte]

/-- A rule that meets the packet has an entry that matches and is at least as good. -/
private theorem entry_of_meets {rule : Rule} (inRules : rule ∈ rules)
    (found : Meets packet rule) :
    ∃ entry ∈ out, entryMatches host entry packet ∧
      (Policy.precedence rule).toNat ≤ entry.value.precedence.toNat := by
  obtain ⟨direction, remote, ports, portsOk, p, inPorts, block⟩ := found
  obtain ⟨localVPC, resolver, ports', portsOk', all⟩ := entriesOf.complete rule inRules
  obtain rfl := Except.ok.inj (portsOk.symm.trans portsOk')
  have whole := encoded
  simp only [encodeProgram, bind_eq_ok] at encoded
  obtain ⟨entries, entriesOk, canonical⟩ := encoded
  obtain ⟨entry, inEntries, encodes⟩ := (mem_of_mapM entriesOk).2 _ (all p inPorts)
  have source := encodedFrom_of_encodeEntry (plain rule inRules direction)
    ((context_eq_ok _ _ _).mp encodes)
  have matched := (entryMatches_encodedFrom source valid
    (l4PrefixBits_l4PortPrefixes portsOk p inPorts)).mpr ⟨direction, remote, block⟩
  -- The entry kept for its key goes in the same direction, so it is plain as well.
  obtain ⟨kept, inOut, key, cidr, rank⟩ :=
    (canonicalPolicyMapEntries_spec canonical).complete entry inEntries
  have keptDirection : kept.key.direction = packet.direction := by
    rw [key]
    exact direction_of_entryMatches matched
  obtain ⟨_, _, _, _, _, _, keptFrom⟩ := encodedFrom_of_mem entriesOf whole plain inOut keptDirection
  refine ⟨kept, inOut, ?_, ?_⟩
  · rw [entryMatches_congr key cidr (keptFrom.requireIdentity.trans source.requireIdentity.symm)]
    exact matched
  · rw [← source.precedence]
    exact precedence_le_of_entryRank_le rank

/-- No entry is selected only if no rule meets the packet, and a selected entry is one
of a leading rule. -/
theorem selectEntry_rule :
    (selectEntry host out packet = none ↔ ∀ rule ∈ rules, ¬ Meets packet rule) ∧
    ∀ best, selectEntry host out packet = some best → ∃ rule, Leads packet rules rule ∧
      (entryVerdict best.value = .allow ↔ ¬ Denies rule.action) := by
  obtain ⟨missed, selected⟩ := selectEntry_spec host out packet
  have leading : ∀ best, selectEntry host out packet = some best → ∃ rule,
      Leads packet rules rule ∧ (entryVerdict best.value = .allow ↔ ¬ Denies rule.action) := by
    intro best chosen
    obtain ⟨inOut, found, greatest⟩ := selected best chosen
    obtain ⟨rule, inRules, meets, precedence, verdict⟩ :=
      rule_of_entryMatches entriesOf encoded plain valid inOut found
    refine ⟨rule, ⟨inRules, meets, fun other inOthers meetsOther => ?_⟩, verdict⟩
    obtain ⟨entry, entryInOut, matched, le⟩ :=
      entry_of_meets entriesOf encoded plain valid inOthers meetsOther
    have better := precedence_le_of_entryRank_le
      (entryRank_le_of_matchRank_le (greatest entry entryInOut matched))
    rw [precedence] at better
    exact le.trans better
  refine ⟨⟨fun chosen rule inRules meets => ?_, fun none => ?_⟩, leading⟩
  · obtain ⟨entry, inOut, found, _⟩ := entry_of_meets entriesOf encoded plain valid inRules meets
    rw [missed chosen entry inOut] at found
    exact absurd found (by simp)
  · cases chosen : selectEntry host out packet with
    | none => rfl
    | some best =>
      obtain ⟨rule, leads, _⟩ := leading best chosen
      exact absurd leads.found (none rule leads.member)

end Programs

end Netloom.Dataplane
