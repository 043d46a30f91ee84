import Netloom.Dataplane.TcxLookup

/-!
# The TCX trie and the evaluator

For a program whose rules of a direction are about IPv4 prefixes and concrete
protocols, the trie and the evaluator take the same decision whenever the
evaluator selects an entry, provided that the projection merges only rules that
are alike and every rule it keeps is exactly keyed.
-/
namespace Netloom.Dataplane

open Netip (Addr Prefix prefixFrom)
open Model List Checked Policy

/-! ### Port blocks in both encodings -/

/-- The protocols a packet can be compared with. -/
def ConcreteProtocol (protocol : Protocol) : Prop :=
  protocol = .tcp ∨ protocol = .udp ∨ protocol = .sctp ∨ protocol = .icmp

instance (protocol : Protocol) : Decidable (ConcreteProtocol protocol) :=
  inferInstanceAs (Decidable (_ ∨ _ ∨ _ ∨ _))

/-- The port prefixes of the policy map are the blocks of the trie, with the bits of the
protocol counted in. -/
theorem l4PortPrefixes_eq_tcxBlocks {rule : Rule} {ports : List PortPrefix}
    (concrete : ConcreteProtocol rule.protocol)
    (returned : Policy.l4PortPrefixes rule = .ok ports) :
    ports = (tcxBlocks rule).map fun block =>
      { port := block.port, l4PrefixBits := 8 + block.prefixBits } := by
  have normalized : Policy.normalizedProtocol rule.protocol = rule.protocol := by
    rcases concrete with h | h | h | h <;> simp [h, Policy.normalizedProtocol]
  have notAny : rule.protocol ≠ .any := by
    rcases concrete with h | h | h | h <;> simp [h]
  simp only [Policy.l4PortPrefixes, normalized, notAny, if_false] at returned
  unfold tcxBlocks
  split at returned
  · next icmp =>
    cases returned
    simp only [icmp, if_true, map_cons, map_nil]
    cases type : rule.icmpType with
    | none => simp [Policy.icmpPrefixes, icmpTCXMatch, type]
    | some icmpType =>
      cases code : rule.icmpCode <;> simp [Policy.icmpPrefixes, icmpTCXMatch, type, code]
  next notIcmp =>
  rw [if_neg notIcmp]
  split at returned
  · next none =>
    cases returned
    rw [if_pos none]
    rfl
  · next some =>
    rw [if_neg some]
    simp only [bind_eq_ok, mapM_check, pure_eq_ok] at returned
    obtain ⟨blocks, ⟨_, rfl⟩, rfl⟩ := returned
    rw [map_flatMap, flatten_eq_flatMap, flatMap_map]
    rfl

theorem admitsPort_iff_agree {block : PortBlock} (short : block.prefixBits.toNat ≤ 16)
    (field : BitVec 16) :
    admitsPort { port := block.port, l4PrefixBits := 8 + block.prefixBits } field ↔
      Cidr.Agree block.prefixBits.toNat field block.port := by
  have shift : 24 - (8 + block.prefixBits.toNat) = 16 - block.prefixBits.toNat := by omega
  simp only [admitsPort, toNat_l4PrefixBits short, shift, Bool.or_eq_true, decide_eq_true_eq, beq_iff_eq,
    Cidr.shiftRight_eq_iff _ short, or_iff_right_iff_imp]
  intro none i below
  omega

/-! ### Rules and candidates -/

/-- The rules of a direction are about IPv4 prefixes, concrete protocols and no endpoints. -/
structure AddressRule (rule : Rule) : Prop where
  concrete : ConcreteProtocol rule.protocol
  cidr : rule.remoteCIDR.addr.is4 = true
  noEndpoint : rule.remoteEndpoint = ""

theorem AddressRule.plain {rule : Rule} (addressed : AddressRule rule) : Plain rule := by
  have has : Family.v4.has rule.remoteCIDR.addr := addressed.cidr
  obtain ⟨block, cidr⟩ := Family.exists_cidr has
  refine ⟨addressed.noEndpoint, .inl ?_, fun _ => ?_⟩
  · rw [cidr]
    rfl
  · rw [cidr]
    rfl

/-- What the trie sees of a packet of the evaluator. -/
def l4PacketOf (localIP peerIP : BitVec 32) (packet : Packet) : L4Packet .v4 where
  localIP
  protocol := packet.protocol
  peerIP
  field := l4Field packet

section Candidates

variable {program : Program} {rule : Rule} {localIP peerIP : BitVec 32} {packet : Packet}

/-- An address-based rule with a known action is projected. -/
theorem AddressRule.projectsTo (addressed : AddressRule rule)
    (known : (tcxAction rule.action).isSome) :
    ∃ number action, ∃ block : Cidr 32, protocolNumber rule.protocol = .ok number ∧
      rule.remoteCIDR = .v4 block ∧ ProjectsTo .v4 rule number action (.v4 block.masked) := by
  have has : Family.v4.has rule.remoteCIDR.addr := addressed.cidr
  obtain ⟨block, cidr⟩ := Family.exists_cidr has
  obtain ⟨action, acts⟩ := Option.isSome_iff_exists.mp known
  have source : familyPrefix .v4 rule.remoteCIDR = some (.v4 block.masked) := by
    rw [cidr]
    rfl
  rcases addressed.concrete with h | h | h | h
  · exact ⟨6, action, block, by rw [h]; rfl, cidr, ⟨by rw [h]; rfl, rfl, acts, source⟩⟩
  · exact ⟨17, action, block, by rw [h]; rfl, cidr, ⟨by rw [h]; rfl, rfl, acts, source⟩⟩
  · exact ⟨132, action, block, by rw [h]; rfl, cidr, ⟨by rw [h]; rfl, rfl, acts, source⟩⟩
  · exact ⟨1, action, block, by rw [h]; rfl, cidr, ⟨by rw [h]; rfl, rfl, acts, source⟩⟩

section

variable (endpointIP : program.endpointIP = .v4 localIP)

include endpointIP

theorem programCIDR_v4 :
    programCIDR .v4 program = .v4 ⟨localIP, 32, le_refl _⟩ := by
  rw [programCIDR, endpointIP]
  rfl

/-- What a candidate of the endpoint's program is about. -/
theorem admits_projectedRule (cidr : Cidr 32)
    (number : BitVec 8) (action : Int) {block : PortBlock} (short : block.prefixBits.toNat ≤ 16) :
    (projectedRule .v4 program rule (.v4 cidr.masked) number action block).Admits
        (l4PacketOf localIP peerIP packet) ↔
      number = packet.protocol ∧ cidr.contains peerIP ∧
        Cidr.Agree block.prefixBits.toNat (l4Field packet) block.port := by
  have port : Cidr.contains ⟨block.port, min block.prefixBits.toNat 16, Nat.min_le_right _ _⟩
      (l4Field packet) ↔ Cidr.Agree block.prefixBits.toNat (l4Field packet) block.port := by
    simp only [Cidr.contains_iff, Nat.min_eq_left short]
  rw [← port, ← Cidr.contains_masked]
  constructor
  · rintro ⟨_, protocol, peer, port⟩
    exact ⟨protocol, peer, port⟩
  · rintro ⟨protocol, peer, port⟩
    refine ⟨?_, protocol, peer, port⟩
    simp only [L4ACLRule.traffic, projectedRule, programCIDR_v4 endpointIP]
    exact Cidr.contains_addr _

/-- A rule of the program meets a packet of the endpoint exactly if one of its candidates
is about it. -/
theorem meets_iff_candidates (addressed : AddressRule rule) (supported : Supported .v4 rule)
    (known : (tcxAction rule.action).isSome) {ports : List PortPrefix}
    (portsOk : Policy.l4PortPrefixes rule = .ok ports) (remote : packet.remoteIP = .v4 peerIP)
    (direction : directionNumber rule.direction = .ok packet.direction) :
    Meets packet rule ↔
      ∃ x ∈ candidates .v4 program rule, x.Admits (l4PacketOf localIP peerIP packet) := by
  obtain ⟨number, action, cidr, numberOk, cidrIs, is⟩ := addressed.projectsTo known
  have short : ∀ block ∈ tcxBlocks rule, block.prefixBits.toNat ≤ 16 := by
    intro block member
    have inCandidates : projectedRule .v4 program rule (.v4 cidr.masked) number action block ∈
        candidates .v4 program rule := mem_candidates.mpr ⟨_, _, _, is, block, member, rfl⟩
    exact (wellFormed_of_mem_candidates supported inCandidates).bits
  simp only [Meets, direction, portsOk, true_and, Except.ok.injEq, exists_eq_left', numberOk,
    l4PortPrefixes_eq_tcxBlocks addressed.concrete portsOk, candidates_eq_map is, mem_map,
    exists_exists_and_eq_and, remote, cidrIs, Prefix.isValid, Prefix.contains, forall_const]
  constructor
  · rintro ⟨inside, block, member, none | ⟨same, admits⟩⟩
    · have bits := short block member
      have := congrArg BitVec.toNat none
      bv_omega
    · exact ⟨block, member, (admits_projectedRule endpointIP _ _ _ (short block member)).mpr
        ⟨same, inside, (admitsPort_iff_agree (short block member) _).mp admits⟩⟩
  · rintro ⟨block, member, about⟩
    obtain ⟨same, inside, agree⟩ := (admits_projectedRule endpointIP _ _ _ (short block member)).mp about
    exact ⟨inside, block, member,
      .inr ⟨same, (admitsPort_iff_agree (short block member) _).mpr agree⟩⟩

end

variable {family : Family}

private theorem bits_of_familyPrefix {cidr sourceCIDR : Prefix}
    (source : familyPrefix family cidr = some sourceCIDR) : sourceCIDR.bits = cidr.bits := by
  obtain ⟨_, _, rfl⟩ := familyPrefix_eq_some.mp source
  cases cidr <;> rfl

theorem precedence_of_mem_candidates {x : L4ACLRule} (member : x ∈ candidates family program rule) :
    x.precedence = Policy.precedence rule := by
  obtain ⟨_, _, _, _, _, _, rfl⟩ := mem_candidates.mp member
  rfl

theorem action_of_mem_candidates {x : L4ACLRule} (member : x ∈ candidates family program rule) :
    x.action = if Denies rule.action then tcxDrop else tcxPass := by
  obtain ⟨_, action, _, is, _, _, rfl⟩ := mem_candidates.mp member
  have acts := is.action
  show action = _
  cases h : rule.action <;> simp_all [tcxAction, Denies]

end Candidates

/-! ### Agreement -/

/-- The trie drops what the selected entry refuses and passes what it allows. -/
def TrieAgrees (host : Endian) (entries : List PolicyMapEntry) (aclMap : L4ACLMap .v4)
    (localIP : BitVec 32) (direction : Direction) : Prop :=
  ∀ packet peerIP best, directionNumber direction = .ok packet.direction →
    packet.remoteIP = .v4 peerIP →
    (packet.protocol = 6 ∨ packet.protocol = 17 ∨ packet.protocol = 132 ∨ packet.protocol = 1) →
    (evaluate host entries packet).matched = some best →
    lookupVerdict .v4 host aclMap (l4PacketOf localIP peerIP packet) =
      if entryVerdict best.value = .allow then tcxPass else tcxDrop

/-- Every port block of the rule is exactly keyed. -/
def RuleExactlyKeyed (host : Endian) (rule : Rule) : Prop :=
  ∀ block ∈ tcxBlocks rule, ExactlyKeyed .v4 host rule.remoteCIDR block.prefixBits

/-- The projection has merged only rules that are alike, and what it keeps is exactly keyed. -/
structure KeptExactly (host : Endian) (program : Program) (direction : Direction)
    (rules : List L4ACLRule) : Prop where
  alike : MergesAlike .v4 (programCandidates .v4 direction program)
  exact : ∀ x ∈ rules, ExactlyKeyed .v4 host x.sourceCIDR x.destPortPrefixBits

private theorem direction_injective {a b : Direction} {number : BitVec 8}
    (first : directionNumber a = .ok number) (second : directionNumber b = .ok number) : a = b := by
  have same := first.trans second.symm
  clear second
  cases a with
  | other text => simp [directionNumber] at first
  | ingress | egress =>
    cases b <;> simp [directionNumber, directionIngress, directionEgress] at same ⊢

/-- What a successful projection of an address-based program provides. -/
structure TcxProgram (host : Endian) (program : Program) (direction : Direction)
    (localIP : BitVec 32) (entries : List PolicyMapEntry) (rules : List L4ACLRule) : Prop where
  endpointIP : program.endpointIP = .v4 localIP
  entriesOf : Policy.EntriesOf program.rules program.mapEntries
  known : ∀ rule ∈ program.rules, (tcxAction rule.action).isSome = true
  addressed : ∀ rule ∈ program.rules, rule.direction = direction → AddressRule rule
  supported : ∀ rule ∈ program.rules, rule.direction = direction → Supported .v4 rule
  projected : (programCandidates .v4 direction program).foldlM (appendProjectedRule .v4) [] =
    .ok rules
  nonempty : rules ≠ []
  encoded : encodeProgram host program = .ok entries

section Agreement

variable {ctx : CompileContext} {clock : Time} {endpoint : Endpoint} {groups : SecurityGroups}
  {host : Endian} {program : Program} {direction : Direction} {localIP : BitVec 32}
  {entries : List PolicyMapEntry} {rules : List L4ACLRule}

theorem tcxProgram_of_compile
    (compiled : Policy.compileForEndpointWithContext endpoint groups ctx clock = .ok program)
    (endpointIP : program.endpointIP = .v4 localIP)
    (addressed : ∀ rule ∈ program.rules, rule.direction = direction → AddressRule rule)
    (projected : ipv4L4ACLRulesFromProgramForDirection program direction = .ok rules)
    (encoded : encodeProgram host program = .ok entries) :
    TcxProgram host program direction localIP entries rules := by
  obtain ⟨_, _, entriesOf, indexes, _, of⟩ :=
    compiledOf_compileForEndpointWithContext compiled
  simp only [ipv4L4ACLRulesFromProgramForDirection, l4ACLRulesFromProgramForDirection, bind_eq_ok,
    checkProjection_eq_ok, appendL4ACLRulesFromProgram_eq_ok] at projected
  obtain ⟨_, ⟨supported, projects⟩, rfl, enforcing⟩ := projected
  refine ⟨endpointIP, entriesOf, fun rule member => ?_, addressed, supported, projects, ?_, encoded⟩
  · rcases of.known_action rule member with h | h | h | h <;> rw [h] <;> rfl
  · rintro rfl
    cases enforcing

namespace TcxProgram

variable (is : TcxProgram host program direction localIP entries rules)
include is

theorem wellFormed_candidates : ∀ x ∈ programCandidates .v4 direction program, WellFormed .v4 x :=
  wellFormed_programCandidates is.supported

theorem aclMap_eq : newL4ACLMapFromRules .v4 host rules = .ok (trieOf .v4 host rules) :=
  newL4ACLMapFromRules_eq is.nonempty
    (forall_of_foldlM_append WellFormed.setLog is.wellFormed_candidates (by simp) is.projected)

section

variable {packet : Packet} (goes : directionNumber direction = .ok packet.direction)

include goes

theorem plainFor :
    PlainFor packet program.rules := fun rule member same =>
  (is.addressed rule member (direction_injective same goes)).plain

theorem meets_iff {peerIP : BitVec 32} {rule : Rule}
    (remote : packet.remoteIP = .v4 peerIP) (member : rule ∈ program.rules) :
    Meets packet rule ↔ rule.direction = direction ∧
      ∃ x ∈ candidates .v4 program rule, x.Admits (l4PacketOf localIP peerIP packet) := by
  obtain ⟨_, _, ports, portsOk, _⟩ := is.entriesOf.complete rule member
  constructor
  · intro meets
    have same := direction_injective meets.1 goes
    exact ⟨same, (meets_iff_candidates is.endpointIP (is.addressed rule member same)
      (is.supported rule member same) (is.known rule member) portsOk remote meets.1).mp meets⟩
  · rintro ⟨same, about⟩
    have ownGoes : directionNumber rule.direction = .ok packet.direction := same ▸ goes
    exact (meets_iff_candidates is.endpointIP (is.addressed rule member same)
      (is.supported rule member same) (is.known rule member) portsOk remote ownGoes).mpr about

/-- The selected entry of a packet belongs to a leading rule. -/
theorem selected {peerIP : BitVec 32}
    (remote : packet.remoteIP = .v4 peerIP) :
    (selectEntry host entries packet = none ↔ ∀ rule ∈ program.rules, ¬ Meets packet rule) ∧
    ∀ best, selectEntry host entries packet = some best → ∃ rule,
      Leads packet program.rules rule ∧ (entryVerdict best.value = .allow ↔ ¬ Denies rule.action) :=
  selectEntry_rule is.entriesOf is.encoded (is.plainFor goes) (by rw [remote]; rfl)

end

/-- Exactly keyed rules leave exactly keyed ones. -/
theorem keptExactly (keyed : ∀ rule ∈ program.rules, rule.direction = direction →
      RuleExactlyKeyed host rule) : KeptExactly host program direction rules := by
  have exact : ∀ x ∈ programCandidates .v4 direction program,
      ExactlyKeyed .v4 host x.sourceCIDR x.destPortPrefixBits := by
    intro x member
    obtain ⟨rule, inRules, same, inCandidates⟩ := mem_programCandidates.mp member
    obtain ⟨number, action, source, projects, block, inBlocks, rfl⟩ := mem_candidates.mp inCandidates
    have bits : source.bits = rule.remoteCIDR.bits := bits_of_familyPrefix projects.source
    exact (keyed rule inRules same block inBlocks).imp_right fun both => ⟨bits.trans both.1, both.2⟩
  exact ⟨mergesAlike_of_exact is.wellFormed_candidates exact,
    forall_of_foldlM_append (fun _ _ holds => holds) exact (by simp) is.projected⟩

/-- Exactly keyed rules are decided by the trie as by the evaluator. -/
theorem trieAgrees (kept : KeptExactly host program direction rules) :
    TrieAgrees host entries (trieOf .v4 host rules) localIP direction := by
  intro packet peerIP best goes remote _ matched
  obtain ⟨rule, leads, verdict⟩ := (is.selected goes remote).2 best (selectEntry_of_matched matched)
  obtain ⟨same, about, inAbout, admits⟩ := (is.meets_iff goes remote leads.member).mp leads.found
  have inAll : about ∈ programCandidates .v4 direction program :=
    mem_programCandidates.mpr ⟨rule, leads.member, same, inAbout⟩
  rcases lookupVerdict_projected is.wellFormed_candidates kept.alike kept.exact is.projected
      (l4PacketOf localIP peerIP packet) with ⟨_, none⟩ | ⟨s, inSeen, admitsS, greatest, looked⟩
  · exact absurd admits (none about inAll)
  obtain ⟨other, inRules, sameOther, inCandidates⟩ := mem_programCandidates.mp inSeen
  have meets := (is.meets_iff goes remote inRules).mpr ⟨sameOther, s, inCandidates, admitsS⟩
  -- Both rules lead, so they refuse together.
  have precedence := precedence_of_mem_candidates inCandidates
  have leadsOther : Leads packet program.rules other := by
    refine ⟨inRules, meets, fun third inThird meetsThird => ?_⟩
    obtain ⟨goesThird, y, inY, admitsY⟩ := (is.meets_iff goes remote inThird).mp meetsThird
    have le := greatest y (mem_programCandidates.mpr ⟨third, inThird, goesThird, inY⟩) admitsY
    rwa [precedence_of_mem_candidates inY, precedence] at le
  rw [looked, action_of_mem_candidates inCandidates]
  simp only [verdict, leads.denies_iff leadsOther]
  by_cases denies : Denies other.action <;> simp [denies]

end TcxProgram

end Agreement

end Netloom.Dataplane
