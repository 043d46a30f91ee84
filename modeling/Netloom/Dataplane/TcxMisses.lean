import Netloom.Dataplane.TcxAgreement

/-!
# Packets the TCX trie misses

A rule with port bits and a remote prefix shorter than an address, or with a
partial port block on a little-endian host, is put under a block of keys that
leaves out keys of packets the rule is about. Such a packet is passed although
the evaluator refuses it.
-/
namespace Netloom.Dataplane

open Netip (Addr Prefix prefixFrom)
open Model List Checked Policy

/-! ### Fields outside a block in memory -/

private theorem getMsbD_swapBytes (value : BitVec 16) (j : Nat) (first : j < 8) :
    (swapBytes value).getMsbD j = value.getMsbD (j + 8) := by
  have inside : j < 16 := by omega
  have second : j + 8 < 16 := by omega
  have index : 8 + 8 - 1 - j - 8 = 16 - 1 - (j + 8) := by omega
  have high : ¬ 8 + 8 - 1 - j < 8 := by omega
  have low : 16 - 1 - (j + 8) < 8 := by omega
  rw [BitVec.getMsbD_eq_getLsbD, BitVec.getMsbD_eq_getLsbD, decide_eq_true inside,
    decide_eq_true second, Bool.true_and, Bool.true_and, swapBytes, BitVec.getLsbD_append, if_neg high,
    index, BitVec.getLsbD_extractLsb', decide_eq_true low, Bool.true_and, Nat.zero_add]

/-- On a little-endian host a partial block misses one of its ports. -/
private theorem exists_missed_field {port : BitVec 16} {k : Nat} (some : 0 < k) (short : k < 16)
    (aligned : ∀ i, i < 16 - k → port.getLsbD i = false) :
    ∃ field, Cidr.Agree k field port ∧
      ¬ Cidr.Agree k (nativeBytes .little field) (nativeBytes .little port) := by
  -- Setting a bit of the second byte keeps the port in the block, but changes what is
  -- compared first in memory.
  obtain ⟨j, byte, beyond, compared⟩ : ∃ j, j < 8 ∧ k ≤ j + 8 ∧ j < k := by
    by_cases low : k ≤ 8
    · exact ⟨0, by omega, by omega, some⟩
    · exact ⟨7, by omega, by omega, by omega⟩
  have inside : j + 8 < 16 := by omega
  refine ⟨Cidr.setBit port (j + 8), fun i below => ?_, fun agree => ?_⟩
  · have apart : ¬ i = j + 8 := by omega
    simp [Cidr.getMsbD_setBit _ _ _ inside, apart]
  · have bit := agree j compared
    simp only [nativeBytes, getMsbD_swapBytes _ _ byte, Cidr.getMsbD_setBit _ _ _ inside] at bit
    rw [BitVec.getMsbD_eq_getLsbD, aligned _ (by omega)] at bit
    simp at bit

/-! ### Keys outside a block -/

section Missed

variable {family : Family} {host : Endian}

/-- Some packet a rule is about that is not exactly keyed has its key outside the block. -/
theorem Placed.exists_missed {x : L4ACLRule} (wf : Placed family x)
    (aligned : ∀ i, i < 16 - x.destPortPrefixBits.toNat → x.destPort.getLsbD i = false)
    (inexact : ¬ ExactlyKeyed family host x.sourceCIDR x.destPortPrefixBits) :
    ∃ packet : L4Packet family, x.Admits packet ∧
      (x.block family host).contains (packet.word host) = false := by
  simp only [ExactlyKeyed, not_or, not_and] at inexact
  obtain ⟨set, partly⟩ := inexact
  have some : 0 < x.destPortPrefixBits.toNat := by bv_omega
  by_cases whole : (family.cidr x.sourceCIDR).bits = family.width
  · obtain ⟨notAll, notBig⟩ := partly (by rw [Family.bits_eq wf.sourceCIDR, whole])
    have little : host = .little := by
      cases host with
      | little => rfl
      | big => exact absurd rfl notBig
    have bits := wf.bits
    have short : x.destPortPrefixBits.toNat < 16 := by bv_omega
    obtain ⟨field, agree, differs⟩ := exists_missed_field some short aligned
    subst little
    exact ⟨{ x.ownPacket family with field }, ⟨Cidr.contains_addr _, rfl, Cidr.contains_addr _,
      (wf.port_iff field).mpr agree⟩, wf.not_contains_of_field whole differs⟩
  · have room := Nat.lt_of_le_of_ne (Cidr.bits_le _) whole
    have inside := ((family.cidr x.sourceCIDR).contains_half room true _).mp (Cidr.contains_addr _)
    exact ⟨{ x.ownPacket family with peerIP := _ }, ⟨Cidr.contains_addr _, rfl, inside.1,
      Cidr.contains_addr _⟩, wf.not_contains_half room some rfl⟩

end Missed

/-! ### Where trie and evaluator agree -/

/-- The projection of an address-based program fills a trie. Trie and evaluator agree if the
rules that are merged are alike and every rule that is kept is exactly keyed, so that it is put
under the keys of its packets. -/
theorem trieAgrees_exactlyKeyed {ctx : CompileContext} {clock : Time} {endpoint : Endpoint}
    {groups : SecurityGroups} {host : Endian} {program : Program} {direction : Direction}
    {localIP : BitVec 32} {entries : List PolicyMapEntry} {rules : List L4ACLRule}
    (compiled : Policy.compileForEndpointWithContext endpoint groups ctx clock = .ok program)
    (endpointIP : program.endpointIP = .v4 localIP)
    (addressed : ∀ rule ∈ program.rules, rule.direction = direction → AddressRule rule)
    (projected : ipv4L4ACLRulesFromProgramForDirection program direction = .ok rules)
    (encoded : encodeProgram host program = .ok entries) :
    ∃ aclMap, newL4ACLMapFromRules .v4 host rules = .ok aclMap ∧
      (KeptExactly host program direction rules →
        TrieAgrees host entries aclMap localIP direction) := by
  have is := tcxProgram_of_compile compiled endpointIP addressed projected encoded
  exact ⟨_, is.aclMap_eq, is.trieAgrees⟩

/-! ### A web server -/

/-- Drops https from a block of addresses. -/
def webRule (remoteCIDR : Prefix) : SecurityGroupRule where
  id := "no-https"
  priority := 100
  direction := .ingress
  protocol := .tcp
  remoteCIDR
  ports := [{ fromPort := 443, toPort := 443 }]
  action := .drop

def webGroups (remoteCIDR : Prefix) : SecurityGroups := AList.singleton "web" {
  name := "web", vpc := "prod", tier := 0, defaultDenyIngress := none, defaultDenyEgress := none
  rules := [webRule remoteCIDR] }

def webServer : Endpoint where
  id := "server"
  vpc := "prod"
  subnet := "net"
  ip := .v4 0x0a000102
  node := "node-1"
  securityGroups := ["web"]

def webPacket (peerIP : BitVec 32) : Packet where
  sourcePort := 40000
  remoteIP := .v4 peerIP
  direction := directionIngress
  protocol := 6
  destPort := 443
  bytes := 60

/-- What the projection reads of a rule. -/
structure RuleView where
  direction : Direction
  protocol : Protocol
  remoteCIDR : Prefix
  remoteEndpoint : String
  blocks : List PortBlock
  deriving DecidableEq

def ruleView (rule : Rule) : RuleView :=
  ⟨rule.direction, rule.protocol, rule.remoteCIDR, rule.remoteEndpoint, tcxBlocks rule⟩

/-- The rules of the compiled program, the verdict of the entry the evaluator selects and
that of the trie. -/
def webVerdicts (remoteCIDR : Prefix) (peerIP : BitVec 32) :
    Except String (List RuleView × Option Verdict × Int) := do
  let program ← Policy.compileForEndpointWithContext webServer (webGroups remoteCIDR) {} 0
  let entries ← encodeProgram .little program
  let rules ← ipv4L4ACLRulesFromProgramForDirection program .ingress
  let aclMap ← newL4ACLMapFromRules .v4 .little rules
  pure (program.rules.map ruleView,
    (evaluate .little entries (webPacket peerIP)).matched.map fun best => entryVerdict best.value,
    lookupVerdict .v4 .little aclMap (l4PacketOf 0x0a000102 peerIP (webPacket peerIP)))

/-- The rule drops https from 10.0.0.0/24. The evaluator selects its entry for a packet
from 10.0.0.65, the trie passes the packet. -/
theorem webVerdicts_block : webVerdicts (.v4 ⟨0x0a000000, 24, by decide⟩) 0x0a000041 =
    .ok ([⟨.ingress, .tcp, .v4 ⟨0x0a000000, 24, by decide⟩, "", [⟨443, 16⟩]⟩], some .drop, tcxPass) := by
  decide +kernel

private theorem webVerdicts_address : webVerdicts (.v4 ⟨0x0a000041, 32, by decide⟩) 0x0a000041 =
    .ok ([⟨.ingress, .tcp, .v4 ⟨0x0a000041, 32, by decide⟩, "", [⟨443, 16⟩]⟩], some .drop, tcxDrop) := by
  decide +kernel

/-- The rule on a single address is exactly keyed. -/
theorem keyed_web {program : Program} (compiled : Policy.compileForEndpointWithContext webServer
      (webGroups (.v4 ⟨0x0a000041, 32, by decide⟩)) {} 0 = .ok program) :
    ∀ rule ∈ program.rules, AddressRule rule ∧ RuleExactlyKeyed .little rule := by
  have runs := webVerdicts_address
  simp only [webVerdicts, bind_eq_ok, pure_eq_ok, Prod.mk.injEq] at runs
  obtain ⟨_, again, _, _, _, _, _, _, views, _⟩ := runs
  cases compiled.symm.trans again
  intro rule member
  have view := mem_map_of_mem (f := ruleView) member
  rw [views, mem_singleton, ruleView, RuleView.mk.injEq] at view
  obtain ⟨_, protocol, cidr, endpoint, blocks⟩ := view
  refine ⟨⟨.inl protocol, by rw [cidr]; rfl, endpoint⟩, fun block inBlocks => ?_⟩
  rw [blocks, mem_singleton] at inBlocks
  rw [inBlocks, cidr]
  decide

/-- For a single address trie and evaluator agree. -/
theorem trieAgrees_web : ∃ program entries rules aclMap,
    Policy.compileForEndpointWithContext webServer
      (webGroups (.v4 ⟨0x0a000041, 32, by decide⟩)) {} 0 = .ok program ∧
    encodeProgram .little program = .ok entries ∧
    ipv4L4ACLRulesFromProgramForDirection program .ingress = .ok rules ∧
    newL4ACLMapFromRules .v4 .little rules = .ok aclMap ∧
    TrieAgrees .little entries aclMap 0x0a000102 .ingress := by
  have runs := webVerdicts_address
  simp only [webVerdicts, bind_eq_ok] at runs
  obtain ⟨program, compiled, entries, encoded, rules, projected, _⟩ := runs
  have endpointIP := (compiledOf_compileForEndpointWithContext compiled).2.1
  have addressed : ∀ rule ∈ program.rules, rule.direction = .ingress → AddressRule rule :=
    fun rule member _ => (keyed_web compiled rule member).1
  obtain ⟨aclMap, filled, agrees⟩ :=
    trieAgrees_exactlyKeyed compiled endpointIP addressed projected encoded
  refine ⟨program, entries, rules, aclMap, compiled, encoded, projected, filled, agrees ?_⟩
  exact (tcxProgram_of_compile compiled endpointIP addressed projected encoded).keptExactly
    fun rule member _ => (keyed_web compiled rule member).2

/-! ### A rule alone in the trie

It is found by the keys in its block.
-/

open Cidr

section Single

variable {family : Family} {host : Endian}

/-- In a trie of one rule, a key is found if it is in the block of the rule. -/
theorem Placed.isSome_lookup {x : L4ACLRule} (placed : Placed family x) (packet : L4Packet family) :
    (Lpm.lookup (trieOf family host [x]) family.lookupPrefixLen (packet.word host)).isSome ↔
      (x.block family host).contains (packet.word host) := by
  rcases Lpm.lookup_fill_cases (L4ACLRule.block family host) L4ACLRule.value [x]
      family.lookupPrefixLen (packet.word host) with ⟨none, missed⟩ | ⟨y, inside, found, holds, _⟩
  · have outside := missed x (by simp) (placed.block_bits host ▸ placed.keyBits_le)
    simp [trieOf, none, outside]
  · obtain rfl := List.mem_singleton.mp inside
    simp [trieOf, found, holds]

/-- The packets of a rule for one local address, as far as their keys tell. -/
def HitExactly (host : Endian) (aclMap : L4ACLMap family) (rule : L4ACLRule)
    (localIP : BitVec family.width) (peer : Cidr family.width) : Prop :=
  ∀ packet : L4Packet family,
    (Lpm.lookup aclMap family.lookupPrefixLen (packet.word host)).isSome = true ↔
      packet.localIP = localIP ∧ packet.protocol = rule.protocol ∧
        peer.contains packet.peerIP = true ∧
        (normalizedDestPortPrefixBits rule ≠ 0 → packet.field = rule.destPort)

/-- A rule with no port or one exact port, stored alone, is hit by its packets and by no
others exactly if it has no port or its peer is a single address. -/
theorem singleRule_hit_iff {rule : L4ACLRule} {own peer : Cidr family.width}
    {aclMap : L4ACLMap family} (stored : putL4ACLRule family host ∅ rule = .ok aclMap)
    (localIs : ruleLocalCIDR family rule = .ok (family.ofCidr own)) (whole : own.bits = family.width)
    (sourceIs : rule.sourceCIDR = family.ofCidr peer)
    (port : normalizedDestPortPrefixBits rule = 0 ∨ normalizedDestPortPrefixBits rule = 16) :
    HitExactly host aclMap rule own.addr peer ↔
      normalizedDestPortPrefixBits rule = 0 ∨ peer.bits = family.width := by
  have source : ruleSourceCIDR family rule = .ok (family.ofCidr peer.masked) := by
    simp [ruleSourceCIDR, sourceIs, require]
  simp only [putL4ACLRule, localIs, source, bind_eq_ok, Except.ok.injEq, exists_eq_left'] at stored
  obtain ⟨_, _, _, _, _, _, put⟩ := stored
  -- The rule as it is read: the key is made of these prefixes and bits.
  let x := { rule with localCIDR := family.ofCidr own, sourceCIDR := family.ofCidr peer.masked,
                       destPortPrefixBits := normalizedDestPortPrefixBits rule }
  have placed : Placed family x := by
    refine ⟨⟨Family.has_ofCidr _, Family.has_ofCidr _, ?_⟩, by simpa [x] using whole, by simp [x]⟩
    rcases port with none | all
    · simp [x, none]
    · simp [x, all]
  obtain rfl : aclMap = trieOf family host [x] :=
    Except.ok.inj (put.symm.trans (placed.put ∅ rule.value))
  have admits : ∀ packet : L4Packet family, x.Admits packet ↔
      packet.localIP = own.addr ∧ packet.protocol = rule.protocol ∧
        peer.contains packet.peerIP = true ∧
        (normalizedDestPortPrefixBits rule ≠ 0 → packet.field = rule.destPort) := by
    intro packet
    have field : (normalizedDestPortPrefixBits rule ≠ 0 → packet.field = rule.destPort) ↔
        Cidr.Agree (normalizedDestPortPrefixBits rule).toNat packet.field rule.destPort := by
      rcases port with none | all
      · simp [none, Cidr.Agree]
      · simp [all, agree_width]
    have address : own.contains packet.localIP ↔ packet.localIP = own.addr := by
      rw [Cidr.contains_iff, whole, agree_width]
    rw [L4ACLRule.Admits, Traffic.holds_iff, placed.port_iff, field, ← address,
      ← contains_masked peer, @eq_comm _ packet.protocol]
    simp [x, L4ACLRule.traffic]
  have keyed : ExactlyKeyed family host x.sourceCIDR x.destPortPrefixBits ↔
      normalizedDestPortPrefixBits rule = 0 ∨ peer.bits = family.width := by
    rcases port with none | all
    · simp [ExactlyKeyed, x, none]
    · simp [ExactlyKeyed, x, all]
  rw [← keyed]
  constructor
  · intro exact
    by_contra inexact
    have some := mt (fun none => keyed.mpr (.inl none)) inexact
    obtain ⟨packet, about, outside⟩ := placed.exists_missed (by simp [x, port.resolve_left some]) inexact
    have hit := (exact packet).mpr ((admits packet).mp about)
    rw [placed.isSome_lookup, outside] at hit
    cases hit
  · intro keyed packet
    rw [placed.isSome_lookup, placed.contains_block keyed, admits]

end Single

/-- Refuses https from a peer prefix. -/
def httpsRule (peer : Cidr 32) : L4ACLRule where
  localAddr := .v4 0x0a000102
  localCIDR := .invalid
  source := .zero
  sourceCIDR := .v4 peer
  protocol := 6
  destPort := 443
  destPortPrefixBits := 0
  action := tcxDrop
  precedence := 1
  ruleCookie := 7
  log := false
  reject := false

/-- The addresses that start with those of 10.0.0.65. -/
def around (bits : Nat) (le : bits ≤ 32) : Cidr 32 := ⟨0x0a000041, bits, le⟩

theorem singleRule_hit_https : ∃ aclMap : L4ACLMap .v4,
    putL4ACLRule .v4 .little ∅ (httpsRule (around 32 (by decide))) = .ok aclMap ∧
    HitExactly .little aclMap (httpsRule (around 32 (by decide))) 0x0a000102 (around 32 (by decide)) :=
  ⟨_, rfl, (@singleRule_hit_iff .v4 .little _ ⟨0x0a000102, 32, by decide⟩ _ _ rfl rfl rfl rfl
    (.inr rfl)).mpr (.inr rfl)⟩

/-- With a shorter prefix the port is compared with bits of the peer's address. -/
theorem singleRule_misses_block : ∃ aclMap,
    putL4ACLRule .v4 .little ∅ (httpsRule (around 24 (by decide))) = .ok aclMap ∧
    (around 24 (by decide)).contains 0x0a000041 = true ∧
    Lpm.lookup aclMap 112 (l4Word .v4 .little 0x0a000102 6 0x0a000041 443) = none :=
  ⟨_, rfl, by decide, by decide +kernel⟩

end Netloom.Dataplane
