import Netloom.Dataplane.Encoding
import Netloom.Dataplane.Projection

/-!
# Keys of the TCX trie

A projected rule is put into the trie under the first bits of its key: local
address, protocol, padding, peer address, port. The number of these bits is the
sum of the significant bits of the parts, so the bits of the port follow those
of the peer directly. For a rule without port bits, or one whose peer is a
single address and whose port bits stand in network order in memory, this block
of keys holds exactly the packets the rule is about.
-/
namespace Netloom.Dataplane

open Netip (Addr Prefix prefixFrom)
open Model Cidr
open Policy (Rule Program PortBlock)

/-! ### Prefixes of a family -/

namespace Family

variable {family : Family}

/-- The prefix of the family with the given block. -/
def ofCidr : (family : Family) → Cidr family.width → Prefix
  | v4, block => .v4 block
  | v6, block => .v6 block

/-- The prefixes of a family are those with a block. -/
theorem exists_cidr {p : Prefix} (has : family.has p.addr) : ∃ block, p = family.ofCidr block := by
  cases family with
  | v4 => cases p with
    | v4 block => exact ⟨block, rfl⟩
    | invalid | v6 block => simp [Family.has, Prefix.addr, Addr.is4] at has
  | v6 => cases p with
    | v6 block => exact ⟨block, rfl⟩
    | invalid | v4 block => simp [Family.has, Prefix.addr, Addr.is6] at has

/-- The block of a prefix of the family. Prefixes of the other family have none. -/
def cidr : (family : Family) → Prefix → Cidr family.width
  | v4, .v4 block => block
  | v6, .v6 block => block
  | _, _ => ⟨0, 0, Nat.zero_le _⟩

theorem word_addr (p : Prefix) : family.word p.addr = (family.cidr p).addr := by
  cases family <;> cases p <;> rfl

variable (block other : Cidr family.width)

@[simp] theorem cidr_ofCidr : family.cidr (family.ofCidr block) = block := by
  cases family <;> rfl

@[simp] theorem has_ofCidr : family.has (family.ofCidr block).addr := by
  cases family <;> rfl

@[simp] theorem isValid_ofCidr : (family.ofCidr block).isValid := by
  cases family <;> rfl

@[simp] theorem word_ofCidr : family.word (family.ofCidr block).addr = block.addr := by
  cases family <;> rfl

@[simp] theorem bits_ofCidr : (family.ofCidr block).bits = block.bits := by
  cases family <;> rfl

@[simp] theorem masked_ofCidr : (family.ofCidr block).masked = family.ofCidr block.masked := by
  cases family <;> rfl

theorem bits_eq {p : Prefix} (has : family.has p.addr) : p.bits = (family.cidr p).bits := by
  obtain ⟨block, rfl⟩ := exists_cidr has
  rw [bits_ofCidr, cidr_ofCidr]

theorem eq_of_cidr {p q : Prefix} (has : family.has p.addr) (has' : family.has q.addr)
    (same : family.cidr p = family.cidr q) : p = q := by
  obtain ⟨block, rfl⟩ := exists_cidr has
  obtain ⟨other, rfl⟩ := exists_cidr has'
  rw [cidr_ofCidr, cidr_ofCidr] at same
  rw [same]

theorem prefixCovers_eq {p q : Prefix} (has : family.has p.addr)
    (has' : family.has q.addr) : prefixCovers p q = (family.cidr p).covers (family.cidr q) := by
  obtain ⟨block, rfl⟩ := exists_cidr has
  obtain ⟨other, rfl⟩ := exists_cidr has'
  rw [cidr_ofCidr, cidr_ofCidr, ← covers_masked]
  cases family <;>
    simp [prefixCovers, ofCidr, Prefix.masked, Prefix.isValid, Prefix.addr, Addr.is4, Prefix.bits,
      Prefix.contains, Cidr.covers] <;> rfl

end Family

/-! ### The bits of a key -/

section Words

variable {family : Family} {host : Endian}

theorem nativeBytes_injective {a b : BitVec 16} (same : nativeBytes host a = nativeBytes host b) :
    a = b := by
  cases host with
  | little => rw [← swapBytes_swapBytes a, ← swapBytes_swapBytes b]; exact congrArg swapBytes same
  | big => exact same

/-- Port bits compared in memory are the leading bits of the number if there are none,
if all are compared, or if the host stores the number in network order. -/
theorem agree_nativeBytes {k : Nat} (exact : k = 0 ∨ k = 16 ∨ host = .big) (a b : BitVec 16) :
    Cidr.Agree k (nativeBytes host a) (nativeBytes host b) ↔ Cidr.Agree k a b := by
  rcases exact with rfl | rfl | rfl
  · exact ⟨fun _ _ below => absurd below (Nat.not_lt_zero _),
      fun _ _ below => absurd below (Nat.not_lt_zero _)⟩
  · rw [agree_width, agree_width]
    exact ⟨nativeBytes_injective, congrArg _⟩
  · rfl

/-- The leading bits of two keys, for prefixes that end within the peer address or go
through all of it into the port. -/
theorem agree_l4Word {p k : Nat} (within : p ≤ family.width) (short : k ≤ 16)
    (aligned : k = 0 ∨ p = family.width) (localIP localIP' : BitVec family.width)
    (protocol protocol' : BitVec 8) (peerIP peerIP' : BitVec family.width)
    (port port' : BitVec 16) :
    Cidr.Agree (family.width + 32 + p + k) (l4Word family host localIP protocol peerIP port)
        (l4Word family host localIP' protocol' peerIP' port') ↔
      localIP = localIP' ∧ protocol = protocol' ∧ Cidr.Agree p peerIP peerIP' ∧
        Cidr.Agree k (nativeBytes host port) (nativeBytes host port') := by
  have stem : localIP ++ protocol ++ 0#24 = localIP' ++ protocol' ++ 0#24 ↔
      localIP = localIP' ∧ protocol = protocol' := by
    simp [append_eq_append_iff]
  unfold l4Word
  rcases aligned with rfl | rfl
  · have bits : family.width + 32 + p + 0 = family.width + 8 + 24 + p := by omega
    rw [bits, agree_append_left (by omega), agree_append_left (by omega),
      agree_append, stem, and_assoc]
    simp [Cidr.Agree]
  · have bits : family.width + 32 + family.width + k = family.width + 8 + 24 + family.width + k := by
      omega
    rw [bits, agree_append_left (by omega), agree_append, append_eq_append_iff, stem,
      agree_width, and_assoc, and_assoc]

end Words

/-! ### Rules and their blocks -/

/-- What a rule is about: local addresses, protocol, peer addresses and ports. -/
structure Traffic (family : Family) where
  own : Cidr family.width
  protocol : BitVec 8
  peer : Cidr family.width
  port : Cidr 16

@[mk_iff]
structure Traffic.Covers {family : Family} (a b : Traffic family) : Prop where
  own : a.own.covers b.own = true
  protocol : a.protocol = b.protocol
  peer : a.peer.covers b.peer = true
  port : a.port.covers b.port = true

@[mk_iff]
structure Traffic.Holds {family : Family} (packet : L4Packet family) (a : Traffic family) : Prop where
  own : a.own.contains packet.localIP = true
  protocol : a.protocol = packet.protocol
  peer : a.peer.contains packet.peerIP = true
  port : a.port.contains packet.field = true

theorem Traffic.covers_refl {family : Family} (a : Traffic family) : a.Covers a :=
  ⟨Cidr.covers_refl _, rfl, Cidr.covers_refl _, Cidr.covers_refl _⟩

theorem Traffic.Covers.trans {family : Family} {a b c : Traffic family} (first : a.Covers b)
    (second : b.Covers c) : a.Covers c where
  own := Cidr.covers_trans first.own second.own
  protocol := first.protocol.trans second.protocol
  peer := Cidr.covers_trans first.peer second.peer
  port := Cidr.covers_trans first.port second.port

theorem Traffic.Covers.holds {family : Family} {a b : Traffic family} {packet : L4Packet family}
    (covers : a.Covers b) (holds : b.Holds packet) : a.Holds packet where
  own := (Cidr.covers_iff _ _).mp covers.own _ holds.own
  protocol := covers.protocol.trans holds.protocol
  peer := (Cidr.covers_iff _ _).mp covers.peer _ holds.peer
  port := (Cidr.covers_iff _ _).mp covers.port _ holds.port

namespace L4ACLRule

def traffic (family : Family) (x : L4ACLRule) : Traffic family where
  own := family.cidr x.localCIDR
  protocol := x.protocol
  peer := family.cidr x.sourceCIDR
  port := ⟨x.destPort, min x.destPortPrefixBits.toNat 16, Nat.min_le_right _ _⟩

/-- The packets a rule is about. -/
abbrev Admits {family : Family} (x : L4ACLRule) (packet : L4Packet family) : Prop :=
  (x.traffic family).Holds packet

end L4ACLRule

open L4ACLRule

/-- The action is pass or drop, as the lowest bit of the precedence says. -/
structure Acts (x : L4ACLRule) : Prop where
  action : x.action = tcxPass ∨ x.action = tcxDrop
  drops : x.action = tcxDrop ↔ x.precedence.getLsbD 0 = true

/-- The prefixes are of the family, and a port has the bits that are compared. -/
structure OfFamily (family : Family) (x : L4ACLRule) : Prop where
  localCIDR : family.has x.localCIDR.addr = true
  sourceCIDR : family.has x.sourceCIDR.addr = true
  bits : x.destPortPrefixBits.toNat ≤ 16

/-- The local prefix is one address, and the peer prefix is written with its first address. -/
structure Placed (family : Family) (x : L4ACLRule) : Prop extends OfFamily family x where
  own : (family.cidr x.localCIDR).bits = family.width
  fixed : (family.cidr x.sourceCIDR).masked = family.cidr x.sourceCIDR

/-- What every projected rule of a family satisfies. -/
structure WellFormed (family : Family) (x : L4ACLRule) : Prop extends Acts x, Placed family x where
  unset : x.destPortPrefixBits = 0 → x.destPort = 0
  port : x.destPort = 0 → x.protocol = family.icmp ∨ x.destPortPrefixBits = 0
  protocol : x.protocol ≠ 0

/-- No port bits, or a single peer address and port bits in network order: then the key
compares exactly what the rule compares. -/
def ExactlyKeyed (family : Family) (host : Endian) (sourceCIDR : Prefix) (bits : BitVec 8) : Prop :=
  bits = 0 ∨ (sourceCIDR.bits = family.width ∧ (bits = 16 ∨ host = .big))

instance (family : Family) (host : Endian) (sourceCIDR : Prefix) (bits : BitVec 8) :
    Decidable (ExactlyKeyed family host sourceCIDR bits) :=
  inferInstanceAs (Decidable (_ ∨ (_ ∧ (_ ∨ _))))

/-- The block of keys a rule is put under. -/
def L4ACLRule.block (family : Family) (host : Endian) (x : L4ACLRule) : Cidr (keyWidth family) :=
  Cidr.masked ⟨(x.key family).word host, min (x.key family).prefixLen.toNat (keyWidth family),
    Nat.min_le_right _ _⟩

/-- The bits of the block of a well-formed rule. -/
def L4ACLRule.keyBits (family : Family) (x : L4ACLRule) : Nat :=
  family.width + 32 + (family.cidr x.sourceCIDR).bits + x.destPortPrefixBits.toNat

def L4Packet.word {family : Family} (host : Endian) (packet : L4Packet family) :
    BitVec (keyWidth family) :=
  l4Word family host packet.localIP packet.protocol packet.peerIP packet.field

/-- The packet that the key of a rule describes. -/
def L4ACLRule.ownPacket (family : Family) (x : L4ACLRule) : L4Packet family where
  localIP := (family.cidr x.localCIDR).addr
  protocol := x.protocol
  peerIP := (family.cidr x.sourceCIDR).addr
  field := x.destPort

section Blocks

variable {family : Family} {host : Endian} {x y : L4ACLRule}

theorem L4ACLRule.word_key (family : Family) (host : Endian) (x : L4ACLRule) :
    (x.key family).word host = (x.ownPacket family).word host := by
  simp only [L4Key.word, L4ACLRule.key, l4RuleKey, Family.word_addr]
  rfl

namespace OfFamily

theorem port_iff (is : OfFamily family x) (field : BitVec 16) :
    (x.traffic family).port.contains field ↔
      Cidr.Agree x.destPortPrefixBits.toNat field x.destPort := by
  rw [contains_iff]
  simp only [traffic, Nat.min_eq_left is.bits]

private theorem portPrefixCovers_iff {port port' : BitVec 16} {bits bits' : BitVec 8}
    (short : bits.toNat ≤ 16) :
    portPrefixCovers port bits port' bits' ↔
      bits.toNat ≤ bits'.toNat ∧ Cidr.Agree bits.toNat port' port := by
  unfold portPrefixCovers
  split
  · next longer =>
    have lt : bits'.toNat < bits.toNat := by simpa [BitVec.lt_def] using longer
    simp only [Bool.false_eq_true, false_iff, not_and]
    omega
  next fits =>
  have le : bits.toNat ≤ bits'.toNat := by simpa [BitVec.lt_def] using fits
  split
  · next none => simp [none, Cidr.Agree]
  · have shift : (16 - bits).toNat = 16 - bits.toNat := by bv_omega
    simp only [shift, beq_iff_eq, and_mask_eq_iff, shiftRight_eq_iff _ short, le, true_and]
    exact ⟨Cidr.Agree.symm, Cidr.Agree.symm⟩

/-- The source's comparison of rules is inclusion of what they are about. -/
theorem covers_iff (isX : OfFamily family x) (isY : OfFamily family y) :
    (x.traffic family).Covers (y.traffic family) ↔ ruleCovers x y := by
  have port : (x.traffic family).port.covers (y.traffic family).port ↔
      portPrefixCovers x.destPort x.destPortPrefixBits y.destPort y.destPortPrefixBits := by
    rw [portPrefixCovers_iff isX.bits, covers_iff_agree]
    simp only [traffic, Nat.min_eq_left isX.bits, Nat.min_eq_left isY.bits]
  simp only [ruleCovers, Family.prefixCovers_eq isX.localCIDR isY.localCIDR, Bool.and_eq_true,
    Family.prefixCovers_eq isX.sourceCIDR isY.sourceCIDR, decide_eq_true_eq, ← port, and_assoc]
  exact Traffic.covers_iff _ _

end OfFamily

/-- Port bits of an exactly keyed rule come after a whole peer address, in network order. -/
private theorem ExactlyKeyed.aligned (is : OfFamily family x)
    (exact : ExactlyKeyed family host x.sourceCIDR x.destPortPrefixBits) :
    (x.destPortPrefixBits.toNat = 0 ∨ (family.cidr x.sourceCIDR).bits = family.width) ∧
      (x.destPortPrefixBits.toNat = 0 ∨ x.destPortPrefixBits.toNat = 16 ∨ host = .big) := by
  rcases exact with none | ⟨whole, order⟩
  · simp [none]
  · rw [Family.bits_eq is.sourceCIDR] at whole
    refine ⟨.inr (by exact_mod_cast whole), .inr (order.imp_left fun all => ?_)⟩
    simp [all]

namespace Placed

variable (wf : Placed family x)
include wf

theorem prefixLen : (x.key family).prefixLen = x.keyBits family := by
  simp only [L4ACLRule.key, l4RuleKey, l4PrefixLen, Family.bits_eq wf.localCIDR,
    Family.bits_eq wf.sourceCIDR, wf.own, keyBits]
  push_cast
  rfl

theorem keyBits_le : x.keyBits family ≤ family.lookupPrefixLen := by
  have within := (family.cidr x.sourceCIDR).bits_le
  have short := wf.bits
  rw [keyBits]
  cases family <;> simp only [Family.width, Family.lookupPrefixLen] at within ⊢ <;> omega

theorem block_bits (host : Endian) : (x.block family host).bits = x.keyBits family := by
  have le := wf.keyBits_le
  have fits : family.lookupPrefixLen ≤ keyWidth family := by cases family <;> decide
  simp only [L4ACLRule.block, masked_bits, wf.prefixLen, Int.toNat_natCast]
  exact Nat.min_eq_left (le.trans fits)

theorem contains_iff (word : BitVec (keyWidth family)) : (x.block family host).contains word ↔
    Cidr.Agree (x.keyBits family) word ((x.ownPacket family).word host) := by
  rw [← wf.block_bits host, ← word_key, L4ACLRule.block, contains_masked, Cidr.contains_iff]
  rfl

/-- Every key in the block of a rule has its local address and protocol. -/
theorem stem_of_contains {packet : L4Packet family}
    (inside : (x.block family host).contains (packet.word host)) :
    packet.localIP = (family.cidr x.localCIDR).addr ∧ packet.protocol = x.protocol := by
  rw [wf.contains_iff] at inside
  have stem : family.width + 32 + 0 + 0 ≤ x.keyBits family := by
    rw [keyBits]
    omega
  obtain ⟨own, same, _⟩ :=
    (agree_l4Word (Nat.zero_le _) (Nat.zero_le _) (.inl rfl) ..).mp (inside.mono stem)
  exact ⟨own, same⟩

/-- The block of an exactly keyed rule holds the keys of the packets it is about. -/
theorem contains_block (exact : ExactlyKeyed family host x.sourceCIDR x.destPortPrefixBits)
    (packet : L4Packet family) :
    (x.block family host).contains (packet.word host) ↔ x.Admits packet := by
  obtain ⟨aligned, order⟩ := exact.aligned wf.toOfFamily
  have own : (family.cidr x.localCIDR).contains packet.localIP ↔
      packet.localIP = (family.cidr x.localCIDR).addr := by
    rw [Cidr.contains_iff, wf.own, agree_width]
  rw [wf.contains_iff, keyBits, L4Packet.word, L4Packet.word,
    agree_l4Word (Cidr.bits_le _) wf.bits aligned, agree_nativeBytes order]
  simp only [ownPacket, ← own, ← Cidr.contains_iff, ← wf.port_iff, @eq_comm _ packet.protocol]
  exact (Traffic.holds_iff packet (x.traffic family)).symm

/-- If port bits follow a shorter peer prefix, the keys of half of its addresses are
outside the block: the first port bit is compared with a bit of the address that the
key holds as zero. -/
theorem not_contains_half (room : (family.cidr x.sourceCIDR).bits < family.width)
    (some : 0 < x.destPortPrefixBits.toNat) {packet : L4Packet family}
    (upper : packet.peerIP = ((family.cidr x.sourceCIDR).half room true).addr) :
    (x.block family host).contains (packet.word host) = false := by
  apply Bool.eq_false_iff.mpr
  intro inside
  rw [wf.contains_iff] at inside
  -- Only the bits up to the first one after the peer prefix are needed.
  have first : family.width + 32 + ((family.cidr x.sourceCIDR).bits + 1) + 0 ≤ x.keyBits family := by
    rw [keyBits]
    omega
  have peers := ((agree_l4Word room (Nat.zero_le _) (.inl rfl) ..).mp (inside.mono first)).2.2.1
  have bit := peers _ (Nat.lt_succ_self _)
  have zero : (family.cidr x.sourceCIDR).addr.getMsbD (family.cidr x.sourceCIDR).bits = false := by
    rw [← wf.fixed, Cidr.masked, getMsbD_clearFrom _ (Cidr.bits_le _)]
    simp
  rw [upper, getMsbD_half] at bit
  simp [ownPacket, zero] at bit

/-- A port that differs in memory from the one of the rule is outside the block. -/
theorem not_contains_of_field (whole : (family.cidr x.sourceCIDR).bits = family.width)
    {packet : L4Packet family} (differs : ¬ Cidr.Agree x.destPortPrefixBits.toNat
      (nativeBytes host packet.field) (nativeBytes host x.destPort)) :
    (x.block family host).contains (packet.word host) = false := by
  apply Bool.eq_false_iff.mpr
  intro inside
  rw [wf.contains_iff] at inside
  apply differs
  exact ((agree_l4Word (Cidr.bits_le _) wf.bits (.inr whole) ..).mp inside).2.2.2

end Placed

/-- Of exactly keyed rules the key tells both prefixes. -/
theorem prefixes_of_key (wfX : Placed family x) (wfY : Placed family y)
    (exactX : ExactlyKeyed family host x.sourceCIDR x.destPortPrefixBits)
    (exactY : ExactlyKeyed family host y.sourceCIDR y.destPortPrefixBits)
    (key : x.key family = y.key family) :
    x.localCIDR = y.localCIDR ∧ x.sourceCIDR = y.sourceCIDR := by
  obtain ⟨alignedX, _⟩ := exactX.aligned wfX.toOfFamily
  obtain ⟨alignedY, _⟩ := exactY.aligned wfY.toOfFamily
  have length := congrArg L4Key.prefixLen key
  rw [wfX.prefixLen, wfY.prefixLen, Nat.cast_inj, keyBits, keyBits] at length
  have own := congrArg L4Key.localIP key
  have peer := congrArg L4Key.peerIP key
  simp only [L4ACLRule.key, l4RuleKey, Family.word_addr] at own peer
  constructor
  · exact Family.eq_of_cidr wfX.localCIDR wfY.localCIDR
      (Cidr.ext own (wfX.own.trans wfY.own.symm))
  · -- port bits leave no room for a shorter peer prefix
    refine Family.eq_of_cidr wfX.sourceCIDR wfY.sourceCIDR (Cidr.ext peer ?_)
    have withinX := (family.cidr x.sourceCIDR).bits_le
    have withinY := (family.cidr y.sourceCIDR).bits_le
    omega

/-- For exactly keyed rules inclusion of blocks is inclusion of what the rules are about. -/
theorem covers_block (wfX : WellFormed family x) (wfY : WellFormed family y)
    (exactX : ExactlyKeyed family host x.sourceCIDR x.destPortPrefixBits)
    (exactY : ExactlyKeyed family host y.sourceCIDR y.destPortPrefixBits) :
    (x.block family host).covers (y.block family host) ↔
      (x.traffic family).Covers (y.traffic family) := by
  obtain ⟨alignedX, _⟩ := exactX.aligned wfX.toOfFamily
  obtain ⟨alignedY, _⟩ := exactY.aligned wfY.toOfFamily
  have own : (x.block family host).covers (y.block family host) ↔
      x.keyBits family ≤ y.keyBits family ∧ x.Admits (y.ownPacket family) := by
    rw [← wfX.contains_block exactX, ← word_key, ← wfX.block_bits host, ← wfY.block_bits host,
      L4ACLRule.block, L4ACLRule.block, covers_masked, contains_masked, Cidr.covers, Bool.and_eq_true,
      decide_eq_true_eq]
    rfl
  have parts : ∀ {w : Nat} (a b : Cidr w), a.covers b ↔
      a.bits ≤ b.bits ∧ a.contains b.addr := by simp [Cidr.covers]
  have withinX := (family.cidr x.sourceCIDR).bits_le
  have withinY := (family.cidr y.sourceCIDR).bits_le
  have shortX := Nat.min_eq_left wfX.bits
  have shortY := Nat.min_eq_left wfY.bits
  rw [own, keyBits, keyBits]
  constructor
  · rintro ⟨le, own, protocol, peer, port⟩
    exact ⟨(parts ..).mpr ⟨(wfX.own.trans wfY.own.symm).le, own⟩, protocol,
      (parts ..).mpr ⟨by simp only [traffic]; omega, peer⟩,
      (parts ..).mpr ⟨by simp only [traffic]; omega, port⟩⟩
  · rintro ⟨own, protocol, peer, port⟩
    obtain ⟨peerLe, peer⟩ := (parts ..).mp peer
    obtain ⟨portLe, port⟩ := (parts ..).mp port
    simp only [traffic] at peerLe portLe
    exact ⟨by omega, ((parts ..).mp own).2, protocol, peer, port⟩

end Blocks

end Netloom.Dataplane
