import Netloom.Lib.BestMatch
import Netloom.Dataplane.PolicyMap

/-!
# The userspace evaluator

A packet is decided by the best of the matching entries. A few ICMP messages
are allowed before any entry is looked at, and a packet no entry matches is
dropped.
-/
namespace Netloom.Dataplane

open Netip (Addr Prefix)

structure Packet where
  sourcePort : BitVec 16 := 0
  remoteIdentity : BitVec 32 := 0
  remoteIP : Addr
  direction : BitVec 8
  protocol : BitVec 8
  destPort : BitVec 16 := 0
  icmpType : BitVec 8 := 0
  icmpCode : BitVec 8 := 0
  bytes : BitVec 32 := 0
  deriving DecidableEq, Repr

inductive Verdict where
  | allow
  | drop
  | reject
  deriving DecidableEq, Repr

structure Decision where
  verdict : Verdict
  matched : Option PolicyMapEntry := none
  conntrack : Bool := false
  established : Bool := false
  deriving DecidableEq, Repr

def isIPv4FragmentationNeeded (packet : Packet) : Bool :=
  packet.protocol = 1 && packet.icmpType = 3 && packet.icmpCode = 4

def isIPv6PacketTooBig (packet : Packet) : Bool := packet.protocol = 58 && packet.icmpType = 2

def isIPv6NeighborDiscovery (packet : Packet) : Bool :=
  packet.protocol = 58 && packet.icmpCode = 0 && 133 ≤ packet.icmpType && packet.icmpType ≤ 136

def remoteCIDRMatches (cidr : Prefix) (remoteIP : Addr) : Bool :=
  cidr.isValid && remoteIP.isValid && cidr.contains remoteIP

/-- The two port fields agree under a mask of `bits` leading ones. -/
def portFieldMatches (stored seen : BitVec 16) (bits : BitVec 8) : Bool :=
  let mask := BitVec.allOnes 16 <<< (16 - bits).toNat
  stored &&& mask == seen &&& mask

variable (host : Endian) (packet : Packet)

/-- The ICMP type and code as a port field; the code counts beyond eight bits. -/
def icmpField (bits : BitVec 8) : BitVec 16 :=
  let value := packet.icmpType.setWidth 16 <<< 8
  if bits > 8 then value ||| packet.icmpCode.setWidth 16 else value

/-- The protocol and port test of `matches`. -/
def l4Matches (key : PolicyKey) (packet : Packet) : Bool :=
  let l4PrefixLen := (key.prefixLen - staticPrefixBits).setWidth 8
  if l4PrefixLen = 0 then true
  else if key.protocol ≠ packet.protocol then false
  else if l4PrefixLen ≤ 8 then true
  else if packet.protocol = 1 || packet.protocol = 58 then
    let icmpPrefixLen := l4PrefixLen - 8
    portFieldMatches (networkToHost16 host key.destPortBE) (icmpField packet icmpPrefixLen)
      icmpPrefixLen
  else portFieldMatches (networkToHost16 host key.destPortBE) packet.destPort (l4PrefixLen - 8)

/-- The function `matches` of the source. -/
def entryMatches (entry : PolicyMapEntry) (packet : Packet) : Bool :=
  let key := entry.key
  if key.direction ≠ packet.direction then false
  else if entry.remoteCIDR.isValid && !remoteCIDRMatches entry.remoteCIDR packet.remoteIP then false
  else if key.remoteIdentity ≠ 0 && key.remoteIdentity ≠ packet.remoteIdentity &&
      (entry.value.requireIdentity ≠ 0 || !entry.remoteCIDR.isValid) then false
  else l4Matches host key packet

def remoteCIDRBits (cidr : Prefix) : Int := if !cidr.isValid then -1 else cidr.bits

/-- Whether the packet carries the identity the entry is keyed by. -/
def exactIdentity (entry : PolicyMapEntry) (packet : Packet) : Bool :=
  entry.key.remoteIdentity ≠ 0 && entry.key.remoteIdentity = packet.remoteIdentity

def betterMatch (candidate selected : PolicyMapEntry) (packet : Packet) : Bool :=
  if candidate.value.precedence ≠ selected.value.precedence then
    candidate.value.precedence > selected.value.precedence
  else if candidate.value.l4PrefixLen ≠ selected.value.l4PrefixLen then
    candidate.value.l4PrefixLen > selected.value.l4PrefixLen
  else if policyActionPrecedence candidate.value ≠ policyActionPrecedence selected.value then
    policyActionPrecedence candidate.value > policyActionPrecedence selected.value
  else if exactIdentity candidate packet ≠ exactIdentity selected packet then
    exactIdentity candidate packet
  else remoteCIDRBits candidate.remoteCIDR > remoteCIDRBits selected.remoteCIDR

/-- The selection loop of `evaluate`. -/
def selectEntry (entries : List PolicyMapEntry) (packet : Packet) : Option PolicyMapEntry :=
  BestMatch.select (fun entry => entryMatches host entry packet)
    (fun candidate selected => betterMatch candidate selected packet) entries

/-- The ICMP messages `evaluate` allows without looking at the entries. -/
def alwaysAllowed : Bool :=
  isIPv4FragmentationNeeded packet || isIPv6PacketTooBig packet || isIPv6NeighborDiscovery packet

def entryVerdict (value : PolicyEntry) : Verdict :=
  if value.reject ≠ 0 then .reject else if value.deny ≠ 0 then .drop else .allow

def evaluate (entries : List PolicyMapEntry) (packet : Packet) : Decision :=
  if alwaysAllowed packet then { verdict := .allow }
  else match selectEntry host entries packet with
    | none => { verdict := .drop }
    | some selected => { verdict := entryVerdict selected.value, matched := some selected }

/-! ### The order of matching entries -/

/-- The comparison of `betterMatch` as one number: precedence, significant bits,
action, exact identity and prefix length, most significant first. -/
def matchRank (entry : PolicyMapEntry) : Nat :=
  (((entry.value.precedence.toNat * 256 + entry.value.l4PrefixLen.toNat) * 3 +
      policyActionPrecedence entry.value) * 2 + (exactIdentity entry packet).toNat) * 130 +
    (remoteCIDRBits entry.remoteCIDR + 1).toNat

theorem remoteCIDRBits_bounds (cidr : Prefix) :
    -1 ≤ remoteCIDRBits cidr ∧ remoteCIDRBits cidr ≤ 128 := by
  cases cidr with
  | invalid => simp [remoteCIDRBits, Prefix.isValid]
  | v4 block | v6 block =>
    have := block.bits_le
    simp only [remoteCIDRBits, Prefix.isValid, Prefix.bits, Bool.not_true, Bool.false_eq_true,
      if_false]
    omega

theorem betterMatch_iff (candidate selected : PolicyMapEntry) :
    betterMatch candidate selected packet ↔
      matchRank packet selected < matchRank packet candidate := by
  have actionC := policyActionPrecedence_lt candidate.value
  have actionS := policyActionPrecedence_lt selected.value
  have bitsC := remoteCIDRBits_bounds candidate.remoteCIDR
  have bitsS := remoteCIDRBits_bounds selected.remoteCIDR
  have l4C := candidate.value.l4PrefixLen.isLt
  have l4S := selected.value.l4PrefixLen.isLt
  simp only [betterMatch, matchRank, gt_iff_lt, ne_eq, ← BitVec.toNat_inj, BitVec.lt_def]
  -- The first field that differs decides, and its weight exceeds the fields after it.
  cases exactIdentity candidate packet <;> cases exactIdentity selected packet <;>
    simp only [reduceCtorEq, not_true, not_false_eq_true, if_true, if_false, Bool.toNat_true,
      Bool.toNat_false] <;>
    split_ifs with precedence bits action <;> simp only [decide_eq_true_eq, true_iff, false_iff] <;>
      omega

/-- The entry `evaluate` selects is a matching one of greatest rank. -/
theorem selectEntry_spec (entries : List PolicyMapEntry) (packet : Packet) :
    (selectEntry host entries packet = none →
      ∀ entry ∈ entries, entryMatches host entry packet = false) ∧
    ∀ best, selectEntry host entries packet = some best →
      BestMatch.IsBest (fun entry => entryMatches host entry packet) (matchRank packet) entries best :=
  BestMatch.select_spec _ _ (matchRank packet) (fun a b => betterMatch_iff packet a b) entries

theorem selectEntry_of_matched {host : Endian} {entries : List PolicyMapEntry} {packet : Packet}
    {entry : PolicyMapEntry} (matched : (evaluate host entries packet).matched = some entry) :
    selectEntry host entries packet = some entry := by
  unfold evaluate at matched
  split at matched
  · cases matched
  · split at matched
    · cases matched
    · next selected found => rw [found]; exact matched

/-! ### Canonical lists -/

section Canonical

variable {host packet} {a b : PolicyMapEntry}

/-- What the packet adds to the order of the entries counts least. -/
theorem entryRank_le_of_matchRank_le (le : matchRank packet a ≤ matchRank packet b) :
    entryRank a ≤ entryRank b := by
  have bits := remoteCIDRBits_bounds b.remoteCIDR
  have exact := (exactIdentity b packet).toNat_lt
  simp only [matchRank] at le
  simp only [entryRank]
  omega

theorem entryMatches_congr (key : a.key = b.key) (cidr : a.remoteCIDR = b.remoteCIDR)
    (identity : a.value.requireIdentity = b.value.requireIdentity) (packet : Packet) :
    entryMatches host a packet = entryMatches host b packet := by
  unfold entryMatches
  rw [key, cidr, identity]

theorem entryVerdict_eq_of_entryRank_eq (same : entryRank a = entryRank b) :
    entryVerdict a.value = entryVerdict b.value := by
  have verdict (value : PolicyEntry) : entryVerdict value =
      [.allow, .drop, .reject].getD (policyActionPrecedence value) .allow := by
    unfold entryVerdict policyActionPrecedence
    split
    · rfl
    · split <;> rfl
  have actionA := policyActionPrecedence_lt a.value
  have actionB := policyActionPrecedence_lt b.value
  have action : policyActionPrecedence a.value = policyActionPrecedence b.value := by
    simp only [entryRank] at same
    omega
  rw [verdict, verdict, action]

/-- Canonicalization keeps the verdict on every packet, and the order of the entries it is
given does not matter for it. -/
theorem canonical_keeps_verdicts {entries permuted out : List PolicyMapEntry} (host : Endian)
    (returned : canonicalPolicyMapEntries entries = .ok out)
    (alike : ∀ a ∈ entries, ∀ b ∈ entries, a.key = b.key →
      a.remoteCIDR = b.remoteCIDR ∧ a.value.requireIdentity = b.value.requireIdentity)
    (perm : permuted.Perm entries) (packet : Packet) :
    (evaluate host permuted packet).verdict = (evaluate host out packet).verdict := by
  obtain ⟨_, sound, complete⟩ := canonicalPolicyMapEntries_spec returned
  have kept : ∀ a ∈ permuted, entryMatches host a packet →
      ∃ b ∈ out, entryMatches host b packet ∧ entryRank a ≤ entryRank b := by
    intro a inside applies
    have given := perm.mem_iff.mp inside
    obtain ⟨b, inOut, key, _, rank⟩ := complete a given
    obtain ⟨cidr, identity⟩ := alike b (sound b inOut) a given key
    exact ⟨b, inOut, (entryMatches_congr key cidr identity packet).trans applies, rank⟩
  unfold evaluate selectEntry
  split
  · rfl
  · rcases BestMatch.select_agree _ _ (matchRank packet) (betterMatch_iff packet) entryRank
        (fun _ _ => entryRank_le_of_matchRank_le) kept
        (fun b inOut applies => ⟨b, perm.mem_iff.mpr (sound b inOut), applies, Nat.le_refl _⟩) with
      ⟨missed, missed'⟩ | ⟨a, b, found, found', same⟩
    · rw [missed, missed']
    · rw [found, found']
      exact entryVerdict_eq_of_entryRank_eq same

/-- An entry for TCP traffic from anywhere. -/
private def tcpEntry (precedence : BitVec 32) (deny : BitVec 8) : PolicyMapEntry :=
  { key := { prefixLen := 48, direction := directionIngress, protocol := 6 }
    value := { deny, l4PrefixLen := 8, precedence } }

theorem canonical_keeps_verdicts_tcp :
    (evaluate .little [tcpEntry 7 1, tcpEntry 5 0]
        { remoteIP := .v4 0, direction := directionIngress, protocol := 6 }).verdict =
      (evaluate .little [tcpEntry 7 1]
        { remoteIP := .v4 0, direction := directionIngress, protocol := 6 }).verdict :=
  canonical_keeps_verdicts .little
    (show canonicalPolicyMapEntries [tcpEntry 5 0, tcpEntry 7 1] = .ok [tcpEntry 7 1] from rfl)
    (by decide) (.swap ..) _

end Canonical

/-! ### When a packet is allowed -/

/-- What two entries of different actions are compared by: the precedence and then the
significant bits. -/
def entryPriority (value : PolicyEntry) : Nat :=
  value.precedence.toNat * 256 + value.l4PrefixLen.toNat

theorem entryVerdict_eq_allow_iff (value : PolicyEntry) :
    entryVerdict value = .allow ↔ policyActionPrecedence value = 0 := by
  unfold entryVerdict policyActionPrecedence
  split
  · simp
  · split <;> simp

/-- Between a blocking and an allowing entry the priority decides, and the blocking one
wins a tie. -/
theorem matchRank_blocking_cases {blocking allowing : PolicyMapEntry}
    (blocks : entryVerdict blocking.value ≠ .allow) (allows : entryVerdict allowing.value = .allow) :
    (entryPriority blocking.value < entryPriority allowing.value ∧
      matchRank packet blocking < matchRank packet allowing) ∨
    (entryPriority allowing.value ≤ entryPriority blocking.value ∧
      matchRank packet allowing < matchRank packet blocking) := by
  have action := policyActionPrecedence_lt blocking.value
  have bitsB := remoteCIDRBits_bounds blocking.remoteCIDR
  have bitsA := remoteCIDRBits_bounds allowing.remoteCIDR
  have exactB := (exactIdentity blocking packet).toNat_lt
  have exactA := (exactIdentity allowing packet).toNat_lt
  rw [ne_eq, entryVerdict_eq_allow_iff] at blocks
  rw [entryVerdict_eq_allow_iff] at allows
  simp only [matchRank, entryPriority, allows]
  omega

/-- Which packets are allowed, without the order of the entries: some matching entry
allows and has a greater priority than every matching entry that blocks. -/
theorem evaluate_allow_iff (entries : List PolicyMapEntry) (packet : Packet) :
    (evaluate host entries packet).verdict = .allow ↔
      alwaysAllowed packet ∨ ∃ entry ∈ entries, entryMatches host entry packet ∧
        entryVerdict entry.value = .allow ∧
        ∀ other ∈ entries, entryMatches host other packet →
          entryVerdict other.value ≠ .allow →
          entryPriority other.value < entryPriority entry.value := by
  obtain ⟨missing, found⟩ := selectEntry_spec host entries packet
  unfold evaluate
  cases always : alwaysAllowed packet with
  | true => simp
  | false =>
    simp only [Bool.false_eq_true, if_false, false_or]
    cases selected : selectEntry host entries packet with
    | none =>
      grind
    | some best =>
      obtain ⟨inside, applies, top⟩ := found best selected
      constructor
      · intro allows
        refine ⟨best, inside, applies, allows, fun other inside' applies' blocks => ?_⟩
        have below := top other inside' applies'
        have cases := matchRank_blocking_cases packet blocks allows
        omega
      · rintro ⟨entry, inside', applies', allows, above⟩
        by_contra blocks
        have lower := above best inside applies blocks
        have below := top entry inside' applies'
        have cases := matchRank_blocking_cases packet blocks allows
        omega

/-- More entries that allow and fewer that block take no packet away, in whatever order the
entries are listed and however often. -/
theorem evaluate_mono {entries entries' : List PolicyMapEntry} (packet : Packet)
    (allows : ∀ entry ∈ entries, entryVerdict entry.value = .allow → entry ∈ entries')
    (blocks : ∀ entry ∈ entries', entryVerdict entry.value ≠ .allow → entry ∈ entries)
    (allowed : (evaluate host entries packet).verdict = .allow) :
    (evaluate host entries' packet).verdict = .allow := by
  rw [evaluate_allow_iff] at allowed ⊢
  rcases allowed with always | ⟨entry, member, applies, allowing, above⟩
  · exact .inl always
  · refine .inr ⟨entry, allows entry member allowing, applies, allowing, ?_⟩
    exact fun other member' applies' blocking =>
      above other (blocks other member' blocking) applies' blocking

theorem evaluate_mono_tcp : (evaluate .little [tcpEntry 5 0, tcpEntry 7 0]
    { remoteIP := .v4 0, direction := directionIngress, protocol := 6 }).verdict = .allow :=
  evaluate_mono .little _ (by decide) (by decide)
    (show (evaluate .little [tcpEntry 7 0, tcpEntry 5 1] _).verdict = .allow by decide)

end Netloom.Dataplane
