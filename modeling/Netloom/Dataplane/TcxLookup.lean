import Netloom.Dataplane.TcxKeys

/-!
# Looking up a packet in a projected trie

If the rules that are merged are alike, the projected list is pruned: it decides
every packet as the candidates do. If the rules that are kept are also exactly
keyed, longest prefix match finds an entry of greatest precedence among them.
-/
namespace Netloom.Dataplane

open Netip (Addr Prefix prefixFrom)
open Model List Checked Policy

/-! ### Candidates are well formed -/

private theorem wellFormed_block {rule : Rule} {block : PortBlock}
    (ports : if rule.protocol = .icmp then rule.ports = []
      else ∀ port ∈ rule.ports, port.validate = .ok ())
    (member : block ∈ tcxBlocks rule) :
    block.prefixBits.toNat ≤ 16 ∧ (block.prefixBits = 0 → block.port = 0) ∧
      (block.port = 0 → rule.protocol = .icmp ∨ block.prefixBits = 0) := by
  unfold tcxBlocks at member
  split at member
  · next icmp =>
    obtain rfl := mem_singleton.mp member
    unfold icmpTCXMatch
    split
    · simp
    · cases rule.icmpCode <;> simp [icmp]
  next notIcmp =>
  rw [if_neg notIcmp] at ports
  split at member
  · obtain rfl := mem_singleton.mp member
    simp
  · obtain ⟨port, inPorts, inBlocks⟩ := mem_flatMap.mp member
    obtain ⟨bits, start, divides, inside⟩ := bounds_splitPortRange inBlocks
    have valid := ports port inPorts
    simp only [PortRange.validate, bind_eq_ok, require_eq_ok, Bool.and_eq_true,
      decide_eq_true_eq] at valid
    obtain ⟨_, ⟨nonzero, _⟩, _⟩ := valid
    have positive : 0 < port.fromPort.toNat := by
      have := BitVec.toNat_ne.mp nonzero
      simp at this
      omega
    have notZero : block.port ≠ 0 := by
      intro zero
      simp [zero] at start
      omega
    refine ⟨bits, fun none => ?_, fun zero => absurd zero notZero⟩
    -- A block without significant bits holds port zero, which no range does.
    have size : 2 ^ (16 - block.prefixBits.toNat) = 65536 := by simp [none]
    have last := port.toPort.isLt
    omega

theorem programCIDR_eq (family : Family) (program : Program) :
    family.has (programCIDR family program).addr ∧
      (family.cidr (programCIDR family program)).bits = family.width ∧
      (family.cidr (programCIDR family program)).addr = family.word
        (if family.has program.endpointIP then program.endpointIP else family.unspecified) := by
  have whole : ∀ ip : Addr, family.has ip →
      family.has (prefixFrom ip family.width).addr ∧
      (family.cidr (prefixFrom ip family.width)).bits = family.width ∧
        (family.cidr (prefixFrom ip family.width)).addr = family.word ip := by
    intro ip has
    cases family with
    | v4 => cases ip with
      | v4 word => exact ⟨rfl, rfl, rfl⟩
      | zero | v6 word zone => simp [Family.has, Addr.is4] at has
    | v6 => cases ip with
      | v6 word zone => exact ⟨rfl, rfl, rfl⟩
      | zero | v4 word => simp [Family.has, Addr.is6] at has
  unfold programCIDR
  split
  · next has => exact whole _ has
  · exact whole _ (by cases family <;> rfl)

variable {family : Family}

private theorem familyPrefix_eq {cidr sourceCIDR : Prefix}
    (source : familyPrefix family cidr = some sourceCIDR) :
    ∃ block : Cidr family.width, cidr = family.ofCidr block ∧
      sourceCIDR = family.ofCidr block.masked := by
  obtain ⟨_, has, rfl⟩ := familyPrefix_eq_some.mp source
  obtain ⟨block, rfl⟩ := Family.exists_cidr has
  exact ⟨block, rfl, Family.masked_ofCidr block⟩

private theorem tcxAction_drop {action : Action} {number : Int}
    (acts : tcxAction action = some number) :
    (number = tcxPass ∨ number = tcxDrop) ∧ (number = tcxDrop ↔ Denies action) := by
  cases action <;> simp_all [tcxAction, Denies, tcxPass, tcxDrop] <;> omega

theorem acts_of_rule {x : L4ACLRule} {rule : Rule} (acts : tcxAction rule.action = some x.action)
    (precedence : x.precedence = tcxRulePrecedence rule) : Acts x := by
  obtain ⟨known, drops⟩ := tcxAction_drop acts
  refine ⟨known, drops.trans ?_⟩
  rw [precedence]
  exact (precedence_lowest rule).symm

/-- Equal precedence means the same action. -/
theorem Acts.action_eq {x s : L4ACLRule} (actsX : Acts x) (actsS : Acts s)
    (precedence : s.precedence = x.precedence) : x.action = s.action := by
  have drops : x.action = tcxDrop ↔ s.action = tcxDrop := by
    rw [actsX.drops, actsS.drops, precedence]
  rcases actsX.action with passX | dropX
  · rcases actsS.action with passS | dropS
    · rw [passX, passS]
    · rw [drops.mpr dropS, dropS]
  · rw [dropX, drops.mp dropX]

theorem wellFormed_of_mem_candidates {program : Program} {rule : Rule}
    {x : L4ACLRule} (supported : Supported family rule)
    (member : x ∈ candidates family program rule) : WellFormed family x := by
  obtain ⟨protocol, action, sourceCIDR, is, block, inBlocks, rfl⟩ := mem_candidates.mp member
  obtain ⟨bits, unset, port⟩ := wellFormed_block (supported.ports _ _ _ is) inBlocks
  obtain ⟨localCIDR, whole, _⟩ := programCIDR_eq family program
  obtain ⟨source, _, rfl⟩ := familyPrefix_eq is.source
  refine ⟨acts_of_rule is.action rfl, ⟨⟨localCIDR, Family.has_ofCidr _, bits⟩, whole,
    by simp [projectedRule]⟩, unset, fun zero => ?_, ?_⟩
  · refine (port zero).imp_left fun icmp => ?_
    exact (eq_icmp_iff is.number).mpr icmp
  · intro zero
    have projected := is.projected
    rw [show protocol = 0 from zero] at projected
    cases family <;> simp [projectedProtocol, Family.icmp] at projected

theorem wellFormed_programCandidates {direction : Direction} {program : Program}
    (supported : ∀ rule ∈ program.rules, rule.direction = direction → Supported family rule) :
    ∀ x ∈ programCandidates family direction program, WellFormed family x := by
  intro x member
  obtain ⟨rule, inRules, goes, inCandidates⟩ := mem_programCandidates.mp member
  exact wellFormed_of_mem_candidates (supported rule inRules goes) inCandidates

/-- The log flag plays no part. -/
theorem WellFormed.setLog (x : L4ACLRule) (log : Bool) (wf : WellFormed family x) :
    WellFormed family { x with log } := by
  obtain ⟨⟨action, drops⟩, ⟨⟨localCIDR, sourceCIDR, bits⟩, own, fixed⟩, unset, port, protocol⟩ := wf
  exact ⟨⟨action, drops⟩, ⟨⟨localCIDR, sourceCIDR, bits⟩, own, fixed⟩, unset, port, protocol⟩

/-! ### The projected list is pruned -/

section Pruned

variable {seen rules out : List L4ACLRule} {candidate existing : L4ACLRule}

/-- The rules have the same prefixes. -/
def Alike (x y : L4ACLRule) : Prop := x.localCIDR = y.localCIDR ∧ x.sourceCIDR = y.sourceCIDR

/-- Wherever the loop over the candidates merges two rules, they are alike. -/
def MergesAlike (family : Family) (seen : List L4ACLRule) : Prop :=
  ∀ before candidate rules existing, before ++ [candidate] <+: seen →
    before.foldlM (appendProjectedRule family) [] = .ok rules →
    mergedInto family rules candidate = some existing → Alike existing candidate

theorem of_mergedInto (into : mergedInto family rules candidate = some existing) :
    existing ∈ rules ∧ existing.key family = candidate.key family ∧
      existing.precedence = candidate.precedence := by
  obtain ⟨found, same⟩ := Option.filter_eq_some_iff.mp into
  simp only [sameEntry, Bool.and_eq_true, decide_eq_true_eq] at same
  exact ⟨mem_of_find?_eq_some found, same⟩

/-- Alike rules of one key are about the same packets: with equal prefixes the sum of the lengths
leaves one number of port bits. -/
theorem Alike.traffic_eq {x y : L4ACLRule} (alike : Alike x y) (key : x.key family = y.key family) :
    x.traffic family = y.traffic family := by
  obtain ⟨own, source⟩ := alike
  simp only [L4ACLRule.key, l4RuleKey, l4PrefixLen, L4Key.mk.injEq, own, source] at key
  have bits : x.destPortPrefixBits.toNat = y.destPortPrefixBits.toNat := by omega
  simp [L4ACLRule.traffic, own, source, key, bits]

/-- What the rules are about, with their precedence. -/
def ranked (family : Family) (rules : List L4ACLRule) : List (Traffic family × Nat) :=
  rules.map fun x => (x.traffic family, x.precedence.toNat)

/-- One iteration. -/
private theorem pruned_append {done : List L4ACLRule} (isC : OfFamily family candidate)
    (all : ∀ x ∈ rules, OfFamily family x)
    (alike : ∀ existing, mergedInto family rules candidate = some existing → Alike existing candidate)
    (pruned : Lpm.Pruned Traffic.Covers (ranked family done) (ranked family rules))
    (appended : Appended family candidate rules out) :
    Lpm.Pruned Traffic.Covers (ranked family (done ++ [candidate])) (ranked family out) := by
  let item : Traffic family × Nat := (candidate.traffic family, candidate.precedence.toNat)
  have kept : ∀ x ∈ rules, keptBeside candidate x ↔
      ¬ (item.1.Covers (x.traffic family) ∧ x.precedence.toNat < item.2) := by
    intro x inX
    rw [isC.covers_iff (all x inX), not_and_or]
    simp [keptBeside, BitVec.lt_def, item]
  -- A rule that stays in the place of one around the candidate leaves the list as it reads.
  have stopped : ∀ before after existing stays, rules = before ++ existing :: after →
      (existing.traffic family).Covers item.1 → item.2 ≤ existing.precedence.toNat →
      stays.traffic family = existing.traffic family → stays.precedence = existing.precedence →
      Lpm.Pruned Traffic.Covers (ranked family (done ++ [candidate]))
        (ranked family (before.filter (keptBeside candidate) ++ stays :: after)) := by
    rintro before after existing stays rfl around le same precedence
    have member : existing ∈ before ++ existing :: after := by simp
    have listed := mem_map_of_mem (f := fun x => (x.traffic family, x.precedence.toNat)) member
    have beside : before.filter (keptBeside candidate) = before := by
      refine filter_eq_self.mpr fun x inBefore => ?_
      have inRules : x ∈ before ++ existing :: after := mem_append_left _ inBefore
      exact (kept x inRules).mpr (pruned.none_below listed (c := item) around le
        Traffic.Covers.trans _ (mem_map_of_mem inRules))
    have unchanged : ranked family (before ++ stays :: after) =
        ranked family (before ++ existing :: after) := by
      simp [ranked, same, precedence]
    rw [ranked, map_append, beside, unchanged]
    exact pruned.skip listed around le
  cases appended with
  | @merged before after existing stays into merges =>
    obtain ⟨_, key, precedence⟩ := of_mergedInto into
    have same := (alike existing into).traffic_eq key
    have stays : stays.traffic family = existing.traffic family ∧
        stays.precedence = existing.precedence := by
      rcases mergeTCXRule_eq_ok merges with equal | equal
      · rw [equal]
        exact ⟨rfl, rfl⟩
      · rw [equal]
        exact ⟨same.symm, precedence.symm⟩
    exact stopped before after existing _ rfl (same ▸ Traffic.covers_refl _)
      (precedence ▸ Nat.le_refl _) stays.1 stays.2
  | @shadowed before after existing hides =>
    simp only [shadows, Bool.and_eq_true, decide_eq_true_eq] at hides
    exact stopped before after existing existing rfl
      (((all existing (by simp)).covers_iff isC).mpr hides.1) hides.2 rfl rfl
  | added free =>
    rw [ranked, ranked, map_append, map_append]
    refine pruned.add Traffic.covers_refl Traffic.Covers.trans (filter_sublist.map _)
      (fun pair listed => ⟨fun inRest => ?_, fun beside => ?_⟩) fun pair listed => ?_
    · grind
    · obtain ⟨x, inX, rfl⟩ := mem_map.mp listed
      exact mem_map_of_mem (mem_filter.mpr ⟨inX, (kept x inX).mpr beside⟩)
    · obtain ⟨x, inX, rfl⟩ := mem_map.mp listed
      rw [(all x inX).covers_iff isC]
      simpa [shadows, BitVec.le_def] using free x inX

/-- The whole loop. -/
theorem pruned_projected (all : ∀ x ∈ seen, OfFamily family x) (alike : MergesAlike family seen)
    (returned : seen.foldlM (appendProjectedRule family) [] = .ok out) :
    (∀ x ∈ out, OfFamily family x) ∧
      Lpm.Pruned Traffic.Covers (ranked family seen) (ranked family out) := by
  have setLog : ∀ x log, OfFamily family x → OfFamily family { x with log } :=
    fun _ _ is => ⟨is.localCIDR, is.sourceCIDR, is.bits⟩
  refine (foldlM_invariant (appendProjectedRule family) (fun done rules =>
    done.foldlM (appendProjectedRule family) [] = .ok rules ∧ (∀ x ∈ rules, OfFamily family x) ∧
      Lpm.Pruned Traffic.Covers (ranked family done) (ranked family rules)) seen [] out
    (fun done item state state' inside holds stepped => ?_)
    ⟨rfl, by simp, Lpm.Pruned.empty⟩ returned).2
  obtain ⟨ran, kinds, pruned⟩ := holds
  have isC := all item (inside.subset (by simp))
  have appended := appended_of_appendProjectedRule stepped
  refine ⟨by simp [foldlM_append, ran, stepped], appended.forall setLog kinds isC, ?_⟩
  exact pruned_append isC kinds (fun existing => alike done item state existing inside ran) pruned
    appended

/-- The kept rules that lead on a packet lead among the candidates too. -/
theorem kept_decides (pruned : Lpm.Pruned Traffic.Covers (ranked family seen) (ranked family out))
    (packet : L4Packet family) :
    ((∃ x ∈ out, x.Admits packet) ↔ ∃ s ∈ seen, s.Admits packet) ∧
    ∀ x ∈ out, x.Admits packet → (∀ y ∈ out, y.Admits packet → y.precedence ≤ x.precedence) →
      ∃ s ∈ seen, s.Admits packet ∧ s.precedence = x.precedence ∧
        ∀ other ∈ seen, other.Admits packet → other.precedence ≤ s.precedence := by
  obtain ⟨some_iff, greatest⟩ := pruned.greatest (Traffic.Holds packet) Traffic.Covers.holds
  simp only [ranked, mem_map, exists_exists_and_eq_and, forall_exists_index, and_imp,
    forall_apply_eq_imp_iff₂] at some_iff greatest
  refine ⟨some_iff, fun x inOut admits top => ?_⟩
  obtain ⟨s, inSeen, same⟩ := mem_map.mp (pruned.sound (mem_map_of_mem inOut))
  obtain ⟨traffic, rank⟩ := Prod.mk.inj same
  have precedence : s.precedence = x.precedence := BitVec.eq_of_toNat_eq rank
  refine ⟨s, inSeen, by rwa [L4ACLRule.Admits, traffic], precedence, fun other inOthers about => ?_⟩
  rw [precedence]
  exact greatest x inOut top other inOthers about

/-- Exactly keyed candidates of one key are alike. -/
theorem mergesAlike_of_exact {host : Endian} (wf : ∀ x ∈ seen, WellFormed family x)
    (exact : ∀ x ∈ seen, ExactlyKeyed family host x.sourceCIDR x.destPortPrefixBits) :
    MergesAlike family seen := by
  intro before candidate rules existing inside ran into
  obtain ⟨member, key, _⟩ := of_mergedInto into
  have listed : candidate ∈ seen := inside.subset (by simp)
  obtain ⟨wfE, exactE⟩ := forall_of_foldlM_append
    (P := fun x => WellFormed family x ∧ ExactlyKeyed family host x.sourceCIDR x.destPortPrefixBits)
    (fun x log both => ⟨both.1.setLog x log, both.2⟩)
    (fun x early => have inSeen := inside.subset (mem_append_left _ early)
      ⟨wf x inSeen, exact x inSeen⟩) (by simp) ran existing member
  exact prefixes_of_key wfE.toPlaced (wf candidate listed).toPlaced exactE (exact candidate listed) key

end Pruned

/-! ### Filling the trie -/

section Trie

variable {family : Family} {host : Endian}

private theorem masked_of_bits {w : Nat} {block : Cidr w} (whole : block.bits = w) :
    block.masked = block := by
  obtain ⟨addr, bits, le⟩ := block
  obtain rfl : bits = w := whole
  simp [Cidr.masked, Cidr.clearFrom]

/-- The value is put under the block of the rule. -/
theorem Placed.put {x : L4ACLRule} (wf : Placed family x) (aclMap : L4ACLMap family) (value : L4ACLValue) :
    Lpm.put aclMap (x.key family).prefixLen.toNat ((x.key family).word host) value =
      .ok (aclMap.insert (x.block family host) value) := by
  have fits : (x.key family).prefixLen.toNat ≤ keyWidth family := by
    rw [wf.prefixLen, ← wf.block_bits host]
    exact Cidr.bits_le _
  rw [Lpm.put, dif_pos fits]
  simp [L4ACLRule.block, Nat.min_eq_left fits]

/-- Putting a well-formed rule succeeds and replaces the value of its block. -/
theorem putL4ACLRule_eq {x : L4ACLRule} (wf : WellFormed family x) (aclMap : L4ACLMap family) :
    putL4ACLRule family host aclMap x = .ok (aclMap.insert (x.block family host) x.value) := by
  obtain ⟨source, sourceCIDR⟩ := Family.exists_cidr wf.sourceCIDR
  obtain ⟨own, localCIDR⟩ := Family.exists_cidr wf.localCIDR
  have whole : own.masked = own := masked_of_bits (by simpa [localCIDR] using wf.own)
  have fixed : source.masked = source := by simpa [sourceCIDR] using wf.fixed
  have bits : normalizedDestPortPrefixBits x = x.destPortPrefixBits := by
    unfold normalizedDestPortPrefixBits
    rw [if_neg]
    rintro ⟨none, some⟩
    exact some (wf.unset none)
  have localOk : ruleLocalCIDR family x = .ok x.localCIDR := by
    simp [ruleLocalCIDR, localCIDR, require, whole]
  have sourceOk : ruleSourceCIDR family x = .ok x.sourceCIDR := by
    simp [ruleSourceCIDR, sourceCIDR, require, fixed]
  simp only [putL4ACLRule, localOk, sourceOk, bits, bind_eq_ok, Except.ok.injEq,
    exists_eq_left', require_eq_ok]
  refine ⟨(), by simpa using wf.protocol, (), ?_, (), by simpa using wf.action, ?_⟩
  · simp only [Bool.not_eq_true', Bool.and_eq_false_iff, decide_eq_false_iff_not]
    by_cases zero : x.destPort = 0
    · rcases wf.port zero with icmp | none
      · exact .inl (.inr (by simpa using icmp))
      · exact .inr (by simpa using none)
    · exact .inl (.inl zero)
  · exact wf.put aclMap x.value

/-- The trie of well-formed rules. -/
def trieOf (family : Family) (host : Endian) (rules : List L4ACLRule) : L4ACLMap family :=
  Lpm.fill (L4ACLRule.block family host) L4ACLRule.value rules ∅

theorem newL4ACLMapFromRules_eq {rules : List L4ACLRule} (some : rules ≠ [])
    (wf : ∀ x ∈ rules, WellFormed family x) :
    newL4ACLMapFromRules family host rules = .ok (trieOf family host rules) := by
  have loop : ∀ aclMap : L4ACLMap family, rules.foldlM (putL4ACLRule family host) aclMap =
      .ok (Lpm.fill (L4ACLRule.block family host) L4ACLRule.value rules aclMap) := by
    clear some
    induction rules with
    | nil => exact fun aclMap => rfl
    | cons x rest ih =>
      intro aclMap
      rw [foldlM_cons, putL4ACLRule_eq (wf x (by simp))]
      exact ih (fun y later => wf y (mem_cons_of_mem _ later)) _
  simp only [newL4ACLMapFromRules, bind_eq_ok, require_eq_ok]
  exact ⟨(), by simpa using some, loop ∅⟩

theorem lookupVerdict_of_lookup {aclMap : L4ACLMap family} {packet : L4Packet family}
    {value : Option L4ACLValue}
    (looked : Lpm.lookup aclMap family.lookupPrefixLen (packet.word host) = value) :
    lookupVerdict family host aclMap packet = (value.map L4ACLValue.action).getD tcxPass :=
  looked ▸ rfl

/-- The verdict is that of a rule whose block has the packet's key, or pass without one. -/
theorem lookupVerdict_trieOf {rules : List L4ACLRule} (host : Endian)
    (wf : ∀ x ∈ rules, WellFormed family x) (packet : L4Packet family) :
    lookupVerdict family host (trieOf family host rules) packet = tcxPass ∧
        (∀ x ∈ rules, (x.block family host).contains (packet.word host) = false) ∨
      ∃ x ∈ rules, lookupVerdict family host (trieOf family host rules) packet = x.action ∧
        (x.block family host).contains (packet.word host) := by
  rcases Lpm.lookup_fill_cases (L4ACLRule.block family host) L4ACLRule.value rules
      family.lookupPrefixLen (packet.word host) with ⟨none, missed⟩ | ⟨x, inX, found, inside, _⟩
  · refine .inl ⟨lookupVerdict_of_lookup none, fun x inX => ?_⟩
    exact missed x inX ((wf x inX).block_bits host ▸ (wf x inX).keyBits_le)
  · exact .inr ⟨x, inX, lookupVerdict_of_lookup found, inside⟩

/-- Looking up a packet among exactly keyed rules: the verdict is that of a candidate of
greatest precedence among those about the packet, and pass if there is none. -/
theorem lookupVerdict_projected {seen out : List L4ACLRule} (wf : ∀ x ∈ seen, WellFormed family x)
    (alike : MergesAlike family seen)
    (exact : ∀ x ∈ out, ExactlyKeyed family host x.sourceCIDR x.destPortPrefixBits)
    (returned : seen.foldlM (appendProjectedRule family) [] = .ok out) (packet : L4Packet family) :
    lookupVerdict family host (trieOf family host out) packet = tcxPass ∧
        (∀ s ∈ seen, ¬ s.Admits packet) ∨
      ∃ s ∈ seen, s.Admits packet ∧
        (∀ other ∈ seen, other.Admits packet → other.precedence ≤ s.precedence) ∧
        lookupVerdict family host (trieOf family host out) packet = s.action := by
  have pruned := (pruned_projected (fun x inX => (wf x inX).toOfFamily) alike returned).2
  have wfOut : ∀ x ∈ out, WellFormed family x :=
    forall_of_foldlM_append WellFormed.setLog wf (by simp) returned
  have admits : ∀ x ∈ out, ((x.block family host).contains (packet.word host) ↔
      x.Admits packet) := fun x inOut => (wfOut x inOut).contains_block (exact x inOut) packet
  have ordered : ∀ x ∈ out, ∀ y ∈ out, (y.block family host).covers (x.block family host) →
      y.precedence.toNat ≤ x.precedence.toNat := fun x inX y inY around =>
    pruned.rank_le (mem_map_of_mem inX) (mem_map_of_mem inY)
      ((covers_block (wfOut y inY) (wfOut x inX) (exact y inY) (exact x inX)).mp around)
  obtain ⟨some_iff, leads⟩ := kept_decides pruned packet
  rcases Lpm.lookup_fill_greatest ordered L4ACLRule.value
      (fun x inX => (wfOut x inX).block_bits host ▸ (wfOut x inX).keyBits_le)
      (packet.word host) with ⟨none, missed⟩ | ⟨x, inOut, found, inside, top⟩
  · refine .inl ⟨lookupVerdict_of_lookup none, fun s inSeen about => ?_⟩
    obtain ⟨x, inOut, about⟩ := some_iff.mpr ⟨s, inSeen, about⟩
    simpa [(admits x inOut).mpr about] using missed x inOut
  · obtain ⟨s, inSeen, about, precedence, greatest⟩ := leads x inOut ((admits x inOut).mp inside)
      fun y inY about => top y inY ((admits y inY).mpr about)
    -- Equal precedence means the same action.
    refine .inr ⟨s, inSeen, about, greatest, (lookupVerdict_of_lookup found).trans ?_⟩
    exact (wfOut x inOut).action_eq (wf s inSeen).toActs precedence

end Trie

/-! ### What the projection keeps -/

section Traffic

variable {family : Family}

/-- A rule of the family whose precedence and action come from one policy rule. -/
structure IsCandidate (family : Family) (x : L4ACLRule) : Prop extends OfFamily family x where
  rule : ∃ rule, x.precedence = tcxRulePrecedence rule ∧ tcxAction rule.action = some x.action

theorem IsCandidate.acts {x : L4ACLRule} (is : IsCandidate family x) : Acts x := by
  obtain ⟨rule, precedence, acts⟩ := is.rule
  exact acts_of_rule acts precedence

/-- A rule of the list that matches the packet, of greatest precedence among those. -/
structure Top (family : Family) (rules : List L4ACLRule) (packet : L4Packet family)
    (x : L4ACLRule) : Prop where
  member : x ∈ rules
  admits : x.Admits packet
  greatest : ∀ y ∈ rules, y.Admits packet → y.precedence ≤ x.precedence

/-- If the rules that are merged are alike, the projection keeps the decision on every packet,
and nothing it keeps is covered by something kept of greater precedence. -/
theorem projection_lossless (family : Family) {seen out : List L4ACLRule}
    (candidates : ∀ x ∈ seen, IsCandidate family x) (alike : MergesAlike family seen)
    (returned : seen.foldlM (appendProjectedRule family) [] = .ok out) :
    (∀ packet : L4Packet family,
      ((∃ x ∈ out, x.Admits packet) ↔ ∃ s ∈ seen, s.Admits packet) ∧
      ∀ x s, Top family out packet x → Top family seen packet s → x.action = s.action) ∧
    ∀ x ∈ out, ∀ y ∈ out, ruleCovers y x = true → y.precedence ≤ x.precedence := by
  obtain ⟨kinds, pruned⟩ :=
    pruned_projected (fun x inX => (candidates x inX).toOfFamily) alike returned
  have acts : ∀ x ∈ out, Acts x := forall_of_foldlM_append
    (fun _ _ acts => ⟨acts.action, acts.drops⟩) (fun x inX => (candidates x inX).acts) (by simp)
    returned
  refine ⟨fun packet => ?_, fun x inX y inY around => ?_⟩
  · obtain ⟨some_iff, leads⟩ := kept_decides pruned packet
    refine ⟨some_iff, fun x s topX topS => ?_⟩
    obtain ⟨t, inSeen, about, precedence, greatest⟩ := leads x topX.member topX.admits topX.greatest
    refine (acts x topX.member).action_eq (candidates s topS.member).acts ?_
    rw [← precedence]
    exact BitVec.le_antisymm (greatest s topS.member topS.admits) (topS.greatest t inSeen about)
  · exact pruned.rank_le (mem_map_of_mem inX) (mem_map_of_mem inY)
      (((kinds y inY).covers_iff (kinds x inX)).mpr around)

end Traffic

/-- Refuses the ports of one peer, or one port of the peers around it. -/
def refusal (action : Action) (remoteCIDR : Prefix) (last : BitVec 16) : Rule where
  id := "refuse"
  vpc := "prod"
  priority := 100
  direction := .ingress
  protocol := .tcp
  ports := [⟨0x1200, last⟩]
  action
  securityGroup := "web"
  remoteCIDR

/-- Drops ports 4608 to 4863 of 10.0.0.0 and rejects port 4608 of 10.0.0.0/24. -/
def refusals : Program where
  endpointID := "prod/web"
  endpointIP := .v4 0x0A000009
  mapEntries := []
  rules := [refusal .drop (.v4 ⟨0x0A000000, 32, by decide⟩) 0x12FF,
    refusal .reject (.v4 ⟨0x0A000000, 24, by decide⟩) 0x1200]

/-- Eight bits of a port behind a whole address are as many as a whole port behind 24: the
rules have one key, the second takes the place of the first, and a port the first drops is
matched by nothing. -/
theorem projection_loses_rule : ∃ dropped rejected,
    programCandidates .v4 .ingress refusals = [dropped, rejected] ∧
    [dropped, rejected].foldlM (appendProjectedRule .v4) [] = .ok [rejected] ∧
    Top .v4 [dropped, rejected] ⟨0x0A000009, 6, 0x0A000000, 0x1234⟩ dropped ∧
    dropped.action = tcxDrop ∧
    ¬ (rejected.traffic .v4).Holds ⟨0x0A000009, 6, 0x0A000000, 0x1234⟩ := by
  refine ⟨_, _, rfl, rfl, ⟨by simp, ⟨by decide, by decide, by decide, by decide⟩, ?_⟩, rfl, ?_⟩
  · simp only [mem_cons, not_mem_nil, or_false, forall_eq_or_imp, forall_eq]
    exact ⟨fun _ => BitVec.le_refl _, fun _ => by decide⟩
  · rintro ⟨_, _, _, port⟩
    exact absurd port (by decide)

def rejecting : L4ACLRule :=
  let rule := refusal .reject (prefixFrom (.v4 0x0A000000) 24) 0x1200
  projectedRule .v4 refusals rule rule.remoteCIDR 6 tcxDrop ⟨0x1200, 16⟩

/-- A rule that comes twice is merged with itself, and nothing is lost. -/
theorem projection_keeps_rule :
    [rejecting, rejecting].foldlM (appendProjectedRule .v4) [] = .ok [rejecting] ∧
    (∀ packet : L4Packet .v4, ((∃ x ∈ [rejecting], x.Admits packet) ↔
        ∃ s ∈ [rejecting, rejecting], s.Admits packet) ∧
      ∀ x s, Top .v4 [rejecting] packet x → Top .v4 [rejecting, rejecting] packet s →
        x.action = s.action) ∧
    ∀ x ∈ [rejecting], ∀ y ∈ [rejecting], ruleCovers y x = true → y.precedence ≤ x.precedence := by
  have candidate : IsCandidate .v4 rejecting :=
    ⟨⟨rfl, rfl, by decide⟩, refusal .reject (prefixFrom (.v4 0x0A000000) 24) 0x1200, rfl, rfl⟩
  have alike : MergesAlike .v4 [rejecting, rejecting] := by
    intro before candidate rules existing inside ran into
    rcases before with _ | ⟨first, _ | ⟨_, _⟩⟩
    · cases ran
      cases into
    · obtain ⟨rfl, rfl⟩ : first = rejecting ∧ candidate = rejecting := by simpa using inside
      obtain rfl : [rejecting] = rules := Except.ok.inj ran
      rw [mem_singleton.mp (of_mergedInto into).1]
      exact ⟨rfl, rfl⟩
    · simp at inside
  have merged : [rejecting, rejecting].foldlM (appendProjectedRule .v4) [] = .ok [rejecting] := by
    decide
  exact ⟨merged, projection_lossless .v4 (by simpa using candidate) alike merged⟩

end Netloom.Dataplane
