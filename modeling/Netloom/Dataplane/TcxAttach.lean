import Netloom.Dataplane.TcxLookup

/-!
# Attaching the programs of an interface

The programs of the endpoints behind an interface share one trie per family.
Projected rules with different local addresses never merge with, cover or
replace each other, so the list that is projected falls apart into one list per
local address.
-/
namespace Netloom.Dataplane

open Netip (Addr Prefix prefixFrom)
open Model List Checked
open Policy (Rule Program PortBlock)

/-! ### The attachment -/

/-- The address of the family with the given bytes. -/
def Family.addr : (family : Family) → BitVec family.width → Addr
  | .v4, word => .v4 word
  | .v6, word => .v6 word ""

/-- The body of the loop over the rules: a rule without local address gets the primary
address of the interface, if it has one of the family. -/
def fillMissingLocalCIDR (family : Family) (primary : Option (BitVec family.width))
    (rule : L4ACLRule) : L4ACLRule :=
  match primary with
  | none => rule
  | some word =>
    if rule.localCIDR.isValid && !rule.localCIDR.addr.isUnspecified then rule
    else { rule with
      localAddr := family.addr word, localCIDR := prefixFrom (family.addr word) family.width }

/-- `fillMissingIPv4LocalCIDRs` and `fillMissingIPv6LocalCIDRs`, with the address that
`interfacePrimaryAddr` returns. -/
def fillMissingLocalCIDRs (family : Family) (primary : Option (BitVec family.width))
    (rules : List L4ACLRule) : List L4ACLRule :=
  rules.map (fillMissingLocalCIDR family primary)

/-- The tries of a `TCXAttachment`. -/
structure TCXAttachment where
  v4 : Option (L4ACLMap .v4)
  v6 : Option (L4ACLMap .v6)

def TCXAttachment.aclMap (attachment : TCXAttachment) : (family : Family) → Option (L4ACLMap family)
  | .v4 => attachment.v4
  | .v6 => attachment.v6

/-- A packet of a family without trie meets no program. -/
def TCXAttachment.verdict (attachment : TCXAttachment) (host : Endian) {family : Family}
    (packet : L4Packet family) : Int :=
  ((attachment.aclMap family).map fun aclMap => lookupVerdict family host aclMap packet).getD tcxPass

/-- `AttachTCXL4ProgramsForDirection` up to the tries. An error of one family is passed
over if the other one projects. -/
def attachTCXL4ProgramsForDirection (host : Endian)
    (primary : (family : Family) → Option (BitVec family.width)) (programs : List Program)
    (direction : Direction) : Except String TCXAttachment :=
  let attach (family : Family) (rules : List L4ACLRule) : Except String (L4ACLMap family) :=
    newL4ACLMapFromRules family host (fillMissingLocalCIDRs family (primary family) rules)
  match ipv4L4ACLRulesFromProgramsForDirection programs direction,
      ipv6L4ACLRulesFromProgramsForDirection programs direction with
  | .error _, .error _ =>
    .error s!"programs have no IPv4 or IPv6 L4 {direction.text} ACL rules for TCX"
  | .ok v4Rules, .error _ => do
    let v4 ← attach .v4 v4Rules
    pure { v4, v6 := none }
  | .error _, .ok v6Rules => do
    let v6 ← attach .v6 v6Rules
    pure { v4 := none, v6 }
  | .ok v4Rules, .ok v6Rules => do
    let v4 ← attach .v4 v4Rules
    let v6 ← attach .v6 v6Rules
    pure { v4, v6 }

/-! ### Rules by local address -/

section LocalAddress

variable {family : Family}

/-- The local address of a rule, as the key holds it. -/
def localWord (family : Family) (x : L4ACLRule) : BitVec family.width :=
  family.word x.localCIDR.addr

/-- Rules on different addresses have different keys, and none covers the other. -/
theorem apart_of_localWord {x y : L4ACLRule} (wfX : WellFormed family x) (wfY : WellFormed family y)
    (differ : localWord family x ≠ localWord family y) :
    x.key family ≠ y.key family ∧ ruleCovers x y = false := by
  constructor
  · intro same
    exact differ (congrArg L4Key.localIP same)
  · apply Bool.eq_false_iff.mpr
    intro covers
    have own := ((wfX.covers_iff wfY.toOfFamily).mpr covers).own
    obtain ⟨_, agree⟩ := (Cidr.covers_iff_agree _ _).mp own
    rw [L4ACLRule.traffic, wfX.own, Cidr.agree_width] at agree
    apply differ
    rw [localWord, localWord, Family.word_addr, Family.word_addr]
    exact agree.symm

variable (keep : BitVec family.width → Bool)

/-- The rules on the addresses that are kept. -/
def onKept (rules : List L4ACLRule) : List L4ACLRule :=
  rules.filter fun x => keep (localWord family x)

section

variable {candidate : L4ACLRule}

theorem onKept_cons_of_kept (own : keep (localWord family candidate))
    (rest : List L4ACLRule) : onKept keep (candidate :: rest) = candidate :: onKept keep rest :=
  filter_cons_of_pos own

theorem onKept_cons_of_other (other : keep (localWord family candidate) = false)
    (rest : List L4ACLRule) : onKept keep (candidate :: rest) = onKept keep rest :=
  filter_cons_of_neg (by simp [other])

private theorem keep_merged {existing merged : L4ACLRule}
    (merges : mergeTCXRule existing candidate = .ok merged)
    (same : keep (localWord family existing) = keep (localWord family candidate)) :
    keep (localWord family merged) = keep (localWord family candidate) := by
  rcases mergeTCXRule_eq_ok merges with equal | equal
  · exact (congrArg (fun x => keep (localWord family x)) equal).trans same
  · exact (congrArg (fun x => keep (localWord family x)) equal).trans rfl

variable (wfC : WellFormed family candidate)
include wfC

/-- A rule on the other side than the candidate is passed over. -/
private theorem appendProjectedRule_cons {existing : L4ACLRule} (rest : List L4ACLRule)
    (wfE : WellFormed family existing)
    (side : keep (localWord family existing) ≠ keep (localWord family candidate)) :
    appendProjectedRule family (existing :: rest) candidate =
      (existing :: ·) <$> appendProjectedRule family rest candidate := by
  have differ : localWord family existing ≠ localWord family candidate :=
    fun same => side (congrArg keep same)
  obtain ⟨key, notOver⟩ := apart_of_localWord wfE wfC differ
  obtain ⟨_, notUnder⟩ := apart_of_localWord wfC wfE differ.symm
  simp only [appendProjectedRule, key, notOver, notUnder, decide_false, Bool.false_and,
    Bool.false_eq_true, if_false]
  rfl

variable {rules out : List L4ACLRule} (wf : ∀ x ∈ rules, WellFormed family x)
include wf

/-- A candidate that is kept meets the kept rules only. -/
private theorem appendProjectedRule_onKept (own : keep (localWord family candidate)) :
    appendProjectedRule family (onKept keep rules) candidate =
      onKept keep <$> appendProjectedRule family rules candidate := by
  induction rules with
  | nil => simp [onKept, appendProjectedRule, own, Functor.map, Except.map]
  | cons existing rest ih =>
    have ih := ih fun x later => wf x (mem_cons_of_mem _ later)
    cases side : keep (localWord family existing) with
    | false =>
      have skipped := onKept_cons_of_other keep side
      rw [skipped, ih, appendProjectedRule_cons keep wfC rest (wf existing (by simp))
        (by simp [side, own])]
      cases appendProjectedRule family rest candidate with
      | error message => rfl
      | ok out => exact congrArg Except.ok (skipped out).symm
    | true =>
      have first := onKept_cons_of_kept keep side
      rw [first, appendProjectedRule, appendProjectedRule, ih]
      split
      · cases merges : mergeTCXRule existing candidate with
        | error message => rfl
        | ok merged =>
          have stays := (keep_merged keep merges (side.trans own.symm)).trans own
          exact congrArg Except.ok (onKept_cons_of_kept keep stays rest).symm
      split
      · exact congrArg Except.ok (first rest).symm
      split
      · rfl
      · cases appendProjectedRule family rest candidate with
        | error message => rfl
        | ok out => exact congrArg Except.ok (first out).symm

/-- A candidate that is not kept leaves the kept rules as they are. -/
private theorem onKept_of_append (other : keep (localWord family candidate) = false)
    (returned : appendProjectedRule family rules candidate = .ok out) :
    onKept keep out = onKept keep rules := by
  induction rules generalizing out with
  | nil =>
    cases returned
    simp [onKept, other]
  | cons existing rest ih =>
    have ih := fun out => @ih out fun x later => wf x (mem_cons_of_mem _ later)
    cases side : keep (localWord family existing) with
    | true =>
      rw [appendProjectedRule_cons keep wfC rest (wf existing (by simp)) (by simp [side, other]),
        map_eq_ok] at returned
      obtain ⟨tail, returned, rfl⟩ := returned
      simpa [onKept, side] using ih tail returned
    | false =>
      have skipped := onKept_cons_of_other keep side
      rw [skipped]
      unfold appendProjectedRule at returned
      split at returned
      · simp only [bind_eq_ok, pure_eq_ok] at returned
        obtain ⟨merged, merges, rfl⟩ := returned
        have stays := (keep_merged keep merges (side.trans other.symm)).trans other
        exact onKept_cons_of_other keep stays rest
      split at returned
      · cases returned
        exact skipped rest
      split at returned
      · exact ih out returned
      · simp only [bind_eq_ok, pure_eq_ok] at returned
        obtain ⟨tail, returned, rfl⟩ := returned
        rw [skipped, ih tail returned]

/-- A step that succeeds among the rules on its side succeeds among all. -/
private theorem exists_step_of_onKept {kept rest : List L4ACLRule}
    (own : keep (localWord family candidate))
    (looped : (onKept keep (candidate :: rest)).foldlM (appendProjectedRule family)
      (onKept keep rules) = .ok kept) :
    ∃ next, appendProjectedRule family rules candidate = .ok next := by
  rw [onKept_cons_of_kept keep own, foldlM_cons, appendProjectedRule_onKept keep wfC wf own,
    bind_eq_ok] at looped
  obtain ⟨_, stepped, _⟩ := looped
  obtain ⟨next, appended, _⟩ := (map_eq_ok _ _ _).mp stepped
  exact ⟨next, appended⟩

variable (stepped : appendProjectedRule family rules candidate = .ok out)
include stepped

private theorem wellFormed_append : ∀ x ∈ out, WellFormed family x :=
  (appended_of_appendProjectedRule stepped).forall WellFormed.setLog wf wfC

/-- One step of the loop, as the kept rules see it. -/
private theorem step_onKept (rest : List L4ACLRule) :
    (onKept keep (candidate :: rest)).foldlM (appendProjectedRule family) (onKept keep rules) =
      (onKept keep rest).foldlM (appendProjectedRule family) (onKept keep out) := by
  cases side : keep (localWord family candidate) with
  | true =>
    rw [onKept_cons_of_kept keep side, foldlM_cons, appendProjectedRule_onKept keep wfC wf side,
      stepped]
    rfl
  | false =>
    rw [onKept_cons_of_other keep side, onKept_of_append keep wfC wf side stepped]

end

section

variable {cands start out : List L4ACLRule} (wf : ∀ x ∈ cands, WellFormed family x)
  (wfS : ∀ x ∈ start, WellFormed family x)
include wf wfS

/-- The kept part of what the loop returns is what it returns for the kept candidates. -/
theorem foldlM_onKept (returned : cands.foldlM (appendProjectedRule family) start = .ok out) :
    (onKept keep cands).foldlM (appendProjectedRule family) (onKept keep start) =
      .ok (onKept keep out) := by
  induction cands generalizing start with
  | nil =>
    cases returned
    rfl
  | cons candidate rest ih =>
    have wfC := wf candidate (by simp)
    simp only [foldlM_cons, bind_eq_ok] at returned
    obtain ⟨next, stepped, returned⟩ := returned
    rw [step_onKept keep wfC wfS stepped]
    exact ih (fun x later => wf x (mem_cons_of_mem _ later))
      (wellFormed_append wfC wfS stepped) returned

/-- The loop succeeds if it does on either side. -/
theorem foldlM_of_onKept {kept others : List L4ACLRule}
    (left : (onKept keep cands).foldlM (appendProjectedRule family) (onKept keep start) = .ok kept)
    (right : (onKept (fun word => !keep word) cands).foldlM (appendProjectedRule family)
      (onKept (fun word => !keep word) start) = .ok others) :
    ∃ out, cands.foldlM (appendProjectedRule family) start = .ok out := by
  induction cands generalizing start with
  | nil => exact ⟨start, rfl⟩
  | cons candidate rest ih =>
    have wfC := wf candidate (by simp)
    -- The candidate is on one side, where the step is known to succeed.
    obtain ⟨next, stepped⟩ : ∃ next, appendProjectedRule family start candidate = .ok next := by
      cases side : keep (localWord family candidate) with
      | true => exact exists_step_of_onKept keep wfC wfS side left
      | false => exact exists_step_of_onKept _ wfC wfS (by simp [side]) right
    rw [step_onKept keep wfC wfS stepped] at left
    rw [step_onKept _ wfC wfS stepped] at right
    obtain ⟨out, looped⟩ := ih (fun x later => wf x (mem_cons_of_mem _ later))
      (wellFormed_append wfC wfS stepped) left right
    exact ⟨out, by rw [foldlM_cons, stepped]; exact looped⟩

end

end LocalAddress

/-! ### The tries of an attachment -/

section Attached

variable {family : Family} {host : Endian} {direction : Direction} {programs : List Program}

theorem foldlM_programs_eq_ok (family : Family) (direction : Direction) (programs : List Program)
    (rules out : List L4ACLRule) :
    programs.foldlM (appendL4ACLRulesFromProgram family direction) rules = .ok out ↔
      (∀ program ∈ programs, ∀ rule ∈ program.rules, rule.direction = direction →
        Supported family rule) ∧
      (programs.flatMap (programCandidates family direction)).foldlM (appendProjectedRule family)
        rules = .ok out := by
  induction programs generalizing rules with
  | nil => simp
  | cons program rest ih =>
    simp only [foldlM_cons, bind_eq_ok, appendL4ACLRulesFromProgram_eq_ok, ih,
      forall_mem_cons, flatMap_cons, foldlM_append]
    grind

/-- The candidates of supported rules are well formed. -/
theorem wellFormed_of_supported (supported : ∀ program ∈ programs, ∀ rule ∈ program.rules,
      rule.direction = direction → Supported family rule) :
    ∀ x ∈ programs.flatMap (programCandidates family direction), WellFormed family x := by
  exact forall_mem_flatMap.mpr fun program member =>
    wellFormed_programCandidates (supported program member)

theorem wellFormed_of_foldlM {out : List L4ACLRule}
    (returned : programs.foldlM (appendL4ACLRulesFromProgram family direction) [] = .ok out) :
    ∀ x ∈ out, WellFormed family x := by
  obtain ⟨supported, looped⟩ := (foldlM_programs_eq_ok ..).mp returned
  exact forall_of_foldlM_append WellFormed.setLog (wellFormed_of_supported supported) (by simp) looped

variable (primary : Option (BitVec family.width))

private theorem prefixFrom_addr (word : BitVec family.width) :
    prefixFrom (family.addr word) family.width = family.ofCidr ⟨word, family.width, le_refl _⟩ := by
  cases family <;> rfl

private theorem isUnspecified_ofCidr (block : Cidr family.width) :
    (family.ofCidr block).addr.isUnspecified = decide (block.addr = 0) := by
  cases family with
  | v4 | v6 =>
    rw [Bool.eq_iff_iff]
    simp [Family.ofCidr, Prefix.addr, Addr.isUnspecified]
    rfl

variable {x : L4ACLRule}

/-- Only rules on the unspecified address are moved, and they move to the primary one. -/
theorem localWord_fillMissingLocalCIDR (wf : WellFormed family x) :
    localWord family (fillMissingLocalCIDR family primary x) =
      if localWord family x = 0 then primary.getD 0 else localWord family x := by
  obtain ⟨block, is⟩ := Family.exists_cidr wf.localCIDR
  have word : localWord family x = block.addr := by
    rw [localWord, is, Family.word_ofCidr]
  cases primary with
  | none =>
    rw [fillMissingLocalCIDR]
    split
    · next zero => rw [zero, Option.getD_none]
    · rfl
  | some primary =>
    simp only [fillMissingLocalCIDR, is, Family.isValid_ofCidr, isUnspecified_ofCidr, Bool.true_and,
      Option.getD_some, word, Bool.not_eq_true', decide_eq_false_iff_not]
    by_cases zero : block.addr = 0
    · rw [if_neg (not_not.mpr zero), if_pos zero, localWord, prefixFrom_addr, Family.word_ofCidr]
    · rw [if_pos zero, if_neg zero, word]

theorem WellFormed.fillMissing (wf : WellFormed family x) :
    WellFormed family (fillMissingLocalCIDR family primary x) := by
  unfold fillMissingLocalCIDR
  split
  · exact wf
  split
  · exact wf
  · obtain ⟨⟨action, drops⟩, ⟨⟨_, sourceCIDR, bits⟩, _, fixed⟩, unset, port, protocol⟩ := wf
    refine ⟨⟨action, drops⟩, ⟨⟨?_, sourceCIDR, bits⟩, ?_, fixed⟩, unset, port, protocol⟩
    · rw [prefixFrom_addr]
      exact Family.has_ofCidr _
    · rw [prefixFrom_addr, Family.cidr_ofCidr]

theorem action_fillMissingLocalCIDR (x : L4ACLRule) :
    (fillMissingLocalCIDR family primary x).action = x.action := by
  unfold fillMissingLocalCIDR
  split
  · rfl
  · split <;> rfl

/-- The verdict of the trie filled with projected rules. -/
def rulesVerdict (host : Endian) (rules : List L4ACLRule) (packet : L4Packet family) : Int :=
  lookupVerdict family host (trieOf family host (fillMissingLocalCIDRs family primary rules)) packet

/-- A packet meets only rules whose local address, once moved, is its own. -/
private theorem localWord_of_contains {packet : L4Packet family} (wf : WellFormed family x)
    (inside : ((fillMissingLocalCIDR family primary x).block family
      host).contains (packet.word host)) :
    (if localWord family x = 0 then primary.getD 0 else localWord family x) = packet.localIP := by
  rw [((wf.fillMissing primary).stem_of_contains inside).1, ← localWord_fillMissingLocalCIDR primary wf,
    localWord, Family.word_addr]

variable {rules : List L4ACLRule}

/-- The verdict depends only on the rules that are moved to the packet's address. -/
theorem rulesVerdict_congr {rules' : List L4ACLRule} {packet : L4Packet family}
    (keep : BitVec family.width → Bool) (wf : ∀ x ∈ rules, WellFormed family x)
    (wf' : ∀ x ∈ rules', WellFormed family x) (same : onKept keep rules = onKept keep rules')
    (kept : ∀ x, (x ∈ rules ∨ x ∈ rules') →
      (if localWord family x = 0 then primary.getD 0 else localWord family x) = packet.localIP →
      keep (localWord family x)) :
    rulesVerdict primary host rules packet = rulesVerdict primary host rules' packet := by
  -- The trie is one fill with the rules before they are moved.
  simp only [rulesVerdict, lookupVerdict, trieOf, fillMissingLocalCIDRs, Lpm.fill, foldl_map]
  congr 2
  refine Lpm.lookup_fill_congr (fun x => Cidr.masked_masked _) same ?_ ?_
  · intro x member inside
    exact kept x (.inl member) (localWord_of_contains primary (wf x member) inside)
  · intro x member inside
    exact kept x (.inr member) (localWord_of_contains primary (wf' x member) inside)

theorem wellFormed_fillMissingLocalCIDRs (wf : ∀ x ∈ rules, WellFormed family x) :
    ∀ x ∈ fillMissingLocalCIDRs family primary rules, WellFormed family x :=
  forall_mem_map.mpr fun x member => (wf x member).fillMissing primary

/-- The verdict is that of a moved rule around the packet's key, or pass without one. -/
theorem rulesVerdict_cases (host : Endian) (wf : ∀ x ∈ rules, WellFormed family x)
    (packet : L4Packet family) :
    rulesVerdict primary host rules packet = tcxPass ∧ (∀ x ∈ rules,
        ((fillMissingLocalCIDR family primary x).block family host).contains (packet.word host) =
          false) ∨
      ∃ x ∈ rules, rulesVerdict primary host rules packet = x.action := by
  rcases lookupVerdict_trieOf host (wellFormed_fillMissingLocalCIDRs primary wf) packet with
    ⟨passes, missed⟩ | ⟨x, member, verdict, _⟩
  · exact .inl ⟨passes, forall_mem_map.mp missed⟩
  · obtain ⟨y, inRules, rfl⟩ := mem_map.mp member
    exact .inr ⟨y, inRules, verdict.trans (action_fillMissingLocalCIDR primary y)⟩

theorem l4ACLRulesFromProgramsForDirection_eq_ok :
    l4ACLRulesFromProgramsForDirection family programs direction = .ok rules ↔
      programs.foldlM (appendL4ACLRulesFromProgram family direction) [] = .ok rules ∧
        hasEnforcingTCXRule rules := by
  simp only [l4ACLRulesFromProgramsForDirection, bind_eq_ok, checkProjection_eq_ok]
  simp

/-- Projected rules always fill a trie. -/
private theorem newL4ACLMapFromRules_projected
    (projected : l4ACLRulesFromProgramsForDirection family programs direction = .ok rules) :
    newL4ACLMapFromRules family host (fillMissingLocalCIDRs family primary rules) =
      .ok (trieOf family host (fillMissingLocalCIDRs family primary rules)) := by
  obtain ⟨looped, enforcing⟩ := l4ACLRulesFromProgramsForDirection_eq_ok.mp projected
  apply newL4ACLMapFromRules_eq
  · intro none
    rw [fillMissingLocalCIDRs, map_eq_nil_iff] at none
    simp [none, hasEnforcingTCXRule] at enforcing
  · exact wellFormed_fillMissingLocalCIDRs primary (wellFormed_of_foldlM looped)

end Attached

section Verdicts

variable {host : Endian} {direction : Direction} {programs : List Program}
  {primary : (family : Family) → Option (BitVec family.width)} {attachment : TCXAttachment}

section

variable (attached : attachTCXL4ProgramsForDirection host primary programs direction = .ok attachment)

include attached

/-- A family is attached exactly if it projects. -/
theorem aclMap_of_attach (family : Family) :
    attachment.aclMap family =
      match l4ACLRulesFromProgramsForDirection family programs direction with
      | .error _ => none
      | .ok rules => some (trieOf family host
          (fillMissingLocalCIDRs family (primary family) rules)) := by
  have fills : ∀ (family : Family) (rules : List L4ACLRule),
      l4ACLRulesFromProgramsForDirection family programs direction = .ok rules →
      newL4ACLMapFromRules family host (fillMissingLocalCIDRs family (primary family) rules) =
        .ok (trieOf family host
          (fillMissingLocalCIDRs family (primary family) rules)) :=
    fun family _ => newL4ACLMapFromRules_projected (primary family)
  unfold attachTCXL4ProgramsForDirection at attached
  cases v4 : l4ACLRulesFromProgramsForDirection .v4 programs direction <;>
    cases v6 : l4ACLRulesFromProgramsForDirection .v6 programs direction <;>
    simp only [ipv4L4ACLRulesFromProgramsForDirection, ipv6L4ACLRulesFromProgramsForDirection, v4, v6,
      fills, bind_eq_ok, Except.ok.injEq, exists_eq_left', pure_eq_ok,
      reduceCtorEq] at attached <;>
    subst attached <;> cases family <;> simp only [v4, v6] <;> rfl

/-- The verdict in terms of the loop over the programs. A family that is left out for lack
of refusing rules would have passed every packet. -/
theorem verdict_of_attach {family : Family}
    (packet : L4Packet family) :
    attachment.verdict host packet =
      match programs.foldlM (appendL4ACLRulesFromProgram family direction) [] with
      | .error _ => tcxPass
      | .ok rules => rulesVerdict (primary family) host rules packet := by
  rw [TCXAttachment.verdict, aclMap_of_attach attached]
  cases projected : l4ACLRulesFromProgramsForDirection family programs direction with
  | ok rules =>
    obtain ⟨looped, _⟩ := l4ACLRulesFromProgramsForDirection_eq_ok.mp projected
    simp only [looped]
    rfl
  | error message =>
    simp only [Option.map_none, Option.getD_none]
    split
    · rfl
    · next rules looped =>
      have wf := wellFormed_of_foldlM looped
      rcases rulesVerdict_cases (primary family) host wf packet with ⟨passes, _⟩ | ⟨x, member, verdict⟩
      · exact passes.symm
      rcases (wf x member).action with pass | drop
      · exact (verdict.trans pass).symm
      · -- A refusing rule would have made the projection succeed.
        have enforcing : hasEnforcingTCXRule rules :=
          any_eq_true.mpr ⟨x, member, by simp [drop]⟩
        rw [l4ACLRulesFromProgramsForDirection_eq_ok.mpr ⟨looped, enforcing⟩] at projected
        cases projected

end

end Verdicts

end Netloom.Dataplane
