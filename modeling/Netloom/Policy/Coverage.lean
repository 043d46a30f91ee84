import Netloom.Policy.Expansion

/-!
# Which addresses the prefixes of an expansion cover

What excepts leave of a prefix, what the subnets of a VPC leave of all
addresses, and what compaction makes of the rules of one key.
-/
namespace Netloom.Policy

open Netip (Addr Prefix Version)
open Model List

/-! ### Excepts -/

/-- Disjoint prefixes that cover a prefix without the excepts. -/
structure Difference (base : Prefix) (excepts cidrs : List Prefix) : Prop where
  apart : cidrs.Pairwise Apart
  covers : ∀ ip, Covered cidrs ip ↔
    base.contains ip = true ∧ ∀ except ∈ excepts, ¬ except.contains ip = true

/-- Every excepted address is in an except that properly includes none before it. -/
def ExceptsCut (excepts : List Prefix) : Prop :=
  ∀ except ∈ excepts, ∀ ip, except.contains ip = true →
    ∃ cut, Cuts excepts cut ∧ cut.contains ip = true

theorem exceptsCut_of_noLaterOuter {excepts : List Prefix} (ordered : NoLaterOuter excepts) :
    ExceptsCut excepts :=
  fun except member _ inside => ⟨except, (cuts_of_noLaterOuter ordered).mpr member, inside⟩

theorem difference_iff {base : Prefix} {excepts cidrs : List Prefix} (valid : base.isValid)
    (inside : ∀ except ∈ excepts, ExceptOf base.masked except)
    (pieces : cidrs.Perm (subtractAll [base.masked] excepts)) :
    Difference base excepts cidrs ↔ ExceptsCut excepts := by
  have covered : ∀ ip, Covered cidrs ip ↔
      base.contains ip ∧ ∀ cut, Cuts excepts cut → ¬ cut.contains ip := fun ip =>
    (covered_congr (fun _ => pieces.mem_iff) ip).trans (covered_subtractAll valid inside ip)
  constructor
  · intro difference except member ip excepted
    by_contra uncut
    have inBase : base.contains ip := by
      rw [← base.contains_masked]
      exact contains_of_prefixContainsPrefix (inside except member).inside excepted
    have left := (covered ip).mpr ⟨inBase, fun cut cuts held => uncut ⟨cut, cuts, held⟩⟩
    exact ((difference.covers ip).mp left).2 except member excepted
  · intro allCut
    refine ⟨?_, fun ip => (covered ip).trans (and_congr_right fun _ => ?_)⟩
    · exact (pieces.pairwise_iff Apart.symm).mpr
        (pairwise_subtractAll (pairwise_singleton _ _) excepts)
    · constructor
      · intro outside except member excepted
        obtain ⟨cut, cuts, held⟩ := allCut except member ip excepted
        exact outside cut cuts held
      · rintro outside cut ⟨before, after, rfl, _⟩
        exact outside cut (by simp)

/-- The excepts of an accepted rule or CIDR group entry are cut out exactly if every excepted
address is in an except that properly includes none before it in the list. The pieces are
disjoint in any case, and every subtraction returns. -/
theorem except_subtraction_exact_iff (group : SecurityGroup) (rule : SecurityGroupRule)
    (ports : List PortRange) (entry : CIDRGroupEntry) (base except : Prefix) :
    (rule.validate = .ok () → rule.remoteCIDR.isValid = true →
      (Difference rule.remoteCIDR rule.exceptCIDRs
        ((expandCIDRExceptRule (baseRule group rule ports) rule.exceptCIDRs).map Rule.remoteCIDR) ↔
          ExceptsCut rule.exceptCIDRs)) ∧
    (entry.validate = .ok () →
      (Difference entry.cidr entry.exceptCIDRs (expandCIDRGroupEntry entry) ↔
        ExceptsCut entry.exceptCIDRs)) ∧
    Subtracts except.masked base (subtractPrefix base except.masked) := by
  refine ⟨fun accepted valid => ?_, fun accepted => ?_, ?_⟩
  · refine difference_iff valid (SecurityGroupRule.accepted_of_validate accepted).excepts ?_
    rw [expandCIDRExceptRule, map_map]
    exact (map_id' _).symm ▸ perm_insertionSort _ _
  · obtain ⟨valid, masked, excepts⟩ := CIDRGroupEntry.of_validate accepted
    exact difference_iff valid (masked.symm ▸ excepts) (.refl _)
  · exact subtracts_subtractPrefix except.masked_masked

/-- Half of 10.0.0.0/24 and all of it, cut out of 10.0.0.0/16. -/
def nestedExcepts : CIDRGroupEntry where
  cidr := Netip.prefixFrom (.v4 0x0A000000) 16
  exceptCIDRs := [Netip.prefixFrom (.v4 0x0A000000) 25, Netip.prefixFrom (.v4 0x0A000000) 24]

/-- The other half of 10.0.0.0/24 is not cut out. -/
theorem nested_except_still_covered : nestedExcepts.validate = .ok () ∧
    Covered (expandCIDRGroupEntry nestedExcepts) (.v4 0x0A000080) ∧
      ∃ except ∈ nestedExcepts.exceptCIDRs, except.contains (.v4 0x0A000080) = true :=
  ⟨rfl, ⟨.v4 ⟨0x0A000080, 25, by omega⟩, by decide, by decide⟩, _, .tail _ (.head _), by decide⟩

theorem larger_except_first :
    let entry := { nestedExcepts with exceptCIDRs := nestedExcepts.exceptCIDRs.reverse }
    Difference entry.cidr entry.exceptCIDRs (expandCIDRGroupEntry entry) :=
  let rule : SecurityGroupRule :=
    { id := "all", priority := 1, direction := .ingress, protocol := .any, action := .allow }
  ((except_subtraction_exact_iff { name := "web", vpc := "prod", rules := [rule] } rule [] _ .invalid
    .invalid).2.1 rfl).mpr (exceptsCut_of_noLaterOuter (by unfold NoLaterOuter; decide))

/-! ### The world -/

/-- The prefix of all addresses of a family. -/
def familyAll : Version → Prefix
  | .v4 => prefix4All
  | .v6 => prefix6All

theorem contains_familyAll {family version : Version} (word : BitVec version.width) :
    (familyAll family).contains (version.addr word) ↔ family = version := by
  cases family <;> cases version <;> simp only [familyAll, reduceCtorEq, iff_false, iff_true]
  · exact (Cidr.contains_iff _ _).mpr fun i below => absurd below (Nat.not_lt_zero i)
  · exact Bool.false_ne_true
  · exact Bool.false_ne_true
  · exact Version.contains_cidr.mpr ⟨word, rfl,
      (Cidr.contains_iff _ _).mpr fun i below => absurd below (Nat.not_lt_zero i)⟩

theorem apart_familyAll {family other : Version} (differ : family ≠ other) :
    Apart (familyAll family) (familyAll other) := by
  have block : ∀ version, ∃ block, familyAll version = version.cidr block := by
    rintro (_ | _) <;> exact ⟨_, rfl⟩
  intro ip inside
  obtain ⟨all, same⟩ := block family
  obtain ⟨word, rfl, _⟩ := Version.contains_cidr.mp (same ▸ inside)
  exact fun held => differ ((contains_familyAll word).mp held).symm

/-- For disjoint subnets of a VPC that has some, the world entity is disjoint prefixes that
cover, of each family asked for, exactly the addresses outside every subnet. A VPC without
subnets has no world. -/
theorem world_is_complement (vpc : String) (index : SubnetIndex) (families : List Version)
    (distinct : families.Nodup) (apart : ((index.lookup vpc).getD []).Pairwise Apart) :
    ((index.lookup vpc).getD [] = [] → worldCIDRs vpc index (families.map familyAll) =
      .error s!"remote entity world requires at least one subnet in vpc {vpc}") ∧
    ((index.lookup vpc).getD [] ≠ [] → ∃ cidrs,
      worldCIDRs vpc index (families.map familyAll) = .ok cidrs ∧ cidrs.Pairwise Apart ∧
      ∀ (version : Version) (word : BitVec version.width), Covered cidrs (version.addr word) ↔
        version ∈ families ∧ ∀ subnet ∈ (index.lookup vpc).getD [],
          ¬ subnet.contains (version.addr word) = true) := by
  refine ⟨fun none => by simp [worldCIDRs, none], fun some => ?_⟩
  generalize cluster_eq : (index.lookup vpc).getD [] = cluster at some apart ⊢
  have isAll : ∀ all ∈ families.map familyAll, all = prefix4All ∨ all = prefix6All := by
    intro all member
    obtain ⟨family, _, rfl⟩ := mem_map.mp member
    cases family
    · exact .inl rfl
    · exact .inr rfl
  have ordered : NoLaterOuter (cluster.map Prefix.masked) := by
    refine pairwise_map.mpr (apart.imp fun {earlier later} apart inner => ?_)
    have word := Prefix.contains_addr (valid_of_prefixContainsPrefix inner)
    have outer := contains_of_prefixContainsPrefix inner word
    rw [Prefix.contains_masked] at word outer
    exact absurd outer (apart _ word)
  refine ⟨sortByString (subtractAll (families.map familyAll) cluster), ?_, ?_,
    fun version word => ?_⟩
  · have nonempty : cluster.isEmpty = false := by simpa using some
    simp only [worldCIDRs, cluster_eq, nonempty, Bool.false_eq_true, if_false]
    rw [worldLoop_eq cluster _ fun all member => fixed_of_all (isAll all member)]
  · refine ((perm_insertionSort _ _).pairwise_iff Apart.symm).mpr (pairwise_subtractAll ?_ _)
    exact pairwise_map.mpr (distinct.imp apart_familyAll)
  · rw [covered_world isAll ordered]
    refine and_congr_left fun _ => ?_
    simp [Covered, contains_familyAll]

/-- The families of the three world entities. -/
example : allCIDRs = [Version.v4, .v6].map familyAll ∧ [prefix4All] = [Version.v4].map familyAll ∧
    [prefix6All] = [Version.v6].map familyAll := ⟨rfl, rfl, rfl⟩

/-- Without a subnet there is no world. -/
theorem world_needs_a_subnet : ¬ ∃ cidrs, worldCIDRs "prod" ∅ allCIDRs = .ok cidrs := by
  rintro ⟨cidrs, returned⟩
  cases returned

/-- The two halves of 10.0.0.0/8. -/
def halves : SubnetIndex := AList.singleton "prod"
  [Netip.prefixFrom (.v4 0x0A000000) 9, Netip.prefixFrom (.v4 0x0A800000) 9]

theorem world_of_two_subnets :
    (∃ cidrs, worldCIDRs "prod" halves allCIDRs = .ok cidrs ∧ cidrs.Pairwise Apart ∧
      ∀ (version : Version) (word : BitVec version.width), Covered cidrs (version.addr word) ↔
        version ∈ [Version.v4, .v6] ∧ ∀ subnet ∈ (halves.lookup "prod").getD [],
          ¬ subnet.contains (version.addr word) = true) ∧
    worldCIDRs "test" halves allCIDRs =
      .error "remote entity world requires at least one subnet in vpc test" := by
  constructor
  · refine (world_is_complement "prod" halves [.v4, .v6] (by simp) ?_).2 (by decide)
    refine pairwise_pair.mpr fun ip first second => ?_
    rcases nested_of_overlap first second with nested | nested <;> exact absurd nested (by decide)
  · exact (world_is_complement "test" halves [.v4, .v6] (by simp) .nil).1 rfl

/-! ### Compaction -/

/-- The rules with a compaction key. -/
def ofKey (key : String) (rules : List Rule) : List Rule :=
  rules.filter fun rule => ruleCompactionKey rule = key

/-- Compaction ends and keeps the addresses of each key. A compacted rule is a rule of its key
with another prefix. If the first rule of a key has no prefix, all its rules are kept; if it
has one, it stands without a prefix for the rules that have none. -/
theorem compaction_keeps_coverage (rules : List Rule) :
    (∀ key ip, Covered ((ofKey key (compactEquivalentCIDRRules rules)).map Rule.remoteCIDR) ip ↔
      Covered ((ofKey key rules).map Rule.remoteCIDR) ip) ∧
    (∀ rule ∈ compactEquivalentCIDRRules rules, ∃ source ∈ rules,
      ruleCompactionKey source = ruleCompactionKey rule ∧ rule = setCIDR source rule.remoteCIDR) ∧
    (∀ key first rest, ofKey key rules = first :: rest →
      (first.remoteCIDR.isValid = false → ofKey key (compactEquivalentCIDRRules rules) = first :: rest) ∧
      ∀ rule ∈ rest, rule.remoteCIDR.isValid = false → first.remoteCIDR.isValid = true →
        setCIDR first rule.remoteCIDR ∈ ofKey key (compactEquivalentCIDRRules rules)) ∧
    ∀ cidrs : List Prefix, 2 ≤ cidrs.length →
      Compacts (sortCIDRs (dedupe cidrs)) (compactCIDRs cidrs) := by
  refine ⟨fun key ip => ?_, fun rule => mem_compactEquivalentCIDRRules, fun key first rest split => ?_,
    fun cidrs several => ?_⟩
  · rw [ofKey, filter_compactEquivalentCIDRRules, ← ofKey]
    cases ofKey key rules with
    | nil => rfl
    | cons template rest =>
      rw [compactRuleGroup]
      split
      · rfl
      · rw [map_map]
        refine (iff_of_eq (congrArg (Covered · ip) (map_id' _))).trans ?_
        refine (compactCIDRs_covered _ ip).trans ?_
        simp [Covered, Prefix.contains_masked]
  · rw [ofKey, filter_compactEquivalentCIDRRules, ← ofKey, split, compactRuleGroup]
    refine ⟨fun invalid => by simp [invalid], fun rule member invalid valid => ?_⟩
    have several : rest.isEmpty = false := by
      cases rest with
      | nil => cases member
      | cons _ _ => rfl
    have none : rule.remoteCIDR = .invalid := by
      cases held : rule.remoteCIDR <;> simp_all [Prefix.isValid]
    simp only [several, valid, Bool.not_true, Bool.or_self, Bool.false_eq_true, if_false, none]
    refine mem_map_of_mem (invalid_mem_compactCIDRs (mem_map.mpr ⟨rule, ?_, ?_⟩))
    · exact mem_cons_of_mem _ member
    · rw [none]
      rfl
  · rw [compactCIDRs, if_neg (by omega)]
    exact compacts_compactPasses _ _ (Nat.lt_succ_self _)

/-- Of two rules with one key, the one without a prefix is lost: a list of names and one name
with a comma have the same key. -/
theorem compaction_loses_a_rule :
    let allow := defaultAllowRule .ingress
    let kept := { allow with namedPorts := ["http", "dns"], remoteCIDR := prefix4All }
    let lost := { allow with namedPorts := ["http,dns"] }
    lost.remoteCIDR.isValid = false ∧ lost ∉ compactEquivalentCIDRRules [kept, lost] := by
  decide

end Netloom.Policy
