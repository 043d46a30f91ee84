import Netloom.Policy.Meaning

/-!
# What a compilation returns

A compilation succeeds only if every attached group and rule does. Its rules
are the expanded and compacted rules of the attached groups and a default-allow
rule for each direction without default deny, and its map entries are those of
its rules.
-/
namespace Netloom.Policy

open Netip (Addr Prefix)
open Model List Checked

/-! ### Default deny -/

/-- No group asks for default deny in the direction, by its setting or by having rules
for it, and some group turns it off. -/
def DefaultDenyDisabled (groups : List SecurityGroup) (direction : Direction) : Prop :=
  (∃ group ∈ groups, defaultDenySetting group direction = some (some false)) ∧
    ∀ group ∈ groups, defaultDenySetting group direction = some (some false) ∨
      (defaultDenySetting group direction = some none ∧
        ∀ rule ∈ group.rules, rule.direction ≠ direction)

variable (direction : Direction)

private theorem defaultDenyDisabledFrom_iff (seen : Bool) (groups : List SecurityGroup) :
    defaultDenyDisabledFrom direction seen groups ↔
      (seen ∨ ∃ group ∈ groups, defaultDenySetting group direction = some (some false)) ∧
        ∀ group ∈ groups, defaultDenySetting group direction = some (some false) ∨
          (defaultDenySetting group direction = some none ∧
            ∀ rule ∈ group.rules, rule.direction ≠ direction) := by
  induction groups generalizing seen with
  | nil => simp [defaultDenyDisabledFrom]
  | cons group rest ih =>
    unfold defaultDenyDisabledFrom
    split
    · next none => simp [none]
    · next off => simp [ih, off]
    · next on => simp [on]
    · next unset =>
      cases has : hasRulesForDirection group.rules direction with
      | true =>
        obtain ⟨rule, member, same⟩ : ∃ rule ∈ group.rules, rule.direction = direction := by
          simpa [hasRulesForDirection] using has
        simp only [if_true, Bool.false_eq_true, false_iff, not_and]
        intro _ all
        have here := all group (by simp)
        simp only [unset, Option.some.injEq, reduceCtorEq, false_or, true_and] at here
        exact here rule member same
      | false =>
        have without : ∀ rule ∈ group.rules, rule.direction ≠ direction := by
          simpa [hasRulesForDirection] using has
        simp only [Bool.false_eq_true, if_false, ih, exists_mem_cons_iff, forall_mem_cons,
          unset, Option.some.injEq, reduceCtorEq, false_or, true_and]
        exact ⟨fun ⟨off, all⟩ => ⟨off, without, all⟩, fun ⟨off, _, all⟩ => ⟨off, all⟩⟩

theorem defaultDenyDisabledForDirection_iff (groups : List SecurityGroup) (direction : Direction) :
    defaultDenyDisabledForDirection groups direction ↔
      DefaultDenyDisabled groups direction := by
  simp [defaultDenyDisabledForDirection, defaultDenyDisabledFrom_iff, DefaultDenyDisabled]

/-- A default-allow rule ranks below every other rule and is about every flow. -/
theorem defaultAllowRule_fields :
    (defaultAllowRule direction).tier = 1 ∧ (defaultAllowRule direction).priority = 0 ∧
      (defaultAllowRule direction).action = .allow ∧
      (defaultAllowRule direction).Addressed ∧
      ∀ flow, (defaultAllowRule direction).Carries flow := by
  have cidr : (defaultAllowRule direction).remoteCIDR = .invalid := rfl
  refine ⟨rfl, rfl, rfl, ⟨rfl, .inr ⟨rfl, rfl, rfl⟩, .inl rfl⟩, fun flow => ⟨?_, .inl rfl, .inl rfl⟩⟩
  rw [cidr]
  intro valid
  simp [Prefix.isValid] at valid

/-! ### Attached rules -/

/-- The groups an endpoint names, in its order. -/
def attachedGroups (endpoint : Endpoint) (groups : SecurityGroups) : List SecurityGroup :=
  endpoint.securityGroups.filterMap groups.lookup

/-- The rules of the groups an endpoint names, each with its group. -/
def attachedRules (endpoint : Endpoint) (groups : SecurityGroups) :
    List (SecurityGroup × SecurityGroupRule) :=
  (attachedGroups endpoint groups).flatMap fun group => group.rules.map fun rule => (group, rule)

/-- The map entries of a list of compiled rules: one per port block, whatever the
identities in their keys. -/
structure EntriesOf (rules : List Rule) (entries : List MapEntry) : Prop where
  sound : ∀ entry ∈ entries, ∃ rule ∈ rules, ∃ localVPC resolver ports, ∃ p ∈ ports,
    l4PortPrefixes rule = .ok ports ∧ entry = mapEntry rule localVPC resolver p
  complete : ∀ rule ∈ rules, ∃ localVPC resolver ports, l4PortPrefixes rule = .ok ports ∧
    ∀ p ∈ ports, mapEntry rule localVPC resolver p ∈ entries

/-- The entries of each pair are those of its rule. -/
private def Own (compiled : Compiled) : Prop :=
  ∀ pair ∈ compiled, ∃ localVPC resolver ports, l4PortPrefixes pair.1 = .ok ports ∧
    pair.2 = ports.map (mapEntry pair.1 localVPC resolver)

variable {compiled : Compiled}

private theorem compileRules_spec {rules : List Rule} {localVPC : String}
    {resolver : IdentityResolver} (returned : compileRules rules localVPC resolver = .ok compiled) :
    compiled.map Prod.fst = rules ∧ Own compiled := by
  constructor
  · have related := (mapM_eq_ok _ _ _).mp returned
    clear returned
    induction related with
    | nil => rfl
    | cons head _ ih =>
      simp only [bind_eq_ok, pure_eq_ok] at head
      obtain ⟨_, _, rfl⟩ := head
      rw [map_cons, ih]
  · intro pair member
    obtain ⟨rule, _, made⟩ := (mem_of_mapM returned).1 pair member
    simp only [compileMapEntries, bind_eq_ok, pure_eq_ok, context_eq_ok] at made
    obtain ⟨_, ⟨ports, portsOk, rfl⟩, rfl⟩ := made
    exact ⟨localVPC, resolver, ports, portsOk, rfl⟩

private theorem entriesOf_sorted (own : Own compiled) :
    EntriesOf (sortRules (compiled.map Prod.fst)) (sortMapEntries (compiled.map Prod.snd).flatten) := by
  refine ⟨fun entry member => ?_, fun rule member => ?_⟩
  · obtain ⟨entries, inEntries, inside⟩ := mem_flatten.mp ((mem_insertionSort _).mp member)
    obtain ⟨pair, found, rfl⟩ := mem_map.mp inEntries
    obtain ⟨localVPC, resolver, ports, portsOk, equal⟩ := own pair found
    rw [equal] at inside
    obtain ⟨p, inPorts, rfl⟩ := mem_map.mp inside
    exact ⟨pair.1, (mem_insertionSort _).mpr (mem_map_of_mem found), localVPC, resolver, ports, p,
      inPorts, portsOk, rfl⟩
  · obtain ⟨pair, found, rfl⟩ := mem_map.mp ((mem_insertionSort _).mp member)
    obtain ⟨localVPC, resolver, ports, portsOk, equal⟩ := own pair found
    refine ⟨localVPC, resolver, ports, portsOk, fun p inPorts => (mem_insertionSort _).mpr ?_⟩
    refine mem_flatten.mpr ⟨pair.2, mem_map_of_mem found, ?_⟩
    rw [equal]
    exact mem_map_of_mem inPorts

/-! ### Rank, direction and action -/

/-- A compiled rule that keeps what orders and decides of the rule it comes from. -/
structure Kept (group : SecurityGroup) (rule : SecurityGroupRule) (compiled : Rule) : Prop where
  tier : compiled.tier = group.tier
  priority : compiled.priority = rule.priority
  direction : compiled.direction = rule.direction
  action : compiled.action = rule.action

section Kept

variable {endpoint : Endpoint} {group : SecurityGroup} {rule : SecurityGroupRule}
  {ports : List PortRange} {rules : List Rule}

private theorem kept_expandEndpointMembers {members : List Endpoint}
    (returned : expandEndpointMembers endpoint (baseRule group rule ports) rule members =
      .ok rules) : ∀ compiled ∈ rules, Kept group rule compiled := by
  intro compiled member
  simp only [expandEndpointMembers] at returned
  obtain ⟨candidate, _, made⟩ := (mem_of_mapM returned).1 compiled member
  split at made
  · simp only [bind_eq_ok, pure_eq_ok] at made
    obtain ⟨ports, _, rfl⟩ := made
    exact ⟨rfl, rfl, rfl, rfl⟩
  · cases made
    exact ⟨rfl, rfl, rfl, rfl⟩

private theorem kept_serviceFrontendRule {frontend : LoadBalancerFrontend} {compiled : Rule}
    (returned : serviceFrontendRule (baseRule group rule ports) frontend = some compiled) :
    Kept group rule compiled := by
  simp only [serviceFrontendRule, Option.ite_none_left_eq_some, Option.some.injEq] at returned
  obtain ⟨_, _, rfl⟩ := returned
  exact ⟨rfl, rfl, rfl, rfl⟩

private theorem kept_expandSelector {indexes : Indexes}
    (returned : expandSelector endpoint (baseRule group rule ports) rule indexes = .ok rules) :
    ∀ compiled ∈ rules, Kept group rule compiled := by
  intro compiled member
  unfold expandSelector at returned
  split at returned
  · cases returned
    obtain ⟨pair, _, rfl⟩ := mem_map.mp member
    exact ⟨rfl, rfl, rfl, rfl⟩
  split at returned
  · simp only [expandEntityRule, bind_eq_ok, pure_eq_ok] at returned
    obtain ⟨pairs, _, rfl⟩ := returned
    obtain ⟨pair, _, rfl⟩ := mem_map.mp member
    exact ⟨rfl, rfl, rfl, rfl⟩
  split at returned
  · unfold expandServiceRule at returned
    split at returned
    · simp at returned
    · simp only [bind_eq_ok, pure_eq_ok] at returned
      obtain ⟨_, _, rfl⟩ := returned
      have inFrontends := (Fold.dedupeBy_spec serviceRuleKey _).1 compiled member
      obtain ⟨frontend, _, made⟩ := mem_filterMap.mp inFrontends
      exact kept_serviceFrontendRule made
  split at returned
  · unfold expandCIDRGroupRule at returned
    split at returned
    · simp at returned
    · cases returned
      obtain ⟨cidr, _, rfl⟩ := mem_map.mp member
      exact ⟨rfl, rfl, rfl, rfl⟩
  split at returned
  · cases returned
    obtain ⟨cidr, _, rfl⟩ := mem_map.mp member
    exact ⟨rfl, rfl, rfl, rfl⟩
  split at returned
  · unfold expandEndpointSelectorRule at returned
    split at returned
    · simp at returned
    · exact kept_expandEndpointMembers returned compiled member
  split at returned
  · cases returned
    obtain rfl := mem_singleton.mp member
    exact ⟨rfl, rfl, rfl, rfl⟩
  split at returned
  · simp at returned
  split at returned
  · simp at returned
  · exact kept_expandEndpointMembers returned compiled member

/-- Every compiled rule of a security-group rule keeps its rank, direction and action. -/
theorem kept_expandRule {indexes : Indexes}
    (returned : expandRule endpoint group rule indexes = .ok rules) :
    ∀ compiled ∈ compactEquivalentCIDRRules rules, Kept group rule compiled := by
  intro compiled member
  simp only [expandRule, bind_eq_ok] at returned
  obtain ⟨ports, _, _, _, returned⟩ := returned
  obtain ⟨source, inRules, _, equal⟩ := mem_compactEquivalentCIDRRules member
  have kept := kept_expandSelector returned source inRules
  rw [equal]
  exact ⟨kept.tier, kept.priority, kept.direction, kept.action⟩

end Kept

/-! ### Programs -/

/-- The rules of a successful compilation, with the indexes they were expanded by. -/
structure CompiledOf (endpoint : Endpoint) (groups : SecurityGroups) (indexes : Indexes)
    (rules : List Rule) : Prop where
  accepted : ∀ group ∈ attachedGroups endpoint groups, group.validate = .ok ()
  expands : ∀ pair ∈ attachedRules endpoint groups, ∃ expanded,
    expandRule endpoint pair.1 pair.2 indexes = .ok expanded
  mem_iff : ∀ rule, rule ∈ rules ↔
    (∃ pair ∈ attachedRules endpoint groups, ∃ expanded,
      expandRule endpoint pair.1 pair.2 indexes = .ok expanded ∧
        rule ∈ compactEquivalentCIDRRules expanded) ∨
    ∃ direction, (direction = .ingress ∨ direction = .egress) ∧
      DefaultDenyDisabled (attachedGroups endpoint groups) direction ∧
      defaultAllowRule direction = rule

section Endpoint

variable {ctx : CompileContext} {clock : Time} {endpoint : Endpoint} {groups : SecurityGroups}
  {indexes : Indexes} {resolver : IdentityResolver} {group : SecurityGroup}

private theorem attachedGroup_spec {name : String}
    (returned : attachedGroup endpoint groups name = .ok group) :
    groups.lookup name = some group ∧ group.validate = .ok () := by
  unfold attachedGroup at returned
  split at returned
  · simp at returned
  · next found looked =>
    simp only [bind_eq_ok, pure_eq_ok] at returned
    obtain ⟨_, _, _, valid, rfl⟩ := returned
    exact ⟨looked, valid⟩

private theorem compileGroup_spec
    (returned : compileGroup endpoint indexes resolver group = .ok compiled) :
    Own compiled ∧
      (∀ rule ∈ group.rules, ∃ expanded, expandRule endpoint group rule indexes = .ok expanded) ∧
      ∀ r, r ∈ compiled.map Prod.fst ↔ ∃ rule ∈ group.rules, ∃ expanded,
        expandRule endpoint group rule indexes = .ok expanded ∧
          r ∈ compactEquivalentCIDRRules expanded := by
  simp only [compileGroup, bind_eq_ok, pure_eq_ok] at returned
  obtain ⟨parts, returned, rfl⟩ := returned
  obtain ⟨sound, complete⟩ := mem_of_mapM returned
  simp only [bind_eq_ok] at sound complete
  refine ⟨fun pair member => ?_, fun rule member => ?_, fun r => ?_⟩
  · obtain ⟨part, inParts, inPart⟩ := mem_flatten.mp member
    obtain ⟨_, _, _, _, partOk⟩ := sound part inParts
    exact (compileRules_spec partOk).2 pair inPart
  · obtain ⟨_, _, expanded, expands, _⟩ := complete rule member
    exact ⟨expanded, expands⟩
  · rw [map_flatten, mem_flatten]
    constructor
    · rintro ⟨_, inMapped, inPart⟩
      obtain ⟨part, inParts, rfl⟩ := mem_map.mp inMapped
      obtain ⟨rule, inGroup, expanded, expands, partOk⟩ := sound part inParts
      rw [(compileRules_spec partOk).1] at inPart
      exact ⟨rule, inGroup, expanded, expands, inPart⟩
    · rintro ⟨rule, inGroup, expanded, expands, inside⟩
      obtain ⟨part, inParts, expanded', expands', partOk⟩ := complete rule inGroup
      obtain rfl := Except.ok.inj (expands.symm.trans expands')
      refine ⟨_, mem_map_of_mem inParts, ?_⟩
      rwa [(compileRules_spec partOk).1]

/-- A compilation is the compilation of the attached rules and the default-allow rules. -/
theorem compiledOf_compileForEndpointWithContext {program : Program}
    (compiled : compileForEndpointWithContext endpoint groups ctx clock = .ok program) :
    endpoint.validate = .ok () ∧ program.endpointIP = endpoint.ip ∧
      EntriesOf program.rules program.mapEntries ∧
      ∃ indexes, buildIndexes endpoint groups ctx clock = .ok indexes ∧
        CompiledOf endpoint groups indexes program.rules := by
  simp only [compileForEndpointWithContext, bind_eq_ok, pure_eq_ok] at compiled
  obtain ⟨_, endpointAccepted, indexes, built, attached, attachedOk, defaults, defaultsOk, rfl⟩ :=
    compiled
  -- The groups compiled are the groups attached.
  have groupsOf : attached.map Prod.fst = attachedGroups endpoint groups := by
    have related := (mapM_eq_ok _ _ _).mp attachedOk
    unfold attachedGroups
    clear attachedOk defaultsOk
    generalize endpoint.securityGroups = names at related ⊢
    induction related with
    | nil => rfl
    | cons head tail ih =>
      simp only [bind_eq_ok, pure_eq_ok] at head
      obtain ⟨group, groupOk, _, _, rfl⟩ := head
      have looked := (attachedGroup_spec groupOk).1
      simp [looked, ih]
  have parts : ∀ pair ∈ attached, pair.1.validate = .ok () ∧ compileGroup endpoint indexes
      (ctx.identityResolver.getD stableIdentity) pair.1 = .ok pair.2 := by
    intro pair member
    obtain ⟨name, _, equal⟩ := (mem_of_mapM attachedOk).1 pair member
    simp only [bind_eq_ok, pure_eq_ok] at equal
    obtain ⟨group, groupOk, part, partOk, rfl⟩ := equal
    exact ⟨(attachedGroup_spec groupOk).2, partOk⟩
  have spec := fun pair member => compileGroup_spec (parts pair member).2
  obtain ⟨defaultRules, ownDefaults⟩ := compileRules_spec defaultsOk
  have own : Own ((attached.map Prod.snd).flatten ++ defaults) := by
    intro entry member
    rcases mem_append.mp member with inAttached | inDefaults
    · obtain ⟨part, inParts, inside⟩ := mem_flatten.mp inAttached
      obtain ⟨pair, found, rfl⟩ := mem_map.mp inParts
      exact (spec pair found).1 entry inside
    · exact ownDefaults entry inDefaults
  have ofAttached : ∀ (P : SecurityGroup → SecurityGroupRule → Prop),
      (∃ pair ∈ attachedRules endpoint groups, P pair.1 pair.2) ↔
        ∃ pair ∈ attached, ∃ rule ∈ pair.1.rules, P pair.1 rule := by
    intro P
    simp only [attachedRules, ← groupsOf, mem_flatMap, mem_map, exists_exists_and_eq_and]
    aesop
  refine ⟨endpointAccepted, rfl, ?_, indexes, built, fun group member => ?_, fun pair member => ?_,
    fun rule => ?_⟩
  · exact entriesOf_sorted own
  · grind
  · obtain ⟨entry, found, rule, inRules, same⟩ :=
      (ofAttached fun group rule => (group, rule) = pair).mp ⟨pair, member, rfl⟩
    exact same ▸ (spec entry found).2.1 rule inRules
  · rw [ofAttached fun group rule => ∃ expanded, expandRule endpoint group rule indexes =
      .ok expanded ∧ _ ∈ compactEquivalentCIDRRules expanded]
    refine (mem_insertionSort _).trans ?_
    rw [map_append, mem_append, defaultRules, groupsOf]
    refine or_congr ?_ (by simp [defaultDenyDisabledForDirection_iff, and_assoc])
    simp only [map_flatten, map_map, mem_flatten, mem_map, exists_exists_and_eq_and,
      Function.comp_apply]
    simp only [← mem_map]
    exact exists_congr fun pair => and_congr_right fun found => (spec pair found).2.2 rule

/-- The attached rules of a compiled endpoint have passed validation. -/
theorem CompiledOf.rule_accepted {rules : List Rule}
    (compiled : CompiledOf endpoint groups indexes rules) :
    ∀ pair ∈ attachedRules endpoint groups,
      (0 ≤ pair.1.tier ∧ pair.1.tier ≤ 1) ∧ pair.2.Accepted := by
  intro pair member
  obtain ⟨group, inGroups, inRules⟩ := mem_flatMap.mp member
  obtain ⟨rule, found, rfl⟩ := mem_map.mp inRules
  obtain ⟨tier, accepted⟩ := SecurityGroup.of_validate (compiled.accepted group inGroups)
  exact ⟨tier, accepted rule found⟩

/-- A compiled rule has one of the four known actions. -/
theorem CompiledOf.known_action {rules : List Rule}
    (compiled : CompiledOf endpoint groups indexes rules) :
    ∀ rule ∈ rules, rule.action = .allow ∨ rule.action = .drop ∨ rule.action = .reject ∨
      rule.action = .log := by
  intro rule member
  rcases (compiled.mem_iff rule).mp member with ⟨pair, inPairs, expanded, expands, inside⟩ |
    ⟨direction, _, _, rfl⟩
  · rw [(kept_expandRule expands rule inside).action]
    exact (compiled.rule_accepted pair inPairs).2.action
  · exact .inl rfl

end Endpoint

end Netloom.Policy
