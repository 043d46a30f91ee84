import Netloom.Dataplane.Encoding
import Netloom.Policy.Carried

/-!
# End-to-end policy semantics

The evaluator, run on the encoded program of an endpoint, decides a packet by
the best attached rule that matches its flow.
-/
namespace Netloom.Dataplane

open Netip (Addr Prefix)
open Model Policy BitVec

/-! ### Precedence -/

private theorem precedence_words (t p : Nat) (smallT : t ≤ 1) (smallP : p ≤ 16384) :
    (BitVec.ofNat 32 t <<< 31 ||| BitVec.ofNat 32 p <<< 1).toNat = t * 2 ^ 31 + p * 2 ∧
      (BitVec.ofNat 32 t <<< 31 ||| BitVec.ofNat 32 p <<< 1 ||| 1).toNat =
        t * 2 ^ 31 + p * 2 + 1 := by
  have high : (BitVec.ofNat 32 t <<< 31).toNat = t <<< 31 := by
    rw [toNat_shiftLeft, toNat_ofNat, Nat.mod_eq_of_lt (by omega : t < 2 ^ 32),
      Nat.mod_eq_of_lt]
    rw [Nat.shiftLeft_eq]
    omega
  have low : (BitVec.ofNat 32 p <<< 1).toNat = p <<< 1 := by
    rw [toNat_shiftLeft, toNat_ofNat, Nat.mod_eq_of_lt (by omega : p < 2 ^ 32),
      Nat.mod_eq_of_lt]
    rw [Nat.shiftLeft_eq]
    omega
  have both : (BitVec.ofNat 32 t <<< 31 ||| BitVec.ofNat 32 p <<< 1).toNat =
      (t <<< 30 + p) <<< 1 := by
    rw [toNat_or, high, low, ← Nat.shiftLeft_add_eq_or_of_lt (by rw [Nat.shiftLeft_eq]; omega)]
    simp only [Nat.shiftLeft_eq]
    omega
  constructor
  · rw [both]
    simp only [Nat.shiftLeft_eq]
    omega
  · rw [toNat_or, both]
    have one : (1 : BitVec 32).toNat = 1 := rfl
    rw [one, ← Nat.shiftLeft_add_eq_or_of_lt (by omega)]
    simp only [Nat.shiftLeft_eq]
    omega

variable {rule : Rule}

/-- The precedence of a rule in numbers: the lower tier first, then the lower priority
number, where zero comes last, then the refusing actions. -/
theorem precedence_toNat (tier : 0 ≤ rule.tier ∧ rule.tier ≤ 1)
    (priority : 0 ≤ rule.priority ∧ rule.priority ≤ securityGroupPriorityMax) :
    (precedence rule).toNat = (1 - rule.tier).toNat * 2 ^ 31 +
      (if rule.priority = 0 then 0 else (16385 - rule.priority).toNat) * 2 +
      (if Denies rule.action then 1 else 0) := by
  have max : securityGroupPriorityMax = 16384 := rfl
  rw [max] at priority
  have clampTier : (if rule.tier < 0 then 0 else if rule.tier > 1 then 1 else rule.tier) =
      rule.tier := by
    rw [if_neg (by omega), if_neg (by omega)]
  have clampPriority : (if rule.priority < 0 then 0 else if rule.priority > 16384 then 16384
      else rule.priority) = rule.priority := by
    rw [if_neg (by omega), if_neg (by omega)]
  have tierWord : BitVec.ofInt 32 (1 - rule.tier) = BitVec.ofNat 32 (1 - rule.tier).toNat := by
    rw [← ofInt_natCast, Int.toNat_of_nonneg (by omega)]
  have scoreWord : BitVec.ofInt 32 (if rule.priority ≠ 0 then 16384 - rule.priority + 1 else 0) =
      BitVec.ofNat 32 (if rule.priority = 0 then 0 else (16385 - rule.priority).toNat) := by
    by_cases zero : rule.priority = 0
    · simp [zero]
    · rw [if_pos zero, if_neg zero, ← ofInt_natCast, Int.toNat_of_nonneg (by omega)]
      congr 1
      omega
  obtain ⟨plain, odd⟩ := precedence_words (1 - rule.tier).toNat
    (if rule.priority = 0 then 0 else (16385 - rule.priority).toNat) (by omega)
    (by split <;> omega)
  simp only [precedence, max, clampTier, clampPriority, tierWord, scoreWord]
  by_cases denies : Denies rule.action
  · have refuses : (decide (rule.action = .drop) || decide (rule.action = .reject)) := by
      simpa [Denies] using denies
    rw [if_pos refuses, odd, if_pos denies]
  · have allows : ¬ (decide (rule.action = .drop) || decide (rule.action = .reject)) := by
      simpa [Denies] using denies
    rw [if_neg allows, plain, if_neg denies]
    omega

/-! ### Flows -/

/-- The compiled rule is about the packet, which belongs to the flow. -/
def AboutPacket (packet : Packet) (flow : Flow) (rule : Rule) : Prop :=
  directionNumber rule.direction = .ok packet.direction ∧ rule.Carries flow

section Programs

variable {host : Endian} {rules : List Rule} {program : Program} {out : List PolicyMapEntry}
  {packet : Packet} {flow : Flow}

private theorem alwaysAllowed_eq_false (carries : packet.Carries flow) :
    alwaysAllowed packet = false := by
  obtain ⟨_, number⟩ := carries.valid
  rcases number with h | h | h <;>
    simp [alwaysAllowed, isIPv4FragmentationNeeded, isIPv6PacketTooBig, isIPv6NeighborDiscovery, h]

/-- The packet is allowed exactly if a rule of greatest precedence among those about it
does not refuse. -/
theorem evaluate_allow_iff_rule (entriesOf : Policy.EntriesOf rules program.mapEntries)
    (addressed : ∀ rule ∈ rules, rule.Addressed)
    (encoded : encodeProgram host program = .ok out) (carries : packet.Carries flow) :
    (evaluate host out packet).verdict = .allow ↔
      ∃ rule ∈ rules, AboutPacket packet flow rule ∧ ¬ Denies rule.action ∧
        ∀ other ∈ rules, AboutPacket packet flow other →
          (precedence other).toNat ≤ (precedence rule).toNat := by
  have valid := carries.valid.1
  obtain ⟨missed, selected⟩ := selectEntry_rule entriesOf encoded
    (fun rule member _ => Plain.of_addressed (addressed rule member)) valid
  have about : ∀ rule ∈ rules, (Meets packet rule ↔ AboutPacket packet flow rule) := by
    intro rule member
    obtain ⟨_, _, ports, portsOk, _⟩ := entriesOf.complete rule member
    exact meets_iff_carries (addressed rule member) portsOk carries
  unfold evaluate
  rw [alwaysAllowed_eq_false carries, if_neg (by simp)]
  cases chosen : selectEntry host out packet with
  | none =>
    grind
  | some best =>
    obtain ⟨rule, leads, verdict⟩ := selected best chosen
    simp only [verdict]
    constructor
    · intro allows
      refine ⟨rule, leads.member, (about rule leads.member).mp leads.found, allows, ?_⟩
      intro other inOthers aboutOther
      exact leads.greatest other inOthers ((about other inOthers).mpr aboutOther)
    · rintro ⟨other, inOthers, aboutOther, allows, top⟩
      have leadsOther : Leads packet rules other := by
        refine ⟨inOthers, (about other inOthers).mpr aboutOther, fun rule' member meets => ?_⟩
        exact top rule' member ((about rule' member).mp meets)
      rwa [leads.denies_iff leadsOther]

end Programs

/-! ### From compiled rules to attached rules -/

/-- A better rule: a smaller tier, then a smaller priority number, then a refusing action. -/
def Outranks (a b : SecurityGroup × SecurityGroupRule) : Prop :=
  a.1.tier < b.1.tier ∨ (a.1.tier = b.1.tier ∧ (a.2.priority < b.2.priority ∨
    (a.2.priority = b.2.priority ∧ Denies a.2.action ∧ ¬ Denies b.2.action)))

/-- What acceptance says of the rank of an attached rule. -/
private structure RankAccepted (pair : SecurityGroup × SecurityGroupRule) : Prop where
  tier : 0 ≤ pair.1.tier ∧ pair.1.tier ≤ 1
  priority : 1 ≤ pair.2.priority ∧ pair.2.priority ≤ securityGroupPriorityMax

private theorem precedence_of_kept {pair : SecurityGroup × SecurityGroupRule}
    (kept : Policy.Kept pair.1 pair.2 rule) (accepted : RankAccepted pair) :
    (precedence rule).toNat = (1 - pair.1.tier).toNat * 2 ^ 31 +
      (16385 - pair.2.priority).toNat * 2 + (if Denies pair.2.action then 1 else 0) := by
  obtain ⟨tier, priority, _, action⟩ := kept
  obtain ⟨tierRange, low, high⟩ := accepted
  rw [precedence_toNat (by rwa [tier]) (by rw [priority]; exact ⟨by omega, high⟩), tier, priority,
    action, if_neg (by omega)]

private theorem outranks_iff {a b : SecurityGroup × SecurityGroupRule} {ruleA ruleB : Rule}
    (keptA : Policy.Kept a.1 a.2 ruleA) (keptB : Policy.Kept b.1 b.2 ruleB)
    (acceptedA : RankAccepted a) (acceptedB : RankAccepted b) :
    Outranks a b ↔ (precedence ruleB).toNat < (precedence ruleA).toNat := by
  rw [precedence_of_kept keptA acceptedA, precedence_of_kept keptB acceptedB]
  obtain ⟨tierA, lowA, highA⟩ := acceptedA
  obtain ⟨tierB, lowB, highB⟩ := acceptedB
  have max : securityGroupPriorityMax = 16384 := rfl
  rw [max] at highA highB
  unfold Outranks
  by_cases denyA : Denies a.2.action <;> by_cases denyB : Denies b.2.action <;>
    simp only [denyA, denyB, if_true, if_false, not_true_eq_false, not_false_eq_true, and_true,
      and_false, or_false] <;> omega

private theorem precedence_defaultAllowRule (direction : Direction) :
    (precedence (defaultAllowRule direction)).toNat = 0 := by
  obtain ⟨tier, priority, action, _⟩ := defaultAllowRule_fields direction
  rw [precedence_toNat (by rw [tier]; decide) (by rw [priority]; decide), tier, priority, action]
  decide

section Attached

variable {ctx : CompileContext} {clock : Time} {endpoint : Endpoint} {groups : SecurityGroups}

/-- The attached rule is about the packet, which belongs to the flow. -/
def RuleMatches (ctx : CompileContext) (clock : Time) (endpoint : Endpoint) (packet : Packet)
    (flow : Flow) (rule : SecurityGroupRule) : Prop :=
  directionNumber rule.direction = .ok packet.direction ∧
    Policy.Matches ctx clock endpoint rule flow

/-- Default deny is off for the direction of the packet. -/
def DefaultAllows (endpoint : Endpoint) (groups : SecurityGroups) (packet : Packet) : Prop :=
  ∃ direction, directionNumber direction = .ok packet.direction ∧
    Policy.DefaultDenyDisabled (attachedGroups endpoint groups) direction

/-- What the rules attached to an endpoint say of a packet: the best of those that match
decides, and without any the default. -/
def PolicyAllows (ctx : CompileContext) (clock : Time) (endpoint : Endpoint)
    (groups : SecurityGroups) (packet : Packet) (flow : Flow) : Prop :=
  (∃ best ∈ attachedRules endpoint groups,
    RuleMatches ctx clock endpoint packet flow best.2 ∧
    (∀ other ∈ attachedRules endpoint groups,
      RuleMatches ctx clock endpoint packet flow other.2 → ¬ Outranks other best) ∧
    (best.2.action = .allow ∨ best.2.action = .log)) ∨
  ((∀ pair ∈ attachedRules endpoint groups,
    ¬ RuleMatches ctx clock endpoint packet flow pair.2) ∧
    DefaultAllows endpoint groups packet)

variable {indexes : Indexes} {rules : List Rule} {packet : Packet} {flow : Flow}
  {pair : SecurityGroup × SecurityGroupRule} {rule : Rule}

section

variable (compiled : CompiledOf endpoint groups indexes rules)
  (compiles : ∀ pair ∈ attachedRules endpoint groups, ∀ expanded,
    expandRule endpoint pair.1 pair.2 indexes = .ok expanded →
    CompilesTo ctx clock endpoint pair.2 (compactEquivalentCIDRRules expanded))

include compiled

private theorem aboutPacket_default (allows : DefaultAllows endpoint groups packet) :
    ∃ direction, defaultAllowRule direction ∈ rules ∧
      AboutPacket packet flow (defaultAllowRule direction) := by
  obtain ⟨direction, number, disabled⟩ := allows
  have known : direction = .ingress ∨ direction = .egress := by
    cases direction with
    | ingress => exact .inl rfl
    | egress => exact .inr rfl
    | other text => simp [directionNumber] at number
  obtain ⟨_, _, _, _, carries⟩ := defaultAllowRule_fields direction
  exact ⟨direction, (compiled.mem_iff _).mpr (.inr ⟨direction, known, disabled, rfl⟩), number,
    carries flow⟩

include compiles

private theorem attached_of_aboutPacket (inRules : rule ∈ rules)
    (about : AboutPacket packet flow rule) :
    (∃ pair ∈ attachedRules endpoint groups,
      RuleMatches ctx clock endpoint packet flow pair.2 ∧ Policy.Kept pair.1 pair.2 rule) ∨
    ((∃ direction, rule = defaultAllowRule direction) ∧
      DefaultAllows endpoint groups packet) := by
  rcases (compiled.mem_iff rule).mp inRules with ⟨pair, inPairs, expanded, expands, inside⟩ |
    ⟨direction, _, disabled, rfl⟩
  · have kept := kept_expandRule expands rule inside
    refine .inl ⟨pair, inPairs, ⟨?_, ?_⟩, kept⟩
    · rw [← kept.direction]
      exact about.1
    · exact ((compiles pair inPairs expanded expands).carried flow).mp ⟨rule, inside, about.2⟩
  · exact .inr ⟨⟨direction, rfl⟩, direction, about.1, disabled⟩

private theorem aboutPacket_of_attached (inPairs : pair ∈ attachedRules endpoint groups)
    (found : RuleMatches ctx clock endpoint packet flow pair.2) :
    ∃ rule ∈ rules, AboutPacket packet flow rule ∧ Policy.Kept pair.1 pair.2 rule := by
  obtain ⟨expanded, expands⟩ := compiled.expands pair inPairs
  obtain ⟨rule, inside, carries⟩ := ((compiles pair inPairs expanded expands).carried flow).mpr found.2
  have kept := kept_expandRule expands rule inside
  refine ⟨rule, (compiled.mem_iff rule).mpr (.inl ⟨pair, inPairs, expanded, expands, inside⟩),
    ⟨?_, carries⟩, kept⟩
  rw [kept.direction]
  exact found.1

end

/-- On the encoded program of an endpoint whose attached rules are address based, the
evaluator allows a tcp, udp or sctp packet exactly if the best attached rule that
matches it is an allow or log rule, or none matches and default deny is off. -/
theorem evaluate_allow_iff_bestRule {host : Endian} {program : Program}
    {entries : List PolicyMapEntry}
    (compiled : compileForEndpointWithContext endpoint groups ctx clock = .ok program)
    (encoded : encodeProgram host program = .ok entries)
    (based : ∀ pair ∈ attachedRules endpoint groups,
      Policy.AddressBased ctx endpoint.vpc pair.2)
    (carries : packet.Carries flow) :
    (evaluate host entries packet).verdict = .allow ↔
      PolicyAllows ctx clock endpoint groups packet flow := by
  obtain ⟨endpointAccepted, _, entriesOf, indexes, built, spec⟩ :=
    compiledOf_compileForEndpointWithContext compiled
  have compiles : ∀ pair ∈ attachedRules endpoint groups, ∀ expanded,
      expandRule endpoint pair.1 pair.2 indexes = .ok expanded →
      CompilesTo ctx clock endpoint pair.2 (compactEquivalentCIDRRules expanded) :=
    fun pair member expanded expands => compilesTo_expandRule endpointAccepted
      (spec.rule_accepted pair member).2 (based pair member) built expands
  have accepted : ∀ pair ∈ attachedRules endpoint groups, RankAccepted pair := fun pair member =>
    ⟨(spec.rule_accepted pair member).1, (spec.rule_accepted pair member).2.priority⟩
  have addressed : ∀ rule ∈ program.rules, rule.Addressed := by
    intro rule member
    rcases (spec.mem_iff rule).mp member with ⟨pair, inPairs, expanded, expands, inside⟩ |
      ⟨direction, _, _, rfl⟩
    · exact (compiles pair inPairs expanded expands).addressed rule inside
    · exact (defaultAllowRule_fields direction).2.2.2.1
  -- An attached rule that matches beats every default-allow rule.
  have positive : ∀ pair ∈ attachedRules endpoint groups, ∀ rule,
      Policy.Kept pair.1 pair.2 rule → 0 < (precedence rule).toNat := by
    intro pair member rule kept
    have high : pair.2.priority ≤ 16384 := (accepted pair member).priority.2
    rw [precedence_of_kept kept (accepted pair member)]
    omega
  rw [evaluate_allow_iff_rule entriesOf addressed encoded carries]
  constructor
  · rintro ⟨rule, inRules, about, allows, top⟩
    rcases attached_of_aboutPacket spec compiles inRules about with ⟨best, inPairs, found, ranks⟩ |
      ⟨⟨direction, rfl⟩, off⟩
    · refine .inl ⟨best, inPairs, found, fun other inOthers foundOther outranks => ?_, ?_⟩
      · obtain ⟨rule', inRules', about', ranks'⟩ := aboutPacket_of_attached spec compiles inOthers
          foundOther
        have := (outranks_iff ranks' ranks (accepted other inOthers) (accepted best inPairs)).mp outranks
        exact absurd (top rule' inRules' about') (by omega)
      · rw [ranks.action] at allows
        rcases (spec.rule_accepted best inPairs).2.action with h | h | h | h
        · exact .inl h
        · exact absurd (.inl h) allows
        · exact absurd (.inr h) allows
        · exact .inr h
    · refine .inr ⟨fun pair inPairs found => ?_, off⟩
      obtain ⟨rule', inRules', about', ranks'⟩ := aboutPacket_of_attached spec compiles inPairs found
      have := top rule' inRules' about'
      rw [precedence_defaultAllowRule] at this
      exact absurd (positive pair inPairs rule' ranks') (by omega)
  · rintro (⟨best, inPairs, found, top, allows⟩ | ⟨none, off⟩)
    · obtain ⟨rule, inRules, about, ranks⟩ := aboutPacket_of_attached spec compiles inPairs found
      refine ⟨rule, inRules, about, ?_, fun other inOthers aboutOther => ?_⟩
      · rw [ranks.action]
        rintro (drop | reject)
        · rcases allows with h | h <;> simp [h] at drop
        · rcases allows with h | h <;> simp [h] at reject
      · rcases attached_of_aboutPacket spec compiles inOthers aboutOther with
          ⟨pair, inPairs', found', ranks'⟩ | ⟨⟨direction, rfl⟩, _⟩
        · have := mt (outranks_iff ranks' ranks (accepted pair inPairs') (accepted best inPairs)).mpr
            (top pair inPairs' found')
          omega
        · rw [precedence_defaultAllowRule]
          exact Nat.zero_le _
    · obtain ⟨direction, inRules, about⟩ := aboutPacket_default spec off
      refine ⟨_, inRules, about, ?_, fun other inOthers aboutOther => ?_⟩
      · rw [(defaultAllowRule_fields direction).2.2.1]
        decide
      · rcases attached_of_aboutPacket spec compiles inOthers aboutOther with
          ⟨pair, inPairs', found', _⟩ | ⟨⟨direction', rfl⟩, _⟩
        · exact absurd found' (none pair inPairs')
        · rw [precedence_defaultAllowRule, precedence_defaultAllowRule]

end Attached

/-! ### A rule with a service -/

/-- The service `api` at 10.96.0.10, tcp port 443. -/
def apiService : LoadBalancer where
  name := "api"
  vpc := "prod"
  vip := .v4 0x0a60000a
  ports := [{
    name := "https", port := 443, protocol := .tcp
    backends := [{ ip := .v4 0x0a000003, port := 8443, healthy := none }] }]
  healthCheck := {
    enabled := false, interval := 0, timeout := 0, successCount := 0, failureCount := 0 }

/-- Allows tcp on every port to the service. -/
def apiRule : SecurityGroupRule where
  id := "to-api"
  priority := 100
  direction := .egress
  protocol := .tcp
  remoteService := "api"
  ports := [{ fromPort := 1, toPort := 65535 }]
  action := .allow

def apiGroup : SecurityGroup where
  name := "clients"
  vpc := "prod"
  rules := [apiRule]

def apiClient : Endpoint where
  id := "client"
  vpc := "prod"
  subnet := "net"
  ip := .v4 0x0a000002
  node := "node-1"
  securityGroups := ["clients"]

def apiGroups : SecurityGroups := AList.singleton "clients" apiGroup

def apiContext : CompileContext := { services := [apiService] }

def apiFlow (port : BitVec 16) : Flow := ⟨.v4 0x0a60000a, .tcp, port, rfl, rfl⟩

def apiPacket (port : BitVec 16) : Packet where
  sourcePort := 40000
  remoteIP := .v4 0x0a60000a
  direction := directionEgress
  protocol := 6
  destPort := port
  bytes := 60

/-- The verdict of compilation, encoding and evaluation in a row. -/
def apiVerdict (port : BitVec 16) : Except String Verdict := do
  let program ← compileForEndpointWithContext apiClient apiGroups apiContext 0
  let entries ← encodeProgram .little program
  pure (evaluate .little entries (apiPacket port)).verdict

private theorem attachedRules_api :
    attachedRules apiClient apiGroups = [(apiGroup, apiRule)] := rfl

/-- On a port without frontend the only attached rule, which allows tcp on every port to
the address of the service, does not let the packet through. -/
theorem apiVerdict_otherPort : apiVerdict 8080 = .ok .drop ∧
    attachedRules apiClient apiGroups = [(apiGroup, apiRule)] ∧
    apiRule.action = .allow ∧ directionNumber apiRule.direction = .ok (apiPacket 8080).direction ∧
    protocolNumber apiRule.protocol = .ok (apiPacket 8080).protocol ∧
    portRangesContain apiRule.ports (apiPacket 8080).destPort = true ∧
    apiService ∈ apiContext.services ∧ apiService.name = apiRule.remoteService ∧
    (apiPacket 8080).remoteIP = apiService.vip :=
  ⟨by decide +kernel, attachedRules_api, rfl, rfl, rfl, by decide, List.mem_singleton.mpr rfl, rfl,
    rfl⟩

theorem evaluate_allow_iff_bestRule_api : ∃ program entries,
    compileForEndpointWithContext apiClient apiGroups apiContext 0 = .ok program ∧
    encodeProgram .little program = .ok entries ∧
    ((evaluate .little entries (apiPacket 443)).verdict = .allow ↔
      PolicyAllows apiContext 0 apiClient apiGroups (apiPacket 443) (apiFlow 443)) := by
  have runs : apiVerdict 443 = .ok .allow := by decide +kernel
  simp only [apiVerdict, Checked.bind_eq_ok] at runs
  obtain ⟨program, compiled, entries, encoded, _⟩ := runs
  refine ⟨program, entries, compiled, encoded,
    evaluate_allow_iff_bestRule compiled encoded ?_ ⟨rfl, rfl, rfl⟩⟩
  intro pair member
  rw [attachedRules_api, List.mem_singleton] at member
  subst member
  exact ⟨.inr rfl, rfl, rfl, .nil, fun named => absurd rfl named, by simp [apiRule]⟩

/-! ### Default deny -/

/-- Whatever the selectors of the rules, a packet is let through only if it always is, if an
attached rule of its direction does not refuse, or if a group turns default deny off. -/
theorem allowed_only_by_attached {ctx : CompileContext} {clock : Time} {endpoint : Endpoint}
    {groups : SecurityGroups} {program : Program} {host : Endian} {entries : List PolicyMapEntry}
    (compiled : compileForEndpointWithContext endpoint groups ctx clock = .ok program)
    (encoded : encodeProgram host program = .ok entries) (packet : Packet)
    (allowed : (evaluate host entries packet).verdict = .allow) :
    alwaysAllowed packet ∨ ∃ direction, directionNumber direction = .ok packet.direction ∧
      ((∃ pair ∈ attachedRules endpoint groups, pair.2.direction = direction ∧
        (pair.2.action = .allow ∨ pair.2.action = .log)) ∨
      DefaultDenyDisabled (attachedGroups endpoint groups) direction) := by
  obtain ⟨_, _, entriesOf, _, _, spec⟩ := compiledOf_compileForEndpointWithContext compiled
  rcases (evaluate_allow_iff host entries packet).mp allowed with always |
    ⟨entry, member, applies, allows, _⟩
  · exact .inl always
  obtain ⟨rule, inRules, _, _, _, _, _, _, encodes⟩ := encoded_of_mem entriesOf encoded member
  have goes := direction_of_encodeEntry encodes
  rw [direction_of_entryMatches applies] at goes
  refine .inr ⟨rule.direction, goes, ?_⟩
  rcases (spec.mem_iff rule).mp inRules with ⟨pair, inPairs, _, expands, inside⟩ |
    ⟨direction, _, disabled, rfl⟩
  · have kept := kept_expandRule expands rule inside
    refine .inl ⟨pair, inPairs, kept.direction.symm, ?_⟩
    have known := (spec.rule_accepted pair inPairs).2.action
    rw [← kept.action] at known ⊢
    -- An entry that does not refuse comes from a rule that does not.
    simp only [encodeEntry, Checked.bind_eq_ok, Checked.pure_eq_ok] at encodes
    obtain ⟨_, _, _, _, rfl⟩ := encodes
    rcases known with h | h | h | h <;> simp_all [entryVerdict, mapEntry, boolByte]
  · exact .inr disabled

theorem allowed_only_by_attached_api : ∃ direction,
    directionNumber direction = .ok (apiPacket 443).direction ∧
      ((∃ pair ∈ attachedRules apiClient apiGroups, pair.2.direction = direction ∧
        (pair.2.action = .allow ∨ pair.2.action = .log)) ∨
      DefaultDenyDisabled (attachedGroups apiClient apiGroups) direction) := by
  have runs : apiVerdict 443 = .ok .allow := by decide +kernel
  simp only [apiVerdict, Checked.bind_eq_ok, Checked.pure_eq_ok] at runs
  obtain ⟨_, compiled, _, encoded, allowed⟩ := runs
  exact (allowed_only_by_attached compiled encoded _ allowed).resolve_left (by decide)

end Netloom.Dataplane
