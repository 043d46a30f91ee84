import Netloom.Dataplane.Tcx

/-!
# What the TCX projection returns

A projection adds candidate rules to a list one after the other, one candidate
per port block of each projected rule of the direction. The functions of the
source that run over rules, port ranges and blocks are one loop over these
candidates.
-/
namespace Netloom.Dataplane

open Netip (Addr Prefix prefixFrom)
open Model List Checked
open Policy (Rule Program PortBlock)

/-! ### Candidates -/

/-- The port blocks of a rule with a concrete protocol. -/
def tcxBlocks (rule : Rule) : List PortBlock :=
  if rule.protocol = .icmp then [icmpTCXMatch rule]
  else if rule.ports.isEmpty then [{ port := 0, prefixBits := 0 }]
  else rule.ports.flatMap fun port => splitTCXPortRange port.fromPort port.toPort

/-- The rule is about the family: concrete protocol, prefix of the family, TCX action. -/
structure ProjectsTo (family : Family) (rule : Rule) (protocol : BitVec 8) (action : Int)
    (sourceCIDR : Prefix) : Prop where
  number : familyProtocolNumber family rule.protocol = .ok protocol
  projected : projectedProtocol family protocol = true
  action : tcxAction rule.action = some action
  source : familyPrefix family rule.remoteCIDR = some sourceCIDR

/-- The rules a policy rule is projected to. -/
def candidates (family : Family) (program : Program) (rule : Rule) : List L4ACLRule :=
  match familyProtocolNumber family rule.protocol, tcxAction rule.action,
      familyPrefix family rule.remoteCIDR with
  | .ok protocol, some action, some sourceCIDR =>
    if projectedProtocol family protocol then
      (tcxBlocks rule).map (projectedRule family program rule sourceCIDR protocol action)
    else []
  | _, _, _ => []

variable {family : Family} {program : Program} {rule : Rule} {x : L4ACLRule}

theorem mem_candidates :
    x ∈ candidates family program rule ↔ ∃ protocol action sourceCIDR,
      ProjectsTo family rule protocol action sourceCIDR ∧ ∃ block ∈ tcxBlocks rule,
        x = projectedRule family program rule sourceCIDR protocol action block := by
  unfold candidates
  constructor
  · intro member
    split at member
    · next protocol action sourceCIDR number acts source =>
      split at member
      · next projected =>
        obtain ⟨block, inBlocks, rfl⟩ := mem_map.mp member
        exact ⟨protocol, action, sourceCIDR, ⟨number, projected, acts, source⟩, block, inBlocks, rfl⟩
      · simp at member
    · simp at member
  · rintro ⟨protocol, action, sourceCIDR, ⟨number, projected, acts, source⟩, block, inBlocks, rfl⟩
    simp only [number, acts, source, projected, if_true]
    exact mem_map_of_mem inBlocks

variable {protocol : BitVec 8} {sourceCIDR : Prefix}

theorem candidates_eq_map {action : Int} (is : ProjectsTo family rule protocol action sourceCIDR) :
    candidates family program rule =
      (tcxBlocks rule).map (projectedRule family program rule sourceCIDR protocol action) := by
  simp [candidates, is.number, is.action, is.source, is.projected]

theorem candidates_eq_nil
    (none : ∀ protocol action sourceCIDR, ¬ ProjectsTo family rule protocol action sourceCIDR) :
    candidates family program rule = [] := by
  apply eq_nil_iff_forall_not_mem.mpr
  intro x member
  obtain ⟨protocol, action, sourceCIDR, is, _⟩ := mem_candidates.mp member
  exact none protocol action sourceCIDR is

/-- The candidates of a program for a direction, in the order of its rules. -/
def programCandidates (family : Family) (direction : Direction) (program : Program) :
    List L4ACLRule :=
  (program.rules.filter fun rule => rule.direction = direction).flatMap (candidates family program)

theorem mem_programCandidates {direction : Direction} :
    x ∈ programCandidates family direction program ↔
      ∃ rule ∈ program.rules, rule.direction = direction ∧ x ∈ candidates family program rule := by
  simp [programCandidates, and_assoc]

/-! ### One loop over the candidates -/

/-- A rule the projection does not refuse. -/
structure Supported (family : Family) (rule : Rule) : Prop where
  number : ∃ protocol, familyProtocolNumber family rule.protocol = .ok protocol
  endpoint : ∀ protocol, familyProtocolNumber family rule.protocol = .ok protocol →
    projectedProtocol family protocol = true → rule.remoteCIDR.isValid = true →
    validateL4ACLRuleSupport family rule = .ok ()
  ports : ∀ protocol action sourceCIDR, ProjectsTo family rule protocol action sourceCIDR →
    if rule.protocol = .icmp then rule.ports = []
    else ∀ port ∈ rule.ports, port.validate = .ok ()

theorem familyPrefix_eq_some {cidr : Prefix} : familyPrefix family cidr = some sourceCIDR ↔
    cidr.isValid ∧ family.has cidr.addr ∧ cidr.masked = sourceCIDR := by
  simp [familyPrefix, and_assoc]

theorem eq_icmp_iff {protocol : Protocol} {number : BitVec 8}
    (returned : familyProtocolNumber family protocol = .ok number) :
    number = family.icmp ↔ protocol = .icmp := by
  cases family <;> cases protocol <;>
    simp_all [familyProtocolNumber, protocolNumber, Family.icmp] <;> subst returned <;> decide

/-- The loop over ports and blocks is one loop over the blocks of the rule. -/
private theorem appendBlocks_eq_ok {start finish : List L4ACLRule} {icmp : BitVec 8}
    (refusal : String) (isIcmp : protocol = icmp ↔ rule.protocol = .icmp)
    (append : List L4ACLRule → PortBlock → Except String (List L4ACLRule)) :
    (if protocol = icmp then
        if !rule.ports.isEmpty then .error refusal else append start (icmpTCXMatch rule)
      else if rule.ports.isEmpty then append start { port := 0, prefixBits := 0 }
      else rule.ports.foldlM (fun rules port => do
        port.validate
        (splitTCXPortRange port.fromPort port.toPort).foldlM append rules) start) = .ok finish ↔
      (if rule.protocol = .icmp then rule.ports = []
        else ∀ port ∈ rule.ports, port.validate = .ok ()) ∧
      (tcxBlocks rule).foldlM append start = .ok finish := by
  unfold tcxBlocks
  by_cases icmp : rule.protocol = .icmp
  · rw [if_pos (isIcmp.mpr icmp)]
    cases ports : rule.ports with
    | nil => simp [icmp]
    | cons first rest => simp [icmp]
  · rw [if_neg (mt isIcmp.mp icmp)]
    by_cases empty : rule.ports = []
    · simp [icmp, empty]
    · have notEmpty : rule.ports.isEmpty = false := by simpa using empty
      simp only [icmp, notEmpty, Bool.false_eq_true, if_false]
      exact foldlM_flatMap PortRange.validate _ append rule.ports start finish

/-- A rule that projects to nothing is refused for its protocol or remote endpoint only. -/
private theorem supported_of_none
    (number : familyProtocolNumber family rule.protocol = .ok protocol)
    (none : ∀ protocol action sourceCIDR, ¬ ProjectsTo family rule protocol action sourceCIDR) :
    Supported family rule ↔ (projectedProtocol family protocol →
      rule.remoteCIDR.isValid → validateL4ACLRuleSupport family rule = .ok ()) := by
  constructor
  · intro supported
    exact supported.endpoint protocol number
  · intro endpoint
    refine ⟨⟨protocol, number⟩, fun p is => ?_, fun p action source is => absurd is (none _ _ _)⟩
    obtain rfl := Except.ok.inj (number.symm.trans is)
    exact endpoint

theorem appendL4ACLRule_eq_ok (family : Family) (program : Program) (rules out : List L4ACLRule)
    (rule : Rule) :
    appendL4ACLRule family program rules rule = .ok out ↔ Supported family rule ∧
      (candidates family program rule).foldlM (appendProjectedRule family) rules = .ok out := by
  unfold appendL4ACLRule
  cases number : familyProtocolNumber family rule.protocol with
  | error message =>
    simp only [bind_eq_ok, reduceCtorEq, false_and, exists_false, false_iff, not_and]
    rintro ⟨⟨protocol, returned⟩, _, _⟩
    simp [number] at returned
  | ok protocol =>
    simp only [bind_eq_ok, Except.ok.injEq, exists_eq_left']
    by_cases some : ∃ action sourceCIDR, ProjectsTo family rule protocol action sourceCIDR
    · obtain ⟨action, sourceCIDR, is⟩ := some
      have valid := (familyPrefix_eq_some.mp is.source).1
      have only : Supported family rule ↔ validateL4ACLRuleSupport family rule = .ok () ∧
          (if rule.protocol = .icmp then rule.ports = []
            else ∀ port ∈ rule.ports, port.validate = .ok ()) := by
        constructor
        · intro supported
          exact ⟨supported.endpoint protocol number is.projected valid, supported.ports _ _ _ is⟩
        · rintro ⟨endpoint, ports⟩
          exact ⟨⟨protocol, number⟩, fun _ _ _ _ => endpoint, fun _ _ _ _ => ports⟩
      rw [candidates_eq_map is, only, foldlM_map, and_assoc, ← appendBlocks_eq_ok
        (family.icmpText ++ " TCX ACL does not support destination ports") (eq_icmp_iff number)]
      simp only [is.projected, valid, is.action, is.source, Bool.not_true, Bool.false_eq_true,
        if_false, bind_eq_ok]
      constructor
      · rintro ⟨_, endpoint, blocks⟩
        exact ⟨endpoint, blocks⟩
      · rintro ⟨endpoint, blocks⟩
        exact ⟨(), endpoint, blocks⟩
    · have none : ∀ p action sourceCIDR, ¬ ProjectsTo family rule p action sourceCIDR := by
        intro p action sourceCIDR is
        obtain rfl := Except.ok.inj (number.symm.trans is.number)
        exact some ⟨action, sourceCIDR, is⟩
      rw [candidates_eq_nil none, supported_of_none number none]
      simp only [foldlM_nil, pure_eq_ok]
      split
      · next other =>
        simp only [Bool.not_eq_true'] at other
        simp [other]
      next projected =>
      split
      · next invalid =>
        simp only [Bool.not_eq_true'] at invalid
        simp [invalid]
      next valid =>
      simp only [Bool.not_eq_true', Bool.not_eq_false] at projected valid
      simp only [projected, valid, forall_const, bind_eq_ok]
      -- Without action or prefix of the family only the endpoint check is left.
      constructor
      · rintro ⟨_, endpoint, result⟩
        split at result
        · next action sourceCIDR acts source =>
          exact absurd ⟨number, projected, acts, source⟩ (none protocol action sourceCIDR)
        · exact ⟨endpoint, by simpa using result⟩
      · rintro ⟨endpoint, rfl⟩
        refine ⟨(), endpoint, ?_⟩
        split
        · next action sourceCIDR acts source =>
          exact absurd ⟨number, projected, acts, source⟩ (none protocol action sourceCIDR)
        · rfl

theorem appendL4ACLRulesFromProgram_eq_ok (family : Family) (direction : Direction)
    (rules out : List L4ACLRule) (program : Program) :
    appendL4ACLRulesFromProgram family direction rules program = .ok out ↔
      (∀ rule ∈ program.rules, rule.direction = direction → Supported family rule) ∧
      (programCandidates family direction program).foldlM (appendProjectedRule family) rules =
        .ok out := by
  unfold appendL4ACLRulesFromProgram programCandidates
  induction program.rules generalizing rules with
  | nil => simp
  | cons rule rest ih =>
    by_cases wanted : rule.direction = direction
    · simp only [foldlM_cons, bind_eq_ok, wanted, ne_eq, not_true_eq_false, if_false,
        context_eq_ok, appendL4ACLRule_eq_ok, ih, forall_mem_cons, forall_const,
        decide_true, filter_cons_of_pos, flatMap_cons, foldlM_append]
      grind
    · simp only [foldlM_cons, bind_eq_ok, wanted, ne_eq, not_false_eq_true, if_true,
        pure_eq_ok, exists_eq_left', ih, forall_mem_cons, false_implies, true_and,
        decide_false, Bool.false_eq_true, filter_cons_of_neg]

/-- The checks at the end of a projection: some rule refuses. -/
theorem checkProjection_eq_ok (family : Family) (owner : String) (direction : Direction)
    (rules out : List L4ACLRule) :
    checkProjection family owner direction rules = .ok out ↔
      rules = out ∧ hasEnforcingTCXRule rules := by
  simp only [checkProjection, bind_eq_ok, require_eq_ok, pure_eq_ok]
  constructor
  · rintro ⟨_, _, _, enforcing, same⟩
    exact ⟨same, enforcing⟩
  · rintro ⟨same, enforcing⟩
    refine ⟨(), ?_, (), enforcing, same⟩
    cases rules with
    | nil => simp [hasEnforcingTCXRule] at enforcing
    | cons first rest => rfl

/-! ### One candidate -/

/-- A projected rule stays in the list when the candidate is added. -/
def keptBeside (candidate existing : L4ACLRule) : Bool :=
  !(ruleCovers candidate existing && candidate.precedence > existing.precedence)

variable {candidate : L4ACLRule} {existing : L4ACLRule}

/-- Merging keeps one of the two rules, up to the log flag. -/
theorem mergeTCXRule_eq_ok {merged : L4ACLRule}
    (returned : mergeTCXRule existing candidate = .ok merged) :
    merged = { existing with log := merged.log } ∨ merged = { candidate with log := merged.log } := by
  unfold mergeTCXRule at returned
  split at returned
  · simp only [bind_eq_ok, pure_eq_ok] at returned
    obtain ⟨_, _, rfl⟩ := returned
    exact .inl rfl
  split at returned
  · cases returned
    exact .inr rfl
  · cases returned
    exact .inl rfl

/-- The source takes the two rules for one. -/
def sameEntry (family : Family) (existing candidate : L4ACLRule) : Bool :=
  existing.key family = candidate.key family && existing.precedence = candidate.precedence

/-- The listed rule covers the candidate with at least its precedence. -/
def shadows (existing candidate : L4ACLRule) : Bool :=
  ruleCovers existing candidate && existing.precedence ≥ candidate.precedence

/-- The listed rule that the candidate is merged into, if the loop comes that far. -/
def mergedInto (family : Family) (rules : List L4ACLRule) (candidate : L4ACLRule) :
    Option L4ACLRule :=
  (rules.find? fun existing => sameEntry family existing candidate || shadows existing candidate).filter
    fun existing => sameEntry family existing candidate

/-- The ways a candidate is dealt with: it is merged into a listed rule, a listed rule shadows
it, or it is added behind the rules it does not replace. -/
inductive Appended (family : Family) (candidate : L4ACLRule) :
    List L4ACLRule → List L4ACLRule → Prop where
  | merged (before after : List L4ACLRule) {existing stays : L4ACLRule}
      (into : mergedInto family (before ++ existing :: after) candidate = some existing)
      (merges : mergeTCXRule existing candidate = .ok stays) :
      Appended family candidate (before ++ existing :: after)
        (before.filter (keptBeside candidate) ++ stays :: after)
  | shadowed (before after : List L4ACLRule) {existing : L4ACLRule}
      (hides : shadows existing candidate) :
      Appended family candidate (before ++ existing :: after)
        (before.filter (keptBeside candidate) ++ existing :: after)
  | added {rules : List L4ACLRule} (free : ∀ existing ∈ rules, shadows existing candidate = false) :
      Appended family candidate rules (rules.filter (keptBeside candidate) ++ [candidate])

variable {out : List L4ACLRule}

private theorem Appended.cons {rest : List L4ACLRule}
    (other : sameEntry family existing candidate = false)
    (uncovered : shadows existing candidate = false) (appended : Appended family candidate rest out) :
    Appended family candidate (existing :: rest)
      ([existing].filter (keptBeside candidate) ++ out) := by
  have goesOn : ∀ rules, mergedInto family (existing :: rules) candidate =
      mergedInto family rules candidate := by
    simp [mergedInto, other, uncovered]
  cases appended with
  | merged before after into merges =>
    have step := Appended.merged (existing :: before) after ((goesOn _).trans into) merges
    cases kept : keptBeside candidate existing <;> simpa [kept] using step
  | shadowed before after hides =>
    have step : Appended family candidate _ _ := .shadowed (existing :: before) after hides
    cases kept : keptBeside candidate existing <;> simpa [kept] using step
  | added free =>
    have step : Appended family candidate (existing :: rest) _ :=
      .added (forall_mem_cons.mpr ⟨uncovered, free⟩)
    cases kept : keptBeside candidate existing <;> simpa [kept] using step

variable {rules : List L4ACLRule}

theorem appended_of_appendProjectedRule
    (returned : appendProjectedRule family rules candidate = .ok out) :
    Appended family candidate rules out := by
  induction rules generalizing out with
  | nil =>
    cases returned
    exact .added (by simp)
  | cons existing rest ih =>
    rw [appendProjectedRule, ← sameEntry, ← shadows] at returned
    split at returned
    · next same =>
      simp only [bind_eq_ok, pure_eq_ok] at returned
      obtain ⟨merged, merges, rfl⟩ := returned
      exact .merged [] rest (by simp [mergedInto, same]) merges
    next other =>
    split at returned
    · next hides =>
      cases returned
      exact .shadowed [] rest hides
    next uncovered =>
    have step := fun tail returned =>
      Appended.cons (by simpa using other) (by simpa using uncovered) (@ih tail returned)
    split at returned
    · next replaced => simpa [keptBeside, replaced] using step _ returned
    · next beside =>
      simp only [bind_eq_ok, pure_eq_ok] at returned
      obtain ⟨tail, returned, rfl⟩ := returned
      simpa [keptBeside, beside] using step _ returned

variable {P : L4ACLRule → Prop}

/-- What holds of every candidate whatever its log flag holds of every projected rule. -/
theorem Appended.forall (appended : Appended family candidate rules out)
    (setLog : ∀ x log, P x → P { x with log }) (all : ∀ x ∈ rules, P x) (holds : P candidate) :
    ∀ x ∈ out, P x := by
  intro x member
  cases appended with
  | @merged before after existing stays _ merges =>
    rcases mem_append.mp member with earlier | later
    · exact all x (mem_append_left _ (mem_of_mem_filter earlier))
    rcases mem_cons.mp later with rfl | last
    · rcases mergeTCXRule_eq_ok merges with equal | equal
      · rw [equal]
        exact setLog _ _ (all existing (by simp))
      · rw [equal]
        exact setLog _ _ holds
    · exact all x (by simp [last])
  | shadowed | added =>
    grind

theorem forall_of_foldlM_append {cands : List L4ACLRule} (setLog : ∀ x log, P x → P { x with log })
    (holds : ∀ x ∈ cands, P x) (all : ∀ x ∈ rules, P x)
    (returned : cands.foldlM (appendProjectedRule family) rules = .ok out) : ∀ x ∈ out, P x := by
  induction cands generalizing rules with
  | nil =>
    cases returned
    exact all
  | cons candidate rest ih =>
    simp only [foldlM_cons, bind_eq_ok] at returned
    obtain ⟨next, stepped, returned⟩ := returned
    refine ih (fun x later => holds x (mem_cons_of_mem _ later)) ?_ returned
    exact (appended_of_appendProjectedRule stepped).forall setLog all (holds candidate (by simp))

end Netloom.Dataplane
