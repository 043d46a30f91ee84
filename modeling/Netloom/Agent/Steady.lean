import Netloom.Policy.Compiled
import Netloom.Agent.Reconciled

/-!
# The same state again

A run with the same state and options as the one before is to leave connections and
attachments alone. Whether it does hangs on the texts of the compiled programs: they
are compared, and a pointer in them prints as an address.
-/
namespace Netloom.Agent

open Model (Time Endpoint endpointKey)
open Dataplane (InMemoryPolicyStore InMemoryConntrackStore ConntrackKey)
open Control (DesiredState)
open Stateful List Fold CompiledProgram Policy

/-! ### Texts without addresses -/

/-- No rule of the program has a pointer. -/
def Plain (program : Program) : Prop :=
  ∀ rule ∈ program.rules, rule.icmpType = none ∧ rule.icmpCode = none

theorem ruleText_of_plain {rule : Rule} (plain : rule.icmpType = none ∧ rule.icmpCode = none)
    (first second : Nat) : ruleText first rule = ruleText second rule := by
  rw [ruleText, ruleText, plain.1, plain.2]
  rfl

theorem map_ruleText_of_plain {program : Program} (plain : Plain program) (first second : Nat) :
    program.rules.map (ruleText first) = program.rules.map (ruleText second) :=
  map_congr_left fun rule listed => ruleText_of_plain (plain rule listed) first second

/-- Texts of different compilations agree only on rules without pointers. -/
theorem eq_of_ruleText_eq {first second : Nat} (differ : first ≠ second) {rule rule' : Rule}
    (same : ruleText first rule = ruleText second rule') :
    rule = rule' ∧ rule.icmpType = none ∧ rule.icmpCode = none := by
  rw [ruleText, ruleText, RuleText.mk.injEq] at same
  obtain ⟨rest, icmpType, icmpCode⟩ := same
  have unset : ∀ a b : Option (BitVec 8), (a.map fun _ => first) = (b.map fun _ => second) →
      a = none ∧ b = none := by
    rintro (_ | a) (_ | b) mapped
    · exact ⟨rfl, rfl⟩
    · cases mapped
    · cases mapped
    · exact absurd (Option.some.inj mapped) differ
  obtain ⟨noType, noType'⟩ := unset _ _ icmpType
  obtain ⟨noCode, noCode'⟩ := unset _ _ icmpCode
  refine ⟨?_, noType, noCode⟩
  obtain ⟨_, _⟩ := rule
  obtain ⟨_, _⟩ := rule'
  simp only at noType noType' noCode noCode'
  subst noType noType' noCode noCode'
  exact rest

theorem eq_of_map_ruleText_eq {first second : Nat} (differ : first ≠ second) {rules rules' : List Rule}
    (same : rules.map (ruleText first) = rules'.map (ruleText second)) :
    rules = rules' ∧ ∀ rule ∈ rules, rule.icmpType = none ∧ rule.icmpCode = none := by
  induction rules generalizing rules' with
  | nil =>
    rw [map_nil, eq_comm, map_eq_nil_iff] at same
    exact ⟨same.symm, by simp⟩
  | cons rule rest ih =>
    cases rules' with
    | nil => cases same
    | cons rule' rest' =>
      rw [map_cons, map_cons, cons.injEq] at same
      obtain ⟨rfl, plain⟩ := eq_of_ruleText_eq differ same.1
      obtain ⟨rfl, plainRest⟩ := ih same.2
      exact ⟨rfl, forall_mem_cons.mpr ⟨plain, plainRest⟩⟩

/-! ### Targets as they print -/

/-- The program as if its compilation had been the first. -/
def CompiledProgram.renumbered (compiled : CompiledProgram) : CompiledProgram :=
  { compiled with compilation := 0 }

def printed (target : TcxTarget) : String × TargetSignature :=
  (tcxTargetKey target, tcxTargetSignature target)

theorem text_renumbered {compiled : CompiledProgram} (plain : Plain compiled.program) :
    compiled.renumbered.text = compiled.text := by
  rw [text, text, ProgramText.mk.injEq]
  exact ⟨rfl, rfl, rfl, map_ruleText_of_plain plain _ _⟩

theorem printed_renumbered (target : TcxTarget)
    (plain : ∀ compiled ∈ target.programs, Plain compiled.program) :
    printed { target with programs := target.programs.map CompiledProgram.renumbered } =
      printed target := by
  have texts : (target.programs.map CompiledProgram.renumbered).map text =
      target.programs.map text := by
    rw [map_map]
    exact map_congr_left fun compiled listed => text_renumbered (plain compiled listed)
  rw [printed, printed, tcxTargetSignature, tcxTargetSignature, texts]
  rfl

theorem printed_workloadTargets {compiled : CompiledProgram} (plain : Plain compiled.program) :
    (workloadTargets compiled.renumbered).map printed = (workloadTargets compiled).map printed := by
  have single : ∀ attach direction,
      printed ⟨hostVethName compiled.program.endpointID, attach, direction, [compiled.renumbered]⟩ =
        printed ⟨hostVethName compiled.program.endpointID, attach, direction, [compiled]⟩ := by
    intro attach direction
    exact printed_renumbered ⟨_, attach, direction, [compiled]⟩ (by simpa using plain)
  have eligible : ∀ direction, eligibleFor direction compiled.renumbered =
      eligibleFor direction compiled := fun _ => rfl
  rw [workloadTargets, workloadTargets, eligible, eligible, map_append, map_append]
  congr 1
  · split
    · exact congrArg (fun target => [target]) (single .tcxEgress .ingress)
    · rfl
  · split
    · exact congrArg (fun target => [target]) (single .tcxIngress .egress)
    · rfl

variable (options : ReconcileOptions)

theorem printed_interfaceTarget (attach : AttachType) (direction : Model.Direction)
    {programs : List CompiledProgram} (plain : ∀ compiled ∈ programs, Plain compiled.program) :
    (interfaceTarget options attach direction (programs.map CompiledProgram.renumbered)).map printed =
      (interfaceTarget options attach direction programs).map printed := by
  have filtered : (programs.map CompiledProgram.renumbered).filter (eligibleFor direction) =
      (programs.filter (eligibleFor direction)).map CompiledProgram.renumbered := filter_map
  have chosen : ∀ compiled ∈ programs.filter (eligibleFor direction), Plain compiled.program :=
    fun compiled listed => plain compiled (mem_of_mem_filter listed)
  rw [interfaceTarget, interfaceTarget, filtered]
  generalize programs.filter (eligibleFor direction) = wanted at chosen
  match wanted, chosen with
  | [], _ => rfl
  | [compiled], chosen =>
    have whole : Plain (tcxInterfaceProgram compiled).program := chosen compiled (by simp)
    exact congrArg (fun target => [target]) (printed_renumbered
      ⟨options.tcxInterface, attach, direction, [tcxInterfaceProgram compiled]⟩ (by simpa using whole))
  | first :: second :: rest, chosen =>
    exact congrArg (fun target => [target]) (printed_renumbered
      ⟨options.tcxInterface, attach, direction, first :: second :: rest⟩ chosen)

/-- How targets print does not depend on when plain programs were compiled. -/
theorem printed_tcxTargets {programs : List CompiledProgram}
    (plain : ∀ compiled ∈ programs, Plain compiled.program) :
    (tcxTargets options (programs.map CompiledProgram.renumbered)).map printed =
      (tcxTargets options programs).map printed := by
  unfold tcxTargets
  split
  · rw [flatMap_map, map_flatMap, map_flatMap]
    exact flatMap_congr fun compiled listed => printed_workloadTargets (plain compiled listed)
  · split
    · rfl
    · rw [map_append, map_append, printed_interfaceTarget _ _ _ plain,
        printed_interfaceTarget _ _ _ plain]

theorem tcxPrograms_renumbered (programs : List CompiledProgram) :
    tcxPrograms options (programs.map CompiledProgram.renumbered) =
      (tcxPrograms options programs).map CompiledProgram.renumbered := filter_map

/-- Plain programs that were compiled twice ask for targets that print the same. -/
theorem printed_tcxTargets_congr {programs programs' : List CompiledProgram}
    (same : programs.map CompiledProgram.program = programs'.map CompiledProgram.program)
    (plain : ∀ compiled ∈ programs, Plain compiled.program) :
    (tcxTargets options (tcxPrograms options programs)).map printed =
      (tcxTargets options (tcxPrograms options programs')).map printed := by
  have plain' : ∀ compiled ∈ programs', Plain compiled.program := by
    intro compiled listed
    have image : compiled.program ∈ programs.map CompiledProgram.program := by
      rw [same]
      exact mem_map_of_mem listed
    obtain ⟨first, inFirst, equal⟩ := mem_map.mp image
    exact equal ▸ plain first inFirst
  have renumbered : programs.map CompiledProgram.renumbered =
      programs'.map CompiledProgram.renumbered := by
    have both := congrArg (map fun program => (⟨program, 0⟩ : CompiledProgram)) same
    rwa [map_map, map_map] at both
  have numberless : ∀ list : List CompiledProgram, (∀ compiled ∈ list, Plain compiled.program) →
      (tcxTargets options (tcxPrograms options (list.map CompiledProgram.renumbered))).map printed =
        (tcxTargets options (tcxPrograms options list)).map printed := by
    intro list all
    rw [tcxPrograms_renumbered]
    exact printed_tcxTargets options fun compiled listed =>
      all compiled (mem_of_mem_filter listed)
  rw [← numberless programs plain, ← numberless programs' plain', renumbered]

/-! ### What a run ignores -/

/-- The same but for the tracked connections. -/
def UpToConntrack (r r' : Reconciler) : Prop := ∃ conntrack, r' = { r with conntrack }

theorem ignores_checked {α : Type} (outcome : Except String α) :
    Ignores UpToConntrack (checked outcome) := by
  cases outcome with
  | ok a => exact ignores_pure a
  | error err => exact ignores_throw err

theorem ignores_onlyIf (condition : Bool) {body : Reconciling Unit}
    (ignores : Ignores UpToConntrack body) : Ignores UpToConntrack (onlyIf condition body) := by
  cases condition with
  | true => exact ignores
  | false => exact ignores_pure ()

theorem ignores_modifyStore (change : InMemoryPolicyStore → InMemoryPolicyStore) :
    Ignores UpToConntrack (modifyStore change) :=
  ignores_modify fun _ _ ⟨conntrack, same⟩ => ⟨conntrack, by rw [same]⟩

theorem ignores_replaceEndpoint (now : Time) (endpointID : String)
    (entries : List Dataplane.PolicyMapEntry) :
    Ignores UpToConntrack (replaceEndpoint now endpointID entries) := by
  refine ignores_get_bind ?_
  rintro r _ ⟨conntrack, rfl⟩
  refine ignores_set_bind ⟨conntrack, rfl⟩ ?_
  split
  · exact ignores_pure ()
  · exact ignores_throw _

variable (options : ReconcileOptions) (run : Surroundings)

theorem ignores_quarantinePolicyMapPressure
    (keep : List String) (threshold : BitVec 32) (pressure : BitVec 32 × String) :
    Ignores UpToConntrack (quarantinePolicyMapPressure options run keep threshold pressure) := by
  unfold quarantinePolicyMapPressure
  split
  · exact ignores_pure ()
  · split
    · exact ignores_pure ()
    · split
      · exact ignores_pure ()
      · exact (ignores_replaceEndpoint _ _ _).tryCatch fun err => ignores_throw _

theorem ignores_mitigatePolicyMapPressure (programs : List CompiledProgram) :
    Ignores UpToConntrack (mitigatePolicyMapPressure options run programs) := by
  have pressure : Ignores UpToConntrack policyMapPressure := by
    refine ignores_get_bind ?_
    rintro r _ ⟨conntrack, rfl⟩
    exact ignores_pure _ r _ ⟨conntrack, rfl⟩
  refine pressure.bind fun _ => (ignores_onlyIf _ (ignores_modifyStore _)).bind fun _ => ?_
  exact pressure.bind fun pressed => ignores_onlyIf _
    (ignores_quarantinePolicyMapPressure options run _ _ pressed)

variable (state : DesiredState)

theorem ignores_prepareEndpoint (options : ReconcileOptions)
    (run : Surroundings) (endpoint : Endpoint) :
    Ignores UpToConntrack (prepareEndpoint state options run endpoint) := by
  refine (ignores_checked _).bind fun _ => (ignores_checked _).bind fun program => ?_
  refine ignores_get_bind ?_
  rintro r _ ⟨conntrack, rfl⟩
  refine ignores_set_bind ⟨conntrack, rfl⟩ (Ignores.bind ?_ fun _ => ignores_pure _)
  refine ignores_onlyIf _ (Ignores.tryCatch ?_ fun err => ignores_throw _)
  exact (ignores_checked _).bind fun _ => ignores_replaceEndpoint _ _ _

theorem ignores_prepareEndpoints (options : ReconcileOptions)
    (run : Surroundings) (endpoints : List Endpoint) :
    Ignores UpToConntrack (prepareEndpoints state options run endpoints) := by
  induction endpoints with
  | nil => exact ignores_pure _
  | cons endpoint rest ih =>
    unfold prepareEndpoints
    split
    · exact ih
    · refine (ignores_prepareEndpoint state options run endpoint).bind fun _ => ?_
      exact ih.bind fun _ => ignores_pure _

theorem ignores_prepareReconcile (options : ReconcileOptions)
    (run : Surroundings) : Ignores UpToConntrack (prepareReconcile state options run) := by
  refine (ignores_checked _).bind fun _ => (ignores_checked _).bind fun _ => ?_
  refine (ignores_prepareEndpoints state options run _).bind fun programs => ?_
  refine (ignores_checked _).bind fun _ => ?_
  refine (ignores_mitigatePolicyMapPressure options run programs).bind fun _ => ?_
  refine (ignores_checked _).bind fun _ => Ignores.bind ?_ fun _ => ignores_pure _
  unfold sweepPolicyEndpoints
  split
  · exact ignores_pure ()
  · exact (ignores_checked _).bind fun _ => ignores_modifyStore _

/-- Whether a run succeeds does not depend on the connections that are tracked. -/
theorem ignores_reconcile (options : ReconcileOptions)
    (run : Surroundings) : Ignores UpToConntrack (reconcile state options run) := by
  refine (ignores_prepareReconcile state options run).bind ?_
  rintro ⟨targets, programs⟩
  -- Connections are written twice, and nothing that is written elsewhere depends on them.
  refine Ignores.bind (ignores_modify ?_) fun _ => ?_
  · rintro r _ ⟨conntrack, rfl⟩
    exact ⟨conntrack, rfl⟩
  refine (ignores_mitigatePolicyMapPressure options run programs).bind fun _ => ?_
  refine (ignores_checked _).bind fun _ => ?_
  refine Ignores.bind (ignores_modify ?_) fun _ => Ignores.bind (ignores_modify ?_) fun _ => ?_
  · rintro r _ ⟨conntrack, rfl⟩
    exact ⟨_, rfl⟩
  · rintro r _ ⟨conntrack, rfl⟩
    exact ⟨_, rfl⟩
  refine ignores_onlyIf _ (ignores_get_bind ?_)
  rintro r _ ⟨conntrack, rfl⟩
  exact ignores_set_bind ⟨conntrack, rfl⟩ (ignores_checked _)

/-! ### Two runs -/

/-- A run that removed no connection but those idle for too long, and attached nothing. -/
def Undisturbed (r r' : Reconciler) : Prop :=
  (∀ key lastSeen, r.conntrack.entries.lookup key = some lastSeen →
    Dataplane.conntrackEntryExpired lastSeen (run.clock .conntrack)
      (conntrackIdleTimeout options.conntrackIdle) = false →
    r'.conntrack.entries.lookup key = some lastSeen) ∧
  r'.attachments.fresh = r.attachments.fresh

/-- The endpoint has the same program in both runs, and none of its rules names an ICMP
type or code. -/
def Steady (state : DesiredState) (options : ReconcileOptions) (run run' : Surroundings)
    (endpoint : Endpoint) : Prop :=
  ∃ program, compiledIn state options run endpoint = .ok program ∧
    compiledIn state options run' endpoint = .ok program ∧ Plain program

section TwoRuns

variable {state : DesiredState} {options : ReconcileOptions} {run run' : Surroundings}
  {start start' : Nat} {programs programs' : List CompiledProgram}

theorem programs_of_steady
    (compiled : Programs state options run start state.endpoints programs)
    (compiled' : Programs state options run' start' state.endpoints programs')
    (steady : ∀ endpoint ∈ localEndpoints options state.endpoints,
      Steady state options run run' endpoint) :
    programs.map CompiledProgram.program = programs'.map CompiledProgram.program ∧
      ∀ own ∈ programs, Plain own.program := by
  have first := compiled.compiled
  have second := compiled'.compiled
  clear compiled compiled'
  generalize localEndpoints options state.endpoints = endpoints at first second steady
  induction first generalizing programs' with
  | nil =>
    cases second
    exact ⟨rfl, by simp⟩
  | cons head _ ih =>
    cases second with
    | cons head' tail' =>
      rw [forall_mem_cons] at steady
      obtain ⟨program, compiles, compiles', plain⟩ := steady.1
      obtain ⟨same, plainRest⟩ := ih tail' steady.2
      obtain rfl := Except.ok.inj (compiles.symm.trans head)
      have equal := Except.ok.inj (compiles'.symm.trans head')
      rw [map_cons, map_cons, same, ← equal]
      exact ⟨rfl, forall_mem_cons.mpr ⟨plain, plainRest⟩⟩

theorem desiredSignatures_of_plain
    (same : programs.map CompiledProgram.program = programs'.map CompiledProgram.program)
    (plain : ∀ own ∈ programs, Plain own.program) :
    desiredSignatures programs = desiredSignatures programs' := by
  refine insertAll_congr _ _ ?_
  induction programs generalizing programs' with
  | nil =>
    rw [map_nil, eq_comm, map_eq_nil_iff] at same
    rw [same]
  | cons own rest ih =>
    cases programs' with
    | nil => cases same
    | cons own' rest' =>
      rw [map_cons, map_cons, cons.injEq] at same
      rw [forall_mem_cons] at plain
      have texts : conntrackSignature own = conntrackSignature own' := by
        rw [conntrackSignature, conntrackSignature, ← same.1, map_ruleText_of_plain plain.1]
      rw [map_cons, map_cons, ih same.2 plain.2, same.1, texts]

theorem Programs.compilation_lt (compiled : Programs state options run start state.endpoints programs)
    {own : CompiledProgram} (listed : own ∈ programs) :
    start ≤ own.compilation ∧ own.compilation < start + programs.length := by
  have numbered : own.compilation ∈ programs.map CompiledProgram.compilation :=
    mem_map_of_mem listed
  rw [compiled.numbered, mem_range'_1] at numbered
  exact numbered

/-- Signatures of two compilations that agree. -/
theorem program_eq_of_conntrackSignature_eq {endpoint : Endpoint} {own own' : CompiledProgram}
    (compiles : compiledIn state options run endpoint = .ok own.program)
    (compiles' : compiledIn state options run' endpoint = .ok own'.program)
    (differ : own.compilation ≠ own'.compilation)
    (same : conntrackSignature own = conntrackSignature own') :
    own.program = own'.program ∧ Plain own.program := by
  rw [conntrackSignature, conntrackSignature, ConntrackSignature.mk.injEq] at same
  obtain ⟨rules, plain⟩ := eq_of_map_ruleText_eq differ same.1
  have endpointID := (Policy.endpointID_of_compile compiles).trans
    (Policy.endpointID_of_compile compiles').symm
  have endpointIP := (compiledOf_compileForEndpointWithContext compiles).2.1.trans
    (compiledOf_compileForEndpointWithContext compiles').2.1.symm
  refine ⟨?_, plain⟩
  generalize own.program = program at *
  generalize own'.program = program' at *
  obtain ⟨_, _, _, _⟩ := program
  obtain ⟨_, _, _, _⟩ := program'
  simp only at rules endpointID endpointIP same
  rw [rules, endpointID, endpointIP, same.2]

theorem signature_desiredTargets (targets : List TcxTarget) (key : String) :
    ((desiredTargets targets).lookup key).map tcxTargetSignature =
      (insertAll tcxTargetKey tcxTargetSignature targets).lookup key :=
  lookup_insertAll_comp tcxTargetKey id tcxTargetSignature targets key

variable {r r₁ r₂ : Reconciler}

/-- Steady endpoints: nothing is disturbed, whatever is tracked in between. -/
theorem undisturbed_of_steady {conntrack : InMemoryConntrackStore} {second : Reconciler}
    (completed : Completed state options run programs r r₁)
    (completed' : Completed state options run' programs' { r₁ with conntrack } second)
    (steady : ∀ endpoint ∈ localEndpoints options state.endpoints,
      Steady state options run run' endpoint) :
    Undisturbed options run' { r₁ with conntrack } second := by
  obtain ⟨same, plain⟩ := programs_of_steady completed.compiled completed'.compiled steady
  constructor
  · intro key lastSeen held fresh
    rw [completed'.conntrack, lookup_sweptConntrack]
    refine ⟨held, fun signature signed => ?_, fresh⟩
    rw [← desiredSignatures_of_plain same plain, ← completed.conntrackSignatures]
    exact signed
  · cases wanted : attachesTCX options with
    | false => rw [completed'.unattached wanted]
    | true =>
      rw [(completed'.attached wanted).2]
      refine fresh_syncTCXTargets fun key target found => ?_
      -- What is recorded is what the first run asked for, and that prints the same.
      change (r₁.attachments.recorded.lookup key).map Handle.signature = _
      rw [(completed.attached wanted).2, syncedTCX,
        signature_syncTCXTargets (completed.attached wanted).1, signature_desiredTargets,
        insertAll_congr _ _ (printed_tcxTargets_congr options same plain),
        ← signature_desiredTargets, found, Option.map_some]

/-- A connection of the endpoint. -/
def probe (endpointID : String) : ConntrackKey where
  endpointID
  remoteIdentity := 0
  remoteIP := .zero
  direction := 0
  protocol := 0
  icmpType := 0
  icmpCode := 0
  sourcePort := 0
  destPort := 0

/-- Two successful runs with the same state and options: the second leaves connections and
attachments alone, whatever was tracked in between, exactly if every endpoint of the node has
the same program in both and no rule of it names an ICMP type or code. -/
theorem undisturbed_iff_steady (first : reconcile state options run r = .ok () r₁)
    (second : reconcile state options run' r₁ = .ok () r₂) :
    (∀ conntrack, Undisturbed options run' { r₁ with conntrack }
      (Reconciler.reconciled { r₁ with conntrack } state options run')) ↔
      ∀ endpoint ∈ localEndpoints options state.endpoints,
        Steady state options run run' endpoint := by
  obtain ⟨programs, completed⟩ := (leads_reconcile state options run r).of_ok first
  have again : ∀ conntrack, ∃ programs', Completed state options run' programs'
      { r₁ with conntrack } (Reconciler.reconciled { r₁ with conntrack } state options run') := by
    intro conntrack
    have unread := ignores_reconcile state options run' r₁ { r₁ with conntrack } ⟨conntrack, rfl⟩
    obtain ⟨again, returned⟩ := unread.returned second
    rw [Reconciler.reconciled, returned]
    exact (leads_reconcile state options run' { r₁ with conntrack }).of_ok returned
  constructor
  · intro undisturbed endpoint here
    obtain ⟨own, listed, compiles, signed⟩ := completed.compiled.signed completed.valid endpoint here
    -- A connection that never expires tells whether the endpoint kept its signature.
    let key := probe (endpointKey endpoint.vpc endpoint.id)
    let conntrack : InMemoryConntrackStore := ⟨AList.insert key 0 ∅, 0⟩
    obtain ⟨programs', completed'⟩ := again conntrack
    obtain ⟨own', listed', compiles', signed'⟩ :=
      completed'.compiled.signed completed'.valid endpoint here
    have kept := (undisturbed conntrack).1 key 0 (AList.lookup_insert _) (by
      simp [Dataplane.conntrackEntryExpired])
    rw [completed'.conntrack, lookup_sweptConntrack] at kept
    have same := kept.2.1 (conntrackSignature own) (by
      change r₁.conntrackSignatures.lookup _ = _
      rw [completed.conntrackSignatures]
      exact signed)
    have differ : own.compilation ≠ own'.compilation := by
      have before := (completed.compiled.compilation_lt listed).2
      have after := (completed'.compiled.compilation_lt listed').1
      have count := completed.compilations
      change r₁.compilations ≤ _ at after
      omega
    obtain ⟨equal, plain⟩ := program_eq_of_conntrackSignature_eq compiles compiles' differ
      (Option.some.inj (same.symm.trans signed'))
    exact ⟨own.program, compiles, equal ▸ compiles', plain⟩
  · intro steady conntrack
    obtain ⟨programs', completed'⟩ := again conntrack
    exact undisturbed_of_steady completed completed' steady

end TwoRuns

/-! ### Echo requests -/

/-- Drops echo requests. -/
def noPing : Model.SecurityGroupRule :=
  { ingressRule "no-ping" .icmp .drop with icmpType := some 8 }

/-- The second run is a moment after the first. The connection tracked in between has gone,
and the program is attached again. -/
theorem ping_rule_disturbs : ∃ first second,
    reconcile (workloadState [noPing]) onNode (calm 1) (.new .new) = .ok () first ∧
    reconcile (workloadState [noPing]) onNode (calm 3)
      { first with conntrack := first.conntrack.add (probe workloadKey) 2 } = .ok () second ∧
    Dataplane.conntrackEntryExpired 2 3 (conntrackIdleTimeout onNode.conntrackIdle) = false ∧
    second.conntrack.entries.lookup (probe workloadKey) = none ∧
    first.attachments.fresh < second.attachments.fresh := by
  refine ⟨_, _, rfl, rfl, ?_, ?_, ?_⟩ <;> decide +kernel

theorem tcp_rule_undisturbed : ∃ first,
    reconcile (workloadState [ingressRule "no-tcp" .tcp .drop]) onNode (calm 1) (.new .new) =
      .ok () first ∧
    ∀ conntrack, Undisturbed onNode (calm 3) { first with conntrack }
      (Reconciler.reconciled { first with conntrack }
        (workloadState [ingressRule "no-tcp" .tcp .drop]) onNode (calm 3)) := by
  have steady : ∀ endpoint ∈ localEndpoints onNode
      (workloadState [ingressRule "no-tcp" .tcp .drop]).endpoints,
      Steady (workloadState [ingressRule "no-tcp" .tcp .drop]) onNode (calm 1) (calm 3) endpoint := by
    intro endpoint here
    obtain rfl : endpoint = workload := mem_singleton.mp here
    refine ⟨_, rfl, rfl, ?_⟩
    rintro rule (_ | ⟨_, ⟨⟩⟩)
    exact ⟨rfl, rfl⟩
  have returned : reconcile (workloadState [ingressRule "no-tcp" .tcp .drop]) onNode (calm 1)
      (.new .new) = .ok () ((Reconciler.new .new).reconciled
        (workloadState [ingressRule "no-tcp" .tcp .drop]) onNode (calm 1)) := rfl
  have again : ∃ second, reconcile (workloadState [ingressRule "no-tcp" .tcp .drop]) onNode (calm 3)
      ((Reconciler.new .new).reconciled
        (workloadState [ingressRule "no-tcp" .tcp .drop]) onNode (calm 1)) = .ok () second :=
    Stateful.exists_of_returned (by decide +kernel)
  obtain ⟨second, returnedAgain⟩ := again
  exact ⟨_, returned, (undisturbed_iff_steady returned returnedAgain).mpr steady⟩

end Netloom.Agent
