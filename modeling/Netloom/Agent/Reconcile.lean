import Netloom.Lib.Stateful
import Netloom.Control.Validate
import Netloom.Dataplane.MemoryStore
import Netloom.Dataplane.Conntrack
import Netloom.Dataplane.Tcx
import Netloom.Agent.Attachments

/-!
# One run of the node agent

A run compiles a program for every endpoint of the node, replaces the entries of
the endpoints that are not frozen, removes what belongs to no endpoint any more,
drops the tracked connections of endpoints whose program reads differently, and
attaches the programs. Every step can fail, and what was done before stays done.
-/
namespace Netloom.Agent

open Model (Time Endpoint SecurityGroup Direction endpointKey)
open Policy (Program MapEntry CompileContext SecurityGroups IdentityResolver)
open Dataplane (InMemoryPolicyStore InMemoryConntrackStore PolicyMapEntry PolicyKey PolicyEntry)
open Control (DesiredState)
open Strings (quote)
open Checked

/-! ### Options, surroundings and state -/

structure ReconcileOptions where
  node : String
  frozenPolicyEndpoints : List String := []
  deferPolicyApply : Bool := false
  fqdnMaxIPsPerHostname : Int := 0
  identityResolver : Option IdentityResolver := none
  policyPressureMitigationThreshold : BitVec 32 := 0
  policyPressureQuarantineThreshold : BitVec 32 := 0
  policyPressureQuarantine : Bool := false
  policyGCMaxIdle : Int := 0
  conntrackIdle : Int := 0
  tcxInterface : String := ""
  tcxWorkload : Bool := false

/-- The steps that read the clock. -/
inductive Step where
  | compile (endpointID : String)
  | apply (endpointID : String)
  | mitigate (endpointID : String)
  | quarantine
  | sweep
  | delete (endpointID : String)
  | conntrack

/-- What a run meets: the byte order of the host, the time at each step, the order in which
maps are iterated over, and what fails. -/
structure Surroundings where
  host : Endian
  clock : Step → Time
  order : MapOrder
  /-- The outcome of the Linux datapath, without one `.ok ()`. -/
  linuxDatapath : Except String Unit
  /-- Whether the context was done when the sweep began. -/
  sweepContext : Except String Unit
  /-- The telemetry is read before and after the store is synchronised. -/
  telemetryBefore : Except String Unit
  telemetryAfter : Except String Unit
  faults : AttachFaults

/-- The text of a program's rules and map entries. -/
structure ConntrackSignature where
  rules : List RuleText
  mapEntries : List MapEntry
  deriving DecidableEq

structure Reconciler where
  store : InMemoryPolicyStore
  policyEndpoints : List String
  conntrack : InMemoryConntrackStore
  conntrackSignatures : AList fun _ : String => ConntrackSignature
  attachments : Attachments
  /-- The number of programs compiled so far. -/
  compilations : Nat

/-- `NewReconciler`. -/
def Reconciler.new (store : InMemoryPolicyStore) : Reconciler where
  store
  policyEndpoints := []
  conntrack := .new Dataplane.defaultConntrackMaxIdle
  conntrackSignatures := ∅
  attachments := .new
  compilations := 0

abbrev Reconciling := EStateM String Reconciler

/-- A check that does not touch the state. -/
def checked {α : Type} : Except String α → Reconciling α
  | .ok a => pure a
  | .error err => throw err

/-- The computation, with its error wrapped. -/
def wrapping {α : Type} (wrap : String → String) (body : Reconciling α) : Reconciling α :=
  tryCatch body fun err => throw (wrap err)

/-- An `if` without an alternative. -/
def onlyIf (condition : Bool) (body : Reconciling Unit) : Reconciling Unit :=
  if condition then body else pure ()

/-! ### The desired state as the agent accepts it -/

variable (state : DesiredState) (options : ReconcileOptions)

def validateAgentState : Except String Unit := do
  distinct (fun _ group => group.validate) (fun group => group.vpc ++ "\x00" ++ group.name)
    (fun _ group => s!"duplicate security group name {quote group.name} in vpc {quote group.vpc}")
    state.securityGroups
  distinct (fun _ endpoint => endpoint.validate)
    (fun endpoint => endpointKey endpoint.vpc endpoint.id)
    (fun _ endpoint => s!"duplicate endpoint id {quote endpoint.id} in vpc {quote endpoint.vpc}")
    state.endpoints
  distinct (fun _ lb => lb.validate) (fun lb => lb.vpc ++ "/" ++ lb.name)
    (fun _ lb => s!"duplicate load balancer {quote lb.name} in vpc {lb.vpc}") state.loadBalancers
  distinct (fun _ group => group.validate) (fun group => group.vpc ++ "/" ++ group.name)
    (fun _ group => s!"duplicate cidr group {quote group.name} in vpc {group.vpc}")
    state.cidrGroups
  state.rolloutChecks

/-- The groups of the VPC by name. -/
def securityGroupsForEndpointVPC (groups : List SecurityGroup) (vpc : String) : SecurityGroups :=
  Fold.insertAll SecurityGroup.name id (groups.filter fun group => group.vpc = vpc)

def compileContext : CompileContext where
  endpoints := some state.endpoints
  subnets := state.subnets
  gateways := state.gateways
  services := state.loadBalancers
  dnsRecords := state.dnsRecords
  fqdnMaxIPsPerHostname := options.fqdnMaxIPsPerHostname
  cidrGroups := state.cidrGroups
  identityResolver := some (options.identityResolver.getD Policy.stableIdentity)

/-- The program of the endpoint, when it is compiled at the time `clock`. -/
def endpointProgram (endpoint : Endpoint) (clock : Time) : Except String Program :=
  Policy.compileForEndpointWithContext endpoint
    (securityGroupsForEndpointVPC state.securityGroups endpoint.vpc)
    (compileContext state options) clock

def policyEndpointFrozen (endpointID : String) : Bool :=
  endpointID ∈ options.frozenPolicyEndpoints

def policyEndpointKeepSet (programs : List CompiledProgram) (frozen : List String) : List String :=
  (programs.map fun compiled => compiled.program.endpointID) ++ frozen

/-! ### Changes of the policy store -/

def modifyStore (change : InMemoryPolicyStore → InMemoryPolicyStore) : Reconciling Unit :=
  modify fun r => { r with store := change r.store }

/-- `ReplaceEndpoint` of the store. -/
def replaceEndpoint (now : Time) (endpointID : String) (entries : List PolicyMapEntry) :
    Reconciling Unit := do
  let r ← get
  let replaced := r.store.replaceEndpoint now endpointID entries
  set { r with store := replaced.2 }
  match replaced.1 with
  | none => pure ()
  | some err => throw err.message

def applyEndpointProgram (host : Endian) (now : Time) (program : Program) : Reconciling Unit := do
  let entries ← checked (Dataplane.encodeProgram host program)
  replaceEndpoint now program.endpointID entries

/-- `populatePolicyMapUsageResult`: the greatest pressure and the endpoint that has it. -/
def policyMapPressure : Reconciling (BitVec 32 × String) := do
  let r ← get
  pure (InMemoryPolicyStore.maxPressure r.store.policyMapUsage)

def quarantinePolicyMapEntry (direction : BitVec 8) : PolicyMapEntry where
  key := {
    prefixLen := Dataplane.staticPrefixBits
    direction
    destPortBE := 0 }
  value := {
    deny := 1
    precedence := 0xffffffff
    ruleCookie := 0x51554152
    bytes := 0 }

def quarantinePolicyMapEntries : List PolicyMapEntry :=
  [quarantinePolicyMapEntry Dataplane.directionIngress,
    quarantinePolicyMapEntry Dataplane.directionEgress]

variable (options : ReconcileOptions) (run : Surroundings)

def quarantinePolicyMapPressure
    (keep : List String) (threshold : BitVec 32) (pressure : BitVec 32 × String) :
    Reconciling Unit :=
  if !options.policyPressureQuarantine || pressure.1 < threshold || pressure.2 = "" then pure ()
  else if pressure.2 ∉ keep then pure ()
  else if pressure.2 ∈ options.frozenPolicyEndpoints then pure ()
  else wrapping (fun err => s!"quarantine pressured policy endpoint {pressure.2}: {err}")
    (replaceEndpoint (run.clock .quarantine) pressure.2 quarantinePolicyMapEntries)

/-- `mitigatePolicyMapPressureResult`, with the pressure as it was read just before. -/
def mitigatePolicyMapPressure (programs : List CompiledProgram) : Reconciling Unit := do
  let keep := policyEndpointKeepSet programs options.frozenPolicyEndpoints
  let pressure ← policyMapPressure
  onlyIf (options.policyPressureMitigationThreshold > 0 &&
      pressure.1 ≥ options.policyPressureMitigationThreshold)
    (modifyStore fun s => (s.endpointIDs.filter (· ∉ keep)).foldl
      (fun s endpointID => s.deleteEndpoint (run.clock (.mitigate endpointID)) endpointID) s)
  let pressure ← policyMapPressure
  let threshold := if options.policyPressureQuarantineThreshold = 0 then
      options.policyPressureMitigationThreshold
    else options.policyPressureQuarantineThreshold
  onlyIf (threshold ≠ 0) (quarantinePolicyMapPressure options run keep threshold pressure)

def sweepPolicyEndpoints (programs : List CompiledProgram) : Reconciling Unit :=
  if options.policyGCMaxIdle ≤ 0 then pure ()
  else do
    checked (context (fun err => s!"sweep stale policy endpoints: {err}") run.sweepContext)
    let keep := policyEndpointKeepSet programs options.frozenPolicyEndpoints
    modifyStore fun s => (s.sweepPolicyEndpoints keep options.policyGCMaxIdle
      (run.clock .sweep) (run.order.arrange s.policyEndpointIDsLocked)).2

/-! ### Targets -/

def hostVethName (endpointID : String) : String :=
  "nlh" ++ String.ofList (Nat.toDigits 16 (Policy.fnv32a endpointID).toNat)

def eligibleFor (direction : Direction) (compiled : CompiledProgram) : Bool :=
  Dataplane.tcxEligibleProgramForDirection compiled.program direction

def tcxEligibleProgram (compiled : CompiledProgram) : Bool :=
  eligibleFor .ingress compiled || eligibleFor .egress compiled

def tcxInterfaceProgram (compiled : CompiledProgram) : CompiledProgram :=
  { compiled with program := { compiled.program with endpointIP := .zero } }

/-- What the workload receives leaves the host side of its link, and the other way round. -/
def workloadTargets (compiled : CompiledProgram) : List TcxTarget :=
  (if eligibleFor .ingress compiled then
    [{ ifName := hostVethName compiled.program.endpointID
       attach := .tcxEgress, policyDirection := .ingress, programs := [compiled] }] else []) ++
  (if eligibleFor .egress compiled then
    [{ ifName := hostVethName compiled.program.endpointID
       attach := .tcxIngress, policyDirection := .egress, programs := [compiled] }] else [])

variable (options : ReconcileOptions)

/-- A single program is attached without the address of its endpoint. -/
def interfaceTarget (attach : AttachType) (direction : Direction)
    (programs : List CompiledProgram) : List TcxTarget :=
  match programs.filter (eligibleFor direction) with
  | [] => []
  | [compiled] => [{ ifName := options.tcxInterface, attach, policyDirection := direction
                     programs := [tcxInterfaceProgram compiled] }]
  | several => [{ ifName := options.tcxInterface, attach, policyDirection := direction
                  programs := several }]

def tcxTargets (programs : List CompiledProgram) : List TcxTarget :=
  if options.tcxWorkload then programs.flatMap workloadTargets
  else if options.tcxInterface = "" then []
  else interfaceTarget options .tcxIngress .ingress programs ++
    interfaceTarget options .tcxEgress .egress programs

/-! ### The run -/

/-- One iteration of the loop over the endpoints of the node. -/
def prepareEndpoint (state : DesiredState) (options : ReconcileOptions) (run : Surroundings)
    (endpoint : Endpoint) : Reconciling CompiledProgram := do
  checked endpoint.validate
  let endpointID := endpointKey endpoint.vpc endpoint.id
  let program ← checked (endpointProgram state options endpoint (run.clock (.compile endpointID)))
  let r ← get
  set { r with compilations := r.compilations + 1 }
  onlyIf (!options.deferPolicyApply && !policyEndpointFrozen options program.endpointID)
    (wrapping (fun err =>
        s!"apply policy program for endpoint {endpoint.id} in vpc {endpoint.vpc}: {err}")
      (applyEndpointProgram run.host (run.clock (.apply endpointID)) program))
  pure ⟨program, r.compilations⟩

def prepareEndpoints (state : DesiredState) (options : ReconcileOptions) (run : Surroundings) :
    List Endpoint → Reconciling (List CompiledProgram)
  | [] => pure []
  | endpoint :: rest =>
    if endpoint.node ≠ options.node then prepareEndpoints state options run rest
    else do
      let compiled ← prepareEndpoint state options run endpoint
      let programs ← prepareEndpoints state options run rest
      pure (compiled :: programs)

/-- The programs to attach: those of frozen endpoints are left out. -/
def tcxPrograms (programs : List CompiledProgram) : List CompiledProgram :=
  programs.filter fun compiled =>
    !policyEndpointFrozen options compiled.program.endpointID && tcxEligibleProgram compiled

def readTelemetry (outcome : Except String Unit) : Reconciling Unit :=
  checked (context (fun err => s!"read policy rule metrics: {err}") outcome)

/-- The targets to attach and the programs of the node's endpoints. -/
def prepareReconcile (state : DesiredState) (options : ReconcileOptions) (run : Surroundings) :
    Reconciling (List TcxTarget × List CompiledProgram) := do
  checked (require (options.node ≠ "") "node name is required")
  checked (validateAgentState state)
  let programs ← prepareEndpoints state options run state.endpoints
  checked (context (fun err => s!"apply linux datapath for node {options.node}: {err}")
    run.linuxDatapath)
  mitigatePolicyMapPressure options run programs
  readTelemetry run.telemetryBefore
  sweepPolicyEndpoints options run programs
  pure (tcxTargets options (tcxPrograms options programs), programs)

/-- The endpoints that are tracked or stored and not to be kept lose their entries. -/
def syncPolicyStore (run : Surroundings)
    (programs : List CompiledProgram) (r : Reconciler) : Reconciler :=
  let desired := policyEndpointKeepSet programs options.frozenPolicyEndpoints
  let tracked := run.order.arrange (r.policyEndpoints ++ r.store.endpointIDs).dedup
  let stale := tracked.filter (· ∉ desired)
  { r with
    store := stale.foldl (fun s endpointID =>
      s.deleteEndpoint (run.clock (.delete endpointID)) endpointID) r.store
    policyEndpoints := r.policyEndpoints.filter (· ∉ stale) ∪ desired }

def conntrackSignature (compiled : CompiledProgram) : ConntrackSignature where
  rules := compiled.program.rules.map (ruleText compiled.compilation)
  mapEntries := compiled.program.mapEntries

def conntrackIdleTimeout (timeout : Int) : Int :=
  if timeout > 0 then timeout else Dataplane.defaultConntrackMaxIdle

/-- The signatures the programs have now; of two for one endpoint the later counts. -/
def desiredSignatures (programs : List CompiledProgram) :
    AList fun _ : String => ConntrackSignature :=
  Fold.insertAll (fun compiled => compiled.program.endpointID) conntrackSignature programs

/-- The connections of an endpoint go when its signature is gone or another one. -/
def syncConntrackPrograms (programs : List CompiledProgram) (r : Reconciler) : Reconciler :=
  let desired := desiredSignatures programs
  let changed := r.conntrackSignatures.entries.filter fun entry =>
    desired.lookup entry.1 ≠ some entry.2
  { r with
    conntrack := changed.foldl (fun conntrack entry => conntrack.deleteEndpoint entry.1) r.conntrack
    conntrackSignatures := desired }

def attachTCX (options : ReconcileOptions) (run : Surroundings) (targets : List TcxTarget) :
    Reconciling Unit := do
  let r ← get
  let synced := syncTCXTargets run.order run.faults targets r.attachments
  set { r with attachments := synced.1 }
  checked (context (fun err => s!"attach tcx policy for node {options.node}: {err}") synced.2.2)

/-- `Reconciler.Reconcile`. -/
def reconcile (state : DesiredState) (options : ReconcileOptions) (run : Surroundings) :
    Reconciling Unit := do
  let (targets, programs) ← prepareReconcile state options run
  modify (syncPolicyStore options run programs)
  mitigatePolicyMapPressure options run programs
  readTelemetry run.telemetryAfter
  modify (syncConntrackPrograms programs)
  modify fun r => { r with
    conntrack := (r.conntrack.sweepIdle (conntrackIdleTimeout options.conntrackIdle)
      (run.clock .conntrack)).2 }
  onlyIf (options.tcxInterface ≠ "" || options.tcxWorkload) (attachTCX options run targets)

/-- The reconciler after a run, whether it succeeded or not. -/
def Reconciler.reconciled (r : Reconciler) (state : DesiredState) (options : ReconcileOptions)
    (run : Surroundings) : Reconciler :=
  match reconcile state options run r with
  | .ok _ r' => r'
  | .error _ r' => r'

/-- What a run is called with and what it meets. -/
structure ReconcileCall where
  state : DesiredState
  options : ReconcileOptions
  run : Surroundings

/-! ### A node with one workload -/

/-- Nothing fails, and every clock shows `now`. -/
def calm (now : Time) : Surroundings where
  host := .little
  clock := fun _ => now
  order := inOrder
  linuxDatapath := .ok ()
  sweepContext := .ok ()
  telemetryBefore := .ok ()
  telemetryAfter := .ok ()
  faults := noFaults

def onNode : ReconcileOptions := { node := "node-1", tcxWorkload := true }

/-- A rule for everything that comes from one block of addresses. -/
def ingressRule (id : String) (protocol : Model.Protocol) (action : Model.Action) :
    Model.SecurityGroupRule where
  id
  priority := 100
  direction := .ingress
  protocol
  remoteCIDR := Netip.prefixFrom (.v4 0x0a000000) 8
  action

def workload : Endpoint where
  id := "web"
  vpc := "prod"
  subnet := "net"
  ip := .v4 0x0a000102
  node := "node-1"
  securityGroups := ["web"]

def workloadKey : String := endpointKey workload.vpc workload.id

/-- The workload and its group with these rules. -/
def workloadState (rules : List Model.SecurityGroupRule) : DesiredState where
  endpoints := [workload]
  securityGroups := [{ name := "web", vpc := "prod", tier := 0, defaultDenyIngress := none
                       defaultDenyEgress := none, rules }]

end Netloom.Agent
