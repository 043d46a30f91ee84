import Netloom.Lib.Stateful
import Netloom.Policy.Compile
import Netloom.Topology.WellDefined

/-!
# The backend in memory

A backend that keeps topology and policy programs in maps, and a run of the controller
over it. The cleanup replaces all maps at once, and every object is then stored again
under its key. Policy routes are collected anew, programs of endpoints that are gone are
deleted at the end. DNS records are not kept.
-/
namespace Netloom.Control

open Model Policy List Checked AList Fold
open Netip (Addr Prefix)
open Netloom.Topology (byPriority)

structure MemoryBackend where
  vpcs : AList fun _ : String => VPC := ∅
  subnets : AList fun _ : String => Subnet := ∅
  endpoints : AList fun _ : String => Endpoint := ∅
  routeTables : AList fun _ : String => RouteTable := ∅
  policyRoutes : List PolicyRoute := []
  gateways : AList fun _ : String => Gateway := ∅
  natRules : AList fun _ : String => NATRule := ∅
  loadBalancers : AList fun _ : String => LoadBalancer := ∅
  policyProgram : AList fun _ : String => Program := ∅

/-- What a run of the controller fails with: a state or an object that is not valid, or a
policy that does not compile. The methods of this backend do not fail. -/
inductive Failure where
  | invalid (message : String)
  | compile (message : String)
  deriving DecidableEq, Repr

namespace MemoryBackend

/-! ### Methods -/

def newMemoryBackend : MemoryBackend := {}

def ensureVPC (vpc : VPC) (m : MemoryBackend) : MemoryBackend :=
  { m with vpcs := m.vpcs.insert vpc.name vpc }

def ensureSubnet (subnet : Subnet) (m : MemoryBackend) : MemoryBackend :=
  { m with subnets := m.subnets.insert (subnetKey subnet.vpc subnet.name) subnet }

def ensureEndpoint (endpoint : Endpoint) (m : MemoryBackend) : MemoryBackend :=
  { m with endpoints := m.endpoints.insert (endpointKey endpoint.vpc endpoint.id) endpoint }

def ensureRouteTable (table : RouteTable) (m : MemoryBackend) : MemoryBackend :=
  { m with routeTables := m.routeTables.insert (routeTableKey table.vpc table.name) table }

def ensurePolicyRoute (route : PolicyRoute) (m : MemoryBackend) : MemoryBackend :=
  { m with policyRoutes := m.policyRoutes ++ [route] }

def ensureGateway (gateway : Gateway) (m : MemoryBackend) : MemoryBackend :=
  { m with gateways := m.gateways.insert (gatewayKey gateway.vpc gateway.name) gateway }

def ensureNATRule (rule : NATRule) (m : MemoryBackend) : MemoryBackend :=
  { m with natRules := m.natRules.insert (natRuleKey rule.vpc rule.name) rule }

def ensureLoadBalancer (lb : LoadBalancer) (m : MemoryBackend) : MemoryBackend :=
  { m with loadBalancers := m.loadBalancers.insert (loadBalancerKey lb.vpc lb.name) lb }

def beginTopologyReconcile (m : MemoryBackend) : MemoryBackend := { m with policyRoutes := [] }

def cleanupTopology (state : Topology.State) (m : MemoryBackend) : MemoryBackend :=
  { m with
    vpcs := state.vpcs
    subnets := state.subnets
    endpoints := state.endpoints
    routeTables := state.routeTables
    gateways := state.gateways
    natRules := state.natRules
    loadBalancers := state.loadBalancers }

def applyEndpointProgram (program : Program) (m : MemoryBackend) : MemoryBackend :=
  { m with policyProgram := m.policyProgram.insert program.endpointID program }

def cleanupPolicy (state : DesiredState) (m : MemoryBackend) : MemoryBackend :=
  { m with policyProgram := keep (fun endpointID _ =>
      (state.endpoints.map fun endpoint => endpointKey endpoint.vpc endpoint.id).contains
        endpointID) m.policyProgram }

def topologyState (m : MemoryBackend) : Topology.State where
  vpcs := m.vpcs
  subnets := m.subnets
  endpoints := m.endpoints
  routeTables := m.routeTables
  policyRoutes := m.policyRoutes
  gateways := m.gateways
  natRules := m.natRules
  loadBalancers := m.loadBalancers

end MemoryBackend

/-! ### A run of the controller -/

def securityGroupsForVPC (groups : List SecurityGroup) (vpc : String) : SecurityGroups :=
  insertAll SecurityGroup.name id (groups.filter fun group => group.vpc = vpc)

/-- The program of an endpoint at a time. The identity cache returns the stable identity
of a text whether it has seen it before or not. -/
def compileEndpoint (state : DesiredState) (clock : Time) (endpoint : Endpoint) :
    Except String Program :=
  compileForEndpointWithContext endpoint (securityGroupsForVPC state.securityGroups endpoint.vpc)
    { endpoints := some state.endpoints
      subnets := state.subnets
      gateways := state.gateways
      services := state.loadBalancers
      dnsRecords := state.dnsRecords
      cidrGroups := state.cidrGroups
      identityResolver := some stableIdentity } clock

/-- A check whose error ends the run. -/
def checked {σ : Type} (check : Except String Unit) : EStateM Failure σ Unit :=
  match check with
  | .ok _ => pure ()
  | .error message => throw (.invalid message)

open MemoryBackend in
/-- `Reconcile` over this backend; `clock` is the time at which an endpoint is compiled. -/
def reconcileMemory (sha256 : Sha256) (state : DesiredState) (clock : Endpoint → Time) :
    EStateM Failure MemoryBackend Unit := do
  checked (validateState sha256 state)
  modify beginTopologyReconcile
  modify (cleanupTopology (desiredTopologyState state))
  state.vpcs.forM fun vpc => do
    checked vpc.validate
    modify (ensureVPC vpc)
  state.subnets.forM fun subnet => do
    checked subnet.validate
    modify (ensureSubnet subnet)
  state.routeTables.forM fun table => do
    checked table.validate
    modify (ensureRouteTable table)
  (byPriority state.policyRoutes).forM fun route => do
    checked route.validate
    modify (ensurePolicyRoute route)
  state.gateways.forM fun gateway => do
    checked gateway.validate
    modify (ensureGateway gateway)
  state.endpoints.forM fun endpoint => do
    checked endpoint.validate
    modify (ensureEndpoint endpoint)
    match compileEndpoint state (clock endpoint) endpoint with
    | .ok program => modify (applyEndpointProgram program)
    | .error message => throw (.compile message)
  state.natRules.forM fun rule => modify (ensureNATRule rule)
  state.loadBalancers.forM fun lb => modify (ensureLoadBalancer lb)
  modify (cleanupPolicy state)

/-! ### What a run keeps -/

/-- All maps hold the same under every key. -/
structure SameMaps (shown desired : Topology.State) : Prop where
  vpcs : ∀ k, shown.vpcs.lookup k = desired.vpcs.lookup k
  subnets : ∀ k, shown.subnets.lookup k = desired.subnets.lookup k
  endpoints : ∀ k, shown.endpoints.lookup k = desired.endpoints.lookup k
  routeTables : ∀ k, shown.routeTables.lookup k = desired.routeTables.lookup k
  gateways : ∀ k, shown.gateways.lookup k = desired.gateways.lookup k
  natRules : ∀ k, shown.natRules.lookup k = desired.natRules.lookup k
  loadBalancers : ∀ k, shown.loadBalancers.lookup k = desired.loadBalancers.lookup k

/-- Storing an item of the list under its key changes nothing. -/
theorem lookup_insert_listed {α : Type} {key : α → String} {items : List α}
    (nodup : (items.map key).Nodup) {map : AList fun _ : String => α}
    (mirrors : ∀ k, map.lookup k = (insertAll key id items).lookup k) {item : α}
    (listed : item ∈ items) (k : String) :
    (map.insert (key item) item).lookup k = (insertAll key id items).lookup k := by
  by_cases here : k = key item
  · rw [here, lookup_insert, (lookup_insertAll key id nodup _ _).mpr ⟨item, listed, rfl, rfl⟩]
    rfl
  · rw [lookup_insert_ne here, mirrors]

/-- A point of a run after the cleanup: these routes are collected, and the programs of these
endpoints are stored. -/
structure Stage (state : DesiredState) (clock : Endpoint → Time) (routes : List PolicyRoute)
    (done : List Endpoint) (m : MemoryBackend) : Prop where
  maps : SameMaps m.topologyState (desiredTopologyState state)
  policyRoutes : m.policyRoutes = routes
  programs : ∀ endpoint ∈ done, ∃ program, compileEndpoint state (clock endpoint) endpoint =
    .ok program ∧ m.policyProgram.lookup (endpointKey endpoint.vpc endpoint.id) = some program

section Stages

open MemoryBackend

variable {state : DesiredState} {clock : Endpoint → Time} {routes : List PolicyRoute}
  {done : List Endpoint} {m : MemoryBackend}

theorem stage_cleanup (m : MemoryBackend) : Stage state clock [] []
    (cleanupTopology (desiredTopologyState state) (beginTopologyReconcile m)) where
  maps := ⟨fun _ => rfl, fun _ => rfl, fun _ => rfl, fun _ => rfl, fun _ => rfl, fun _ => rfl,
    fun _ => rfl⟩
  policyRoutes := rfl
  programs := by simp

variable (keyed : Keyed state) (stage : Stage state clock routes done m)

include keyed stage

theorem Stage.ensureVPC {vpc : VPC} (listed : vpc ∈ state.vpcs) :
    Stage state clock routes done (ensureVPC vpc m) :=
  { stage with maps := { stage.maps with
      vpcs := lookup_insert_listed keyed.vpcs stage.maps.vpcs listed } }

theorem Stage.ensureSubnet {subnet : Subnet} (listed : subnet ∈ state.subnets) :
    Stage state clock routes done (ensureSubnet subnet m) :=
  { stage with maps := { stage.maps with
      subnets := lookup_insert_listed keyed.subnets stage.maps.subnets listed } }

theorem Stage.ensureRouteTable {table : RouteTable} (listed : table ∈ state.routeTables) :
    Stage state clock routes done (ensureRouteTable table m) :=
  { stage with maps := { stage.maps with
      routeTables := lookup_insert_listed keyed.routeTables stage.maps.routeTables listed } }

theorem Stage.ensureGateway {gateway : Gateway} (listed : gateway ∈ state.gateways) :
    Stage state clock routes done (ensureGateway gateway m) :=
  { stage with maps := { stage.maps with
      gateways := lookup_insert_listed keyed.gateways stage.maps.gateways listed } }

theorem Stage.ensureNATRule {rule : NATRule} (listed : rule ∈ state.natRules) :
    Stage state clock routes done (ensureNATRule rule m) :=
  { stage with maps := { stage.maps with
      natRules := lookup_insert_listed keyed.natRules stage.maps.natRules listed } }

theorem Stage.ensureLoadBalancer {lb : LoadBalancer} (listed : lb ∈ state.loadBalancers) :
    Stage state clock routes done (ensureLoadBalancer lb m) :=
  { stage with maps := { stage.maps with
      loadBalancers := lookup_insert_listed keyed.loadBalancers stage.maps.loadBalancers
        listed } }

omit keyed in
theorem Stage.ensurePolicyRoute (route : PolicyRoute) :
    Stage state clock (routes ++ [route]) done (ensurePolicyRoute route m) :=
  { stage with
    maps := { stage.maps with }
    policyRoutes := by rw [MemoryBackend.ensurePolicyRoute, stage.policyRoutes] }

/-- An endpoint is stored, and then its program. -/
theorem Stage.applyEndpointProgram {endpoint : Endpoint} {rest : List Endpoint}
    (split : done ++ endpoint :: rest = state.endpoints) {program : Program}
    (compiles : compileEndpoint state (clock endpoint) endpoint = .ok program) :
    Stage state clock routes (done ++ [endpoint])
      (applyEndpointProgram program (ensureEndpoint endpoint m)) where
  maps := { stage.maps with
    endpoints := lookup_insert_listed keyed.endpoints stage.maps.endpoints
      (split ▸ by simp) }
  policyRoutes := stage.policyRoutes
  programs := by
    intro other member
    simp only [MemoryBackend.applyEndpointProgram, endpointID_of_compile compiles]
    rcases mem_append.mp member with before | here
    · obtain ⟨earlier, compiled, held⟩ := stage.programs other before
      refine ⟨earlier, compiled, ?_⟩
      rwa [lookup_insert_ne]
      -- an endpoint with this key would be the same
      intro same
      have listed : other ∈ state.endpoints := split ▸ mem_append_left _ before
      have nodup := keyed.endpoints
      rw [← split, map_append, map_cons, nodup_append] at nodup
      exact nodup.2.2 _ (mem_map.mpr ⟨other, before, rfl⟩) _ (mem_cons_self ..) same
    · rw [mem_singleton.mp here]
      exact ⟨program, compiles, lookup_insert _⟩

omit keyed in
/-- The cleanup leaves the programs of the endpoints and no others. -/
theorem Stage.lookup_cleanupPolicy (all : done = state.endpoints) (k : String) (program : Program) :
    (MemoryBackend.cleanupPolicy state m).policyProgram.lookup k = some program ↔
      ∃ endpoint ∈ state.endpoints, endpointKey endpoint.vpc endpoint.id = k ∧
        compileEndpoint state (clock endpoint) endpoint = .ok program := by
  rw [MemoryBackend.cleanupPolicy, lookup_keep, Option.filter_eq_some_iff]
  simp only [contains_iff_mem, mem_map]
  constructor
  · rintro ⟨held, endpoint, listed, rfl⟩
    obtain ⟨stored, compiles, found⟩ := stage.programs endpoint (all ▸ listed)
    rw [held, Option.some.injEq] at found
    exact ⟨endpoint, listed, rfl, found ▸ compiles⟩
  · rintro ⟨endpoint, listed, rfl, compiles⟩
    obtain ⟨stored, compiles', found⟩ := stage.programs endpoint (all ▸ listed)
    rw [compiles, Except.ok.injEq] at compiles'
    exact ⟨compiles' ▸ found, endpoint, listed, rfl⟩

end Stages

/-! ### Runs -/

/-- The backend shows the topology of the state without DNS records, and it holds the programs
of the endpoints of the state and no others. -/
structure Converged (state : DesiredState) (clock : Endpoint → Time) (m : MemoryBackend) :
    Prop where
  maps : SameMaps m.topologyState (desiredTopologyState state)
  policyRoutes : m.topologyState.policyRoutes.Perm (desiredTopologyState state).policyRoutes
  dnsRecords : m.topologyState.dnsRecords = []
  programs : ∀ k program, m.policyProgram.lookup k = some program ↔
    ∃ endpoint ∈ state.endpoints, endpointKey endpoint.vpc endpoint.id = k ∧
      compileEndpoint state (clock endpoint) endpoint = .ok program

/-- One topology is the other, up to the order of policy routes. -/
structure Shows (shown desired : Topology.State) : Prop where
  maps : SameMaps shown desired
  policyRoutes : shown.policyRoutes.Perm desired.policyRoutes
  dnsRecords : shown.dnsRecords = desired.dnsRecords

/-- The topology that is shown is the desired one unless there are DNS records. -/
theorem Converged.shows_iff {state : DesiredState} {clock : Endpoint → Time} {m : MemoryBackend}
    (converged : Converged state clock m) :
    Shows m.topologyState (desiredTopologyState state) ↔ state.dnsRecords = [] := by
  constructor
  · intro shows
    exact shows.dnsRecords.symm.trans converged.dnsRecords
  · intro none
    exact ⟨converged.maps, converged.policyRoutes, converged.dnsRecords.trans none.symm⟩

section Runs

open Stateful MemoryBackend

variable {sha256 : Sha256} {state : DesiredState} {clock : Endpoint → Time} {m : MemoryBackend}

/-- A loop that checks and stores items that are known to be valid. -/
theorem leads_ensureLoop {α : Type} {items : List α} {check : α → Except String Unit}
    {ensure : α → MemoryBackend → MemoryBackend} {Q : PUnit → MemoryBackend → Prop}
    {E : Failure → MemoryBackend → Prop} (Invariant : List α → MemoryBackend → Prop)
    (valid : ∀ item ∈ items, check item = .ok ()) (initial : Invariant [] m)
    (step : ∀ done item m, item ∈ items → Invariant done m →
      Invariant (done ++ [item]) (ensure item m))
    (final : ∀ m, Invariant items m → Q ⟨⟩ m) :
    Leads (items.forM fun item => do checked (check item); modify (ensure item)) m Q E := by
  refine leads_forM Invariant initial (fun done item rest m split holds => ?_) final
  have listed : item ∈ items := split ▸ by simp
  rw [valid item listed]
  exact step done item m listed holds

/-- A failed run has changed nothing unless a policy did not compile. -/
def Unchanged (m : MemoryBackend) : Failure → MemoryBackend → Prop
  | .invalid _, m' => m' = m
  | .compile _, _ => True

theorem leads_reconcileMemory : Leads (reconcileMemory sha256 state clock) m
    (fun _ m' => Converged state clock m') (Unchanged m) := by
  refine leads_bind ?_
  cases accepted : validateState sha256 state with
  | error message => exact rfl
  | ok _ =>
    have keyed := keyed_of_validateState accepted
    have valid := objectsValid_of_validateState accepted
    have sorted : (byPriority state.policyRoutes).Perm state.policyRoutes :=
      perm_insertionSort _ _
    refine leads_pure (leads_bind (leads_modify (leads_bind (leads_modify (leads_bind ?_)))))
    -- the maps are complete from here on, and every object is stored where it already is
    refine leads_ensureLoop (fun _ => Stage state clock [] []) valid.vpcs (stage_cleanup m)
      (fun _ _ _ listed stage => stage.ensureVPC keyed listed) fun m stage => leads_bind ?_
    refine leads_ensureLoop (fun _ => Stage state clock [] []) valid.subnets stage
      (fun _ _ _ listed stage => stage.ensureSubnet keyed listed) fun m stage => leads_bind ?_
    refine leads_ensureLoop (fun _ => Stage state clock [] []) valid.routeTables stage
      (fun _ _ _ listed stage => stage.ensureRouteTable keyed listed) fun m stage => leads_bind ?_
    refine leads_ensureLoop (fun done => Stage state clock done [])
      (fun route listed => valid.policyRoutes route (sorted.mem_iff.mp listed)) stage
      (fun _ route _ _ stage => stage.ensurePolicyRoute route) fun m stage => leads_bind ?_
    refine leads_ensureLoop (fun _ => Stage state clock _ []) valid.gateways stage
      (fun _ _ _ listed stage => stage.ensureGateway keyed listed) fun m stage => leads_bind ?_
    refine leads_forM (Stage state clock (byPriority state.policyRoutes)) stage ?_ ?_
    · intro done endpoint rest m split stage
      rw [valid.endpoints endpoint (split ▸ by simp)]
      refine leads_bind (leads_pure (leads_bind (leads_modify ?_)))
      cases compiles : compileEndpoint state (clock endpoint) endpoint with
      | ok program => exact leads_modify (stage.applyEndpointProgram keyed split compiles)
      | error message => exact trivial
    intro m stage
    refine leads_bind (leads_forM (fun _ => Stage state clock _ _) stage
      (fun _ rule _ _ split stage => leads_modify (stage.ensureNATRule keyed (split ▸ by simp)))
      fun m stage => leads_bind ?_)
    refine leads_forM (fun _ => Stage state clock _ _) stage
      (fun _ lb _ _ split stage => leads_modify
        (stage.ensureLoadBalancer keyed (split ▸ by simp))) fun m stage => leads_modify ?_
    exact {
      maps := { stage.maps with }
      policyRoutes := by
        rw [← stage.policyRoutes] at sorted
        exact sorted
      dnsRecords := rfl
      programs := stage.lookup_cleanupPolicy rfl }

/-- A call of `Reconcile`: a state, and the times at which its endpoints are compiled. -/
structure ReconcileCall where
  state : DesiredState
  clock : Endpoint → Time

/-- The backend after a call. -/
def ReconcileCall.after (sha256 : Sha256) (m : MemoryBackend) (call : ReconcileCall) :
    MemoryBackend :=
  match reconcileMemory sha256 call.state call.clock m with
  | .ok _ m' | .error _ m' => m'

/-- After any calls, a call that returns leaves the programs of its state and its topology
without the DNS records, so all of the topology exactly if there are no records. A call that
is rejected by validation leaves the backend as it was. -/
theorem memoryBackend_converges (sha256 : Sha256) (calls : List ReconcileCall)
    (state : DesiredState) (clock : Endpoint → Time) :
    let before := calls.foldl (ReconcileCall.after sha256) newMemoryBackend
    (∀ after, reconcileMemory sha256 state clock before = .ok () after →
      Converged state clock after ∧
      (Shows after.topologyState (desiredTopologyState state) ↔ state.dnsRecords = [])) ∧
    ∀ message after, reconcileMemory sha256 state clock before = .error (.invalid message) after →
      after = before := by
  refine ⟨fun after returned => ?_, fun _ _ failed => leads_reconcileMemory.of_error failed⟩
  have converged : Converged state clock after := leads_reconcileMemory.of_ok returned
  exact ⟨converged, converged.shows_iff⟩

/-- One VPC and these records. -/
def recordState (dnsRecords : List DNSRecord) : DesiredState where
  vpcs := [{ name := "red" }]
  dnsRecords

def webRecord : DNSRecord :=
  { name := "web.example", ips := [.v4 1], ttlSeconds := 0, observedAt := 0 }

private theorem recordState_returns (records : List DNSRecord)
    (accepted : validateState (fun _ => []) (recordState records) = .ok ()) :
    ∃ after, reconcileMemory (fun _ => []) (recordState records) (fun _ => 0) newMemoryBackend =
      .ok () after := by
  unfold reconcileMemory
  rw [accepted]
  exact ⟨_, rfl⟩

/-- A call that returns, on a state without records, and one that is rejected. -/
theorem memoryBackend_converges_red :
    (∃ after, reconcileMemory (fun _ => []) (recordState []) (fun _ => 0) newMemoryBackend =
      .ok () after ∧ Converged (recordState []) (fun _ => 0) after ∧
      Shows after.topologyState (desiredTopologyState (recordState []))) ∧
    ∃ message, reconcileMemory (fun _ => []) { vpcs := [{ name := "" }] } (fun _ => 0)
      newMemoryBackend = .error (.invalid message) newMemoryBackend := by
  constructor
  · obtain ⟨after, returned⟩ := recordState_returns [] (by decide +kernel)
    obtain ⟨converged, shows⟩ :=
      (memoryBackend_converges (fun _ => []) [] (recordState []) fun _ => 0).1 after returned
    exact ⟨after, returned, converged, shows.mpr rfl⟩
  · obtain ⟨message, after, failed⟩ : ∃ message after, reconcileMemory (fun _ => [])
        { vpcs := [{ name := "" }] } (fun _ => 0) newMemoryBackend =
          .error (.invalid message) after := ⟨_, _, rfl⟩
    rw [failed]
    exact ⟨message, by rw [(memoryBackend_converges (fun _ => []) []
      { vpcs := [{ name := "" }] } fun _ => 0).2 message after failed]; rfl⟩

/-- A record of the state is not shown. -/
theorem memoryBackend_drops_records : ∃ after,
    reconcileMemory (fun _ => []) (recordState [webRecord]) (fun _ => 0) newMemoryBackend =
      .ok () after ∧
    after.topologyState.dnsRecords = [] ∧
    (desiredTopologyState (recordState [webRecord])).dnsRecords = [webRecord] := by
  obtain ⟨after, returned⟩ := recordState_returns [webRecord] (by decide +kernel)
  exact ⟨after, returned, rfl, rfl⟩

end Runs

end Netloom.Control
