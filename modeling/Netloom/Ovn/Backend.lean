import Netloom.Ovn.Lifecycle
import Netloom.Topology.WellDefined
import Netloom.Lib.Cells
import Netloom.Lib.Stateful

/-!
# The command-mode backend

The backend plans the operations of one object at a time and hands them to an
executor. It remembers the last desired state whose cleanup succeeded and, for the
run that follows, which objects are the same as in the one before. The controller
runs cleanup first and then every object in a fixed order, and stops at the first
error.

The executor works on a world of its own, which a failing call may change too. The
operations of a failed call stay in the planner's list, from which nothing is
executed again, so that list is left out.
-/
namespace Netloom.Ovn

open Model
open Control (DesiredState validateState desiredTopologyState)

structure Backend where
  planner : Planner := {}
  last : DesiredSnapshot := {}
  skipNAT : StringMap := ∅
  skipLB : StringMap := ∅
  skipPR : StringMap := ∅
  skipRT : StringMap := ∅
  skipEP : StringMap := ∅
  seen : Bool := false

/-- The signature is the one that was found unchanged under this key. -/
def skips (skip : StringMap) (key signature : String) : Bool := skip.lookup key = some signature

/-- A table is skipped if all its routes are. One without routes never is, but has no
operations either. -/
def skipUnchangedRouteTable (skip : StringMap) (table : RouteTable) : Bool :=
  !table.routes.isEmpty && table.routes.all fun route =>
    skips skip (routeKey table.vpc route) (routeSignature ⟨table.vpc, route⟩)

namespace Backend

variable (sha256 : Sha256) {ω : Type} (execute : List Operation → EStateM String ω Unit)

/-- Plans, and executes what was planned. The plan's effect on the planner stays if the
execution fails. -/
def apply (plan : Backend → Planner × List Operation) : EStateM String (Backend × ω) Unit :=
  fun (backend, world) =>
    let (planner, ops) := plan backend
    let backend := { backend with planner }
    if ops.isEmpty then .ok () (backend, world)
    else match execute ops world with
      | .ok _ world => .ok () (backend, world)
      | .error err world => .error err (backend, world)

variable (backend : Backend)

def planVPC (vpc : VPC) : Planner × List Operation :=
  (backend.planner, vpcOperations sha256 vpc)

def planSubnet (subnet : Subnet) : Planner × List Operation :=
  backend.planner.ensureSubnet sha256 subnet

def skipUnchangedEndpoint (endpoint : Endpoint) : Bool :=
  skips backend.skipEP (endpointKey endpoint.vpc endpoint.id)
    (endpointSignature sha256 endpoint (subnetForEndpoint backend.last.subnets endpoint))

def planEndpoint (endpoint : Endpoint) : Planner × List Operation :=
  (backend.planner, if backend.skipUnchangedEndpoint sha256 endpoint then []
    else backend.planner.ensureEndpoint sha256 endpoint)

def planRouteTable (table : RouteTable) : Planner × List Operation :=
  (backend.planner, if skipUnchangedRouteTable backend.skipRT table then []
    else routeTableOperations sha256 table)

def planPolicyRoute (route : PolicyRoute) : Planner × List Operation :=
  (backend.planner,
    if skips backend.skipPR (policyRouteKey route) (policyRouteSignature route) then []
    else policyRouteOperations sha256 route)

def planGateway (gateway : Gateway) : Planner × List Operation :=
  (backend.planner, gatewayOperations sha256 gateway)

def planNATRule (rule : NATRule) : Planner × List Operation :=
  (backend.planner,
    if skips backend.skipNAT (natRuleStateKey rule.vpc rule.name) (natRuleSignature rule) then []
    else natRuleOperations sha256 rule)

def planLoadBalancer (lb : LoadBalancer) : Planner × List Operation :=
  if skips backend.skipLB (loadBalancerStateKey lb) (loadBalancerSignature lb) then
    (backend.planner, [])
  else backend.planner.ensureLoadBalancer sha256 lb

def ensureVPC (vpc : VPC) : EStateM String (Backend × ω) Unit :=
  apply execute (planVPC sha256 · vpc)

def ensureSubnet (subnet : Subnet) : EStateM String (Backend × ω) Unit :=
  apply execute (planSubnet sha256 · subnet)

def ensureEndpoint (endpoint : Endpoint) : EStateM String (Backend × ω) Unit :=
  apply execute (planEndpoint sha256 · endpoint)

def ensureRouteTable (table : RouteTable) : EStateM String (Backend × ω) Unit :=
  apply execute (planRouteTable sha256 · table)

def ensurePolicyRoute (route : PolicyRoute) : EStateM String (Backend × ω) Unit :=
  apply execute (planPolicyRoute sha256 · route)

def ensureGateway (gateway : Gateway) : EStateM String (Backend × ω) Unit :=
  apply execute (planGateway sha256 · gateway)

def ensureNATRule (rule : NATRule) : EStateM String (Backend × ω) Unit :=
  apply execute (planNATRule sha256 · rule)

def ensureLoadBalancer (lb : LoadBalancer) : EStateM String (Backend × ω) Unit :=
  apply execute (planLoadBalancer sha256 · lb)

/-- Forgets what was found unchanged. -/
def beginTopologyReconcile (backend : Backend) : Backend :=
  { backend with skipNAT := ∅, skipLB := ∅, skipPR := ∅, skipRT := ∅, skipEP := ∅ }

/-- The operations of one cleanup; the first one also removes what no state remembers. -/
def cleanupPlan (backend : Backend) (next : DesiredSnapshot) : List Operation :=
  (if backend.seen then []
    else [gcStaleDHCPOptionsOperation next.endpoints next.subnets,
      gcStaleNATRulesOperation next.natRules, gcStalePolicyRoutesOperation next.policyRoutes]) ++
  cleanupOperations sha256 backend.last next

/-- The backend after a cleanup that succeeded. -/
def cleanedUp (backend : Backend) (next : DesiredSnapshot) : Backend where
  planner := backend.planner.syncLoadBalancerHealthChecks next.loadBalancers
  last := next
  skipNAT := unchangedNATRules backend.last next
  skipLB := unchangedLoadBalancers backend.last next
  skipPR := unchangedPolicyRoutes backend.last next
  skipRT := unchangedRoutes backend.last next
  skipEP := unchangedEndpoints sha256 backend.last next
  seen := true

def cleanupTopology (state : Topology.State) : EStateM String (Backend × ω) Unit :=
  fun (backend, world) =>
    let next := snapshotDesired state
    let ops := backend.cleanupPlan sha256 next
    if ops.isEmpty then .ok () (backend.cleanedUp sha256 next, world)
    else match execute ops world with
      | .ok _ world => .ok () (backend.cleanedUp sha256 next, world)
      | .error err world => .error err (backend, world)

/-- Puts a text in front of an error. -/
def naming {σ α : Type} (text : String) : EStateM String σ α → EStateM String σ α :=
  EStateM.adaptExcept fun err => s!"{text}: {err}"

/-- One run of the controller over this backend. `policy` is the outcome of compiling and
applying the policy of an endpoint, `cleanupPolicy` that of the policy's own cleanup. -/
def reconcile (policy : Endpoint → Except String Unit) (cleanupPolicy : Except String Unit)
    (state : DesiredState) : EStateM String (Backend × ω) Unit := do
  ofExcept (validateState sha256 state)
  modify fun (backend, world) => (backend.beginTopologyReconcile, world)
  naming "cleanup topology" (cleanupTopology sha256 execute (desiredTopologyState state))
  state.vpcs.forM fun vpc =>
    naming s!"ensure vpc {vpc.name}" (ensureVPC sha256 execute vpc)
  state.subnets.forM fun subnet =>
    naming s!"ensure subnet {subnet.name}" (ensureSubnet sha256 execute subnet)
  state.routeTables.forM fun table =>
    naming s!"ensure route table {table.name}" (ensureRouteTable sha256 execute table)
  (Topology.byPriority state.policyRoutes).forM fun route =>
    naming s!"ensure policy route {route.name}" (ensurePolicyRoute sha256 execute route)
  state.gateways.forM fun gateway =>
    naming s!"ensure gateway {gateway.name}" (ensureGateway sha256 execute gateway)
  state.endpoints.forM fun endpoint => do
    naming s!"ensure endpoint {endpoint.id}" (ensureEndpoint sha256 execute endpoint)
    ofExcept (policy endpoint)
  state.natRules.forM fun rule =>
    naming s!"ensure nat rule {rule.name}" (ensureNATRule sha256 execute rule)
  state.loadBalancers.forM fun lb =>
    naming s!"ensure load balancer {lb.name}" (ensureLoadBalancer sha256 execute lb)
  ofExcept cleanupPolicy

end Backend

/-! ### What a snapshot holds

Of the objects that are gone, or that two snapshots share, at most one has a given key. -/

open Control List Fold Strings

/-! ### Maps of objects -/

section

variable {α : Type} {key : α → String}

/-- Every object is stored under its own key. -/
def WellKeyed (key : α → String) (map : AList fun _ : String => α) : Prop :=
  ∀ k item, map.lookup k = some item → key item = k

theorem wellKeyed_insertAll (key : α → String) (items : List α) :
    WellKeyed key (insertAll key id items) := by
  intro k item held
  obtain ⟨source, _, same, rfl⟩ := of_lookup_insertAll key id held
  exact same

variable {items : List α}

theorem valuesOf_insertAll (nodup : (items.map key).Nodup) :
    valuesOf (insertAll key id items) = items.reverse := by
  rw [valuesOf, entries_insertAll key id nodup]
  simp [Function.comp_def]

variable {k : String} {item : α}

theorem lookup_insertAll_iff (nodup : (items.map key).Nodup) :
    (insertAll key id items).lookup k = some item ↔ item ∈ items ∧ key item = k := by
  rw [lookup_insertAll key id nodup]
  simp

/-- Storing the values of a map again changes nothing. -/
theorem lookup_rekeyed (nodup : (items.map key).Nodup) :
    (insertAll key id (valuesOf (insertAll key id items))).lookup k = some item ↔
      item ∈ items ∧ key item = k := by
  rw [valuesOf_insertAll nodup, lookup_insertAll_iff, mem_reverse]
  rwa [map_reverse, nodup_reverse]

/-! ### Objects that are gone or stay -/

variable (old next : AList fun _ : String => α)

theorem mem_staleKeys : k ∈ staleKeys old next ↔
    (old.lookup k).isSome ∧ (next.lookup k).isNone := by
  rw [staleKeys, mem_sortStrings, mem_filter, AList.lookup_isSome, AList.mem_keys]

theorem mem_commonKeys : k ∈ commonKeys old next ↔
    (old.lookup k).isSome ∧ (next.lookup k).isSome := by
  simp [commonKeys, mem_sortStrings, AList.lookup_isSome, AList.mem_keys]

theorem nodup_staleKeys : (staleKeys old next).Nodup :=
  (sortStrings_perm _).nodup_iff.mpr (old.nodupKeys.filter _)

theorem nodup_commonKeys : (commonKeys old next).Nodup :=
  (sortStrings_perm _).nodup_iff.mpr (old.nodupKeys.filter _)

variable {old next}

/-- The object under one key, among those that are gone. -/
theorem filter_staleValues (keyed : WellKeyed key old) (k : String) :
    ((staleValues old next).filter fun item => key item = k) =
      if (next.lookup k).isNone then (old.lookup k).toList else [] := by
  have pulled : ((staleValues old next).filter fun item => key item = k) =
      ((staleKeys old next).filter fun k' => k' = k).filterMap old.lookup := by
    rw [staleValues, filter_filterMap, filterMap_filter]
    refine filterMap_congr fun k' member => ?_
    cases held : old.lookup k' with
    | none => simp
    | some item => simp [Option.filter, keyed k' item held]
  rw [pulled, Cells.filter_key (nodup_staleKeys old next)]
  simp only [mem_staleKeys]
  cases held : old.lookup k <;> cases gone : (next.lookup k).isNone <;> simp [held]

/-- The two versions of the object under one key, if both snapshots have it. -/
theorem filter_commonValues (keyed : WellKeyed key old) (k : String) :
    ((commonValues old next).filter fun pair => key pair.1 = k) =
      ((old.lookup k).bind fun before =>
        (next.lookup k).map fun after => (before, after)).toList := by
  have pulled : ((commonValues old next).filter fun pair => key pair.1 = k) =
      ((commonKeys old next).filter fun k' => k' = k).filterMap fun key =>
        (old.lookup key).bind fun before => (next.lookup key).map fun after => (before, after) := by
    rw [commonValues, filter_filterMap, filterMap_filter]
    refine filterMap_congr fun k' member => ?_
    cases held : old.lookup k' with
    | none => simp
    | some item => cases after : next.lookup k' <;> simp [Option.filter, keyed k' item held]
  rw [pulled, Cells.filter_key (nodup_commonKeys old next)]
  simp only [mem_commonKeys]
  cases held : old.lookup k <;> cases after : next.lookup k <;> simp [held, after]

theorem mem_staleValues : item ∈ staleValues old next ↔
    ∃ k, old.lookup k = some item ∧ next.lookup k = none := by
  simp only [staleValues, mem_filterMap, mem_staleKeys, Option.isNone_iff_eq_none]
  grind

theorem mem_commonValues {pair : α × α} :
    pair ∈ commonValues old next ↔
      ∃ k, old.lookup k = some pair.1 ∧ next.lookup k = some pair.2 := by
  simp only [commonValues, mem_filterMap, mem_commonKeys, Option.bind_eq_some_iff,
    Option.map_eq_some_iff]
  grind

theorem keys_commonValues (keyed : WellKeyed key next) :
    (commonValues old next).map (fun pair => key pair.2) = commonKeys old next := by
  rw [commonValues, map_filterMap]
  have each : ∀ k ∈ commonKeys old next, (((old.lookup k).bind fun before =>
      (next.lookup k).map fun after => (before, after)).map fun pair => key pair.2) = some k := by
    intro k member
    obtain ⟨inOld, inNext⟩ := (mem_commonKeys old next).mp member
    obtain ⟨before, held⟩ := Option.isSome_iff_exists.mp inOld
    obtain ⟨after, held'⟩ := Option.isSome_iff_exists.mp inNext
    simp [held, held', keyed k after held']
  rw [filterMap_congr each, filterMap_some]

/-- What is found unchanged under a key is the object of both snapshots. -/
theorem lookup_unchanged (keyed : WellKeyed key next)
    {signature : α → String} {same : α → α → Bool} {found : String} :
    (unchanged old next key signature same).lookup k = some found ↔
      ∃ before after, old.lookup k = some before ∧ next.lookup k = some after ∧
        same before after ∧ signature after = found := by
  have nodup : ((((commonValues old next).filter fun pair => same pair.1 pair.2).map
      Prod.snd).map key).Nodup := by
    rw [map_map]
    refine List.Nodup.sublist (filter_sublist.map _) ?_
    rw [show (key ∘ Prod.snd : α × α → String) = fun pair => key pair.2 from rfl,
      keys_commonValues keyed]
    exact nodup_commonKeys old next
  rw [unchanged, lookup_insertAll key signature nodup]
  simp only [mem_map, mem_filter, mem_commonValues]
  constructor
  · rintro ⟨after, ⟨⟨before, _⟩, ⟨⟨k', held, held'⟩, alike⟩, rfl⟩, here, sign⟩
    have position : k' = k := by rw [← here, keyed k' _ held']
    exact ⟨before, _, position ▸ held, position ▸ held', alike, sign⟩
  · rintro ⟨before, after, held, held', alike, sign⟩
    exact ⟨after, ⟨(before, after), ⟨⟨k, held, held'⟩, alike⟩, rfl⟩, keyed k after held', sign⟩

end

/-! ### Snapshots of accepted states -/

/-- The snapshot that a desired state gives. -/
def snapshotOf (state : DesiredState) : DesiredSnapshot :=
  snapshotDesired (desiredTopologyState state)

theorem wellKeyed_routes (state : DesiredState) :
    WellKeyed (fun record => routeKey record.vpc record.route) (snapshotOf state).routes :=
  wellKeyed_insertAll _ _

theorem routeRecords_eq (tables : List RouteTable) : routeRecords tables =
    (allRoutes tables).map fun entry => ⟨entry.1.vpc, entry.2⟩ := by
  simp [routeRecords, allRoutes, map_flatMap, Function.comp_def]

variable {tables : List RouteTable}

theorem nodup_routeKeys
    (nodup : ((allRoutes tables).map fun entry => destinationKey entry.1 entry.2).Nodup) :
    ((routeRecords tables).map fun record => routeKey record.vpc record.route).Nodup := by
  rw [routeRecords_eq, map_map]
  exact nodup

variable {record : RouteRecord}

theorem lookup_routes {state : DesiredState} (keyed : Keyed state) (separated : Separated state)
    {k : String} : (snapshotOf state).routes.lookup k = some record ↔
      record ∈ routeRecords state.routeTables ∧ routeKey record.vpc record.route = k := by
  have perm : (routeRecords (valuesOf (desiredTopologyState state).routeTables)).Perm
      (routeRecords state.routeTables) := by
    rw [routeRecords, routeRecords, desiredTopologyState, valuesOf_insertAll keyed.routeTables]
    exact (reverse_perm _).flatMap_right _
  have nodup := (perm.map fun record => routeKey record.vpc record.route).nodup_iff.mpr
    (nodup_routeKeys separated.destinations)
  exact (lookup_insertAll_iff nodup).trans (and_congr_left fun _ => perm.mem_iff)

theorem mem_routeRecords :
    record ∈ routeRecords tables ↔
      ∃ table ∈ tables, table.vpc = record.vpc ∧ record.route ∈ table.routes := by
  simp only [routeRecords, mem_flatMap, mem_map]
  constructor
  · rintro ⟨table, member, route, inside, rfl⟩
    exact ⟨table, member, rfl, inside⟩
  · rintro ⟨table, member, same, inside⟩
    exact ⟨table, member, record.route, inside, by rw [same]⟩

/-! ### What one run executes

If the executor runs operations one after the other, a run of the controller that
succeeds is the run of one list of operations. `planRun` computes that list and the
backend that is left. -/

namespace Backend

/-- Plans for a list of objects, one after the other. -/
def planAll {α : Type} (plan : Backend → α → Planner × List Operation) :
    List α → Backend → Backend × List Operation
  | [], backend => (backend, [])
  | item :: rest, backend =>
    let first := plan backend item
    let others := planAll plan rest { backend with planner := first.1 }
    (others.1, first.2 ++ others.2)

/-- One plan, and then another. -/
def planThen (first second : Backend → Backend × List Operation) (backend : Backend) :
    Backend × List Operation :=
  ((second (first backend).1).1, (first backend).2 ++ (second (first backend).1).2)

section

variable (sha256 : Sha256)

def planCleanup (state : DesiredState) (backend : Backend) : Backend × List Operation :=
  (backend.beginTopologyReconcile.cleanedUp sha256 (snapshotOf state),
    backend.beginTopologyReconcile.cleanupPlan sha256 (snapshotOf state))

/-- The operations of a whole run. -/
def planRun (state : DesiredState) : Backend → Backend × List Operation :=
  planThen (planCleanup sha256 state) <|
  planThen (planAll (planVPC sha256) state.vpcs) <|
  planThen (planAll (planSubnet sha256) state.subnets) <|
  planThen (planAll (planRouteTable sha256) state.routeTables) <|
  planThen (planAll (planPolicyRoute sha256) (Topology.byPriority state.policyRoutes)) <|
  planThen (planAll (planGateway sha256) state.gateways) <|
  planThen (planAll (planEndpoint sha256) state.endpoints) <|
  planThen (planAll (planNATRule sha256) state.natRules) <|
  planAll (planLoadBalancer sha256) state.loadBalancers

end

theorem planThen_assoc (first second third : Backend → Backend × List Operation) :
    planThen first (planThen second third) = planThen (planThen first second) third := by
  funext backend
  simp [planThen]

variable {α : Type}

/-- Planning changes nothing but the planner. -/
theorem planAll_fst (plan : Backend → α → Planner × List Operation) (items : List α)
    (backend : Backend) : ∃ planner, (planAll plan items backend).1 = { backend with planner } := by
  induction items generalizing backend with
  | nil => exact ⟨backend.planner, rfl⟩
  | cons item rest ih => exact ih { backend with planner := (plan backend item).1 }

/-- The objects that are planned before the load balancers. -/
def planObjects (sha256 : Sha256) (state : DesiredState) : Backend → Backend × List Operation :=
  planThen (planAll (planVPC sha256) state.vpcs) <|
  planThen (planAll (planSubnet sha256) state.subnets) <|
  planThen (planAll (planRouteTable sha256) state.routeTables) <|
  planThen (planAll (planPolicyRoute sha256) (Topology.byPriority state.policyRoutes)) <|
  planThen (planAll (planGateway sha256) state.gateways) <|
  planThen (planAll (planEndpoint sha256) state.endpoints) <|
  planAll (planNATRule sha256) state.natRules

theorem planRun_eq (sha256 : Sha256) (state : DesiredState) : planRun sha256 state =
    planThen (planCleanup sha256 state) (planThen (planObjects sha256 state)
      (planAll (planLoadBalancer sha256) state.loadBalancers)) := by
  simp [planRun, planObjects, planThen_assoc]

/-! ### Executing operation by operation -/

variable {ω : Type} (step : ω → Operation → Option ω)

/-- An executor that runs the operations in order and fails with the first that does. -/
def execution (ops : List Operation) : EStateM String ω Unit := fun world =>
  match ops.foldlM step world with
  | some world => .ok () world
  | none => .error "execute" world

/-- The action succeeds if the operations of the plan do, and leaves what they leave. -/
def Realizes (action : EStateM String (Backend × ω) Unit)
    (plan : Backend → Backend × List Operation) : Prop :=
  ∀ backend world world', (plan backend).2.foldlM step world = some world' →
    action (backend, world) = .ok () ((plan backend).1, world')

variable {step} {plan : Backend → Backend × List Operation}

theorem Realizes.bind {first second : EStateM String (Backend × ω) Unit}
    {plan' : Backend → Backend × List Operation} (left : Realizes step first plan)
    (right : Realizes step second plan') :
    Realizes step (do first; second) (planThen plan plan') := by
  intro backend world world' ran
  simp only [planThen, List.foldlM_append, Option.bind_eq_bind, Option.bind_eq_some_iff] at ran
  obtain ⟨between, ran, ran'⟩ := ran
  exact Stateful.bind_eq_ok.mpr ⟨(), _, left _ _ _ ran, right _ _ _ ran'⟩

theorem realizes_pure : Realizes step (pure ()) fun backend => (backend, []) := by
  rintro backend world _ ⟨⟩
  rfl

variable {action : EStateM String (Backend × ω) Unit}

theorem Realizes.naming (realizes : Realizes step action plan) (text : String) :
    Realizes step (Backend.naming text action) plan := by
  intro backend world world' ran
  show EStateM.adaptExcept _ action (backend, world) = _
  rw [EStateM.adaptExcept, realizes _ _ _ ran]

/-- Planning and executing realises the plan. -/
theorem realizes_apply (plan : Backend → Planner × List Operation) :
    Realizes step (apply (execution step) plan)
      fun backend => ({ backend with planner := (plan backend).1 }, (plan backend).2) := by
  intro backend world world' ran
  simp only [apply, execution]
  split
  · next empty =>
    rw [List.isEmpty_iff] at empty
    simpa [empty] using ran
  · rw [ran]

theorem realizes_forM (plan : Backend → α → Planner × List Operation)
    (body : α → EStateM String (Backend × ω) Unit) (each : ∀ item, Realizes step (body item)
      fun backend => ({ backend with planner := (plan backend item).1 }, (plan backend item).2))
    (items : List α) : Realizes step (items.forM body) (planAll plan items) := by
  induction items with
  | nil => exact realizes_pure
  | cons item rest ih => exact (each item).bind ih

/-- An outcome that is no error changes nothing. -/
theorem Realizes.then_ok (realizes : Realizes step action plan) :
    Realizes step (do action; ofExcept (.ok ())) plan := by
  intro backend world world' ran
  exact Stateful.bind_eq_ok.mpr ⟨(), _, realizes _ _ _ ran, rfl⟩

theorem realizes_cleanupTopology (sha256 : Sha256) (state : DesiredState) :
    Realizes step (cleanupTopology sha256 (execution step) (desiredTopologyState state))
      fun backend => (backend.cleanedUp sha256 (snapshotOf state),
        backend.cleanupPlan sha256 (snapshotOf state)) := by
  intro backend world world' ran
  simp only [cleanupTopology, execution, snapshotOf] at ran ⊢
  split
  · next empty =>
    rw [List.isEmpty_iff] at empty
    simpa [empty] using ran
  · rw [ran]

theorem realizes_begin : Realizes step
    (modify fun (backend, world) => (backend.beginTopologyReconcile, world))
    fun backend => (backend.beginTopologyReconcile, []) := by
  rintro backend world _ ⟨⟩
  rfl

/-- The run of the controller realises the plan of the run. -/
theorem reconcile_of_planRun {sha256 : Sha256} {state : DesiredState} {backend : Backend}
    {world world' : ω} (accepted : validateState sha256 state = .ok ())
    (ran : (planRun sha256 state backend).2.foldlM step world = some world') :
    reconcile sha256 (execution step) (fun _ => .ok ()) (.ok ()) state (backend, world) =
      .ok () ((planRun sha256 state backend).1, world') := by
  have realized : Realizes step _ _ := realizes_begin.bind <|
    ((realizes_cleanupTopology sha256 state).naming "cleanup topology").bind <|
    (realizes_forM (planVPC sha256) _
      (fun vpc => (realizes_apply _).naming s!"ensure vpc {vpc.name}") state.vpcs).bind <|
    (realizes_forM (planSubnet sha256) _
      (fun subnet => (realizes_apply _).naming s!"ensure subnet {subnet.name}")
      state.subnets).bind <|
    (realizes_forM (planRouteTable sha256) _
      (fun table => (realizes_apply _).naming s!"ensure route table {table.name}")
      state.routeTables).bind <|
    (realizes_forM (planPolicyRoute sha256) _
      (fun route => (realizes_apply _).naming s!"ensure policy route {route.name}")
      (Topology.byPriority state.policyRoutes)).bind <|
    (realizes_forM (planGateway sha256) _
      (fun gateway => (realizes_apply _).naming s!"ensure gateway {gateway.name}")
      state.gateways).bind <|
    (realizes_forM (planEndpoint sha256) _
      (fun endpoint => ((realizes_apply _).naming s!"ensure endpoint {endpoint.id}").then_ok)
      state.endpoints).bind <|
    (realizes_forM (planNATRule sha256) _
      (fun rule => (realizes_apply _).naming s!"ensure nat rule {rule.name}")
      state.natRules).bind <|
    (realizes_forM (planLoadBalancer sha256) _
      (fun lb => (realizes_apply _).naming s!"ensure load balancer {lb.name}")
      state.loadBalancers).then_ok
  exact Stateful.bind_eq_ok.mpr ⟨(), _, by rw [accepted]; rfl, realized _ _ _ ran⟩

end Backend

end Netloom.Ovn
