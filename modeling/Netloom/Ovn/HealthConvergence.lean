import Netloom.Ovn.BalancerSignature

/-!
# Health checks over many runs

Three things decide what a run does to the health checks of a load balancer: the
cleanup destroys its rows if the load balancer loses a protocol, the backend skips it
if its signature is unchanged, and the planner leaves its rows alone if the signature
of the health check is the one it has remembered.
-/
namespace Netloom.Ovn

open Model List

structure HealthCheckRow where
  vpc : String
  loadBalancer : String
  vip : String
  columns : List String
  deriving DecidableEq, Repr

namespace HealthCheckRow

/-- The row carries the tag of a load balancer. -/
def tagged (vpc name : String) (row : HealthCheckRow) : Bool :=
  row.vpc = vpc && row.loadBalancer = name

/-- Writes the columns of the row of an address, or adds a row for it. -/
def ensure (vpc name vip : String) (columns : List String) (rows : List HealthCheckRow) :
    List HealthCheckRow :=
  if rows.any fun row => row.tagged vpc name && row.vip = vip then
    rows.map fun row => if row.tagged vpc name && row.vip = vip then { row with columns } else row
  else rows ++ [⟨vpc, name, vip, columns⟩]

/-- What an operation does to the rows. -/
def step (rows : List HealthCheckRow) : Operation → List HealthCheckRow
  | .gcLoadBalancerHealthChecks name vpc => rows.filter fun row => !row.tagged vpc name
  | .gcStaleLoadBalancerHealthChecks name vpc keep =>
    rows.filter fun row => !row.tagged vpc name || keep.contains row.vip
  | .ensureLoadBalancerHealthCheck _ name vpc vip columns => ensure vpc name vip columns rows
  | _ => rows

/-! ### The rows of one load balancer -/

/-- The addresses of the rows with a tag. -/
def vipsAt (vpc name : String) (rows : List HealthCheckRow) : List String :=
  (rows.filter (tagged vpc name)).map vip

/-- What an operation on the rows of one tag does to their addresses. -/
def vipStep (vips : List String) : Operation → List String
  | .gcLoadBalancerHealthChecks .. => []
  | .gcStaleLoadBalancerHealthChecks _ _ keep => vips.filter keep.contains
  | .ensureLoadBalancerHealthCheck _ _ _ vip _ => if vip ∈ vips then vips else vips ++ [vip]
  | _ => vips

/-- The operation is about the rows of a tag. -/
def touches (vpc name : String) : Operation → Bool
  | .gcLoadBalancerHealthChecks name' vpc' | .gcStaleLoadBalancerHealthChecks name' vpc' _
  | .ensureLoadBalancerHealthCheck _ name' vpc' _ _ => vpc' = vpc && name' = name
  | _ => false

theorem kind_of_touches {vpc name : String} (op : Operation) (touch : touches vpc name op) :
    op.kind ∈ [Kind.healthCheck] := by
  cases op <;> simp_all [touches]

variable {vpc name : String}

/-- The columns of a row do not count for its tag and its address. -/
theorem vipsAt_map_columns (written : HealthCheckRow → Bool) (columns : List String)
    (rows : List HealthCheckRow) :
    vipsAt vpc name (rows.map fun row => if written row then { row with columns } else row) =
      vipsAt vpc name rows := by
  induction rows with
  | nil => rfl
  | cons row rest ih =>
    have same : ∀ row : HealthCheckRow, (if written row then { row with columns } else row).tagged
        vpc name = row.tagged vpc name ∧
        (if written row then { row with columns } else row).vip = row.vip := by
      intro row
      split <;> exact ⟨rfl, rfl⟩
    simp only [vipsAt, map_cons, filter_cons, (same row).1] at ih ⊢
    cases row.tagged vpc name with
    | true => simpa [(same row).2] using ih
    | false => exact ih

theorem vipsAt_ensure_same (vip : String) (columns : List String) (rows : List HealthCheckRow) :
    vipsAt vpc name (ensure vpc name vip columns rows) =
      if vip ∈ vipsAt vpc name rows then vipsAt vpc name rows else vipsAt vpc name rows ++ [vip] := by
  have there : vip ∈ vipsAt vpc name rows ↔
      rows.any (fun row => row.tagged vpc name && row.vip = vip) := by
    simp [vipsAt, and_assoc]
  rw [ensure]
  split
  · next found => rw [if_pos (there.mpr found), vipsAt_map_columns]
  · next absent =>
    rw [if_neg (there.not.mpr absent), vipsAt, filter_append]
    simp [vipsAt, tagged]

theorem vipsAt_ensure_other {vpc' name' : String} (apart : ¬ (vpc' = vpc ∧ name' = name))
    (vip : String) (columns : List String) (rows : List HealthCheckRow) :
    vipsAt vpc name (ensure vpc' name' vip columns rows) = vipsAt vpc name rows := by
  rw [ensure]
  split
  · exact vipsAt_map_columns _ columns rows
  · rw [vipsAt, filter_append, map_append]
    simpa [vipsAt, tagged] using apart

theorem framed (vpc name : String) :
    Cells.Framed step (vipsAt vpc name) vipStep (touches vpc name) where
  touched := by
    intro rows op touch
    cases op with
    | gcLoadBalancerHealthChecks name' vpc' =>
      simp only [touches, Bool.and_eq_true, decide_eq_true_eq] at touch
      obtain ⟨rfl, rfl⟩ := touch
      simp [step, vipsAt, vipStep]
    | gcStaleLoadBalancerHealthChecks name' vpc' keep =>
      simp only [touches, Bool.and_eq_true, decide_eq_true_eq] at touch
      obtain ⟨rfl, rfl⟩ := touch
      simp only [step, vipsAt, vipStep, filter_map, filter_filter]
      congr 1
      refine filter_congr fun row _ => ?_
      cases row.tagged vpc' name' <;> simp
    | ensureLoadBalancerHealthCheck lb name' vpc' vip columns =>
      simp only [touches, Bool.and_eq_true, decide_eq_true_eq] at touch
      obtain ⟨rfl, rfl⟩ := touch
      exact vipsAt_ensure_same vip columns rows
    | _ => simp [touches] at touch
  untouched := by
    intro rows op touch
    -- a row of this tag carries no other
    have keep : ∀ {vpc' name'}, ¬ (vpc' = vpc ∧ name' = name) → ∀ row : HealthCheckRow,
        row.tagged vpc name → row.tagged vpc' name' = false := by
      intro vpc' name' apart row here
      simp only [tagged, Bool.and_eq_true, decide_eq_true_eq] at here
      rw [tagged, ← Bool.not_eq_true, Bool.and_eq_true, decide_eq_true_eq, decide_eq_true_eq]
      rintro ⟨rfl, rfl⟩
      exact apart here
    cases op with
    | gcLoadBalancerHealthChecks name' vpc' | gcStaleLoadBalancerHealthChecks name' vpc' kept =>
      have apart : ¬ (vpc' = vpc ∧ name' = name) := by simpa [touches] using touch
      simp only [step, vipsAt, filter_filter]
      congr 1
      refine filter_congr fun row _ => ?_
      cases here : row.tagged vpc name <;> simp [here, keep apart row]
    | ensureLoadBalancerHealthCheck lb name' vpc' vip columns =>
      exact vipsAt_ensure_other (by simpa [touches] using touch) vip columns rows
    | _ => rfl

/-! ### Runs on the addresses -/

theorem nodup_vipStep {vips : List String} (nodup : vips.Nodup) (op : Operation) :
    (vipStep vips op).Nodup := by
  cases op with
  | gcLoadBalancerHealthChecks _ _ => exact nodup_nil
  | gcStaleLoadBalancerHealthChecks _ _ keep => exact nodup.filter _
  | ensureLoadBalancerHealthCheck _ _ _ vip _ =>
    rw [vipStep]
    split
    · exact nodup
    · next fresh => exact nodup_append'.mpr ⟨nodup, nodup_singleton _, by simpa using fresh⟩
  | _ => exact nodup

theorem nodup_foldl_vipStep (ops : List Operation) {vips : List String} (nodup : vips.Nodup) :
    (ops.foldl vipStep vips).Nodup := by
  induction ops generalizing vips with
  | nil => exact nodup
  | cons op rest ih => exact ih (nodup_vipStep nodup op)

/-- The last of some operations that destroy all rows decides. -/
theorem foldl_vipStep_of_clears {ops : List Operation}
    (clears : ∀ op ∈ ops, ∀ vips, vipStep vips op = []) (vips : List String) :
    ops.foldl vipStep vips = if ops = [] then vips else [] := by
  rcases eq_nil_or_concat ops with rfl | ⟨init, op, rfl⟩
  · rfl
  · rw [concat_eq_append, foldl_append, foldl_cons, clears op (by simp), foldl_nil,
      if_neg (by simp)]

end HealthCheckRow

/-! ### What decides -/

open Control HealthCheckRow Backend AList

/-- The addresses that are to have a row. -/
def checkedVIPs (lb : LoadBalancer) : List String :=
  if lb.healthCheck.enabled then tcpVIPs lb else []

/-! ### What a plan does to health checks -/

/-- The operations of a plan on health checks. -/
def healthOps (sha256 : Sha256) (skip : StringMap) (cached : Option String) (lb : LoadBalancer) :
    List Operation :=
  if skips skip (loadBalancerStateKey lb) (loadBalancerSignature lb) then []
  else if lb.healthCheck.enabled = false then [.gcLoadBalancerHealthChecks lb.name lb.vpc]
  else if cached.getD "" = loadBalancerHealthCheckSignature lb then []
  else ensureHealthChecks sha256 lb ++
    [.gcStaleLoadBalancerHealthChecks lb.name lb.vpc (tcpVIPs lb)]

/-- What the planner remembers of a health check after it has planned it. -/
def cachedAfter (skip : StringMap) (cached : Option String) (lb : LoadBalancer) : Option String :=
  if skips skip (loadBalancerStateKey lb) (loadBalancerSignature lb) then cached
  else if lb.healthCheck.enabled = false then none
  else if cached.getD "" = loadBalancerHealthCheckSignature lb then cached
  else some (loadBalancerHealthCheckSignature lb)

section

variable (sha256 : Sha256) {vpc name : String} {kinds : List Kind}

variable {lb : LoadBalancer} {op : Operation}

theorem touches_of_mem_healthOps {skip : StringMap} {cached : Option String}
    (member : op ∈ healthOps sha256 skip cached lb) :
    touches vpc name op = decide (lb.vpc = vpc ∧ lb.name = name) := by
  rw [healthOps] at member
  split at member
  · exact absurd member not_mem_nil
  · split at member
    · rw [mem_singleton] at member
      simp [member, touches]
    · split at member
      · exact absurd member not_mem_nil
      · rw [mem_append, mem_singleton, ensureHealthChecks, mem_map] at member
        rcases member with ⟨frontend, _, rfl⟩ | rfl <;> simp [touches]

/-- The plan of a load balancer, seen at the rows of one tag. -/
theorem filter_planLoadBalancer (backend : Backend) (lb : LoadBalancer) (vpc name : String) :
    (planLoadBalancer sha256 backend lb).2.filter (touches vpc name) =
      if lb.vpc = vpc ∧ lb.name = name then healthOps sha256 backend.skipLB
        (backend.planner.loadBalancerHealthChecks.lookup (loadBalancerStateKey lb)) lb
      else [] := by
  have records : ((sortedLoadBalancerProtocols lb).flatMap
      (loadBalancerProtocolOperations sha256 lb)).filter (touches vpc name) = [] :=
    (ofKinds_flatMap.mpr fun protocol _ =>
      kinds_loadBalancerProtocolOperations sha256 lb protocol).filter_eq_nil kind_of_touches (by decide)
  have clears : (clearHealthChecks (loadBalancerProtocolNames sha256 lb)).filter
      (touches vpc name) = [] :=
    (kinds_clearHealthChecks _).filter_eq_nil kind_of_touches (by decide)
  have whole : (planLoadBalancer sha256 backend lb).2.filter (touches vpc name) =
      (healthOps sha256 backend.skipLB
        (backend.planner.loadBalancerHealthChecks.lookup (loadBalancerStateKey lb)) lb).filter
        (touches vpc name) := by
    rw [planLoadBalancer, healthOps]
    split
    · rfl
    · simp only [Planner.ensureLoadBalancer, filter_append, records, nil_append]
      rw [Planner.loadBalancerHealthCheckOperations]
      cases on : lb.healthCheck.enabled with
      | false => simp [clears]
      | true =>
        simp only [Bool.not_true, Bool.false_eq_true, if_false, valueAt, reduceCtorEq]
        by_cases known : (backend.planner.loadBalancerHealthChecks.lookup
            (loadBalancerStateKey lb)).getD "" = loadBalancerHealthCheckSignature lb
        · simp [known]
        · simp [known, clears, tcpVIPs]
  rw [whole]
  split
  · next here =>
    refine filter_eq_self.mpr fun op member => ?_
    rw [touches_of_mem_healthOps sha256 member]
    simpa using here
  · next other =>
    refine filter_eq_nil_iff.mpr fun op member => ?_
    rw [touches_of_mem_healthOps sha256 member]
    simpa using other

/-- What the planner remembers after it has planned one load balancer. -/
theorem lookup_planLoadBalancer (backend : Backend) (lb : LoadBalancer) (key : String) :
    (planLoadBalancer sha256 backend lb).1.loadBalancerHealthChecks.lookup key =
      if key = loadBalancerStateKey lb then cachedAfter backend.skipLB
        (backend.planner.loadBalancerHealthChecks.lookup (loadBalancerStateKey lb)) lb
      else backend.planner.loadBalancerHealthChecks.lookup key := by
  rw [planLoadBalancer, cachedAfter]
  split
  · split
    · next same => rw [same]
    · rfl
  · simp only [Planner.ensureLoadBalancer]
    rw [Planner.loadBalancerHealthCheckOperations]
    cases on : lb.healthCheck.enabled with
    | false =>
      by_cases same : key = loadBalancerStateKey lb
      · simp [← same]
      · simp [same]
    | true =>
      simp only [Bool.not_true, Bool.false_eq_true, if_false, valueAt, reduceCtorEq]
      by_cases known : (backend.planner.loadBalancerHealthChecks.lookup
          (loadBalancerStateKey lb)).getD "" = loadBalancerHealthCheckSignature lb
      · simp only [known, if_true]
        split
        · next same => rw [same]
        · rfl
      · simp only [known, if_false]
        split
        · next same => rw [same, lookup_insert]
        · next other => rw [lookup_insert_ne other]

variable {lbs : List LoadBalancer}

theorem filter_planAll_eq_nil (apart : ∀ lb ∈ lbs, ¬ (lb.vpc = vpc ∧ lb.name = name))
    (backend : Backend) :
    (planAll (planLoadBalancer sha256) lbs backend).2.filter (touches vpc name) = [] := by
  induction lbs generalizing backend with
  | nil => rfl
  | cons first rest ih =>
    simp only [planAll, filter_append, filter_planLoadBalancer, if_neg (apart first (by simp)),
      nil_append]
    exact ih (fun lb member => apart lb (mem_cons_of_mem _ member)) _

/-- The plans of all load balancers: each one decides for its own key and its own tag. -/
theorem planAll_loadBalancers (nodup : (lbs.map loadBalancerStateKey).Nodup) (backend : Backend) :
    (∀ key, key ∉ lbs.map loadBalancerStateKey →
      (planAll (planLoadBalancer sha256) lbs backend).1.planner.loadBalancerHealthChecks.lookup key =
        backend.planner.loadBalancerHealthChecks.lookup key) ∧
    ∀ lb ∈ lbs,
      (planAll (planLoadBalancer sha256) lbs backend).1.planner.loadBalancerHealthChecks.lookup
          (loadBalancerStateKey lb) =
        cachedAfter backend.skipLB
          (backend.planner.loadBalancerHealthChecks.lookup (loadBalancerStateKey lb)) lb ∧
      (planAll (planLoadBalancer sha256) lbs backend).2.filter (touches lb.vpc lb.name) =
        healthOps sha256 backend.skipLB
          (backend.planner.loadBalancerHealthChecks.lookup (loadBalancerStateKey lb)) lb := by
  induction lbs generalizing backend with
  | nil => exact ⟨fun _ _ => rfl, fun _ member => absurd member not_mem_nil⟩
  | cons first rest ih =>
    rw [map_cons, nodup_cons] at nodup
    obtain ⟨fresh, nodup⟩ := nodup
    obtain ⟨others, each⟩ := ih nodup
      { backend with planner := (planLoadBalancer sha256 backend first).1 }
    have noOther : ∀ lb ∈ rest, ¬ (lb.vpc = first.vpc ∧ lb.name = first.name) := by
      rintro lb member ⟨vpc, name⟩
      refine fresh (mem_map.mpr ⟨lb, member, ?_⟩)
      rw [loadBalancerStateKey, loadBalancerStateKey, vpc, name]
    refine ⟨fun key absent => ?_, fun lb member => ?_⟩
    · rw [map_cons, mem_cons, not_or] at absent
      rw [planAll, others key absent.2, lookup_planLoadBalancer, if_neg absent.1]
    · simp only [planAll, filter_append, filter_planLoadBalancer]
      rcases mem_cons.mp member with rfl | later
      · -- the rest plans neither this key nor this tag
        refine ⟨by rw [others _ fresh, lookup_planLoadBalancer, if_pos rfl], ?_⟩
        rw [if_pos ⟨rfl, rfl⟩, filter_planAll_eq_nil sha256 noOther, append_nil]
      · have apart : loadBalancerStateKey lb ≠ loadBalancerStateKey first := fun same =>
          fresh (mem_map.mpr ⟨lb, later, same⟩)
        obtain ⟨cached, ops⟩ := each lb later
        have tags := noOther lb later
        rw [if_neg fun same => tags ⟨same.1.symm, same.2.symm⟩, nil_append, cached, ops,
          lookup_planLoadBalancer, if_neg apart]
        exact ⟨rfl, rfl⟩

/-! ### What the cleanup does to health checks -/

/-- The new version of a load balancer has no frontend of some protocol of the old one. -/
def DropsProtocol (lb lb' : LoadBalancer) : Prop :=
  ∃ frontend ∈ lb.frontends, ∀ frontend' ∈ lb'.frontends, frontend'.protocol ≠ frontend.protocol

theorem mem_sortedLoadBalancerProtocols {protocol : Protocol} :
    protocol ∈ sortedLoadBalancerProtocols lb ↔
      ∃ frontend ∈ lb.frontends, frontend.protocol = protocol := by
  rw [sortedLoadBalancerProtocols, mem_insertionSort]
  obtain ⟨sound, complete, _⟩ :=
    Fold.dedupeBy_spec id (lb.frontends.map LoadBalancerFrontend.protocol)
  grind

variable {lb' : LoadBalancer}

/-- A record name that is gone is the name of a protocol that is gone. -/
theorem dropsProtocol_of_removed (vpc : lb.vpc = lb'.vpc) (name : lb.name = lb'.name)
    (removed : removedStrings (loadBalancerProtocolNames sha256 lb)
      (loadBalancerProtocolNames sha256 lb') ≠ []) : DropsProtocol lb lb' := by
  obtain ⟨text, member⟩ := exists_mem_of_ne_nil _ removed
  rw [removedStrings, Strings.mem_sortStrings, mem_filter] at member
  obtain ⟨listed, gone⟩ := member
  obtain ⟨protocol, has, rfl⟩ := mem_map.mp listed
  obtain ⟨frontend, inside, rfl⟩ := mem_sortedLoadBalancerProtocols.mp has
  refine ⟨frontend, inside, fun frontend' inside' same => ?_⟩
  have kept : loadBalancerProtocolName sha256 lb.vpc lb.name frontend.protocol ∈
      loadBalancerProtocolNames sha256 lb' := by
    rw [vpc, name]
    exact mem_map_of_mem (mem_sortedLoadBalancerProtocols.mpr ⟨frontend', inside', same⟩)
  simp [kept] at gone

/-- Only the loops over load balancers are about health checks. -/
theorem filter_cleanupPlan (backend : Backend) (next : DesiredSnapshot) (vpc name : String) :
    (backend.cleanupPlan sha256 next).filter (touches vpc name) =
      ((staleValues backend.last.loadBalancers next.loadBalancers).flatMap
        (staleLoadBalancerOperations sha256)).filter (touches vpc name) ++
      ((commonValues backend.last.loadBalancers next.loadBalancers).flatMap fun pair =>
        commonLoadBalancerOperations sha256 pair.1 pair.2).filter (touches vpc name) := by
  have first : OfKinds [.dhcp, .natRule, .policyRoute] (if backend.seen then []
      else [gcStaleDHCPOptionsOperation next.endpoints next.subnets,
        gcStaleNATRulesOperation next.natRules, gcStalePolicyRoutesOperation next.policyRoutes]) :=
    OfKinds.ite ofKinds_nil (by simp [gcStaleDHCPOptionsOperation, gcStaleNATRulesOperation,
      gcStalePolicyRoutesOperation])
  have routers : OfKinds [.router] ((staleKeys backend.last.vpcs next.vpcs).map fun vpc =>
    Operation.lrDel (logicalRouter sha256 vpc)) := by simp
  rw [cleanupPlan, filter_append, first.filter_eq_nil kind_of_touches (by decide), nil_append,
    filter_cleanupSections sha256 fun op touch =>
      mem_append_right [Kind.route, .router] (kind_of_touches op touch),
    (kinds_routeCleanupOperations sha256 _ _).filter_eq_nil kind_of_touches (by decide),
    routers.filter_eq_nil kind_of_touches (by decide), nil_append, append_nil]

/-- The rows of a load balancer that is gone are destroyed. -/
theorem cleanup_of_stale {backend : Backend} {next : DesiredSnapshot}
    (gone : lb ∈ staleValues backend.last.loadBalancers next.loadBalancers) :
    .gcLoadBalancerHealthChecks lb.name lb.vpc ∈
      (backend.cleanupPlan sha256 next).filter (touches lb.vpc lb.name) := by
  rw [filter_cleanupPlan, mem_append, mem_filter, mem_flatMap]
  exact .inl ⟨⟨lb, gone, by simp [staleLoadBalancerOperations]⟩, by simp [touches]⟩

/-- The operations of a cleanup on health checks. -/
theorem healthCheck_of_cleanup {backend : Backend} {next : DesiredSnapshot}
    (member : op ∈ (backend.cleanupPlan sha256 next).filter (touches vpc name)) :
    (∃ lb ∈ staleValues backend.last.loadBalancers next.loadBalancers,
      op = .gcLoadBalancerHealthChecks lb.name lb.vpc) ∨
    ∃ pair ∈ commonValues backend.last.loadBalancers next.loadBalancers,
      op = .gcLoadBalancerHealthChecks pair.1.name pair.1.vpc ∧
        removedStrings (loadBalancerProtocolNames sha256 pair.1)
          (loadBalancerProtocolNames sha256 pair.2) ≠ [] := by
  rw [filter_cleanupPlan, mem_append, mem_filter, mem_filter, mem_flatMap, mem_flatMap] at member
  rcases member with ⟨⟨lb, gone, inside⟩, touch⟩ | ⟨⟨pair, shared, inside⟩, touch⟩
  · simp only [staleLoadBalancerOperations, clearHealthChecks, mem_append, mem_map,
      mem_singleton, mem_flatMap] at inside
    rcases inside with (⟨_, _, rfl⟩ | rfl) | ⟨_, _, (rfl | ⟨_, _, rfl⟩) | rfl⟩
    · cases touch
    · exact .inl ⟨lb, gone, rfl⟩
    all_goals cases touch
  · simp only [commonLoadBalancerOperations, clearHealthChecks, mem_append, mem_ite_nil_right,
      mem_map, mem_flatMap, mem_filter, mem_singleton] at inside
    rcases inside with (((((⟨_, _, rfl⟩ | ⟨some, rfl⟩) | ⟨_, _, _, rfl⟩) | ⟨_, _, _, _, rfl⟩) |
      ⟨_, _, _, _, rfl⟩) | ⟨_, _, _, _, rfl⟩) | ⟨_, _, (⟨_, rfl⟩ | ⟨_, _, rfl⟩) | rfl⟩
    · cases touch
    · exact .inr ⟨pair, shared, rfl, by simpa using some⟩
    all_goals cases touch

/-! ### Plans that leave health checks alone -/

/-- What decides about health checks in a backend. -/
def healthView (backend : Backend) : DesiredSnapshot × StringMap × StringMap :=
  (backend.last, backend.skipLB, backend.planner.loadBalancerHealthChecks)

/-- A plan that neither uses nor changes health checks. -/
def Quiet (plan : Backend → Backend × List Operation) : Prop :=
  ∀ backend, healthView (plan backend).1 = healthView backend ∧
    ∀ vpc name, (plan backend).2.filter (touches vpc name) = []

theorem Quiet.planThen {first second : Backend → Backend × List Operation} (left : Quiet first)
    (right : Quiet second) : Quiet (planThen first second) := by
  intro backend
  obtain ⟨view, ops⟩ := left backend
  obtain ⟨view', ops'⟩ := right (first backend).1
  exact ⟨view'.trans view, fun vpc name => by
    rw [Backend.planThen, filter_append, ops, ops', append_nil]⟩

theorem quiet_planAll {α : Type} {plan : Backend → α → Planner × List Operation}
    (cache : ∀ backend item, (plan backend item).1.loadBalancerHealthChecks =
      backend.planner.loadBalancerHealthChecks)
    (only : ∀ backend item, OfKinds kinds (plan backend item).2)
    (other : ∀ kind ∈ [Kind.healthCheck], kind ∉ kinds)
    (items : List α) : Quiet (planAll plan items) := by
  induction items with
  | nil => exact fun backend => ⟨rfl, fun vpc name => rfl⟩
  | cons item rest ih =>
    intro backend
    obtain ⟨view, ops⟩ := ih { backend with planner := (plan backend item).1 }
    refine ⟨view.trans ?_, fun vpc name => ?_⟩
    · simp [healthView, cache backend item]
    · rw [planAll, filter_append, (only backend item).filter_eq_nil kind_of_touches other, ops]
      rfl

theorem quiet_planObjects (state : DesiredState) : Quiet (planObjects sha256 state) := by
  have orSkip : ∀ {p : Prop} [Decidable p] {kinds : List Kind} {ops : List Operation},
      OfKinds kinds ops → OfKinds kinds (if p then [] else ops) := OfKinds.ite (by simp)
  refine Quiet.planThen (quiet_planAll (fun _ _ => rfl)
    (fun _ vpc => kinds_vpcOperations sha256 vpc) (by decide) _) ?_
  refine Quiet.planThen (quiet_planAll (fun _ _ => rfl)
    (fun _ subnet => kinds_subnetOperations sha256 subnet) (by decide) _) ?_
  refine Quiet.planThen (quiet_planAll (fun _ _ => rfl)
    (fun _ table => orSkip (kinds_routeTableOperations sha256 table)) (by decide) _) ?_
  refine Quiet.planThen (quiet_planAll (fun _ _ => rfl)
    (fun _ route => orSkip (kinds_policyRouteOperations sha256 route)) (by decide) _) ?_
  refine Quiet.planThen (quiet_planAll (fun _ _ => rfl)
    (fun _ gateway => kinds_gatewayOperations sha256 gateway) (by decide) _) ?_
  refine Quiet.planThen (quiet_planAll (fun _ _ => rfl)
    (fun _ endpoint => orSkip (kinds_endpointOperations sha256 _ endpoint)) (by decide) _) ?_
  exact quiet_planAll (fun _ _ => rfl)
    (fun _ rule => orSkip (kinds_natRuleOperations sha256 rule)) (by decide) _

end

end Netloom.Ovn
