import Netloom.Ovn.StaticRoutes

/-!
# Static routes follow the desired state

A cleanup followed by the route tables that are not skipped leaves the static routes
of the new state on the router of a VPC, unless another VPC has a router of the same
name: then the cleanup of one VPC deletes routes of the other.
-/
namespace Netloom.Ovn

open Model Control StaticRoute List Checked Bool
open Netip (Addr Prefix)

variable (sha256 : Sha256)

/-- The destinations and next hops that a state requires of a VPC. -/
def requiredRoutes (state : DesiredState) (vpc : String) : List (String × String) :=
  ((routeRecords state.routeTables).filter fun record => record.vpc = vpc).flatMap fun record =>
    (routeHops record.route).map fun hop => (record.route.destination.string, hop)

/-- The tables of the new state that are not skipped. -/
def plannedTables (old next : DesiredState) : List RouteTable :=
  next.routeTables.filter fun table =>
    !skipUnchangedRouteTable (unchangedRoutes (snapshotOf old) (snapshotOf next)) table

/-- The cleanup between two states, and the route tables of the second. -/
def routeRun (old next : DesiredState) : List Operation :=
  cleanupOperations sha256 (snapshotOf old) (snapshotOf next) ++
    (plannedTables old next).flatMap (routeTableOperations sha256)

/-- From the routes that the first state requires of the VPC, the run leads to those of the
second. -/
def RoutesConverge (old next : DesiredState) (vpc : String) : Prop :=
  ∀ rows : List StaticRoute, rows.Nodup →
    (∀ destination hop, ⟨logicalRouter sha256 vpc, destination, hop⟩ ∈ rows ↔
      (destination, hop) ∈ requiredRoutes old vpc) →
    ∀ destination hop,
      ⟨logicalRouter sha256 vpc, destination, hop⟩ ∈ (routeRun sha256 old next).foldl step rows ↔
        (destination, hop) ∈ requiredRoutes next vpc

def vpcNames (state : DesiredState) : List String := state.vpcs.map VPC.name

/-! ### The routes of an accepted state -/

section

variable {sha256} {state : DesiredState} (accepted : validateState sha256 state = .ok ())

include accepted

variable {record : RouteRecord}

theorem routeAccepted_of_validateState (member : record ∈ routeRecords state.routeTables) :
    RouteAccepted record.route := by
  obtain ⟨table, listed, _, inside⟩ := mem_routeRecords.mp member
  have checked := tableAccepted_of_validateState accepted listed
  have valid := checked.valid
  simp only [RouteTable.validate, bind_eq_ok] at valid
  obtain ⟨_, _, _, _, routes⟩ := valid
  obtain ⟨n, route⟩ := of_forEach routes record.route inside
  rw [context_eq_ok] at route
  simp only [Route.validate, bind_eq_ok] at route
  obtain ⟨_, _, _, _, form⟩ := route
  cases black : record.route.blackhole with
  | true =>
    simp only [black, if_true, bind_eq_ok, require_eq_ok, List.isEmpty_iff] at form
    obtain ⟨_, empty, _⟩ := form
    exact ⟨by simp [black], by simp [empty], by simp [empty]⟩
  | false =>
    simp only [black, false_eq_true, if_false, bind_eq_ok, require_eq_ok,
      not_eq_true', isEmpty_eq_false_iff] at form
    obtain ⟨_, some, _, distinct, _⟩ := form
    refine ⟨fun _ => some, ?_, checked.nextHops record.route inside black⟩
    simpa using (of_distinct distinct).2

theorem lookup_acceptedRoutes {key : String} {record : RouteRecord} :
    (snapshotOf state).routes.lookup key = some record ↔
      record ∈ routeRecords state.routeTables ∧ routeKey record.vpc record.route = key :=
  lookup_routes (keyed_of_validateState accepted) (separated_of_validateState accepted)

theorem vpc_of_mem_routeRecords (member : record ∈ routeRecords state.routeTables) :
    record.vpc ∈ vpcNames state := by
  obtain ⟨table, listed, same, _⟩ := mem_routeRecords.mp member
  exact same ▸ (tableAccepted_of_validateState accepted listed).vpc

end

variable {destination : String}

theorem mem_requiredRoutes {state : DesiredState} {vpc hop : String} :
    (destination, hop) ∈ requiredRoutes state vpc ↔
      ∃ record ∈ routeRecords state.routeTables, record.vpc = vpc ∧
        record.route.destination.string = destination ∧ hop ∈ routeHops record.route := by
  simp only [requiredRoutes, mem_flatMap, mem_filter, mem_map, Prod.mk.injEq, decide_eq_true_eq]
  grind

/-! ### The operations on one destination -/

/-- The record is the route of this destination in this VPC. -/
def isRouteOf (vpc destination : String) (record : RouteRecord) : Bool :=
  record.vpc = vpc && record.route.destination.string = destination

theorem isRouteOf_eq_key {vpc : String} (free : '|' ∉ destination.toList) (record : RouteRecord) :
    isRouteOf vpc destination record =
      decide (routeKey record.vpc record.route = vpc ++ "|" ++ destination) := by
  rw [isRouteOf, Bool.eq_iff_iff, and_eq_true, decide_eq_true_eq, decide_eq_true_eq,
    decide_eq_true_eq]
  constructor
  · rintro ⟨rfl, rfl⟩
    rfl
  · intro same
    have texts := congrArg String.toList same
    simp only [routeKey, String.toList_append, append_assoc,
      show "|".toList = ['|'] from rfl, singleton_append] at texts
    have bar : '|' ∉ record.route.destination.string.toList := by
      rw [Prefix.string, String.toList_ofList]
      exact Prefix.bar_notMem_text _
    obtain ⟨vpc', destination'⟩ := Text.cut_injective_right bar free texts
    exact ⟨String.toList_injective vpc', String.toList_injective destination'⟩

variable {router : String} {op : Operation}

theorem kind_of_touches (op : Operation) (touch : touches router destination op) :
    op.kind ∈ [Kind.route, .router] := by
  cases op <;> simp_all [touches]

/-- Every operation of a list is about the destination of the record on the router of its
VPC. -/
theorem touches_route {record : RouteRecord}
    (member : op = deleteStaticRouteDestinationOperation sha256 record ∨
      (∃ hop, op = deleteStaticRouteNextHopOperation sha256 record hop) ∨
      op ∈ routeOperations (logicalRouter sha256 record.vpc) record.route) :
    touches router destination op = decide (logicalRouter sha256 record.vpc = router ∧
      record.route.destination.string = destination) := by
  rcases member with rfl | ⟨hop, rfl⟩ | inside
  · simp [deleteStaticRouteDestinationOperation, touches]
  · simp [deleteStaticRouteNextHopOperation, touches]
  · unfold routeOperations at inside
    split at inside
    · rw [mem_singleton.mp inside]
      simp [touches]
    · split at inside
      · rw [mem_singleton.mp inside]
        simp [touches]
      · obtain ⟨nextHop, _, rfl⟩ := mem_map.mp inside
        simp [touches]

theorem mem_routeUpdateCleanupOperations {oldRecord nextRecord : RouteRecord}
    (member : op ∈ routeUpdateCleanupOperations sha256 oldRecord nextRecord) :
    op = deleteStaticRouteDestinationOperation sha256 oldRecord ∨
      ∃ hop, op = deleteStaticRouteNextHopOperation sha256 oldRecord hop := by
  unfold routeUpdateCleanupOperations at member
  simp only at member
  split_ifs at member
  all_goals first
    | exact absurd member not_mem_nil
    | exact .inl (mem_singleton.mp member)
    | (obtain ⟨hop, _, rfl⟩ := mem_map.mp member
       exact .inr ⟨hop, rfl⟩)

/-- Of a cleanup only the part about routes, and the deletion of routers, touch a destination. -/
theorem filter_cleanupOperations (router destination : String) (old next : DesiredSnapshot) :
    (cleanupOperations sha256 old next).filter (touches router destination) =
      (routeCleanupOperations sha256 old next).filter (touches router destination) ++
        ((staleKeys old.vpcs next.vpcs).map fun vpc =>
          Operation.lrDel (logicalRouter sha256 vpc)).filter (touches router destination) := by
  rw [filter_cleanupSections sha256 (fun op touch =>
      mem_of_mem_take (i := 2) (kind_of_touches op touch)),
    (ofKinds_flatMap.mpr fun lb _ => kinds_staleLoadBalancerOperations sha256 lb).filter_eq_nil
      kind_of_touches (by decide),
    (ofKinds_flatMap.mpr fun pair _ => kinds_commonLoadBalancerOperations sha256 pair.1
      pair.2).filter_eq_nil kind_of_touches (by decide)]
  simp

/-! ### The run on one destination -/

section

variable {sha256} {old next : DesiredState} {vpc : String} {record : RouteRecord}

/-- The record under the key of a destination. -/
theorem lookup_routes_iff {state : DesiredState} (accepted : validateState sha256 state = .ok ())
    (free : '|' ∉ destination.toList) :
    (snapshotOf state).routes.lookup (vpc ++ "|" ++ destination) = some record ↔
      record ∈ routeRecords state.routeTables ∧ record.vpc = vpc ∧
        record.route.destination.string = destination := by
  have key : isRouteOf vpc destination record = _ := isRouteOf_eq_key free record
  rw [isRouteOf, Bool.eq_iff_iff, and_eq_true, decide_eq_true_eq, decide_eq_true_eq,
    decide_eq_true_eq] at key
  rw [lookup_acceptedRoutes accepted, key]

theorem mem_requiredRoutes_iff {state : DesiredState}
    (accepted : validateState sha256 state = .ok ()) {hop : String}
    (free : '|' ∉ destination.toList) :
    (destination, hop) ∈ requiredRoutes state vpc ↔
      ∃ record, (snapshotOf state).routes.lookup (vpc ++ "|" ++ destination) = some record ∧
        hop ∈ routeHops record.route := by
  simp only [mem_requiredRoutes, lookup_routes_iff accepted free]
  exact exists_congr fun record => by tauto

theorem mem_of_mem_planned (member : record ∈ routeRecords (plannedTables old next)) :
    record ∈ routeRecords next.routeTables := by
  obtain ⟨table, listed, rest⟩ := mem_routeRecords.mp member
  exact mem_routeRecords.mpr ⟨table, (mem_filter.mp listed).1, rest⟩

variable (old) in
/-- The tables of the new state plan no route for a destination it does not know. -/
theorem planned_of_not_lookup (nextAccepted : validateState sha256 next = .ok ())
    (free : '|' ∉ destination.toList)
    (absent : (snapshotOf next).routes.lookup (vpc ++ "|" ++ destination) = none) :
    (routeRecords (plannedTables old next)).filter (isRouteOf vpc destination) = [] := by
  rw [filter_eq_nil_iff]
  intro record member here
  simp only [isRouteOf, and_eq_true, decide_eq_true_eq] at here
  have found := (lookup_routes_iff nextAccepted free).mpr ⟨mem_of_mem_planned member, here⟩
  rw [absent] at found
  cases found

variable (old) in
/-- At the destination of a record the tables plan its route, or nothing if the old state
has a route with the same signature. -/
theorem planned_of_lookup (nextAccepted : validateState sha256 next = .ok ())
    (free : '|' ∉ destination.toList)
    (found : (snapshotOf next).routes.lookup (vpc ++ "|" ++ destination) = some record) :
    (routeRecords (plannedTables old next)).filter (isRouteOf vpc destination) = [record] ∨
      (routeRecords (plannedTables old next)).filter (isRouteOf vpc destination) = [] ∧
        ∃ before, (snapshotOf old).routes.lookup (vpc ++ "|" ++ destination) = some before ∧
          routeSignature before = routeSignature record := by
  obtain ⟨member, here⟩ := (lookup_routes_iff nextAccepted free).mp found
  by_cases planned : record ∈ routeRecords (plannedTables old next)
  · have sub : (routeRecords (plannedTables old next)).Sublist (routeRecords next.routeTables) :=
      filter_sublist.flatMap _
    have nodup := (nodup_routeKeys (separated_of_validateState nextAccepted).destinations).sublist
      (sub.map fun record => routeKey record.vpc record.route)
    have key : routeKey record.vpc record.route = vpc ++ "|" ++ destination := by
      rw [routeKey, here.1, here.2]
    have byKey : isRouteOf vpc destination = fun other =>
        decide (routeKey other.vpc other.route = routeKey record.vpc record.route) := by
      rw [key]
      exact funext (isRouteOf_eq_key free)
    exact .inl (byKey ▸ Cells.filter_eq_singleton nodup planned)
  · refine .inr ⟨filter_eq_nil_iff.mpr fun other inside same => planned ?_, ?_⟩
    · simp only [isRouteOf, and_eq_true, decide_eq_true_eq] at same
      have again := (lookup_routes_iff nextAccepted free).mpr ⟨mem_of_mem_planned inside, same⟩
      rw [found, Option.some.injEq] at again
      exact again ▸ inside
    · -- the table of the record is skipped, so each of its routes was found unchanged
      obtain ⟨table, listed, same, inside⟩ := mem_routeRecords.mp member
      have skipped : skipUnchangedRouteTable (unchangedRoutes (snapshotOf old) (snapshotOf next))
          table := by
        by_contra open'
        exact planned (mem_routeRecords.mpr
          ⟨table, mem_filter.mpr ⟨listed, by simpa using open'⟩, same, inside⟩)
      simp only [skipUnchangedRouteTable, skips, and_eq_true, all_eq_true,
        decide_eq_true_eq] at skipped
      obtain ⟨before, after, inOld, inNext, alike, sign⟩ :=
        (lookup_unchanged (wellKeyed_routes next)).mp (skipped.2 record.route inside)
      rw [same, routeKey, here.1, here.2] at inOld
      rw [same] at sign
      exact ⟨before, inOld, (decide_eq_true_eq.mp alike).trans sign⟩

variable (oldAccepted : validateState sha256 old = .ok ())
  (nextAccepted : validateState sha256 next = .ok ())
  (alone : ∀ other ∈ vpcNames old ++ vpcNames next,
    logicalRouter sha256 other = logicalRouter sha256 vpc → other = vpc)

include oldAccepted nextAccepted alone

/-- No other VPC shares the router, so an operation touches a destination exactly if it is
about the route of the VPC. -/
theorem touches_eq_isRouteOf
    (known : record ∈ routeRecords old.routeTables ∨ record ∈ routeRecords next.routeTables)
    (member : op = deleteStaticRouteDestinationOperation sha256 record ∨
      (∃ hop, op = deleteStaticRouteNextHopOperation sha256 record hop) ∨
      op ∈ routeOperations (logicalRouter sha256 record.vpc) record.route) :
    touches (logicalRouter sha256 vpc) destination op = isRouteOf vpc destination record := by
  have name : record.vpc ∈ vpcNames old ++ vpcNames next := mem_append.mpr (known.imp
    (vpc_of_mem_routeRecords oldAccepted) (vpc_of_mem_routeRecords nextAccepted))
  rw [touches_route sha256 member, isRouteOf, Bool.eq_iff_iff, and_eq_true,
    decide_eq_true_eq, decide_eq_true_eq, decide_eq_true_eq]
  exact and_congr_left fun _ => ⟨alone record.vpc name, fun same => by rw [same]⟩

theorem filter_routeCleanupOperations (destination : String) :
    (routeCleanupOperations sha256 (snapshotOf old) (snapshotOf next)).filter
        (touches (logicalRouter sha256 vpc) destination) =
      ((staleValues (snapshotOf old).routes (snapshotOf next).routes).filter
        (isRouteOf vpc destination)).map (deleteStaticRouteDestinationOperation sha256) ++
      ((commonValues (snapshotOf old).routes (snapshotOf next).routes).filter fun pair =>
        isRouteOf vpc destination pair.1).flatMap
          fun pair => routeUpdateCleanupOperations sha256 pair.1 pair.2 := by
  rw [routeCleanupOperations, filter_append, filter_map]
  congr 1
  · congr 1
    refine filter_congr fun record member => ?_
    obtain ⟨k, held, _⟩ := mem_staleValues.mp member
    exact touches_eq_isRouteOf oldAccepted nextAccepted alone
      (.inl ((lookup_acceptedRoutes oldAccepted).mp held).1) (.inl rfl)
  · refine Cells.filter_flatMap fun pair member op inside => ?_
    obtain ⟨k, held, _⟩ := mem_commonValues.mp member
    exact touches_eq_isRouteOf oldAccepted nextAccepted alone
      (.inl ((lookup_acceptedRoutes oldAccepted).mp held).1)
      ((mem_routeUpdateCleanupOperations sha256 inside).imp_right .inl)

omit oldAccepted in
/-- The router is deleted only with its VPC. -/
theorem filter_routerDeletions (shared : vpc ∈ vpcNames next) (destination : String) :
    ((staleKeys (snapshotOf old).vpcs (snapshotOf next).vpcs).map fun name =>
      Operation.lrDel (logicalRouter sha256 name)).filter
        (touches (logicalRouter sha256 vpc) destination) = [] := by
  rw [filter_eq_nil_iff]
  rintro op member
  obtain ⟨name, stale, rfl⟩ := mem_map.mp member
  obtain ⟨held, gone⟩ := (mem_staleKeys _ _).mp stale
  have inOld : name ∈ vpcNames old := by
    obtain ⟨object, found⟩ := Option.isSome_iff_exists.mp held
    obtain ⟨source, listed, same, _⟩ := Fold.of_lookup_insertAll VPC.name id found
    exact mem_map.mpr ⟨source, listed, same⟩
  have notNext : name ≠ vpc := by
    rintro rfl
    obtain ⟨source, listed, same⟩ := mem_map.mp shared
    have found : (snapshotOf next).vpcs.lookup name = some source :=
      (lookup_insertAll_iff (keyed_of_validateState nextAccepted).vpcs).mpr ⟨listed, same⟩
    simp [found] at gone
  simpa [touches] using fun same => notNext (alone name (mem_append_left _ inOld) same)

theorem filter_plannedTables (destination : String) :
    ((plannedTables old next).flatMap (routeTableOperations sha256)).filter
        (touches (logicalRouter sha256 vpc) destination) =
      ((routeRecords (plannedTables old next)).filter (isRouteOf vpc destination)).flatMap
        fun record => routeOperations (logicalRouter sha256 record.vpc) record.route := by
  have flat : (plannedTables old next).flatMap (routeTableOperations sha256) =
      (routeRecords (plannedTables old next)).flatMap fun record =>
        routeOperations (logicalRouter sha256 record.vpc) record.route := by
    rw [routeRecords, flatMap_assoc]
    simp only [flatMap_map]
    rfl
  rw [flat]
  refine Cells.filter_flatMap fun record member op inside => ?_
  exact touches_eq_isRouteOf oldAccepted nextAccepted alone (.inr (mem_of_mem_planned member))
    (.inr (.inr inside))

/-- What the run does to the next hops of one destination. -/
theorem hopsAt_routeRun (shared : vpc ∈ vpcNames next) (destination : String)
    (rows : List StaticRoute) :
    hopsAt (logicalRouter sha256 vpc) destination ((routeRun sha256 old next).foldl step rows) =
      (((staleValues (snapshotOf old).routes (snapshotOf next).routes).filter
        (isRouteOf vpc destination)).map (deleteStaticRouteDestinationOperation sha256) ++
      ((commonValues (snapshotOf old).routes (snapshotOf next).routes).filter fun pair =>
        isRouteOf vpc destination pair.1).flatMap
          (fun pair => routeUpdateCleanupOperations sha256 pair.1 pair.2) ++
      ((routeRecords (plannedTables old next)).filter (isRouteOf vpc destination)).flatMap
        fun record => routeOperations (logicalRouter sha256 record.vpc) record.route).foldl hopStep
          (hopsAt (logicalRouter sha256 vpc) destination rows) := by
  rw [(framed _ _).view_foldl, routeRun, filter_append, filter_cleanupOperations,
    filter_routeCleanupOperations oldAccepted nextAccepted alone,
    filter_routerDeletions nextAccepted alone shared, append_nil,
    filter_plannedTables oldAccepted nextAccepted alone]

theorem routesConverge (shared : vpc ∈ vpcNames next) : RoutesConverge sha256 old next vpc := by
  intro rows nodup held destination hop
  have heldHops : ∀ hop, hop ∈ hopsAt (logicalRouter sha256 vpc) destination rows ↔
      (destination, hop) ∈ requiredRoutes old vpc := fun hop => mem_hopsAt.trans (held _ hop)
  have nodupHops := nodup_hopsAt (logicalRouter sha256 vpc) destination nodup
  rw [← mem_hopsAt, hopsAt_routeRun oldAccepted nextAccepted alone shared]
  by_cases bar : '|' ∈ destination.toList
  · -- no destination is written with a bar
    have other : ∀ record : RouteRecord, record.route.destination.string ≠ destination := by
      rintro record rfl
      rw [Prefix.string, String.toList_ofList] at bar
      exact Prefix.bar_notMem_text _ bar
    have none : isRouteOf vpc destination = fun _ => false := by
      funext record
      simp [isRouteOf, other record]
    simp only [none, filter_false, map_nil, flatMap_nil, append_nil,
      foldl_nil, heldHops, mem_requiredRoutes]
    constructor
    · rintro ⟨record, _, _, same, _⟩
      exact absurd same (other record)
    · rintro ⟨record, _, _, same, _⟩
      exact absurd same (other record)
  have byKey : isRouteOf vpc destination = fun record =>
      decide (routeKey record.vpc record.route = vpc ++ "|" ++ destination) :=
    funext (isRouteOf_eq_key bar)
  have stale : (staleValues (snapshotOf old).routes (snapshotOf next).routes).filter
      (isRouteOf vpc destination) = _ :=
    byKey ▸ filter_staleValues (wellKeyed_routes old) (vpc ++ "|" ++ destination)
  have common : ((commonValues (snapshotOf old).routes (snapshotOf next).routes).filter fun pair =>
      isRouteOf vpc destination pair.1) =
      (((snapshotOf old).routes.lookup (vpc ++ "|" ++ destination)).bind fun before =>
        ((snapshotOf next).routes.lookup (vpc ++ "|" ++ destination)).map fun after =>
          (before, after)).toList := by
    rw [byKey]
    exact filter_commonValues (wellKeyed_routes old) _
  rw [stale, common, mem_requiredRoutes_iff nextAccepted bar]
  simp only [mem_requiredRoutes_iff oldAccepted bar] at heldHops
  cases after : (snapshotOf next).routes.lookup (vpc ++ "|" ++ destination) with
  | none =>
    rw [planned_of_not_lookup old nextAccepted bar after]
    cases before : (snapshotOf old).routes.lookup (vpc ++ "|" ++ destination) with
    | none => simpa [before] using heldHops hop
    | some record => simp [deleteStaticRouteDestinationOperation, hopStep]
  | some record =>
    obtain ⟨name, route⟩ := record
    obtain ⟨member, sameVPC, text⟩ := (lookup_routes_iff nextAccepted bar).mp after
    obtain rfl : vpc = name := sameVPC.symm
    have nextRoute := routeAccepted_of_validateState nextAccepted member
    simp only [Option.some.injEq, exists_eq_left']
    cases before : (snapshotOf old).routes.lookup (vpc ++ "|" ++ destination) with
    | none =>
      have empty : hopsAt (logicalRouter sha256 vpc) destination rows = [] :=
        eq_nil_iff_forall_not_mem.mpr fun hop inside => by
          simp [heldHops, before] at inside
      rcases planned_of_lookup old nextAccepted bar after with planned | ⟨_, _, known, _⟩
      · simpa [planned, empty] using mem_foldl_routeOperations nextRoute (fits_nil _) hop
      · simp [before] at known
    | some oldRecord =>
      obtain ⟨oldName, oldRoute⟩ := oldRecord
      obtain ⟨listed, oldVPC, oldText⟩ := (lookup_routes_iff oldAccepted bar).mp before
      obtain rfl : vpc = oldName := oldVPC.symm
      have oldRoute := routeAccepted_of_validateState oldAccepted listed
      have destination := Netip.Prefix.string_injective (oldText.trans text.symm)
      simp only [before, Option.some.injEq, exists_eq_left'] at heldHops
      rcases planned_of_lookup old nextAccepted bar after with planned | ⟨planned, _, known, same⟩
      · simpa [planned] using
          mem_hops_of_update sha256 oldRoute nextRoute destination nodupHops heldHops hop
      · -- the route is found unchanged: nothing is done, and the next hops are the same
        rw [before, Option.some.injEq] at known
        rw [← known] at same
        have perm := routeHops_perm_of_signature oldRoute nextRoute destination same
        simp [planned, routeUpdateCleanupOperations, same, heldHops, perm.mem_iff]

end

end Netloom.Ovn
