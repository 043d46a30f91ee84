import Netloom.Ovn.RouteConvergence

/-!
# VPCs with one router

Names are sanitised before they become names of records, and two names can become
one. The routes of two such VPCs share a router, and when the table of one of them
goes away the routes of the other go with it.
-/
namespace Netloom.Ovn

open Model Control StaticRoute List Checked
open Netip (Addr)

/-! ### Two VPCs with the same routes -/

def twinSubnet (vpc : String) : Subnet where
  name := "net"
  vpc := vpc
  cidr := Netip.prefixFrom (.v4 0xc0a80000) 24
  gateway := .v4 0xc0a80001

def twinRoute : Route where
  destination := Netip.prefixFrom (.v4 0x0a000000) 8
  nextHops := [.v4 0xc0a80002]

def twinTable (vpc : String) : RouteTable := ⟨"main", vpc, [twinRoute]⟩

/-- Two VPCs with the same subnet, and some route tables. -/
def twinState (vpc other : String) (tables : List RouteTable) : DesiredState where
  vpcs := [⟨vpc⟩, ⟨other⟩]
  subnets := [twinSubnet vpc, twinSubnet other]
  routeTables := tables

def twinsBefore (vpc other : String) : DesiredState :=
  twinState vpc other [twinTable vpc, twinTable other]

def twinsAfter (vpc other : String) : DesiredState := twinState vpc other [twinTable vpc]

structure Twins (vpc other : String) : Prop where
  named : vpc ≠ ""
  otherNamed : other ≠ ""
  apart : vpc ≠ other

variable (sha256 : Sha256) {vpc other : String}

theorem twinSubnet_validate (named : vpc ≠ "") : (twinSubnet vpc).validate = .ok () := by
  simp only [Subnet.validate, bind_eq_ok, require_eq_ok, decide_eq_true_eq]
  exact ⟨(), by simp [twinSubnet], (), named, (), rfl, (), rfl, (), rfl, (), rfl, (), rfl, (), rfl,
    (), by simp [twinSubnet], (), rfl, (), rfl, rfl⟩

theorem twinTable_validate (named : vpc ≠ "") : (twinTable vpc).validate = .ok () := by
  simp only [RouteTable.validate, bind_eq_ok, require_eq_ok, decide_eq_true_eq]
  exact ⟨(), by simp [twinTable], (), named, rfl⟩

variable (twins : Twins vpc other)
include twins

theorem objectKey_ne (name : String) : objectKey vpc name ≠ objectKey other name := by
  intro same
  simp only [objectKey, String.append_left_inj] at same
  exact twins.apart same

theorem twinState_graph {tables : List RouteTable}
    (known : ∀ table ∈ tables, table = twinTable vpc ∨ table = twinTable other) :
    validateObjectGraph sha256 (twinState vpc other tables) = .ok () := by
  have ⟨named, otherNamed, apart⟩ := twins
  simp only [validateObjectGraph, bind_eq_ok, forM_eq_ok]
  refine ⟨(), ?vpcs, (), rfl, (), ?subnets, (), rfl, (), rfl, (), rfl, (), by simp [twinState], (),
    rfl, (), rfl, (), rfl, (), rfl, (), ?tables, (), by simp [twinState], (), by simp [twinState],
    by simp [twinState]⟩
  case vpcs =>
    show validateVPCs [⟨vpc⟩, ⟨other⟩] = .ok ()
    simp [validateVPCs, distinct, distinctFrom, VPC.validate, named, otherNamed, apart.symm]
  case subnets =>
    have first : knownVPC [⟨vpc⟩, ⟨other⟩] vpc := by simp [knownVPC]
    have second : knownVPC [⟨vpc⟩, ⟨other⟩] other := by simp [knownVPC]
    have fresh := objectKey_ne twins "net"
    simp only [twinState, growing, validateSubnet, findSubnet, bind_eq_ok,
      require_eq_ok, forM_eq_ok]
    refine ⟨(), ⟨(), twinSubnet_validate named, (), rfl, (), first, (), rfl, by simp⟩, (),
      ⟨(), twinSubnet_validate otherNamed, (), ?_, (), second, (), rfl, ?_⟩, trivial⟩
    · simp [twinSubnet, subnetKey, fresh]
    · simp [twinSubnet, apart]
  case tables =>
    intro table member
    have inside : ∀ name, name = vpc ∨ name = other → validateRouteTableReferences sha256
        (twinState vpc other tables) (twinTable name) = .ok () := by
      intro name one
      simp only [validateRouteTableReferences, bind_eq_ok, require_eq_ok, forM_eq_ok]
      refine ⟨(), ?_, (), ?_, ?_⟩
      · rcases one with rfl | rfl
        · exact twinTable_validate named
        · exact twinTable_validate otherNamed
      · rcases one with rfl | rfl <;> simp [knownVPC, twinState, twinTable]
      · intro route listed
        obtain rfl : route = twinRoute := by simpa [twinTable] using listed
        simp only [validateRouteReferences, twinRoute, checkIf_eq_ok, bind_eq_ok, forM_eq_ok]
        intro _
        refine ⟨(), ?_, by simp⟩
        intro nextHop hop
        rw [mem_singleton.mp hop, validateAddressInVPCSubnets, subnetContainingAddress]
        have holds : ∀ name, (twinSubnet name).cidr.contains (.v4 0xc0a80002) :=
          fun _ => rfl
        have found : ((twinState vpc other tables).subnets.find? fun subnet =>
            decide (subnet.vpc = (twinTable name).vpc) && subnet.cidr.contains (.v4 0xc0a80002)) =
            some (twinSubnet name) := by
          simp only [twinState, find?_cons, holds, Bool.and_true]
          rcases one with rfl | rfl
          · simp [twinSubnet, twinTable]
          · simp [twinSubnet, twinTable, apart]
        rw [found]
        rfl
    rcases known table member with rfl | rfl
    · exact inside vpc (.inl rfl)
    · exact inside other (.inr rfl)

omit twins in
theorem twinTables_one (named : vpc ≠ "") : validateRouteTables [twinTable vpc] = .ok () := by
  simp only [validateRouteTables, growing, validateRouteTable, bind_eq_ok, require_eq_ok]
  exact ⟨(), ⟨(), twinTable_validate named, (), rfl, rfl⟩, trivial⟩

theorem twinTables_two : validateRouteTables [twinTable vpc, twinTable other] = .ok () := by
  have key := objectKey_ne twins "main"
  have destination : destinationKey (twinTable vpc) twinRoute ≠
      destinationKey (twinTable other) twinRoute := by
    intro same
    simp only [destinationKey, String.append_left_inj] at same
    exact twins.apart same
  simp only [validateRouteTables, growing, validateRouteTable, bind_eq_ok, require_eq_ok]
  refine ⟨(), ⟨(), twinTable_validate twins.named, (), rfl, rfl⟩, (),
    ⟨(), twinTable_validate twins.otherNamed, (), ?_, ?_⟩, trivial⟩
  · simp [twinTable, routeTableKey, key]
  · have seen : allRoutes ([] ++ [twinTable vpc]) = [(twinTable vpc, twinRoute)] := rfl
    have listed : (twinTable other).routes = [twinRoute] := rfl
    rw [seen, listed]
    simp only [map_cons, map_nil, growing, validateDestination, bind_eq_ok, absent_eq_ok,
      find?_cons, destination, decide_false, find?_nil]
    exact ⟨(), trivial, trivial⟩

theorem twinState_accepted {tables : List RouteTable}
    (known : ∀ table ∈ tables, table = twinTable vpc ∨ table = twinTable other)
    (valid : validateRouteTables tables = .ok ()) :
    validateState sha256 (twinState vpc other tables) = .ok () := by
  simp only [validateState, bind_eq_ok]
  exact ⟨(), twinState_graph sha256 twins known, (), rfl, (), rfl, (), rfl, (), valid, rfl⟩

theorem twinStates_accepted :
    validateState sha256 (twinsBefore vpc other) = .ok () ∧
      validateState sha256 (twinsAfter vpc other) = .ok () :=
  ⟨twinState_accepted sha256 twins (by simp) (twinTables_two twins),
    twinState_accepted sha256 twins (by simp) (twinTables_one twins.named)⟩

omit twins in
/-- Deletions among which one is of the whole destination leave nothing. -/
theorem foldl_deletions {ops : List Operation} (only : ∀ op ∈ ops, ∃ router destination nextHop,
      op = .lrRouteDel router destination nextHop) {start : List String}
    (whole : start = [] ∨ ∃ router destination, .lrRouteDel router destination none ∈ ops) :
    ops.foldl hopStep start = [] := by
  induction ops generalizing start with
  | nil => simpa using whole
  | cons op rest ih =>
    rw [foldl_cons]
    refine ih (fun op member => only op (by simp [member])) ?_
    obtain ⟨router, destination, nextHop, rfl⟩ := only op (by simp)
    rcases whole with rfl | ⟨router', destination', member⟩
    · cases nextHop <;> simp [hopStep]
    · rcases mem_cons.mp member with same | later
      · rw [← same]
        exact .inl rfl
      · exact .inr ⟨router', destination', later⟩

theorem plannedTables_twins : plannedTables (twinsBefore vpc other) (twinsAfter vpc other) = [] := by
  obtain ⟨oldAccepted, nextAccepted⟩ := twinStates_accepted (fun _ => []) twins
  have inOld := (lookup_acceptedRoutes oldAccepted).mpr
    ⟨show (⟨vpc, twinRoute⟩ : RouteRecord) ∈ _ by
      simp [twinsBefore, twinState, routeRecords, twinTable], rfl⟩
  have inNext := (lookup_acceptedRoutes nextAccepted).mpr
    ⟨show (⟨vpc, twinRoute⟩ : RouteRecord) ∈ _ by
      simp [twinsAfter, twinState, routeRecords, twinTable], rfl⟩
  have same : (unchangedRoutes (snapshotOf (twinsBefore vpc other))
      (snapshotOf (twinsAfter vpc other))).lookup (routeKey vpc twinRoute) =
      some (routeSignature ⟨vpc, twinRoute⟩) :=
    (lookup_unchanged (wellKeyed_routes _)).mpr ⟨_, _, inOld, inNext, by simp, rfl⟩
  rw [plannedTables, filter_eq_nil_iff]
  intro table member
  obtain rfl : table = twinTable vpc := by simpa [twinsAfter, twinState] using member
  have skipped : skipUnchangedRouteTable (unchangedRoutes (snapshotOf (twinsBefore vpc other))
      (snapshotOf (twinsAfter vpc other))) (twinTable vpc) := by
    rw [skipUnchangedRouteTable, Bool.and_eq_true, all_eq_true]
    refine ⟨rfl, fun route inside => ?_⟩
    obtain rfl : route = twinRoute := by simpa [twinTable] using inside
    exact decide_eq_true same
  simp [skipped]

/-- The cleanup of one twin deletes the route of the other. -/
theorem not_routesConverge_twins (router : logicalRouter sha256 other = logicalRouter sha256 vpc) :
    ¬ RoutesConverge sha256 (twinsBefore vpc other) (twinsAfter vpc other) vpc := by
  intro converge
  obtain ⟨oldAccepted, nextAccepted⟩ := twinStates_accepted sha256 twins
  have required : requiredRoutes (twinsBefore vpc other) vpc =
      [(twinRoute.destination.string, (Addr.v4 0xc0a80002).string)] := by
    simp [requiredRoutes, twinsBefore, twinState, routeRecords, twinTable, twins.apart.symm,
      routeHops, twinRoute]
  have final := (converge
    [⟨logicalRouter sha256 vpc, twinRoute.destination.string, (Addr.v4 0xc0a80002).string⟩]
    (nodup_singleton _) (by simp [required]) twinRoute.destination.string
    (Addr.v4 0xc0a80002).string).mpr (by
      simp [requiredRoutes, twinsAfter, twinState, routeRecords, twinTable, routeHops, twinRoute])
  rw [← mem_hopsAt, (framed _ _).view_foldl, routeRun, filter_append,
    plannedTables_twins twins, filter_cleanupOperations] at final
  have vpcs : staleKeys (snapshotOf (twinsBefore vpc other)).vpcs
      (snapshotOf (twinsAfter vpc other)).vpcs = [] := by
    rw [eq_nil_iff_forall_not_mem]
    intro name stale
    obtain ⟨held, gone⟩ := (mem_staleKeys _ _).mp stale
    have same : (snapshotOf (twinsAfter vpc other)).vpcs =
        (snapshotOf (twinsBefore vpc other)).vpcs := rfl
    rw [same, Option.isNone_iff_eq_none] at gone
    rw [gone] at held
    cases held
  rw [vpcs, map_nil, filter_nil, append_nil, flatMap_nil, filter_nil,
    append_nil, foldl_deletions] at final
  · cases final
  · -- a cleanup of routes consists of deletions
    intro op member
    simp only [routeCleanupOperations, mem_filter, mem_append, mem_map, mem_flatMap] at member
    rcases member.1 with ⟨record, _, rfl⟩ | ⟨pair, _, inside⟩
    · exact ⟨_, _, _, rfl⟩
    · rcases mem_routeUpdateCleanupOperations sha256 inside with rfl | ⟨hop, rfl⟩
      · exact ⟨_, _, _, rfl⟩
      · exact ⟨_, _, _, rfl⟩
  · -- one of them is that of the other twin
    have stale : (⟨other, twinRoute⟩ : RouteRecord) ∈ staleValues
        (snapshotOf (twinsBefore vpc other)).routes (snapshotOf (twinsAfter vpc other)).routes := by
      refine mem_staleValues.mpr ⟨routeKey other twinRoute, ?_, ?_⟩
      · exact (lookup_acceptedRoutes oldAccepted).mpr
          ⟨by simp [twinsBefore, twinState, routeRecords, twinTable], rfl⟩
      · rw [Option.eq_none_iff_forall_ne_some]
        intro record held
        have listed := (lookup_acceptedRoutes nextAccepted).mp held
        obtain rfl : record = ⟨vpc, twinRoute⟩ := by
          simpa [twinsAfter, twinState, routeRecords, twinTable] using listed.1
        have keys := listed.2
        simp only [routeKey, String.append_left_inj] at keys
        exact twins.apart keys
    refine .inr ⟨logicalRouter sha256 other, twinRoute.destination.string,
      mem_filter.mpr ⟨mem_append_left _ (mem_map.mpr ⟨_, stale, rfl⟩), ?_⟩⟩
    simp [touches, router]

/-! ### When static routes converge -/

omit twins in
/-- The static routes of a VPC follow every pair of accepted states with these names exactly
if none of the other names gives the router of the VPC. -/
theorem routesConverge_iff (vpc : String) (named : vpc ≠ "") (names : Set String)
    (allNamed : ∀ name ∈ names, name ≠ "") :
    (∀ old next, validateState sha256 old = .ok () → validateState sha256 next = .ok () →
      vpc ∈ vpcNames old → vpc ∈ vpcNames next →
      (∀ name ∈ vpcNames old ++ vpcNames next, name = vpc ∨ name ∈ names) →
      RoutesConverge sha256 old next vpc) ↔
    ∀ other ∈ names, logicalRouter sha256 other = logicalRouter sha256 vpc → other = vpc := by
  constructor
  · intro converge other listed router
    by_contra different
    have twins : Twins vpc other := ⟨named, allNamed other listed, Ne.symm different⟩
    obtain ⟨oldAccepted, nextAccepted⟩ := twinStates_accepted sha256 twins
    refine not_routesConverge_twins sha256 twins router (converge _ _ oldAccepted nextAccepted
      (by simp [vpcNames, twinsBefore, twinState]) (by simp [vpcNames, twinsAfter, twinState])
      fun name member => ?_)
    have either : name = vpc ∨ name = other := by
      simp only [vpcNames, twinsBefore, twinsAfter, twinState, map_cons, map_nil, mem_append, mem_cons,
        not_mem_nil, or_false] at member
      tauto
    exact either.imp_right fun same : name = other => same ▸ listed
  · intro alone old next oldAccepted nextAccepted _ shared inside
    refine routesConverge oldAccepted nextAccepted (fun other member router => ?_) shared
    exact (inside other member).elim id fun listed => alone other listed router

/-- The names of two VPCs that are written alike in the database. -/
def highName : String := String.ofList [Char.ofNat 0x10000]

def lowName : String := String.ofList [Char.ofNat 0x1000, '0']

omit twins in
theorem routesConverge_iff_plain : "red" ≠ "" ∧ (∀ name ∈ ({"blue"} : Set String), name ≠ "") ∧
    ((∀ old next, validateState (fun _ => []) old = .ok () →
      validateState (fun _ => []) next = .ok () → "red" ∈ vpcNames old → "red" ∈ vpcNames next →
      (∀ name ∈ vpcNames old ++ vpcNames next, name = "red" ∨ name ∈ ({"blue"} : Set String)) →
      RoutesConverge (fun _ => []) old next "red") ↔
    ∀ other ∈ ({"blue"} : Set String),
      logicalRouter (fun _ => []) other = logicalRouter (fun _ => []) "red" → other = "red") :=
  ⟨by decide, by simp, routesConverge_iff (fun _ => []) "red" (by decide) {"blue"} (by simp)⟩

omit twins in
/-- Both states are accepted, and the route of the first VPC is lost. -/
theorem route_lost_with_twin :
    validateState (fun _ => []) (twinState highName lowName [twinTable highName, twinTable lowName]) =
        .ok () ∧
      validateState (fun _ => []) (twinState highName lowName [twinTable highName]) = .ok () ∧
      ¬ RoutesConverge (fun _ => [])
        (twinState highName lowName [twinTable highName, twinTable lowName])
        (twinState highName lowName [twinTable highName]) highName := by
  have twins : Twins highName lowName := ⟨by decide, by decide, by decide⟩
  obtain ⟨oldAccepted, nextAccepted⟩ := twinStates_accepted (fun _ => []) twins
  exact ⟨oldAccepted, nextAccepted, not_routesConverge_twins _ twins (by decide)⟩

end Netloom.Ovn
