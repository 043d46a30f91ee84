import Netloom.Ovn.Backend

/-!
# Static routes of a router

`StaticRoute.step` is what an operation does to the static routes of the northbound
database. Seen at one destination of one router, a run is a run on a list of next
hops.
-/
namespace Netloom.Ovn

open Model List Bool
open Netip (Addr Prefix)
open Strings (sortStrings)

structure StaticRoute where
  router : String
  destination : String
  nextHop : String
  deriving DecidableEq, Repr

namespace StaticRoute

/-- The route is one of this destination on this router. -/
def at? (router destination : String) (row : StaticRoute) : Bool :=
  row.router = router && row.destination = destination

/-- Without `--ecmp` an addition replaces the next hop of a route that is there. -/
def replace (router destination nextHop : String) : List StaticRoute → List StaticRoute
  | [] => [⟨router, destination, nextHop⟩]
  | row :: rest =>
    if row.at? router destination then ⟨router, destination, nextHop⟩ :: rest
    else row :: replace router destination nextHop rest

/-- What an operation does to the static routes. A router that is deleted loses its routes. -/
def step (rows : List StaticRoute) : Operation → List StaticRoute
  | .lrDel router => rows.filter fun row => row.router ≠ router
  | .lrRouteDel router destination none => rows.filter fun row => !row.at? router destination
  | .lrRouteDel router destination (some nextHop) =>
    rows.filter fun row => row ≠ ⟨router, destination, nextHop⟩
  | .lrRouteAdd true router destination nextHop =>
    if ⟨router, destination, nextHop⟩ ∈ rows then rows
    else rows ++ [⟨router, destination, nextHop⟩]
  | .lrRouteAdd false router destination nextHop => replace router destination nextHop rows
  | _ => rows

/-- The next hops of one destination on one router. -/
def hopsAt (router destination : String) (rows : List StaticRoute) : List String :=
  (rows.filter (at? router destination)).map nextHop

variable {router destination : String}

theorem mem_hopsAt {nextHop : String} {rows : List StaticRoute} :
    nextHop ∈ hopsAt router destination rows ↔ ⟨router, destination, nextHop⟩ ∈ rows := by
  simp only [hopsAt, mem_map, mem_filter, at?, and_eq_true, decide_eq_true_eq]
  constructor
  · rintro ⟨row, ⟨member, rfl, rfl⟩, rfl⟩
    exact member
  · exact fun member => ⟨_, ⟨member, rfl, rfl⟩, rfl⟩

theorem nodup_hopsAt (router destination : String) {rows : List StaticRoute} (nodup : rows.Nodup) :
    (hopsAt router destination rows).Nodup := by
  refine (nodup_map_iff_inj_on (nodup.filter _)).mpr fun a inA b inB same => ?_
  simp only [mem_filter, at?, and_eq_true, decide_eq_true_eq] at inA inB
  cases a
  cases b
  simp_all

/-! ### One destination -/

/-- What an operation on the destination does to its next hops. -/
def hopStep (hops : List String) : Operation → List String
  | .lrDel _ => []
  | .lrRouteDel _ _ none => []
  | .lrRouteDel _ _ (some nextHop) => hops.filter fun hop => hop ≠ nextHop
  | .lrRouteAdd true _ _ nextHop => if nextHop ∈ hops then hops else hops ++ [nextHop]
  | .lrRouteAdd false _ _ nextHop => nextHop :: hops.tail
  | _ => hops

/-- The operation is about the destination or the whole router. -/
def touches (router destination : String) : Operation → Bool
  | .lrDel router' => router' = router
  | .lrRouteDel router' destination' _ => router' = router && destination' = destination
  | .lrRouteAdd _ router' destination' _ => router' = router && destination' = destination
  | _ => false

theorem hopsAt_replace (router destination nextHop : String) (rows : List StaticRoute) :
    hopsAt router destination (replace router destination nextHop rows) =
      nextHop :: (hopsAt router destination rows).tail := by
  induction rows with
  | nil => simp [replace, hopsAt, at?]
  | cons row rest ih =>
    rw [replace]
    split
    · next here =>
      rw [hopsAt, hopsAt, filter_cons_of_pos here, filter_cons_of_pos (by simp [at?]),
        map_cons, map_cons, tail_cons]
    · next other =>
      have skip : ∀ tail : List StaticRoute, hopsAt router destination (row :: tail) =
          hopsAt router destination tail := fun tail => by
        rw [hopsAt, filter_cons_of_neg (by simpa using other), hopsAt]
      rw [skip, skip, ih]

theorem hopsAt_replace_of_ne {router' destination' : String} (nextHop : String)
    (other : ¬(router' = router ∧ destination' = destination)) (rows : List StaticRoute) :
    hopsAt router destination (replace router' destination' nextHop rows) =
      hopsAt router destination rows := by
  have new : at? router destination ⟨router', destination', nextHop⟩ = false := by
    simpa [at?] using other
  induction rows with
  | nil => simp [replace, hopsAt, new]
  | cons row rest ih =>
    rw [replace]
    split
    · next here =>
      -- the row that is replaced belongs to the other destination
      simp only [at?, and_eq_true, decide_eq_true_eq] at here
      have old : at? router destination row = false := by
        rw [at?, here.1, here.2]
        simpa using other
      simp [hopsAt, new, old]
    · simp only [hopsAt, filter_cons] at ih ⊢
      split <;> simp [ih]

variable {keep : StaticRoute → Bool}

/-- Deletions that depend on the next hop only, among the routes of the destination. -/
theorem hopsAt_filter {keepHop : String → Bool}
    (agree : ∀ nextHop, keep ⟨router, destination, nextHop⟩ = keepHop nextHop)
    (rows : List StaticRoute) :
    hopsAt router destination (rows.filter keep) =
      (hopsAt router destination rows).filter keepHop := by
  simp only [hopsAt, filter_map, filter_filter]
  congr 1
  refine filter_congr fun row member => ?_
  cases here : at? router destination row with
  | false => rw [Bool.false_and, Bool.and_false]
  | true =>
    simp only [at?, and_eq_true, decide_eq_true_eq] at here
    have same : keep row = keepHop row.nextHop := by rw [← agree, ← here.1, ← here.2]
    rw [Bool.true_and, Bool.and_true, same, Function.comp_apply]

theorem hopsAt_filter_eq_self (all : ∀ nextHop, keep ⟨router, destination, nextHop⟩)
    (rows : List StaticRoute) :
    hopsAt router destination (rows.filter keep) = hopsAt router destination rows := by
  have kept : ∀ nextHop, keep ⟨router, destination, nextHop⟩ = (fun _ => true) nextHop := all
  rw [hopsAt_filter kept, filter_true]

theorem hopsAt_filter_eq_nil (none : ∀ nextHop, keep ⟨router, destination, nextHop⟩ = false)
    (rows : List StaticRoute) :
    hopsAt router destination (rows.filter keep) = [] := by
  have dropped : ∀ nextHop, keep ⟨router, destination, nextHop⟩ = (fun _ => false) nextHop := none
  rw [hopsAt_filter dropped, filter_false]

variable (rows : List StaticRoute)

theorem hopsAt_step_of_touches {op : Operation} (touch : touches router destination op) :
    hopsAt router destination (step rows op) = hopStep (hopsAt router destination rows) op := by
  cases op with
  | lrDel router' =>
    simp only [touches, decide_eq_true_eq] at touch
    exact hopsAt_filter_eq_nil (by simp [touch]) rows
  | lrRouteDel router' destination' nextHop =>
    simp only [touches, and_eq_true, decide_eq_true_eq] at touch
    obtain ⟨rfl, rfl⟩ := touch
    cases nextHop with
    | none => exact hopsAt_filter_eq_nil (by simp [at?]) rows
    | some nextHop => exact hopsAt_filter (by simp) rows
  | lrRouteAdd ecmp router' destination' nextHop =>
    simp only [touches, and_eq_true, decide_eq_true_eq] at touch
    obtain ⟨rfl, rfl⟩ := touch
    cases ecmp with
    | false => exact hopsAt_replace _ _ _ _
    | true =>
      simp only [step, hopStep, mem_hopsAt]
      split
      · rfl
      · simp [hopsAt, at?]
  | _ => simp [touches] at touch

theorem hopsAt_step_of_not_touches {op : Operation}
    (touch : touches router destination op = false) :
    hopsAt router destination (step rows op) = hopsAt router destination rows := by
  cases op with
  | lrDel router' =>
    simp only [touches, decide_eq_false_iff_not] at touch
    exact hopsAt_filter_eq_self (by simpa using Ne.symm touch) rows
  | lrRouteDel router' destination' nextHop =>
    simp only [touches, and_eq_false_iff, decide_eq_false_iff_not] at touch
    cases nextHop with
    | none => exact hopsAt_filter_eq_self (by simp only [at?]; grind) rows
    | some nextHop =>
      refine hopsAt_filter_eq_self (fun hop => ?_) rows
      rw [decide_eq_true_eq, ne_eq, StaticRoute.mk.injEq]
      grind
  | lrRouteAdd ecmp router' destination' nextHop =>
    simp only [touches, and_eq_false_iff, decide_eq_false_iff_not] at touch
    have other : ¬(router' = router ∧ destination' = destination) := by grind
    cases ecmp with
    | false => exact hopsAt_replace_of_ne nextHop other rows
    | true =>
      have new : at? router destination ⟨router', destination', nextHop⟩ = false := by
        simpa [at?] using other
      simp only [step]
      split
      · rfl
      · simp [hopsAt, new]
  | _ => rfl

theorem framed (router destination : String) :
    Cells.Framed step (hopsAt router destination) hopStep (touches router destination) where
  touched rows _ touch := hopsAt_step_of_touches rows touch
  untouched rows _ touch := hopsAt_step_of_not_touches rows touch

end StaticRoute

/-! ### Updating one route -/

open StaticRoute Strings Netip

/-- The next hops a route has in the database. -/
def routeHops (route : Route) : List String :=
  if route.blackhole then ["discard"] else route.nextHops.map Addr.string

/-- What an accepted state guarantees of a route. -/
structure RouteAccepted (route : Route) : Prop where
  some : route.blackhole = false → route.nextHops ≠ []
  nodup : route.nextHops.Nodup
  inside : ∀ nextHop ∈ route.nextHops, ∃ cidr : Prefix, cidr.contains nextHop = true

namespace RouteAccepted

variable {route : Route} (accepted : RouteAccepted route)

include accepted

theorem valid {nextHop : Addr} (member : nextHop ∈ route.nextHops) : nextHop.isValid := by
  obtain ⟨cidr, inside⟩ := accepted.inside nextHop member
  cases nextHop <;> cases cidr <;> simp_all [Prefix.contains, Addr.isValid]

theorem free {nextHop : Addr} (member : nextHop ∈ route.nextHops) {c : Char}
    (foreign : Netip.Foreign c) : c ∉ nextHop.string.toList := by
  obtain ⟨cidr, inside⟩ := accepted.inside nextHop member
  rw [Addr.string, String.toList_ofList]
  exact Netip.Addr.notMem_text_of_contains foreign inside

theorem nodup_routeHops : (routeHops route).Nodup := by
  rw [routeHops]
  split
  · simp
  · exact (nodup_map_iff_inj_on accepted.nodup).mpr fun a inA b inB same =>
      Netip.Addr.string_injective (accepted.valid inA) (accepted.valid inB) same

theorem routeHops_ne_nil : routeHops route ≠ [] := by
  rw [routeHops]
  split
  · simp
  · next open' => simpa using accepted.some (by simpa using open')

end RouteAccepted

/-! ### Signatures -/

/-- The part of a signature that names the next hops. -/
def hopsText (route : Route) : List Char :=
  List.intercalate [','] ((sortStrings (routeHops route)).map String.toList)

def bfdText (route : Route) : String :=
  if !route.blackhole && route.bfd.enabled then
    s!"|bfd={route.bfd.logicalPort},{route.bfd.minTx.toNat},{route.bfd.minRx.toNat}," ++
      s!"{route.bfd.detectMult.toNat}"
  else ""

theorem toList_routeSignature (record : RouteRecord) : (routeSignature record).toList =
    (routeKey record.vpc record.route).toList ++
      '|' :: (hopsText record.route ++ (bfdText record.route).toList) := by
  rw [routeSignature, hopsText, bfdText, routeHops]
  cases record.route.blackhole with
  | true => simp [sortStrings]
  | false =>
    cases record.route.bfd.enabled <;>
      simp [sortedRouteNextHops, toString]

theorem head_bfdText (route : Route) : ∀ x ∈ (bfdText route).toList.head?, x = '|' := by
  rw [bfdText]
  split
  · simp [toString]
  · simp

theorem free_routeHops {route : Route} (accepted : RouteAccepted route) {c : Char}
    (foreign : Netip.Foreign c) (noWord : c ∉ "discard".toList) :
    ∀ hop ∈ routeHops route, c ∉ hop.toList := by
  rw [routeHops]
  split
  · simpa using noWord
  · intro hop member
    obtain ⟨nextHop, inside, rfl⟩ := mem_map.mp member
    exact accepted.free inside foreign

/-- Routes of one destination with the same signature have the same next hops. -/
theorem routeHops_perm_of_signature {vpc : String} {old next : Route} (oldAccepted : RouteAccepted old)
    (nextAccepted : RouteAccepted next) (destination : old.destination = next.destination)
    (equal : routeSignature ⟨vpc, old⟩ = routeSignature ⟨vpc, next⟩) :
    (routeHops old).Perm (routeHops next) := by
  have texts := congrArg String.toList equal
  rw [toList_routeSignature, toList_routeSignature, routeKey, routeKey, destination] at texts
  -- the key, a bar and the next hops, up to a second bar
  have bars : ∀ {route : Route}, RouteAccepted route → '|' ∉ hopsText route := by
    intro route accepted member
    rcases Text.mem_join member with comma | ⟨piece, inside, bar⟩
    · exact absurd comma (by decide)
    · obtain ⟨hop, listed, rfl⟩ := mem_map.mp inside
      exact free_routeHops accepted foreign_bar (by decide) hop (by simpa using listed) bar
  have hops := Text.cut_or_end (bars oldAccepted) (bars nextAccepted) (head_bfdText old)
    (head_bfdText next) (cons_injective (append_cancel_left texts))
  have pieces : ∀ {route : Route}, RouteAccepted route →
      (∀ piece ∈ (sortStrings (routeHops route)).map String.toList, ',' ∉ piece) ∧
        (sortStrings (routeHops route)).map String.toList ≠ [] := by
    intro route accepted
    constructor
    · intro piece inside
      obtain ⟨hop, listed, rfl⟩ := mem_map.mp inside
      exact free_routeHops accepted foreign_comma (by decide) hop (by simpa using listed)
    · simpa using accepted.routeHops_ne_nil
  exact perm_of_sortStrings (Text.join_injective ',' _ _ (pieces oldAccepted).1 (pieces nextAccepted).1
    (pieces oldAccepted).2 (pieces nextAccepted).2 hops)

/-! ### Lists of operations on one destination -/

section

variable (router destination : String)

theorem foldl_peers (removed start : List String) :
    (removed.map fun hop => Operation.lrRouteDel router destination (some hop)).foldl hopStep start =
      start.filter fun hop => !removed.contains hop := by
  induction removed generalizing start with
  | nil => simp
  | cons first rest ih =>
    rw [map_cons, foldl_cons, ih, hopStep, filter_filter]
    refine filter_congr fun hop member => ?_
    by_cases same : hop = first <;> simp [same]

variable {router destination}

/-- Next hops to which a route can be added: it has all of them, or they are at most one
and it has one itself. -/
def Fits (route : Route) (start : List String) : Prop :=
  (∀ hop ∈ start, hop ∈ routeHops route) ∧ start.Nodup ∨
    start.length ≤ 1 ∧ (routeHops route).length = 1

@[simp] theorem fits_nil (route : Route) : Fits route [] := .inl ⟨by simp, nodup_nil⟩

theorem mem_foldl_routeOperations {route : Route} (accepted : RouteAccepted route)
    {start : List String} (fits : Fits route start) (hop : String) :
    hop ∈ (routeOperations router route).foldl hopStep start ↔ hop ∈ routeHops route := by
  -- a single next hop replaces the head of what is there, and there is nothing else
  have single : ∀ text, routeHops route = [text] → (start.tail = []) := by
    intro text only
    rcases fits with ⟨inside, nodup⟩ | ⟨short, _⟩
    · rw [only] at inside
      have bound := (nodup.subperm fun hop member => inside hop member).length_le
      exact eq_nil_of_length_eq_zero (by rw [length_tail]; simp at bound; omega)
    · exact eq_nil_of_length_eq_zero (by rw [length_tail]; omega)
  cases black : route.blackhole with
  | true =>
    have only : routeHops route = ["discard"] := by simp [routeHops, black]
    simp [routeOperations, black, hopStep, single _ only, only]
  | false =>
    have hops : routeHops route = route.nextHops.map Addr.string := by simp [routeHops, black]
    match next : route.nextHops with
    | [] => exact absurd next (accepted.some black)
    | [nextHop] =>
      have only : routeHops route = [nextHop.string] := by rw [hops, next]; rfl
      simp [routeOperations, black, next, hopStep, single _ only, only]
    | first :: second :: rest =>
      have plan : routeOperations router route = (routeHops route).map
          (Operation.lrRouteAdd true router route.destination.string) := by
        rw [hops, routeOperations, black, next]
        simp
      have several : (routeHops route).length ≠ 1 := by rw [hops, next]; simp
      have inside := (fits.resolve_right fun one => several one.2).1
      rw [plan, Cells.mem_foldl_add fun _ _ => rfl, map_id']
      exact ⟨fun either => either.elim (inside hop) id, .inr⟩

end

/-! ### From one version to the next -/

section

variable (sha256 : Sha256) {vpc : String} {old next : Route} {start : List String}

/-- Where the signatures differ, the cleanup leaves next hops to which the new version can
be added. -/
theorem fits_of_cleanup (oldAccepted : RouteAccepted old) (nodup : start.Nodup)
    (held : ∀ hop, hop ∈ start ↔ hop ∈ routeHops old)
    (differ : routeSignature ⟨vpc, old⟩ ≠ routeSignature ⟨vpc, next⟩) : Fits next
      ((routeUpdateCleanupOperations sha256 ⟨vpc, old⟩ ⟨vpc, next⟩).foldl hopStep start) := by
  have deleted : Fits next
      (([deleteStaticRouteDestinationOperation sha256 ⟨vpc, old⟩]).foldl hopStep start) :=
    fits_nil next
  simp only [routeUpdateCleanupOperations, if_neg differ]
  by_cases black : (old.blackhole || next.blackhole)
  · rw [if_pos black]
    exact deleted
  rw [if_neg black]
  obtain ⟨blackOld, blackNext⟩ : old.blackhole = false ∧ next.blackhole = false := by
    simpa using black
  have oldHops : routeHops old = old.nextHops.map Addr.string := by simp [routeHops, blackOld]
  have nextHops : routeHops next = next.nextHops.map Addr.string := by simp [routeHops, blackNext]
  have memOld : ∀ hop, hop ∈ sortedRouteNextHops old ↔ hop ∈ start := by
    simp [held, oldHops, sortedRouteNextHops]
  have memNext : ∀ hop, hop ∈ sortedRouteNextHops next ↔ hop ∈ routeHops next := by
    simp [nextHops, sortedRouteNextHops]
  have lengthNext : (sortedRouteNextHops next).length = (routeHops next).length := by
    rw [nextHops, sortedRouteNextHops, (sortStrings_perm _).length_eq]
  have lengthOld : (sortedRouteNextHops old).length = start.length := by
    rw [sortedRouteNextHops, ← oldHops, (sortStrings_perm _).length_eq]
    exact (((perm_ext_iff_of_nodup nodup oldAccepted.nodup_routeHops).mpr held).length_eq).symm
  -- deleting the peers that are not needed any more keeps those that are
  have peers : Fits next ((((sortedRouteNextHops old).filter fun hop =>
      !(sortedRouteNextHops next).contains hop).map
      (deleteStaticRouteNextHopOperation sha256 ⟨vpc, old⟩)).foldl hopStep start) := by
    refine .inl ?_
    rw [show (deleteStaticRouteNextHopOperation sha256 ⟨vpc, old⟩) = fun hop =>
      Operation.lrRouteDel (logicalRouter sha256 vpc) old.destination.string (some hop) from rfl,
      foldl_peers]
    refine ⟨fun hop member => ?_, nodup.filter _⟩
    simpa [memOld, memNext, (mem_filter.mp member).1] using (mem_filter.mp member).2
  split
  · grind
  split
  · split
    · exact peers
    · exact deleted
  split
  · next one =>
    rw [lengthOld, lengthNext] at one
    simp only [Bool.and_eq_true, decide_eq_true_eq] at one
    exact .inr ⟨one.1.le, one.2⟩
  · exact peers

/-- An update of a route ends with the next hops of its new version. -/
theorem mem_hops_of_update (oldAccepted : RouteAccepted old) (nextAccepted : RouteAccepted next)
    (destination : old.destination = next.destination) (nodup : start.Nodup)
    (held : ∀ hop, hop ∈ start ↔ hop ∈ routeHops old) (hop : String) :
    hop ∈ (routeUpdateCleanupOperations sha256 ⟨vpc, old⟩ ⟨vpc, next⟩ ++
        routeOperations (logicalRouter sha256 vpc) next).foldl hopStep start ↔
      hop ∈ routeHops next := by
  rw [foldl_append]
  refine mem_foldl_routeOperations nextAccepted ?_ hop
  by_cases same : routeSignature ⟨vpc, old⟩ = routeSignature ⟨vpc, next⟩
  · have perm := routeHops_perm_of_signature oldAccepted nextAccepted destination same
    rw [routeUpdateCleanupOperations, if_pos same]
    exact .inl ⟨fun hop member => perm.mem_iff.mp ((held hop).mp member), nodup⟩
  · exact fits_of_cleanup sha256 oldAccepted nodup held same

end

end Netloom.Ovn
