import Mathlib.Data.Prod.Lex
import Netloom.Lib.BestMatch
import Netloom.Lib.Ranging
import Netloom.Model.Routing

/-!
# Resolving a packet in the desired topology

`resolve` says where the desired topology sends a packet: to an endpoint, through
a DNAT rule or a load balancer, by a policy route, by a route table, or nowhere.
The state consists of maps, and each loop over one of them has an order of its
own, which `Loop` names.
-/
namespace Netloom.Topology

open Model Checked
open Netip (Addr Prefix)
open Ranging (Order)

structure State where
  vpcs : AList fun _ : String => VPC
  subnets : AList fun _ : String => Subnet
  endpoints : AList fun _ : String => Endpoint
  routeTables : AList fun _ : String => RouteTable
  policyRoutes : List PolicyRoute
  gateways : AList fun _ : String => Gateway
  natRules : AList fun _ : String => NATRule
  loadBalancers : AList fun _ : String => LoadBalancer
  dnsRecords : List DNSRecord := []

structure Packet where
  sourcePort : BitVec 16
  vpc : String
  source : Addr
  dest : Addr
  protocol : Protocol
  destPort : BitVec 16
  deriving DecidableEq, Repr

structure PolicyRouteSelection where
  vpc : String
  name : String
  priority : Int
  action : Action
  «match» : RouteMatch
  nextHops : List Addr
  selectedNextHop : Addr := .zero
  continuesTo : String := ""
  deriving DecidableEq, Repr

structure RouteTableSelection where
  vpc : String
  name : String
  destination : Prefix
  action : Action
  nextHops : List Addr := []
  selectedNextHop : Addr := .zero
  deriving DecidableEq, Repr

/-- The empty action of the source is `Action.other ""`. -/
structure Decision where
  action : Action
  nextHop : Addr := .zero
  nextHops : List Addr := []
  gateway : String := ""
  translated : Addr := .zero
  translatedPort : BitVec 16 := 0
  matchedBy : String := ""
  destination : String := ""
  policyRoute : Option PolicyRouteSelection := none
  routeTable : Option RouteTableSelection := none
  deriving DecidableEq, Repr

/-- The loops over maps that one call runs. -/
inductive Loop where
  | destination
  | dnat
  | target
  | source
  | loadBalancers
  | subnets (lb subnet : String)
  | routeTables
  | natNames
  | gatewayNames (pass : Nat)

abbrev Orders := Loop → Order.{0}

/-! ### Scores -/

/-- FNV-1a with 32 bits over the bytes of a text. -/
def fnv32a (text : String) : BitVec 32 :=
  text.toUTF8.data.toList.foldl (fun hash byte => (hash ^^^ BitVec.ofNat 32 byte.toNat) * 16777619)
    2166136261

def ecmpNextHopScore (scope : String) (nextHop : Addr) (packet : Packet) : BitVec 32 :=
  fnv32a (s!"{scope}|{packet.vpc}|{packet.source.string}|{packet.sourcePort.toNat}|" ++
    s!"{packet.dest.string}|{packet.protocol.text}|{packet.destPort.toNat}|{nextHop.string}")

/-- The pass that both selections make: a candidate wins with a greater score, or
with an equal one and a smaller value. -/
def selectByScore {α : Type} (score : α → BitVec 32) (compare : α → α → Ordering) (first : α)
    (rest : List α) : α :=
  rest.foldl (fun selected item =>
    if score selected < score item ||
        (score item == score selected && compare item selected == .lt) then item
    else selected) first

def selectECMPNextHop (scope : String) (nextHops : List Addr) (packet : Packet) : Addr :=
  match nextHops with
  | [] => .zero
  | first :: rest =>
    selectByScore (ecmpNextHopScore scope · packet) Addr.compare first rest

def loadBalancerSelectionValue (field : String) (packet : Packet) : String :=
  match field with
  | "ip_src" | "ipv6_src" => packet.source.string
  | "ip_dst" | "ipv6_dst" => packet.dest.string
  | "tp_src" => toString packet.sourcePort.toNat
  | "tp_dst" => toString packet.destPort.toNat
  | _ => ""

def loadBalancerBackendScore (backend : LoadBalancerBackend) (packet : Packet)
    (selectionFields : List String) : BitVec 32 :=
  if !selectionFields.isEmpty then
    fnv32a (s!"{packet.vpc}|{backend.ip.string}|{backend.port.toNat}" ++
      String.join (selectionFields.map fun field =>
        s!"|{field}={loadBalancerSelectionValue field packet}"))
  else
    fnv32a (s!"{packet.vpc}|{packet.source.string}|{packet.sourcePort.toNat}|" ++
      s!"{packet.dest.string}|{packet.protocol.text}|{packet.destPort.toNat}|" ++
      s!"{backend.ip.string}|{backend.port.toNat}")

def compareLoadBalancerBackend (a b : LoadBalancerBackend) : Ordering :=
  (a.ip.compare b.ip).then (compare a.port.toNat b.port.toNat)

def selectLoadBalancerBackend (lb : LoadBalancer) (first : LoadBalancerBackend)
    (rest : List LoadBalancerBackend) (packet : Packet) : LoadBalancerBackend :=
  selectByScore (loadBalancerBackendScore · packet lb.effectiveSelectionFields)
    compareLoadBalancerBackend first rest

/-! ### Endpoints, DNAT rules and load balancers -/

/-- `findEndpoint` and `findEndpointByIP`. The key that the former returns with the
endpoint is never empty. -/
def findEndpoint (order : Order) (state : State) (vpc : String) (ip : Addr) : Option Endpoint :=
  (order.values state.endpoints).find? fun endpoint => endpoint.vpc = vpc && endpoint.ip = ip

def dnatPortMatches (rule : NATRule) (packet : Packet) : Bool :=
  rule.externalPort = 0 ||
    ((if rule.protocol = .unset then .any else rule.protocol) = packet.protocol &&
      packet.destPort = rule.externalPort)

def dnatApplies (packet : Packet) (rule : NATRule) : Bool :=
  rule.vpc = packet.vpc && (rule.type = .dnat || rule.type = .dnatAndSnat) &&
    rule.externalIP = packet.dest && dnatPortMatches rule packet

def resolveDNAT (orders : Orders) (state : State) (packet : Packet) : Option Decision :=
  ((orders .dnat).values state.natRules).find? (dnatApplies packet) |>.map fun rule =>
    { action := .allow
      translated := rule.targetIP
      translatedPort := rule.targetPort
      matchedBy := "nat/" ++ rule.name
      destination := match findEndpoint (orders .target) state packet.vpc rule.targetIP with
        | some endpoint => endpointKey endpoint.vpc endpoint.id
        | none => rule.targetIP.string }

def subnetContainsSource (order : Order) (state : State) (vpc subnet : String) (source : Addr) :
    Bool :=
  source.isValid && (order.values state.subnets).any fun candidate =>
    candidate.vpc = vpc && candidate.name = subnet && candidate.cidr.contains source

variable (orders : Orders) (state : State)

/-- Without an endpoint the source has the zero value, which has no id. -/
def loadBalancerAllowsSourceSubnet (lb : LoadBalancer)
    (endpoint : Option Endpoint) (source : Addr) : Bool :=
  lb.subnets.any fun subnet =>
    (endpoint.any fun endpoint => endpoint.id ≠ "" && endpoint.subnet = subnet) ||
      subnetContainsSource (orders (.subnets lb.name subnet)) state lb.vpc subnet source

def resolveFrontend (packet : Packet) (lb : LoadBalancer)
    (frontend : LoadBalancerFrontend) : Option Decision :=
  if frontend.vip ≠ packet.dest ∨ frontend.port ≠ packet.destPort ∨
      frontend.protocol ≠ packet.protocol then none
  else if !lb.subnets.isEmpty && !loadBalancerAllowsSourceSubnet orders state lb
      (findEndpoint (orders .source) state packet.vpc packet.source) packet.source then none
  else match frontend.backends.filter LoadBalancerBackend.isHealthy with
    | [] => none
    | first :: rest =>
      let backend := selectLoadBalancerBackend lb first rest packet
      some
        { action := .allow
          translated := backend.ip
          translatedPort := backend.port
          matchedBy := "load-balancer/" ++ lb.name
          destination := backend.ip.string }

def resolveLoadBalancer (packet : Packet) : Option Decision :=
  ((orders .loadBalancers).values state.loadBalancers).findSome? fun lb =>
    if lb.vpc ≠ packet.vpc then none
    else lb.frontends.findSome? (resolveFrontend orders state packet lb)

/-! ### Policy routes and route tables -/

def portRangesContain (ports : List PortRange) (port : BitVec 16) : Bool :=
  ports.any fun p => p.fromPort ≤ port && port ≤ p.toPort

def routeMatch («match» : RouteMatch) (packet : Packet) : Bool :=
  !(«match».source.isValid && !«match».source.contains packet.source) &&
    !(«match».destination.isValid && !«match».destination.contains packet.dest) &&
    !(«match».protocol ≠ .unset && «match».protocol ≠ .any && «match».protocol ≠ packet.protocol) &&
    !(!«match».srcPorts.isEmpty && !portRangesContain «match».srcPorts packet.sourcePort) &&
    !(!«match».dstPorts.isEmpty && !portRangesContain «match».dstPorts packet.destPort)

/-- The candidates with the greatest priority first. -/
def byPriority (routes : List PolicyRoute) : List PolicyRoute :=
  routes.insertionSort fun left right => right.priority ≤ left.priority

def policyRouteDecision (packet : Packet) (route : PolicyRoute) : Decision :=
  let nextHops := route.action.nextHops
  let nextHop := if nextHops.isEmpty then .zero else selectECMPNextHop route.name nextHops packet
  { action := route.action.type
    nextHop
    nextHops
    matchedBy := "policy-route/" ++ route.name
    policyRoute := some
      { vpc := route.vpc
        name := route.name
        priority := route.priority
        action := route.action.type
        «match» := route.match
        nextHops
        selectedNextHop := nextHop } }

def resolvePolicyRoute (routes : List PolicyRoute) (packet : Packet) : Option Decision :=
  ((byPriority routes).find? fun route =>
    route.vpc = packet.vpc && routeMatch route.match packet).map (policyRouteDecision packet)

/-- The routes of the packet's VPC, each with the name of its table. -/
def routesOf (order : Order) (tables : AList fun _ : String => RouteTable) (vpc : String) :
    List (Route × String) :=
  ((order.values tables).filter fun table => table.vpc = vpc).flatMap fun table =>
    table.routes.map fun route => (route, table.name)

def routeTableDecision (packet : Packet) (route : Route) (name : String) : Decision :=
  if route.blackhole then
    { action := .drop
      matchedBy := "route-table/" ++ name
      routeTable := some
        { vpc := packet.vpc, name, destination := route.destination, action := .drop } }
  else
    let nextHop := if route.nextHops.isEmpty then .zero
      else selectECMPNextHop (name ++ "/" ++ route.destination.string) route.nextHops packet
    { action := .reroute
      nextHop
      nextHops := route.nextHops
      matchedBy := "route-table/" ++ name
      routeTable := some
        { vpc := packet.vpc
          name
          destination := route.destination
          action := .reroute
          nextHops := route.nextHops
          selectedNextHop := nextHop } }

def resolveRouteTables (order : Order) (tables : AList fun _ : String => RouteTable)
    (packet : Packet) : Option Decision :=
  (BestMatch.select (fun entry : Route × String => entry.1.destination.contains packet.dest)
    (fun entry best => best.1.destination.bits < entry.1.destination.bits)
    (routesOf order tables packet.vpc)).map fun entry => routeTableDecision packet entry.1 entry.2

/-! ### NAT and gateways -/

/-- The values of a map in the order of their keys. -/
def sortedValues {α : Type} (order : Order) (map : AList fun _ : String => α) : List α :=
  (Strings.sortStrings (order.keys map)).filterMap fun name => map.lookup name

def applyGateway (packet : Packet) (decision : Decision) : Decision :=
  let serves (gateway : Gateway) : Bool := gateway.vpc = packet.vpc &&
    !(decision.nextHop.isValid && gateway.lanIP ≠ decision.nextHop)
  match (sortedValues (orders (.gatewayNames 0)) state.gateways).find? serves with
  | some gateway => { decision with gateway := gateway.name }
  | none =>
    match (sortedValues (orders (.gatewayNames 1)) state.gateways).find?
        (fun gateway => gateway.vpc = packet.vpc) with
    | some gateway => { decision with gateway := gateway.name }
    | none => decision

def applyNATAndGateway (packet : Packet) (decision : Decision) : Decision :=
  if decision.action = .drop ∨ decision.action = .reject then decision
  else
    let decision := if decision.action.text = "" then { decision with action := .allow } else decision
    let decision := match (sortedValues (orders .natNames) state.natRules).find? fun rule =>
        rule.vpc = packet.vpc && rule.type = .snat && rule.matchCIDR.contains packet.source with
      | some rule => { decision with translated := rule.externalIP }
      | none => decision
    applyGateway orders state packet decision

/-- A policy route that allows the packet takes its next hop from the route tables. -/
def continueToRoutes (routed decision : Decision) : Decision :=
  { routed with
    matchedBy := decision.matchedBy
    policyRoute := decision.policyRoute.map fun selection => match routed.routeTable with
      | some table => { selection with continuesTo := "route-table/" ++ table.name }
      | none => selection }

variable (orders : Orders) (state : State) (packet : Packet)

def resolveRoutes : Decision :=
  let routed := resolveRouteTables (orders .routeTables) state.routeTables packet
  match resolvePolicyRoute state.policyRoutes packet, routed with
  | some decision, some routed =>
    applyNATAndGateway orders state packet
      (if decision.action = .allow then continueToRoutes routed decision else decision)
  | some decision, none => applyNATAndGateway orders state packet decision
  | none, some routed => applyNATAndGateway orders state packet routed
  | none, none => { action := .drop, matchedBy := "no-route" }

def resolvePacket : Decision :=
  match findEndpoint (orders .destination) state packet.vpc packet.dest with
  | some endpoint =>
    { action := .allow
      matchedBy := "endpoint"
      destination := endpointKey endpoint.vpc endpoint.id }
  | none =>
    ((resolveDNAT orders state packet).or (resolveLoadBalancer orders state packet)).getD
      (resolveRoutes orders state packet)

def resolve : Except String Decision := do
  require (packet.vpc ≠ "") "packet vpc is required"
  require (packet.source.isValid && packet.dest.isValid)
    "packet source and destination are required"
  let packet := if packet.protocol = .unset then { packet with protocol := .any } else packet
  pure (resolvePacket orders state packet)

open List

/-! ### The best candidate -/

section Pass

variable {α κ : Type} [LinearOrder κ] (score : α → BitVec 32) (compare : α → α → Ordering)

def best : List α → Option α
  | [] => none
  | first :: rest => some (selectByScore score compare first rest)

/-- Candidates rank by score, and then the smaller key is better. -/
def rank (key : α → κ) (item : α) : ℕ ×ₗ κᵒᵈ :=
  toLex ((score item).toNat, OrderDual.toDual (key item))

variable {compare} {key : α → κ} (compares : ∀ a b, compare a b = .lt ↔ key a < key b)
include compares

theorem selectByScore_spec (first : α) (rest : List α) :
    selectByScore score compare first rest ∈ first :: rest ∧ ∀ item ∈ first :: rest,
      rank score key item ≤ rank score key (selectByScore score compare first rest) := by
  have wins_iff : ∀ item selected, (score selected < score item ||
      (score item == score selected && compare item selected == .lt)) = true ↔
        rank score key selected < rank score key item := by
    intro item selected
    rw [rank, rank, Prod.Lex.toLex_lt_toLex, OrderDual.toDual_lt_toDual, ← compares]
    simp [BitVec.lt_def, BitVec.toNat_inj, @eq_comm _ (score item)]
  induction rest generalizing first with
  | nil => simp [selectByScore]
  | cons second rest ih =>
    -- the better of the first two goes on
    rw [selectByScore, foldl_cons, ← selectByScore]
    split
    · next wins =>
      obtain ⟨member, top⟩ := ih second
      have below := ((wins_iff second first).mp wins).le.trans (top second mem_cons_self)
      exact ⟨mem_cons_of_mem _ member, forall_mem_cons.mpr ⟨below, top⟩⟩
    · next loses =>
      obtain ⟨member, top⟩ := ih first
      have below := (not_lt.mp (mt (wins_iff second first).mpr loses)).trans (top first mem_cons_self)
      rw [forall_mem_cons] at top ⊢
      refine ⟨?_, top.1, forall_mem_cons.mpr ⟨below, top.2⟩⟩
      exact (sublist_cons_self second rest).cons_cons first |>.subset member

variable {score} {items items' : List α}

theorem mem_of_best {choice : α} (found : best score compare items = some choice) :
    choice ∈ items := by
  cases items with
  | nil => cases found
  | cons first rest => exact Option.some.inj found ▸ (selectByScore_spec score compares first rest).1

/-- The choice stays as long as it is there and no candidate is new. -/
theorem best_of_kept (same : ∀ a b, key a = key b → score a = score b) (old : items' ⊆ items)
    {choice : κ} (found : (best score compare items).map key = some choice)
    (kept : ∃ item ∈ items', key item = choice) :
    (best score compare items').map key = some choice := by
  obtain ⟨item, member, rfl⟩ := kept
  cases items with
  | nil => cases found
  | cons first rest =>
    cases items' with
    | nil => cases member
    | cons first' rest' =>
      obtain ⟨_, top⟩ := selectByScore_spec score compares first rest
      obtain ⟨inItems, top'⟩ := selectByScore_spec score compares first' rest'
      have equal := Option.some.inj found
      have above := top _ (old inItems)
      rw [rank, rank, equal, same _ _ equal, ← rank, ← rank] at above
      exact congrArg (fun r : ℕ ×ₗ κᵒᵈ => some r.2) (above.antisymm (top' item member))

theorem best_perm (same : ∀ a b, key a = key b → score a = score b) (perm : items.Perm items') :
    (best score compare items').map key = (best score compare items).map key := by
  cases items with
  | nil => rw [nil_perm.mp perm]
  | cons first rest =>
    have member := perm.subset (selectByScore_spec score compares first rest).1
    exact best_of_kept compares same perm.symm.subset rfl ⟨_, member, rfl⟩

end Pass

/-! ### Addresses and backends -/

/-- Addresses are compared by family, number and zone. -/
def addrKey (ip : Addr) : ℕ ×ₗ ℕ ×ₗ String := toLex (ip.bitLen, toLex (ip.toNat, ip.zone))

theorem addrKey_injective : Function.Injective addrKey := by
  intro a b same
  simp only [addrKey, EmbeddingLike.apply_eq_iff_eq, Prod.mk.injEq] at same
  cases a <;> cases b <;> simp_all [Addr.bitLen, Addr.toNat, Addr.zone, BitVec.toNat_inj]

theorem compare_addr (a b : Addr) : (a.compare b = .lt ↔ addrKey a < addrKey b) ∧
    (a.compare b = .eq ↔ addrKey a = addrKey b) := by
  simp [Addr.compare, addrKey, Ordering.then_eq_lt, Ordering.then_eq_eq, Prod.Lex.toLex_lt_toLex,
    compare_lt_iff_lt]

def backendKey (backend : LoadBalancerBackend) : (ℕ ×ₗ ℕ ×ₗ String) ×ₗ ℕ :=
  toLex (addrKey backend.ip, backend.port.toNat)

theorem of_backendKey {a b : LoadBalancerBackend} (same : backendKey a = backendKey b) :
    a.ip = b.ip ∧ a.port = b.port := by
  simp only [backendKey, EmbeddingLike.apply_eq_iff_eq, Prod.mk.injEq] at same
  exact ⟨addrKey_injective same.1, BitVec.eq_of_toNat_eq same.2⟩

theorem compare_backend (a b : LoadBalancerBackend) :
    compareLoadBalancerBackend a b = .lt ↔ backendKey a < backendKey b := by
  simp [compareLoadBalancerBackend, backendKey, Ordering.then_eq_lt, Prod.Lex.toLex_lt_toLex,
    compare_lt_iff_lt, compare_addr]

theorem backendScore_of_key {a b : LoadBalancerBackend} (packet : Packet) (fields : List String)
    (same : backendKey a = backendKey b) :
    loadBalancerBackendScore a packet fields = loadBalancerBackendScore b packet fields := by
  rw [loadBalancerBackendScore, loadBalancerBackendScore, (of_backendKey same).1,
    (of_backendKey same).2]

/-! ### Frontends and next hops -/

def backendDecision (lb : LoadBalancer) (backend : LoadBalancerBackend) : Decision where
  action := .allow
  translated := backend.ip
  translatedPort := backend.port
  matchedBy := "load-balancer/" ++ lb.name
  destination := backend.ip.string

def healthyBest (lb : LoadBalancer) (packet : Packet) (backends : List LoadBalancerBackend) :
    Option LoadBalancerBackend :=
  best (loadBalancerBackendScore · packet lb.effectiveSelectionFields) compareLoadBalancerBackend
    (backends.filter LoadBalancerBackend.isHealthy)

/-- The frontend is for the address, port and protocol of the packet. -/
def Takes (packet : Packet) (frontend : LoadBalancerFrontend) : Prop :=
  frontend.vip = packet.dest ∧ frontend.port = packet.destPort ∧ frontend.protocol = packet.protocol

/-- The load balancer is open to the source of the packet. -/
def allowsSource (orders : Orders) (state : State) (packet : Packet) (lb : LoadBalancer) : Bool :=
  lb.subnets.isEmpty || loadBalancerAllowsSourceSubnet orders state lb
    (findEndpoint (orders .source) state packet.vpc packet.source) packet.source

theorem resolveFrontend_of_takes (orders : Orders) (state : State) {packet : Packet}
    (lb : LoadBalancer) {frontend : LoadBalancerFrontend} (takes : Takes packet frontend) :
    resolveFrontend orders state packet lb frontend =
      if allowsSource orders state packet lb then
        (healthyBest lb packet frontend.backends).map (backendDecision lb)
      else none := by
  obtain ⟨vip, port, protocol⟩ := takes
  rw [resolveFrontend, if_neg (by simp [vip, port, protocol]), ← Bool.not_or, ← allowsSource,
    healthyBest]
  cases allowsSource orders state packet lb with
  | false => rfl
  | true => cases frontend.backends.filter LoadBalancerBackend.isHealthy <;> rfl

theorem resolveFrontend_of_not_takes (orders : Orders) (state : State) {packet : Packet}
    (lb : LoadBalancer) {frontend : LoadBalancerFrontend} (other : ¬ Takes packet frontend) :
    resolveFrontend orders state packet lb frontend = none := by
  rw [Takes, not_and_or, not_and_or] at other
  exact if_pos other

/-- The frontend of the packet: the only one of its VPC that takes it, as validation ensures. -/
structure Serves (state : State) (packet : Packet) (lb : LoadBalancer)
    (frontend : LoadBalancerFrontend) : Prop where
  stored : ∃ name, state.loadBalancers.lookup name = some lb
  vpc : lb.vpc = packet.vpc
  listed : frontend ∈ lb.frontends
  takes : Takes packet frontend
  only : ∀ name other, state.loadBalancers.lookup name = some other → other.vpc = packet.vpc →
    ∀ frontend' ∈ other.frontends, Takes packet frontend' → other = lb ∧ frontend' = frontend

/-- The loops over load balancers and frontends end at the frontend of the packet. -/
theorem Serves.resolveLoadBalancer_eq {state : State} {packet : Packet} {lb : LoadBalancer}
    {frontend : LoadBalancerFrontend} (serves : Serves state packet lb frontend) (orders : Orders) :
    resolveLoadBalancer orders state packet =
      if allowsSource orders state packet lb then
        (healthyBest lb packet frontend.backends).map (backendDecision lb)
      else none := by
  obtain ⟨⟨name, stored⟩, vpc, listed, takes, only⟩ := serves
  have inner : lb.frontends.findSome? (resolveFrontend orders state packet lb) =
      resolveFrontend orders state packet lb frontend := by
    refine Ranging.findSome?_eq listed fun other member => ?_
    by_cases taken : Takes packet other
    · exact .inr (by rw [(only name lb stored vpc other member taken).2])
    · exact .inl (resolveFrontend_of_not_takes orders state lb taken)
  rw [← resolveFrontend_of_takes orders state lb takes, ← inner, resolveLoadBalancer,
    Ranging.findSome?_eq (Ranging.Order.mem_values_of_lookup stored) fun other member => ?_]
  · rw [if_neg (not_not.mpr vpc)]
  · obtain ⟨name', stored'⟩ := Ranging.Order.lookup_of_mem_values member
    by_cases foreign : other.vpc ≠ packet.vpc
    · exact .inl (if_pos foreign)
    by_cases taken : ∃ frontend' ∈ other.frontends, Takes packet frontend'
    · obtain ⟨frontend', member', taken⟩ := taken
      rw [(only name' other stored' (not_not.mp foreign) frontend' member' taken).1]
      exact .inr rfl
    · refine .inl ((if_neg foreign).trans (findSome?_eq_none_iff.mpr fun frontend' member' => ?_))
      exact resolveFrontend_of_not_takes orders state other fun takes => taken ⟨_, member', takes⟩

/-- The packet meets the same frontend in another state, with other backends. -/
structure Rebacked (state state' : State) (packet : Packet) (lb : LoadBalancer)
    (frontend : LoadBalancerFrontend) (backends : List LoadBalancerBackend) : Prop where
  endpoints : state'.endpoints = state.endpoints
  subnets : state'.subnets = state.subnets
  serves : ∃ ports, Serves state' packet { lb with ports } { frontend with backends }

theorem Rebacked.resolveLoadBalancer_eq {state state' : State} {packet : Packet}
    {lb : LoadBalancer} {frontend : LoadBalancerFrontend} {backends : List LoadBalancerBackend}
    (rebacked : Rebacked state state' packet lb frontend backends) (orders : Orders) :
    resolveLoadBalancer orders state' packet =
      if allowsSource orders state packet lb then
        (healthyBest lb packet backends).map (backendDecision lb)
      else none := by
  obtain ⟨endpoints, subnets, ports, serves⟩ := rebacked
  rw [serves.resolveLoadBalancer_eq orders]
  simp only [allowsSource, loadBalancerAllowsSourceSubnet, subnetContainsSource, findEndpoint,
    endpoints, subnets]
  rfl

section Rendezvous

variable {packet : Packet} {lb : LoadBalancer}

/-- A choice is a healthy backend, and there is one unless no backend is healthy. -/
theorem healthyBest_spec (lb : LoadBalancer) (packet : Packet) (backends : List LoadBalancerBackend) :
    (∀ backend, healthyBest lb packet backends = some backend →
      backend ∈ backends ∧ backend.isHealthy = true) ∧
    ((healthyBest lb packet backends).isSome ↔ ∃ backend ∈ backends, backend.isHealthy = true) := by
  rw [healthyBest]
  cases healthy : backends.filter LoadBalancerBackend.isHealthy with
  | nil =>
    refine ⟨fun _ => by simp [best], iff_of_false (by simp [best]) ?_⟩
    simpa using filter_eq_nil_iff.mp healthy
  | cons first rest =>
    refine ⟨fun backend chosen => ?_, iff_of_true rfl ?_⟩
    · have member := mem_of_best compare_backend chosen
      rw [← healthy] at member
      exact mem_filter.mp member
    · exact ⟨first, mem_filter.mp (healthy ▸ mem_cons_self)⟩

/-- A decision says no more of the backend than its key. -/
theorem backendDecision_of_key {x y : Option LoadBalancerBackend}
    (same : x.map backendKey = y.map backendKey) :
    x.map (backendDecision lb) = y.map (backendDecision lb) := by
  rcases x with _ | a <;> rcases y with _ | b
  · rfl
  · cases same
  · cases same
  · obtain ⟨ip, port⟩ := of_backendKey (Option.some.inj same)
    simp [backendDecision, ip, port]

theorem healthyBest_perm {backends backends' : List LoadBalancerBackend}
    (perm : backends.Perm backends') :
    (healthyBest lb packet backends').map (backendDecision lb) =
      (healthyBest lb packet backends).map (backendDecision lb) :=
  backendDecision_of_key (best_perm compare_backend
    (fun a b => backendScore_of_key (a := a) (b := b) packet _) (perm.filter _))

theorem healthyBest_kept {backends backends' : List LoadBalancerBackend} {decision : Decision}
    (found : (healthyBest lb packet backends).map (backendDecision lb) = some decision)
    (old : ∀ backend ∈ backends', backend.isHealthy = true → backend ∈ backends)
    (kept : ∃ backend ∈ backends', backend.isHealthy = true ∧ backend.ip = decision.translated ∧
      backend.port = decision.translatedPort) :
    (healthyBest lb packet backends').map (backendDecision lb) = some decision := by
  obtain ⟨choice, chosen, rfl⟩ := Option.map_eq_some_iff.mp found
  obtain ⟨backend, member, healthy, ip, port⟩ := kept
  rw [← Option.map_some, backendDecision_of_key]
  refine best_of_kept compare_backend
    (fun a b => backendScore_of_key (a := a) (b := b) packet _) (fun x inside => ?_)
    (by rw [← healthyBest, chosen]; rfl)
    ⟨backend, mem_filter.mpr ⟨member, healthy⟩, by rw [backendKey, ip, port]; rfl⟩
  obtain ⟨inside, healthy⟩ := mem_filter.mp inside
  exact mem_filter.mpr ⟨old x inside healthy, healthy⟩

theorem healthyBest_of_agree {packet' : Packet} (some : lb.effectiveSelectionFields ≠ [])
    (vpc : packet'.vpc = packet.vpc) (agree : ∀ field ∈ lb.effectiveSelectionFields,
      loadBalancerSelectionValue field packet' = loadBalancerSelectionValue field packet) :
    healthyBest lb packet' = healthyBest lb packet := by
  have equal : (loadBalancerBackendScore · packet' lb.effectiveSelectionFields) =
      (loadBalancerBackendScore · packet lb.effectiveSelectionFields) := by
    funext backend
    rw [loadBalancerBackendScore, loadBalancerBackendScore, if_pos (by simpa using some),
      if_pos (by simpa using some), vpc, map_congr_left fun field member => by rw [agree field member]]
  funext backends
  rw [healthyBest, healthyBest, equal]

section Hops

variable (scope : String) {nextHops nextHops' : List Addr}

theorem selectECMPNextHop_eq (nextHops : List Addr) : selectECMPNextHop scope nextHops packet =
    (best (ecmpNextHopScore scope · packet) Addr.compare nextHops).getD .zero := by
  cases nextHops <;> rfl

private theorem ecmpNextHopScore_of_key (a b : Addr) (same : addrKey a = addrKey b) :
    ecmpNextHopScore scope a packet = ecmpNextHopScore scope b packet := by
  rw [addrKey_injective same]

theorem selectECMPNextHop_mem (some : nextHops ≠ []) :
    selectECMPNextHop scope nextHops packet ∈ nextHops := by
  cases nextHops with
  | nil => exact absurd rfl some
  | cons first rest => exact (selectByScore_spec _ (fun a b => (compare_addr a b).1) first rest).1

theorem selectECMPNextHop_perm (perm : nextHops.Perm nextHops') :
    selectECMPNextHop scope nextHops' packet = selectECMPNextHop scope nextHops packet := by
  rw [selectECMPNextHop_eq, selectECMPNextHop_eq, Option.map_injective addrKey_injective
    (best_perm (fun a b => (compare_addr a b).1) (ecmpNextHopScore_of_key scope) perm)]

theorem selectECMPNextHop_kept (old : nextHops' ⊆ nextHops)
    (kept : selectECMPNextHop scope nextHops packet ∈ nextHops') :
    selectECMPNextHop scope nextHops' packet = selectECMPNextHop scope nextHops packet := by
  cases nextHops with
  | nil => exact absurd (old kept) not_mem_nil
  | cons first rest =>
    have same : (best _ _ nextHops').map addrKey = (some _).map addrKey :=
      best_of_kept (fun a b => (compare_addr a b).1) (ecmpNextHopScore_of_key scope) old rfl
        ⟨_, kept, rfl⟩
    rw [selectECMPNextHop_eq, Option.map_injective addrKey_injective same]
    rfl

end Hops

end Rendezvous

/-- A packet goes to a healthy backend of its frontend, unless it has none or the load balancer
is closed to the source. The backend does not depend on the order of the backends; it stays if
others are removed or become unhealthy; with selection fields it is the same for packets of
one VPC that agree on the fields. A next hop is one of those listed, whatever their order,
and stays if others are removed. -/
theorem selection_rendezvous (orders : Orders) {state : State} {packet : Packet}
    {lb : LoadBalancer} {frontend : LoadBalancerFrontend}
    (serves : Serves state packet lb frontend) (scope : String) (nextHops : List Addr) :
    (∀ decision, resolveLoadBalancer orders state packet = some decision →
      ∃ backend ∈ frontend.backends, backend.isHealthy = true ∧
        decision = backendDecision lb backend) ∧
    ((resolveLoadBalancer orders state packet).isSome ↔
      allowsSource orders state packet lb = true ∧
        ∃ backend ∈ frontend.backends, backend.isHealthy = true) ∧
    (∀ state' backends, Rebacked state state' packet lb frontend backends →
      frontend.backends.Perm backends →
      resolveLoadBalancer orders state' packet = resolveLoadBalancer orders state packet) ∧
    (∀ state' backends decision, Rebacked state state' packet lb frontend backends →
      resolveLoadBalancer orders state packet = some decision →
      (∀ backend ∈ backends, backend.isHealthy = true → backend ∈ frontend.backends) →
      (∃ backend ∈ backends, backend.isHealthy = true ∧ backend.ip = decision.translated ∧
        backend.port = decision.translatedPort) →
      resolveLoadBalancer orders state' packet = some decision) ∧
    (∀ packet' decision decision', Serves state packet' lb frontend →
      lb.effectiveSelectionFields ≠ [] →
      (∀ field ∈ lb.effectiveSelectionFields,
        loadBalancerSelectionValue field packet' = loadBalancerSelectionValue field packet) →
      resolveLoadBalancer orders state packet = some decision →
      resolveLoadBalancer orders state packet' = some decision' → decision' = decision) ∧
    (nextHops ≠ [] → selectECMPNextHop scope nextHops packet ∈ nextHops) ∧
    (∀ nextHops', nextHops.Perm nextHops' →
      selectECMPNextHop scope nextHops' packet = selectECMPNextHop scope nextHops packet) ∧
    ∀ nextHops' ⊆ nextHops, selectECMPNextHop scope nextHops packet ∈ nextHops' →
      selectECMPNextHop scope nextHops' packet = selectECMPNextHop scope nextHops packet := by
  have resolved := serves.resolveLoadBalancer_eq orders
  obtain ⟨member, isSome⟩ := healthyBest_spec lb packet frontend.backends
  refine ⟨fun decision found => ?_, ?_, fun state' backends rebacked perm => ?_,
    fun state' backends decision rebacked found old kept => ?_,
    fun packet' decision decision' serves' some agree found found' => ?_,
    selectECMPNextHop_mem scope, fun _ => selectECMPNextHop_perm scope,
    fun _ => selectECMPNextHop_kept scope⟩
  · rw [resolved, Option.ite_none_right_eq_some] at found
    obtain ⟨backend, chosen, rfl⟩ := Option.map_eq_some_iff.mp found.2
    exact ⟨backend, (member backend chosen).1, (member backend chosen).2, rfl⟩
  · rw [resolved, ← isSome]
    cases allowsSource orders state packet lb <;> simp
  · rw [resolved, rebacked.resolveLoadBalancer_eq orders, healthyBest_perm perm]
  · rw [resolved, Option.ite_none_right_eq_some] at found
    rw [rebacked.resolveLoadBalancer_eq orders, if_pos found.1, healthyBest_kept found.2 old kept]
  · have same := healthyBest_of_agree some (serves'.vpc.symm.trans serves.vpc) agree
    rw [resolved, Option.ite_none_right_eq_some] at found
    rw [serves'.resolveLoadBalancer_eq orders, Option.ite_none_right_eq_some, same] at found'
    exact Option.some.inj (found'.2.symm.trans found.2)

/-- A load balancer for port 80 of 10.0.0.80 with the given backends, which goes by the source. -/
def shopBalancer (backends : List LoadBalancerBackend) : LoadBalancer where
  name := "shop"
  vpc := "prod"
  vip := .v4 0x0a000050
  ports := [{ name := "http", port := 80, protocol := .tcp, backends }]
  selectionFields := ["ip_src"]
  healthCheck := ⟨false, 0, 0, 0, 0⟩

def shopFrontend (backends : List LoadBalancerBackend) : LoadBalancerFrontend :=
  ⟨"http", .v4 0x0a000050, 80, .tcp, backends⟩

def shopState (backends : List LoadBalancerBackend) : State where
  vpcs := ∅
  subnets := ∅
  endpoints := ∅
  routeTables := ∅
  policyRoutes := []
  gateways := ∅
  natRules := ∅
  loadBalancers := AList.singleton "shop" (shopBalancer backends)

def shopPacket (sourcePort : BitVec 16) : Packet :=
  ⟨sourcePort, "prod", .v4 0x0a000007, .v4 0x0a000050, .tcp, 80⟩

private theorem serves_shop (backends : List LoadBalancerBackend) (port : BitVec 16) :
    Serves (shopState backends) (shopPacket port) (shopBalancer backends)
      (shopFrontend backends) := by
  refine ⟨⟨"shop", rfl⟩, rfl, mem_singleton.mpr rfl, ⟨rfl, rfl, rfl⟩, ?_⟩
  intro name other held _ frontend' member _
  have entry : (⟨name, other⟩ : Sigma fun _ : String => LoadBalancer) ∈
      [⟨"shop", shopBalancer backends⟩] := AList.mem_lookup_iff.mp held
  cases mem_singleton.mp entry
  exact ⟨rfl, mem_singleton.mp member⟩

private theorem rebacked_shop (backends backends' : List LoadBalancerBackend) :
    Rebacked (shopState backends) (shopState backends') (shopPacket 40000) (shopBalancer backends)
      (shopFrontend backends) backends' :=
  ⟨rfl, rfl, _, serves_shop backends' _⟩

/-- Of two backends one is chosen, in either order and for every port of the source, and still is
when the other is gone. -/
theorem selection_rendezvous_shop :
    let a : LoadBalancerBackend := ⟨.v4 0x0a000101, 8080, none⟩
    let b : LoadBalancerBackend := ⟨.v4 0x0a000102, 8080, none⟩
    let resolved := fun backends port =>
      resolveLoadBalancer (fun _ => .identity) (shopState backends) (shopPacket port)
    let hop := fun nextHops => selectECMPNextHop "shop" nextHops (shopPacket 40000)
    (∃ backend ∈ [a, b], ∃ decision, decision = backendDecision (shopBalancer [a, b]) backend ∧
      (∀ port, resolved [a, b] port = some decision) ∧ resolved [backend] 40000 = some decision) ∧
    resolved [b, a] 40000 = resolved [a, b] 40000 ∧ hop [a.ip, b.ip] ∈ [a.ip, b.ip] ∧
    hop [b.ip, a.ip] = hop [a.ip, b.ip] ∧ hop [hop [a.ip, b.ip]] = hop [a.ip, b.ip] := by
  intro a b resolved hop
  have resolves : ∀ port, ∃ decision, resolved [a, b] port = some decision := by
    intro port
    obtain ⟨_, isSome, _⟩ := selection_rendezvous _ (serves_shop [a, b] port) "" []
    exact Option.isSome_iff_exists.mp (isSome.mpr ⟨rfl, a, mem_cons_self, rfl⟩)
  obtain ⟨healthy, _, perm, kept, agree, member, hopPerm, hopKept⟩ :=
    selection_rendezvous (fun _ => .identity) (serves_shop [a, b] 40000) "shop" [a.ip, b.ip]
  obtain ⟨decision, found⟩ := resolves 40000
  obtain ⟨backend, listed, well, same⟩ := healthy decision found
  have inside : hop [a.ip, b.ip] ∈ [a.ip, b.ip] := member (by simp)
  refine ⟨⟨backend, listed, decision, same, fun port => ?_, ?_⟩, ?_, inside, hopPerm _ (.swap ..), ?_⟩
  · obtain ⟨other, found'⟩ := resolves port
    rw [found', agree _ _ _ (serves_shop [a, b] port) (by decide) (forall_mem_singleton.mpr rfl)
      found found']
  · refine kept _ [backend] _ (rebacked_shop [a, b] [backend]) found ?_
      ⟨backend, by simp, well, same ▸ rfl, same ▸ rfl⟩
    exact forall_mem_singleton.mpr fun _ => listed
  · exact perm _ [b, a] (rebacked_shop [a, b] [b, a]) (.swap b a [])
  · exact hopKept [hop [a.ip, b.ip]] (by simpa using inside) (mem_singleton_self _)

end Netloom.Topology
