import Netloom.Control.PolicyConflicts

/-!
# Policy rules of the Linux datapath

The agent projects policy routes to the rules of the kernel's routing policy database. A
route becomes one rule for every pair of a source and a destination port range, with the
address family that its prefixes or next hops show and a number that falls as its priority
grows. A rule does not know the VPC of its route.
-/
namespace Netloom.Linux

open Model Control Checked Netloom.Topology List
open Netip (Addr Prefix)
open Strings (quote)

/-! ### Rules -/

inductive Family where
  | inet | inet6
  deriving DecidableEq, Repr

/-- The part of a rule that the agent sets. -/
structure Rule where
  priority : Int
  table : Int
  family : Family
  protocol : Nat
  src : Option Prefix := none
  dst : Option Prefix := none
  ipProto : Nat := 0
  sport : Option PortRange := none
  dport : Option PortRange := none
  deriving DecidableEq, Repr

def linuxMainRouteTable : Int := 254
def linuxPolicyRuleProtocolID : Nat := 186
def linuxPolicyRouteTableMax : Int := 2 ^ 31 - 1

def ipRuleFamily (ip : Addr) : Family := if ip.is6 then .inet6 else .inet

variable (route : PolicyRoute) (priority : Int)

def policyRouteFamily : Family :=
  if route.match.source.isValid then ipRuleFamily route.match.source.addr
  else if route.match.destination.isValid then ipRuleFamily route.match.destination.addr
  else match route.action.nextHops.find? Addr.isValid with
    | some nextHop => ipRuleFamily nextHop
    | none => .inet

def linuxPolicyRuleProtocolNumber (protocol : Protocol) (family : Family) : Nat :=
  match protocol with
  | .tcp => 6
  | .udp => 17
  | .sctp => 132
  | .icmp => if family = .inet6 then 58 else 1
  | _ => 0

/-- `ipNetFromPrefix`, which fails for an invalid prefix. -/
def ipNetFromPrefix (cidr : Prefix) : Option Prefix := if cidr.isValid then some cidr else none

def netlinkPolicyRule (table : Int) (srcPort dstPort : Option PortRange) : Rule where
  priority
  table
  family := policyRouteFamily route
  protocol := linuxPolicyRuleProtocolID
  src := ipNetFromPrefix route.match.source
  dst := ipNetFromPrefix route.match.destination
  ipProto := linuxPolicyRuleProtocolNumber route.match.protocol (policyRouteFamily route)
  sport := srcPort
  dport := dstPort

/-- The port ranges of the rules; without ranges there is one rule for all ports. -/
def ruleRanges (ports : List PortRange) : List (Option PortRange) :=
  if ports.isEmpty then [none] else ports.map some

def netlinkPolicyRules (table : Int) : List Rule :=
  (ruleRanges route.match.srcPorts).flatMap fun srcPort =>
    (ruleRanges route.match.dstPorts).map fun dstPort =>
      netlinkPolicyRule route priority table srcPort dstPort

def linuxPolicyRulePriority : Int := max 1 (10000 - priority)

/-! ### Tables and applicable routes -/

structure Options where
  node : String
  underlayDevice : String := ""
  policyTableBase : Int
  policyTableSize : Int

def validatePolicyTableRange (base size : Int) : Except String Unit := do
  require (0 < base) s!"policy route table base must be positive, got {base}"
  require (0 < size) s!"policy route table size must be positive, got {size}"
  require (base ≤ linuxPolicyRouteTableMax - size + 1)
    (s!"policy route table range exceeds maximum: base={base} size={size} " ++
      s!"max={linuxPolicyRouteTableMax}")

def policyRouteTableKey : String := route.vpc ++ "\x00" ++ route.name

def policyRouteTableOffset (name : String) (size : Int) : Int :=
  if size ≤ 1 then 0 else (fnv32a name).toNat % size

/-- The first free table from an offset on. -/
def freeTable (used : List Int) (base offset size : Int) : Nat → Int → Option Int
  | 0, _ => none
  | n + 1, probe =>
    let table := base + (offset + probe) % size
    if used.contains table then freeTable used base offset size n (probe + 1) else some table

/-- Routes that let packets through need no table of their own. -/
def allocatePolicyRouteTables (routes : List PolicyRoute) (options : Options) :
    Except String (AList fun _ : String => Int) := do
  validatePolicyTableRange options.policyTableBase options.policyTableSize
  routes.foldlM (fun out route =>
    if route.action.type = .allow then .ok out
    else do
      let key := policyRouteTableKey route
      let used := out.entries.map Sigma.snd
      require (out.lookup key).isNone
        s!"duplicate policy route name {quote route.name} in vpc {quote route.vpc}"
      require (used.length < options.policyTableSize)
        (s!"policy route table range exhausted: base={options.policyTableBase} " ++
          s!"size={options.policyTableSize}")
      match freeTable used options.policyTableBase
        (policyRouteTableOffset key options.policyTableSize) options.policyTableSize
        options.policyTableSize.toNat 0 with
      | none => .ok out
      | some table => .ok (out.insert key table)) ∅

def localVPCSet (endpoints : List Endpoint) (node : String) : List String :=
  (endpoints.filter fun endpoint => endpoint.node = node).map Endpoint.vpc

/-- The order of `sortPolicyRoutes`. -/
def routeBefore (a b : PolicyRoute) : Bool :=
  if a.priority ≠ b.priority then b.priority < a.priority
  else if a.vpc ≠ b.vpc then a.vpc < b.vpc
  else a.name ≤ b.name

def sortPolicyRoutes (routes : List PolicyRoute) : List PolicyRoute :=
  routes.insertionSort fun a b => routeBefore a b

def applicablePolicyRoutes (routes : List PolicyRoute) (localVPCs : List String) :
    Except String (List PolicyRoute) :=
  let known := routes.filter fun route => localVPCs.contains route.vpc
  (fun _ => known) <$> forM known fun route =>
    context (fun err => s!"policy route {route.name}: {err}") route.validate

/-- The rules of the applicable routes, each with its route. -/
def routeRules (tables : AList fun _ : String => Int) (applicable : List PolicyRoute) :
    List (PolicyRoute × Rule) :=
  applicable.flatMap fun route =>
    let table := if route.action.type = .allow then linuxMainRouteTable
      else (tables.lookup (policyRouteTableKey route)).getD 0
    (netlinkPolicyRules route (linuxPolicyRulePriority route.priority) table).map fun rule =>
      (route, rule)

/-- What `applyPolicyRoutesNetlink` makes the managed rules of the kernel; `underlay` is what
the lookup of the device gives. -/
def applyPolicyRoutesNetlink (underlay : Except String Unit) (state : DesiredState)
    (options : Options) : Except String (List (PolicyRoute × Rule)) := do
  let applicable ← applicablePolicyRoutes (sortPolicyRoutes state.policyRoutes)
    (localVPCSet state.endpoints options.node)
  checkIf (applicable.any fun route => route.action.type ≠ .allow)
    (context (fun err => s!"lookup policy route device {options.underlayDevice}: {err}") underlay)
  let tables ← allocatePolicyRouteTables applicable options
  .ok (routeRules tables applicable)

/-! ### Matching -/

/-- The number of a packet's protocol; other protocols are not those of any rule. -/
def packetProtocolNumber (packet : Packet) : Option Nat :=
  match packet.protocol with
  | .tcp | .udp | .sctp | .icmp =>
    some (linuxPolicyRuleProtocolNumber packet.protocol (ipRuleFamily packet.source))
  | _ => none

/-- A packet that can be sent: addresses of one family. -/
def OneFamily (packet : Packet) : Prop :=
  packet.source.isValid = true ∧ packet.dest.isValid = true ∧ packet.source.is4 = packet.dest.is4

def portInRange (range : Option PortRange) (port : BitVec 16) : Bool :=
  range.all fun range => range.fromPort ≤ port && port ≤ range.toPort

/-- How the kernel compares a rule with a packet. -/
def Rule.matches (rule : Rule) (packet : Packet) : Bool :=
  rule.family = ipRuleFamily packet.source &&
    (rule.src.all fun cidr => cidr.contains packet.source) &&
    (rule.dst.all fun cidr => cidr.contains packet.dest) &&
    (rule.ipProto = 0 || packetProtocolNumber packet = some rule.ipProto) &&
    portInRange rule.sport packet.sourcePort && portInRange rule.dport packet.destPort

/-! ### What the rules of a route match -/

theorem mem_ruleRanges {ports : List PortRange} {port : BitVec 16} :
    (∃ range ∈ ruleRanges ports, portInRange range port) ↔
      (ports ≠ [] → Topology.portRangesContain ports port) := by
  unfold ruleRanges
  split
  next none => simp [List.isEmpty_iff.mp none, portInRange]
  next some =>
    rw [List.isEmpty_iff] at some
    simp [some, portInRange, Topology.portRangesContain]

/-- For protocols of valid matches the number decides as the name does. -/
theorem protocolNumber_iff {protocol : Protocol} (valid : protocol = .unset ∨ protocol.isValid)
    (packet : Packet) :
    (linuxPolicyRuleProtocolNumber protocol (ipRuleFamily packet.source) = 0 ∨
      packetProtocolNumber packet =
        some (linuxPolicyRuleProtocolNumber protocol (ipRuleFamily packet.source))) ↔
      protocol = .unset ∨ protocol = .any ∨ protocol = packet.protocol := by
  unfold packetProtocolNumber
  generalize ipRuleFamily packet.source = family
  cases protocol <;> cases packet.protocol <;> cases family <;>
    simp_all [linuxPolicyRuleProtocolNumber, Protocol.isValid]

theorem validProtocol_of_validate {matched : RouteMatch} (valid : matched.validate = .ok ()) :
    matched.protocol = .unset ∨ matched.protocol.isValid := by
  simp only [RouteMatch.validate, bind_eq_ok, require_eq_ok] at valid
  obtain ⟨_, supported, _⟩ := valid
  split at supported
  next unset => exact .inl unset
  next => exact .inr supported

theorem all_ipNetFromPrefix {cidr : Prefix} {ip : Addr} :
    ((ipNetFromPrefix cidr).all fun cidr => cidr.contains ip) ↔
      (cidr.isValid → cidr.contains ip) := by
  unfold ipNetFromPrefix
  split
  next valid => simp [valid]
  next invalid => simp [invalid]

variable {route : PolicyRoute}

/-- A rule of a valid route matches the packets of its family that the route matches. -/
theorem rules_match_iff (valid : route.validate = .ok ()) (priority table : Int) (packet : Packet) :
    (∃ rule ∈ netlinkPolicyRules route priority table, rule.matches packet) ↔
      policyRouteFamily route = ipRuleFamily packet.source ∧
        routeMatch route.match packet := by
  have supported := validProtocol_of_validate (validMatch valid)
  have expand : (∃ rule ∈ netlinkPolicyRules route priority table, rule.matches packet) ↔
      ∃ srcPort ∈ ruleRanges route.match.srcPorts, ∃ dstPort ∈ ruleRanges route.match.dstPorts,
        (netlinkPolicyRule route priority table srcPort dstPort).matches packet := by
    simp [netlinkPolicyRules]
  rw [expand, routeMatch_iff]
  by_cases family : policyRouteFamily route = ipRuleFamily packet.source
  · simp only [Rule.matches, netlinkPolicyRule, family, decide_true, Bool.true_and,
      Bool.and_eq_true, Bool.or_eq_true, decide_eq_true_eq, all_ipNetFromPrefix,
      protocolNumber_iff supported, ← mem_ruleRanges, true_and]
    grind
  · simp [Rule.matches, netlinkPolicyRule, family]

/-- The next hops of a valid route are valid. -/
theorem valid_nextHops (valid : route.validate = .ok ()) :
    ∀ nextHop ∈ route.action.nextHops, nextHop.isValid := by
  intro nextHop member
  simp only [PolicyRoute.validate, bind_eq_ok, require_eq_ok] at valid
  obtain ⟨_, _, _, _, _, _, _, _, _, _, _, _, _, only, _, _, hops⟩ := valid
  by_cases reroute : route.action.type = .reroute
  · simp only [reroute, decide_true, checkIf_eq_ok, forall_const] at hops
    obtain ⟨n, found⟩ := getElem?_of_mem member
    have checked := (of_distinctFrom hops).1 n nextHop found
    simp only [bind_eq_ok, require_eq_ok] at checked
    exact checked.1.choose_spec.1
  · simp only [reroute, ne_eq, not_false_eq_true, decide_true, Bool.true_and, Bool.not_eq_true',
      Bool.not_eq_false'] at only
    simp [isEmpty_iff.mp (by simpa using only)] at member

theorem ipRuleFamily_eq_iff {a b : Addr} : ipRuleFamily a = ipRuleFamily b ↔ a.is6 = b.is6 := by
  unfold ipRuleFamily
  cases a.is6 <;> cases b.is6 <;> simp

/-- The family of a valid route: that of its source, its destination or its next hops. -/
theorem policyRouteFamily_eq_iff (valid : route.validate = .ok ()) {ip : Addr} :
    policyRouteFamily route = ipRuleFamily ip ↔
      if route.match.source.isValid then route.match.source.addr.is6 = ip.is6
      else if route.match.destination.isValid then route.match.destination.addr.is6 = ip.is6
      else (route.action.nextHops.head?.map Addr.is6).getD false = ip.is6 := by
  unfold policyRouteFamily
  split
  next => exact ipRuleFamily_eq_iff
  next =>
    split
    next => exact ipRuleFamily_eq_iff
    next =>
      -- all next hops of a valid route are valid, so the first one shows the family
      cases hops : route.action.nextHops with
      | nil => exact @ipRuleFamily_eq_iff (.v4 0) ip
      | cons first rest =>
        rw [find?_cons_of_pos (valid_nextHops valid first (by simp [hops]))]
        exact ipRuleFamily_eq_iff

/-- The rules of the applicable routes, each in the table of its route. -/
theorem mem_routeRules {tables : AList fun _ : String => Int} {applicable : List PolicyRoute}
    {entry : PolicyRoute × Rule} :
    entry ∈ routeRules tables applicable ↔ entry.1 ∈ applicable ∧
      entry.2 ∈ netlinkPolicyRules entry.1 (linuxPolicyRulePriority entry.1.priority)
        (if entry.1.action.type = .allow then linuxMainRouteTable
          else (tables.lookup (policyRouteTableKey entry.1)).getD 0) := by
  cases entry
  simp [routeRules]

/-! ### Tables

A route that does not simply let packets through gets a routing table of its own. The search for
one starts where a hash of the route's key points and wraps around the range. -/

open AList

variable {used : List Int} {base offset size : Int}

theorem freeTable_eq (n : Nat) (probe : Int) : freeTable used base offset size n probe =
    ((range n).map fun i : Nat => base + (offset + (probe + i)) % size).find?
      fun table => !used.contains table := by
  induction n generalizing probe with
  | zero => rfl
  | succ n ih =>
    have shift : ((fun i : Nat => base + (offset + (probe + i)) % size) ∘ Nat.succ) =
        fun i : Nat => base + (offset + (probe + 1 + i)) % size := by
      funext i
      simp [Int.add_assoc, Int.add_comm 1]
    rw [freeTable, ih, range_succ_eq_map, map_cons, map_map, shift, find?_cons]
    cases taken : used.contains (base + (offset + probe) % size) <;> simp_all

/-- The probes of one round hit different tables, so a round over a range with fewer used tables
than it holds finds a free one. -/
theorem exists_freeTable (room : used.length < size) :
    ∃ table, freeTable used base offset size size.toNat 0 = some table ∧ table ∉ used ∧
      base ≤ table ∧ table < base + size := by
  rw [freeTable_eq]
  cases found : find? _ _ with
  | some table =>
    obtain ⟨i, _, rfl⟩ := mem_map.mp (mem_of_find?_eq_some found)
    have low := Int.emod_nonneg (offset + (0 + i)) (by omega : size ≠ 0)
    have high := Int.emod_lt_of_pos (offset + (0 + i)) (by omega : 0 < size)
    exact ⟨_, rfl, by simpa using find?_some found, by omega, by omega⟩
  | none =>
    have distinct : ((range size.toNat).map fun i : Nat =>
        base + (offset + (0 + i)) % size).Nodup := by
      refine nodup_range.map_on fun i early j early' equal => ?_
      rw [mem_range] at early early'
      have same : (0 + i : Int) % size = (0 + j) % size :=
        Int.ModEq.add_left_cancel' offset (Int.add_left_cancel equal)
      rw [Int.emod_eq_of_lt (by omega) (by omega), Int.emod_eq_of_lt (by omega) (by omega)] at same
      omega
    have fits := (distinct.subperm fun table member => by
      simpa using find?_eq_none.mp found table member).length_le
    rw [length_map, length_range] at fits
    omega

def needsTable (route : PolicyRoute) : Bool := route.action.type ≠ .allow

variable {options : Options} {out tables : AList fun _ : String => Int}
  {routes done : List PolicyRoute}

/-- The routes that need a table have one of the range, and no two have the same. -/
structure Allocated (options : Options) (routes : List PolicyRoute)
    (out : AList fun _ : String => Int) : Prop where
  keys : out.keys.Perm ((routes.filter needsTable).map policyRouteTableKey)
  inside : ∀ table ∈ out.entries.map Sigma.snd, options.policyTableBase ≤ table ∧
    table < options.policyTableBase + options.policyTableSize
  distinct : (out.entries.map Sigma.snd).Nodup

/-- What the loop over the routes returns; a second route with the same key ends it. -/
theorem allocated_of_returned (returned : allocatePolicyRouteTables routes options = .ok tables) :
    Allocated options routes tables := by
  simp only [allocatePolicyRouteTables, bind_eq_ok] at returned
  obtain ⟨_, _, returned⟩ := returned
  refine foldlM_invariant _ (Allocated options) routes ∅ tables ?_
    ⟨.refl _, by simp, nodup_nil⟩ returned
  intro done route out out' _ allocated stepped
  split at stepped
  next allow =>
    cases stepped
    exact ⟨by simpa [needsTable, allow] using allocated.keys, allocated.inside, allocated.distinct⟩
  next needs =>
    simp only [bind_eq_ok, require_eq_ok, Option.isNone_iff_eq_none, lookup_eq_none,
      decide_eq_true_eq] at stepped
    obtain ⟨_, fresh, _, room, given⟩ := stepped
    obtain ⟨table, found, free, inside⟩ := exists_freeTable room
    rw [found] at given
    cases given
    have listed : needsTable route := by simpa [needsTable] using needs
    constructor
    · rw [keys_insert, erase_of_not_mem fresh, filter_append, filter_singleton, listed, map_append]
      exact (allocated.keys.cons _).trans (perm_append_singleton _ _).symm
    · rw [entries_insert_of_notMem fresh]
      exact forall_mem_cons.mpr ⟨inside, allocated.inside⟩
    · rw [entries_insert_of_notMem fresh]
      exact nodup_cons.mpr ⟨free, allocated.distinct⟩

/-- The allocation gives each route that needs one a table of the range, no two the same, or there
are more such routes than tables. -/
theorem allocatePolicyRouteTables_injective (routes : List PolicyRoute) (options : Options)
    (distinct : (routes.map policyRouteTableKey).Nodup)
    (valid : validatePolicyTableRange options.policyTableBase options.policyTableSize = .ok ()) :
    match allocatePolicyRouteTables routes options with
    | .error _ => options.policyTableSize < routes.countP needsTable
    | .ok tables =>
      (∀ route ∈ routes, needsTable route → ∃ table,
        tables.lookup (policyRouteTableKey route) = some table ∧
        options.policyTableBase ≤ table ∧
        table < options.policyTableBase + options.policyTableSize) ∧
      routes.Pairwise fun a b => needsTable a → needsTable b →
        tables.lookup (policyRouteTableKey a) ≠ tables.lookup (policyRouteTableKey b) := by
  cases returned : allocatePolicyRouteTables routes options with
  | ok tables =>
    have allocated := allocated_of_returned returned
    have found : ∀ route ∈ routes, needsTable route →
        ∃ table, tables.lookup (policyRouteTableKey route) = some table := by
      intro route member needs
      exact Option.isSome_iff_exists.mp (lookup_isSome.mpr
        (allocated.keys.mem_iff.mpr (mem_map_of_mem (mem_filter.mpr ⟨member, needs⟩))))
    constructor
    · intro route member needs
      obtain ⟨table, held⟩ := found route member needs
      exact ⟨table, held, allocated.inside table (mem_map_of_mem (mem_lookup_iff.mp held))⟩
    · refine (pairwise_map.mp distinct).imp_of_mem fun {a b} member _ apart needs _ same => ?_
      obtain ⟨table, held⟩ := found a member needs
      have held' : table ∈ tables.lookup (policyRouteTableKey b) := same ▸ held
      exact apart (congrArg Sigma.fst (inj_on_of_nodup_map allocated.distinct
        (mem_lookup_iff.mp held) (mem_lookup_iff.mp held') rfl))
  | error err =>
    simp only [allocatePolicyRouteTables, valid] at returned
    obtain ⟨done, route, out, early, before, failed⟩ := exists_of_foldlM_error returned
    have allocated : Allocated options done out :=
      allocated_of_returned (by rw [allocatePolicyRouteTables, valid]; exact before)
    split at failed
    next => cases failed
    next needs =>
      -- the key is new, so the step failed for want of a table
      have fresh : policyRouteTableKey route ∉ out.keys := by
        intro member
        obtain ⟨other, earlier, same⟩ := mem_map.mp (allocated.keys.mem_iff.mp member)
        have apart := (early.sublist.map policyRouteTableKey).nodup distinct
        rw [map_append, nodup_append] at apart
        exact apart.2.2 _ (mem_map_of_mem (mem_of_mem_filter earlier)) _ (by simp) same
      have count : countP needsTable _ ≤ _ := early.sublist.countP_le
      rw [countP_append, countP_singleton, if_pos (by simpa [needsTable] using needs),
        countP_eq_length_filter, ← length_map policyRouteTableKey, ← allocated.keys.length_eq,
        AList.keys, List.keys, length_map] at count
      by_contra few
      have room : (out.entries.map Sigma.snd).length < options.policyTableSize := by
        rw [length_map]
        omega
      obtain ⟨table, found, _⟩ := exists_freeTable room
      rw [lookup_eq_none.mpr fresh, decide_eq_true room, found] at failed
      cases failed

def dropRoute (name : String) : PolicyRoute := ⟨name, "red", 100, {}, ⟨.drop, []⟩⟩

/-- Two routes that need a table get the two tables there are. -/
theorem allocatePolicyRouteTables_two :
    (allocatePolicyRouteTables [dropRoute "a", dropRoute "b"] ⟨"n1", "", 100, 2⟩).isOk := by
  have run := allocatePolicyRouteTables_injective [dropRoute "a", dropRoute "b"]
    ⟨"n1", "", 100, 2⟩ (by decide) rfl
  split at run
  next => exact absurd run (by decide)
  next returned => rw [returned, Except.isOk, Except.toBool]

/-! ### Synchronising the rules of the kernel -/

open Fold

def Family.number : Family → Nat
  | inet => 2
  | inet6 => 10

/-- `IPNet.String`, which writes a mapped address as the IPv4 address. -/
def ipNetString : Prefix → String
  | .v6 block =>
    if Netip.is4In6 block.addr then
      (Addr.v4 (block.addr.extractLsb' 0 32)).string ++ s!"/{block.bits - 96}"
    else (Prefix.v6 block).string
  | cidr => cidr.string

def portsText (range : PortRange) : String := s!"{range.fromPort.toNat}-{range.toPort.toNat}"

def policyRuleKey (rule : Rule) : String :=
  "|".intercalate ([s!"priority={rule.priority}", s!"table={rule.table}",
      s!"family={rule.family.number}", s!"protocol={rule.protocol}", s!"ipproto={rule.ipProto}"] ++
    (rule.src.map fun cidr => "src=" ++ ipNetString cidr).toList ++
    (rule.dst.map fun cidr => "dst=" ++ ipNetString cidr).toList ++
    (rule.dport.map fun range => "dport=" ++ portsText range).toList ++
    (rule.sport.map fun range => "sport=" ++ portsText range).toList)

def managedPolicyTable (table : Int) (options : Options) : Bool :=
  match validatePolicyTableRange options.policyTableBase options.policyTableSize with
  | .error _ => false
  | .ok () => options.policyTableBase ≤ table &&
      table < options.policyTableBase + options.policyTableSize

def managedPolicyRule (rule : Rule) (options : Options) : Bool :=
  managedPolicyTable rule.table options || rule.protocol = linuxPolicyRuleProtocolID

/-- A rule as the kernel lists it, with what the agent leaves at its default. -/
structure KernelRule (ρ : Type) extends Rule where
  other : ρ
  deriving DecidableEq

variable {ρ : Type}

def KernelRule.key (rule : KernelRule ρ) : String := policyRuleKey rule.toRule

def KernelRule.managed (options : Options) (rule : KernelRule ρ) : Bool :=
  managedPolicyRule rule.toRule options

structure ManagedPolicyRuleSyncPlan (ρ : Type) where
  add : List (KernelRule ρ)
  delete : List (KernelRule ρ)

def sortPolicyRuleSyncPlan (plan : ManagedPolicyRuleSyncPlan ρ) : ManagedPolicyRuleSyncPlan ρ where
  add := plan.add.insertionSort fun a b => a.key ≤ b.key
  delete := plan.delete.insertionSort fun a b => a.key ≤ b.key

variable (order : Ranging.Order.{0}) (existing desired : List (KernelRule ρ)) (options : Options)

def planManagedPolicyRuleSync : ManagedPolicyRuleSyncPlan ρ :=
  let desiredSet := insertAll KernelRule.key id desired
  let (kept, delete) := (existing.filter (KernelRule.managed options)).partition fun rule =>
    (desiredSet.lookup rule.key).isSome
  let existingSet := kept.map KernelRule.key
  sortPolicyRuleSyncPlan
    { add := ((order.arrange desiredSet.entries).filter fun entry => entry.1 ∉ existingSet).map
        Sigma.snd
      delete }

/-- Each deletion removes exactly the given rule. -/
def ManagedPolicyRuleSyncPlan.apply [DecidableEq ρ] (plan : ManagedPolicyRuleSyncPlan ρ) :
    List (KernelRule ρ) :=
  existing.diff plan.delete ++ plan.add

/-- The rules of some routes, each with its priority and its table. -/
def desiredRules (unset : ρ) (routes : List (PolicyRoute × Int × Int)) : List (KernelRule ρ) :=
  routes.flatMap fun (route, priority, table) =>
    (netlinkPolicyRules route priority table).map fun rule => ⟨rule, unset⟩

/-- Removing the chosen items of a list leaves the others. -/
theorem diff_perm {α : Type} [DecidableEq α] {items chosen : List α} {choose : α → Bool}
    (perm : chosen.Perm (items.filter choose)) :
    (items.diff chosen).Perm (items.filter fun item => !choose item) := by
  refine perm_iff_count.mpr fun item => ?_
  rw [count_diff, perm.count_eq]
  cases chosen : choose item with
  | true => rw [count_filter chosen, Nat.sub_self, count_eq_zero_of_not_mem (by simp [chosen])]
  | false =>
    have none : count item (items.filter choose) = 0 := count_eq_zero_of_not_mem (by simp [chosen])
    rw [none, Nat.sub_zero, count_filter (by simp [chosen])]

variable {existing desired options} {rule : KernelRule ρ}

theorem isSome_lookup {key : String} : ((insertAll KernelRule.key id desired).lookup key).isSome ↔
    ∃ rule ∈ desired, rule.key = key := by
  simp [lookup_insertAll_eq]

open Classical in
/-- The managed rules without a wanted key are deleted. -/
theorem delete_perm : (planManagedPolicyRuleSync order existing desired options).delete.Perm
    (existing.filter fun rule => rule.managed options ∧ ¬∃ wanted ∈ desired, wanted.key = rule.key) := by
  simp only [planManagedPolicyRuleSync, partition_eq_filter_filter, filter_filter]
  refine (perm_insertionSort _ _).trans (.of_eq (filter_congr fun rule _ => ?_))
  rw [Bool.eq_iff_iff, decide_eq_true_eq, ← isSome_lookup]
  simp [and_comm]

/-- The rule that was wanted last under a key is added if no managed rule has the key. -/
theorem mem_add : rule ∈ (planManagedPolicyRuleSync order existing desired options).add ↔
    (insertAll KernelRule.key id desired).lookup rule.key = some rule ∧
      ∀ held ∈ existing, held.managed options → held.key ≠ rule.key := by
  have member : ∀ entry : Sigma fun _ : String => KernelRule ρ,
      entry ∈ order.arrange (insertAll KernelRule.key id desired).entries ↔
        (insertAll KernelRule.key id desired).lookup entry.1 = some entry.2 := fun entry =>
    (order.perm _).mem_iff.trans AList.mem_lookup_iff.symm
  simp only [planManagedPolicyRuleSync, sortPolicyRuleSyncPlan, partition_eq_filter_filter,
    mem_insertionSort, mem_map, mem_filter, member, decide_eq_true_eq]
  constructor
  · rintro ⟨⟨key, wanted⟩, ⟨found, new⟩, rfl⟩
    obtain ⟨_, _, rfl, rfl⟩ := of_lookup_insertAll _ _ found
    refine ⟨found, fun held inside managed same => new ⟨held, ⟨⟨inside, managed⟩, ?_⟩, same⟩⟩
    exact same ▸ Option.isSome_iff_exists.mpr ⟨_, found⟩
  · rintro ⟨found, new⟩
    refine ⟨⟨rule.key, rule⟩, ⟨found, ?_⟩, rfl⟩
    rintro ⟨held, ⟨⟨inside, managed⟩, _⟩, same⟩
    exact new held inside managed same

variable [DecidableEq ρ] (existing options)

/-- A plan makes the keys of the managed rules those of the desired rules, leaves the other rules
in place, deletes no rule with a desired key, and makes the next plan empty. -/
theorem planManagedPolicyRuleSync_converges (order order' : Ranging.Order.{0}) (unset : ρ)
    (routes : List (PolicyRoute × Int × Int)) :
    let desired := desiredRules unset routes
    let plan := planManagedPolicyRuleSync order existing desired options
    let result := plan.apply existing
    (∀ key, (∃ rule ∈ result, rule.managed options ∧ rule.key = key) ↔
      ∃ rule ∈ desired, rule.key = key) ∧
    (result.filter fun rule => !rule.managed options).Perm
      (existing.filter fun rule => !rule.managed options) ∧
    (∀ rule ∈ plan.delete, ∀ wanted ∈ desired, wanted.key ≠ rule.key) ∧
    planManagedPolicyRuleSync order' result desired options = ⟨[], []⟩ := by
  intro desired plan result
  have managed : ∀ rule ∈ desired, rule.managed options := by
    intro rule member
    simp only [desired, desiredRules, netlinkPolicyRules, mem_flatMap, mem_map] at member
    obtain ⟨_, _, _, ⟨_, _, _, _, rfl⟩, rfl⟩ := member
    simp [KernelRule.managed, managedPolicyRule, netlinkPolicyRule]
  have split : result.Perm (_ ++ plan.add) := (diff_perm (delete_perm order)).append_right _
  have wanted : ∀ rule ∈ plan.add, rule ∈ desired := by
    intro rule added
    obtain ⟨_, inside, _, rfl⟩ := of_lookup_insertAll _ _ ((mem_add order).mp added).1
    exact inside
  have keys : ∀ key, (∃ rule ∈ result, rule.managed options ∧ rule.key = key) ↔
      ∃ rule ∈ desired, rule.key = key := by
    intro key
    constructor
    · grind
    · intro some
      obtain ⟨rule, found⟩ := Option.isSome_iff_exists.mp (isSome_lookup.mpr some)
      obtain ⟨rule, inside, rfl, rfl⟩ := of_lookup_insertAll _ _ found
      -- a managed rule has the key already, or the plan adds the one that was wanted last
      by_cases held : ∃ old ∈ existing, old.managed options ∧ old.key = rule.key
      · grind
      · simp only [not_exists, not_and] at held
        exact ⟨rule, split.mem_iff.mpr (mem_append_right _ ((mem_add order).mpr ⟨found, held⟩)),
          managed rule inside, rfl⟩
  refine ⟨keys, ?_, fun rule deleted wanted inside same => ?_, congrArg₂ ManagedPolicyRuleSyncPlan.mk
    (eq_nil_iff_forall_not_mem.mpr fun rule added => ?_)
    (eq_nil_iff_forall_not_mem.mpr fun rule deleted => ?_)⟩
  · refine (split.filter _).trans (.of_eq ?_)
    have others : plan.add.filter (fun rule => !rule.managed options) = [] :=
      filter_eq_nil_iff.mpr fun rule added => by simp [managed rule (wanted rule added)]
    rw [filter_append, others, append_nil, filter_filter]
    refine filter_congr fun rule _ => ?_
    cases mine : rule.managed options <;> simp
  · have gone := (mem_filter.mp ((delete_perm order).mem_iff.mp deleted)).2
    exact (of_decide_eq_true gone).2 ⟨wanted, inside, same⟩
  · obtain ⟨found, new⟩ := (mem_add order').mp added
    obtain ⟨old, inside, mine, same⟩ := (keys rule.key).mpr (isSome_lookup.mp (by simp [found]))
    exact new old inside mine same
  · obtain ⟨inside, gone⟩ := mem_filter.mp ((delete_perm order').mem_iff.mp deleted)
    obtain ⟨mine, unwanted⟩ := of_decide_eq_true gone
    exact unwanted ((keys rule.key).mp ⟨rule, inside, mine, rfl⟩)

end Netloom.Linux
