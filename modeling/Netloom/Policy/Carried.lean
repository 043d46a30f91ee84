import Netloom.Policy.Expansion
import Netloom.Policy.Compiled

/-!
# The compiled rules of a security-group rule

Ports, selector expansion and compaction together: the rules that a
security-group rule is compiled into carry exactly the flows it matches.
-/
namespace Netloom.Policy

open Netip (Addr Prefix)
open Model List Checked

/-! ### Ports -/

variable {result : Unit}

section

variable {endpoint : Endpoint} (accepted : endpoint.validate = .ok result)

include accepted

/-- The index of an accepted endpoint gives a name the port of that name and protocol. -/
private theorem lookup_namedPortIndex (protocol : Protocol) (name : String)
    (port : BitVec 16) :
    (namedPortIndex protocol endpoint).lookup name = some port ↔
      ∃ named ∈ endpoint.namedPorts, named.protocol = protocol ∧ named.name = name ∧
        named.port = port := by
  -- Of one protocol, an accepted endpoint has no name twice.
  have nodup : ((endpoint.namedPorts.filter (·.protocol = protocol)).map NamedPort.name).Nodup := by
    have keys := Endpoint.namedPorts_of_validate accepted
    refine (keys.of_map.filter _).map_on fun a inA b inB name => ?_
    simp only [mem_filter, decide_eq_true_eq] at inA inB
    exact inj_on_of_nodup_map keys inA.1 inB.1 (by simp [inA.2, inB.2, name])
  have index : namedPortIndex protocol endpoint = Fold.insertAll NamedPort.name NamedPort.port
      (endpoint.namedPorts.filter (·.protocol = protocol)) := by
    simp [namedPortIndex, Fold.insertAll, foldl_filter]
  simp [index, Fold.lookup_insertAll _ _ nodup, and_assoc]

private theorem portRangesContain_resolveNamedPorts
    {ranges ports : List PortRange} {names : List String} {protocol : Protocol} (some : names ≠ [])
    (returned : resolveNamedPorts ranges names protocol endpoint = .ok ports) (port : BitVec 16) :
    ports ≠ [] ∧ (portRangesContain ports port ↔ portRangesContain ranges port ∨
      ∃ named ∈ endpoint.namedPorts, named.protocol = protocol ∧ named.name ∈ names ∧
        named.port = port) := by
  have notEmpty : names.isEmpty = false := by simpa using some
  simp only [resolveNamedPorts, notEmpty, Bool.false_eq_true, if_false, bind_eq_ok,
    pure_eq_ok, mapM_eq_ok] at returned
  obtain ⟨_, _, named, resolved, rfl⟩ := returned
  have members : ∀ range, range ∈ sortPortRanges (ranges ++ named) ↔ range ∈ ranges ++ named :=
    fun range => mem_insertionSort _
  -- Each name contributes the single port the endpoint gives it.
  have single : ∀ first last : BitVec 16, (first ≤ last ∧ last ≤ first) ↔ first = last := fun a b =>
    ⟨fun both => BitVec.le_antisymm both.1 both.2, fun same => same ▸ ⟨BitVec.le_refl _, BitVec.le_refl _⟩⟩
  have hits : (∃ range ∈ named, range.fromPort ≤ port ∧ port ≤ range.toPort) ↔
      ∃ entry ∈ endpoint.namedPorts, entry.protocol = protocol ∧ entry.name ∈ names ∧
        entry.port = port := by
    clear some notEmpty members
    induction resolved with
    | nil => simp
    | @cons name range rest others head tail ih =>
      have here : (range.fromPort ≤ port ∧ port ≤ range.toPort) ↔
          (namedPortIndex protocol endpoint).lookup name = .some port := by
        split at head
        · next found looked =>
          cases head
          rw [looked, Option.some.injEq]
          exact single found port
        · simp at head
      rw [exists_mem_cons_iff, here, ih, lookup_namedPortIndex accepted]
      grind
  constructor
  · intro empty
    have length : names.length = named.length := resolved.length_eq
    have sorted : (sortPortRanges (ranges ++ named)).length = ranges.length + named.length := by
      rw [sortPortRanges, length_insertionSort, length_append]
    have : 0 < names.length := length_pos_iff.mpr some
    rw [empty, length_nil] at sorted
    omega
  · rw [← hits]
    simp [portRangesContain, members, or_and_right, exists_or]

/-- The resolved ports of a rule admit the ports the rule stands for. -/
theorem onPorts_iff_rulePorts {rule : SecurityGroupRule}
    {ports : List PortRange} (returned : rulePorts endpoint rule = .ok ports)
    (ingress : rule.namedPorts = [] ∨ rule.direction = .ingress) (port : BitVec 16) :
    (ports = [] ∨ portRangesContain ports port) ↔ OnPorts endpoint rule port := by
  unfold rulePorts at returned
  split at returned
  · next named =>
    have some : rule.namedPorts ≠ [] := by simpa using named.1
    obtain ⟨notEmpty, contains⟩ := portRangesContain_resolveNamedPorts accepted some
      ((context_eq_ok _ _ _).mp returned) port
    simp [OnPorts, contains, notEmpty, some]
  · next plain =>
    cases returned
    have none : rule.namedPorts = [] := ingress.elim (fun h => h) fun inbound => by
      by_contra some
      exact plain ⟨by simpa using some, inbound⟩
    simp [OnPorts, none]

end

/-! ### One rule -/

/-- A rule with an address-based selector for which the compiler's prefix arithmetic is
exact: no except properly includes an earlier one, in the rule or in the CIDR group it
names, and the subnets are not nested if a world entity is used. -/
structure AddressBased (ctx : CompileContext) (vpc : String) (rule : SecurityGroupRule) : Prop where
  protocol : normalizedProtocol rule.protocol = .any ∨ rule.protocol.hasPorts = true
  noGroup : rule.remoteGroup = ""
  noSelector : hasRemoteEndpointSelector rule = false
  excepts : NoLaterOuter rule.exceptCIDRs
  cidrGroup : rule.remoteCIDRGroup ≠ "" → GroupOrdered ctx vpc rule.remoteCIDRGroup
  world : ∀ entity ∈ rule.remoteEntities, entity ∈ worldEntities → SubnetsUnnested ctx vpc

/-- The compiled rules of one security-group rule: together they carry the flows the rule
matches. -/
structure CompilesTo (ctx : CompileContext) (clock : Time) (endpoint : Endpoint)
    (rule : SecurityGroupRule) (rules : List Rule) : Prop where
  addressed : ∀ compiled ∈ rules, compiled.Addressed
  carried : ∀ flow, Carried rules flow ↔ Matches ctx clock endpoint rule flow

section OneRule

variable {ctx : CompileContext} {clock : Time} {endpoint : Endpoint} {group : SecurityGroup}
  {rule : SecurityGroupRule} {ports : List PortRange} {rules : List Rule}

private theorem ported_normalized {protocol : Protocol} (ported : protocol.hasPorts) :
    (normalizedProtocol protocol).hasPorts := by
  revert ported
  cases protocol <;> simp [Protocol.hasPorts, normalizedProtocol]

/-- The common part of all expansions: rules by prefix that name no endpoint. -/
private theorem compilesTo_compacted
    (noEndpoint : ∀ compiled ∈ rules, compiled.remoteEndpoint = "")
    (valid : ∀ compiled ∈ rules, compiled.remoteCIDR.isValid)
    (protocol : ∀ compiled ∈ rules, normalizedProtocol compiled.protocol = .any ∨
      (normalizedProtocol compiled.protocol).hasPorts)
    (keyed : ∀ a ∈ rules, ∀ b ∈ rules, ruleCompactionKey a = ruleCompactionKey b → SameService a b)
    (carried : ∀ flow, Carried rules flow ↔ Matches ctx clock endpoint rule flow) :
    CompilesTo ctx clock endpoint rule (compactEquivalentCIDRRules rules) := by
  refine ⟨fun compiled member => ?_, fun flow => ?_⟩
  · have stays := valid_of_mem_compactEquivalentCIDRRules valid member
    obtain ⟨origin, found, _, equal⟩ := mem_compactEquivalentCIDRRules member
    refine ⟨?_, .inl stays, ?_⟩ <;> rw [equal]
    · exact noEndpoint origin found
    · exact protocol origin found
  · exact (carried_compactEquivalentCIDRRules keyed valid flow).trans (carried flow)

private theorem exclusive : ∀ a b c d e f g : Bool,
    [a, b, c, d, e, f, g].countP (·) ≤ 1 →
    (g → a = false ∧ d = false ∧ e = false ∧ f = false) ∧
    (f → a = false ∧ d = false ∧ e = false) ∧
    (d → a = false ∧ e = false) ∧ (e → a = false) := by decide

/-- The selectors of an accepted rule exclude one another. -/
private theorem selectors_exclusive (accepted : rule.Accepted) :
    (rule.remoteFQDNs ≠ [] → rule.remoteCIDR.isValid = false ∧ rule.remoteService = "" ∧
      rule.remoteCIDRGroup = "" ∧ rule.remoteEntities = []) ∧
    (rule.remoteEntities ≠ [] → rule.remoteCIDR.isValid = false ∧ rule.remoteService = "" ∧
      rule.remoteCIDRGroup = "") ∧
    (rule.remoteService ≠ "" → rule.remoteCIDR.isValid = false ∧ rule.remoteCIDRGroup = "") ∧
    (rule.remoteCIDRGroup ≠ "" → rule.remoteCIDR.isValid = false) := by
  have only := exclusive _ _ _ _ _ _ _ accepted.onlySelector
  simpa using only

variable (onPorts : ∀ port, (ports = [] ∨ portRangesContain ports port) ↔
  OnPorts endpoint rule port)
include onPorts

private theorem compilesTo_of_expandsTo {denotes : Addr → Prop}
    (ported : normalizedProtocol rule.protocol = .any ∨ rule.protocol.hasPorts)
    (expands : ExpandsTo (baseRule group rule ports) rules denotes)
    (selects : ∀ flow : Flow, Selects ctx clock endpoint rule flow ↔ denotes flow.remote) :
    CompilesTo ctx clock endpoint rule (compactEquivalentCIDRRules rules) := by
  refine compilesTo_compacted (fun compiled member => ?_) expands.valid (fun compiled member => ?_)
    (fun a inA b inB _ => ?_) (fun flow => ?_)
  · rw [expands.relabels compiled member]
    rfl
  · rw [(expands.sameService member).protocol]
    exact ported.imp_right ported_normalized
  · obtain ⟨protocolA, portsA⟩ := expands.sameService inA
    obtain ⟨protocolB, portsB⟩ := expands.sameService inB
    exact ⟨protocolA.trans protocolB.symm, portsA.trans portsB.symm⟩
  · rw [carried_iff_covered (fun compiled member => expands.sameService member) expands.valid,
      expands.covers, ← selects]
    constructor
    · rintro ⟨remote, protocol, inPorts⟩
      exact ⟨protocol, (onPorts flow.port).mp inPorts, remote⟩
    · rintro ⟨protocol, inPorts, remote⟩
      exact ⟨remote, protocol, (onPorts flow.port).mpr inPorts⟩

private theorem compilesTo_of_expandsToFrontends {denotes : Flow → Prop}
    (expands : ExpandsToFrontends (baseRule group rule ports) rules denotes)
    (selects : ∀ flow : Flow, Selects ctx clock endpoint rule flow ↔ denotes flow) :
    CompilesTo ctx clock endpoint rule (compactEquivalentCIDRRules rules) := by
  refine compilesTo_compacted (fun compiled member => ?_) expands.valid (fun compiled member => ?_)
    expands.keyed (fun flow => ?_)
  · obtain ⟨frontend, _, rfl⟩ := expands.frontends compiled member
    rfl
  · obtain ⟨frontend, concrete, rfl⟩ := expands.frontends compiled member
    exact .inr (ported_normalized concrete)
  · rw [expands.carried, ← selects]
    constructor
    · rintro ⟨protocol, inPorts, remote⟩
      exact ⟨protocol, (onPorts flow.port).mp inPorts, remote⟩
    · rintro ⟨protocol, inPorts, remote⟩
      exact ⟨protocol, (onPorts flow.port).mpr inPorts, remote⟩

/-- A rule without anything to expand is compiled as it is. -/
private theorem compilesTo_base
    (ported : normalizedProtocol rule.protocol = .any ∨ rule.protocol.hasPorts)
    (noService : rule.remoteService = "") (noGroup : rule.remoteGroup = "")
    (selects : ∀ flow : Flow, Selects ctx clock endpoint rule flow ↔
      (rule.remoteCIDR.isValid → rule.remoteCIDR.contains flow.remote)) :
    CompilesTo ctx clock endpoint rule [baseRule group rule ports] := by
  refine ⟨fun compiled member => ?_, fun flow => ?_⟩
  · obtain rfl := mem_singleton.mp member
    exact ⟨rfl, .inr ⟨rfl, noService, noGroup⟩, ported.imp_right ported_normalized⟩
  · constructor
    · rintro ⟨compiled, member, remote, protocol, inPorts⟩
      obtain rfl := mem_singleton.mp member
      exact ⟨protocol, (onPorts flow.port).mp inPorts, (selects flow).mpr remote⟩
    · rintro ⟨protocol, inPorts, remote⟩
      exact ⟨_, mem_singleton.mpr rfl, (selects flow).mp remote, protocol,
        (onPorts flow.port).mpr inPorts⟩

omit onPorts in
theorem compilesTo_expandRule {groups : SecurityGroups} {indexes : Indexes} {result : Unit}
    (endpointAccepted : endpoint.validate = .ok result) (accepted : rule.Accepted)
    (based : AddressBased ctx endpoint.vpc rule)
    (built : buildIndexes endpoint groups ctx clock = .ok indexes)
    (returned : expandRule endpoint group rule indexes = .ok rules) :
    CompilesTo ctx clock endpoint rule (compactEquivalentCIDRRules rules) := by
  obtain ⟨protocol, noGroup, noSelector, ordered, groupOrdered, unnested⟩ := based
  simp only [buildIndexes, bind_eq_ok, pure_eq_ok] at built
  obtain ⟨_, _, _, _, dns, dnsOk, cidrGroups, cidrGroupsOk, services, servicesOk, subnets, subnetsOk,
    gateways, gatewaysOk, rfl⟩ := built
  simp only [expandRule, noGroup, noSelector, bind_eq_ok, require_eq_ok] at returned
  obtain ⟨ports, portsOk, _, named, returned⟩ := returned
  have ingress : rule.namedPorts = [] ∨ rule.direction = .ingress := by
    rcases accepted.direction with inbound | outbound
    · exact .inr inbound
    · simp [outbound] at named
      exact .inl named
  have onPorts := onPorts_iff_rulePorts endpointAccepted portsOk ingress
  obtain ⟨fqdnOnly, entitiesOnly, serviceOnly, cidrGroupOnly⟩ := selectors_exclusive accepted
  have noExcepts : rule.remoteCIDR.isValid = false → rule.exceptCIDRs = [] := fun invalid =>
    accepted.exceptsNeedCIDR.resolve_right (by simp [invalid])
  unfold expandSelector at returned
  split at returned
  · next fqdns =>
    have some : rule.remoteFQDNs ≠ [] := by simpa using fqdns
    obtain ⟨cidr, service, cidrGroup, entities⟩ := fqdnOnly some
    cases returned
    refine compilesTo_of_expandsTo onPorts protocol (expandsTo_expandFQDNRule dnsOk) fun flow => ?_
    exact ⟨fun selects => selects.fqdns some, fun denotes => ⟨by simp [cidr], by simp [cidrGroup],
      by simp [service], by simp [entities], fun _ => denotes⟩⟩
  next noFQDNs =>
  have noFQDNs : rule.remoteFQDNs = [] := by simpa using noFQDNs
  split at returned
  · next entities =>
    have some : rule.remoteEntities ≠ [] := by simpa using entities
    obtain ⟨cidr, service, cidrGroup⟩ := entitiesOnly some
    refine compilesTo_of_expandsTo onPorts protocol
      (expandsTo_expandEntityRule subnetsOk gatewaysOk unnested returned) fun flow => ?_
    exact ⟨fun selects => selects.entities some, fun denotes => ⟨by simp [cidr], by simp [cidrGroup],
      by simp [service], fun _ => denotes, by simp [noFQDNs]⟩⟩
  next noEntities =>
  have noEntities : rule.remoteEntities = [] := by simpa using noEntities
  split at returned
  · next some =>
    obtain ⟨cidr, cidrGroup⟩ := serviceOnly some
    refine compilesTo_of_expandsToFrontends onPorts
      (expandsToFrontends_expandServiceRule (indexByName_spec servicesOk) returned) fun flow => ?_
    exact ⟨fun selects => selects.service some, fun denotes => ⟨by simp [cidr], by simp [cidrGroup],
      fun _ => denotes, by simp [noEntities], by simp [noFQDNs]⟩⟩
  next noService =>
  simp only [ne_eq, not_not] at noService
  split at returned
  · next some =>
    have cidr := cidrGroupOnly some
    refine compilesTo_of_expandsTo onPorts protocol
      (expandsTo_expandCIDRGroupRule (indexByName_spec cidrGroupsOk) (groupOrdered some) returned)
      fun flow => ?_
    exact ⟨fun selects => selects.cidrGroup some, fun denotes => ⟨by simp [cidr], fun _ => denotes,
      by simp [noService], by simp [noEntities], by simp [noFQDNs]⟩⟩
  next noCIDRGroup =>
  simp only [ne_eq, not_not] at noCIDRGroup
  split at returned
  · next excepted =>
    cases returned
    refine compilesTo_of_expandsTo onPorts protocol
      (expandsTo_expandCIDRExceptRule excepted.1 accepted.excepts ordered) fun flow => ?_
    exact ⟨fun selects => selects.cidr excepted.1, fun denotes => ⟨fun _ => denotes,
      by simp [noCIDRGroup], by simp [noService], by simp [noEntities], by simp [noFQDNs]⟩⟩
  next plain =>
  simp only [noSelector, Bool.false_eq_true, if_false] at returned
  cases returned
  have none : rule.exceptCIDRs = [] := by
    grind
  refine compilesTo_base onPorts protocol noService noGroup fun flow => ?_
  exact ⟨fun selects valid => (selects.cidr valid).1, fun inside => ⟨fun valid =>
    ⟨inside valid, by simp [none]⟩, by simp [noCIDRGroup], by simp [noService], by simp [noEntities],
    by simp [noFQDNs]⟩⟩

end OneRule

end Netloom.Policy
