import Netloom.Lib.Cells
import Netloom.Netip.Text
import Netloom.Policy.Compile

/-!
# What a security-group rule stands for

A rule is about flows: a remote address, a protocol with ports and a
destination port. `Matches` says which flows a rule is about in terms of the
desired state alone, without any of the compiler's intermediate lists.
-/
namespace Netloom.Policy

open Netip (Addr Prefix)
open Model List

/-- A tcp, udp or sctp flow with a remote address. -/
structure Flow where
  remote : Addr
  protocol : Protocol
  port : BitVec 16
  valid : remote.isValid = true
  ported : protocol.hasPorts = true

/-! ### Address sets -/

/-- The addresses of a CIDR group: its prefixes, and its entries without their excepts. -/
def GroupDenotes (group : CIDRGroup) (ip : Addr) : Prop :=
  Covered group.cidrs ip ∨ ∃ entry ∈ group.entries, entry.cidr.contains ip = true ∧
    ∀ except ∈ entry.exceptCIDRs, ¬ except.contains ip = true

variable (ctx : CompileContext) (clock : Time) (endpoint : Endpoint) (rule : SecurityGroupRule)

def vpcSubnets (vpc : String) : List Prefix :=
  (ctx.subnets.filter fun subnet => subnet.vpc = vpc).map Subnet.cidr

/-- The addresses outside every subnet of a VPC. -/
def OutsideVPC (vpc : String) (ip : Addr) : Prop :=
  ∀ cidr ∈ vpcSubnets ctx vpc, ¬ cidr.contains ip = true

/-- The address of a gateway of the VPC on a node that is asked for. -/
def GatewayDenotes (vpc : String) (onNode : String → Prop) (ip : Addr) : Prop :=
  ∃ gateway ∈ ctx.gateways, gateway.vpc = vpc ∧ onNode gateway.node ∧
    (hostPrefix gateway.lanIP).contains ip = true

def EntityDenotes (entity : String) (ip : Addr) : Prop :=
  match entity with
  | "all" => Covered allCIDRs ip
  | "world" => Covered allCIDRs ip ∧ OutsideVPC ctx endpoint.vpc ip
  | "world-ipv4" => prefix4All.contains ip = true ∧ OutsideVPC ctx endpoint.vpc ip
  | "world-ipv6" => prefix6All.contains ip = true ∧ OutsideVPC ctx endpoint.vpc ip
  | "host" => GatewayDenotes ctx endpoint.vpc (fun _ => True) ip
  | "remote-node" => GatewayDenotes ctx endpoint.vpc (fun node => node ≠ endpoint.node) ip
  | "private" => Covered privateCIDRs ip
  | "cluster" => Covered (vpcSubnets ctx endpoint.vpc) ip
  | _ => False

/-- The time a compilation runs at. -/
def CompileContext.time : Time :=
  if ctx.now = 0 then clock else ctx.now

/-- The addresses in use for a name: those of its records that have not expired, up to
the limit per name. -/
def liveAddrs (name : String) : List Addr :=
  keptAddrs (effectiveFQDNMaxIPsPerHostname ctx.fqdnMaxIPsPerHostname)
    ((ctx.dnsRecords.filter fun record =>
      !record.isExpired (ctx.time clock) && normalizeDNSName record.name = name).flatMap
      DNSRecord.ips)

def FQDNDenotes (selectors : List FQDNSelector) (ip : Addr) : Prop :=
  ∃ name, fqdnSelectorsMatch selectors name = true ∧
    ∃ addr ∈ liveAddrs ctx clock name, (hostPrefix addr).contains ip = true

/-- A service stands for its frontends: their address, protocol and port. -/
def ServiceDenotes (service : LoadBalancer) (flow : Flow) : Prop :=
  ∃ frontend ∈ service.frontends, (hostPrefix frontend.vip).contains flow.remote = true ∧
    frontend.protocol = flow.protocol ∧ frontend.port = flow.port

/-! ### Rules -/

/-- The remote side of a rule; a rule without selector has no condition here. -/
structure Selects (flow : Flow) : Prop where
  cidr : rule.remoteCIDR.isValid = true → rule.remoteCIDR.contains flow.remote = true ∧
    ∀ except ∈ rule.exceptCIDRs, ¬ except.contains flow.remote = true
  cidrGroup : rule.remoteCIDRGroup ≠ "" → ∃ group ∈ ctx.cidrGroups, group.vpc = endpoint.vpc ∧
    group.name = rule.remoteCIDRGroup ∧ GroupDenotes group flow.remote
  service : rule.remoteService ≠ "" → ∃ service ∈ ctx.services, service.vpc = endpoint.vpc ∧
    service.name = rule.remoteService ∧ ServiceDenotes service flow
  entities : rule.remoteEntities ≠ [] → ∃ entity ∈ rule.remoteEntities,
    EntityDenotes ctx endpoint entity flow.remote
  fqdns : rule.remoteFQDNs ≠ [] → FQDNDenotes ctx clock rule.remoteFQDNs flow.remote

/-- The ports of a rule: its ranges and the ports its endpoint gives its named ports. -/
def OnPorts (port : BitVec 16) : Prop :=
  (rule.ports = [] ∧ rule.namedPorts = []) ∨ portRangesContain rule.ports port = true ∨
    ∃ named ∈ endpoint.namedPorts, named.protocol = rule.protocol ∧
      named.name ∈ rule.namedPorts ∧ named.port = port

/-- The flows a rule is about, whatever their direction. -/
structure Matches (flow : Flow) : Prop where
  protocol : normalizedProtocol rule.protocol = .any ∨ rule.protocol = flow.protocol
  ports : OnPorts endpoint rule flow.port
  remote : Selects ctx clock endpoint rule flow

/-! ### Compiled rules -/

/-- The flows a compiled rule is about. -/
structure Rule.Carries (rule : Rule) (flow : Flow) : Prop where
  remote : rule.remoteCIDR.isValid = true → rule.remoteCIDR.contains flow.remote = true
  protocol : normalizedProtocol rule.protocol = .any ∨ rule.protocol = flow.protocol
  ports : rule.ports = [] ∨ portRangesContain rule.ports flow.port = true

/-- A compiled rule whose remote side is given by addresses alone. -/
structure Rule.Addressed (rule : Rule) : Prop where
  noEndpoint : rule.remoteEndpoint = ""
  byPrefix : rule.remoteCIDR.isValid = true ∨
    (rule.remoteEntity = "" ∧ rule.remoteService = "" ∧ rule.remoteGroup = "")
  protocol : normalizedProtocol rule.protocol = .any ∨
    (normalizedProtocol rule.protocol).hasPorts = true

/-- Some rule of the list is about the flow. -/
def Carried (rules : List Rule) (flow : Flow) : Prop := ∃ rule ∈ rules, rule.Carries flow

/-- Two rules that differ in nothing a flow is tested against but the remote prefix. -/
structure SameService (a b : Rule) : Prop where
  protocol : a.protocol = b.protocol
  ports : a.ports = b.ports

theorem Rule.Carries.congr {a b : Rule} {flow : Flow} (same : SameService a b)
    (cidr : a.remoteCIDR = b.remoteCIDR) (carries : a.Carries flow) : b.Carries flow :=
  ⟨cidr ▸ carries.remote, same.protocol ▸ carries.protocol, same.ports ▸ carries.ports⟩

variable {rules : List Rule}

/-- Rules with valid prefixes that share protocol and ports carry what their prefixes cover. -/
theorem carried_iff_covered {template : Rule} (same : ∀ rule ∈ rules, SameService rule template)
    (valid : ∀ rule ∈ rules, rule.remoteCIDR.isValid) (flow : Flow) :
    Carried rules flow ↔ Covered (rules.map Rule.remoteCIDR) flow.remote ∧
      (normalizedProtocol template.protocol = .any ∨ template.protocol = flow.protocol) ∧
      (template.ports = [] ∨ portRangesContain template.ports flow.port) := by
  constructor
  · rintro ⟨rule, member, remote, protocol, ports⟩
    obtain ⟨sameProtocol, samePorts⟩ := same rule member
    rw [sameProtocol] at protocol
    rw [samePorts] at ports
    exact ⟨⟨_, mem_map_of_mem member, remote (valid rule member)⟩, protocol, ports⟩
  · rintro ⟨⟨cidr, member, inside⟩, protocol, ports⟩
    obtain ⟨rule, inRules, rfl⟩ := mem_map.mp member
    obtain ⟨sameProtocol, samePorts⟩ := same rule inRules
    rw [← sameProtocol] at protocol
    rw [← samePorts] at ports
    exact ⟨rule, inRules, fun _ => inside, protocol, ports⟩

/-! ### Compaction -/

variable {rule : Rule}

/-- A compacted rule is a rule of the group, with a compacted prefix if there are several. -/
theorem mem_compactRuleGroup {group : List Rule} (member : rule ∈ compactRuleGroup group) :
    rule ∈ group ∨ ∃ template ∈ group,
      ∃ cidr ∈ compactCIDRs (group.map fun rule => rule.remoteCIDR.masked),
        rule = setCIDR template cidr := by
  cases group with
  | nil => cases member
  | cons template rest =>
    simp only [compactRuleGroup] at member
    split at member
    · exact .inl member
    · obtain ⟨cidr, found, rfl⟩ := mem_map.mp member
      exact .inr ⟨template, by simp, cidr, found, rfl⟩

/-- Compaction treats the rules of each key on their own. -/
theorem filter_compactEquivalentCIDRRules (rules : List Rule) (key : String) :
    ((compactEquivalentCIDRRules rules).filter fun rule => ruleCompactionKey rule = key) =
      compactRuleGroup (rules.filter fun rule => ruleCompactionKey rule = key) := by
  unfold compactEquivalentCIDRRules
  split
  · next few =>
    have one : (rules.filter fun rule => ruleCompactionKey rule = key).length < 2 :=
      (length_filter_le _ _).trans_lt few
    generalize (rules.filter fun rule => ruleCompactionKey rule = key) = group at one ⊢
    rcases group with _ | ⟨first, _ | _⟩
    · rfl
    · rfl
    · simp at one
  · have owned : ∀ key' ∈ dedupe (rules.map ruleCompactionKey), ∀ rule ∈ compactRuleGroup
        (rules.filter fun rule => ruleCompactionKey rule = key'),
        decide (ruleCompactionKey rule = key) = decide (key' = key) := by
      intro key' _ rule member
      suffices mine : ruleCompactionKey rule = key' by rw [mine]
      obtain found | ⟨template, found, _, _, rfl⟩ := mem_compactRuleGroup member
      · exact of_decide_eq_true (mem_filter.mp found).2
      · exact of_decide_eq_true (mem_filter.mp found).2
    have nodup : (dedupe (rules.map ruleCompactionKey)).Nodup := by
      simpa [dedupe] using
        (Fold.dedupeBy_spec (fun item : String => item) (rules.map ruleCompactionKey)).2.2.1
    rw [Cells.filter_flatMap owned, Cells.filter_key nodup]
    split
    · simp
    · next absent =>
      have none : (rules.filter fun rule => ruleCompactionKey rule = key) = [] := by
        simpa [mem_dedupe] using absent
      rw [none]
      rfl

theorem mem_compactEquivalentCIDRRules_iff : rule ∈ compactEquivalentCIDRRules rules ↔
    rule ∈ compactRuleGroup
      (rules.filter fun other => ruleCompactionKey other = ruleCompactionKey rule) := by
  rw [← filter_compactEquivalentCIDRRules]
  simp

private theorem carried_compactRuleGroup {group : List Rule}
    (same : ∀ a ∈ group, ∀ b ∈ group, SameService a b)
    (valid : ∀ rule ∈ group, rule.remoteCIDR.isValid) (flow : Flow) :
    Carried (compactRuleGroup group) flow ↔ Carried group flow := by
  cases group with
  | nil => rfl
  | cons template rest =>
    simp only [compactRuleGroup]
    split
    · rfl
    have alike : ∀ rule ∈ template :: rest, SameService rule template :=
      fun rule member => same rule member template (by simp)
    -- The compacted rules are copies of the template, one per compacted prefix.
    have copies : ∀ rule ∈ (compactCIDRs ((template :: rest).map fun rule =>
        rule.remoteCIDR.masked)).map (setCIDR template), SameService rule template := by
      intro rule member
      obtain ⟨cidr, _, rfl⟩ := mem_map.mp member
      exact ⟨rfl, rfl⟩
    have copiesValid : ∀ rule ∈ (compactCIDRs ((template :: rest).map fun rule =>
        rule.remoteCIDR.masked)).map (setCIDR template), rule.remoteCIDR.isValid := by
      intro rule member
      obtain ⟨cidr, found, rfl⟩ := mem_map.mp member
      apply compactCIDRs_valid _ _ cidr found
      intro other inside
      obtain ⟨source, inGroup, rfl⟩ := mem_map.mp inside
      simpa using valid source inGroup
    rw [carried_iff_covered alike valid, carried_iff_covered copies copiesValid]
    apply and_congr_left
    intro _
    have whole : (Rule.remoteCIDR ∘ setCIDR template) = fun cidr => cidr := rfl
    rw [map_map, whole, map_id']
    apply (compactCIDRs_covered _ _).trans
    simp [Covered, Prefix.contains_masked]

/-- Compaction changes no flow: rules of one key may differ in their prefixes only. -/
theorem carried_compactEquivalentCIDRRules
    (keyed : ∀ a ∈ rules, ∀ b ∈ rules, ruleCompactionKey a = ruleCompactionKey b → SameService a b)
    (valid : ∀ rule ∈ rules, rule.remoteCIDR.isValid) (flow : Flow) :
    Carried (compactEquivalentCIDRRules rules) flow ↔ Carried rules flow := by
  have grouped : ∀ key, Carried (compactRuleGroup
      (rules.filter fun rule => ruleCompactionKey rule = key)) flow ↔
      Carried (rules.filter fun rule => ruleCompactionKey rule = key) flow := by
    intro key
    refine carried_compactRuleGroup (fun a inA b inB => ?_) (fun rule member => ?_) flow
    · simp only [mem_filter, decide_eq_true_eq] at inA inB
      exact keyed a inA.1 b inB.1 (inA.2.trans inB.2.symm)
    · exact valid rule (mem_of_mem_filter member)
  constructor
  · rintro ⟨rule, member, carries⟩
    obtain ⟨source, found, carries⟩ := (grouped _).mp
      ⟨rule, mem_compactEquivalentCIDRRules_iff.mp member, carries⟩
    exact ⟨source, mem_of_mem_filter found, carries⟩
  · rintro ⟨rule, member, carries⟩
    obtain ⟨image, found, carries⟩ := (grouped (ruleCompactionKey rule)).mpr
      ⟨rule, by simp [member], carries⟩
    rw [← filter_compactEquivalentCIDRRules] at found
    exact ⟨image, mem_of_mem_filter found, carries⟩

/-- A compacted rule is a rule of its key with another prefix. -/
theorem mem_compactEquivalentCIDRRules (member : rule ∈ compactEquivalentCIDRRules rules) :
    ∃ source ∈ rules, ruleCompactionKey source = ruleCompactionKey rule ∧
      rule = setCIDR source rule.remoteCIDR := by
  obtain found | ⟨template, found, cidr, _, same⟩ :=
    mem_compactRuleGroup (mem_compactEquivalentCIDRRules_iff.mp member)
  · exact ⟨rule, mem_of_mem_filter found, rfl, rfl⟩
  · exact ⟨template, mem_of_mem_filter found,
      of_decide_eq_true (mem_filter.mp found).2, by rw [same]; rfl⟩

/-- Compaction of valid prefixes gives valid prefixes. -/
theorem valid_of_mem_compactEquivalentCIDRRules
    (valid : ∀ source ∈ rules, source.remoteCIDR.isValid)
    (member : rule ∈ compactEquivalentCIDRRules rules) : rule.remoteCIDR.isValid := by
  obtain found | ⟨template, _, cidr, found, rfl⟩ :=
    mem_compactRuleGroup (mem_compactEquivalentCIDRRules_iff.mp member)
  · exact valid rule (mem_of_mem_filter found)
  · refine compactCIDRs_valid _ (fun other inside => ?_) cidr found
    obtain ⟨source, inGroup, rfl⟩ := mem_map.mp inside
    simpa using valid source (mem_of_mem_filter inGroup)

end Netloom.Policy
