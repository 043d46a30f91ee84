import Netloom.Policy.Indexes

/-!
# Expansion keeps the meaning of a rule

The rules a security-group rule is expanded into carry exactly the flows the
rule matches.
-/
namespace Netloom.Policy

open Netip (Addr Prefix prefixFrom)
open Model List Checked Fold Text

theorem hostPrefix_isValid {ip : Addr} (valid : ip.isValid) : (hostPrefix ip).isValid := by
  cases ip with
  | zero => simp [Addr.isValid] at valid
  | v4 word => rfl
  | v6 word zone => rfl

/-! ### Prefix selectors -/

/-- Rules that vary the remote prefix and its labels and cover a set of addresses. -/
structure ExpandsTo (base : Rule) (rules : List Rule) (denotes : Addr → Prop) : Prop where
  relabels : ∀ rule ∈ rules, rule = { base with
    remoteCIDR := rule.remoteCIDR
    remoteEntity := rule.remoteEntity
    remoteFQDN := rule.remoteFQDN }
  valid : ∀ rule ∈ rules, rule.remoteCIDR.isValid = true
  covers : ∀ ip, Covered (rules.map Rule.remoteCIDR) ip ↔ denotes ip

variable {base rule : Rule} {rules : List Rule} {denotes : Addr → Prop}

theorem ExpandsTo.sameService (expands : ExpandsTo base rules denotes) (member : rule ∈ rules) :
    SameService rule base := by
  have equal := expands.relabels rule member
  exact ⟨by rw [equal], by rw [equal]⟩

variable {cidrs : List Prefix}

private theorem expandsTo_setCIDR (valid : ∀ cidr ∈ cidrs, cidr.isValid)
    (covers : ∀ ip, Covered cidrs ip ↔ denotes ip) :
    ExpandsTo base (cidrs.map (setCIDR base)) denotes := by
  refine ⟨fun rule member => ?_, fun rule member => ?_, fun ip => ?_⟩
  · obtain ⟨cidr, _, rfl⟩ := mem_map.mp member
    rfl
  · obtain ⟨cidr, found, rfl⟩ := mem_map.mp member
    exact valid cidr found
  · have whole : Rule.remoteCIDR ∘ setCIDR base = fun cidr => cidr := rfl
    rw [map_map, whole, map_id', covers]

theorem expandsTo_expandCIDRExceptRule {excepts : List Prefix}
    (valid : base.remoteCIDR.isValid)
    (inside : ∀ except ∈ excepts, ExceptOf base.remoteCIDR.masked except)
    (ordered : NoLaterOuter excepts) :
    ExpandsTo base (expandCIDRExceptRule base excepts) fun ip =>
      base.remoteCIDR.contains ip ∧ ∀ except ∈ excepts, ¬ except.contains ip := by
  refine expandsTo_setCIDR (fun cidr member => ?_) (fun ip => ?_)
  · exact valid_of_mem_subtractAll (by simpa using valid) (mem_sortByString.mp member)
  · refine (covered_congr (fun cidr => mem_sortByString) ip).trans ?_
    rw [covered_subtractAll valid inside]
    simp [cuts_of_noLaterOuter ordered]

/-- The slips of the prefix arithmetic do not arise in a CIDR group a rule may name. -/
def GroupOrdered (ctx : CompileContext) (vpc name : String) : Prop :=
  ∀ group ∈ ctx.cidrGroups, group.vpc = vpc → group.name = name →
    ∀ entry ∈ group.entries, NoLaterOuter entry.exceptCIDRs

variable {ctx : CompileContext} {vpc : String}

theorem expandsTo_expandCIDRGroupRule {index : AList (fun _ : String => List Prefix)}
    (indexed : IndexedByName CIDRGroup.validate CIDRGroup.vpc CIDRGroup.name cidrGroupPrefixes vpc
      ctx.cidrGroups index) (ordered : GroupOrdered ctx vpc base.remoteCIDRGroup)
    (returned : expandCIDRGroupRule base index = .ok rules) :
    ExpandsTo base rules fun ip => ∃ group ∈ ctx.cidrGroups, group.vpc = vpc ∧
      group.name = base.remoteCIDRGroup ∧ GroupDenotes group ip := by
  unfold expandCIDRGroupRule at returned
  split at returned
  · simp at returned
  next cidrs looked =>
  cases returned
  obtain ⟨group, member, here, name, rfl⟩ := indexed.sound _ _ looked
  have accepted := indexed.checked group member
  refine expandsTo_setCIDR (valid_of_mem_cidrGroupPrefixes accepted) (fun ip => ?_)
  refine (covered_cidrGroupPrefixes accepted (ordered group member here name) ip).trans ?_
  constructor
  · exact fun denotes => ⟨group, member, here, name, denotes⟩
  · rintro ⟨other, inGroups, otherHere, otherName, denotes⟩
    -- Names are unique, so the other group has the same prefixes.
    have same := indexed.complete other inGroups otherHere
    rw [otherName, looked, Option.some.injEq] at same
    have otherAccepted := indexed.checked other inGroups
    have covered := (covered_cidrGroupPrefixes otherAccepted
      (ordered other inGroups otherHere otherName) ip).mpr denotes
    exact (covered_cidrGroupPrefixes accepted (ordered group member here name) ip).mp (same ▸ covered)

/-! ### Entities -/

/-- No subnet of the VPC is a proper part of another. -/
def SubnetsUnnested (ctx : CompileContext) (vpc : String) : Prop :=
  ∀ a ∈ vpcSubnets ctx vpc, ∀ b ∈ vpcSubnets ctx vpc,
    prefixContainsPrefix b a = true → prefixContainsPrefix a b = true

private theorem apart_of_family {a b : Prefix} (differ : a.addr.is4 ≠ b.addr.is4) :
    prefixContainsPrefix a b = false := by
  have : (a.addr.is4 == b.addr.is4) = false := by simpa using differ
  simp [prefixContainsPrefix, Model.prefixContainsPrefix, this]

/-- Leaving prefixes of the other family alone is what subtraction does anyway. -/
theorem worldLoop_eq (cluster cidrs : List Prefix)
    (fixed : ∀ cidr ∈ cidrs, cidr.masked = cidr ∧ cidr.isValid) :
    cluster.foldl (fun cidrs clusterCIDR => cidrs.flatMap fun cidr =>
      if cidr.addr.is4 != clusterCIDR.masked.addr.is4 then [cidr]
      else subtractPrefix cidr clusterCIDR.masked) cidrs = subtractAll cidrs cluster := by
  unfold subtractAll
  induction cluster generalizing cidrs with
  | nil => rfl
  | cons except rest ih =>
    have step : (cidrs.flatMap fun cidr => if cidr.addr.is4 != except.masked.addr.is4 then [cidr]
        else subtractPrefix cidr except.masked) =
        cidrs.flatMap fun cidr => subtractPrefix cidr except.masked := by
      refine flatMap_congr fun cidr member => ?_
      split
      · next differ =>
        have masked := (fixed cidr member).1
        rw [subtractPrefix_apart, masked]
        rw [masked, Prefix.masked_masked]
        exact apart_of_family (by simpa using differ)
      · rfl
    rw [foldl_cons, foldl_cons, step]
    refine ih _ fun piece member => ?_
    obtain ⟨cidr, inCidrs, inPieces⟩ := mem_flatMap.mp member
    obtain ⟨masked, valid⟩ := fixed cidr inCidrs
    have left := remainder_subtractPrefix cidr except.masked_masked
    exact ⟨left.masked piece inPieces, valid_of_prefixContainsPrefix (left.inside valid piece inPieces)⟩

variable {all : Prefix}

/-- The prefix of all addresses of a family includes every prefix of that family. -/
theorem all_covers {except : Prefix} (isAll : all = prefix4All ∨ all = prefix6All) :
    prefixContainsPrefix all except ∨ Apart all except := by
  have zero : all.bits = 0 := by rcases isAll with rfl | rfl <;> rfl
  rcases family_cases all except with ⟨version, a, b, rfl, rfl⟩ | ⟨_, apart⟩
  · have none : a.bits = 0 := by simpa using zero
    rw [prefixContainsPrefix_cidr, Cidr.covers_iff_agree, none]
    exact .inl ⟨Nat.zero_le _, fun i below => absurd below (by omega)⟩
  · exact .inr apart

theorem fixed_of_all (isAll : all = prefix4All ∨ all = prefix6All) :
    all.masked = all ∧ all.isValid := by
  rcases isAll with rfl | rfl <;> decide

variable {initial : List Prefix}

/-- What is left of the families when the subnets of a VPC are cut out. -/
theorem covered_world {cluster : List Prefix}
    (isAll : ∀ all ∈ initial, all = prefix4All ∨ all = prefix6All)
    (ordered : NoLaterOuter (cluster.map Prefix.masked)) (ip : Addr) :
    Covered (sortByString (subtractAll initial cluster)) ip ↔
      Covered initial ip ∧ ∀ subnet ∈ cluster, ¬ subnet.contains ip := by
  have masked : subtractAll initial cluster = subtractAll initial (cluster.map Prefix.masked) := by
    simp [subtractAll, foldl_map]
  refine (covered_congr (fun cidr => mem_sortByString) ip).trans ?_
  rw [masked]
  refine (contains_subtractAll_iff initial _ (fun all member => fixed_of_all (isAll all member))
    (by simp) (fun all member except _ => all_covers (isAll all member)) ip).trans ?_
  simp [cuts_of_noLaterOuter ordered, Covered, Prefix.contains_masked]

private theorem worldCIDRs_spec {index : SubnetIndex}
    (indexed : indexSubnetsByVPC ctx.subnets = .ok index) (unnested : SubnetsUnnested ctx vpc)
    (isAll : ∀ all ∈ initial, all = prefix4All ∨ all = prefix6All)
    (returned : worldCIDRs vpc index initial = .ok cidrs) :
    (∀ cidr ∈ cidrs, cidr.isValid) ∧
      ∀ ip, Covered cidrs ip ↔ Covered initial ip ∧ OutsideVPC ctx vpc ip := by
  have members := mem_indexSubnetsByVPC indexed vpc
  have masked := masked_of_mem_indexSubnetsByVPC indexed vpc
  have fixed := fun all member => fixed_of_all (isAll all member)
  unfold worldCIDRs at returned
  simp only at returned
  generalize (index.lookup vpc).getD [] = cluster at returned members masked
  split at returned
  · simp at returned
  cases returned
  rw [worldLoop_eq cluster initial fixed]
  refine ⟨fun cidr member => ?_, fun ip => (covered_world isAll ?_ ip).trans ?_⟩
  · exact valid_of_mem_subtractAll (fun all found => (fixed all found).2) (mem_sortByString.mp member)
  · rw [map_congr_left fun cidr found => (masked cidr found).1, map_id']
    refine pairwise_of_forall_mem_list fun a inA b inB => ?_
    exact unnested a ((members a).mp inA) b ((members b).mp inB)
  · simp [OutsideVPC, ← members]

private theorem gatewayCIDRs_spec {index : GatewayIndex}
    (indexed : indexGatewayCIDRsByVPC ctx.gateways = .ok index) (keep : GatewayCIDR → Bool)
    (onNode : String → Prop) (kept : ∀ pair, keep pair ↔ onNode pair.node) :
    (∀ cidr ∈ gatewayCIDRs ((index.lookup vpc).getD []) keep, cidr.isValid) ∧
      ∀ ip, Covered (gatewayCIDRs ((index.lookup vpc).getD []) keep) ip ↔
        GatewayDenotes ctx vpc onNode ip := by
  have members : ∀ cidr, cidr ∈ gatewayCIDRs ((index.lookup vpc).getD []) keep ↔
      ∃ gateway ∈ ctx.gateways, gateway.vpc = vpc ∧ onNode gateway.node ∧
        hostPrefix gateway.lanIP = cidr := by
    intro cidr
    simp only [gatewayCIDRs, mem_sortByString, mem_map, mem_filter,
      mem_indexGatewayCIDRsByVPC indexed, kept]
    grind
  have accepted : ∀ gateway ∈ ctx.gateways, gateway.validate = .ok () := by
    simp only [indexGatewayCIDRsByVPC, bind_eq_ok, foldlM_check] at indexed
    obtain ⟨_, ⟨valid, _⟩, _⟩ := indexed
    exact valid
  refine ⟨fun cidr member => ?_, fun ip => ?_⟩
  · obtain ⟨gateway, found, _, _, rfl⟩ := (members cidr).mp member
    exact hostPrefix_isValid (Gateway.lanIP_of_validate (accepted gateway found))
  · simp only [Covered, members, GatewayDenotes]
    grind

def worldEntities : List String := ["world", "world-ipv4", "world-ipv6"]

variable {endpoint : Endpoint} {subnets : SubnetIndex} {gateways : GatewayIndex}

theorem entityCIDRs_spec {entity : String}
    (indexedSubnets : indexSubnetsByVPC ctx.subnets = .ok subnets)
    (indexedGateways : indexGatewayCIDRsByVPC ctx.gateways = .ok gateways)
    (unnested : entity ∈ worldEntities → SubnetsUnnested ctx endpoint.vpc)
    (returned : entityCIDRs entity endpoint subnets gateways = .ok cidrs) :
    (∀ cidr ∈ cidrs, cidr.isValid) ∧
      ∀ ip, Covered cidrs ip ↔ EntityDenotes ctx endpoint entity ip := by
  unfold entityCIDRs at returned
  unfold EntityDenotes
  simp only at returned
  split at returned
  · cases returned
    exact ⟨by decide, fun ip => Iff.rfl⟩
  · exact worldCIDRs_spec indexedSubnets (unnested (by decide)) (by simp [allCIDRs]) returned
  · have spec := worldCIDRs_spec indexedSubnets (unnested (by decide)) (by simp) returned
    simpa [Covered] using spec
  · have spec := worldCIDRs_spec indexedSubnets (unnested (by decide)) (by simp) returned
    simpa [Covered] using spec
  · simp only [bind_eq_ok, pure_eq_ok] at returned
    obtain ⟨_, _, rfl⟩ := returned
    exact gatewayCIDRs_spec indexedGateways _ (fun _ => True) (by simp)
  · simp only [bind_eq_ok, pure_eq_ok] at returned
    obtain ⟨_, _, rfl⟩ := returned
    exact gatewayCIDRs_spec indexedGateways _ (fun node => node ≠ endpoint.node) (by simp)
  · cases returned
    exact ⟨by decide, fun ip => Iff.rfl⟩
  · simp only [bind_eq_ok, pure_eq_ok] at returned
    obtain ⟨_, _, rfl⟩ := returned
    refine ⟨fun cidr member => ?_, fun ip => ?_⟩
    · exact (masked_of_mem_indexSubnetsByVPC indexedSubnets _ cidr (mem_sortByString.mp member)).2
    · refine covered_congr (fun cidr => ?_) ip
      rw [mem_sortByString, mem_indexSubnetsByVPC indexedSubnets]
  · cases returned
    exact ⟨by simp, fun ip => by simp [Covered]⟩
  · simp at returned

/-! ### Labelled prefixes -/

private theorem snd_eq_of_labelledKey {a b : String × Prefix}
    (same : labelledKey a = labelledKey b) : a.2 = b.2 := by
  have lists := congrArg String.toList same
  simp only [labelledKey, String.toList_append, Prefix.string, String.toList_ofList,
    append_assoc] at lists
  have bar : "|".toList = ['|'] := by decide
  rw [bar, singleton_append, singleton_append] at lists
  exact Netip.Prefix.text_injective (cut_injective_right (Netip.Prefix.bar_notMem_text a.2)
    (Netip.Prefix.bar_notMem_text b.2) lists).2

/-- The sorted labelled prefixes without duplicates cover what they covered before. -/
private theorem expandsTo_labelled {pairs : List (String × Prefix)} (label : String × Prefix → Rule)
    (relabels : ∀ pair, label pair = { base with
      remoteCIDR := pair.2
      remoteEntity := (label pair).remoteEntity
      remoteFQDN := (label pair).remoteFQDN }) (valid : ∀ pair ∈ pairs, pair.2.isValid)
    (covers : ∀ ip, Covered (pairs.map Prod.snd) ip ↔ denotes ip) :
    ExpandsTo base ((sortLabelled (dedupeBy labelledKey pairs)).map label) denotes := by
  obtain ⟨sound, complete, _⟩ := dedupeBy_spec labelledKey pairs
  have sorted : ∀ pair, pair ∈ sortLabelled (dedupeBy labelledKey pairs) ↔
      pair ∈ dedupeBy labelledKey pairs := fun pair => mem_insertionSort _
  have remote : ∀ pair, (label pair).remoteCIDR = pair.2 := fun pair => by rw [relabels pair]
  refine ⟨fun rule member => ?_, fun rule member => ?_, fun ip => ?_⟩
  · obtain ⟨pair, _, rfl⟩ := mem_map.mp member
    rw [remote pair]
    exact relabels pair
  · grind
  · rw [← covers]
    refine covered_congr (fun cidr => ?_) ip
    simp only [mem_map, sorted, exists_exists_and_eq_and, remote]
    constructor
    · rintro ⟨pair, found, rfl⟩
      exact ⟨pair, sound pair found, rfl⟩
    · rintro ⟨pair, found, rfl⟩
      obtain ⟨kept, inKept, same⟩ := complete pair found
      exact ⟨kept, inKept, snd_eq_of_labelledKey same⟩

theorem expandsTo_expandEntityRule {entities : List String}
    (indexedSubnets : indexSubnetsByVPC ctx.subnets = .ok subnets)
    (indexedGateways : indexGatewayCIDRsByVPC ctx.gateways = .ok gateways)
    (unnested : ∀ entity ∈ entities, entity ∈ worldEntities → SubnetsUnnested ctx endpoint.vpc)
    (returned : expandEntityRule base endpoint entities subnets gateways = .ok rules) :
    ExpandsTo base rules fun ip => ∃ entity ∈ entities, EntityDenotes ctx endpoint entity ip := by
  simp only [expandEntityRule, bind_eq_ok, pure_eq_ok, context_eq_ok, mapM_eq_ok] at returned
  obtain ⟨pairs, expanded, rfl⟩ := returned
  -- Each entity contributes its own prefixes, which are described one at a time.
  have spec : (∀ pair ∈ pairs.flatten, pair.2.isValid) ∧
      ∀ ip, Covered (pairs.flatten.map Prod.snd) ip ↔
        ∃ entity ∈ entities, EntityDenotes ctx endpoint entity ip := by
    induction expanded with
    | nil => simp [Covered]
    | @cons entity first rest others head tail ih =>
      obtain ⟨cidrs, cidrsOk, rfl⟩ := head
      obtain ⟨valid, covers⟩ := entityCIDRs_spec indexedSubnets indexedGateways
        (unnested entity (by simp)) cidrsOk
      obtain ⟨validRest, coversRest⟩ := ih fun other member => unnested other (by simp [member])
      constructor
      · grind
      · intro ip
        rw [exists_mem_cons_iff, ← covers, ← coversRest]
        simp [Covered, or_and_right, exists_or]
  exact expandsTo_labelled (fun pair => { base with remoteEntity := pair.1, remoteCIDR := pair.2 })
    (fun _ => rfl) spec.1 spec.2

theorem expandsTo_expandFQDNRule {clock : Time} {selectors : List FQDNSelector} {index : DNSIndex}
    (indexed : indexDNSRecords ctx.dnsRecords ctx.now clock ctx.fqdnMaxIPsPerHostname = .ok index) :
    ExpandsTo base (expandFQDNRule base selectors index) (FQDNDenotes ctx clock selectors) := by
  have found : ∀ pair, pair ∈ (index.entries.flatMap fun record =>
        if fqdnSelectorsMatch selectors record.1
        then record.2.map fun ip => (record.1, hostPrefix ip) else []) ↔
      ∃ name, fqdnSelectorsMatch selectors name ∧
        ∃ addr ∈ liveAddrs ctx clock name, (name, hostPrefix addr) = pair := by
    intro pair
    simp only [← lookup_indexDNSRecords indexed, mem_flatMap]
    constructor
    · rintro ⟨⟨name, addrs⟩, inIndex, inPairs⟩
      have looked : index.lookup name = some addrs := AList.mem_lookup_iff.mpr inIndex
      obtain ⟨selected, inPairs⟩ := (mem_ite_nil_right ..).mp inPairs
      exact ⟨name, selected, by simpa [looked] using inPairs⟩
    · rintro ⟨name, selected, addr, inAddrs, rfl⟩
      cases looked : index.lookup name with
      | none => simp [looked] at inAddrs
      | some addrs =>
        rw [looked, Option.getD_some] at inAddrs
        refine ⟨⟨name, addrs⟩, AList.mem_lookup_iff.mp looked, ?_⟩
        simpa [selected] using ⟨addr, inAddrs, rfl⟩
  refine expandsTo_labelled (fun pair => { base with remoteFQDN := pair.1, remoteCIDR := pair.2 })
    (fun _ => rfl) ?_ fun ip => ?_
  · intro pair member
    obtain ⟨name, _, addr, live, rfl⟩ := (found pair).mp member
    exact hostPrefix_isValid (valid_of_mem_liveAddrs indexed live)
  · simp only [Covered, mem_map, found, FQDNDenotes]
    grind

/-! ### Services -/

/-- The name of a protocol with ports is free of the separators used in keys. -/
private theorem notMem_text_of_hasPorts {protocol : Protocol} (ported : protocol.hasPorts) :
    '|' ∉ protocol.text.toList ∧ '\x00' ∉ protocol.text.toList := by
  cases protocol <;> simp_all [Protocol.hasPorts, Protocol.text]

private def portText (port : BitVec 16) : List Char :=
  Netip.decimal port.toNat ++ '-' :: Netip.decimal port.toNat

private theorem portRangesKey_single (port : BitVec 16) :
    (portRangesKey [{ fromPort := port, toPort := port }]).toList = portText port := by
  simp [portRangesKey, portText, Netip.decimal, toString]

private theorem notMem_portText (port : BitVec 16) (c : Char) (noDash : c ≠ '-')
    (noDigit : ∀ digit, Nat.digitChar digit ≠ c) : c ∉ portText port := by
  have text := Netip.notMem_decimal port.toNat c noDigit
  simp [portText, text, noDash]

private theorem portText_injective {a b : BitVec 16} (same : portText a = portText b) : a = b := by
  have noDash : ∀ n, '-' ∉ Netip.decimal n := fun n =>
    Netip.notMem_decimal n '-' fun _ => Nat.digitChar_ne '-' (by decide)
  exact BitVec.eq_of_toNat_eq
    (Netip.decimal_injective (cut_injective (noDash _) (noDash _) same).1)

/-- The rule for one frontend of a service. -/
def frontendRule (base : Rule) (frontend : LoadBalancerFrontend) : Rule :=
  { base with
    remoteCIDR := hostPrefix frontend.vip
    protocol := frontend.protocol
    ports := [{ fromPort := frontend.port, toPort := frontend.port }] }

/-- The frontends a rule admits by its own protocol and ports. -/
def AdmitsFrontend (base : Rule) (frontend : LoadBalancerFrontend) : Prop :=
  (normalizedProtocol base.protocol = .any ∨ base.protocol = frontend.protocol) ∧
    (base.ports = [] ∨ portRangesContain base.ports frontend.port = true)

section Frontends

variable {frontend left right : LoadBalancerFrontend}

private theorem serviceFrontendRule_eq_some : serviceFrontendRule base frontend = some rule ↔
    AdmitsFrontend base frontend ∧ frontendRule base frontend = rule := by
  have any : normalizedProtocol base.protocol = .any ↔
      base.protocol = .unset ∨ base.protocol = .any := by
    cases base.protocol <;> simp [normalizedProtocol]
  rw [serviceFrontendRule, AdmitsFrontend, any, Option.ite_none_left_eq_some,
    Option.ite_none_left_eq_some, Option.some.injEq, ← and_assoc]
  have admitted : (¬ (base.protocol ≠ .unset ∧ base.protocol ≠ .any ∧
      base.protocol ≠ frontend.protocol) ∧
      ¬ (!base.ports.isEmpty ∧ ¬ portRangesContain base.ports frontend.port)) ↔
      ((base.protocol = .unset ∨ base.protocol = .any) ∨ base.protocol = frontend.protocol) ∧
        (base.ports = [] ∨ portRangesContain base.ports frontend.port) := by
    rw [Bool.not_eq_true', ← Bool.not_eq_true, List.isEmpty_iff]
    tauto
  rw [admitted]
  refine and_congr_right fun admits => ?_
  -- A rule with a protocol of its own admits no other.
  have protocol : (if base.protocol = .unset ∨ base.protocol = .any then frontend.protocol
      else base.protocol) = frontend.protocol := by
    split
    · rfl
    · next concrete => exact admits.1.resolve_left concrete
  rw [protocol, frontendRule]

private theorem carries_frontendRule (ported : frontend.protocol.hasPorts)
    (valid : frontend.vip.isValid) (flow : Flow) : (frontendRule base frontend).Carries flow ↔
      (hostPrefix frontend.vip).contains flow.remote ∧
        frontend.protocol = flow.protocol ∧ frontend.port = flow.port := by
  have notAny : normalizedProtocol frontend.protocol ≠ .any := by
    cases h : frontend.protocol <;> simp_all [Protocol.hasPorts, normalizedProtocol]
  have single : portRangesContain (frontendRule base frontend).ports flow.port ↔
      frontend.port = flow.port := by
    simp only [frontendRule, portRangesContain, any_cons, any_nil, Bool.or_false, Bool.and_eq_true,
      decide_eq_true_eq]
    exact ⟨fun both => BitVec.le_antisymm both.1 both.2,
      fun same => same ▸ ⟨BitVec.le_refl _, BitVec.le_refl _⟩⟩
  constructor
  · rintro ⟨remote, protocol, ports⟩
    exact ⟨remote (hostPrefix_isValid valid), protocol.resolve_left notAny,
      single.mp (ports.resolve_left (by simp [frontendRule]))⟩
  · rintro ⟨inside, protocol, port⟩
    exact ⟨fun _ => inside, .inr protocol, .inr (single.mpr port)⟩

variable (portedA : left.protocol.hasPorts) (portedB : right.protocol.hasPorts)
include portedA portedB

private theorem sameService_of_texts
    (protocol : left.protocol.text.toList = right.protocol.text.toList)
    (port : portText left.port = portText right.port) :
    SameService (frontendRule base left) (frontendRule base right) := by
  have same := String.toList_injective protocol
  refine ⟨?_, by simp [frontendRule, portText_injective port]⟩
  simp only [frontendRule]
  cases a : left.protocol <;> cases b : right.protocol <;> simp_all [Protocol.hasPorts, Protocol.text]

private theorem alike_of_serviceRuleKey
    (same : serviceRuleKey (frontendRule base left) = serviceRuleKey (frontendRule base right)) :
    hostPrefix left.vip = hostPrefix right.vip ∧
      SameService (frontendRule base left) (frontendRule base right) := by
  have bar : "|".toList = ['|'] := by decide
  have lists := congrArg String.toList same
  simp only [serviceRuleKey, frontendRule, String.toList_append, Prefix.string,
    String.toList_ofList, append_assoc, bar, singleton_append, portRangesKey_single] at lists
  obtain ⟨cidr, lists⟩ := cut_injective (Netip.Prefix.bar_notMem_text _)
    (Netip.Prefix.bar_notMem_text _) lists
  obtain ⟨protocol, port⟩ := cut_injective (notMem_text_of_hasPorts portedA).1
    (notMem_text_of_hasPorts portedB).1 lists
  exact ⟨Netip.Prefix.text_injective cidr, sameService_of_texts portedA portedB protocol port⟩

/-- The compaction key of a frontend's rule determines its protocol and port: the parts
before them are those of the common base. -/
private theorem sameService_of_ruleCompactionKey (same : ruleCompactionKey (frontendRule base left) =
      ruleCompactionKey (frontendRule base right)) :
    SameService (frontendRule base left) (frontendRule base right) := by
  have zero : "\x00".toList = ['\x00'] := by decide
  have noZero : ∀ port, '\x00' ∉ portText port := fun port =>
    notMem_portText port '\x00' (by decide) fun _ => Nat.digitChar_ne '\x00' (by decide)
  have lists := congrArg String.toList same
  simp only [ruleCompactionKey, frontendRule, String.toList_intercalate, map_cons, map_nil,
    intercalate_cons_cons, intercalate_singleton, zero, append_assoc,
    singleton_append, append_cancel_left_eq, cons.injEq, true_and, portRangesKey_single] at lists
  obtain ⟨protocol, lists⟩ := cut_injective (notMem_text_of_hasPorts portedA).2
    (notMem_text_of_hasPorts portedB).2 lists
  simp only [append_cancel_left_eq, cons.injEq, true_and] at lists
  exact sameService_of_texts portedA portedB protocol (cut_injective (noZero _) (noZero _) lists).1

end Frontends

/-- The rules for the frontends of a service, and the flows they carry. -/
structure ExpandsToFrontends (base : Rule) (rules : List Rule) (denotes : Flow → Prop) : Prop where
  frontends : ∀ rule ∈ rules, ∃ frontend, frontend.protocol.hasPorts = true ∧
    frontendRule base frontend = rule
  valid : ∀ rule ∈ rules, rule.remoteCIDR.isValid = true
  carried : ∀ flow, Carried rules flow ↔
    (normalizedProtocol base.protocol = .any ∨ base.protocol = flow.protocol) ∧
      (base.ports = [] ∨ portRangesContain base.ports flow.port = true) ∧ denotes flow

theorem ExpandsToFrontends.keyed {denotes : Flow → Prop}
    (expands : ExpandsToFrontends base rules denotes) :
    ∀ a ∈ rules, ∀ b ∈ rules, ruleCompactionKey a = ruleCompactionKey b → SameService a b := by
  intro a inA b inB same
  obtain ⟨left, portedA, rfl⟩ := expands.frontends a inA
  obtain ⟨right, portedB, rfl⟩ := expands.frontends b inB
  exact sameService_of_ruleCompactionKey portedA portedB same

theorem expandsToFrontends_expandServiceRule {index : AList (fun _ : String => LoadBalancer)}
    (indexed : IndexedByName LoadBalancer.validate LoadBalancer.vpc LoadBalancer.name
      (fun service => service) vpc ctx.services index)
    (returned : expandServiceRule base index = .ok rules) :
    ExpandsToFrontends base rules fun flow => ∃ service ∈ ctx.services, service.vpc = vpc ∧
      service.name = base.remoteService ∧ ServiceDenotes service flow := by
  unfold expandServiceRule at returned
  split at returned
  · simp at returned
  next _ looked =>
  simp only [bind_eq_ok, pure_eq_ok] at returned
  obtain ⟨_, _, rfl⟩ := returned
  obtain ⟨service, member, here, name, rfl⟩ := indexed.sound _ _ looked
  obtain ⟨valid, ported⟩ := LoadBalancer.of_validate (indexed.checked service member)
  obtain ⟨sound, complete, _⟩ :=
    dedupeBy_spec serviceRuleKey (service.frontends.filterMap (serviceFrontendRule base))
  simp only [mem_filterMap, serviceFrontendRule_eq_some] at sound complete
  have vip : ∀ frontend ∈ service.frontends, frontend.vip.isValid := fun frontend found => by
    rwa [LoadBalancer.vip_of_mem_frontends found]
  refine ⟨fun rule kept => ?_, fun rule kept => ?_, fun flow => ?_⟩
  · obtain ⟨frontend, found, _, is⟩ := sound rule kept
    exact ⟨frontend, ported frontend found, is⟩
  · obtain ⟨frontend, found, _, rfl⟩ := sound rule kept
    exact hostPrefix_isValid (vip frontend found)
  constructor
  · rintro ⟨rule, kept, carries⟩
    obtain ⟨frontend, found, ⟨protocol, ports⟩, rfl⟩ := sound rule kept
    have denotes := (carries_frontendRule (ported frontend found) (vip frontend found) flow).mp carries
    rw [denotes.2.1] at protocol
    rw [denotes.2.2] at ports
    exact ⟨protocol, ports, service, member, here, name, frontend, found, denotes⟩
  · rintro ⟨protocol, ports, other, inServices, otherHere, otherName, frontend, found, denotes⟩
    have same := indexed.complete other inServices otherHere
    rw [otherName, looked, Option.some.injEq] at same
    subst same
    rw [← denotes.2.1] at protocol
    rw [← denotes.2.2] at ports
    obtain ⟨kept, inKept, sameKey⟩ := complete _ ⟨frontend, found, ⟨protocol, ports⟩, rfl⟩
    obtain ⟨other, foundOther, _, rfl⟩ := sound kept inKept
    obtain ⟨cidr, alike⟩ := alike_of_serviceRuleKey (ported frontend found)
      (ported other foundOther) sameKey.symm
    exact ⟨_, inKept, ((carries_frontendRule (ported frontend found) (vip frontend found) flow).mpr
      denotes).congr alike cidr⟩

end Netloom.Policy
