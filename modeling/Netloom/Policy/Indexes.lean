import Netloom.Policy.Meaning

/-!
# What the indexes of a compilation hold

Each index of `buildIndexes` is described by its lookups in terms of the lists
of the compile context it was built from.
-/
namespace Netloom.Policy

open Netip (Addr Prefix)
open Model List Checked AList Fold

/-! ### Objects by name -/

section ByName

variable {α β : Type} {validate : α → Except String Unit} {vpcOf nameOf : α → String}
  {value : α → β} {kind vpc : String}

/-- An index by name of the objects of a VPC. -/
structure IndexedByName (validate : α → Except String Unit) (vpcOf nameOf : α → String)
    (value : α → β) (vpc : String) (items : List α) (index : AList (fun _ : String => β)) :
    Prop where
  checked : ∀ item ∈ items, validate item = .ok ()
  complete : ∀ item ∈ items, vpcOf item = vpc → index.lookup (nameOf item) = some (value item)
  sound : ∀ name found, index.lookup name = some found →
    ∃ item ∈ items, vpcOf item = vpc ∧ nameOf item = name ∧ value item = found

variable {index : AList (fun _ : String => β)}

private theorem indexByName_step {done : List α} {item : α} {next : AList (fun _ : String => β)}
    (holds : IndexedByName validate vpcOf nameOf value vpc done index) (stepped : (do
      validate item
      if vpcOf item ≠ vpc then pure index
      else do
        require (nameOf item ∉ index)
          s!"duplicate {kind} {Strings.quote (nameOf item)} in vpc {vpc}"
        pure (index.insert (nameOf item) (value item))) = Except.ok next) :
    IndexedByName validate vpcOf nameOf value vpc (done ++ [item]) next := by
  obtain ⟨checked, complete, sound⟩ := holds
  simp only [bind_eq_ok] at stepped
  obtain ⟨_, valid, stepped⟩ := stepped
  have checked' : ∀ x ∈ done ++ [item], validate x = .ok () := by
    grind
  split at stepped
  · next other =>
    cases stepped
    refine ⟨checked', fun x member here => ?_, fun name found looked => ?_⟩
    · rcases mem_append.mp member with earlier | last
      · exact complete x earlier here
      · exact absurd (mem_singleton.mp last ▸ here) other
    · obtain ⟨x, member, rest⟩ := sound name found looked
      exact ⟨x, mem_append_left _ member, rest⟩
  · next here =>
    simp only [ne_eq, not_not] at here
    simp only [bind_eq_ok, require_eq_ok, decide_eq_true_eq, pure_eq_ok, exists_const] at stepped
    obtain ⟨fresh, rfl⟩ := stepped
    refine ⟨checked', fun x member inVPC => ?_, fun name found looked => ?_⟩
    · rcases mem_append.mp member with earlier | last
      · have known := complete x earlier inVPC
        have apart : nameOf x ≠ nameOf item := by
          intro same
          refine fresh (lookup_isSome.mp ?_)
          rw [← same, known]
          rfl
        rw [lookup_insert_ne apart, known]
      · obtain rfl := mem_singleton.mp last
        exact lookup_insert _
    · by_cases same : name = nameOf item
      · subst same
        rw [lookup_insert] at looked
        exact ⟨item, by simp, here, rfl, Option.some.inj looked⟩
      · rw [lookup_insert_ne same] at looked
        obtain ⟨x, member, rest⟩ := sound name found looked
        exact ⟨x, mem_append_left _ member, rest⟩

theorem indexByName_spec {items : List α}
    (returned : indexByName validate vpcOf nameOf value kind vpc items = .ok index) :
    IndexedByName validate vpcOf nameOf value vpc items index :=
  foldlM_invariant _ (IndexedByName validate vpcOf nameOf value vpc) items ∅ index
    (fun _ _ _ _ _ holds stepped => indexByName_step holds stepped)
    ⟨by simp, by simp, by simp⟩ returned

end ByName

/-! ### Lists by VPC -/

variable {ctx : CompileContext} {index : SubnetIndex}

theorem mem_indexSubnetsByVPC (returned : indexSubnetsByVPC ctx.subnets = .ok index) (vpc : String)
    (cidr : Prefix) :
    cidr ∈ (index.lookup vpc).getD [] ↔ cidr ∈ vpcSubnets ctx vpc := by
  simp only [indexSubnetsByVPC, bind_eq_ok, pure_eq_ok, foldlM_check]
    at returned
  obtain ⟨_, ⟨valid, rfl⟩, rfl⟩ := returned
  rw [getD_lookup_grouped Subnet.vpc _ rfl]
  simp only [mem_sortByString, vpcSubnets, mem_flatMap, mem_map, mem_filter, decide_eq_true_eq,
    mem_singleton]
  refine exists_congr fun subnet => and_congr_right fun found => ?_
  rw [(Subnet.of_validate (valid subnet found.1)).2]
  exact eq_comm

/-- The subnets of an index are masked and valid. -/
theorem masked_of_mem_indexSubnetsByVPC (returned : indexSubnetsByVPC ctx.subnets = .ok index)
    (vpc : String) : ∀ cidr ∈ (index.lookup vpc).getD [], cidr.masked = cidr ∧ cidr.isValid := by
  intro cidr member
  obtain ⟨subnet, found, rfl⟩ := mem_map.mp ((mem_indexSubnetsByVPC returned vpc cidr).mp member)
  simp only [indexSubnetsByVPC, bind_eq_ok, foldlM_check] at returned
  obtain ⟨_, ⟨valid, _⟩, _⟩ := returned
  exact (Subnet.of_validate (valid subnet (mem_of_mem_filter found))).symm

theorem mem_indexGatewayCIDRsByVPC {index : GatewayIndex}
    (returned : indexGatewayCIDRsByVPC ctx.gateways = .ok index) (vpc : String)
    (pair : GatewayCIDR) :
    pair ∈ (index.lookup vpc).getD [] ↔ ∃ gateway ∈ ctx.gateways, gateway.vpc = vpc ∧
      pair = { node := gateway.node, cidr := hostPrefix gateway.lanIP } := by
  simp only [indexGatewayCIDRsByVPC, bind_eq_ok, pure_eq_ok, foldlM_check]
    at returned
  obtain ⟨_, ⟨_, rfl⟩, rfl⟩ := returned
  rw [getD_lookup_grouped Gateway.vpc _ rfl]
  simp [sortGatewayCIDRs, and_assoc]

/-! ### DNS names -/

private theorem keptAddrs_nil (limit : Nat) : keptAddrs limit [] = [] := by
  simp [keptAddrs, sortAddrs, dedupe, dedupeBy]

variable {clock : Time}

section

variable {index : DNSIndex}
  (returned : indexDNSRecords ctx.dnsRecords ctx.now clock ctx.fqdnMaxIPsPerHostname = .ok index)

include returned

theorem lookup_indexDNSRecords
    (name : String) : (index.lookup name).getD [] = liveAddrs ctx clock name := by
  unfold indexDNSRecords at returned
  split at returned
  · next empty =>
    cases returned
    simp [liveAddrs, isEmpty_iff.mp empty, keptAddrs_nil]
  · simp only [bind_eq_ok, pure_eq_ok, foldlM_check] at returned
    obtain ⟨_, ⟨_, rfl⟩, rfl⟩ := returned
    -- Skipping the expired records in the loop is the loop over the others.
    have filtered : ctx.dnsRecords.foldl (fun out record =>
        if record.isExpired (if ctx.now = 0 then clock else ctx.now) then out
        else appendAt out (normalizeDNSName record.name) record.ips) ∅ =
      (ctx.dnsRecords.filter fun record => !record.isExpired (ctx.time clock)).foldl (fun out record =>
        appendAt out (normalizeDNSName record.name) record.ips) ∅ := by
      rw [foldl_filter]
      congr 1
      funext out record
      cases expired : record.isExpired (if ctx.now = 0 then clock else ctx.now) <;>
        simp [CompileContext.time, expired]
    rw [filtered, getD_lookup_grouped _ _ (keptAddrs_nil _), filter_filter, liveAddrs]
    simp only [Bool.and_comm]

theorem valid_of_mem_liveAddrs {name : String} {addr : Addr}
    (member : addr ∈ liveAddrs ctx clock name) : addr.isValid := by
  have source : ∀ limit ips, addr ∈ keptAddrs limit ips → addr ∈ ips := by
    intro limit ips kept
    have sorted : addr ∈ dedupe (sortAddrs ips) := by
      unfold keptAddrs at kept
      simp only at kept
      split at kept
      · exact mem_of_mem_take kept
      · exact kept
    exact (mem_insertionSort _).mp (mem_dedupe.mp sorted)
  obtain ⟨record, found, inRecord⟩ := mem_flatMap.mp (source _ _ member)
  have inRecords := mem_of_mem_filter found
  unfold indexDNSRecords at returned
  split at returned
  · next empty => simp [isEmpty_iff.mp empty] at inRecords
  · simp only [bind_eq_ok, foldlM_check] at returned
    obtain ⟨_, ⟨valid, _⟩, _⟩ := returned
    exact DNSRecord.ips_of_validate (valid record inRecords) addr inRecord

end

/-! ### CIDR groups -/

/-- What is left of a prefix when excepts inside it are cut out. -/
theorem covered_subtractAll {cidr : Prefix} {excepts : List Prefix} (valid : cidr.isValid)
    (inside : ∀ except ∈ excepts, ExceptOf cidr.masked except) (ip : Addr) :
    Covered (subtractAll [cidr.masked] excepts) ip ↔
      cidr.contains ip ∧ ∀ cut, Cuts excepts cut → ¬ cut.contains ip := by
  refine (contains_subtractAll_iff [cidr.masked] excepts (by simp [valid])
    (fun except found => (inside except found).masked) ?_ ip).trans ?_
  · intro base inBases except found
    rw [mem_singleton] at inBases
    exact .inl (inBases ▸ (inside except found).inside)
  · simp [Prefix.contains_masked]

variable {group : CIDRGroup} {result : Unit}

/-- The prefixes of an accepted group cover what the group stands for, if no except
properly includes an earlier one. -/
theorem covered_cidrGroupPrefixes (accepted : group.validate = .ok result)
    (ordered : ∀ entry ∈ group.entries, NoLaterOuter entry.exceptCIDRs) (ip : Addr) :
    Covered (cidrGroupPrefixes group) ip ↔ GroupDenotes group ip := by
  obtain ⟨_, entries⟩ := CIDRGroup.of_validate accepted
  have expanded : ∀ entry ∈ group.entries, Covered (expandCIDRGroupEntry entry) ip ↔
      entry.cidr.contains ip ∧ ∀ except ∈ entry.exceptCIDRs, ¬ except.contains ip := by
    intro entry member
    obtain ⟨valid, masked, excepts⟩ := entries entry member
    rw [← masked] at excepts
    rw [expandCIDRGroupEntry, covered_subtractAll valid excepts]
    simp [cuts_of_noLaterOuter (ordered entry member)]
  have parts : Covered (cidrGroupPrefixes group) ip ↔ Covered group.cidrs ip ∨
      ∃ entry ∈ group.entries, Covered (expandCIDRGroupEntry entry) ip := by
    simp only [Covered, cidrGroupPrefixes, mem_dedupe, mem_sortByString, mem_append, mem_map,
      mem_flatMap]
    constructor
    · rintro ⟨_, ⟨cidr, found, rfl⟩ | ⟨entry, found, piece⟩, inside⟩
      · exact .inl ⟨cidr, found, by rwa [Prefix.contains_masked] at inside⟩
      · exact .inr ⟨entry, found, _, piece, inside⟩
    · rintro (⟨cidr, found, inside⟩ | ⟨entry, found, piece, inPieces, inside⟩)
      · exact ⟨_, .inl ⟨cidr, found, rfl⟩, by rwa [Prefix.contains_masked]⟩
      · exact ⟨piece, .inr ⟨entry, found, inPieces⟩, inside⟩
  rw [parts, GroupDenotes]
  exact or_congr_right (exists_congr fun entry => and_congr_right (expanded entry))

theorem valid_of_mem_cidrGroupPrefixes (accepted : group.validate = .ok result) :
    ∀ cidr ∈ cidrGroupPrefixes group, cidr.isValid := by
  obtain ⟨cidrs, entries⟩ := CIDRGroup.of_validate accepted
  intro cidr member
  simp only [cidrGroupPrefixes, mem_dedupe, mem_sortByString, mem_append, mem_map,
    mem_flatMap] at member
  rcases member with ⟨source, found, rfl⟩ | ⟨entry, found, piece⟩
  · simpa using cidrs source found
  · exact valid_of_mem_subtractAll (by simpa using (entries entry found).1) piece

end Netloom.Policy
