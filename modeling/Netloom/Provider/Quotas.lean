import Netloom.Lib.Tally
import Netloom.Model.Provider
import Netloom.Control.Separation

/-!
# Quotas of tenants

The controller and the Linux datapath count the objects of a tenant on a provider network
in two implementations: the controller runs through the map of subnets it has built, the
datapath through the list of the state, and each keeps sets of the provider networks of a
tenant. Counts are sums, so that they agree whatever the order of the loops over maps.
-/
namespace Netloom.Provider

open Model Control Checked List AList Fold
open Ranging (Order)
open Strings (quote)
open Tally (addAll)

/-- The parts of a desired state that are about provider networks. -/
structure ProviderState where
  networks : List ProviderNetwork := []
  identityGroups : List IdentityGroup := []
  /-- The other objects. -/
  objects : DesiredState := {}

/-- The state as the checks of the other objects see it. -/
def ProviderState.desired (state : ProviderState) : DesiredState :=
  { state.objects with providerNetworks := state.networks.map ProviderNetwork.name }

def identityGroupKey : String → String → String := objectKey

/-- The check of a provider network in `validateObjectGraph`. -/
def validateProviderNetwork (state : ProviderState) (seen : List ProviderNetwork)
    (providerNetwork : ProviderNetwork) : Except String Unit := do
  providerNetwork.validate
  require (!seen.any fun old => old.name = providerNetwork.name)
    s!"duplicate provider network name {quote providerNetwork.name}"
  forM providerNetwork.tenantQueues fun queue => do
    require (knownVPC state.objects.vpcs queue.tenant)
      (s!"provider network {quote providerNetwork.name} tenant queue references unknown " ++
        s!"tenant vpc {quote queue.tenant}")
    forM queue.identityGroups fun groupName =>
      require (state.identityGroups.any fun group =>
          identityGroupKey group.vpc group.name = identityGroupKey queue.tenant groupName)
        (s!"provider network {quote providerNetwork.name} tenant queue references unknown " ++
          s!"identity group {quote groupName} in vpc {quote queue.tenant}")

/-- The loops of `validateObjectGraph` over provider networks and subnets. -/
def validateNetworksAndSubnets (state : ProviderState) : Except String Unit := do
  growing (validateProviderNetwork state) [] state.networks
  growing (validateSubnet state.desired) [] state.objects.subnets

/-! ### Counting -/

/-- What a tenant has on a provider network. -/
abbrev Counts := Resource → Nat

/-- Objects of a tenant on a provider network, by provider network and tenant. A map of maps
is a map on pairs. -/
abbrev Usage := AList fun _ : String × String => Counts

/-- Amounts that are added for a tenant on a provider network. -/
abbrev Events := List ((String × String) × Counts)

def amount (resource : Resource) (n : Nat) : Counts := Pi.single resource n

/-- The orders in which the loops run through maps; a loop in a loop has an order each time. -/
structure Orders where
  subnets : Order := Order.identity
  natRules : Nat → Order := fun _ => Order.identity
  policyRoutes : Nat → Order := fun _ => Order.identity
  securityGroups : Nat → Order := fun _ => Order.identity
  results : Order := Order.identity

/-- The provider networks of each tenant, a set for each. -/
abbrev TenantProviders := AList fun _ : String => AList fun _ : String => Unit

def tenantProviders (subnets : List Subnet) : TenantProviders :=
  subnets.foldl (fun map subnet =>
    map.insert subnet.vpc (((map.lookup subnet.vpc).getD ∅).insert subnet.providerNetwork ())) ∅

/-- The provider networks of a tenant in the order of a loop. -/
def TenantProviders.range (map : TenantProviders) (order : Order) (tenant : String) : List String :=
  order.keys ((map.lookup tenant).getD ∅)

def subnetEvents (subnets : List Subnet) : Events :=
  subnets.map fun subnet => ((subnet.providerNetwork, subnet.vpc), amount .subnets 1)

def endpointEvents (providerOf : String → String → String) (endpoints : List Endpoint) : Events :=
  (endpoints.filter fun endpoint => providerOf endpoint.vpc endpoint.subnet ≠ "").map
    fun endpoint => ((providerOf endpoint.vpc endpoint.subnet, endpoint.vpc), amount .endpoints 1)

/-- A load balancer counts once for a provider network, however many of its subnets are there. -/
def loadBalancerEvents (providerOf : String → String → String) (seen : List String) :
    List (LoadBalancer × String) → Events
  | [] => []
  | (lb, subnetName) :: rest =>
    let providerName := providerOf lb.vpc subnetName
    let key := providerName ++ "\x00" ++ lb.vpc ++ "\x00" ++ lb.name
    if providerName = "" ∨ key ∈ seen then loadBalancerEvents providerOf seen rest
    else ((providerName, lb.vpc), amount .loadBalancers 1) ::
      loadBalancerEvents providerOf (key :: seen) rest

/-- Objects of a tenant count on all of its provider networks. -/
def tenantEvents {α : Type} (map : TenantProviders) (orders : Nat → Order) (vpcOf : α → String)
    (counts : α → Counts) (items : List α) : Events :=
  items.zipIdx.flatMap fun (item, i) =>
    (map.range (orders i) (vpcOf item)).map fun providerName => ((providerName, vpcOf item), counts item)

variable (orders : Orders)

/-- The loops over the objects other than subnets, which both implementations have. Each
finds the provider network of a subnet under a key of its own. -/
def countObjects (providerOf : String → String → String) (map : TenantProviders)
    (state : ProviderState) (usage : Usage) : Usage :=
  let objects := state.objects
  let usage := addAll usage (endpointEvents providerOf objects.endpoints)
  let usage := addAll usage (loadBalancerEvents providerOf []
    (objects.loadBalancers.flatMap fun lb => lb.subnets.map fun name => (lb, name)))
  let usage := addAll usage (tenantEvents map orders.natRules NATRule.vpc
    (fun _ => amount .natRules 1) objects.natRules)
  let usage := addAll usage (tenantEvents map orders.policyRoutes PolicyRoute.vpc
    (fun _ => amount .policyRoutes 1) objects.policyRoutes)
  addAll usage (tenantEvents map orders.securityGroups SecurityGroup.vpc
    (fun group => amount .securityGroups 1 + amount .securityGroupRules group.rules.length)
    objects.securityGroups)

/-- `providerNetworkTenantUsage` of the controller, on the map of subnets. -/
def providerNetworkTenantUsage (subnets : AList fun _ : String => Subnet)
    (state : ProviderState) : Usage :=
  let entries := (orders.subnets.arrange subnets.entries).filter fun entry =>
    entry.2.providerNetwork ≠ ""
  let subnetProviders : AList fun _ : String => String :=
    insertAll Sigma.fst (fun entry => entry.2.providerNetwork) entries
  countObjects orders (fun vpc name => (subnetProviders.lookup (subnetKey vpc name)).getD "")
    (tenantProviders (entries.map Sigma.snd)) state (addAll ∅ (subnetEvents (entries.map Sigma.snd)))

def subnetStateKey (vpc subnet : String) : String := vpc ++ "\x00" ++ subnet

/-- The counts of `providerTenantUsage` of the datapath, on the list of subnets. -/
def usageByProviderTenant (state : ProviderState) : Usage :=
  let subnets := state.objects.subnets.filter fun subnet => subnet.providerNetwork ≠ ""
  let subnetProvider : AList fun _ : String => String :=
    insertAll (fun subnet => subnetStateKey subnet.vpc subnet.name) Subnet.providerNetwork subnets
  countObjects orders (fun vpc name => (subnetProvider.lookup (subnetStateKey vpc name)).getD "")
    (tenantProviders subnets) state (addAll ∅ (subnetEvents subnets))

/-! ### Limits -/

/-- A count is above its limit; no limit is zero. -/
def exceeds (max : Resource → Int) (counts : Counts) : Bool :=
  Resource.all.any fun resource => 0 < max resource && max resource < (counts resource : Int)

def validateProviderNetworkTenantQuotas (providerNetworks : AList fun _ : String => ProviderNetwork)
    (subnets : AList fun _ : String => Subnet) (state : ProviderState) : Except String Unit :=
  let usage := providerNetworkTenantUsage orders subnets state
  forM (orders.results.arrange providerNetworks.entries) fun provider =>
    forM provider.2.tenantQuotas fun quota =>
      let tenantUsage : Counts := (usage.lookup (provider.1, quota.tenant)).getD 0
      forM Resource.all fun resource =>
        require (!(0 < quota.max resource && quota.max resource < (tenantUsage resource : Int)))
          (s!"provider network {quote provider.1} tenant {quote quota.tenant} uses " ++
            s!"{tenantUsage resource} {resource.noun}, exceeds {resource.field} " ++
            s!"{quota.max resource}")

/-- What the datapath reports of a tenant. -/
structure ProviderTenantUsage where
  tenant : String
  counts : Counts
  max : Resource → Int
  exceeded : Bool

/-- `providerTenantUsage` of the datapath: the entries with their provider networks. -/
def providerTenantUsage (state : ProviderState) : List (String × ProviderTenantUsage) :=
  let quotaByProviderTenant : AList fun _ : String × String => Resource → Int :=
    insertAll (fun entry : ProviderNetwork × ProviderNetworkTenantQuota =>
        (entry.1.name, entry.2.tenant)) (fun entry => entry.2.max)
      (state.networks.flatMap fun provider => provider.tenantQuotas.map fun quota => (provider, quota))
  (orders.results.arrange (usageByProviderTenant orders state).entries).map fun entry =>
    let max := (quotaByProviderTenant.lookup entry.1).getD fun _ => 0
    (entry.1.1, { tenant := entry.1.2, counts := entry.2, max, exceeded := exceeds max entry.2 })

/-! ### Sets of provider networks -/

theorem mem_tenantProviders (subnets : List Subnet) (tenant providerName : String) :
    providerName ∈ ((tenantProviders subnets).lookup tenant).getD ∅ ↔
      ∃ subnet ∈ subnets, subnet.vpc = tenant ∧ subnet.providerNetwork = providerName := by
  refine foldl_invariant _ (fun done (map : TenantProviders) =>
    providerName ∈ (map.lookup tenant).getD ∅ ↔
      ∃ subnet ∈ done, subnet.vpc = tenant ∧ subnet.providerNetwork = providerName) subnets ∅
    (by simp) ?_
  intro done subnet _ map _ holds
  simp only [mem_append, mem_singleton]
  by_cases here : tenant = subnet.vpc
  · subst here
    rw [lookup_insert, Option.getD_some, mem_insert, holds]
    grind
  · rw [lookup_insert_ne here, holds]
    grind

variable {subnets subnets' : List Subnet}

/-- Lists with the same subnets give the same sets, in whatever order. -/
theorem range_perm (perm : subnets.Perm subnets') (order order' : Order) (tenant : String) :
    ((tenantProviders subnets).range order tenant).Perm
      ((tenantProviders subnets').range order' tenant) := by
  refine (order.perm _).trans (List.Perm.trans ?_ (order'.perm _).symm)
  refine (perm_ext_iff_of_nodup (keys_nodup _) (keys_nodup _)).mpr fun name => ?_
  rw [← AList.mem_keys, ← AList.mem_keys, mem_tenantProviders, mem_tenantProviders]
  simp [perm.mem_iff]

theorem tenantEvents_perm {α : Type} (perm : subnets.Perm subnets') (orders orders' : Nat → Order)
    (vpcOf : α → String) (counts : α → Counts) (items : List α) :
    (tenantEvents (tenantProviders subnets) orders vpcOf counts items).Perm
      (tenantEvents (tenantProviders subnets') orders' vpcOf counts items) :=
  List.Perm.flatMap_left _ fun _ _ => (range_perm perm _ _ _).map _

/-! ### Events of the loops -/

/-- Everything that is added after the subnets. -/
def objectEvents (orders : Orders) (providerOf : String → String → String) (map : TenantProviders)
    (state : ProviderState) : Events :=
  endpointEvents providerOf state.objects.endpoints ++
    (loadBalancerEvents providerOf []
      (state.objects.loadBalancers.flatMap fun lb => lb.subnets.map fun name => (lb, name)) ++
    (tenantEvents map orders.natRules NATRule.vpc (fun _ => amount .natRules 1)
      state.objects.natRules ++
    (tenantEvents map orders.policyRoutes PolicyRoute.vpc (fun _ => amount .policyRoutes 1)
      state.objects.policyRoutes ++
    tenantEvents map orders.securityGroups SecurityGroup.vpc
      (fun group => amount .securityGroups 1 + amount .securityGroupRules group.rules.length)
      state.objects.securityGroups)))

theorem countObjects_eq (orders : Orders) (providerOf : String → String → String) (map : TenantProviders)
    (state : ProviderState) (events : Events) :
    countObjects orders providerOf map state (addAll ∅ events) =
      addAll ∅ (events ++ objectEvents orders providerOf map state) := by
  simp [countObjects, objectEvents, Tally.addAll_append]

theorem objectEvents_perm (perm : subnets.Perm subnets') (orders orders' : Orders)
    (providerOf : String → String → String) (state : ProviderState) :
    (objectEvents orders providerOf (tenantProviders subnets) state).Perm
      (objectEvents orders' providerOf (tenantProviders subnets') state) := by
  refine (List.Perm.refl _).append ((List.Perm.refl _).append ?_)
  exact (tenantEvents_perm perm ..).append ((tenantEvents_perm perm ..).append
    (tenantEvents_perm perm ..))

/-! ### The two implementations -/

/-- The maps the controller has built when it checks the quotas. -/
def subnetMap (state : ProviderState) : AList fun _ : String => Subnet :=
  insertAll (fun subnet => subnetKey subnet.vpc subnet.name) id state.objects.subnets

def networkMap (state : ProviderState) : AList fun _ : String => ProviderNetwork :=
  insertAll ProviderNetwork.name id state.networks

section Agreement

variable {state : ProviderState}

section

variable (accepted : validateNetworksAndSubnets state = .ok ())

include accepted

theorem nodup_subnets :
    (state.objects.subnets.map fun subnet => subnetKey subnet.vpc subnet.name).Nodup := by
  simp only [validateNetworksAndSubnets, bind_eq_ok] at accepted
  obtain ⟨_, _, subnets⟩ := accepted
  refine nodup_of_any _ (fun seen item checked => ?_) subnets
  simp only [validateSubnet, findSubnet, bind_eq_ok, require_eq_ok,
    Option.isNone_iff_eq_none, find?_eq_none] at checked
  obtain ⟨_, _, _, fresh, _⟩ := checked
  simpa using fresh

theorem nodup_networks :
    (state.networks.map ProviderNetwork.name).Nodup ∧
      ∀ provider ∈ state.networks,
        (provider.tenantQuotas.map ProviderNetworkTenantQuota.tenant).Nodup := by
  simp only [validateNetworksAndSubnets, bind_eq_ok] at accepted
  obtain ⟨_, networks, _⟩ := accepted
  refine ⟨nodup_of_any _ (fun seen item checked => ?_) networks, fun provider listed => ?_⟩
  · simp only [validateProviderNetwork, bind_eq_ok, require_eq_ok] at checked
    obtain ⟨_, _, _, fresh, _⟩ := checked
    exact fresh
  · obtain ⟨_, checked⟩ := mem_of_growing networks listed
    simp only [validateProviderNetwork, bind_eq_ok] at checked
    obtain ⟨_, valid, _⟩ := checked
    exact ProviderNetwork.nodup_of_validate valid

/-- The subnets the controller runs through, with their keys. -/
def rangedSubnets (orders : Orders) (state : ProviderState) : List (Sigma fun _ : String => Subnet) :=
  (orders.subnets.arrange (subnetMap state).entries).filter fun entry =>
    entry.2.providerNetwork ≠ ""

/-- The subnets the datapath runs through. -/
def providerSubnets (state : ProviderState) : List Subnet :=
  state.objects.subnets.filter fun subnet => subnet.providerNetwork ≠ ""

theorem rangedSubnets_perm
    (orders : Orders) : (rangedSubnets orders state).Perm ((providerSubnets state).map fun subnet =>
      ⟨subnetKey subnet.vpc subnet.name, subnet⟩) := by
  have entries : (orders.subnets.arrange (subnetMap state).entries).Perm
      (state.objects.subnets.map fun subnet => ⟨subnetKey subnet.vpc subnet.name, subnet⟩) := by
    refine (orders.subnets.perm _).trans ?_
    rw [subnetMap, entries_insertAll _ _ (nodup_subnets accepted)]
    exact reverse_perm _
  have kept := entries.filter fun entry => decide (entry.2.providerNetwork ≠ "")
  rwa [filter_map] at kept

/-- Both find the same provider network under every key. -/
theorem subnetProviders_eq (orders : Orders) (key : String) :
    (insertAll Sigma.fst (fun entry => entry.2.providerNetwork)
      (rangedSubnets orders state)).lookup key =
    (insertAll (fun subnet => subnetStateKey subnet.vpc subnet.name) Subnet.providerNetwork
      (providerSubnets state)).lookup key := by
  have perm := rangedSubnets_perm accepted orders
  have nodup : ((providerSubnets state).map fun subnet =>
      subnetStateKey subnet.vpc subnet.name).Nodup :=
    (filter_sublist.map _).nodup (nodup_subnets accepted)
  have nodup' : ((rangedSubnets orders state).map Sigma.fst).Nodup := by
    refine (perm.map Sigma.fst).nodup_iff.mpr ?_
    rwa [map_map]
  apply Option.ext
  intro provider
  rw [lookup_insertAll _ _ nodup', lookup_insertAll _ _ nodup]
  constructor
  · rintro ⟨entry, listed, rfl, rfl⟩
    obtain ⟨subnet, member, rfl⟩ := mem_map.mp (perm.mem_iff.mp listed)
    exact ⟨subnet, member, rfl, rfl⟩
  · rintro ⟨subnet, member, rfl, rfl⟩
    exact ⟨_, perm.mem_iff.mpr (mem_map.mpr ⟨subnet, member, rfl⟩), rfl, rfl⟩

/-- Both count the same objects under every provider network and tenant. -/
theorem lookup_usage (orders orders' : Orders) (key : String × String) :
    (providerNetworkTenantUsage orders (subnetMap state) state).lookup key =
      (usageByProviderTenant orders' state).lookup key := by
  have perm : ((rangedSubnets orders state).map Sigma.snd).Perm (providerSubnets state) := by
    have values := (rangedSubnets_perm accepted orders).map Sigma.snd
    rwa [map_map, show (Sigma.snd ∘ fun subnet : Subnet =>
      (⟨subnetKey subnet.vpc subnet.name, subnet⟩ : Sigma fun _ : String => Subnet)) = id from rfl,
      map_id] at values
  have providers := subnetProviders_eq accepted orders
  have control : providerNetworkTenantUsage orders (subnetMap state) state = countObjects orders
      (fun vpc name => ((insertAll Sigma.fst (fun entry => entry.2.providerNetwork)
        (rangedSubnets orders state)).lookup (subnetKey vpc name)).getD "")
      (tenantProviders ((rangedSubnets orders state).map Sigma.snd)) state
      (addAll ∅ (subnetEvents ((rangedSubnets orders state).map Sigma.snd))) := rfl
  have linux : usageByProviderTenant orders' state = countObjects orders'
      (fun vpc name => ((insertAll (fun subnet => subnetStateKey subnet.vpc subnet.name)
        Subnet.providerNetwork (providerSubnets state)).lookup (subnetStateKey vpc name)).getD "")
      (tenantProviders (providerSubnets state)) state
      (addAll ∅ (subnetEvents (providerSubnets state))) := rfl
  simp only [control, linux, providers, countObjects_eq]
  refine Tally.lookup_addAll_perm ?_ key
  exact (perm.map _).append (objectEvents_perm perm orders orders' _ state)

omit accepted in
theorem exceeds_eq_false (max : Resource → Int) (counts : Counts) :
    exceeds max counts = false ↔ ∀ resource, ¬(0 < max resource ∧ max resource < counts resource) := by
  simp only [exceeds, any_eq_false, Bool.and_eq_true, decide_eq_true_eq]
  exact ⟨fun below resource => below resource resource.mem_all, fun below resource _ => below resource⟩

omit accepted in
/-- Nothing is not too much. -/
theorem exceeds_zero (max : Resource → Int) : exceeds max 0 = false := by
  rw [exceeds_eq_false]
  rintro resource ⟨positive, above⟩
  exact absurd above (by simpa using positive.le)

/-- The controller accepts if no quota is exceeded. -/
theorem validateQuotas_eq_ok (orders : Orders) :
    validateProviderNetworkTenantQuotas orders (networkMap state) (subnetMap state) state = .ok () ↔
      ∀ provider ∈ state.networks, ∀ quota ∈ provider.tenantQuotas,
        exceeds quota.max (((providerNetworkTenantUsage orders (subnetMap state) state).lookup
          (provider.name, quota.tenant)).getD 0) = false := by
  have entries : ∀ entry, entry ∈ orders.results.arrange (networkMap state).entries ↔
      ∃ provider ∈ state.networks, ⟨provider.name, provider⟩ = entry := by
    intro entry
    rw [(orders.results.perm _).mem_iff, networkMap,
      entries_insertAll _ _ (nodup_networks accepted).1, mem_reverse, mem_map]
    rfl
  simp only [validateProviderNetworkTenantQuotas, forM_eq_ok, require_eq_ok, exceeds_eq_false,
    Bool.not_eq_true', Bool.and_eq_false_iff, decide_eq_false_iff_not, ← not_and_or]
  constructor
  · intro holds provider listed quota member resource
    exact holds _ ((entries _).mpr ⟨provider, listed, rfl⟩) quota member resource resource.mem_all
  · grind

/-- The limits the datapath finds under a provider network and tenant. -/
def quotaByProviderTenant (state : ProviderState) : AList fun _ : String × String => Resource → Int :=
  insertAll (fun entry : ProviderNetwork × ProviderNetworkTenantQuota =>
      (entry.1.name, entry.2.tenant)) (fun entry => entry.2.max)
    (state.networks.flatMap fun provider => provider.tenantQuotas.map fun quota => (provider, quota))

/-- Provider networks have one name and their tenants one quota each, so no quota replaces
another one. -/
theorem lookup_quotaByProviderTenant (key : String × String) (max : Resource → Int) :
    (quotaByProviderTenant state).lookup key = some max ↔
      ∃ provider ∈ state.networks, ∃ quota ∈ provider.tenantQuotas,
        (provider.name, quota.tenant) = key ∧ quota.max = max := by
  obtain ⟨names, tenants⟩ := nodup_networks accepted
  have nodup : ((state.networks.flatMap fun provider => provider.tenantQuotas.map fun quota =>
      (provider, quota)).map fun entry : ProviderNetwork × ProviderNetworkTenantQuota =>
        (entry.1.name, entry.2.tenant)).Nodup := by
    rw [map_flatMap, nodup_flatMap]
    constructor
    · intro provider listed
      have paired := (tenants provider listed).map (Prod.mk_right_injective provider.name)
      rwa [map_map] at paired ⊢
    · refine (pairwise_map.mp names).imp fun {a b} apart => ?_
      rw [Function.onFun, disjoint_left]
      simp only [map_map, mem_map, Function.comp_apply]
      rintro _ ⟨_, _, rfl⟩ ⟨_, _, same⟩
      exact apart (Prod.mk.inj same).1.symm
  rw [quotaByProviderTenant, lookup_insertAll _ _ nodup]
  simp only [mem_flatMap, mem_map]
  grind

end

/-- The reports are the counts with the limits of their quotas. -/
theorem mem_providerTenantUsage (orders : Orders) (state : ProviderState) (provider : String)
    (report : ProviderTenantUsage) : (provider, report) ∈ providerTenantUsage orders state ↔
      (usageByProviderTenant orders state).lookup (provider, report.tenant) = some report.counts ∧
      report.max = ((quotaByProviderTenant state).lookup (provider, report.tenant)).getD
        (fun _ => 0) ∧
      report.exceeded = exceeds report.max report.counts := by
  have member : (provider, report) ∈ providerTenantUsage orders state ↔
      ∃ entry ∈ orders.results.arrange (usageByProviderTenant orders state).entries,
        (entry.1.1, (⟨entry.1.2, entry.2,
          ((quotaByProviderTenant state).lookup entry.1).getD (fun _ => 0),
          exceeds (((quotaByProviderTenant state).lookup entry.1).getD fun _ => 0) entry.2⟩ :
          ProviderTenantUsage)) = (provider, report) := mem_map
  rw [member]
  constructor
  · rintro ⟨⟨⟨name, tenant⟩, counts⟩, listed, same⟩
    obtain ⟨rfl, rfl⟩ := Prod.mk.inj same
    refine ⟨mem_lookup_iff.mpr ((orders.results.perm _).mem_iff.mp listed), rfl, rfl⟩
  · obtain ⟨tenant, counts, max, exceeded⟩ := report
    rintro ⟨counted, limits, result⟩
    dsimp only at limits result
    subst limits result
    exact ⟨⟨(provider, tenant), counts⟩,
      (orders.results.perm _).mem_iff.mpr (mem_lookup_iff.mp counted), rfl⟩

/-- The controller accepts the quotas iff the datapath reports none as exceeded, and both count
the same under every provider network and tenant: what the controller counts is what the
datapath reports, and where it reports nothing, the controller counts nothing. -/
theorem quota_implementations_agree (state : ProviderState)
    (accepted : validateNetworksAndSubnets state = .ok ()) (orders orders' : Orders) :
    (validateProviderNetworkTenantQuotas orders (networkMap state) (subnetMap state) state = .ok () ↔
      ∀ entry ∈ providerTenantUsage orders' state, entry.2.exceeded = false) ∧
    ∀ provider tenant counts,
      (providerNetworkTenantUsage orders (subnetMap state) state).lookup (provider, tenant) =
          some counts ↔
        ∃ report, (provider, report) ∈ providerTenantUsage orders' state ∧
          report.tenant = tenant ∧ report.counts = counts := by
  constructor
  · rw [validateQuotas_eq_ok accepted]
    constructor
    · rintro below ⟨provider, report⟩ listed
      obtain ⟨counted, limits, exceeded⟩ := (mem_providerTenantUsage ..).mp listed
      rw [exceeded]
      cases found : (quotaByProviderTenant state).lookup (provider, report.tenant) with
      | none =>
        -- without a quota all limits are zero, which stand for no limit
        rw [limits, found, Option.getD_none, exceeds_eq_false]
        exact fun _ above => absurd above.1 (lt_irrefl _)
      | some max =>
        obtain ⟨network, known, quota, member, same, rfl⟩ :=
          (lookup_quotaByProviderTenant accepted _ _).mp found
        have checked := below network known quota member
        rwa [same, lookup_usage accepted orders orders', counted, Option.getD_some,
          show quota.max = report.max by rw [limits, found, Option.getD_some]] at checked
    · intro fine network known quota member
      rw [lookup_usage accepted orders orders']
      cases counted : (usageByProviderTenant orders' state).lookup (network.name, quota.tenant) with
      | none => exact exceeds_zero quota.max
      | some counts =>
        have found := (lookup_quotaByProviderTenant accepted (network.name, quota.tenant)
          quota.max).mpr ⟨network, known, quota, member, rfl, rfl⟩
        exact fine (network.name, ⟨quota.tenant, counts, quota.max, exceeds quota.max counts⟩)
          ((mem_providerTenantUsage ..).mpr ⟨counted, by rw [found, Option.getD_some], rfl⟩)
  · intro provider tenant counts
    rw [lookup_usage accepted orders orders']
    constructor
    · intro counted
      let max := ((quotaByProviderTenant state).lookup (provider, tenant)).getD fun _ => 0
      exact ⟨⟨tenant, counts, max, exceeds max counts⟩,
        (mem_providerTenantUsage ..).mpr ⟨counted, rfl, rfl⟩, rfl, rfl⟩
    · rintro ⟨report, listed, rfl, rfl⟩
      exact ((mem_providerTenantUsage ..).mp listed).1

end Agreement

/-- A tenant with one subnet more than its quota allows, and a load balancer on both. -/
def crowdedState : ProviderState where
  networks := [{
    name := "phys", nodes := [⟨"n1", "eth0", []⟩], isolation := "", controllerTargets := [],
    qos := ⟨0, 0⟩, tenantQueues := [],
    tenantQuotas := [⟨"red", fun resource => if resource = .subnets then 1 else 0⟩] }]
  objects := {
    vpcs := [⟨"red"⟩]
    subnets := [
      ⟨"a", "red", Netip.prefixFrom (.v4 0x0a000000) 24, .v4 0x0a000001, [], "phys", 1,
        ⟨false, 0, 0, [], "", []⟩⟩,
      ⟨"b", "red", Netip.prefixFrom (.v4 0x0a000100) 24, .v4 0x0a000101, [], "phys", 2,
        ⟨false, 0, 0, [], "", []⟩⟩]
    endpoints := [⟨"web", "red", "a", .v4 0x0a000002, "", "n1", [], [], ∅⟩]
    loadBalancers := [{
      name := "shop", vpc := "red", vip := .v4 0x0a640001, ports := [], subnets := ["a", "b"]
      healthCheck := ⟨false, 0, 0, 0, 0⟩ }]
    natRules := [⟨"out", "red", .snat, Netip.prefixFrom (.v4 0x0a000000) 24, .v4 0xc0000201, .zero,
      .unset, 0, 0, "", ""⟩]
    policyRoutes := [⟨"quiet", "red", 100, {}, ⟨.drop, []⟩⟩]
    securityGroups := [{
      name := "open", vpc := "red"
      rules := [{
        id := "in", priority := 100, direction := .ingress, protocol := .tcp, action := .allow }] }] }

/-- Every object is counted once, also the load balancer on two subnets. -/
theorem quota_implementations_agree_crowded :
    validateNetworksAndSubnets crowdedState = .ok () ∧
    ((validateProviderNetworkTenantQuotas {} (networkMap crowdedState) (subnetMap crowdedState)
        crowdedState = .ok () ↔
      ∀ entry ∈ providerTenantUsage {} crowdedState, entry.2.exceeded = false) ∧
    ∀ provider tenant counts,
      (providerNetworkTenantUsage {} (subnetMap crowdedState) crowdedState).lookup
          (provider, tenant) = some counts ↔
        ∃ report, (provider, report) ∈ providerTenantUsage {} crowdedState ∧
          report.tenant = tenant ∧ report.counts = counts) ∧
    ∃ entry ∈ providerTenantUsage {} crowdedState, entry.2.exceeded = true ∧
      Resource.all.map entry.2.counts = [2, 1, 1, 1, 1, 1, 1] :=
  have accepted : validateNetworksAndSubnets crowdedState = .ok () := by decide +kernel
  ⟨accepted, quota_implementations_agree crowdedState accepted {} {},
    _, mem_singleton.mpr rfl, by decide +kernel, by decide +kernel⟩

end Netloom.Provider
