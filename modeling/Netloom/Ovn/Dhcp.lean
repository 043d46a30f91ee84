import Netloom.Lib.Fold
import Netloom.Model.Routing
import Netloom.Netip.Text

/-!
# DHCP options: written and audited

The writer of the OVN database keeps the DHCP settings of a subnet as texts on its
logical switch and derives the options of an endpoint from those texts. The
audit derives them from the subnet.
-/
namespace Netloom.Ovn

open Model Strings
open Netip (Addr)

inductive Family where
  | v4
  | v6
  deriving DecidableEq, Repr

/-- The family of an address, as `Is4` and `Is6` tell it. -/
def Family.holds (family : Family) (ip : Addr) : Bool :=
  match family with
  | .v4 => ip.is4
  | .v6 => ip.is6

abbrev StringMap := AList fun _ : String => String

/-- `m[key]`, which is the empty text where the map holds nothing. -/
def valueAt (map : StringMap) (key : String) : String := (map.lookup key).getD ""

/-- Sets a key, or leaves the map as it is. -/
def put (key : String) (value : Option String) (map : StringMap) : StringMap :=
  match value with
  | some value => map.insert key value
  | none => map

/-- A text for a list, if the list has elements. -/
def ifAny (render : List String → String) (values : List String) : Option String :=
  if values.isEmpty then none else some (render values)

/-- The list with a name added, unless it is empty or among them. -/
def withName (name : String) (names : List String) : List String :=
  if name ≠ "" && !names.contains name then names ++ [name] else names

def ovnStringValue (value : String) : String :=
  doubleQuote.toString ++ value ++ doubleQuote.toString

def ovnStringSetValues (values : List String) : String :=
  "[" ++ ",".intercalate ((sortStrings values).map ovnStringValue) ++ "]"

/-! ### The writer -/

def joinAddrs (addrs : List Addr) : String := ",".intercalate (addrs.map Addr.string)

def splitCSV (value : String) : List String :=
  if value = "" then [] else ((split value ',').map trimSpace).filter (· ≠ "")

/-- What a switch says about its subnet, under the keys of the external ids. -/
def switchIDs (subnet : Subnet) : List (String × String) :=
  [("netloom_owner", "netloom"),
    ("netloom_vpc", subnet.vpc),
    ("netloom_subnet", subnet.name),
    ("netloom_cidr", subnet.cidr.string),
    ("netloom_gateway", subnet.gateway.string),
    ("netloom_dhcp_enabled", toString subnet.dhcp.enabled),
    ("netloom_dhcp_lease_time", toString subnet.dhcp.leaseTime.toNat),
    ("netloom_dhcp_mtu", toString subnet.dhcp.mtu.toNat),
    ("netloom_dhcp_dns_servers", joinAddrs subnet.dhcp.dnsServers),
    ("netloom_dhcp_domain_name", subnet.dhcp.domainName),
    ("netloom_dhcp_search_paths", ",".intercalate subnet.dhcp.searchDomains)]

def logicalSwitchExternalIDs (subnet : Subnet) : StringMap :=
  Fold.insertAll Prod.fst Prod.snd (switchIDs subnet)

/-- The servers that the text names, in the family. -/
def filteredServers (family : Family) (text : String) : List String :=
  (splitCSV text).filterMap fun value =>
    ((Netip.parseAddr value).filter family.holds).map Addr.string

def addDHCPDNSOptions (ids : StringMap) (family : Family) (options : StringMap) : StringMap :=
  let servers := filteredServers family (valueAt ids "netloom_dhcp_dns_servers")
  let options := put "dns_server" (ifAny ovnStringSetValues servers) options
  let domain := valueAt ids "netloom_dhcp_domain_name"
  let domains := splitCSV (valueAt ids "netloom_dhcp_search_paths")
  match family with
  | .v4 =>
    let options := put "domain_name" (if domain ≠ "" then some domain else none) options
    put "domain_search_list" (ifAny ovnStringSetValues domains) options
  | .v6 => put "domain_search" (ifAny ",".intercalate (withName domain domains)) options

/-- A row of the table `DHCP_Options`. -/
structure DHCPOptionsRow where
  cidr : String
  options : StringMap

/-- The row of an endpoint, if its switch has DHCP and the endpoint an address of the family.
`routerPort` is the hardware address of the subnet's router port, if there is one. -/
def desiredEndpointDHCPOptions (endpoint : Endpoint) (ids : StringMap) (routerPort : Option String)
    (family : Family) : Except String (Option DHCPOptionsRow) :=
  if valueAt ids "netloom_dhcp_enabled" ≠ "true" then .ok none
  else if !family.holds endpoint.ip then .ok none
  else
    let cidr := valueAt ids "netloom_cidr"
    let gateway := valueAt ids "netloom_gateway"
    if cidr = "" ∨ gateway = "" then
      .error s!"logical switch {endpoint.vpc}/{endpoint.subnet} missing DHCP CIDR or gateway metadata"
    else match routerPort with
      | none => .error (s!"logical router port for subnet {endpoint.vpc}/{endpoint.subnet} must " ++
          "exist before endpoint DHCP")
      | some mac =>
        let base : StringMap := match family with
          | .v4 =>
            let leaseTime := valueAt ids "netloom_dhcp_lease_time"
            let mtu := valueAt ids "netloom_dhcp_mtu"
            ((((∅ : StringMap).insert "server_id" gateway).insert "server_mac" mac).insert
              "router" gateway).insert "lease_time"
                (if leaseTime = "" ∨ leaseTime = "0" then "3600" else leaseTime)
              |> put "mtu" (if mtu ≠ "" ∧ mtu ≠ "0" then some mtu else none)
          | .v6 => (∅ : StringMap).insert "server_id" mac
        .ok (some { cidr, options := addDHCPDNSOptions ids family base })

/-! ### The audit -/

def deterministicMAC (sha256 : Sha256) (subnet : Subnet) : String :=
  subnetGatewayMAC sha256 subnet.vpc subnet.name subnet.gateway

/-- The search domains without repetitions, then the domain name unless it is one of them. -/
def dhcpv6SearchDomains (options : DHCPOptions) : List String :=
  withName options.domainName (Fold.dedupeBy id options.searchDomains)

def addExpectedDHCPDNSOptions (dhcp : DHCPOptions) (family : Family) (options : StringMap) :
    StringMap :=
  let servers := (dhcp.dnsServers.filter family.holds).map Addr.string
  let options := put "dns_server" (ifAny ovnStringSetValues servers) options
  match family with
  | .v4 =>
    let options := put "domain_name" (if dhcp.domainName ≠ "" then some dhcp.domainName else none)
      options
    put "domain_search_list" (ifAny ovnStringSetValues dhcp.searchDomains) options
  | .v6 => put "domain_search" (ifAny ",".intercalate (dhcpv6SearchDomains dhcp)) options

def expectedEndpointDHCPOptionsColumns (sha256 : Sha256) (subnet : Subnet) (family : Family) :
    DHCPOptionsRow :=
  let mac := deterministicMAC sha256 subnet
  let base : StringMap := match family with
    | .v4 =>
      let leaseTime := subnet.dhcp.leaseTime
      ((((∅ : StringMap).insert "server_id" subnet.gateway.string).insert "server_mac" mac).insert
        "router" subnet.gateway.string).insert "lease_time"
          (toString (if leaseTime = 0 then 3600 else leaseTime.toNat))
        |> put "mtu" (if subnet.dhcp.mtu ≠ 0 then some (toString subnet.dhcp.mtu.toNat) else none)
    | .v6 => (∅ : StringMap).insert "server_id" mac
  { cidr := subnet.cidr.string, options := addExpectedDHCPDNSOptions subnet.dhcp family base }

/-! ### Maps of options -/

theorem lookup_put (key : String) (value : Option String) (map : StringMap) (k : String) :
    (put key value map).lookup k = if k = key then value.or (map.lookup key) else map.lookup k := by
  cases value with
  | none =>
    split
    · next same => rw [same]; rfl
    · rfl
  | some value =>
    split
    · next same => rw [same]; exact AList.lookup_insert _
    · next other => exact AList.lookup_insert_ne other

/-- Two maps agree after a new key is set in both exactly if they did before and the
values agree. -/
theorem agree_put {key : String} {value value' : Option String} {map map' : StringMap}
    (fresh : map.lookup key = none) (fresh' : map'.lookup key = none) :
    (∀ k, (put key value map).lookup k = (put key value' map').lookup k) ↔
      value = value' ∧ ∀ k, map.lookup k = map'.lookup k := by
  simp only [lookup_put]
  grind

/-- The keys are distinct, so each is read back with its own text. -/
theorem valueAt_switchIDs (subnet : Subnet) :
    ∀ id ∈ switchIDs subnet, valueAt (logicalSwitchExternalIDs subnet) id.1 = id.2 := by
  intro id listed
  have distinct : ((switchIDs subnet).map Prod.fst).Nodup := by simp [switchIDs]
  rw [valueAt, logicalSwitchExternalIDs,
    (Fold.lookup_insertAll Prod.fst Prod.snd distinct id.1 id.2).mpr ⟨id, listed, rfl, rfl⟩,
    Option.getD_some]

end Netloom.Ovn
