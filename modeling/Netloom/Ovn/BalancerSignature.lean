import Netloom.Ovn.Backend

/-!
# What the signature of a load balancer says

The signature of a load balancer joins five sections. For a load balancer whose
address has no zone they are told apart.
-/
namespace Netloom.Ovn

open Model Control List Checked Strings Text Netip
open String (toList_intercalate toList_append toList_injective)

/-! ### Addresses with ports -/

theorem notMem_addrPortString {c : Char} (foreign : Foreign c) (left : c ≠ '[') (right : c ≠ ']')
    {ip : Addr} (valid : ip.isValid) (plain : ip.zone = "") (port : BitVec 16) :
    c ∉ (addrPortString ip port).toList := by
  have text := Addr.notMem_text_of_zone foreign valid plain
  have digits := notMem_toDigits 10 (by omega) port.toNat c foreign.noDigit
  cases ip with
  | zero => simp [Addr.isValid] at valid
  | v4 word =>
    simpa [addrPortString, Addr.string, toString, foreign.noColon] using ⟨text, digits⟩
  | v6 word zone =>
    simpa [addrPortString, Addr.string, toString, foreign.noColon, left, right]
      using ⟨text, digits⟩

theorem addrPortString_injective {ip : Addr} (valid : ip.isValid) {port port' : BitVec 16}
    (same : addrPortString ip port = addrPortString ip port') : port = port' := by
  have texts := congrArg String.toList same
  refine BitVec.eq_of_toNat_eq (toDigits_injective 10 (by omega) (by omega) _ _ ?_)
  cases ip with
  | zero => simp [Addr.isValid] at valid
  | v4 word | v6 word zone => simpa [addrPortString, toString] using texts

/-! ### Accepted load balancers -/

/-- The addresses of the TCP frontends. -/
def tcpVIPs (lb : LoadBalancer) : List String := (frontendsOf lb .tcp).map loadBalancerFrontendVIP

/-- The address of the load balancer has no zone. -/
def PlainVIP (lb : LoadBalancer) : Prop := lb.vip.zone = ""

variable {lb lb' : LoadBalancer}

section

variable (accepted : BalancerAccepted lb)

include accepted

theorem valid_vip : lb.vip.isValid := by
  have valid := accepted.valid
  simp only [LoadBalancer.validate, bind_eq_ok, require_eq_ok] at valid
  obtain ⟨_, _, _, _, _, valid, _⟩ := valid
  exact valid

/-- The frontends are distinct and each has a protocol with ports. -/
theorem frontends_distinct :
    (∀ frontend ∈ lb.frontends, frontend.protocol.hasPorts) ∧
    (lb.frontends.map fun frontend =>
      s!"{frontend.protocol.text}/{frontend.vip.string}/{frontend.port.toNat}").Nodup := by
  have valid := accepted.valid
  simp only [LoadBalancer.validate, bind_eq_ok] at valid
  obtain ⟨_, _, _, _, _, _, _, _, _, _, _, _, _, _, _, _, _, _, _, distinct, _⟩ := valid
  obtain ⟨each, nodup, _⟩ := of_distinctFrom distinct
  refine ⟨fun frontend member => ?_, nodup⟩
  obtain ⟨i, found⟩ := getElem?_of_mem member
  have checked := each i frontend found
  simp only [bind_eq_ok, require_eq_ok] at checked
  obtain ⟨⟨_, _, _, ports, _⟩, _⟩ := checked
  exact ports

/-- No two TCP frontends have one address and port. -/
theorem nodup_tcpVIPs : (tcpVIPs lb).Nodup := by
  obtain ⟨_, nodup⟩ := frontends_distinct accepted
  have distinct : (frontendsOf lb .tcp).Nodup := (List.Nodup.of_map _ nodup).filter _
  refine (nodup_map_iff_inj_on distinct).mpr fun a inA b inB same => ?_
  obtain ⟨inA, tcpA⟩ := mem_filter.mp inA
  obtain ⟨inB, tcpB⟩ := mem_filter.mp inB
  rw [decide_eq_true_eq] at tcpA tcpB
  have vips := (LoadBalancer.vip_of_mem_frontends inA).trans (LoadBalancer.vip_of_mem_frontends inB).symm
  have ports : a.port = b.port := by
    rw [loadBalancerFrontendVIP, loadBalancerFrontendVIP, vips] at same
    exact addrPortString_injective (LoadBalancer.vip_of_mem_frontends inB ▸ valid_vip accepted) same
  exact inj_on_of_nodup_map nodup inA inB (by rw [tcpA, tcpB, vips, ports])

/-- A health check has an address to check. -/
theorem tcpVIPs_ne_nil (enabled : lb.healthCheck.enabled) : tcpVIPs lb ≠ [] := by
  have valid := accepted.valid
  simp only [LoadBalancer.validate, bind_eq_ok, require_eq_ok] at valid
  obtain ⟨_, _, _, _, _, _, _, _, _, _, _, _, _, _, _, _, _, _, _, _, _, tcp, _⟩ := valid
  simp only [enabled, Bool.not_true, Bool.false_or, any_eq_true, decide_eq_true_eq] at tcp
  obtain ⟨frontend, member, tcp⟩ := tcp
  have listed : frontend ∈ frontendsOf lb .tcp := mem_filter.mpr ⟨member, by simp [tcp]⟩
  exact ne_nil_of_mem (mem_map_of_mem listed)

theorem notMem_vip (plain : PlainVIP lb) {c : Char} (foreign : Foreign c) (left : c ≠ '[')
    (right : c ≠ ']') {frontend : LoadBalancerFrontend} (member : frontend ∈ lb.frontends) :
    c ∉ (loadBalancerFrontendVIP frontend).toList := by
  rw [loadBalancerFrontendVIP, LoadBalancer.vip_of_mem_frontends member]
  exact notMem_addrPortString foreign left right (valid_vip accepted) plain _

end

/-! ### The section of the health check -/

/-- Two load balancers ask for the same health checks. -/
def SameHealthCheck (lb lb' : LoadBalancer) : Prop :=
  loadBalancerHealthCheckColumns lb = loadBalancerHealthCheckColumns lb' ∧
    (tcpVIPs lb).Perm (tcpVIPs lb')

/-- The entry of one address. -/
def healthEntry (columns : List String) (vip : String) : String :=
  "|".intercalate (["Load_Balancer_Health_Check", "vip=" ++ ovnStringValue vip] ++ columns)

theorem healthCheckSignature_eq (enabled : lb.healthCheck.enabled) :
    loadBalancerHealthCheckSignature lb = "||".intercalate
      (sortStrings ((tcpVIPs lb).map (healthEntry (loadBalancerHealthCheckColumns lb)))) := by
  simp [loadBalancerHealthCheckSignature, enabled, tcpVIPs, healthEntry, Function.comp_def,
    loadBalancerHealthCheckArgs]

theorem healthCheckSignature_of_same (same : SameHealthCheck lb lb')
    (enabled : lb.healthCheck.enabled = lb'.healthCheck.enabled) :
    loadBalancerHealthCheckSignature lb = loadBalancerHealthCheckSignature lb' := by
  cases on : lb.healthCheck.enabled with
  | false => simp [loadBalancerHealthCheckSignature, on, ← enabled]
  | true =>
    rw [healthCheckSignature_eq on, healthCheckSignature_eq (enabled ▸ on), same.1,
      sortStrings_congr (same.2.map _)]

/-- The numbers in front of the pairs that mark the owner. -/
def healthSettings (lb : LoadBalancer) : List String :=
  [s!"options:interval={orDefault lb.healthCheck.interval 5}",
    s!"options:timeout={orDefault lb.healthCheck.timeout 20}",
    s!"options:success_count={orDefault lb.healthCheck.successCount 3}",
    s!"options:failure_count={orDefault lb.healthCheck.failureCount 3}"]

theorem free_healthSettings (lb : LoadBalancer) :
    ∀ piece ∈ (healthSettings lb).map String.toList, '|' ∉ piece := by
  have digits : ∀ n, '|' ∉ Nat.toDigits 10 n := fun n =>
    notMem_toDigits 10 (by omega) n '|' foreign_bar.noDigit
  simp [healthSettings, toString, digits]

@[irreducible] def healthHead : List Char := "Load_Balancer_Health_Check|vip=".toList ++ [doubleQuote]

theorem toList_healthEntry {columns : List String} (some : columns ≠ []) (vip : String) :
    (healthEntry columns vip).toList = healthHead ++ (vip.toList ++ doubleQuote ::
      ('|' :: intercalate ['|'] (columns.map String.toList))) := by
  obtain ⟨first, rest, rfl⟩ := exists_cons_of_ne_nil some
  rw [healthHead]
  simp [healthEntry, toList_intercalate, ovnStringValue, toList_append]

theorem healthEntry_injective {columns : List String} (some : columns ≠ []) :
    Function.Injective (healthEntry columns) := by
  intro vip vip' same
  have texts := congrArg String.toList same
  rw [toList_healthEntry some, toList_healthEntry some] at texts
  exact toList_injective
    (append_cancel_right (append_cancel_left texts))

theorem columns_ne_nil (lb : LoadBalancer) : loadBalancerHealthCheckColumns lb ≠ [] := by
  simp [loadBalancerHealthCheckColumns]

/-- An entry is told from whatever follows it. -/
theorem told_healthEntry (vpc : lb.vpc = lb'.vpc) (name : lb.name = lb'.name)
    {vip vip' : String} (free : doubleQuote ∉ vip.toList)
    (free' : doubleQuote ∉ vip'.toList) {rest rest' : List Char}
    (equal : (healthEntry (loadBalancerHealthCheckColumns lb) vip).toList ++ rest =
      (healthEntry (loadBalancerHealthCheckColumns lb') vip').toList ++ rest') :
    vip = vip' ∧ loadBalancerHealthCheckColumns lb = loadBalancerHealthCheckColumns lb' := by
  have columns : ∀ lb, loadBalancerHealthCheckColumns lb = healthSettings lb ++
      ownerPairs ["external_ids:netloom_load_balancer=" ++ lb.name] lb.vpc := fun _ => rfl
  rw [toList_healthEntry (columns_ne_nil lb), toList_healthEntry (columns_ne_nil lb')] at equal
  simp only [append_assoc, cons_append] at equal
  -- the address ends with the quote, and the settings with bars
  have tail := append_cancel_left equal
  obtain ⟨vips, others⟩ := cut_injective free free' tail
  rw [columns, columns, vpc, name, cons.injEq, map_append, map_append] at others
  have settings := front_injective (free_healthSettings lb) (free_healthSettings lb')
    (by simp [healthSettings]) (by simp [ownerPairs]) others.2
  have equals : healthSettings lb = healthSettings lb' :=
    map_injective_iff.mpr (fun _ _ => toList_injective) settings
  exact ⟨toList_injective vips, by rw [columns, columns, vpc, name, equals]⟩

/-- The entries in the order in which the signature has them. -/
def healthPieces (lb : LoadBalancer) : List (List Char) :=
  (sortStrings ((tcpVIPs lb).map (healthEntry (loadBalancerHealthCheckColumns lb)))).map
    String.toList

theorem toList_healthCheckSignature (enabled : lb.healthCheck.enabled) :
    (loadBalancerHealthCheckSignature lb).toList =
      intercalate ['|', '|'] (healthPieces lb) := by
  rw [healthCheckSignature_eq enabled, toList_intercalate]
  rfl

theorem healthPieces_ne_nil (accepted : BalancerAccepted lb)
    (enabled : lb.healthCheck.enabled) : healthPieces lb ≠ [] := by
  simpa [healthPieces] using tcpVIPs_ne_nil accepted enabled

theorem mem_healthPieces {piece : List Char} (member : piece ∈ healthPieces lb) :
    ∃ vip ∈ tcpVIPs lb, (healthEntry (loadBalancerHealthCheckColumns lb) vip).toList = piece := by
  obtain ⟨text, listed, rfl⟩ := mem_map.mp member
  obtain ⟨vip, inside, rfl⟩ := mem_map.mp (mem_sortStrings.mp listed)
  exact ⟨vip, inside, rfl⟩

theorem free_tcpVIPs (accepted : BalancerAccepted lb) (plain : PlainVIP lb) :
    ∀ vip ∈ tcpVIPs lb, doubleQuote ∉ vip.toList := by
  intro vip member
  obtain ⟨frontend, listed, rfl⟩ := mem_map.mp member
  have quote : doubleQuote ≠ '[' ∧ doubleQuote ≠ ']' := by decide
  exact notMem_vip accepted plain foreign_doubleQuote quote.1 quote.2
    (mem_of_mem_filter listed)

/-- What the sections of two health checks say is the same if they start the same text. -/
theorem sameHealthCheck_of_text (accepted : BalancerAccepted lb) (accepted' : BalancerAccepted lb')
    (plain : PlainVIP lb) (plain' : PlainVIP lb') (vpc : lb.vpc = lb'.vpc)
    (name : lb.name = lb'.name) (enabled : lb.healthCheck.enabled)
    (enabled' : lb'.healthCheck.enabled) {final final' : List Char}
    (ends : ¬ ['|', '|'] <+: final) (ends' : ¬ ['|', '|'] <+: final')
    (equal : (loadBalancerHealthCheckSignature lb).toList ++ final =
      (loadBalancerHealthCheckSignature lb').toList ++ final') : SameHealthCheck lb lb' := by
  rw [toList_healthCheckSignature enabled, toList_healthCheckSignature enabled'] at equal
  have told : ∀ vip ∈ tcpVIPs lb, ∀ vip' ∈ tcpVIPs lb', ∀ rest rest',
      (healthEntry (loadBalancerHealthCheckColumns lb) vip).toList ++ rest =
        (healthEntry (loadBalancerHealthCheckColumns lb') vip').toList ++ rest' →
      vip = vip' ∧ loadBalancerHealthCheckColumns lb = loadBalancerHealthCheckColumns lb' :=
    fun vip member vip' member' rest rest' => told_healthEntry vpc name
      (free_tcpVIPs accepted plain vip member) (free_tcpVIPs accepted' plain' vip' member')
  have pieces : healthPieces lb = healthPieces lb' := by
    refine pieces_injective ends ends' (healthPieces_ne_nil accepted enabled)
      (healthPieces_ne_nil accepted' enabled') ?_ equal
    intro piece member piece' member' rest rest' same
    obtain ⟨vip, inside, rfl⟩ := mem_healthPieces member
    obtain ⟨vip', inside', rfl⟩ := mem_healthPieces member'
    obtain ⟨rfl, columns⟩ := told vip inside vip' inside' rest rest' same
    rw [columns]
  have entries := perm_of_sortStrings pieces
  -- some address is in both lists, and its entries have the same columns
  obtain ⟨vip, inside⟩ := exists_mem_of_ne_nil _ (tcpVIPs_ne_nil accepted enabled)
  obtain ⟨vip', inside', same⟩ := mem_map.mp (entries.mem_iff.mp (mem_map_of_mem inside))
  have columns := (told vip inside vip' inside' [] [] (by rw [same])).2
  rw [columns] at entries
  exact ⟨columns, (map_perm_map_iff (healthEntry_injective (columns_ne_nil lb'))).mp entries⟩

/-! ### The sections of a signature -/

def frontendText (frontend : LoadBalancerFrontend) : String :=
  "|".intercalate [loadBalancerFrontendVIP frontend, frontend.protocol.text,
    loadBalancerFrontendBackends frontend]

/-- The section of the frontends. -/
def frontendsText (lb : LoadBalancer) : List Char :=
  List.intercalate ['|', '|'] ((sortStrings (lb.frontends.map frontendText)).map String.toList)

/-- The options in front of those that depend on more than the name. -/
def ownerText (vpc name : String) : List Char :=
  "external_ids:netloom_owner=netloom".toList ++
    '|' :: ("external_ids:netloom_load_balancer=".toList ++ (name.toList ++
      '|' :: ("external_ids:netloom_vpc=".toList ++ (vpc.toList ++
        '|' :: "selection_fields=".toList))))

def affinityOptions (lb : LoadBalancer) : List String :=
  if lb.sessionAffinity then
    let timeout := if lb.affinityTimeout = 0 then 10800 else lb.affinityTimeout.toNat
    [s!"options:affinity_timeout={timeout}", "external_ids:netloom_session_affinity=true"]
  else ["external_ids:netloom_session_affinity=false"]

/-- The options that follow. -/
def choiceText (lb : LoadBalancer) : List Char :=
  List.intercalate ['|'] ((ovnStringSetValues lb.effectiveSelectionFields ::
    affinityOptions lb).map String.toList)

theorem affinityOptions_ne_nil (lb : LoadBalancer) : affinityOptions lb ≠ [] := by
  rw [affinityOptions]
  split <;> simp

/-- Texts joined with bars, where some are made of two parts. -/
theorem toList_join_bars (a b b' c c' d d' : String) {rest : List String} (some : rest ≠ []) :
    ("|".intercalate ([a, b ++ b', c ++ c', d ++ d'] ++ rest)).toList =
      (a.toList ++ '|' :: (b.toList ++ (b'.toList ++ '|' :: (c.toList ++ (c'.toList ++
        '|' :: d.toList))))) ++ intercalate ['|'] ((d' :: rest).map String.toList) := by
  obtain ⟨e, rest, rfl⟩ := exists_cons_of_ne_nil some
  rw [toList_intercalate]
  simp [toList_append, show "|".toList = ['|'] from rfl]

theorem toList_loadBalancerOptions (lb : LoadBalancer) :
    ("|".intercalate (loadBalancerOptions lb)).toList =
      ownerText lb.vpc lb.name ++ choiceText lb :=
  toList_join_bars _ _ _ _ _ _ _ (affinityOptions_ne_nil lb)

theorem toList_join_hashes (a b c d e : String) :
    ("###".intercalate [a, b, c, d, e]).toList = a.toList ++ '#' :: '#' :: '#' :: (b.toList ++
      '#' :: '#' :: '#' :: (c.toList ++ '#' :: '#' :: '#' :: (d.toList ++
        '#' :: '#' :: '#' :: e.toList))) := by
  rw [toList_intercalate]
  simp [show "###".toList = ['#', '#', '#'] from rfl]

theorem toList_frontends (lb : LoadBalancer) : ("||".intercalate (sortStrings
    (lb.frontends.map frontendText))).toList = frontendsText lb := by
  rw [toList_intercalate]
  rfl

theorem toList_loadBalancerSignature (lb : LoadBalancer) : (loadBalancerSignature lb).toList =
    lb.vpc.toList ++ '#' :: '#' :: '#' :: (frontendsText lb ++ '#' :: '#' :: '#' ::
      (ownerText lb.vpc lb.name ++ (choiceText lb ++ '#' :: '#' :: '#' ::
        ((loadBalancerHealthCheckSignature lb).toList ++ '#' :: '#' :: '#' ::
          (",".intercalate (sortStrings lb.subnets)).toList)))) := by
  rw [loadBalancerSignature, toList_join_hashes, toList_loadBalancerOptions, append_assoc,
    ← toList_frontends]
  rfl

/-! ### Telling the sections apart -/

section

variable (accepted : BalancerAccepted lb)

include accepted

theorem notMem_backends {c : Char} (foreign : Foreign c) (left : c ≠ '[') (right : c ≠ ']')
    (comma : c ≠ ',') {frontend : LoadBalancerFrontend} (member : frontend ∈ lb.frontends) :
    c ∉ (loadBalancerFrontendBackends frontend).toList := by
  rw [loadBalancerFrontendBackends, toList_intercalate]
  refine notMem_intercalate (by simpa using comma) fun piece listed => ?_
  obtain ⟨text, inside, rfl⟩ := mem_map.mp listed
  obtain ⟨backend, serves, rfl⟩ := mem_map.mp (mem_sortStrings.mp inside)
  obtain ⟨cidr, contains⟩ :=
    accepted.backends frontend member backend (mem_of_mem_filter serves)
  have plain := Netip.Addr.plain_of_contains contains
  exact notMem_addrPortString foreign left right plain.1 plain.2 _

theorem notMem_frontendsText (plain : PlainVIP lb) : '#' ∉ frontendsText lb := by
  refine notMem_intercalate (by decide) fun piece listed => ?_
  obtain ⟨text, inside, rfl⟩ := mem_map.mp listed
  obtain ⟨frontend, member, rfl⟩ := mem_map.mp (mem_sortStrings.mp inside)
  rw [frontendText, toList_intercalate]
  refine notMem_intercalate (by decide) fun piece part => ?_
  simp only [map_cons, map_nil, mem_cons, not_mem_nil, or_false] at part
  rcases part with rfl | rfl | rfl
  · exact notMem_vip accepted plain foreign_hash (by decide) (by decide) member
  · have ports := (frontends_distinct accepted).1 frontend member
    simp only [Protocol.hasPorts, Bool.or_eq_true, decide_eq_true_eq] at ports
    rcases ports with (same | same) | same <;> rw [same] <;> decide
  · exact notMem_backends accepted foreign_hash (by decide) (by decide) (by decide) member

/-- The fields that a load balancer may select by. -/
def selectionFieldNames : List String :=
  ["ip_src", "ip_dst", "ipv6_src", "ipv6_dst", "tp_src", "tp_dst"]

theorem effectiveSelectionFields_known :
    ∀ field ∈ lb.effectiveSelectionFields, field ∈ selectionFieldNames := by
  have valid := accepted.valid
  simp only [LoadBalancer.validate, bind_eq_ok] at valid
  obtain ⟨_, _, _, _, _, _, _, _, _, _, _, _, _, _, _, fields, _⟩ := valid
  obtain ⟨each, _⟩ := of_distinctFrom fields
  intro field member
  rw [LoadBalancer.effectiveSelectionFields] at member
  split at member
  · -- given fields are one of the names once trimmed
    rw [normalizedLoadBalancerSelectionFields, mem_sortStrings] at member
    obtain ⟨given, listed, rfl⟩ := mem_map.mp (mem_of_mem_filter member)
    obtain ⟨i, found⟩ := getElem?_of_mem listed
    have checked := (each i given found).2
    split at checked
    all_goals first
      | next name => rw [name]; decide
      | cases checked
  · split at member
    · exact absurd member not_mem_nil
    · split at member
      all_goals
        rw [mem_singleton] at member
        subst member
        decide

theorem notMem_choiceText : '#' ∉ choiceText lb := by
  have digits : ∀ n, '#' ∉ Nat.toDigits 10 n := fun n =>
    notMem_toDigits 10 (by omega) n '#' foreign_hash.noDigit
  refine notMem_intercalate (by decide) fun piece listed => ?_
  rw [map_cons, mem_cons] at listed
  rcases listed with rfl | listed
  · have values : '#' ∉ intercalate ",".toList ((sortStrings lb.effectiveSelectionFields).map
        (String.toList ∘ ovnStringValue)) := by
      refine notMem_intercalate (by decide) fun piece listed => ?_
      obtain ⟨field, inside, rfl⟩ := mem_map.mp listed
      have known := effectiveSelectionFields_known accepted field
        (mem_sortStrings.mp inside)
      simp only [selectionFieldNames, mem_cons, not_mem_nil, or_false] at known
      rcases known with rfl | rfl | rfl | rfl | rfl | rfl <;> decide
    simpa [ovnStringSetValues, toList_intercalate] using values
  · rw [affinityOptions] at listed
    split at listed
    · simp only [map_cons, map_nil, mem_cons, not_mem_nil, or_false] at listed
      rcases listed with rfl | rfl
      · simp [toString, digits]
      · decide
    · simp only [map_cons, map_nil, mem_cons, not_mem_nil, or_false] at listed
      rw [listed]
      decide

end

/-- A key and a signature together give the VPC and the name. -/
theorem tag_of_signature (key : loadBalancerStateKey lb = loadBalancerStateKey lb')
    (equal : loadBalancerSignature lb = loadBalancerSignature lb') :
    lb.vpc = lb'.vpc ∧ lb.name = lb'.name := by
  have keys := congrArg String.toList key
  have texts := congrArg String.toList equal
  rw [toList_loadBalancerSignature, toList_loadBalancerSignature] at texts
  simp only [loadBalancerStateKey, stateKey, toList_append, append_assoc] at keys
  -- the VPC ends with a zero byte in the key and with a hash in the signature
  have vpc : lb.vpc.toList = lb'.vpc.toList :=
    eq_of_two_cuts (by decide) (show lb.vpc.toList ++ '\x00' :: lb.name.toList =
      lb'.vpc.toList ++ '\x00' :: lb'.name.toList from keys) texts
  rw [vpc] at keys
  exact ⟨toList_injective vpc, toList_injective (append_cancel_left
    (append_cancel_left keys))⟩

section

variable (accepted : BalancerAccepted lb) (accepted' : BalancerAccepted lb')

include accepted

theorem head_healthCheckSignature (enabled : lb.healthCheck.enabled) :
    ∃ rest, (loadBalancerHealthCheckSignature lb).toList = 'L' :: rest := by
  obtain ⟨piece, rest, shape⟩ := exists_cons_of_ne_nil (healthPieces_ne_nil accepted enabled)
  obtain ⟨vip, _, text⟩ := mem_healthPieces (shape ▸ mem_cons_self : piece ∈ healthPieces lb)
  rw [toList_healthEntry (columns_ne_nil lb)] at text
  have head : ∃ tail, healthHead = 'L' :: tail := by
    rw [healthHead]
    exact ⟨_, rfl⟩
  obtain ⟨tail, head⟩ := head
  rw [toList_healthCheckSignature enabled, shape, ← text, head]
  cases rest with
  | nil => exact ⟨_, by rw [intercalate_singleton, cons_append]⟩
  | cons second rest => exact ⟨_, by rw [intercalate_cons_cons, cons_append,
      cons_append, cons_append]⟩

include accepted'

/-- The section of the health check says whether there is one, and which. -/
theorem health_of_section (plain : PlainVIP lb) (plain' : PlainVIP lb') (vpc : lb.vpc = lb'.vpc)
    (name : lb.name = lb'.name) {final final' : List Char}
    (equal : (loadBalancerHealthCheckSignature lb).toList ++ '#' :: final =
      (loadBalancerHealthCheckSignature lb').toList ++ '#' :: final') :
    lb.healthCheck.enabled = lb'.healthCheck.enabled ∧
      (lb.healthCheck.enabled → SameHealthCheck lb lb') := by
  have disabled : ∀ {lb : LoadBalancer}, lb.healthCheck.enabled = false →
      (loadBalancerHealthCheckSignature lb).toList = 'd' :: "isabled".toList := by
    intro lb off
    rw [loadBalancerHealthCheckSignature, off, Bool.not_false, if_pos rfl]
    decide
  cases on : lb.healthCheck.enabled <;> cases on' : lb'.healthCheck.enabled
  · exact ⟨rfl, fun on => nomatch on⟩
  · obtain ⟨rest, head⟩ := head_healthCheckSignature accepted' on'
    rw [disabled on, head] at equal
    exact absurd (cons.inj equal).1 (by decide)
  · obtain ⟨rest, head⟩ := head_healthCheckSignature accepted on
    rw [disabled on', head] at equal
    exact absurd (cons.inj equal).1 (by decide)
  · refine ⟨rfl, fun _ => sameHealthCheck_of_text accepted accepted' plain plain' vpc name on on'
      ?_ ?_ equal⟩
    all_goals
      rintro ⟨rest, starts⟩
      exact absurd (cons.inj starts).1 (by decide)

/-- Two versions with one signature ask for the same health checks. -/
theorem health_of_signature (plain : PlainVIP lb) (plain' : PlainVIP lb')
    (key : loadBalancerStateKey lb = loadBalancerStateKey lb')
    (equal : loadBalancerSignature lb = loadBalancerSignature lb') :
    lb.healthCheck.enabled = lb'.healthCheck.enabled ∧
      (lb.healthCheck.enabled → SameHealthCheck lb lb') := by
  obtain ⟨vpc, name⟩ := tag_of_signature key equal
  have texts := congrArg String.toList equal
  rw [toList_loadBalancerSignature, toList_loadBalancerSignature, vpc, name] at texts
  have sections := append_cancel_left texts
  simp only [cons.injEq, true_and] at sections
  have others := (cut_injective (notMem_frontendsText accepted plain)
    (notMem_frontendsText accepted' plain') sections).2
  simp only [cons.injEq, true_and] at others
  have health := (cut_injective (notMem_choiceText accepted) (notMem_choiceText accepted')
    (append_cancel_left others)).2
  simp only [cons.injEq, true_and] at health
  exact health_of_section accepted accepted' plain plain' vpc name health

end

end Netloom.Ovn
