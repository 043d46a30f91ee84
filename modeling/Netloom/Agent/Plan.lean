import Netloom.Dataplane.Evaluator
import Netloom.Dataplane.PolicyPlan

/-!
# Planning an endpoint's policy update and its risk

Before an endpoint's entries are replaced the agent plans the update and counts
the entries of it that could take traffic away: added and updated entries that
deny or reject, and deleted entries that allow. A plan without any of them is
not blocking. The gate reads the actions of the entries only.
-/
namespace Netloom.Agent

open Dataplane List Checked

/-! ### The plan -/

structure PolicyEndpointPlanRisk where
  blockingChange : Bool := false
  addedDenyEntries : Nat := 0
  addedRejectEntries : Nat := 0
  updatedDenyEntries : Nat := 0
  updatedRejectEntries : Nat := 0
  deletedAllowEntries : Nat := 0
  deriving DecidableEq, Repr

structure PolicyEndpointPlan where
  endpointID : String
  currentEntries : Nat
  desiredEntries : Nat
  stats : PolicyUpdateStats
  changed : Bool
  risk : PolicyEndpointPlanRisk
  addedEntries : List PolicyMapEntry
  updatedEntries : List PolicyMapEntry
  deletedEntries : List PolicyMapEntry
  unchangedEntries : List PolicyMapEntry
  deriving DecidableEq, Repr

def policyEntryDenies (entry : PolicyMapEntry) : Bool := entry.value.deny ≠ 0

def policyEntryRejects (entry : PolicyMapEntry) : Bool := entry.value.reject ≠ 0

def policyEntriesForDeletedKeys (current : List PolicyMapEntry) (keys : List PolicyKey) :
    List PolicyMapEntry :=
  keys.filterMap (entryMap current).lookup

def policyEndpointPlanRisk (current : List PolicyMapEntry) (plan : PolicyUpdatePlan)
    (deletedEntries : List PolicyMapEntry) : PolicyEndpointPlanRisk :=
  let byKey := entryMap current
  -- A key the map does not have yields the zero entry, which neither denies nor rejects.
  let old (action : PolicyMapEntry → Bool) (entry : PolicyMapEntry) : Bool :=
    (byKey.lookup entry.key).any action
  let addedDeny := plan.add.countP policyEntryDenies
  let addedReject := plan.add.countP policyEntryRejects
  let updatedDeny := plan.update.countP fun entry =>
    !old policyEntryDenies entry && policyEntryDenies entry
  let updatedReject := plan.update.countP fun entry =>
    !old policyEntryRejects entry && policyEntryRejects entry
  let deletedAllow := deletedEntries.countP fun entry => !policyEntryDenies entry
  { blockingChange := addedDeny > 0 || addedReject > 0 || updatedDeny > 0 || updatedReject > 0 ||
      deletedAllow > 0
    addedDenyEntries := addedDeny
    addedRejectEntries := addedReject
    updatedDenyEntries := updatedDeny
    updatedRejectEntries := updatedReject
    deletedAllowEntries := deletedAllow }

/-- The plan for one endpoint. The store may not offer to read entries. -/
def planPolicyEndpointEntries (endpointID : String) (desired : List PolicyMapEntry)
    (store : Option (String → List PolicyMapEntry)) : Except String PolicyEndpointPlan :=
  match store with
  | none => .error "policy endpoint entries are not available"
  | some entries => do
    let desired ← context
      (fun err => s!"canonicalize policy map entries for endpoint {endpointID}: {err}")
      (canonicalPolicyMapEntries desired)
    let current := entries endpointID
    let plan := planPolicyUpdate current desired
    let stats := plan.stats
    let deletedEntries := policyEntriesForDeletedKeys current plan.delete
    pure {
      endpointID
      currentEntries := current.length
      desiredEntries := desired.length
      stats
      changed := stats.added ≠ 0 || stats.updated ≠ 0 || stats.deleted ≠ 0
      risk := policyEndpointPlanRisk current plan deletedEntries
      addedEntries := plan.add
      updatedEntries := plan.update
      deletedEntries
      unchangedEntries := plan.unchanged }

/-! ### What a plan that is not blocking says about the entries -/

/-- The actions of an updated entry that the gate lets through. -/
def ActionsKept (old new : PolicyMapEntry) : Prop :=
  (policyEntryDenies new = true → policyEntryDenies old = true) ∧
    (policyEntryRejects new = true → policyEntryRejects old = true)

/-- The gate in terms of the two entry lists. -/
structure NotBlocking (current desired : List PolicyMapEntry) : Prop where
  added : ∀ entry ∈ desired, findEntry current entry.key = none →
    policyEntryDenies entry = false ∧ policyEntryRejects entry = false
  updated : ∀ old ∈ current, ∀ new ∈ desired, old.key = new.key →
    policyMapEntriesSemanticsEqual old new = false → ActionsKept old new
  deleted : ∀ entry ∈ current, findEntry desired entry.key = none → policyEntryDenies entry = true

variable {current desired : List PolicyMapEntry}

theorem mem_policyEntriesForDeletedKeys (currentNodup : KeysNodup current)
    (desiredNodup : KeysNodup desired) {entry : PolicyMapEntry} :
    entry ∈ policyEntriesForDeletedKeys current (planPolicyUpdate current desired).delete ↔
      entry ∈ current ∧ findEntry desired entry.key = none := by
  simp only [policyEntriesForDeletedKeys, mem_filterMap,
    mem_plan_delete currentNodup desiredNodup, lookup_entryMap currentNodup]
  constructor
  · rintro ⟨key, ⟨_, missing⟩, found⟩
    obtain ⟨inside, rfl⟩ := findEntry_some found
    exact ⟨inside, missing⟩
  · rintro ⟨inside, missing⟩
    exact ⟨entry.key, ⟨⟨entry, inside, rfl⟩, missing⟩, findEntry_eq_some currentNodup inside⟩

theorem blockingChange_eq_false_iff (currentNodup : KeysNodup current)
    (desiredNodup : KeysNodup desired) :
    (policyEndpointPlanRisk current (planPolicyUpdate current desired)
      (policyEntriesForDeletedKeys current (planPolicyUpdate current desired).delete)).blockingChange
        = false ↔ NotBlocking current desired := by
  simp only [policyEndpointPlanRisk, Bool.or_eq_false_iff, decide_eq_false_iff_not, gt_iff_lt,
    countP_pos_iff, not_exists, not_and, Bool.not_eq_true, Bool.and_eq_true, Bool.not_eq_true',
    mem_plan_add currentNodup desiredNodup, mem_plan_update currentNodup desiredNodup,
    lookup_entryMap currentNodup, mem_policyEntriesForDeletedKeys currentNodup desiredNodup]
  constructor
  · rintro ⟨⟨⟨⟨addedDeny, addedReject⟩, updatedDeny⟩, updatedReject⟩, deletedAllow⟩
    refine ⟨fun entry inside missing => ⟨addedDeny entry ⟨inside, missing⟩,
      addedReject entry ⟨inside, missing⟩⟩, ?_, ?_⟩
    · intro old inOld new inNew same differ
      have found : findEntry current new.key = some old := same ▸ findEntry_eq_some currentNodup inOld
      refine ⟨fun denies => ?_, fun rejects => ?_⟩
      · by_contra kept
        have := updatedDeny new ⟨inNew, old, inOld, same, differ⟩
        simp_all
      · by_contra kept
        have := updatedReject new ⟨inNew, old, inOld, same, differ⟩
        simp_all
    · intro entry inside missing
      simpa using deletedAllow entry ⟨inside, missing⟩
  · rintro ⟨added, updated, deleted⟩
    refine ⟨⟨⟨⟨fun entry new => (added entry new.1 new.2).1, fun entry new =>
      (added entry new.1 new.2).2⟩, ?_⟩, ?_⟩, ?_⟩
    · rintro new ⟨inNew, old, inOld, same, differ⟩ allowed
      rw [← same, findEntry_eq_some currentNodup inOld] at allowed
      have kept := (updated old inOld new inNew same differ).1
      simp_all
    · rintro new ⟨inNew, old, inOld, same, differ⟩ allowed
      rw [← same, findEntry_eq_some currentNodup inOld] at allowed
      have kept := (updated old inOld new inNew same differ).2
      simp_all
    · rintro entry ⟨inside, missing⟩
      simp [deleted entry inside missing]

variable {wanted : List PolicyMapEntry}

/-- What a plan that was made says: its risk is that of the canonical desired entries. -/
theorem blockingChange_of_planned {endpointID : String} {store : String → List PolicyMapEntry}
    {plan : PolicyEndpointPlan}
    (planned : planPolicyEndpointEntries endpointID desired (some store) = .ok plan)
    (canonical : canonicalPolicyMapEntries desired = .ok wanted)
    (nodup : KeysNodup (store endpointID)) :
    plan.risk.blockingChange = false ↔ NotBlocking (store endpointID) wanted := by
  have wantedNodup := (canonicalPolicyMapEntries_spec canonical).nodup
  simp only [planPolicyEndpointEntries, canonical, bind_eq_ok, context_eq_ok,
    Except.ok.injEq, pure_eq_ok, exists_eq_left'] at planned
  rw [← planned]
  exact blockingChange_eq_false_iff nodup wantedNodup

/-! ### Updates that take no packet away -/

/-- Every packet allowed on the one list is allowed on the other. -/
def KeepsAllowed (host : Endian) (current desired : List PolicyMapEntry) : Prop :=
  ∀ packet, (evaluate host current packet).verdict = .allow →
    (evaluate host desired packet).verdict = .allow

/-- An update under one key that cannot take a packet away, whatever the other entries are.
An allowing entry goes on matching what it matched, with no lower priority; a blocking
entry matched before all it matches now, with no lower priority. -/
def SafeUpdate (host : Endian) (old new : PolicyMapEntry) : Prop :=
  ∀ packet, alwaysAllowed packet = false →
    (entryVerdict old.value = .allow → entryMatches host old packet = true →
      entryMatches host new packet = true ∧ entryPriority old.value ≤ entryPriority new.value) ∧
    (entryVerdict new.value ≠ .allow → entryMatches host new packet = true →
      entryMatches host old packet = true ∧ entryPriority new.value ≤ entryPriority old.value)

theorem entryVerdict_eq_allow (entry : PolicyMapEntry) : entryVerdict entry.value = .allow ↔
    policyEntryDenies entry = false ∧ policyEntryRejects entry = false := by
  simp only [entryVerdict, policyEntryDenies, policyEntryRejects, ne_eq, decide_eq_false_iff_not,
    not_not]
  split
  · simp_all
  · split <;> simp_all

variable {old new : PolicyMapEntry}

theorem ActionsKept.allows (kept : ActionsKept old new) (allows : entryVerdict old.value = .allow) :
    entryVerdict new.value = .allow := by
  rw [entryVerdict_eq_allow] at allows ⊢
  simp only [← Bool.not_eq_true] at allows ⊢
  exact ⟨fun denies => allows.1 (kept.1 denies), fun rejects => allows.2 (kept.2 rejects)⟩

/-- Entries that differ in their counters and rule reference only. -/
structure SameMeaning (old new : PolicyMapEntry) : Prop where
  verdict : entryVerdict old.value = entryVerdict new.value
  priority : entryPriority old.value = entryPriority new.value
  applies : ∀ host packet, entryMatches host old packet = entryMatches host new packet

theorem sameMeaning_of_semanticsEqual (sameKey : old.key = new.key)
    (equal : policyMapEntriesSemanticsEqual old new) : SameMeaning old new := by
  simp only [policyMapEntriesSemanticsEqual, policyEntrySemanticsEqual, Bool.and_eq_true, beq_iff_eq,
    PolicyEntry.mk.injEq, and_true, decide_eq_true_eq] at equal
  obtain ⟨⟨deny, l4, _, _, precedence, _, reject, requireIdentity⟩, cidr⟩ := equal
  refine ⟨?_, ?_, fun host packet => ?_⟩
  · simp [entryVerdict, deny, reject]
  · simp [entryPriority, l4, precedence]
  · simp [entryMatches, sameKey, cidr, requireIdentity]

variable {host : Endian}

theorem safeUpdate_of_sameMeaning (same : SameMeaning old new) : SafeUpdate host old new := by
  intro packet _
  exact ⟨fun _ applies => ⟨same.applies host packet ▸ applies, same.priority.le⟩,
    fun _ applies => ⟨same.applies host packet ▸ applies, same.priority.ge⟩⟩

theorem keepsAllowed_of_safe (gate : NotBlocking current desired)
    (safe : ∀ old ∈ current, ∀ new ∈ desired, old.key = new.key → SafeUpdate host old new) :
    KeepsAllowed host current desired := by
  intro packet allowed
  rw [evaluate_allow_iff] at allowed ⊢
  cases always : alwaysAllowed packet with
  | true => exact .inl rfl
  | false =>
    simp only [always, Bool.false_eq_true, false_or] at allowed ⊢
    obtain ⟨old, inOld, applies, allows, above⟩ := allowed
    -- The allowing entry is not deleted, so it has a successor under its key.
    obtain ⟨new, found⟩ : ∃ new, findEntry desired old.key = some new := by
      by_contra gone
      have denies := gate.deleted old inOld (by simpa [Option.eq_none_iff_forall_ne_some] using gone)
      rw [(entryVerdict_eq_allow old).mp allows |>.1] at denies
      cases denies
    obtain ⟨inNew, sameKey⟩ := findEntry_some found
    have actions : ∀ before ∈ current, ∀ next ∈ desired, before.key = next.key →
        entryVerdict before.value = .allow → entryVerdict next.value = .allow := by
      intro before inBefore next inNext same allows
      cases equal : policyMapEntriesSemanticsEqual before next with
      | true => exact (sameMeaning_of_semanticsEqual same equal).verdict ▸ allows
      | false => exact (gate.updated before inBefore next inNext same equal).allows allows
    have kept := (safe old inOld new inNew sameKey.symm packet always).1 allows applies
    refine ⟨new, inNew, kept.1, actions old inOld new inNew sameKey.symm allows, ?_⟩
    intro other inOther applies' blocks
    -- A blocking entry is no new one, and its predecessor was outranked.
    obtain ⟨before, foundBefore⟩ : ∃ before, findEntry current other.key = some before := by
      by_contra missing
      have added := gate.added other inOther
        (by simpa [Option.eq_none_iff_forall_ne_some] using missing)
      exact blocks ((entryVerdict_eq_allow other).mpr added)
    obtain ⟨inBefore, sameKey'⟩ := findEntry_some foundBefore
    have lower := (safe before inBefore other inOther sameKey' packet always).2 blocks applies'
    have below := above before inBefore lower.1 fun allows =>
      blocks (actions before inBefore other inOther sameKey' allows)
    omega

/-- The order of the entries does not matter to what is allowed. -/
theorem keepsAllowed_congr (same : ∀ entry, entry ∈ wanted ↔ entry ∈ desired) :
    KeepsAllowed host current wanted ↔ KeepsAllowed host current desired := by
  simp [KeepsAllowed, evaluate_allow_iff host wanted, evaluate_allow_iff host desired, same]

/-! ### Every other update can take a packet away -/

/-- An entry of another key that matches the packet, with the priority of the given entry. -/
def bystander (packet : Packet) (deny : BitVec 8) (entry : PolicyMapEntry) : PolicyMapEntry where
  key := {
    prefixLen := staticPrefixBits
    remoteIdentity := 0
    direction := packet.direction
    protocol := if entry.key.protocol = 0 then 1 else 0
    destPortBE := 0 }
  value := { entry.value with
    deny, reject := 0, requireIdentity := 0, packets := 0, bytes := 0 }
  remoteCIDR := .invalid
  ruleRef := ""

section Bystander

variable (packet : Packet) (deny : BitVec 8) (entry : PolicyMapEntry)

theorem key_bystander : entry.key ≠ (bystander packet deny entry).key := by
  intro same
  have protocol : entry.key.protocol = if entry.key.protocol = 0 then 1 else 0 :=
    congrArg PolicyKey.protocol same
  split at protocol
  · next zero => rw [zero] at protocol; exact absurd protocol (by decide)
  · next other => exact other protocol

@[simp] theorem entryMatches_bystander (host : Endian) :
    entryMatches host (bystander packet deny entry) packet := by
  simp [entryMatches, bystander, l4Matches, Netip.Prefix.isValid]

@[simp] theorem entryPriority_bystander :
    entryPriority (bystander packet deny entry).value = entryPriority entry.value := rfl

@[simp] theorem entryVerdict_bystander :
    entryVerdict (bystander packet deny entry).value = if deny ≠ 0 then .drop else .allow := by
  simp [entryVerdict, bystander]

end Bystander

/-- Replacing one entry by another of its key is planned as not blocking if the actions
are kept. -/
theorem planned_replacement (endpointID : String) {rest : List PolicyMapEntry}
    (sameKey : old.key = new.key) (kept : ActionsKept old new) (nodup : KeysNodup (old :: rest)) :
    ∃ plan, planPolicyEndpointEntries endpointID (new :: rest) (some fun _ => old :: rest) = .ok plan ∧
      plan.risk.blockingChange = false := by
  have newNodup : KeysNodup (new :: rest) := by
    simpa only [KeysNodup, map_cons, sameKey] using nodup
  have canonical := canonicalPolicyMapEntries_of_nodup newNodup
  obtain ⟨plan, planned⟩ : ∃ plan, planPolicyEndpointEntries endpointID (new :: rest)
      (some fun _ => old :: rest) = .ok plan := by
    simp only [planPolicyEndpointEntries, canonical]
    exact ⟨_, rfl⟩
  refine ⟨plan, planned, (blockingChange_of_planned planned canonical nodup).mpr ?_⟩
  -- The keys of the two lists are the same, so nothing is added and nothing deleted.
  have keys : ∀ key, (∃ entry ∈ old :: rest, entry.key = key) ↔
      ∃ entry ∈ new :: rest, entry.key = key := by
    intro key
    simp [sameKey]
  refine ⟨fun entry inside missing => ?_, fun before inBefore next inNext same differ => ?_,
    fun entry inside missing => ?_⟩
  · obtain ⟨before, inBefore, same⟩ := (keys entry.key).mpr ⟨entry, mem_sortEntries.mp inside, rfl⟩
    exact absurd same (findEntry_none.mp missing before inBefore)
  · rw [mem_sortEntries] at inNext
    have apart := (nodup_cons.mp nodup).1
    rcases mem_cons.mp inBefore with rfl | earlier
    · grind
    · rcases mem_cons.mp inNext with rfl | later
      · exact absurd (mem_map.mpr ⟨before, earlier, same.trans sameKey.symm⟩) apart
      · -- Two entries of the rest under one key are one entry.
        obtain rfl := eq_of_key_eq (nodup_cons.mp nodup).2 earlier later same
        exact ⟨id, id⟩
  · obtain ⟨next, inNext, same⟩ := (keys entry.key).mp ⟨entry, inside, rfl⟩
    exact absurd same (findEntry_none.mp missing next (mem_sortEntries.mpr inNext))

/-- An update that is not safe loses a packet beside at most one other entry. -/
theorem exists_lost_packet (sameKey : old.key = new.key) (kept : ActionsKept old new)
    (unsafeUpdate : ¬ SafeUpdate host old new) :
    ∃ rest, KeysNodup (old :: rest) ∧ ¬ KeepsAllowed host (old :: rest) (new :: rest) := by
  simp only [SafeUpdate, not_forall] at unsafeUpdate
  obtain ⟨packet, always, broken⟩ := unsafeUpdate
  have nodup : ∀ deny, KeysNodup [old, bystander packet deny new] := by
    intro deny
    have apart := key_bystander packet deny new
    simpa [KeysNodup, sameKey] using apart
  rw [not_and_or] at broken
  rcases broken with lost | gained
  · simp only [Classical.not_imp] at lost
    obtain ⟨allows, applies, lost⟩ := lost
    have allows' := kept.allows allows
    cases applies' : entryMatches host new packet with
    | false =>
      -- The new entry no longer matches, and nothing else does.
      refine ⟨[], by simp [KeysNodup], fun keeps => ?_⟩
      have allowed := keeps packet
      simp [evaluate_allow_iff, always, applies, applies', allows] at allowed
    | true =>
      -- It fell behind a deny that has the priority it is updated to.
      have lower : entryPriority new.value < entryPriority old.value := by
        rw [applies'] at lost
        simpa using lost
      refine ⟨[bystander packet 1 new], nodup 1, fun keeps => ?_⟩
      have allowed := keeps packet
      simp [evaluate_allow_iff, always, applies, applies', allows, allows', lower] at allowed
  · simp only [Classical.not_imp] at gained
    obtain ⟨blocks, applies, gained⟩ := gained
    have blocks' : entryVerdict old.value ≠ .allow := fun allows => blocks (kept.allows allows)
    -- The blocking entry caught up with an allow that has the priority it is updated to.
    refine ⟨[bystander packet 0 new], nodup 0, fun keeps => ?_⟩
    have allowed := keeps packet
    have above : entryMatches host old packet →
        entryPriority old.value < entryPriority new.value := by
      intro applies'
      rw [applies'] at gained
      simpa using gained
    simp [evaluate_allow_iff, always, applies, blocks, blocks'] at allowed
    exact absurd allowed (by simpa using above)

/-! ### The gate -/

/-- A plan that is not blocking takes no packet away if the current keys are distinct and
every update it makes under a key is safe. The gate itself sees the actions only: for
every update that keeps the actions and is not safe there are entries beside which the
plan is not blocking and a packet is lost. -/
theorem risk_gate_keeps_allowed (host : Endian) :
    (∀ (endpointID : String) (store : String → List PolicyMapEntry)
      (desired wanted : List PolicyMapEntry) (plan : PolicyEndpointPlan),
      planPolicyEndpointEntries endpointID desired (some store) = .ok plan →
      canonicalPolicyMapEntries desired = .ok wanted →
      plan.risk.blockingChange = false →
      KeysNodup (store endpointID) →
      (∀ old ∈ store endpointID, ∀ new ∈ wanted, old.key = new.key →
        policyMapEntriesSemanticsEqual old new = false → SafeUpdate host old new) →
      KeepsAllowed host (store endpointID) wanted ∧
        (KeysNodup desired → KeepsAllowed host (store endpointID) desired)) ∧
    ∀ (endpointID : String) (old new : PolicyMapEntry), old.key = new.key → ActionsKept old new →
      ¬ SafeUpdate host old new →
      ∃ rest plan, KeysNodup (old :: rest) ∧
        planPolicyEndpointEntries endpointID (new :: rest) (some fun _ => old :: rest) = .ok plan ∧
        plan.risk.blockingChange = false ∧
        ¬ KeepsAllowed host (old :: rest) (new :: rest) := by
  constructor
  · intro endpointID store desired wanted plan planned canonical gate nodup safe
    have notBlocking := (blockingChange_of_planned planned canonical nodup).mp gate
    have keeps : KeepsAllowed host (store endpointID) wanted := by
      refine keepsAllowed_of_safe notBlocking fun old inOld new inNew same => ?_
      cases equal : policyMapEntriesSemanticsEqual old new with
      | true => exact safeUpdate_of_sameMeaning (sameMeaning_of_semanticsEqual same equal)
      | false => exact safe old inOld new inNew same equal
    refine ⟨keeps, fun desiredNodup => ?_⟩
    -- Distinct desired entries are the canonical ones in another order.
    rw [canonicalPolicyMapEntries_of_nodup desiredNodup] at canonical
    cases canonical
    exact (keepsAllowed_congr fun entry => mem_sortEntries).mp keeps
  · intro endpointID old new sameKey kept unsafeUpdate
    obtain ⟨rest, nodup, lost⟩ := exists_lost_packet sameKey kept unsafeUpdate
    obtain ⟨plan, planned, gate⟩ := planned_replacement endpointID sameKey kept nodup
    exact ⟨rest, plan, nodup, planned, gate, lost⟩

/-- Allows all ingress traffic, at the given precedence. -/
def allowIngress (precedence : BitVec 32) : PolicyMapEntry where
  key := { prefixLen := 40, remoteIdentity := 0, direction := 1, protocol := 0, destPortBE := 0 }
  value := { deny := 0, l4PrefixLen := 0, stateful := 0, log := 0, precedence, ruleCookie := 7,
             reject := 0, requireIdentity := 0, packets := 0, bytes := 0 }
  remoteCIDR := .invalid
  ruleRef := "web/allow"

/-- Denies ingress TCP at a lower precedence. -/
def denyTCP : PolicyMapEntry where
  key := { prefixLen := 48, remoteIdentity := 0, direction := 1, protocol := 6, destPortBE := 0 }
  value := { deny := 1, l4PrefixLen := 8, stateful := 0, log := 0, precedence := 100,
             ruleCookie := 9, reject := 0, requireIdentity := 0, packets := 0, bytes := 0 }
  remoteCIDR := .invalid
  ruleRef := "web/deny"

def tcpPacket : Packet where
  sourcePort := 40000
  remoteIP := .v4 0x0A000001
  direction := 1
  protocol := 6
  destPort := 443
  bytes := 60

/-- Lowering the precedence of the allow is an update of an allow by an allow, so the plan
is not blocking, but TCP is dropped after it. -/
theorem lowered_allow_loses_packet :
    ∃ plan, planPolicyEndpointEntries "prod/web" [allowIngress 50, denyTCP]
        (some fun _ => [allowIngress 200, denyTCP]) = .ok plan ∧
      plan.risk.blockingChange = false ∧
      (evaluate .little [allowIngress 200, denyTCP] tcpPacket).verdict = .allow ∧
      (evaluate .little [allowIngress 50, denyTCP] tcpPacket).verdict = .drop :=
  ⟨_, rfl, by decide, by decide, by decide⟩

private theorem safeUpdate_raised : SafeUpdate .little (allowIngress 200) (allowIngress 250) := by
  intro packet _
  refine ⟨fun _ applies => ⟨applies, by decide⟩, fun blocks => absurd ?_ blocks⟩
  decide

theorem raised_allow_keeps_packet :
    ∃ plan, planPolicyEndpointEntries "prod/web" [allowIngress 250, denyTCP]
        (some fun _ => [allowIngress 200, denyTCP]) = .ok plan ∧
      plan.risk.blockingChange = false ∧
      KeepsAllowed .little [allowIngress 200, denyTCP] [allowIngress 250, denyTCP] := by
  refine ⟨_, rfl, by decide, ?_⟩
  refine ((risk_gate_keeps_allowed .little).1 "prod/web" (fun _ => [allowIngress 200, denyTCP])
    [allowIngress 250, denyTCP] [allowIngress 250, denyTCP] _ rfl (by rfl) (by decide)
    (by simp [KeysNodup, allowIngress, denyTCP]) ?_).1
  simp only [mem_cons, not_mem_nil, or_false, forall_eq_or_imp, forall_eq]
  exact ⟨⟨fun _ _ => safeUpdate_raised, fun same => absurd same (by decide)⟩,
    fun same => absurd same (by decide), fun _ differ => absurd differ (by decide)⟩

end Netloom.Agent
