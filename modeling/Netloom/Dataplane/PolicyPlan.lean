import Netloom.Dataplane.PolicyMap

/-!
# Plans that turn one entry list into another, and their events

A store replaces the entries of an endpoint by a plan: the entries to add and to
update, the keys to delete, and the entries that stay. Entries are compared by
what they decide, so a difference in the counters is no change.
-/
namespace Netloom.Dataplane

open List Checked Fold Function
open Netip (Prefix)
open Model (Time)

/-! ### Canonical lists -/

/-- Strictly ordered by key. -/
def Canonical (entries : List PolicyMapEntry) : Prop :=
  entries.Pairwise fun a b => policyKeyBefore a.key b.key = true

instance (entries : List PolicyMapEntry) : Decidable (Canonical entries) :=
  inferInstanceAs (Decidable (List.Pairwise _ _))

/-- The comparison of keys as one number. -/
def keyNumber (key : PolicyKey) : Nat :=
  (((key.prefixLen.toNat * 2 ^ 32 + key.remoteIdentity.toNat) * 2 ^ 8 + key.direction.toNat) * 2 ^ 8 +
    key.protocol.toNat) * 2 ^ 16 + key.destPortBE.toNat

theorem policyKeyBefore_iff (a b : PolicyKey) :
    policyKeyBefore a b ↔ keyNumber a < keyNumber b := by
  have identityA := a.remoteIdentity.isLt
  have identityB := b.remoteIdentity.isLt
  have directionA := a.direction.isLt
  have directionB := b.direction.isLt
  have protocolA := a.protocol.isLt
  have protocolB := b.protocol.isLt
  have portA := a.destPortBE.isLt
  have portB := b.destPortBE.isLt
  simp only [policyKeyBefore, keyNumber, ne_eq, ← BitVec.toNat_inj]
  split
  · simp only [decide_eq_true_eq, BitVec.lt_def]
    omega
  split
  · simp only [decide_eq_true_eq, BitVec.lt_def]
    omega
  split
  · simp only [decide_eq_true_eq, BitVec.lt_def]
    omega
  split
  · simp only [decide_eq_true_eq, BitVec.lt_def]
    omega
  · simp only [decide_eq_true_eq, BitVec.lt_def]
    omega

theorem keyNumber_injective {a b : PolicyKey} (same : keyNumber a = keyNumber b) : a = b := by
  obtain ⟨prefixA, identityA, directionA, protocolA, portA⟩ := a
  obtain ⟨prefixB, identityB, directionB, protocolB, portB⟩ := b
  have := identityA.isLt
  have := identityB.isLt
  have := directionA.isLt
  have := directionB.isLt
  have := protocolA.isLt
  have := protocolB.isLt
  have := portA.isLt
  have := portB.isLt
  simp only [keyNumber] at same
  simp only [PolicyKey.mk.injEq, ← BitVec.toNat_inj]
  omega

private theorem sortsBy_iff (a b : PolicyMapEntry) :
    ¬ policyKeyBefore b.key a.key ↔ keyNumber a.key ≤ keyNumber b.key := by
  rw [policyKeyBefore_iff, Nat.not_lt]

variable {entries : List PolicyMapEntry}

theorem Canonical.nodup (canonical : Canonical entries) : KeysNodup entries := by
  refine pairwise_map.mpr (List.Pairwise.imp ?_ canonical)
  intro a b before same
  rw [policyKeyBefore_iff, same] at before
  exact Nat.lt_irrefl _ before

/-- Canonical lists with the same entries are equal. -/
theorem Canonical.eq_of_mem_iff {left right : List PolicyMapEntry} (first : Canonical left)
    (second : Canonical right) (same : ∀ entry, entry ∈ left ↔ entry ∈ right) : left = right := by
  have irrefl : Std.Irrefl fun a b : PolicyMapEntry => policyKeyBefore a.key b.key :=
    ⟨fun a before => by rw [policyKeyBefore_iff] at before; omega⟩
  have antisymm : Std.Antisymm fun a b : PolicyMapEntry => policyKeyBefore a.key b.key :=
    ⟨fun a b before after => by rw [policyKeyBefore_iff] at before after; omega⟩
  exact List.Pairwise.eq_of_mem_iff first second same

theorem mem_sortEntries {entry : PolicyMapEntry} : entry ∈ sortEntries entries ↔ entry ∈ entries :=
  (perm_insertionSort _ entries).mem_iff

theorem perm_sortEntries (entries : List PolicyMapEntry) : (sortEntries entries).Perm entries :=
  perm_insertionSort _ entries

theorem perm_sortKeys (keys : List PolicyKey) : (sortKeys keys).Perm keys :=
  perm_insertionSort _ keys

theorem canonical_sortEntries (nodup : KeysNodup entries) : Canonical (sortEntries entries) := by
  have total : Std.Total fun a b : PolicyMapEntry => ¬ policyKeyBefore b.key a.key :=
    ⟨fun a b => by rw [sortsBy_iff, sortsBy_iff]; omega⟩
  have trans : IsTrans PolicyMapEntry fun a b => ¬ policyKeyBefore b.key a.key :=
    ⟨fun a b c => by rw [sortsBy_iff, sortsBy_iff, sortsBy_iff]; omega⟩
  have sorted := pairwise_insertionSort
    (fun a b : PolicyMapEntry => ¬ policyKeyBefore b.key a.key) entries
  have distinct : KeysNodup (sortEntries entries) :=
    ((perm_sortEntries entries).map _).nodup_iff.mpr nodup
  -- Ordered and without a key twice is strictly ordered.
  refine (sorted.and (pairwise_map.mp distinct)).imp ?_
  rintro a b ⟨le, differ⟩
  rw [sortsBy_iff] at le
  rw [policyKeyBefore_iff]
  exact Nat.lt_of_le_of_ne le fun same => differ (keyNumber_injective same)

theorem canonical_of_canonicalPolicyMapEntries {out : List PolicyMapEntry}
    (returned : canonicalPolicyMapEntries entries = .ok out) : Canonical out := by
  have spec := canonicalPolicyMapEntries_spec returned
  simp only [canonicalPolicyMapEntries, bind_eq_ok, pure_eq_ok] at returned
  obtain ⟨byKey, _, rfl⟩ := returned
  exact canonical_sortEntries (((perm_sortEntries byKey).map _).nodup_iff.mp spec.nodup)

/-! ### Plans -/

def policyEntrySemanticsEqual (left right : PolicyEntry) : Bool :=
  { left with packets := 0, bytes := 0 } == { right with packets := 0, bytes := 0 }

def policyMapEntriesSemanticsEqual (left right : PolicyMapEntry) : Bool :=
  policyEntrySemanticsEqual left.value right.value && left.remoteCIDR = right.remoteCIDR

/-- What a plan compares of an entry. -/
def PolicyMapEntry.meaning (entry : PolicyMapEntry) : PolicyMapEntry :=
  { entry with value := { entry.value with packets := 0, bytes := 0 }, ruleRef := "" }

theorem meaning_eq_iff {left right : PolicyMapEntry} : left.meaning = right.meaning ↔
    left.key = right.key ∧ policyMapEntriesSemanticsEqual left right := by
  obtain ⟨_, _, _, _⟩ := left
  obtain ⟨_, _, _, _⟩ := right
  simp [PolicyMapEntry.meaning, policyMapEntriesSemanticsEqual, policyEntrySemanticsEqual]

theorem canonical_map_meaning (canonical : Canonical entries) :
    Canonical (entries.map PolicyMapEntry.meaning) :=
  pairwise_map.mpr canonical

/-- Entries in canonical form are their own canonical form. -/
theorem canonicalPolicyMapEntries_of_canonical (canonical : Canonical entries) :
    canonicalPolicyMapEntries entries = .ok entries := by
  rw [canonicalPolicyMapEntries_of_nodup canonical.nodup]
  have sorted := canonical_sortEntries canonical.nodup
  rw [sorted.eq_of_mem_iff canonical fun _ => mem_sortEntries]

structure PolicyUpdatePlan where
  add : List PolicyMapEntry
  update : List PolicyMapEntry
  delete : List PolicyKey
  unchanged : List PolicyMapEntry
  deriving DecidableEq, Repr

structure PolicyUpdateStats where
  revision : BitVec 64 := 0
  added : Nat := 0
  updated : Nat := 0
  deleted : Nat := 0
  unchanged : Nat := 0
  deriving DecidableEq, Repr

def PolicyUpdatePlan.stats (plan : PolicyUpdatePlan) : PolicyUpdateStats where
  added := plan.add.length
  updated := plan.update.length
  deleted := plan.delete.length
  unchanged := plan.unchanged.length

def entryMap (entries : List PolicyMapEntry) : AList fun _ : PolicyKey => PolicyMapEntry :=
  insertAll PolicyMapEntry.key id entries

/-- The old entries whose key is wanted, with the new entry of that key. -/
def keptEntries (oldByKey newByKey : AList fun _ : PolicyKey => PolicyMapEntry) :
    List (PolicyMapEntry × PolicyMapEntry) :=
  oldByKey.entries.filterMap fun old => (newByKey.lookup old.1).map fun new => (old.2, new)

def planPolicyUpdate (oldEntries newEntries : List PolicyMapEntry) : PolicyUpdatePlan :=
  let oldByKey := entryMap oldEntries
  let newByKey := entryMap newEntries
  let kept := keptEntries oldByKey newByKey
  { delete := sortKeys (oldByKey.keys.filter fun key => (newByKey.lookup key).isNone)
    unchanged := sortEntries ((kept.filter fun both =>
      policyMapEntriesSemanticsEqual both.1 both.2).map Prod.snd)
    update := sortEntries ((kept.filter fun both =>
      !policyMapEntriesSemanticsEqual both.1 both.2).map Prod.snd)
    add := sortEntries ((newByKey.entries.filter fun new => (oldByKey.lookup new.1).isNone).map
      Sigma.snd) }

inductive PolicyUpdateStep where
  | addUpdate
  | delete
  deriving DecidableEq, Repr

def policyUpdateSequence (oldEntryCount : Nat) (plan : PolicyUpdatePlan) (maxEntries : BitVec 32)
    (fullRewrite : Bool) : List PolicyUpdateStep :=
  if fullRewrite then [.addUpdate]
  else if maxEntries = 0 || oldEntryCount + plan.add.length ≤ maxEntries.toNat then
    [.addUpdate, .delete]
  else [.delete, .addUpdate]

/-- One operation on the entries. -/
inductive PlanOperation where
  | put (entry : PolicyMapEntry)
  | delete (key : PolicyKey)
  deriving DecidableEq, Repr

/-- The operations of a plan in the order of its steps. -/
def PolicyUpdatePlan.operations (plan : PolicyUpdatePlan) (steps : List PolicyUpdateStep) :
    List PlanOperation :=
  steps.flatMap fun
    | .addUpdate => (plan.add ++ plan.update).map .put
    | .delete => plan.delete.map .delete

/-! ### What a plan consists of -/

section Plan

variable {oldEntries newEntries : List PolicyMapEntry}

/-- With one entry per key, the map holds the entries as they are. -/
theorem entries_entryMap {entries : List PolicyMapEntry} (nodup : KeysNodup entries) :
    (entryMap entries).entries = (entries.map fun entry => ⟨entry.key, entry⟩).reverse :=
  entries_insertAll PolicyMapEntry.key id nodup

theorem lookup_entryMap {entries : List PolicyMapEntry} (nodup : KeysNodup entries)
    (key : PolicyKey) : (entryMap entries).lookup key = findEntry entries key := by
  apply Option.ext
  intro entry
  rw [entryMap, lookup_insertAll PolicyMapEntry.key id nodup]
  constructor
  · rintro ⟨_, member, rfl, rfl⟩
    exact findEntry_eq_some nodup member
  · intro found
    obtain ⟨member, same⟩ := findEntry_some found
    exact ⟨entry, member, same, rfl⟩

private theorem length_filterMap_add {α β : Type} (items : List α) (f : α → Option β) :
    (items.filterMap f).length + (items.filter fun x => (f x).isNone).length = items.length := by
  have parts := length_eq_length_filter_add (l := items) fun x => (f x).isSome
  simp only [Option.not_isSome] at parts
  rw [length_filterMap_eq_countP, countP_eq_length_filter, ← parts]

private theorem length_keptEntries (oldEntries newEntries : List PolicyMapEntry) :
    (keptEntries (entryMap oldEntries) (entryMap newEntries)).length =
      (planPolicyUpdate oldEntries newEntries).update.length +
        (planPolicyUpdate oldEntries newEntries).unchanged.length := by
  simp only [planPolicyUpdate, (perm_sortEntries _).length_eq, length_map]
  rw [Nat.add_comm]
  exact length_eq_length_filter_add _

variable (oldNodup : KeysNodup oldEntries) (newNodup : KeysNodup newEntries)

include oldNodup newNodup

theorem mem_keptEntries {old new : PolicyMapEntry} :
    (old, new) ∈ keptEntries (entryMap oldEntries) (entryMap newEntries) ↔
      old ∈ oldEntries ∧ new ∈ newEntries ∧ old.key = new.key := by
  simp only [keptEntries, entries_entryMap oldNodup, mem_filterMap, mem_reverse,
    mem_map, lookup_entryMap newNodup, Option.map_eq_some_iff, Prod.mk.injEq]
  constructor
  · rintro ⟨_, ⟨old, inOld, rfl⟩, new, found, rfl, rfl⟩
    obtain ⟨inNew, same⟩ := findEntry_some found
    exact ⟨inOld, inNew, same.symm⟩
  · rintro ⟨inOld, inNew, same⟩
    exact ⟨_, ⟨old, inOld, rfl⟩, new, same ▸ findEntry_eq_some newNodup inNew, rfl, rfl⟩

private theorem keysNodup_keptEntries :
    KeysNodup ((keptEntries (entryMap oldEntries) (entryMap newEntries)).map Prod.snd) := by
  have sub : ∀ olds : List PolicyMapEntry,
      (((olds.map fun old => (⟨old.key, old⟩ : Sigma fun _ : PolicyKey => PolicyMapEntry)).filterMap
        fun old => ((entryMap newEntries).lookup old.1).map fun new => (old.2, new)).map
          fun both => both.2.key).Sublist (olds.map PolicyMapEntry.key) := by
    intro olds
    induction olds with
    | nil => simp
    | cons first rest ih =>
      rw [map_cons, filterMap_cons]
      cases found : (entryMap newEntries).lookup first.key with
      | none => exact (by simpa [found] using ih.cons first.key)
      | some new =>
        rw [lookup_entryMap newNodup] at found
        simpa [(findEntry_some found).2] using ih
  have nodup : (oldEntries.reverse.map PolicyMapEntry.key).Nodup := by
    rw [map_reverse]
    exact nodup_reverse.mpr oldNodup
  rw [KeysNodup, keptEntries, entries_entryMap oldNodup, ← map_reverse, map_map]
  exact (sub oldEntries.reverse).nodup nodup

theorem mem_plan_delete {key : PolicyKey} :
    key ∈ (planPolicyUpdate oldEntries newEntries).delete ↔
      (∃ old ∈ oldEntries, old.key = key) ∧ findEntry newEntries key = none := by
  simp [planPolicyUpdate, (perm_sortKeys _).mem_iff, lookup_entryMap newNodup, AList.keys,
      entries_entryMap oldNodup, keys, comp_apply]

theorem mem_plan_add {entry : PolicyMapEntry} :
    entry ∈ (planPolicyUpdate oldEntries newEntries).add ↔
      entry ∈ newEntries ∧ findEntry oldEntries entry.key = none := by
  simp only [planPolicyUpdate, mem_sortEntries, mem_map, mem_filter,
    entries_entryMap newNodup, mem_reverse, lookup_entryMap oldNodup, Option.isNone_iff_eq_none]
  simp

theorem mem_plan_update {entry : PolicyMapEntry} :
    entry ∈ (planPolicyUpdate oldEntries newEntries).update ↔
      entry ∈ newEntries ∧ ∃ old ∈ oldEntries, old.key = entry.key ∧
        policyMapEntriesSemanticsEqual old entry = false := by
  simp only [planPolicyUpdate, mem_sortEntries, mem_map, mem_filter, Prod.exists,
    mem_keptEntries oldNodup newNodup, Bool.not_eq_true', exists_eq_right]
  grind

/-- No key is written twice. -/
theorem keysNodup_plan_puts :
    KeysNodup ((planPolicyUpdate oldEntries newEntries).add ++
      (planPolicyUpdate oldEntries newEntries).update) := by
  rw [KeysNodup, map_append, nodup_append]
  refine ⟨?_, ?_, ?_⟩
  · have sub : ((entryMap newEntries).entries.filter fun new =>
        ((entryMap oldEntries).lookup new.1).isNone).map Sigma.snd |>.Sublist newEntries.reverse := by
      rw [entries_entryMap newNodup, ← map_reverse, filter_map, map_map]
      exact (filter_sublist.map _).trans (by simp [comp_def])
    refine ((perm_sortEntries _).map _).nodup_iff.mpr ((sub.map _).nodup ?_)
    rw [map_reverse]
    exact nodup_reverse.mpr newNodup
  · refine ((perm_sortEntries _).map _).nodup_iff.mpr ?_
    exact (filter_sublist.map _ |>.map _).nodup (keysNodup_keptEntries oldNodup newNodup)
  · intro key added other updated same
    obtain ⟨new, inAdd, rfl⟩ := mem_map.mp added
    obtain ⟨new', inUpdate, rfl⟩ := mem_map.mp updated
    have missing := ((mem_plan_add oldNodup newNodup).mp inAdd).2
    obtain ⟨_, old, inOld, key, _⟩ := (mem_plan_update oldNodup newNodup).mp inUpdate
    exact findEntry_none.mp missing old inOld (key.trans same.symm)

omit newNodup in
/-- Every old entry is deleted, updated or left. -/
theorem plan_counts_old :
    (planPolicyUpdate oldEntries newEntries).delete.length +
      (planPolicyUpdate oldEntries newEntries).update.length +
      (planPolicyUpdate oldEntries newEntries).unchanged.length = oldEntries.length := by
  have size : (entryMap oldEntries).entries.length = oldEntries.length := by
    simp [entries_entryMap oldNodup]
  have parts := length_filterMap_add (entryMap oldEntries).entries fun old =>
    ((entryMap newEntries).lookup old.1).map fun new => (old.2, new)
  have deleted : (planPolicyUpdate oldEntries newEntries).delete.length =
      ((entryMap oldEntries).entries.filter fun old =>
        (((entryMap newEntries).lookup old.1).map fun new => (old.2, new)).isNone).length := by
    simp [planPolicyUpdate, (perm_sortKeys _).length_eq, AList.keys, keys, filter_map,
      comp_def]
  have kept := length_keptEntries oldEntries newEntries
  rw [keptEntries] at kept
  omega

/-- Every new entry is added, updated or left. -/
theorem plan_counts_new :
    (planPolicyUpdate oldEntries newEntries).add.length +
      (planPolicyUpdate oldEntries newEntries).update.length +
      (planPolicyUpdate oldEntries newEntries).unchanged.length = newEntries.length := by
  have kept := length_keptEntries oldEntries newEntries
  -- The new entries under an old key are those that are kept.
  have same : ((keptEntries (entryMap oldEntries) (entryMap newEntries)).map Prod.snd).Perm
      (newEntries.filter fun new => !(findEntry oldEntries new.key).isNone) := by
    refine (perm_ext_iff_of_nodup ?_ ?_).mpr fun new => ?_
    · exact List.Nodup.of_map _ (keysNodup_keptEntries oldNodup newNodup)
    · exact (List.Nodup.of_map _ newNodup).filter _
    · simp only [mem_map, Prod.exists, exists_eq_right, mem_keptEntries oldNodup newNodup,
        mem_filter, Bool.not_eq_true', Option.isNone_eq_false_iff, Option.isSome_iff_exists]
      constructor
      · rintro ⟨old, inOld, inNew, same⟩
        exact ⟨inNew, old, same ▸ findEntry_eq_some oldNodup inOld⟩
      · rintro ⟨inNew, old, found⟩
        obtain ⟨inOld, same⟩ := findEntry_some found
        exact ⟨old, inOld, inNew, same⟩
  have added : (planPolicyUpdate oldEntries newEntries).add.length =
      (newEntries.filter fun new => (findEntry oldEntries new.key).isNone).length := by
    simp [planPolicyUpdate, (perm_sortEntries _).length_eq, entries_entryMap newNodup,
        lookup_entryMap oldNodup, filter_map, comp_def]
  have parts := length_eq_length_filter_add (l := newEntries) fun new =>
    (findEntry oldEntries new.key).isNone
  have size := same.length_eq
  rw [length_map] at size
  omega

end Plan

/-! ### Events

Every update of an endpoint is recorded, successful or not, with its plan, the
rules it touches and the pressure on the map. A store keeps the last events only. -/

open Strings (trimSpace)

structure PolicyMapCapacityHotspot where
  ruleRef : String
  entries : Nat
  deriving DecidableEq, Repr

/-- An error of a store. `capacity` is present if a `PolicyMapCapacityError` is wrapped. -/
structure PolicyError where
  message : String
  capacity : Option (List PolicyMapCapacityHotspot) := none
  deriving DecidableEq, Repr

/-- `fmt.Errorf` with `%w`: the text grows, the wrapped error stays. -/
def PolicyError.wrap (err : PolicyError) (text : String) : PolicyError :=
  { err with message := text ++ ": " ++ err.message }

def containsText (text part : String) : Bool := decide (part.toList <:+: text.toList)

def policyUpdateFailureReason (err : PolicyError) : String :=
  if err.capacity.isSome then "capacity_exceeded"
  else if containsText err.message "canonicalize policy map entries" ||
      containsText err.message "conflicting policy map entries" then "canonicalization_failed"
  else "apply_failed"

def policyMapCapacityHotspotsFromError (err : PolicyError) : List PolicyMapCapacityHotspot :=
  err.capacity.getD []

structure PolicyUpdateEvent where
  endpointID : String
  previousRevision : BitVec 64
  revision : BitVec 64
  occurredAt : Time
  stats : PolicyUpdateStats
  ruleCookies : List (BitVec 32)
  ruleRefs : List String
  capacityHotspots : List PolicyMapCapacityHotspot := []
  policyMapEntries : BitVec 32 := 0
  policyMapCapacity : BitVec 32 := 0
  policyMapPressurePercent : BitVec 32 := 0
  policyMapPressureSeverity : String := ""
  policyMapRecommendedCapacity : BitVec 32 := 0
  success : Bool
  failureReason : String := ""
  error : String := ""
  remediated : Bool := false
  remediation : String := ""
  deriving DecidableEq, Repr

def defaultPolicyUpdateEventLimit : Nat := 1024

/-- Only the last events are kept. -/
def appendPolicyUpdateEvent (events : List PolicyUpdateEvent) (event : PolicyUpdateEvent) :
    List PolicyUpdateEvent :=
  (events ++ [event]).drop (events.length + 1 - defaultPolicyUpdateEventLimit)

/-! ### The rules of an update -/

def sortedPolicyRuleCookies (cookies : List (BitVec 32)) : List (BitVec 32) :=
  cookies.dedup.insertionSort (· ≤ ·)

def sortedPolicyRuleRefs (refs : List String) : List String := refs.dedup.insertionSort (· ≤ ·)

/-- The entries an update adds, writes anew or deletes. -/
def touchedEntries (oldEntries : List PolicyMapEntry) (plan : PolicyUpdatePlan) :
    List PolicyMapEntry :=
  plan.add ++ plan.update ++ oldEntries.filter fun entry => plan.delete.contains entry.key

def policyEntriesRuleCookies (entries : List PolicyMapEntry) : List (BitVec 32) :=
  sortedPolicyRuleCookies ((entries.map fun entry => entry.value.ruleCookie).filter (· ≠ 0))

def policyEntriesRuleRefs (entries : List PolicyMapEntry) : List String :=
  sortedPolicyRuleRefs ((entries.map PolicyMapEntry.ruleRef).filter (· ≠ ""))

def policyUpdateRuleCookies (oldEntries : List PolicyMapEntry) (plan : PolicyUpdatePlan) :
    List (BitVec 32) :=
  policyEntriesRuleCookies (touchedEntries oldEntries plan)

def policyUpdateRuleRefs (oldEntries : List PolicyMapEntry) (plan : PolicyUpdatePlan) :
    List String :=
  policyEntriesRuleRefs (touchedEntries oldEntries plan)

/-! ### Pressure -/

def defaultPolicyMapPressureThresholdPercent : Nat := 80

def policyMapPressurePercent (entries capacity : BitVec 32) : BitVec 32 :=
  if capacity = 0 then 0
  else if entries ≥ capacity then 100
  else BitVec.ofNat 32 (entries.toNat * 100 / capacity.toNat)

def policyMapPressureSeverity (entries capacity : BitVec 32) : String :=
  let pressure := (policyMapPressurePercent entries capacity).toNat
  if capacity = 0 then "unknown"
  else if pressure ≥ 100 then "full"
  else if pressure ≥ 90 then "critical"
  else if pressure ≥ defaultPolicyMapPressureThresholdPercent then "warning"
  else "normal"

def policyMapRecommendedCapacity (entries capacity : BitVec 32) : BitVec 32 :=
  if capacity = 0 || entries = 0 || (policyMapPressurePercent entries capacity).toNat <
      defaultPolicyMapPressureThresholdPercent then 0
  else BitVec.ofNat 32 (entries.toNat * 100 / defaultPolicyMapPressureThresholdPercent + 1)

variable (event : PolicyUpdateEvent) (entries : Nat) (capacity : BitVec 32)

def attachPolicyUpdateEventPressure : PolicyUpdateEvent :=
  if capacity = 0 then event
  else
    let used := BitVec.ofNat 32 entries
    { event with
      policyMapEntries := used
      policyMapCapacity := capacity
      policyMapPressurePercent := policyMapPressurePercent used capacity
      policyMapPressureSeverity := policyMapPressureSeverity used capacity
      policyMapRecommendedCapacity := policyMapRecommendedCapacity used capacity }

@[simp] theorem endpointID_attachPressure :
    (attachPolicyUpdateEventPressure event entries capacity).endpointID = event.endpointID := by
  unfold attachPolicyUpdateEventPressure
  split <;> rfl

@[simp] theorem remediated_attachPressure :
    (attachPolicyUpdateEventPressure event entries capacity).remediated = event.remediated := by
  unfold attachPolicyUpdateEventPressure
  split <;> rfl

end Netloom.Dataplane
