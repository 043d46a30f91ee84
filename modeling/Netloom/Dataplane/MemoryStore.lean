import Netloom.Dataplane.PolicyPlan

/-!
# The in-memory policy store

The store keeps the entries of every endpoint in canonical form. Replacing the
entries of an endpoint works on a copy of them, operation by operation of the
plan, and stores the copy at the end, so a failure in between changes nothing.
-/
namespace Netloom.Dataplane

open List AList
open Model (Time)

/-! ### Running the operations of a plan -/

def PlanOperation.apply (entries : List PolicyMapEntry) : PlanOperation → List PolicyMapEntry
  | .put entry => upsertEntry entries entry
  | .delete key => deleteEntry entries key

/-- The loop over the operations. The injected failure `failAfter` stops it after that
many operations; the number of those that were applied is returned then. -/
def applyOperations (failAfter : Int) :
    Nat → List PolicyMapEntry → List PlanOperation → Except Nat (List PolicyMapEntry)
  | _, next, [] => .ok next
  | applied, next, operation :: rest =>
    if failAfter > 0 && (applied : Int) ≥ failAfter then .error applied
    else applyOperations failAfter (applied + 1) (operation.apply next) rest

theorem keysNodup_apply {entries : List PolicyMapEntry} (nodup : KeysNodup entries)
    (operation : PlanOperation) : KeysNodup (operation.apply entries) := by
  cases operation with
  | put entry => exact keysNodup_upsertEntry nodup entry
  | delete key => exact (filter_sublist.map _).nodup nodup

/-- A loop that is not stopped applies every operation. -/
theorem applyOperations_eq_ok {failAfter : Int} {applied : Nat} {entries out : List PolicyMapEntry}
    {operations : List PlanOperation}
    (returned : applyOperations failAfter applied entries operations = .ok out) :
    out = operations.foldl PlanOperation.apply entries := by
  induction operations generalizing applied entries with
  | nil => exact (Except.ok.inj returned).symm
  | cons operation rest ih =>
    rw [applyOperations] at returned
    split at returned
    · cases returned
    · exact ih returned

theorem keysNodup_foldl {operations : List PlanOperation} {entries : List PolicyMapEntry}
    (nodup : KeysNodup entries) : KeysNodup (operations.foldl PlanOperation.apply entries) := by
  induction operations generalizing entries with
  | nil => exact nodup
  | cons operation rest ih => exact ih (keysNodup_apply nodup operation)

theorem mem_foldl_put {puts entries : List PolicyMapEntry} (putsNodup : KeysNodup puts)
    (nodup : KeysNodup entries) (entry : PolicyMapEntry) :
    entry ∈ (puts.map PlanOperation.put).foldl PlanOperation.apply entries ↔
      entry ∈ puts ∨ (entry ∈ entries ∧ ∀ put ∈ puts, put.key ≠ entry.key) := by
  induction puts generalizing entries with
  | nil => simp
  | cons first rest ih =>
    obtain ⟨apart, putsNodup⟩ := nodup_cons.mp putsNodup
    rw [map_cons, foldl_cons, ih putsNodup (keysNodup_apply nodup _)]
    simp only [PlanOperation.apply, mem_upsertEntry nodup, mem_cons, forall_eq_or_imp]
    -- No later entry put has the key of the first.
    grind

theorem mem_foldl_delete {keys : List PolicyKey} {entries : List PolicyMapEntry}
    (entry : PolicyMapEntry) :
    entry ∈ (keys.map PlanOperation.delete).foldl PlanOperation.apply entries ↔
      entry ∈ entries ∧ entry.key ∉ keys := by
  induction keys generalizing entries with
  | nil => simp
  | cons first rest ih =>
    rw [map_cons, foldl_cons, ih]
    simp [PlanOperation.apply, deleteEntry, and_assoc]

/-- What a whole plan leaves: the new entries that are added or changed, and the old
entries that are not. -/
theorem mem_foldl_plan {oldEntries newEntries : List PolicyMapEntry}
    (oldNodup : KeysNodup oldEntries) (newNodup : KeysNodup newEntries) (entry : PolicyMapEntry) :
    entry ∈ ((planPolicyUpdate oldEntries newEntries).operations [.addUpdate, .delete]).foldl
        PlanOperation.apply oldEntries ↔
      (entry ∈ newEntries ∧ ∀ old ∈ oldEntries, old.key = entry.key →
        policyMapEntriesSemanticsEqual old entry = false) ∨
      (entry ∈ oldEntries ∧ ∃ new ∈ newEntries, new.key = entry.key ∧
        policyMapEntriesSemanticsEqual entry new) := by
  have puts : ∀ put, put ∈ (planPolicyUpdate oldEntries newEntries).add ++
      (planPolicyUpdate oldEntries newEntries).update ↔
      put ∈ newEntries ∧ ∀ old ∈ oldEntries, old.key = put.key →
        policyMapEntriesSemanticsEqual old put = false := by
    intro put
    rw [mem_append, mem_plan_add oldNodup newNodup, mem_plan_update oldNodup newNodup,
      findEntry_none]
    constructor
    · rintro (⟨inNew, missing⟩ | ⟨inNew, old, inOld, same, differ⟩)
      · exact ⟨inNew, fun old inOld same => absurd same (missing old inOld)⟩
      · refine ⟨inNew, fun other inOld' same' => ?_⟩
        rw [eq_of_key_eq oldNodup inOld' inOld (same'.trans same.symm)]
        exact differ
    · grind
  have distinct := keysNodup_plan_puts oldNodup newNodup
  have steps : (planPolicyUpdate oldEntries newEntries).operations [.addUpdate, .delete] =
      ((planPolicyUpdate oldEntries newEntries).add ++
        (planPolicyUpdate oldEntries newEntries).update).map .put ++
      (planPolicyUpdate oldEntries newEntries).delete.map .delete := by
    simp [PolicyUpdatePlan.operations]
  rw [steps, foldl_append, mem_foldl_delete, mem_foldl_put distinct oldNodup, puts,
    mem_plan_delete oldNodup newNodup, findEntry_none]
  constructor
  · rintro ⟨new | ⟨inOld, notPut⟩, notDeleted⟩
    · exact .inl new
    · right
      refine ⟨inOld, ?_⟩
      by_contra gone
      apply notDeleted
      refine ⟨⟨entry, inOld, rfl⟩, fun new inNew same => ?_⟩
      -- A new entry of the key would either be put or be no change.
      cases equal : policyMapEntriesSemanticsEqual entry new with
      | true => exact gone ⟨new, inNew, same, equal⟩
      | false =>
        refine notPut new ((puts new).mpr ⟨inNew, fun old inOld' same' => ?_⟩) same
        rw [eq_of_key_eq oldNodup inOld' inOld (same'.trans same)]
        exact equal
  · rintro (new | ⟨inOld, new, inNew, same, equal⟩)
    · refine ⟨.inl new, fun deleted => ?_⟩
      exact deleted.2 entry new.1 rfl
    · refine ⟨.inr ⟨inOld, fun put inPuts samePut => ?_⟩, fun deleted => deleted.2 new inNew same⟩
      obtain ⟨inNew', changed⟩ := (puts put).mp inPuts
      have differ := changed entry inOld samePut.symm
      rw [eq_of_key_eq newNodup inNew' inNew (samePut.trans same.symm), equal] at differ
      exact absurd differ (by simp)

/-! ### The store -/

structure InMemoryPolicyStore where
  endpoints : AList fun _ : String => List PolicyMapEntry
  lastStats : AList fun _ : String => PolicyUpdateStats
  lastSeen : AList fun _ : String => Time
  revisions : AList fun _ : String => BitVec 64
  events : List PolicyUpdateEvent
  failAfter : Int
  canonical : ∀ endpointID entries, endpoints.lookup endpointID = some entries → Canonical entries

namespace InMemoryPolicyStore

def new : InMemoryPolicyStore where
  endpoints := ∅
  lastStats := ∅
  lastSeen := ∅
  revisions := ∅
  events := []
  failAfter := 0
  canonical := by simp

variable (s : InMemoryPolicyStore) (now : Time) (endpointID : String)

/-- `Entries`. -/
def entries : List PolicyMapEntry :=
  (s.endpoints.lookup endpointID).getD []

/-- `Revision`. -/
def revision : BitVec 64 :=
  (s.revisions.lookup endpointID).getD 0

theorem canonical_entries : Canonical (s.entries endpointID) := by
  rw [entries]
  cases stored : s.endpoints.lookup endpointID with
  | none => exact .nil
  | some entries => exact s.canonical endpointID entries stored

/-- `recordPolicyUpdateFailure` at the time `now`. -/
def recordPolicyUpdateFailure (previousRevision revision : BitVec 64) (stats : PolicyUpdateStats)
    (ruleCookies : List (BitVec 32)) (ruleRefs : List String) (err : PolicyError) :
    InMemoryPolicyStore :=
  { s with
    events := appendPolicyUpdateEvent s.events {
      endpointID, previousRevision, revision
      occurredAt := now
      stats := { stats with revision }
      ruleCookies, ruleRefs
      success := false
      failureReason := policyUpdateFailureReason err
      error := err.message } }

/-- The entries and the books of an endpoint after a successful update. -/
def stored (next : List PolicyMapEntry) (nodup : KeysNodup next) (revision : BitVec 64)
    (stats : PolicyUpdateStats) (event : PolicyUpdateEvent) : InMemoryPolicyStore where
  endpoints := s.endpoints.insert endpointID (sortEntries next)
  lastStats := s.lastStats.insert endpointID stats
  lastSeen := s.lastSeen.insert endpointID now
  revisions := s.revisions.insert endpointID revision
  events := appendPolicyUpdateEvent s.events event
  failAfter := s.failAfter
  canonical := by
    intro other entries looked
    by_cases here : other = endpointID
    · rw [here, lookup_insert] at looked
      exact Option.some.inj looked ▸ canonical_sortEntries nodup
    · rw [lookup_insert_ne here] at looked
      exact s.canonical other entries looked

/-- `ReplaceEndpoint` at the time `now`: the error, if any, and the store afterwards. -/
def replaceEndpoint (entries : List PolicyMapEntry) : Option PolicyError × InMemoryPolicyStore :=
  let previousRevision := s.revision endpointID
  let revision := previousRevision + 1
  match canonicalPolicyMapEntries entries with
  | .error message =>
    let err : PolicyError :=
      { message := s!"canonicalize policy map entries for endpoint {endpointID}: {message}" }
    (some err, s.recordPolicyUpdateFailure now endpointID previousRevision revision {}
      (policyEntriesRuleCookies entries) (policyEntriesRuleRefs entries) err)
  | .ok desired =>
    let old := s.entries endpointID
    let plan := planPolicyUpdate old desired
    let ruleCookies := policyUpdateRuleCookies old plan
    let ruleRefs := policyUpdateRuleRefs old plan
    let operations := plan.operations (policyUpdateSequence old.length plan 0 false)
    match outcome : applyOperations s.failAfter 0 old operations with
    | .error applied =>
      let err : PolicyError :=
        { message := s!"in-memory policy update failed after {applied} operations" }
      (some err, s.recordPolicyUpdateFailure now endpointID previousRevision revision plan.stats
        ruleCookies ruleRefs err)
    | .ok next =>
      let stats := { plan.stats with revision }
      let nodup : KeysNodup next :=
        applyOperations_eq_ok outcome ▸ keysNodup_foldl (s.canonical_entries endpointID).nodup
      (none, s.stored now endpointID next nodup revision stats {
        endpointID, previousRevision, revision
        occurredAt := now
        stats, ruleCookies, ruleRefs
        success := true })

/-! ### What a call does -/

/-- A failed call: nothing but one more event. -/
def Unreplaced (s' : InMemoryPolicyStore) : Prop :=
  ∃ event, event.success = false ∧ s' = { s with events := appendPolicyUpdateEvent s.events event }

/-- A successful call with the canonical entries `desired`. -/
structure Replaced (s' : InMemoryPolicyStore) (now : Time) (endpointID : String)
    (desired : List PolicyMapEntry) : Prop where
  endpoints : s'.endpoints = s.endpoints.insert endpointID (sortEntries
    (((planPolicyUpdate (s.entries endpointID) desired).operations [.addUpdate, .delete]).foldl
      PlanOperation.apply (s.entries endpointID)))
  revisions : s'.revisions = s.revisions.insert endpointID (s.revision endpointID + 1)
  lastStats : s'.lastStats = s.lastStats.insert endpointID
    { (planPolicyUpdate (s.entries endpointID) desired).stats with
      revision := s.revision endpointID + 1 }
  lastSeen : s'.lastSeen = s.lastSeen.insert endpointID now
  events : ∃ event, event.endpointID = endpointID ∧ event.success = true ∧
    s'.events = appendPolicyUpdateEvent s.events event

theorem replaceEndpoint_spec (entries : List PolicyMapEntry) :
    ((s.replaceEndpoint now endpointID entries).1.isSome ∧
      Unreplaced s (s.replaceEndpoint now endpointID entries).2) ∨
    ((s.replaceEndpoint now endpointID entries).1 = none ∧
      ∃ desired, canonicalPolicyMapEntries entries = .ok desired ∧
        Replaced s (s.replaceEndpoint now endpointID entries).2 now endpointID desired) := by
  unfold replaceEndpoint
  split
  · exact .inl ⟨rfl, _, rfl, rfl⟩
  next desired canonical =>
  dsimp only
  split
  · exact .inl ⟨rfl, _, rfl, rfl⟩
  · next next outcome =>
    obtain rfl := applyOperations_eq_ok outcome
    unfold stored
    refine .inr ⟨rfl, desired, canonical, ?_⟩
    constructor
    all_goals dsimp only
    · rfl
    · exact ⟨_, rfl, rfl, rfl⟩

/-- What the plan does not compare is the same in the stored and in the wanted entries. -/
def Refreshed (stored desired : List PolicyMapEntry) : Prop :=
  ∀ old ∈ stored, ∀ new ∈ desired, old.key = new.key →
    policyMapEntriesSemanticsEqual old new = true →
    old.ruleRef = new.ruleRef ∧ old.value.packets = new.value.packets ∧
      old.value.bytes = new.value.bytes

private theorem eq_of_semanticsEqual {old new : PolicyMapEntry} (key : old.key = new.key)
    (equal : policyMapEntriesSemanticsEqual old new) (ruleRef : old.ruleRef = new.ruleRef)
    (packets : old.value.packets = new.value.packets) (bytes : old.value.bytes = new.value.bytes) :
    old = new := by
  obtain ⟨key', ⟨_, _, _, _, _, _, _, _, _, _⟩, cidr, ref⟩ := old
  obtain ⟨_, ⟨_, _, _, _, _, _, _, _, _, _⟩, _, _⟩ := new
  simp only [policyMapEntriesSemanticsEqual, policyEntrySemanticsEqual, Bool.and_eq_true, beq_iff_eq,
    PolicyEntry.mk.injEq, decide_eq_true_eq] at equal
  simp_all

/-- The plan ends in the wanted list exactly if nothing it overlooks has to be refreshed. -/
theorem sortEntries_foldl_plan_eq_iff {stored desired : List PolicyMapEntry}
    (canonicalStored : Canonical stored) (canonicalDesired : Canonical desired) :
    sortEntries (((planPolicyUpdate stored desired).operations [.addUpdate, .delete]).foldl
      PlanOperation.apply stored) = desired ↔ Refreshed stored desired := by
  have members := mem_foldl_plan canonicalStored.nodup canonicalDesired.nodup
  constructor
  · intro same old inStored new inDesired key equal
    have kept : old ∈ desired := by
      rw [← same, mem_sortEntries, members]
      exact .inr ⟨inStored, new, inDesired, key.symm, equal⟩
    rw [eq_of_key_eq canonicalDesired.nodup kept inDesired key]
    exact ⟨rfl, rfl, rfl⟩
  · intro refreshed
    refine (canonical_sortEntries (keysNodup_foldl canonicalStored.nodup)).eq_of_mem_iff
      canonicalDesired fun entry => ?_
    have unchanged : ∀ old ∈ stored, ∀ new ∈ desired, old.key = new.key →
        policyMapEntriesSemanticsEqual old new → old = new := by
      intro old inStored new inDesired key equal
      obtain ⟨ruleRef, packets, bytes⟩ := refreshed old inStored new inDesired key equal
      exact eq_of_semanticsEqual key equal ruleRef packets bytes
    rw [mem_sortEntries, members]
    -- What the plan overlooks is unchanged.
    grind

/-- A plan ends in entries with the wanted meanings. -/
theorem map_meaning_foldl_plan {stored desired : List PolicyMapEntry}
    (canonicalStored : Canonical stored) (canonicalDesired : Canonical desired) :
    (sortEntries (((planPolicyUpdate stored desired).operations [.addUpdate, .delete]).foldl
      PlanOperation.apply stored)).map PolicyMapEntry.meaning =
        desired.map PolicyMapEntry.meaning := by
  have members := mem_foldl_plan canonicalStored.nodup canonicalDesired.nodup
  refine (canonical_map_meaning (canonical_sortEntries (keysNodup_foldl
    canonicalStored.nodup))).eq_of_mem_iff (canonical_map_meaning canonicalDesired) fun image => ?_
  simp only [mem_map, mem_sortEntries, members]
  constructor
  · rintro ⟨entry, ⟨wanted, _⟩ | ⟨_, new, wanted, key, equal⟩, rfl⟩
    · exact ⟨entry, wanted, rfl⟩
    · exact ⟨new, wanted, (meaning_eq_iff.mpr ⟨key.symm, equal⟩).symm⟩
  · rintro ⟨entry, wanted, rfl⟩
    by_cases changed : ∀ old ∈ stored, old.key = entry.key →
        policyMapEntriesSemanticsEqual old entry = false
    · exact ⟨entry, .inl ⟨wanted, changed⟩, rfl⟩
    · push Not at changed
      obtain ⟨old, held, key, equal⟩ := changed
      rw [ne_eq, Bool.not_eq_false] at equal
      exact ⟨old, .inr ⟨held, entry, wanted, key.symm, equal⟩, meaning_eq_iff.mpr ⟨key, equal⟩⟩

/-- After a success the stored entries mean what the given ones do. -/
theorem map_meaning_entries_replaceEndpoint {s : InMemoryPolicyStore} {now : Time}
    {endpointID : String} {entries : List PolicyMapEntry} (canonical : Canonical entries)
    (succeeded : (s.replaceEndpoint now endpointID entries).1 = none) :
    ((s.replaceEndpoint now endpointID entries).2.entries endpointID).map PolicyMapEntry.meaning =
      entries.map PolicyMapEntry.meaning := by
  rcases s.replaceEndpoint_spec now endpointID entries with ⟨failed, _⟩ | ⟨_, desired, own, replaced⟩
  · simp [succeeded] at failed
  · rw [canonicalPolicyMapEntries_of_canonical canonical] at own
    cases own
    rw [InMemoryPolicyStore.entries, replaced.endpoints, lookup_insert, Option.getD_some]
    exact map_meaning_foldl_plan (s.canonical_entries endpointID) canonical

variable (s : InMemoryPolicyStore) (now : Time) (endpointID : String)

/-- Replacing the entries of an endpoint is atomic and accounts exactly: a failure leaves
everything but one failed event; a success counts every old and every new entry once and
is recorded once; other endpoints are not touched. The stored entries are the canonical
form of the given ones exactly if those the plan takes for unchanged are the same. -/
theorem replaceEndpoint_accounts
    (entries : List PolicyMapEntry) (s' : InMemoryPolicyStore) (result : Option PolicyError)
    (returned : s.replaceEndpoint now endpointID entries = (result, s')) :
    (result = none → ∃ desired stats, canonicalPolicyMapEntries entries = .ok desired ∧
      (s'.entries endpointID = desired ↔ Refreshed (s.entries endpointID) desired) ∧
      s'.revision endpointID = s.revision endpointID + 1 ∧
      s'.lastStats.lookup endpointID = some stats ∧
      stats.added + stats.updated + stats.unchanged = desired.length ∧
      stats.deleted + stats.updated + stats.unchanged = (s.entries endpointID).length ∧
      ∃ event, event.endpointID = endpointID ∧ event.success = true ∧
        s'.events = appendPolicyUpdateEvent s.events event) ∧
    (result ≠ none → s'.entries endpointID = s.entries endpointID ∧
      s'.revision endpointID = s.revision endpointID ∧
      s'.lastStats.lookup endpointID = s.lastStats.lookup endpointID ∧
      s'.lastSeen.lookup endpointID = s.lastSeen.lookup endpointID ∧
      ∃ event, event.success = false ∧ s'.events = appendPolicyUpdateEvent s.events event) ∧
    ∀ other, other ≠ endpointID →
      s'.entries other = s.entries other ∧ s'.revision other = s.revision other := by
  have spec := s.replaceEndpoint_spec now endpointID entries
  rw [returned] at spec
  rcases spec with ⟨failed, event, isFailed, rfl⟩ | ⟨succeeded, desired, canonical, replaced⟩
  · dsimp only [InMemoryPolicyStore.entries, revision]
    refine ⟨fun none => ?_, fun _ => ⟨rfl, rfl, rfl, rfl, event, isFailed, rfl⟩,
      fun _ _ => ⟨rfl, rfl⟩⟩
    rw [none] at failed
    cases failed
  · obtain ⟨endpoints, revisions, lastStats, lastSeen, events⟩ := replaced
    have canonicalStored := s.canonical_entries endpointID
    have canonicalDesired := canonical_of_canonicalPolicyMapEntries canonical
    have looked : s'.lastStats.lookup endpointID = some
        { (planPolicyUpdate (s.entries endpointID) desired).stats with
          revision := s.revision endpointID + 1 } := by
      rw [lastStats, lookup_insert]
    refine ⟨fun _ => ⟨desired, _, canonical, ?_, ?_, looked, ?_, ?_, events⟩, fun some => ?_, ?_⟩
    · rw [InMemoryPolicyStore.entries, endpoints, lookup_insert]
      exact sortEntries_foldl_plan_eq_iff canonicalStored canonicalDesired
    · rw [revision, revisions, lookup_insert]
      rfl
    · exact plan_counts_new canonicalStored.nodup canonicalDesired.nodup
    · exact plan_counts_old canonicalStored.nodup
    · exact absurd succeeded some
    · intro other differ
      rw [InMemoryPolicyStore.entries, revision, endpoints, revisions, lookup_insert_ne differ,
        lookup_insert_ne differ]
      exact ⟨rfl, rfl⟩

/-! ### Deleting and sweeping -/

/-- `recordEndpointDeleteEventLocked`: nothing is recorded for an endpoint no one knows. -/
def recordEndpointDelete : InMemoryPolicyStore :=
  let entries := s.entries endpointID
  let previousRevision := s.revision endpointID
  if entries.isEmpty && previousRevision = 0 && (s.lastStats.lookup endpointID).isNone &&
      (s.lastSeen.lookup endpointID).isNone then s
  else
    let stats : PolicyUpdateStats := { revision := previousRevision + 1, deleted := entries.length }
    let plan : PolicyUpdatePlan :=
      { add := [], update := [], delete := entries.map PolicyMapEntry.key, unchanged := [] }
    { s with
      events := appendPolicyUpdateEvent s.events {
        endpointID, previousRevision
        revision := stats.revision
        occurredAt := now
        stats
        ruleCookies := policyUpdateRuleCookies entries plan
        ruleRefs := policyUpdateRuleRefs entries plan
        success := true } }

def deleteEndpointLocked : InMemoryPolicyStore where
  endpoints := s.endpoints.erase endpointID
  lastStats := s.lastStats.erase endpointID
  lastSeen := s.lastSeen.erase endpointID
  revisions := s.revisions.erase endpointID
  events := s.events
  failAfter := s.failAfter
  canonical := by
    intro other entries looked
    by_cases here : other = endpointID
    · rw [here, lookup_erase] at looked
      cases looked
    · rw [lookup_erase_ne here] at looked
      exact s.canonical other entries looked

/-- `DeleteEndpoint` at the time `now`. -/
def deleteEndpoint : InMemoryPolicyStore :=
  (s.recordEndpointDelete now endpointID).deleteEndpointLocked endpointID

/-- The endpoints any of the maps knows. -/
def policyEndpointIDsLocked : List String :=
  (s.endpoints.keys ++ s.revisions.keys ++ s.lastStats.keys ++ s.lastSeen.keys).dedup

/-- `EndpointIDs`. -/
def endpointIDs : List String :=
  s.policyEndpointIDsLocked.insertionSort (· ≤ ·)

/-- One iteration of `SweepPolicyEndpoints`. An endpoint that was never seen is seen now. -/
def sweepEndpoint (keep : List String) (maxIdle : Int) (now : Time)
    (swept : Nat × InMemoryPolicyStore) (endpointID : String) : Nat × InMemoryPolicyStore :=
  let s := swept.2
  if endpointID ∈ keep then swept
  else
    let lastSeen := (s.lastSeen.lookup endpointID).getD 0
    let s := if lastSeen = 0 then { s with lastSeen := s.lastSeen.insert endpointID now } else s
    if Model.elapsed (if lastSeen = 0 then now else lastSeen) now < maxIdle then (swept.1, s)
    else (swept.1 + 1, s.deleteEndpoint now endpointID)

/-- `SweepPolicyEndpoints` at the time `now`, which comes to the endpoints in the order
`visited`, and the number of endpoints it deleted. -/
def sweepPolicyEndpoints (keep : List String) (maxIdle : Int) (now : Time)
    (visited : List String) : Nat × InMemoryPolicyStore :=
  if maxIdle ≤ 0 then (0, s) else visited.foldl (sweepEndpoint keep maxIdle now) (0, s)

/-- The endpoint's entries and revision are the same in both stores. -/
def SameAt (s s' : InMemoryPolicyStore) : Prop :=
  s'.entries endpointID = s.entries endpointID ∧ s'.revision endpointID = s.revision endpointID

theorem SameAt.trans {endpointID : String} {s s' s'' : InMemoryPolicyStore}
    (first : SameAt endpointID s s') (second : SameAt endpointID s' s'') :
    SameAt endpointID s s'' :=
  ⟨second.1.trans first.1, second.2.trans first.2⟩

variable (s : InMemoryPolicyStore)

theorem sameAt_replaceEndpoint (now : Time) {endpointID other : String}
    (entries : List PolicyMapEntry) (differ : other ≠ endpointID) :
    SameAt other s (s.replaceEndpoint now endpointID entries).2 := by
  rcases s.replaceEndpoint_spec now endpointID entries with ⟨-, _, -, same⟩ | ⟨-, _, -, replaced⟩
  · rw [same]
    dsimp only [SameAt, InMemoryPolicyStore.entries, revision]
    exact ⟨rfl, rfl⟩
  · rw [SameAt, InMemoryPolicyStore.entries, revision, replaced.endpoints, replaced.revisions,
      lookup_insert_ne differ, lookup_insert_ne differ]
    exact ⟨rfl, rfl⟩

theorem sameAt_deleteEndpoint (now : Time) {endpointID other : String}
    (differ : other ≠ endpointID) : SameAt other s (s.deleteEndpoint now endpointID) := by
  have recorded : (s.recordEndpointDelete now endpointID).endpoints = s.endpoints ∧
      (s.recordEndpointDelete now endpointID).revisions = s.revisions := by
    unfold recordEndpointDelete
    dsimp only
    split <;> exact ⟨rfl, rfl⟩
  simp [SameAt, InMemoryPolicyStore.entries, revision, deleteEndpoint, deleteEndpointLocked,
      lookup_erase_ne differ, recorded]

/-- A sweep leaves the endpoints it is told to keep. -/
theorem sameAt_sweepPolicyEndpoints {keep : List String} (maxIdle : Int)
    (now : Time) (visited : List String) {endpointID : String} (kept : endpointID ∈ keep) :
    SameAt endpointID s (s.sweepPolicyEndpoints keep maxIdle now visited).2 := by
  have step : ∀ swept other,
      SameAt endpointID swept.2 (sweepEndpoint keep maxIdle now swept other).2 := by
    intro swept other
    by_cases listed : other ∈ keep
    · rw [sweepEndpoint, if_pos listed]
      exact ⟨rfl, rfl⟩
    · -- The endpoint deleted is none of those to keep.
      have differ : endpointID ≠ other := fun same => listed (same ▸ kept)
      rw [sweepEndpoint, if_neg listed]
      generalize (swept.2.lastSeen.lookup other).getD 0 = lastSeen
      by_cases unseen : lastSeen = 0 <;> simp only [unseen, if_true, if_false] <;> split
      · exact ⟨rfl, rfl⟩
      · exact SameAt.trans ⟨rfl, rfl⟩ (sameAt_deleteEndpoint _ now differ)
      · exact ⟨rfl, rfl⟩
      · exact sameAt_deleteEndpoint _ now differ
  unfold sweepPolicyEndpoints
  split
  · exact ⟨rfl, rfl⟩
  · suffices all : ∀ swept, SameAt endpointID swept.2
        (visited.foldl (sweepEndpoint keep maxIdle now) swept).2 from all (0, s)
    induction visited with
    | nil => exact fun swept => ⟨rfl, rfl⟩
    | cons other rest ih => exact fun swept => (step swept other).trans (ih _)

/-! ### Usage -/

structure PolicyMapUsage where
  endpointID : String
  entries : BitVec 32
  capacity : BitVec 32

/-- `PolicyMapUsage`: the maps in memory have no capacity. -/
def policyMapUsage : List PolicyMapUsage :=
  let usages := s.endpoints.entries.map fun stored => {
    endpointID := stored.1
    entries := BitVec.ofNat 32 stored.2.length
    capacity := 0 }
  usages.insertionSort fun a b => a.endpointID ≤ b.endpointID

/-- The greatest pressure of `SummarizePolicyMapUsage` and the endpoint that has it, the
first by name. -/
def maxPressure (usages : List PolicyMapUsage) : BitVec 32 × String :=
  usages.foldl (fun (highest : BitVec 32 × String) usage =>
    let pressure := policyMapPressurePercent usage.entries usage.capacity
    if pressure > highest.1 || (pressure = highest.1 && pressure > 0 &&
        (highest.2 = "" || usage.endpointID < highest.2)) then (pressure, usage.endpointID)
    else highest) (0, "")

/-- A store in memory is never under pressure. -/
theorem maxPressure_policyMapUsage :
    maxPressure s.policyMapUsage = (0, "") := by
  have unlimited : ∀ usage ∈ s.policyMapUsage, usage.capacity = 0 := by
    intro usage inside
    obtain ⟨stored, _, rfl⟩ := mem_map.mp ((perm_insertionSort _ _).mem_iff.mp inside)
    rfl
  unfold maxPressure
  revert unlimited
  induction s.policyMapUsage with
  | nil => exact fun _ => rfl
  | cons usage rest ih =>
    intro unlimited
    rw [forall_mem_cons] at unlimited
    simpa [policyMapPressurePercent, unlimited.1] using ih unlimited.2

/-! ### A rule under another name -/

/-- An entry that allows tcp port 80, with the rule it comes from. -/
def webEntry (ruleRef : String) : PolicyMapEntry where
  key := { prefixLen := 64, direction := 1, protocol := 6, destPortBE := 0x5000 }
  value := { l4PrefixLen := 24, precedence := 1000, ruleCookie := 7 }
  ruleRef

/-- The store after two updates of one endpoint. -/
def afterRename (first second : String) : InMemoryPolicyStore :=
  ((new.replaceEndpoint 1 "web" [webEntry first]).2.replaceEndpoint 2 "web" [webEntry second]).2

/-- The second update succeeds and leaves the entry of the first. -/
theorem entries_afterRename :
    ((new.replaceEndpoint 1 "web" [webEntry "prod/a"]).2.replaceEndpoint 2 "web"
      [webEntry "prod/b"]).1 = none ∧
    canonicalPolicyMapEntries [webEntry "prod/b"] = .ok [webEntry "prod/b"] ∧
    (afterRename "prod/a" "prod/b").entries "web" = [webEntry "prod/a"] := by
  decide +kernel

/-- The same rule again: the entry is counted as unchanged and is the wanted one. -/
theorem accounts_web : ∃ desired stats,
    canonicalPolicyMapEntries [webEntry "prod/a"] = .ok desired ∧
    ((afterRename "prod/a" "prod/a").entries "web" = desired ↔
      Refreshed ((new.replaceEndpoint 1 "web" [webEntry "prod/a"]).2.entries "web") desired) ∧
    (afterRename "prod/a" "prod/a").lastStats.lookup "web" = some stats ∧
    stats.added + stats.updated + stats.unchanged = desired.length := by
  have succeeded : ((new.replaceEndpoint 1 "web" [webEntry "prod/a"]).2.replaceEndpoint 2 "web"
      [webEntry "prod/a"]).1 = none := by decide +kernel
  obtain ⟨desired, stats, canonical, entries, _, looked, added, _⟩ :=
    (replaceEndpoint_accounts (new.replaceEndpoint 1 "web" [webEntry "prod/a"]).2 2 "web"
      [webEntry "prod/a"] _ _ rfl).1 succeeded
  exact ⟨desired, stats, canonical, entries, looked, added⟩

end InMemoryPolicyStore

end Netloom.Dataplane
