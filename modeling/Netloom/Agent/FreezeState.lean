import Netloom.Lib.Fold
import Netloom.Lib.Ranging
import Netloom.Lib.WriteBehind
import Netloom.Model.Types
import Netloom.Strings

/-!
# The freeze state of the agent

Calls that freeze and unfreeze endpoints change a map under a lock and save all of its
entries after they have released the lock. A call whose save fails puts back the map it had
found. Between these steps other calls can run.

This machine, with maps, trimmed identifiers and expiry times, follows the general machine
that saves behind a lock: a document holds the entries of a saved map that had not expired.
-/
namespace Netloom.Agent

open Fold
open Model (Time)
open Ranging (Order)
open Strings (trimSpace sortStrings)

/-! ### Entries -/

/-- `policyFreezeStateEntry`; a time of zero is no expiry. -/
structure FreezeEntry where
  endpointID : String
  expiresAt : Time
  deriving DecidableEq, Repr

/-- A freeze that has not expired. -/
def Active (now expiresAt : Time) : Prop := expiresAt = 0 ∨ now < expiresAt

instance (now expiresAt : Time) : Decidable (Active now expiresAt) :=
  inferInstanceAs (Decidable (_ ∨ _))

abbrev FrozenEndpoints := AList fun _ : String => Time

/-- The entries that count, with their identifiers trimmed. -/
def liveEntries (values : List FreezeEntry) (now : Time) : List FreezeEntry :=
  (values.map fun value => { value with endpointID := trimSpace value.endpointID }).filter
    fun value => value.endpointID ≠ "" && Active now value.expiresAt

/-- The entries of a map in the order of their identifiers. -/
def sortedEntries (seen : FrozenEndpoints) : List FreezeEntry :=
  (sortStrings seen.keys).filterMap fun endpointID =>
    (seen.lookup endpointID).map (FreezeEntry.mk endpointID)

def normalizePolicyFreezeStateEntries (values : List FreezeEntry) (now : Time) : List FreezeEntry :=
  sortedEntries (insertAll FreezeEntry.endpointID FreezeEntry.expiresAt (liveEntries values now))

def frozenPolicyStateEntriesLocked (order : Order) (frozen : FrozenEndpoints) (now : Time) :
    List FreezeEntry :=
  normalizePolicyFreezeStateEntries
    ((order.arrange frozen.entries).map fun entry => ⟨entry.1, entry.2⟩) now

def cloneFrozenPolicyEndpoints (order : Order) (values : FrozenEndpoints) : FrozenEndpoints :=
  insertAll FreezeEntry.endpointID FreezeEntry.expiresAt
    (((order.arrange values.entries).map fun entry => ⟨trimSpace entry.1, entry.2⟩).filter
      fun value => value.endpointID ≠ "")

/-! ### Calls -/

/-- The calls that have found their endpoint. -/
inductive FreezeAction where
  | freeze (endpointID : String) (expiresAt : Time)
  | unfreeze (endpointID : String)
  deriving DecidableEq, Repr

def FreezeAction.endpointID : FreezeAction → String
  | freeze endpointID _ | unfreeze endpointID => endpointID

/-- What a call does to the map under the lock. -/
def FreezeAction.change (frozen : FrozenEndpoints) : FreezeAction → FrozenEndpoints
  | freeze endpointID expiresAt => frozen.insert endpointID expiresAt
  | unfreeze endpointID => frozen.erase endpointID

/-- A call that has released the lock. -/
structure FreezeCall where
  action : FreezeAction
  previous : FrozenEndpoints
  next : List FreezeEntry
  /-- Its save has failed and it has not put back the map yet. -/
  failed : Bool := false

structure FreezeState where
  frozenEndpoints : FrozenEndpoints
  /-- The entries of the document in the store. -/
  document : List FreezeEntry
  now : Time
  calls : List FreezeCall := []
  /-- The last save has not failed. -/
  lastSaved : Bool := true
  /-- The calls that have returned without an error, in order. -/
  acknowledged : List FreezeAction := []

/-- Steps of the calls, each call given by its place among those under way, and time passing. -/
inductive FreezeEvent where
  | lock (action : FreezeAction) (order order' : Order.{0})
  | saved (n : Nat)
  | failed (n : Nat)
  | rollback (n : Nat)
  | tick (duration : Nat)

/-- One step of `freezePolicyEndpoint`, `unfreezePolicyEndpoint` or the clock. -/
def freezeStep (s : FreezeState) : FreezeEvent → FreezeState
  | .lock action order order' =>
    let frozen := action.change s.frozenEndpoints
    { s with
      frozenEndpoints := frozen
      calls := s.calls ++ [{
        action, previous := cloneFrozenPolicyEndpoints order s.frozenEndpoints
        next := frozenPolicyStateEntriesLocked order' frozen s.now }] }
  | .saved n => match s.calls[n]? with
    | some ⟨action, _, next, false⟩ =>
      { s with
        document := normalizePolicyFreezeStateEntries next s.now
        calls := s.calls.eraseIdx n
        lastSaved := true
        acknowledged := s.acknowledged ++ [action] }
    | _ => s
  | .failed n => match s.calls[n]? with
    | some ⟨action, previous, next, false⟩ =>
      { s with calls := s.calls.set n ⟨action, previous, next, true⟩, lastSaved := false }
    | _ => s
  | .rollback n => match s.calls[n]? with
    | some ⟨_, previous, _, true⟩ =>
      { s with frozenEndpoints := previous, calls := s.calls.eraseIdx n }
    | _ => s
  | .tick duration => { s with now := s.now + duration }

/-- `configurePolicyFreezeState`: the map as the document in the store says. -/
def configurePolicyFreezeState (document : List FreezeEntry) (now : Time) : FreezeState where
  frozenEndpoints :=
    insertAll FreezeEntry.endpointID FreezeEntry.expiresAt (liveEntries document now)
  document
  now

open List AList Strings
open WriteBehind (Machine)

/-! ### Entries -/

/-- An identifier that trimming leaves as it is. -/
def PlainID (endpointID : String) : Prop := trimSpace endpointID = endpointID ∧ endpointID ≠ ""

theorem Active.earlier {now later expiresAt : Time} (le : now ≤ later)
    (active : Active later expiresAt) : Active now expiresAt :=
  active.imp_right fun before => lt_of_le_of_lt le before

/-- A map as a function. -/
abbrev Freezes := String → Option Time

/-- The entries of a map that have not expired at a time. -/
structure Renders (now : Time) (freezes : Freezes) (entries : List FreezeEntry) : Prop where
  mem : ∀ endpointID expiresAt, ⟨endpointID, expiresAt⟩ ∈ entries ↔
    freezes endpointID = some expiresAt ∧ Active now expiresAt
  plain : ∀ entry ∈ entries, PlainID entry.endpointID
  nodup : (entries.map FreezeEntry.endpointID).Nodup

theorem mem_sortedEntries (seen : FrozenEndpoints) (endpointID : String) (expiresAt : Time) :
    ⟨endpointID, expiresAt⟩ ∈ sortedEntries seen ↔ seen.lookup endpointID = some expiresAt := by
  simp only [sortedEntries, mem_filterMap, mem_sortStrings, Option.map_eq_some_iff]
  constructor
  · rintro ⟨_, _, _, found, same⟩
    cases same
    exact found
  · intro found
    refine ⟨endpointID, ?_, expiresAt, found, rfl⟩
    rw [← AList.mem_keys, ← lookup_isSome, found]
    rfl

theorem map_sortedEntries (seen : FrozenEndpoints) :
    (sortedEntries seen).map FreezeEntry.endpointID = sortStrings seen.keys := by
  rw [sortedEntries, map_filterMap]
  refine (filterMap_congr fun endpointID member => ?_).trans filterMap_some
  rw [mem_sortStrings, ← AList.mem_keys, ← lookup_isSome] at member
  obtain ⟨expiresAt, found⟩ := Option.isSome_iff_exists.mp member
  rw [found]
  rfl

/-- The entries of a normalized list have plain identifiers, each once. -/
theorem plain_normalize (values : List FreezeEntry) (now : Time) :
    (∀ entry ∈ normalizePolicyFreezeStateEntries values now, PlainID entry.endpointID) ∧
      ((normalizePolicyFreezeStateEntries values now).map FreezeEntry.endpointID).Nodup := by
  constructor
  · rintro ⟨endpointID, expiresAt⟩ member
    rw [normalizePolicyFreezeStateEntries, mem_sortedEntries] at member
    obtain ⟨entry, live, rfl, _⟩ := of_lookup_insertAll _ _ member
    simp only [liveEntries, mem_filter, mem_map, Bool.and_eq_true, decide_eq_true_eq]
      at live
    obtain ⟨⟨value, _, rfl⟩, named, _⟩ := live
    exact ⟨trimSpace_trimSpace _, named⟩
  · rw [normalizePolicyFreezeStateEntries, map_sortedEntries]
    exact (sortStrings_perm _).nodup_iff.mpr (keys_nodup _)

section Plain

variable {values : List FreezeEntry} (plain : ∀ entry ∈ values, PlainID entry.endpointID)
include plain

theorem map_trimSpace_of_plain : values.map (fun value : FreezeEntry =>
    { value with endpointID := trimSpace value.endpointID }) = values := by
  refine (map_congr_left fun value member => ?_).trans (map_id _)
  rw [(plain value member).1]
  rfl

omit plain in
theorem lookup_insertAll_entries (nodup : (values.map FreezeEntry.endpointID).Nodup)
    (endpointID : String) (expiresAt : Time) :
    (insertAll FreezeEntry.endpointID FreezeEntry.expiresAt values).lookup endpointID =
      some expiresAt ↔ ⟨endpointID, expiresAt⟩ ∈ values := by
  rw [lookup_insertAll _ _ nodup]
  constructor
  · rintro ⟨⟨_, _⟩, member, rfl, rfl⟩
    exact member
  · intro member
    exact ⟨_, member, rfl, rfl⟩

variable (nodup : (values.map FreezeEntry.endpointID).Nodup) (now : Time)
include nodup

/-- The map of the live entries of a list with plain identifiers, each once. -/
theorem lookup_liveEntries (endpointID : String) (expiresAt : Time) :
    (insertAll FreezeEntry.endpointID FreezeEntry.expiresAt (liveEntries values now)).lookup
      endpointID = some expiresAt ↔ ⟨endpointID, expiresAt⟩ ∈ values ∧ Active now expiresAt := by
  have live : liveEntries values now = values.filter fun value => Active now value.expiresAt := by
    rw [liveEntries, map_trimSpace_of_plain plain]
    refine filter_congr fun value member => ?_
    simp [(plain value member).2]
  rw [live, lookup_insertAll_entries ((filter_sublist.map _).nodup nodup), mem_filter,
    decide_eq_true_eq]

/-- A list with plain identifiers, each once, keeps what has not expired. -/
theorem renders_normalize {freezes : Freezes}
    (mem : ∀ endpointID expiresAt, Active now expiresAt →
      (⟨endpointID, expiresAt⟩ ∈ values ↔ freezes endpointID = some expiresAt)) :
    Renders now freezes (normalizePolicyFreezeStateEntries values now) where
  plain := (plain_normalize values now).1
  nodup := (plain_normalize values now).2
  mem endpointID expiresAt := by
    rw [normalizePolicyFreezeStateEntries, mem_sortedEntries, lookup_liveEntries plain nodup]
    exact and_congr_left (mem endpointID expiresAt)

end Plain

/-! ### Maps -/

/-- What an action does to a map as a function. -/
def FreezeAction.apply (action : FreezeAction) (freezes : Freezes) : Freezes :=
  match action with
  | freeze endpointID expiresAt => Function.update freezes endpointID (some expiresAt)
  | unfreeze endpointID => Function.update freezes endpointID none

/-- A map with plain identifiers holds the freezes. -/
structure Holds (frozen : FrozenEndpoints) (freezes : Freezes) : Prop where
  lookup : ∀ endpointID, frozen.lookup endpointID = freezes endpointID
  plain : ∀ endpointID expiresAt, freezes endpointID = some expiresAt → PlainID endpointID

section

variable {frozen : FrozenEndpoints} {freezes : Freezes}

theorem FreezeAction.apply_of_ne {action : FreezeAction} {other : String}
    (differ : other ≠ action.endpointID) : action.apply freezes other = freezes other := by
  cases action <;> exact Function.update_of_ne differ _ _

theorem Holds.change (holds : Holds frozen freezes) {action : FreezeAction}
    (plain : PlainID action.endpointID) : Holds (action.change frozen) (action.apply freezes) := by
  constructor
  · intro other
    by_cases here : other = action.endpointID
    · subst here
      cases action <;> simp [FreezeAction.change, FreezeAction.apply, FreezeAction.endpointID]
    · rw [FreezeAction.apply_of_ne here, ← holds.lookup]
      cases action with
      | freeze _ _ => exact lookup_insert_ne here
      | unfreeze _ => exact lookup_erase_ne here
  · intro other expiresAt found
    by_cases here : other = action.endpointID
    · exact here ▸ plain
    · exact holds.plain other expiresAt ((FreezeAction.apply_of_ne here).symm.trans found)

/-- The entries of the map in the order of a loop. -/
theorem Holds.entries (holds : Holds frozen freezes) (order : Order) :
    let entries := (order.arrange frozen.entries).map fun entry => FreezeEntry.mk entry.1 entry.2
    (∀ entry ∈ entries, PlainID entry.endpointID) ∧
      (entries.map FreezeEntry.endpointID).Nodup ∧ ∀ endpointID expiresAt,
        ⟨endpointID, expiresAt⟩ ∈ entries ↔ freezes endpointID = some expiresAt := by
  have perm := order.perm frozen.entries
  have mem : ∀ endpointID expiresAt, ⟨endpointID, expiresAt⟩ ∈ (order.arrange frozen.entries).map
      (fun entry => FreezeEntry.mk entry.1 entry.2) ↔ freezes endpointID = some expiresAt := by
    intro endpointID expiresAt
    rw [← holds.lookup, ← Option.mem_def, mem_lookup_iff, ← perm.mem_iff, mem_map]
    grind
  refine ⟨fun entry member => holds.plain _ _ ((mem _ _).mp member), ?_, mem⟩
  rw [map_map]
  exact (perm.map Sigma.fst).nodup_iff.mpr frozen.nodupKeys

theorem Holds.clone (holds : Holds frozen freezes) (order : Order) :
    Holds (cloneFrozenPolicyEndpoints order frozen) freezes := by
  obtain ⟨plain, nodup, mem⟩ := holds.entries order
  have same : (((order.arrange frozen.entries).map fun entry =>
      FreezeEntry.mk (trimSpace entry.1) entry.2).filter fun value => value.endpointID ≠ "") =
      (order.arrange frozen.entries).map fun entry => FreezeEntry.mk entry.1 entry.2 := by
    refine (congrArg _ (map_map.symm.trans (map_trimSpace_of_plain plain))).trans ?_
    exact filter_eq_self.mpr fun value member => decide_eq_true (plain value member).2
  refine ⟨fun endpointID => Option.ext fun expiresAt => ?_, holds.plain⟩
  rw [cloneFrozenPolicyEndpoints, same, lookup_insertAll_entries nodup, mem]

theorem Holds.renders (holds : Holds frozen freezes) (order : Order) (now : Time) :
    Renders now freezes (frozenPolicyStateEntriesLocked order frozen now) := by
  obtain ⟨plain, nodup, mem⟩ := holds.entries order
  exact renders_normalize plain nodup now fun endpointID expiresAt _ => mem endpointID expiresAt

theorem Renders.again {before now : Time} {entries : List FreezeEntry}
    (renders : Renders before freezes entries) (le : before ≤ now) :
    Renders now freezes (normalizePolicyFreezeStateEntries entries now) :=
  renders_normalize renders.plain renders.nodup now fun endpointID expiresAt active =>
    (renders.mem endpointID expiresAt).trans (and_iff_left (active.earlier le))

end

/-! ### Following the general machine -/

/-- A call under way and what it stands for. -/
structure CallFollows (now : Time) (call : FreezeCall)
    (general : WriteBehind.Call Freezes FreezeAction) : Prop where
  action : call.action = general.action
  failed : call.failed = general.failed
  previous : Holds call.previous general.previous
  next : ∃ before ≤ now, Renders before general.result call.next

/-- A state of the agent and what it stands for. -/
structure Follows (s : FreezeState) (m : Machine Freezes FreezeAction) : Prop where
  memory : Holds s.frozenEndpoints m.memory
  calls : List.Forall₂ (CallFollows s.now) s.calls m.calls
  document : ∀ endpointID expiresAt, Active s.now expiresAt →
    (⟨endpointID, expiresAt⟩ ∈ s.document ↔ m.saved endpointID = some expiresAt)
  clean : s.lastSaved = m.clean
  done : s.acknowledged = m.done

/-- What an event is to the general machine; time is nothing to it. -/
def FreezeEvent.general : FreezeEvent → Option (WriteBehind.Event FreezeAction)
  | lock action _ _ => some (.lock action)
  | saved n => some (.saved n)
  | failed n => some (.failed n)
  | rollback n => some (.restored n)
  | tick _ => none

/-- A step of the general machine, if there is one. -/
def generalStep (m : Machine Freezes FreezeAction) (event : FreezeEvent) :
    Machine Freezes FreezeAction :=
  match event.general with
  | some general => WriteBehind.step FreezeAction.apply m general
  | none => m

/-- What keeps the document up with the map: identifiers are plain, no call takes the lock before
a failed call has put back its map, calls save in the order of their locks, and a save fails only
if no other call is under way. -/
def OrderlyFreeze (s : FreezeState) : FreezeEvent → Prop
  | .lock action _ _ => PlainID action.endpointID ∧ ∀ call ∈ s.calls, call.failed = false
  | .saved n => n = 0
  | .failed _ => s.calls.length ≤ 1
  | .rollback _ => True
  | .tick _ => True

/-! #### Steps -/

theorem forall₂_eraseIdx {α β : Type} {R : α → β → Prop} {left : List α} {right : List β}
    (related : List.Forall₂ R left right) (n : Nat) :
    List.Forall₂ R (left.eraseIdx n) (right.eraseIdx n) := by
  rw [eraseIdx_eq_take_drop_succ, eraseIdx_eq_take_drop_succ]
  exact rel_append (forall₂_take n related) (forall₂_drop (n + 1) related)

theorem forall₂_set {α β : Type} {R : α → β → Prop} {left : List α} {right : List β}
    (related : List.Forall₂ R left right) {a : α} {b : β} (new : R a b) (n : Nat) :
    List.Forall₂ R (left.set n a) (right.set n b) := by
  rw [set_eq_take_append_cons_drop, set_eq_take_append_cons_drop, related.length_eq]
  split
  · exact rel_append (forall₂_take n related) (.cons new (forall₂_drop (n + 1) related))
  · exact related

section

variable {s : FreezeState} {m : Machine Freezes FreezeAction}

section

variable (follows : Follows s m)

include follows

/-- A call and its counterpart are at the same place. -/
theorem Follows.call (n : Nat) :
    (s.calls[n]? = none ∧ m.calls[n]? = none) ∨ ∃ action failed previous held next result,
      s.calls[n]? = some ⟨action, previous, next, failed⟩ ∧
      m.calls[n]? = some ⟨action, held, result, failed⟩ ∧
      CallFollows s.now ⟨action, previous, next, failed⟩ ⟨action, held, result, failed⟩ := by
  have length := follows.calls.length_eq
  by_cases inside : n < s.calls.length
  · have here := getElem?_eq_getElem inside
    have there := getElem?_eq_getElem (length ▸ inside : n < m.calls.length)
    have follow : CallFollows _ s.calls[n] m.calls[n] := follows.calls.get inside (length ▸ inside)
    rw [here, there]
    generalize s.calls[n] = call, m.calls[n] = general at follow
    cases call
    cases general
    obtain ⟨rfl, rfl, _⟩ := id follow
    exact .inr ⟨_, _, _, _, _, _, rfl, rfl, follow⟩
  · exact .inl ⟨getElem?_eq_none (by omega), getElem?_eq_none (by omega)⟩

theorem Follows.orderly {event : FreezeEvent}
    (orderly : OrderlyFreeze s event) :
    ∀ general ∈ event.general, WriteBehind.Orderly m general := by
  have length := follows.calls.length_eq
  intro general same
  cases event with
  | lock action order order' =>
    cases same
    intro call member
    obtain ⟨n, found⟩ := getElem?_of_mem member
    obtain ⟨_, none⟩ | ⟨_, _, _, _, _, _, here, there, _⟩ := follows.call n
    · exact absurd found (by simp [none])
    · rw [found, Option.some.injEq] at there
      rw [there]
      exact orderly.2 _ (mem_of_getElem? here)
  | saved n =>
    cases same
    exact orderly
  | failed n =>
    cases same
    exact (length.symm.trans_le orderly : m.calls.length ≤ 1)
  | rollback n =>
    cases same
    trivial
  | tick duration => cases same

theorem Follows.lock {action : FreezeAction}
    (plain : PlainID action.endpointID) (order order' : Order) :
    Follows (freezeStep s (.lock action order order'))
      (generalStep m (.lock action order order')) where
  memory := follows.memory.change plain
  calls := by
    refine rel_append follows.calls (.cons ⟨rfl, rfl, follows.memory.clone order, s.now,
      le_refl _, ?_⟩ .nil)
    exact (follows.memory.change plain).renders order' s.now
  document := follows.document
  clean := follows.clean
  done := follows.done

variable (n : Nat)

theorem Follows.save : Follows (freezeStep s (.saved n)) (generalStep m (.saved n)) := by
  simp only [generalStep, FreezeEvent.general, WriteBehind.step, freezeStep]
  obtain ⟨here, there⟩ | ⟨action, failed, _, _, _, _, here, there, _, _, _, before, le, renders⟩ :=
    follows.call n <;> rw [here, there]
  · exact follows
  · cases failed with
    | true => exact follows
    | false =>
      refine ⟨follows.memory, forall₂_eraseIdx follows.calls n, fun endpointID expiresAt active => ?_,
        rfl, congrArg (· ++ [action]) follows.done⟩
      exact ((renders.again le).mem endpointID expiresAt).trans (and_iff_left active)

theorem Follows.fail : Follows (freezeStep s (.failed n)) (generalStep m (.failed n)) := by
  simp only [generalStep, FreezeEvent.general, WriteBehind.step, freezeStep]
  obtain ⟨here, there⟩ | ⟨action, failed, previous, held, next, result, here, there, follow⟩ :=
    follows.call n <;> rw [here, there]
  · exact follows
  · cases failed with
    | true => exact follows
    | false =>
      have marked : CallFollows s.now ⟨action, previous, next, true⟩ ⟨action, held, result, true⟩ :=
        { follow with failed := rfl }
      exact ⟨follows.memory, forall₂_set follows.calls marked n, follows.document, rfl,
        follows.done⟩

theorem Follows.restore : Follows (freezeStep s (.rollback n)) (generalStep m (.rollback n)) := by
  simp only [generalStep, FreezeEvent.general, WriteBehind.step, freezeStep]
  obtain ⟨here, there⟩ | ⟨action, failed, previous, held, next, result, here, there, follow⟩ :=
    follows.call n <;> rw [here, there]
  · exact follows
  · cases failed with
    | true =>
      exact ⟨follow.previous, forall₂_eraseIdx follows.calls n, follows.document, follows.clean,
        follows.done⟩
    | false => exact follows

theorem Follows.wait (duration : Nat) :
    Follows (freezeStep s (.tick duration)) (generalStep m (.tick duration)) where
  memory := follows.memory
  calls := follows.calls.imp fun _ _ follow =>
    let ⟨before, le, renders⟩ := follow.next
    { follow with next := ⟨before, le.trans (by simp [freezeStep]), renders⟩ }
  document endpointID expiresAt active :=
    follows.document endpointID expiresAt (active.earlier (by simp [freezeStep]))
  clean := follows.clean
  done := follows.done

/-- One step of the agent is one of the general machine, or time passes. -/
theorem Follows.step {event : FreezeEvent}
    (orderly : OrderlyFreeze s event) : Follows (freezeStep s event) (generalStep m event) := by
  cases event with
  | lock action order order' => exact follows.lock orderly.1 order order'
  | saved n => exact follows.save n
  | failed n => exact follows.fail n
  | rollback n => exact follows.restore n
  | tick duration => exact follows.wait duration

end

end

/-! ### Durability -/

/-- While no call is under way and the last save has not failed, document and map have the same
entries that have not expired, and an endpoint whose freeze has been acknowledged and that has not
been unfrozen since is in both, unless its freeze has expired. -/
structure Durable (s : FreezeState) : Prop where
  same : s.calls = [] → s.lastSaved = true → ∀ endpointID expiresAt, Active s.now expiresAt →
    (⟨endpointID, expiresAt⟩ ∈ s.document ↔ s.frozenEndpoints.lookup endpointID = some expiresAt)
  kept : s.calls = [] → s.lastSaved = true → ∀ before after endpointID expiresAt,
    s.acknowledged = before ++ .freeze endpointID expiresAt :: after →
    FreezeAction.unfreeze endpointID ∉ after →
    ∃ last, .freeze endpointID last ∈ FreezeAction.freeze endpointID expiresAt :: after ∧
      s.frozenEndpoints.lookup endpointID = some last ∧
      (Active s.now last → ⟨endpointID, last⟩ ∈ s.document)

/-- An endpoint stays frozen until it is unfrozen. -/
theorem frozen_after {endpointID : String} {actions : List FreezeAction} {freezes : Freezes}
    {expiresAt : Time} (frozen : freezes endpointID = some expiresAt)
    (kept : FreezeAction.unfreeze endpointID ∉ actions) :
    ∃ last, .freeze endpointID last ∈ FreezeAction.freeze endpointID expiresAt :: actions ∧
      actions.foldl (fun freezes action => action.apply freezes) freezes endpointID = some last := by
  induction actions generalizing freezes expiresAt with
  | nil => exact ⟨expiresAt, by simp, frozen⟩
  | cons action rest ih =>
    obtain ⟨differ, later⟩ := not_or.mp (mt mem_cons.mpr kept)
    by_cases here : action.endpointID = endpointID
    · cases action with
      | freeze other renewed =>
        obtain rfl : other = endpointID := here
        obtain ⟨last, listed, found⟩ :=
          @ih (FreezeAction.apply (.freeze other renewed) freezes) renewed
            (by simp [FreezeAction.apply]) later
        exact ⟨last, mem_cons_of_mem _ listed, found⟩
      | unfreeze other =>
        obtain rfl : other = endpointID := here
        exact absurd rfl differ
    · obtain ⟨last, listed, found⟩ :=
        ih ((FreezeAction.apply_of_ne (Ne.symm here)).trans frozen) later
      refine ⟨last, ?_, found⟩
      rcases mem_cons.mp listed with first | later
      · exact mem_cons.mpr (.inl first)
      · exact mem_cons_of_mem _ (mem_cons_of_mem _ later)

theorem durable_of_ordered {s : FreezeState} {m : Machine Freezes FreezeAction} {start : Freezes}
    (follows : Follows s m) (ordered : WriteBehind.Ordered FreezeAction.apply start m) :
    Durable s := by
  have settled : s.calls = [] → s.lastSaved →
      m.memory = WriteBehind.acknowledged FreezeAction.apply start m ∧ m.saved = m.memory := by
    intro idle clean
    have calls := follows.calls
    rw [idle, forall₂_nil_left_iff] at calls
    obtain ⟨memory, saved⟩ := ordered.settled calls
    exact ⟨memory, saved (follows.clean ▸ clean)⟩
  have same : s.calls = [] → s.lastSaved → ∀ endpointID expiresAt,
      Active s.now expiresAt → (⟨endpointID, expiresAt⟩ ∈ s.document ↔
        s.frozenEndpoints.lookup endpointID = some expiresAt) := by
    intro idle clean endpointID expiresAt active
    rw [follows.document endpointID expiresAt active, (settled idle clean).2, follows.memory.lookup]
  refine ⟨same, fun idle clean before after endpointID expiresAt listed kept => ?_⟩
  obtain ⟨last, member, found⟩ := @frozen_after endpointID after
    ((FreezeAction.freeze endpointID expiresAt).apply
      (before.foldl (fun freezes action => action.apply freezes) start)) expiresAt
    (by simp [FreezeAction.apply]) kept
  have held : s.frozenEndpoints.lookup endpointID = some last := by
    rw [follows.memory.lookup, (settled idle clean).1, WriteBehind.acknowledged, ← follows.done,
      listed, foldl_append, foldl_cons]
    exact found
  exact ⟨last, member, held, fun active => (same idle clean endpointID last active).mpr held⟩

/-- A map with the entries of the document that have not expired starts together with it. -/
theorem Follows.initial {frozen : FrozenEndpoints} {document : List FreezeEntry} {now : Time}
    (plain : ∀ entry ∈ document, PlainID entry.endpointID)
    (found : ∀ endpointID expiresAt, frozen.lookup endpointID = some expiresAt ↔
      ⟨endpointID, expiresAt⟩ ∈ document ∧ Active now expiresAt) :
    Follows { frozenEndpoints := frozen, document, now }
      { memory := fun endpointID => frozen.lookup endpointID
        saved := fun endpointID => frozen.lookup endpointID } := by
  refine ⟨⟨fun _ => rfl, fun endpointID expiresAt held => ?_⟩, .nil,
    fun endpointID expiresAt active => ?_, rfl, rfl⟩
  · exact plain ⟨endpointID, expiresAt⟩ ((found endpointID expiresAt).mp held).1
  · rw [found endpointID expiresAt]
    exact (and_iff_left active).symm

/-- In every run whose steps are orderly, the freeze state is durable in every state reached. -/
theorem freezeState_durable (values : List FreezeEntry) (before now : Time)
    (events : List FreezeEvent)
    (orderly : Runs.EachCall freezeStep OrderlyFreeze
      (configurePolicyFreezeState (normalizePolicyFreezeStateEntries values before) now) events) :
    Runs.Throughout freezeStep Durable
      (configurePolicyFreezeState (normalizePolicyFreezeStateEntries values before) now) events := by
  obtain ⟨plain, nodup⟩ := plain_normalize values before
  have initial := Follows.initial plain (lookup_liveEntries plain nodup now)
  have simulated := Runs.throughout_of_eachCall
    (fun s event (followed : ∃ m, Follows s m ∧
        WriteBehind.Ordered FreezeAction.apply _ m) orderly => by
      obtain ⟨m, follows, ordered⟩ := followed
      refine ⟨generalStep m event, follows.step orderly, ?_⟩
      unfold generalStep
      cases same : event.general with
      | none => exact ordered
      | some general => exact ordered.step general (follows.orderly orderly general same))
    ⟨_, initial, WriteBehind.Ordered.initial _⟩ orderly
  intro done rest split
  obtain ⟨m, follows, ordered⟩ := simulated done rest split
  exact durable_of_ordered follows ordered

/-! ### Two calls whose saves change places -/

def agentStart : FreezeState :=
  configurePolicyFreezeState (normalizePolicyFreezeStateEntries [] 0) 0

def identityLock (endpointID : String) : FreezeEvent :=
  .lock (.freeze endpointID 0) Order.identity Order.identity

theorem freezeState_durable_in_order :
    Durable (Runs.after freezeStep agentStart
      [identityLock "a", identityLock "b", .saved 0, .saved 0]) := by
  refine freezeState_durable [] 0 0 [identityLock "a", identityLock "b", .saved 0, .saved 0] ?_ _ []
    rfl
  simp only [Runs.eachCall_cons]
  refine ⟨⟨⟨by decide +kernel, by decide +kernel⟩, fun call member => ?_⟩,
    ⟨⟨by decide +kernel, by decide +kernel⟩, fun call member => ?_⟩, rfl, rfl, ?_⟩
  · cases member
  · obtain rfl := mem_singleton.mp member
    rfl
  · intro before call rest split
    exact absurd split (by simp)

/-- Both calls succeed, and the document has lost the second one. -/
theorem freezeState_saves_swapped :
    let s := Runs.after freezeStep agentStart
      [identityLock "a", identityLock "b", .saved 1, .saved 0]
    s.calls.length = 0 ∧ s.lastSaved = true ∧
      s.acknowledged = [.freeze "b" 0, .freeze "a" 0] ∧
      s.frozenEndpoints.lookup "b" = some 0 ∧ s.document = [⟨"a", 0⟩] ∧ ¬Durable s := by
  refine ⟨by decide +kernel, by decide +kernel, by decide +kernel, by decide +kernel,
    by decide +kernel, fun durable => ?_⟩
  have missing := (durable.same rfl (by decide +kernel) "b" 0 (.inl rfl)).mpr (by decide +kernel)
  exact absurd missing (by decide +kernel)

end Netloom.Agent
