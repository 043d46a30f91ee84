import Netloom.Dataplane.MemoryStore

/-!
# Counting the policy events of a step

A step of the reconciler takes a cursor to the event log before it calls the
store and counts what the log holds after the cursor when it is done. The log
is bounded, so the cursor names the last event by its content. An event with the
same content after the cursor is taken for it.
-/
namespace Netloom.Agent

open List Dataplane InMemoryPolicyStore
open Model (Time)

structure PolicyEventMarker where
  endpointID : String
  previousRevision : BitVec 64
  revision : BitVec 64
  success : Bool
  error : String
  deriving DecidableEq

/-- `policyEventCursor`, with `hasLast` and `last` as an option. -/
structure PolicyEventCursor where
  length : Nat
  last : Option PolicyEventMarker

def policyEventMarkerFrom (event : PolicyUpdateEvent) : PolicyEventMarker where
  endpointID := event.endpointID
  previousRevision := event.previousRevision
  revision := event.revision
  success := event.success
  error := event.error

def policyEventCursorFrom (events : List PolicyUpdateEvent) : PolicyEventCursor where
  length := events.length
  last := events.getLast?.map policyEventMarkerFrom

/-- The loop of `policyEventDeltaStart` goes from the last event to the first. -/
def policyEventDeltaStart (events : List PolicyUpdateEvent) (cursor : PolicyEventCursor) : Nat :=
  match cursor.last with
  | none => 0
  | some last =>
    match events.reverse.findIdx? fun event => policyEventMarkerFrom event = last with
    | some back => events.length - back
    | none => if events.length > cursor.length then cursor.length else 0

/-- What `ReconcileResult` says of policy events. -/
structure PolicyEventCounts where
  policyAdded : Int := 0
  policyUpdated : Int := 0
  policyDeleted : Int := 0
  policyUnchanged : Int := 0
  policyEvents : Int := 0
  policyFailed : Int := 0
  policyRollbacks : Int := 0
  policyFailedEndpoint : String := ""
  policyFailedRevision : BitVec 64 := 0
  policyRevisionMax : BitVec 64 := 0
  policyLastError : String := ""

/-- The body of the loop of `recordPolicyEventsDelta`. -/
def recordPolicyEvent (endpointID : String) (result : PolicyEventCounts)
    (event : PolicyUpdateEvent) : PolicyEventCounts :=
  if endpointID ≠ "" ∧ event.endpointID ≠ endpointID then result
  else
    let result := { result with
      policyEvents := result.policyEvents + 1
      policyRevisionMax := if event.revision > result.policyRevisionMax then event.revision
        else result.policyRevisionMax }
    if event.success then { result with
      policyAdded := result.policyAdded + event.stats.added
      policyUpdated := result.policyUpdated + event.stats.updated
      policyDeleted := result.policyDeleted + event.stats.deleted
      policyUnchanged := result.policyUnchanged + event.stats.unchanged }
    else { result with
      policyFailed := result.policyFailed + 1
      policyRollbacks := result.policyRollbacks + 1
      policyFailedEndpoint := event.endpointID
      policyFailedRevision := event.revision
      policyLastError := if event.error ≠ "" then event.error else result.policyLastError }

def recordPolicyEventsDelta (result : PolicyEventCounts) (events : List PolicyUpdateEvent)
    (cursor : PolicyEventCursor) (endpointID : String) : PolicyEventCounts :=
  (events.drop (policyEventDeltaStart events cursor)).foldl (recordPolicyEvent endpointID) result

/-! ### Histories of the store -/

/-- A call that changes the store. -/
inductive MemoryCall where
  | replace (now : Time) (endpointID : String) (entries : List PolicyMapEntry)
  | delete (now : Time) (endpointID : String)
  | setFailAfter (operations : Int)

def MemoryCall.run (s : InMemoryPolicyStore) : MemoryCall → InMemoryPolicyStore
  | replace now endpointID entries => (s.replaceEndpoint now endpointID entries).2
  | delete now endpointID => s.deleteEndpoint now endpointID
  | setFailAfter operations => { s with failAfter := operations }

/-- The events a call appends to the log: no call reads the log, so those it leaves in an
empty one. -/
def MemoryCall.appended (s : InMemoryPolicyStore) (call : MemoryCall) : List PolicyUpdateEvent :=
  (call.run { s with events := [] }).events

def runCalls (s : InMemoryPolicyStore) (calls : List MemoryCall) : InMemoryPolicyStore :=
  calls.foldl MemoryCall.run s

def appendedBy (s : InMemoryPolicyStore) : List MemoryCall → List PolicyUpdateEvent
  | [] => []
  | call :: rest => call.appended s ++ appendedBy (call.run s) rest

variable (events : List PolicyUpdateEvent)

private theorem foldl_append_nil (event : PolicyUpdateEvent) :
    (appendPolicyUpdateEvent [] event).foldl appendPolicyUpdateEvent events =
      appendPolicyUpdateEvent events event := by
  simp [appendPolicyUpdateEvent, defaultPolicyUpdateEventLimit]

theorem MemoryCall.events_run (s : InMemoryPolicyStore) (call : MemoryCall) :
    (call.run s).events = (call.appended s).foldl appendPolicyUpdateEvent s.events := by
  -- The store with the empty log has the same entries and revisions.
  have revision' : ∀ endpointID, ({ s with events := [] } : InMemoryPolicyStore).revision endpointID =
    s.revision endpointID := fun _ => rfl
  have entries' : ∀ endpointID, ({ s with events := [] } : InMemoryPolicyStore).entries endpointID =
    s.entries endpointID := fun _ => rfl
  dsimp only [appended]
  cases call with
  | replace now endpointID given =>
    unfold run replaceEndpoint
    dsimp only [recordPolicyUpdateFailure, stored]
    split
    · simp only [foldl_append_nil, revision']
    · split
      · next failed =>
        split
        · next failed' =>
          cases failed.symm.trans failed'
          simp only [foldl_append_nil, revision', entries']
        · next applied => cases failed.symm.trans applied
      · next applied =>
        split
        · next failed => cases applied.symm.trans failed
        · simp only [foldl_append_nil, revision', entries']
  | delete now endpointID =>
    unfold run deleteEndpoint recordEndpointDelete
    simp only [InMemoryPolicyStore.deleteEndpointLocked, revision', entries']
    split
    · rfl
    · rw [foldl_append_nil]
  | setFailAfter operations => rfl

theorem events_runCalls (s : InMemoryPolicyStore) (calls : List MemoryCall) :
    (runCalls s calls).events = (appendedBy s calls).foldl appendPolicyUpdateEvent s.events := by
  induction calls generalizing s with
  | nil => rfl
  | cons call rest ih =>
    rw [appendedBy, foldl_append, ← call.events_run]
    exact ih _

/-- Fewer events than the log can hold push out older ones only, and never the last. -/
private theorem foldl_append_eq {appended : List PolicyUpdateEvent}
    (few : appended.length < defaultPolicyUpdateEventLimit) :
    ∃ older, appended.foldl appendPolicyUpdateEvent events = older ++ appended ∧
      older.getLast? = events.getLast? := by
  induction appended using reverseRecOn with
  | nil => exact ⟨events, by simp⟩
  | append_singleton appended event ih =>
    rw [length_append, length_singleton] at few
    obtain ⟨older, folded, last⟩ := ih (by omega)
    rw [foldl_append, folded, foldl_cons, foldl_nil, appendPolicyUpdateEvent, append_assoc,
      length_append, drop_append_of_le_length (by omega)]
    refine ⟨_, rfl, ?_⟩
    rw [getLast?_drop, last]
    split
    · grind
    · rfl

/-! ### What is counted -/

private theorem counted (result : PolicyEventCounts) :
    (events.foldl (recordPolicyEvent "") result).policyEvents =
        result.policyEvents + events.length ∧
      (events.foldl (recordPolicyEvent "") result).policyFailed =
        result.policyFailed + events.countP fun event => !event.success := by
  induction events generalizing result with
  | nil => simp
  | cons event rest ih =>
    rw [foldl_cons, (ih _).1, (ih _).2, length_cons, countP_cons]
    cases outcome : event.success <;> simp [recordPolicyEvent, outcome] <;> omega

/-- The walk from the end stops at the cursor unless an appended event has its marker. -/
private theorem policyEventDeltaStart_append {older : List PolicyUpdateEvent}
    {last : PolicyUpdateEvent} {cursor : PolicyEventCursor} (appended : List PolicyUpdateEvent)
    (lastOf : older.getLast? = some last) (marks : cursor.last = some (policyEventMarkerFrom last)) :
    ((∀ event ∈ appended, policyEventMarkerFrom event ≠ policyEventMarkerFrom last) ∧
      policyEventDeltaStart (older ++ appended) cursor = older.length) ∨
    ((∃ event ∈ appended, policyEventMarkerFrom event = policyEventMarkerFrom last) ∧
      older.length < policyEventDeltaStart (older ++ appended) cursor) := by
  obtain ⟨init, rfl⟩ := getLast?_eq_some_iff.mp lastOf
  simp only [policyEventDeltaStart, marks, reverse_append, findIdx?_append]
  cases hit : appended.reverse.findIdx? fun event =>
      policyEventMarkerFrom event = policyEventMarkerFrom last with
  | none =>
    refine .inl ⟨by simpa using hit, ?_⟩
    simp [findIdx?_cons]
    omega
  | some back =>
    obtain ⟨found, same, _⟩ := findIdx?_eq_some_iff_getElem.mp hit
    refine .inr ⟨⟨_, mem_reverse.mp (getElem_mem found), by simpa using same⟩, ?_⟩
    rw [length_reverse] at found
    simp
    omega

/-- The step counts exactly the events appended since the cursor if and only if none of
them has the marker of the last event before it. -/
theorem recordPolicyEventsDelta_exact_iff (s : InMemoryPolicyStore) (calls : List MemoryCall)
    (result : PolicyEventCounts)
    (few : (appendedBy s calls).length ≤ defaultPolicyUpdateEventLimit - 1) :
    ((recordPolicyEventsDelta result (runCalls s calls).events (policyEventCursorFrom s.events)
        "").policyEvents = result.policyEvents + (appendedBy s calls).length ∧
      (recordPolicyEventsDelta result (runCalls s calls).events (policyEventCursorFrom s.events)
        "").policyFailed =
          result.policyFailed + (appendedBy s calls).countP fun event => !event.success) ↔
      ∀ last ∈ s.events.getLast?, ∀ event ∈ appendedBy s calls,
        policyEventMarkerFrom event ≠ policyEventMarkerFrom last := by
  have limit : defaultPolicyUpdateEventLimit = 1024 := rfl
  rw [recordPolicyEventsDelta, (counted _ _).1, (counted _ _).2, events_runCalls]
  generalize appendedBy s calls = appended at *
  obtain ⟨older, log, last⟩ := foldl_append_eq s.events (show appended.length < _ by omega)
  rw [log]
  cases found : s.events.getLast? with
  | none =>
    rw [found, getLast?_eq_none_iff] at last
    simp [policyEventDeltaStart, policyEventCursorFrom, found, last]
  | some event =>
    simp only [Option.mem_some_iff, forall_eq']
    have marks : (policyEventCursorFrom s.events).last = some (policyEventMarkerFrom event) := by
      rw [policyEventCursorFrom, found, Option.map_some]
    rcases policyEventDeltaStart_append appended (last.trans found) marks with
      ⟨distinct, start⟩ | ⟨⟨other, member, same⟩, start⟩
    · rw [start, drop_left]
      exact iff_of_true ⟨rfl, rfl⟩ distinct
    · grind

/-- Two entries of one key and priority that say different things: no update takes them. -/
def conflictingEntries : List PolicyMapEntry :=
  [webEntry "prod/a",
    { webEntry "prod/b" with value.ruleCookie := 8 }]

/-- An endpoint whose update fails. -/
def afterFailure : InMemoryPolicyStore := runCalls .new [.replace 1 "web" conflictingEntries]

/-- The next update is counted. -/
theorem success_after_failure_counted :
    (recordPolicyEventsDelta {} (runCalls afterFailure [.replace 2 "web" []]).events
      (policyEventCursorFrom afterFailure.events) "").policyEvents = 1 :=
  ((recordPolicyEventsDelta_exact_iff afterFailure [.replace 2 "web" []] {}
    (by decide +kernel)).mpr (by decide +kernel)).1

/-- An update that fails the same way again is not. -/
theorem repeated_failure_uncounted :
    (appendedBy afterFailure [.replace 2 "web" conflictingEntries]).length = 1 ∧
    (recordPolicyEventsDelta {} (runCalls afterFailure [.replace 2 "web" conflictingEntries]).events
      (policyEventCursorFrom afterFailure.events) "").policyEvents = 0 := by
  decide +kernel

end Netloom.Agent
