import Netloom.Dataplane.EbpfReplace

/-!
# Runs of the eBPF store

A run starts from an empty store on any host, with whatever maps and files an
earlier process left there, and takes calls one after the other, in each of which
operations may fail at any point. The books of the store are consistent in every
state of a run.
-/
namespace Netloom.Dataplane

open Model (Time)
open Stateful AList

/-! ### Deleting an endpoint -/

section Delete

variable {path metadataPath : String}

/-- The endpoint is gone from the books. -/
structure Deleted (settings : StoreSettings) (endpointID : String) (s s' : System) : Prop where
  host : Shrinks (settings.mapPath endpointID) s { s' with store := s.store }
  maps : s'.store.maps = s.store.maps.erase endpointID
  entries : s'.store.entries = s.store.entries.erase endpointID

theorem shrinks_endpointDeleteEventLocked (settings : StoreSettings) (now : Time)
    (endpointID : String) :
    Frames (Shrinks path) (endpointDeleteEventLocked settings now endpointID) := by
  refine frames_get.bind fun sys => ?_
  have ends : ∀ (known : Bool) (event : PolicyUpdateEvent),
      Frames (Shrinks path) (if !known then pure none else pure (some event) : StoreM _) := by
    intro known event
    cases known with
    | false | true => exact frames_pure _
  dsimp only
  split
  · exact (frames_pure true).bind fun known => ends known _
  · split
    · exact (frames_pure false).bind fun known => ends known _
    · exact shrinks_attempt.bind fun _ => ends _ _

theorem leads_deleteEndpointLocked {settings : StoreSettings} {endpointID : String} {s s₁ : System}
    (before : Shrinks (settings.mapPath endpointID) s s₁) :
    Leads (deleteEndpointLocked settings endpointID) s₁
      (fun _ s' => Deleted settings endpointID s s')
      (fun _ s' => Shrinks (settings.mapPath endpointID) s s') := by
  have forgets : ∀ s', Shrinks (settings.mapPath endpointID) s s' → Leads (do
      if ((← get).store.maps.lookup endpointID).isSome then
        wrapping s!"close eBPF policy map for endpoint {endpointID}" attempt
      modify fun sys => { sys with
        store.maps := sys.store.maps.erase endpointID
        store.entries := sys.store.entries.erase endpointID
        store.lastStats := sys.store.lastStats.erase endpointID
        store.lastSeen := sys.store.lastSeen.erase endpointID
        store.revisions := sys.store.revisions.erase endpointID } : StoreM Unit) s'
      (fun _ s' => Deleted settings endpointID s s')
      (fun _ s' => Shrinks (settings.mapPath endpointID) s s') := by
    intro s₂ before
    have gone : ∀ (s' : System) {store : EBPFPolicyStore},
        Shrinks (settings.mapPath endpointID) s s' →
        store.maps = s'.store.maps.erase endpointID →
        store.entries = s'.store.entries.erase endpointID →
        Deleted settings endpointID s { s' with store } := by
      intro s' store shrinks maps entries
      refine ⟨⟨shrinks.host rfl, shrinks.ownPin⟩, ?_, ?_⟩
      · rw [maps, shrinks.store]
      · rw [entries, shrinks.store]
    refine leads_bind (leads_get ?_)
    dsimp only
    split
    · exact ((frames_wrapping shrinks_attempt).after before).bind fun _ s' shrinks =>
        leads_modify (gone s' shrinks rfl rfl)
    · exact leads_modify (gone s₂ before rfl rfl)
  unfold deleteEndpointLocked
  dsimp only
  split
  · exact ((frames_wrapping (shrinks_removePinnedMap none)).after before).bind fun _ => forgets
  · exact forgets s₁ before

theorem leads_deleteEndpoint (settings : StoreSettings) (now : Time) (endpointID : String)
    (s : System) :
    Leads (EBPFPolicyStore.deleteEndpoint settings now endpointID) s
      (fun _ s' => Deleted settings endpointID s s')
      (fun _ s' => Shrinks (settings.mapPath endpointID) s s') := by
  refine (shrinks_attempt s).bind fun _ s₁ shrinks => ?_
  dsimp only
  split
  · exact leads_bind (leads_throw shrinks)
  · refine ((shrinks_endpointDeleteEventLocked settings now endpointID).after shrinks).bind ?_
    intro event s₂ shrinks
    refine (leads_deleteEndpointLocked shrinks).bind fun _ s₃ deleted => ?_
    cases event with
    | none => exact leads_pure deleted
    | some event => exact leads_modify ⟨deleted.host, deleted.maps, deleted.entries⟩

end Delete

/-! ### Runs -/

/-- A store that was just set up. -/
def EBPFPolicyStore.new : EBPFPolicyStore :=
  { maps := ∅, entries := ∅, lastStats := ∅, lastSeen := ∅, revisions := ∅, events := [] }

inductive StoreCall where
  | replace (now : Time) (endpointID : String) (entries : List PolicyMapEntry)
  | delete (now : Time) (endpointID : String)

def StoreCall.run (settings : StoreSettings) : StoreCall → StoreM Unit
  | replace now endpointID entries =>
    EBPFPolicyStore.replaceEndpoint settings now endpointID entries
  | delete now endpointID => EBPFPolicyStore.deleteEndpoint settings now endpointID

/-- The state a call ends in, whether it returns or fails. -/
def stateAfter (body : StoreM Unit) (s : System) : System :=
  match body s with
  | .ok _ s' => s'
  | .error _ s' => s'

def System.withFaults (s : System) (faults : List (Option String)) : System :=
  { s with host.faults := faults }

/-- The states of runs. Between calls the times the endpoints were last seen and the events
may change: reads and sweeps set the former, `ClearEvents` drops some of the latter. -/
inductive Reached (settings : StoreSettings) : System → Prop
  | start {host : Host} (bounded : host.Bounded) : Reached settings ⟨.new, host⟩
  | call {s : System} (call : StoreCall) (faults : List (Option String))
      (reached : Reached settings s) :
      Reached settings (stateAfter (call.run settings) (s.withFaults faults))
  | books {s : System} (lastSeen : AList fun _ : String => Time) (events : List PolicyUpdateEvent)
      (reached : Reached settings s) :
      Reached settings { s with store := { s.store with lastSeen, events } }

theorem stateAfter_of_leads {body : StoreM Unit} {s : System} {P : System → Prop}
    (leads : Ends body s P) : P (stateAfter body s) := by
  unfold stateAfter
  split
  · next returned => exact leads.of_ok returned
  · next failed => exact leads.of_error failed

section Consistency

variable {settings : StoreSettings} {endpointID : String} {s s' : System}

/-- The books, the maps and the pin decide. -/
theorem Known.of_eq (known : Known settings endpointID s)
    (cached : s'.store.cached endpointID = s.store.cached endpointID)
    (maps : s'.store.maps.lookup endpointID = s.store.maps.lookup endpointID)
    (kept : ∀ m kernelMap, s.host.maps.lookup m = some kernelMap →
      ∃ content, s'.host.maps.lookup m = some { kernelMap with content })
    (pins : Function.Injective settings.mapPath → s.store.maps.lookup endpointID ≠ none → ∀ m,
      s'.host.pins.lookup (settings.mapPath endpointID) = some m →
        s.host.pins.lookup (settings.mapPath endpointID) = some m) :
    Known settings endpointID s' := by
  refine ⟨cached ▸ known.nodup, by rw [cached, maps]; exact known.unknown, fun m handle => ?_⟩
  rw [maps] at handle
  obtain ⟨⟨kernelMap, here, room⟩, aligned⟩ := known.present m handle
  obtain ⟨content, held⟩ := kept m kernelMap here
  exact ⟨⟨_, held, room⟩, fun paths rooted m' pinned =>
    aligned paths rooted m' (pins paths (by simp [handle]) m' pinned)⟩

private theorem HostEvolves.own (host : HostEvolves (touchedPath settings endpointID s) s s') :
    HostEvolves (some (settings.mapPath endpointID)) s s' :=
  { host with pins := fun other apart => host.pins other (touchedPath_ne (.inl (by simpa using apart))) }

section

variable (consistent : Consistent settings s)

include consistent

theorem Consistent.withFaults (faults : List (Option String)) :
    Consistent settings (s.withFaults faults) :=
  ⟨fun other => (consistent.known other).of_eq rfl rfl
    (fun _ kernelMap held => ⟨kernelMap.content, held⟩) fun _ _ _ => id, consistent.bounded⟩

/-- A call for one endpoint does not disturb the others. -/
private theorem Consistent.of_own (host : HostEvolves (some (settings.mapPath endpointID)) s s')
    (others : ∀ other, other ≠ endpointID → s'.store.cached other = s.store.cached other ∧
      s'.store.maps.lookup other = s.store.maps.lookup other)
    (own : Known settings endpointID s') : Consistent settings s' := by
  refine ⟨fun other => ?_, host.bounded consistent.bounded⟩
  by_cases same : other = endpointID
  · exact same ▸ own
  · obtain ⟨cached, maps⟩ := others other same
    refine (consistent.known other).of_eq cached maps host.maps fun paths _ m pinned => ?_
    exact (host.pins _ (by simpa using paths.ne (Ne.symm same))).symm.trans pinned

/-- The books stay as they are, and no pin of an endpoint with a map is new. -/
private theorem Consistent.of_books (host : HostEvolves (some (settings.mapPath endpointID)) s s')
    (maps : s'.store.maps = s.store.maps) (entries : s'.store.entries = s.store.entries)
    (pins : s.store.maps.lookup endpointID ≠ none → ∀ m,
      s'.host.pins.lookup (settings.mapPath endpointID) = some m →
        s.host.pins.lookup (settings.mapPath endpointID) = some m) : Consistent settings s' := by
  have cached : ∀ other, s'.store.cached other = s.store.cached other := fun other => by
    rw [EBPFPolicyStore.cached, EBPFPolicyStore.cached, entries]
  exact consistent.of_own host (fun other _ => ⟨cached other, by rw [maps]⟩)
    ((consistent.known endpointID).of_eq (cached endpointID) (by rw [maps]) host.maps fun _ => pins)

theorem Consistent.refused
    (refused : Refused settings endpointID s s') : Consistent settings s' := by
  refine consistent.of_books refused.host.own ?_ ?_ fun held m pinned => ?_
  · rw [refused.books]
  · rw [refused.books]
  · exact (refused.host.pins _ (touchedPath_ne (.inr held))).symm.trans pinned

theorem Consistent.stored {recorded : List PolicyMapEntry}
    {remediated : Bool} (nodup : KeysNodup recorded)
    (stored : Stored settings endpointID recorded remediated s s') : Consistent settings s' := by
  have own : s'.store.cached endpointID = recorded := by
    rw [EBPFPolicyStore.cached, stored.entries, lookup_insert]
    rfl
  refine consistent.of_own stored.host.own (fun other apart => ⟨?_, ?_⟩) ?_
  · rw [EBPFPolicyStore.cached, EBPFPolicyStore.cached, stored.entries, lookup_insert_ne apart]
  · rcases stored.map with ⟨maps, _⟩ | ⟨m, maps, _⟩
    · rw [maps]
    · rw [maps, lookup_insert_ne apart]
  · rcases stored.map with ⟨maps, missing, _, none⟩ | ⟨m, maps, prepared⟩
    · refine ⟨own ▸ nodup, fun _ => own.trans none, fun m handle => ?_⟩
      rw [maps, missing] at handle
      cases handle
    · have handle : s'.store.maps.lookup endpointID = some m := by rw [maps, lookup_insert]
      refine ⟨own ▸ nodup, fun missing => ?_, fun m₁ same => ?_⟩
      · cases handle.symm.trans missing
      cases handle.symm.trans same
      obtain ⟨kernelMap, here, room, _⟩ := prepared.here
      refine ⟨⟨kernelMap, here, room⟩, fun paths rooted m' pinned => ?_⟩
      cases held : s.store.maps.lookup endpointID with
      | none => exact Option.some.inj (pinned.symm.trans (prepared.loaded rooted held))
      | some m₀ =>
        obtain ⟨⟨kernelMap, here, _⟩, aligned⟩ := (consistent.known endpointID).present m₀ held
        obtain ⟨rfl, _⟩ := prepared.updated rooted m₀ kernelMap held here
        refine aligned paths rooted m' ((stored.host.pins _ (touchedPath_ne (.inr ?_))).symm.trans pinned)
        simp [held]

theorem Consistent.replaced {entries : List PolicyMapEntry}
    (replaced : EBPFPolicyStore.Replaced settings endpointID entries s s') :
    Consistent settings s' := by
  obtain ⟨desired, canonical, ⟨_, stored⟩ | ⟨_, _, stored⟩⟩ := replaced
  · exact consistent.stored (canonicalPolicyMapEntries_spec canonical).nodup stored
  · exact consistent.stored keysNodup_nil stored

theorem Consistent.deleted
    (deleted : Deleted settings endpointID s s') : Consistent settings s' := by
  have own : s'.store.cached endpointID = [] := by
    rw [EBPFPolicyStore.cached, deleted.entries, lookup_erase]
    rfl
  refine consistent.of_own deleted.host.toEvolves (fun other apart => ⟨?_, ?_⟩)
    ⟨own ▸ keysNodup_nil, fun _ => own, fun m handle => ?_⟩
  · rw [EBPFPolicyStore.cached, EBPFPolicyStore.cached, deleted.entries, lookup_erase_ne apart]
  · rw [deleted.maps, lookup_erase_ne apart]
  · rw [deleted.maps, lookup_erase] at handle
    cases handle

end

/-- Every state of a run is consistent. -/
theorem consistent_of_reached (reached : Reached settings s) : Consistent settings s := by
  induction reached with
  | start bounded =>
    refine ⟨fun _ => ⟨keysNodup_nil, fun _ => rfl, fun _ handle => ?_⟩, bounded⟩
    cases handle
  | @call s call faults _ ih =>
    have consistent := ih.withFaults faults
    cases call with
    | replace now endpointID entries =>
      refine stateAfter_of_leads ((leads_replaceEndpoint consistent now endpointID entries).mono ?_ ?_)
      · exact fun _ s' replaced => consistent.replaced replaced
      · rintro _ s' ⟨refused | replaced, _⟩
        · exact consistent.refused refused
        · exact consistent.replaced replaced
    | delete now endpointID =>
      refine stateAfter_of_leads ((leads_deleteEndpoint settings now endpointID _).mono ?_ ?_)
      · exact fun _ s' deleted => consistent.deleted deleted
      · intro _ s' shrinks
        exact consistent.of_books (shrinks.host rfl) (by rw [shrinks.store]) (by rw [shrinks.store])
          fun _ => shrinks.ownPin
  | books lastSeen events _ ih =>
    exact ⟨fun other => (ih.known other).of_eq rfl rfl
      (fun _ kernelMap held => ⟨kernelMap.content, held⟩) fun _ _ _ => id, ih.bounded⟩

end Consistency

/-! ### A call without faults -/

section FaultFree

variable {settings : StoreSettings} {s : System} {endpointID : String}
  {entries desired : List PolicyMapEntry}

/-- Entries that fit are recorded as they are, in the map that was prepared for them. -/
theorem prepared_of_replaced (pinned : settings.pinRoot ≠ "")
    (canonical : canonicalPolicyMapEntries entries = .ok desired)
    (fits : desired.length ≤ settings.maxEntries.toNat) {s' : System}
    (replaced : EBPFPolicyStore.Replaced settings endpointID entries s s') :
    ∃ m, s'.store.maps.lookup endpointID = some m ∧
      Prepared settings endpointID (s.store.cached endpointID) desired m s s' := by
  have nodup := (canonicalPolicyMapEntries_spec canonical).nodup
  obtain ⟨desired', canonical', outcome⟩ := replaced
  obtain rfl := Except.ok.inj (canonical.symm.trans canonical')
  rcases outcome with ⟨_, stored⟩ | ⟨exceeded, _⟩
  · rcases stored.map with ⟨_, _, unpinned, _⟩ | ⟨m, maps, prepared⟩
    · exact absurd unpinned pinned
    · exact ⟨m, by rw [maps, lookup_insert], prepared⟩
  · exact absurd (validatePolicyMapCapacity_eq_none nodup fits) exceeded

theorem replaceEndpoint_returns (consistent : Consistent settings s) (named : endpointID ≠ "")
    (canonical : canonicalPolicyMapEntries entries = .ok desired)
    (fits : desired.length ≤ settings.maxEntries.toNat) (settled : Settled endpointID desired s)
    (now : Time) : ∃ s',
      EBPFPolicyStore.replaceEndpoint settings now endpointID entries (s.withFaults []) = .ok () s' ∧
      EBPFPolicyStore.Replaced settings endpointID entries (s.withFaults []) s' := by
  have leads := leads_replaceEndpoint (consistent.withFaults []) now endpointID entries
  cases returned : EBPFPolicyStore.replaceEndpoint settings now endpointID entries
      (s.withFaults []) with
  | ok _ s' => exact ⟨s', rfl, leads.of_ok returned⟩
  | error _ s' =>
    obtain ⟨_, faults | trouble⟩ := leads.of_error returned
    · exact absurd rfl faults
    · exact absurd ⟨named, desired, canonical, fits, settled⟩ trouble

/-- In any state of a run, a call whose entries fit and in which nothing fails brings the
live map to the desired entries, unless the live map matches them already and the cached
entries have a key that is not among them: then the store deletes a key that is not there. -/
theorem replaceEndpoint_converges_iff (reached : Reached settings s) (pinned : settings.pinRoot ≠ "")
    (named : endpointID ≠ "") (canonical : canonicalPolicyMapEntries entries = .ok desired)
    (fits : desired.length ≤ settings.maxEntries.toNat) (now : Time) :
    (∃ s' m kernelMap,
      EBPFPolicyStore.replaceEndpoint settings now endpointID entries (s.withFaults []) = .ok () s' ∧
      s'.store.maps.lookup endpointID = some m ∧ s'.host.maps.lookup m = some kernelMap ∧
      Matches kernelMap.content desired) ↔ Settled endpointID desired s := by
  have consistent := consistent_of_reached reached
  have nodup := (canonicalPolicyMapEntries_spec canonical).nodup
  constructor
  · rintro ⟨s', _, _, returned, _⟩ m kernelMap handle here matching old inOld
    have replaced := (leads_replaceEndpoint (consistent.withFaults []) now endpointID entries).of_ok
      returned
    obtain ⟨m', _, prepared⟩ := prepared_of_replaced pinned canonical fits replaced
    obtain ⟨_, updated⟩ := prepared.updated pinned m kernelMap handle here
    have filled : s.store.cached endpointID ≠ [] := List.ne_nil_of_mem inOld
    exact (plan_delete_eq_nil_iff (consistent.known endpointID).nodup nodup).mp
      (updated.settled matching filled) old inOld
  · intro settled
    obtain ⟨s', returned, replaced⟩ :=
      replaceEndpoint_returns consistent named canonical fits settled now
    obtain ⟨m, handle, prepared⟩ := prepared_of_replaced pinned canonical fits replaced
    obtain ⟨kernelMap, here, _, matching⟩ := prepared.here
    exact ⟨s', m, kernelMap, returned, handle, here, matching⟩

end FaultFree

/-- TCP traffic to one port is allowed. -/
def portEntry (port : BitVec 16) : PolicyMapEntry where
  key := { prefixLen := 64, direction := 1, protocol := 6, destPortBE := port }
  value := { l4PrefixLen := 24, precedence := 1000, ruleCookie := 7 }

def pinnedSettings (maxEntries : BitVec 32) (nonzero : maxEntries ≠ 0) : StoreSettings where
  maxEntries
  pinRoot := "/sys/fs/bpf"
  schema := defaultPolicyMapSchemaVersion
  overflow := .clear
  mapPath endpointID := "/sys/fs/bpf/" ++ endpointID
  metadataPath endpointID := "/sys/fs/bpf/" ++ endpointID ++ ".meta"
  nonzero

def eightEntries : StoreSettings := pinnedSettings 8 (by decide)

def emptyHost : Host := { maps := ∅, pins := ∅, metadata := ∅, faults := [], writes := [] }

/-- One port was recorded. -/
def onePort (settings : StoreSettings) : System :=
  stateAfter ((StoreCall.replace 1 "web" [portEntry 80]).run settings)
    (System.withFaults ⟨.new, emptyHost⟩ [])

theorem reached_onePort (settings : StoreSettings) : Reached settings (onePort settings) :=
  .call _ _ (.start fun _ _ held => by cases held)

/-- An update to two other ports was cut short: the second write failed. -/
def interrupted : System :=
  stateAfter ((StoreCall.replace 2 "web" [portEntry 443, portEntry 8443]).run eightEntries)
    ((onePort eightEntries).withFaults (List.replicate 10 none ++ [some "cannot allocate memory"]))

theorem reached_interrupted : Reached eightEntries interrupted :=
  .call _ _ (reached_onePort eightEntries)

/-- What was written is desired now, but the port of the first update is still cached: it
is deleted from a map that has lost it, and the call fails although nothing else does. -/
theorem interrupted_stuck : Reached eightEntries interrupted ∧
    ∃ s', EBPFPolicyStore.replaceEndpoint eightEntries 3 "web" [portEntry 443]
      (interrupted.withFaults []) = .error { message :=
        "prepare eBPF policy map for endpoint web: delete eBPF policy map key for endpoint web: " ++
          "key does not exist" } s' :=
  ⟨reached_interrupted, _, rfl⟩

/-- The update that was cut short goes through when it is tried again. -/
theorem interrupted_retried : ∃ s' m kernelMap,
    EBPFPolicyStore.replaceEndpoint eightEntries 3 "web" [portEntry 443, portEntry 8443]
      (interrupted.withFaults []) = .ok () s' ∧
    s'.store.maps.lookup "web" = some m ∧ s'.host.maps.lookup m = some kernelMap ∧
    Matches kernelMap.content [portEntry 443, portEntry 8443] := by
  refine (replaceEndpoint_converges_iff reached_interrupted (by decide) (by decide) rfl (by decide)
    3).mpr ?_
  intro m kernelMap handle here matching
  -- The live map has the first of the two ports only.
  obtain rfl : 1 = m := Option.some.inj handle
  obtain ⟨value, found, _⟩ := matching.values (portEntry 8443) (by simp)
  cases here
  cases found

/-! ### Overflows -/

section Overflow

variable {settings : StoreSettings} {endpointID : String} {s s' : System}
  {recorded : List PolicyMapEntry} {remediated : Bool}

/-- An overflow was cleared: the map of the endpoint is empty, and the books say so. The
map that is pinned for the endpoint is the same one, unless the hash of another endpoint's
name gives the same path. -/
structure Cleared (settings : StoreSettings) (endpointID : String) (s s' : System) : Prop where
  empty : ∀ m, s'.store.maps.lookup endpointID = some m →
    ∃ kernelMap, s'.host.maps.lookup m = some kernelMap ∧ kernelMap.content = ∅
  pinned : Function.Injective settings.mapPath → settings.pinRoot ≠ "" →
    ∀ m, s'.host.pins.lookup (settings.mapPath endpointID) = some m →
      s'.store.maps.lookup endpointID = some m
  known : settings.pinRoot ≠ "" ∨ s.store.maps.lookup endpointID ≠ none →
    s'.store.maps.lookup endpointID ≠ none
  cached : s'.store.cached endpointID = []
  revision : s'.store.revision endpointID = s.store.revision endpointID + 1
  event : ∃ event, s'.store.events = appendPolicyUpdateEvent s.store.events event ∧
    event.endpointID = endpointID ∧ event.remediated = true

theorem cleared_of_stored (consistent : Consistent settings s)
    (stored : Stored settings endpointID [] true s s') : Cleared settings endpointID s s' := by
  have cached : s'.store.cached endpointID = [] := by
    rw [EBPFPolicyStore.cached, stored.entries, lookup_insert]
    rfl
  have revision : s'.store.revision endpointID = s.store.revision endpointID + 1 := by
    rw [EBPFPolicyStore.revision, stored.revisions, lookup_insert]
    rfl
  rcases stored.map with ⟨maps, missing, unpinned, _⟩ | ⟨m, maps, prepared⟩
  · refine ⟨fun m handle => ?_, fun _ pinned => absurd unpinned pinned, ?_, cached, revision,
      stored.events⟩
    · rw [maps, missing] at handle
      cases handle
    · rintro (pinned | held)
      · exact absurd unpinned pinned
      · exact absurd missing held
  · have handle : s'.store.maps.lookup endpointID = some m := by rw [maps, lookup_insert]
    refine ⟨fun m' handle' => ?_, fun paths rooted m' pinned => ?_, fun _ => by simp [handle], cached,
      revision, stored.events⟩
    · obtain rfl := Option.some.inj (handle.symm.trans handle')
      obtain ⟨kernelMap, here, _, matching⟩ := prepared.here
      exact ⟨kernelMap, here, eq_empty_of_matches matching⟩
    · have known := (consistent.stored keysNodup_nil stored).known endpointID
      rw [handle, (known.present m handle).2 paths rooted m' pinned]

/-- More entries than the map has room for are never recorded, however the count is
compared with the capacity. -/
theorem not_stored_of_exceeds (consistent : Consistent settings s) (nodup : KeysNodup recorded)
    (exceeds : settings.maxEntries.toNat < recorded.length) :
    ¬ Stored settings endpointID recorded remediated s s' := by
  intro stored
  rcases stored.map with ⟨_, _, _, rfl⟩ | ⟨m, _, prepared⟩
  · cases exceeds
  · obtain ⟨kernelMap, here, room, matching⟩ := prepared.here
    have bounded := stored.host.bounded consistent.bounded m kernelMap here
    rw [matching.length_eq nodup, room] at bounded
    omega

/-- In any state of a run, a call with more entries than the map has room for either clears
the endpoint, or fails and leaves its cached entries and its revision alone; it returns
only in the first case. This holds for both overflow actions: with `reject` it is always
the second. -/
theorem overflow_fails_closed (reached : Reached settings s) {entries : List PolicyMapEntry}
    (exceeds : ∀ desired, canonicalPolicyMapEntries entries = .ok desired →
      settings.maxEntries.toNat < desired.length)
    (now : Time) (faults : List (Option String)) :
    Leads (EBPFPolicyStore.replaceEndpoint settings now endpointID entries) (s.withFaults faults)
      (fun _ s' => Cleared settings endpointID s s')
      (fun _ s' => ¬ Cleared settings endpointID s s' →
        s'.store.cached endpointID = s.store.cached endpointID ∧
          s'.store.revision endpointID = s.store.revision endpointID) := by
  have consistent := (consistent_of_reached reached).withFaults faults
  have cleared : ∀ s', EBPFPolicyStore.Replaced settings endpointID entries (s.withFaults faults) s' →
      Cleared settings endpointID s s' := by
    rintro s' ⟨desired, canonical, ⟨_, stored⟩ | ⟨_, _, stored⟩⟩
    · have nodup := (canonicalPolicyMapEntries_spec canonical).nodup
      exact absurd stored (not_stored_of_exceeds consistent nodup (exceeds desired canonical))
    · obtain ⟨empty, pinned, known, cached, revision, event⟩ := cleared_of_stored consistent stored
      exact ⟨empty, pinned, known, cached, revision, event⟩
  refine (leads_replaceEndpoint consistent now endpointID entries).mono
    (fun _ s' replaced => cleared s' replaced) ?_
  rintro _ s' ⟨refused | replaced, _⟩ unsettled
  · rw [EBPFPolicyStore.cached, EBPFPolicyStore.revision, refused.books]
    exact ⟨rfl, rfl⟩
  · exact absurd (cleared s' replaced) unsettled

end Overflow

def oneEntry : StoreSettings := pinnedSettings 1 (by decide)

/-- Two ports do not fit where one is recorded: the call returns and the endpoint is cleared. -/
theorem overflow_onePort : ∃ s',
    EBPFPolicyStore.replaceEndpoint oneEntry 2 "web" [portEntry 80, portEntry 443]
      ((onePort oneEntry).withFaults []) = .ok () s' ∧
    Cleared oneEntry "web" (onePort oneEntry) s' := by
  obtain ⟨s', returned⟩ : ∃ s',
      EBPFPolicyStore.replaceEndpoint oneEntry 2 "web" [portEntry 80, portEntry 443]
        ((onePort oneEntry).withFaults []) = .ok () s' := ⟨_, rfl⟩
  refine ⟨s', returned, (overflow_fails_closed (reached_onePort oneEntry) ?_ 2 []).of_ok
    returned⟩
  intro desired canonical
  cases canonical
  decide

end Netloom.Dataplane
