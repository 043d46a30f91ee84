import Netloom.Dataplane.EbpfPrepare

/-!
# Replacing the entries of an endpoint in the eBPF store

A call either leaves the books of the store alone, apart from an event, or
records entries that the endpoint's map matches: the desired ones, or none after
an overflow that is cleared.
-/
namespace Netloom.Dataplane

open Model (Time)
open Stateful

variable (settings : StoreSettings) (endpointID : String)

/-! ### What a call leaves -/

/-- What the store relies on between calls: an endpoint without a map has no entries, and what
is pinned under the path of an endpoint with a map is that map. -/
structure Known (s : System) : Prop where
  nodup : KeysNodup (s.store.cached endpointID)
  unknown : s.store.maps.lookup endpointID = none → s.store.cached endpointID = []
  present : ∀ m, s.store.maps.lookup endpointID = some m → Sized settings m s ∧
    (Function.Injective settings.mapPath → settings.pinRoot ≠ "" → ∀ m',
      s.host.pins.lookup (settings.mapPath endpointID) = some m' → m' = m)

structure Consistent (s : System) : Prop where
  known : ∀ endpointID, Known settings endpointID s
  bounded : s.host.Bounded

/-- The path whose pin a call may change: that of an endpoint without a map. -/
def touchedPath (s : System) : Option String :=
  if (s.store.maps.lookup endpointID).isSome then none else some (settings.mapPath endpointID)

theorem touchedPath_ne {settings : StoreSettings} {endpointID other : String} {s : System}
    (apart : settings.mapPath endpointID ≠ other ∨ s.store.maps.lookup endpointID ≠ none) :
    touchedPath settings endpointID s ≠ some other := by
  unfold touchedPath
  cases handle : s.store.maps.lookup endpointID with
  | none => simpa [handle] using apart
  | some m => simp

/-- The host has moved on, whatever the store says. -/
def HostEvolves (path : Option String) (s s' : System) : Prop :=
  Evolves path s { s' with store := s.store }

theorem Evolves.host {path : Option String} {s s' s'' : System} (evolves : Evolves path s s')
    (same : s''.host = s'.host) : HostEvolves path s s'' := by
  obtain ⟨store, host⟩ := s''
  subst same
  exact ⟨rfl, evolves.maps, evolves.faults, evolves.pins, evolves.writes, evolves.bounded⟩

/-- The call was refused: the books stay as they were, apart from the events. -/
structure Refused (s s' : System) : Prop where
  host : HostEvolves (touchedPath settings endpointID s) s s'
  books : s'.store = { s.store with events := s'.store.events }

/-- The call went through: these entries are recorded, and the endpoint's map matches them.
Only where no entries are recorded and nothing is pinned may there be no map. -/
structure Stored (recorded : List PolicyMapEntry) (remediated : Bool) (s s' : System) : Prop where
  host : HostEvolves (touchedPath settings endpointID s) s s'
  map : (s'.store.maps = s.store.maps ∧ s.store.maps.lookup endpointID = none ∧
      settings.pinRoot = "" ∧ recorded = []) ∨
    ∃ m, s'.store.maps = s.store.maps.insert endpointID m ∧
      Prepared settings endpointID (s.store.cached endpointID) recorded m s s'
  entries : s'.store.entries = s.store.entries.insert endpointID recorded
  revisions : s'.store.revisions =
    s.store.revisions.insert endpointID (s.store.revision endpointID + 1)
  events : ∃ event, s'.store.events = appendPolicyUpdateEvent s.store.events event ∧
    event.endpointID = endpointID ∧ event.remediated = remediated

/-- A call goes through with the desired entries, or with none after an overflow. -/
def EBPFPolicyStore.Replaced (entries : List PolicyMapEntry) (s s' : System) : Prop :=
  ∃ desired, canonicalPolicyMapEntries entries = .ok desired ∧
    ((validatePolicyMapCapacity settings endpointID desired = none ∧
        Stored settings endpointID desired false s s') ∨
      (validatePolicyMapCapacity settings endpointID desired ≠ none ∧ settings.overflow = .clear ∧
        Stored settings endpointID [] true s s'))

section Outcomes

variable {settings : StoreSettings} {endpointID : String} {s s' : System}
  {oldEntries desired : List PolicyMapEntry} {m : Nat} {s'' : System}

theorem Prepared.upTo (prepared : Prepared settings endpointID oldEntries desired m s s')
    (maps : s''.host.maps = s'.host.maps) (pins : s''.host.pins = s'.host.pins)
    (writes : s''.host.writes = s'.host.writes) :
    Prepared settings endpointID oldEntries desired m s s'' := by
  refine ⟨?_, ?_, ?_⟩
  · rw [maps]
    exact prepared.here
  · rw [pins]
    exact prepared.loaded
  · intro pinned m' kernelMap handle here
    obtain ⟨same, updated⟩ := prepared.updated pinned m' kernelMap handle here
    refine ⟨same, ?_, updated.settled, ?_⟩
    · rw [Filled, maps]
      exact updated.content
    · rw [writes]
      exact updated.cleared

theorem Prepared.since {s₁ : System} (prepared : Prepared settings endpointID oldEntries desired m s₁ s')
    (quiet : Quiet s s₁) :
    Prepared settings endpointID oldEntries desired m s s' := by
  refine ⟨prepared.here, ?_, ?_⟩
  · rw [← quiet.store]
    exact prepared.loaded
  · rw [← quiet.store, ← quiet.sameMaps]
    intro pinned m' kernelMap handle here
    obtain ⟨same, updated⟩ := prepared.updated pinned m' kernelMap handle here
    exact ⟨same, updated.since quiet⟩

theorem HostEvolves.quiet {path : Option String} (evolves : HostEvolves path s s')
    (quiet : Quiet s' s'') : HostEvolves path s s'' :=
  Evolves.trans evolves { quiet.evolves with store := rfl }

/-- The end of a call: the books, and then the metadata, whose failure does not undo them. -/
theorem leads_recordUpdate {recorded : List PolicyMapEntry} {remediated : Bool}
    (host : HostEvolves (touchedPath settings endpointID s) s s')
    (books : s'.store = { s.store with maps := s'.store.maps })
    (map : (s'.store.maps = s.store.maps ∧ s.store.maps.lookup endpointID = none ∧
        settings.pinRoot = "" ∧ recorded = []) ∨
      ∃ m, s'.store.maps = s.store.maps.insert endpointID m ∧
        Prepared settings endpointID (s.store.cached endpointID) recorded m s s')
    (now : Time) (stats : PolicyUpdateStats) (used : Nat) {event : PolicyUpdateEvent}
    (owner : event.endpointID = endpointID) (remedy : event.remediated = remediated) :
    Leads (do
      recordUpdate settings now endpointID recorded (s.store.revision endpointID + 1) stats used event
      if settings.pinRoot ≠ "" then
        writeMapMetadata settings (settings.metadataPath endpointID) endpointID) s'
      (fun _ s'' => Stored settings endpointID recorded remediated s s'')
      (fun _ s'' => Stored settings endpointID recorded remediated s s'' ∧ s'.host.faults ≠ []) := by
  refine leads_bind (leads_modify ?_)
  -- The state in which the metadata is written.
  generalize recording : ({ s' with store := { s'.store with
    entries := s'.store.entries.insert endpointID recorded
    revisions := s'.store.revisions.insert endpointID (s.store.revision endpointID + 1)
    lastStats := s'.store.lastStats.insert endpointID stats
    lastSeen := s'.store.lastSeen.insert endpointID now
    events := appendPolicyUpdateEvent s'.store.events
      (attachPolicyUpdateEventPressure event used settings.maxEntries) } } : System) = s₁
  have sameHost : s₁.host = s'.host := by rw [← recording]
  have stored : ∀ s'', Quiet s₁ s'' →
      Stored settings endpointID recorded remediated s s'' := by
    intro s'' quiet
    have maps : s''.store.maps = s'.store.maps := by rw [quiet.store, ← recording]
    have evolves : HostEvolves (touchedPath settings endpointID s) s s₁ := by
      rw [← recording]
      exact host
    refine ⟨evolves.quiet quiet, ?_, ?_, ?_, ?_⟩
    · refine map.imp (fun none => ⟨maps.trans none.1, none.2⟩) ?_
      rintro ⟨m, handle, prepared⟩
      refine ⟨m, maps.trans handle, prepared.upTo ?_ ?_ ?_⟩
      · rw [quiet.sameMaps, sameHost]
      · rw [quiet.samePins, sameHost]
      · rw [quiet.sameWrites, sameHost]
    · rw [quiet.store, ← recording, books]
    · rw [quiet.store, ← recording, books]
    · refine ⟨attachPolicyUpdateEventPressure event used settings.maxEntries, ?_, ?_, ?_⟩
      · rw [quiet.store, ← recording, books]
      · rw [endpointID_attachPressure, owner]
      · rw [remediated_attachPressure, remedy]
  split
  · refine (harmless_writeMapMetadata settings _ endpointID s₁).mono (fun _ => stored) ?_
    rintro _ s'' ⟨quiet, faults⟩
    exact ⟨stored s'' quiet, sameHost ▸ faults⟩
  · exact leads_pure (stored s₁ (refl_of _ s₁))

/-- A failed preparation leaves the books alone, apart from the event. -/
theorem leads_recordFailure {previousRevision revision : BitVec 64} {stats : PolicyUpdateStats}
    {cookies : List (BitVec 32)} {refs : List String} {used : Nat} {err : PolicyError} {now : Time}
    {α : Type} {Q : α → System → Prop} {E : PolicyError → System → Prop}
    (evolves : Evolves (touchedPath settings endpointID s) s s')
    (fails : ∀ s'', Refused settings endpointID s s'' → E err s'') :
    Leads (do
      recordFailure settings now endpointID previousRevision revision stats cookies refs used err
      throw err : StoreM α) s' Q E := by
  refine leads_bind (leads_modify (leads_throw (fails _ ⟨evolves.host rfl, ?_⟩)))
  rw [evolves.store]

theorem validatePolicyMapCapacity_eq_none {desired : List PolicyMapEntry} (nodup : KeysNodup desired)
    (fits : desired.length ≤ settings.maxEntries.toNat) :
    validatePolicyMapCapacity settings endpointID desired = none := by
  have unique : (desired.map PolicyMapEntry.key).dedup.length = desired.length := by
    rw [List.Nodup.dedup nodup, List.length_map]
  have small : desired.length < 2 ^ 32 := fits.trans_lt settings.maxEntries.isLt
  have below : BitVec.ofNat 32 desired.length ≤ settings.maxEntries := by
    rw [BitVec.le_def, BitVec.toNat_ofNat, Nat.mod_eq_of_lt small]
    exact fits
  rw [validatePolicyMapCapacity, unique, if_pos below]

end Outcomes

/-! ### The call -/

section Replace

variable {settings : StoreSettings} {endpointID : String} {s : System}
  {entries : List PolicyMapEntry}

/-- A live map that matches the desired entries already is not to lose a key that only the
cached entries have. -/
def Settled (endpointID : String) (desired : List PolicyMapEntry) (s : System) : Prop :=
  ∀ m kernelMap, s.store.maps.lookup endpointID = some m → s.host.maps.lookup m = some kernelMap →
    Matches kernelMap.content desired →
      ∀ old ∈ s.store.cached endpointID, ∃ new ∈ desired, new.key = old.key

theorem plan_delete_eq_nil_iff {oldEntries desired : List PolicyMapEntry}
    (oldNodup : KeysNodup oldEntries) (nodup : KeysNodup desired) :
    (planPolicyUpdate oldEntries desired).delete = [] ↔
      ∀ old ∈ oldEntries, ∃ new ∈ desired, new.key = old.key := by
  rw [List.eq_nil_iff_forall_not_mem]
  simp only [mem_plan_delete oldNodup nodup, findEntry_none]
  grind

/-- A call that only a fault can stop. -/
def Smooth (settings : StoreSettings) (endpointID : String) (entries : List PolicyMapEntry)
    (s : System) : Prop :=
  endpointID ≠ "" ∧ ∃ desired, canonicalPolicyMapEntries entries = .ok desired ∧
    desired.length ≤ settings.maxEntries.toNat ∧ Settled endpointID desired s

variable {s₁ : System} {trouble : Prop}

/-- Preparing the map and recording the entries, as both ways through a call do it. -/
theorem leads_prepareAndRecord (consistent : Consistent settings s)
    (quiet : Quiet s s₁) {recorded : List PolicyMapEntry}
    (nodup : KeysNodup recorded) (fits : ¬ trouble → recorded.length ≤ settings.maxEntries.toNat)
    (settled : ¬ trouble → Settled endpointID recorded s) {text : String}
    {previousRevision revision : BitVec 64} {planned : PolicyUpdateStats}
    {cookies : List (BitVec 32)} {refs : List String} {wanted : Nat} {now : Time}
    {stats : PolicyUpdateStats} {used : Nat} {event : PolicyUpdateEvent} {remediated : Bool}
    (owner : event.endpointID = endpointID) (remedy : event.remediated = remediated) :
    Leads (do
      let next ← tryCatch (wrapping text (preparePolicyMapLocked settings endpointID recorded
          (s.store.cached endpointID) (planPolicyUpdate (s.store.cached endpointID) recorded)))
        fun err => do
          recordFailure settings now endpointID previousRevision revision planned cookies refs wanted
            err
          throw err
      setMap endpointID next
      recordUpdate settings now endpointID recorded (s.store.revision endpointID + 1) stats used event
      if settings.pinRoot ≠ "" then
        writeMapMetadata settings (settings.metadataPath endpointID) endpointID) s₁
      (fun _ s' => Stored settings endpointID recorded remediated s s')
      (fun _ s' => (Refused settings endpointID s s' ∨
          Stored settings endpointID recorded remediated s s') ∧
        (s.host.faults ≠ [] ∨ trouble)) := by
  have earlier : s₁.host.faults ≠ [] → s.host.faults ≠ [] := fun some none => some (quiet.faults none)
  have known := consistent.known endpointID
  have oldNodup := known.nodup
  have prepares : Does (touchedPath settings endpointID s) trouble
      (wrapping text (preparePolicyMapLocked settings endpointID recorded
        (s.store.cached endpointID) (planPolicyUpdate (s.store.cached endpointID) recorded))) s₁
      fun m s' => Prepared settings endpointID (s.store.cached endpointID) recorded m s₁ s' := by
    refine does_wrapping (does_preparePolicyMapLocked settings endpointID oldNodup nodup ?_ ?_ ?_ fits ?_)
    · rw [quiet.store]
      exact fun missing => by simp [touchedPath, missing]
    · rw [quiet.store]
      exact known.unknown
    · unfold Sized
      rw [quiet.store, quiet.sameMaps]
      exact fun m handle => (known.present m handle).1
    · rw [quiet.store, quiet.sameMaps]
      intro untroubled m kernelMap handle here matching _
      exact (plan_delete_eq_nil_iff oldNodup nodup).mpr
        (settled untroubled m kernelMap handle here matching)
  refine leads_bind (leads_tryCatch (Leads.mono prepares ?_ ?_))
  · rintro m s₂ ⟨evolves, prepared⟩
    have moved := quiet.evolves.trans evolves
    refine leads_bind (leads_modify ((leads_recordUpdate ?_ ?_ (.inr ⟨m, ?_, ?_⟩) now stats used
      owner remedy).mono (fun _ _ stored => stored) ?_))
    · exact moved.host rfl
    · simp [moved.store]
    · simp [moved.store]
    · exact (prepared.since quiet).upTo rfl rfl rfl
    · rintro _ s₃ ⟨stored, faults⟩
      exact ⟨.inr stored, .inl (earlier fun none => faults (evolves.faults none))⟩
  · rintro err s₂ ⟨evolves, reason⟩
    refine leads_recordFailure (quiet.evolves.trans evolves) fun s' refused => ?_
    exact ⟨.inl refused, reason.imp_left earlier⟩

/-- Clearing after an overflow, of which a call without trouble knows nothing. -/
theorem leads_clearEndpointPolicyAfterOverflowLocked (consistent : Consistent settings s)
    (quiet : Quiet s s₁) (overflows : trouble) (now : Time)
    (previousRevision : BitVec 64) (overflowEntries : List PolicyMapEntry)
    (overflowErr : PolicyError) :
    Leads (clearEndpointPolicyAfterOverflowLocked settings now endpointID previousRevision
      (s.store.revision endpointID + 1) overflowEntries overflowErr) s₁
      (fun _ s' => Stored settings endpointID [] true s s')
      (fun _ s' => (Refused settings endpointID s s' ∨ Stored settings endpointID [] true s s') ∧
        (s.host.faults ≠ [] ∨ trouble)) := by
  refine leads_bind (leads_get ?_)
  dsimp only
  rw [quiet.store]
  split
  · exact leads_prepareAndRecord consistent quiet keysNodup_nil
      (fun smooth => absurd overflows smooth) (fun smooth => absurd overflows smooth) rfl rfl
  · next bare =>
    simp only [Bool.or_eq_true, decide_eq_true_eq, not_or, not_not, Option.not_isSome_iff_eq_none] at bare
    refine (leads_recordUpdate (quiet.evolves.host rfl) ?_ (.inl ⟨?_, bare.1, bare.2, rfl⟩) now _ _ rfl
      rfl).mono (fun _ _ stored => stored) fun _ _ both => ⟨.inr both.1, .inr overflows⟩
    · rw [quiet.store]
    · rw [quiet.store]

theorem leads_replaceEndpoint (consistent : Consistent settings s) (now : Time)
    (endpointID : String) (entries : List PolicyMapEntry) :
    Leads (EBPFPolicyStore.replaceEndpoint settings now endpointID entries) s
      (fun _ s' => EBPFPolicyStore.Replaced settings endpointID entries s s')
      (fun _ s' => (Refused settings endpointID s s' ∨
          EBPFPolicyStore.Replaced settings endpointID entries s s') ∧
        (s.host.faults ≠ [] ∨ ¬ Smooth settings endpointID entries s)) := by
  have refused : ∀ {s'}, Quiet s s' →
      Refused settings endpointID s s' := fun {s'} quiet =>
    ⟨quiet.evolves.host rfl, by rw [quiet.store]⟩
  refine leads_bind ((harmless_attempt s).mono ?_ ?_)
  · intro _ s₁ quiet
    by_cases empty : endpointID = ""
    · simp only [if_pos empty]
      exact leads_bind (leads_throw ⟨.inl (refused quiet), .inr fun smooth => smooth.1 empty⟩)
    · simp only [if_neg empty]
      refine leads_bind (leads_get ?_)
      rw [quiet.store]
      cases canonical : canonicalPolicyMapEntries entries with
      | error message =>
        refine leads_recordFailure quiet.evolves fun s' refused => ⟨.inl refused, .inr ?_⟩
        rintro ⟨_, desired, accepted, _⟩
        rw [canonical] at accepted
        cases accepted
      | ok desired =>
        have nodup := (canonicalPolicyMapEntries_spec canonical).nodup
        dsimp only
        cases capacity : validatePolicyMapCapacity settings endpointID desired with
        | some err =>
          have overflows : ¬ Smooth settings endpointID entries s := by
            rintro ⟨_, desired', accepted, fits, _⟩
            obtain rfl := Except.ok.inj (canonical.symm.trans accepted)
            rw [validatePolicyMapCapacity_eq_none nodup fits] at capacity
            cases capacity
          dsimp only
          split
          · next clears =>
            have replaced : ∀ s', Stored settings endpointID [] true s s' →
                EBPFPolicyStore.Replaced settings endpointID entries s s' := fun s' stored =>
              ⟨desired, canonical, .inr ⟨by simp [capacity], clears, stored⟩⟩
            refine (leads_clearEndpointPolicyAfterOverflowLocked consistent quiet overflows now _ _ _).mono
              (fun _ s' stored => replaced s' stored) ?_
            rintro _ s' ⟨outcome, reason⟩
            exact ⟨outcome.imp_right (replaced s'), reason⟩
          · exact leads_recordFailure quiet.evolves fun s' refused => ⟨.inl refused, .inr overflows⟩
        | none =>
          have replaced : ∀ s', Stored settings endpointID desired false s s' →
              EBPFPolicyStore.Replaced settings endpointID entries s s' := fun s' stored =>
            ⟨desired, canonical, .inl ⟨capacity, stored⟩⟩
          have smooth : ¬ ¬ Smooth settings endpointID entries s →
              desired.length ≤ settings.maxEntries.toNat ∧ Settled endpointID desired s := by
            intro smooth
            obtain ⟨_, desired', accepted, fits, settled⟩ := not_not.mp smooth
            obtain rfl := Except.ok.inj (canonical.symm.trans accepted)
            exact ⟨fits, settled⟩
          refine Leads.mono (leads_prepareAndRecord consistent quiet nodup (fun s => (smooth s).1)
            (fun s => (smooth s).2) rfl rfl) (fun _ s' stored => replaced s' stored) ?_
          rintro _ s' ⟨outcome, reason⟩
          exact ⟨outcome.imp_right (replaced s'), reason⟩
  · rintro _ s₁ ⟨quiet, faults⟩
    exact ⟨.inl (refused quiet), .inl faults⟩

end Replace

end Netloom.Dataplane
