import Netloom.Dataplane.EbpfRuns

/-!
# Entries that an update does not change

An entry that the cached and the desired list share should stay in the live map
throughout an update. The drift check compares the live map with the desired
list, so any difference at all counts as drift, and the map is cleared before it
is filled again.
-/
namespace Netloom.Dataplane

open Model (Time)
open Stateful List AList

/-! ### Runs that keep a property of a map -/

section Keeps

variable {m : Nat} {P : Content → Prop}

/-- If the map had the property, it still has it, and every write left it that way. -/
def Keeps (m : Nat) (P : Content → Prop) (s s' : System) : Prop :=
  ∀ kernelMap, s.host.maps.lookup m = some kernelMap → P kernelMap.content →
    (∃ kernelMap', s'.host.maps.lookup m = some kernelMap' ∧ P kernelMap'.content) ∧
      ∃ later, s'.host.writes = s.host.writes ++ later ∧ ∀ write ∈ later, P write.2

variable {s' : System}

/-- Without a write, the property is kept. -/
theorem keeps_of_same {s : System} (maps : s'.host.maps = s.host.maps)
    (writes : s'.host.writes = s.host.writes) : Keeps m P s s' := by
  intro kernelMap here holds
  exact ⟨⟨kernelMap, by rw [maps, here], holds⟩, [], by rw [writes, append_nil], by simp⟩

instance : IsPreorder System (Keeps m P) where
  refl _ := keeps_of_same rfl rfl
  trans s s₁ s₂ first second := by
    intro kernelMap here holds
    obtain ⟨⟨kernelMap₁, here₁, holds₁⟩, later₁, writes₁, kept₁⟩ := first kernelMap here holds
    obtain ⟨last, later₂, writes₂, kept₂⟩ := second kernelMap₁ here₁ holds₁
    refine ⟨last, later₁ ++ later₂, by rw [writes₂, writes₁, append_assoc], ?_⟩
    intro write inside
    rcases mem_append.mp inside with early | late
    · exact kept₁ write early
    · exact kept₂ write late

theorem Quiet.keeps {s : System} (quiet : Quiet s s') : Keeps m P s s' :=
  keeps_of_same quiet.sameMaps quiet.sameWrites

theorem keeps_of_quiet {α : Type} {body : StoreM α} (frames : Frames Quiet body) :
    Frames (Keeps m P) body :=
  frames.weaken fun _ _ => Quiet.keeps

theorem keeps_put (endpointID : String) {entry : PolicyMapEntry}
    (kept : ∀ content, P content → P (content.insert entry.key entry.value)) :
    Frames (Keeps m P) (applyToMap endpointID m (.put entry)) := by
  refine (keeps_of_quiet quiet_attempt).bind fun _ => frames_wrapping ?_
  refine frames_mapPut (keeps_of_quiet quiet_attempt) fun s kernelMap here _ => ?_
  intro kernelMap' here' holds
  obtain rfl := Option.some.inj (here.symm.trans here')
  have holds' := kept _ holds
  exact ⟨⟨_, lookup_insert _, holds'⟩, [_], rfl, by simpa using holds'⟩

end Keeps

/-! ### Shared entries -/

/-- Both lists have this key with this value. -/
def Shared (cached desired : List PolicyMapEntry) (entry : PolicyMapEntry) : Prop :=
  entry ∈ cached ∧ ∃ new ∈ desired, new.key = entry.key ∧ new.value = entry.value

/-- The shared entries are in force. -/
def SharedHeld (cached desired : List PolicyMapEntry) (content : Content) : Prop :=
  ∀ entry, Shared cached desired entry → content.lookup entry.key = some entry.value

section Shared

variable {cached desired : List PolicyMapEntry} {content : Content}

theorem Holding.sharedHeld (holding : Holding content cached) (nodup : KeysNodup cached) :
    SharedHeld cached desired content := by
  intro entry shared
  rw [holding, findEntry_eq_some nodup shared.1, Option.map_some]

/-- Writing a desired entry does not take a shared one away: under its key, it is the same. -/
theorem SharedHeld.insert (held : SharedHeld cached desired content) (nodup : KeysNodup desired)
    {new : PolicyMapEntry} (wanted : new ∈ desired) :
    SharedHeld cached desired (content.insert new.key new.value) := by
  intro entry shared
  by_cases same : entry.key = new.key
  · obtain ⟨_, other, inDesired, key, value⟩ := shared
    obtain rfl := eq_of_key_eq nodup inDesired wanted (key.trans same)
    rw [same, lookup_insert, value]
  · rw [lookup_insert_ne same]
    exact held entry shared

end Shared

/-! ### Updates of a map that matches the desired entries -/

section Update

variable {settings : StoreSettings} {endpointID : String} {m : Nat} {kernelMap : KernelMap}
  {s : System} {cached desired : List PolicyMapEntry}

section Matching

variable (here : s.host.maps.lookup m = some kernelMap)
  (matching : Matches kernelMap.content desired) (oldNodup : KeysNodup cached)
  (nodup : KeysNodup desired) (filled : cached ≠ [])
  (kept : (planPolicyUpdate cached desired).delete = [])
include here matching oldNodup nodup filled kept

/-- Where the live map matches the desired entries, only desired entries are written. -/
theorem keeps_updatePolicyMap :
    Ends (updatePolicyMap settings endpointID m false desired cached
      (planPolicyUpdate cached desired)) s (Keeps m (SharedHeld cached desired) s) := by
  have context : Frames Quiet attempt := quiet_attempt
  have full : cached.isEmpty = false := by simpa using filled
  have operations : ∀ steps, Frames (Keeps m (SharedHeld cached desired)) (do
      ((planPolicyUpdate cached desired).operations steps).forM (applyToMap endpointID m)
      pure m) := by
    intro steps
    refine (frames_forM _ fun operation inside => ?_).bind fun _ => frames_pure m
    rcases mem_operations inside with ⟨entry, inPuts, rfl⟩ | ⟨key, inDelete, rfl⟩
    · exact keeps_put endpointID fun content held =>
        held.insert nodup (mem_desired_of_put oldNodup nodup inPuts)
    · rw [kept] at inDelete
      cases inDelete
  refine leads_bind ((context s).mono ?_ fun _ _ quiet => quiet.keeps)
  intro _ s₁ quiet
  rw [← quiet.sameMaps] at here
  simp only [full, Bool.not_false, Bool.and_self, Bool.or_self, if_true, Bool.false_eq_true, if_false,
    pure_bind]
  have reads : Leads (policyMapDrifted m desired) s₁
      (fun drifted s' => drifted = false ∧ Quiet s₁ s') (fun _ s' => Quiet s₁ s') := by
    have does : Does none False (policyMapDrifted m desired) s₁ _ := does_policyMapDrifted here nodup
    have frames : Frames Quiet (policyMapDrifted m desired) :=
      (frames_readPolicyMapEntries quiet_attempt).bind fun _ => frames_pure _
    refine (Leads.and does (frames s₁)).mono ?_ fun _ _ both => both.2
    rintro drifted s' ⟨⟨_, drift, quiet⟩, _⟩
    exact ⟨drift.mpr matching, quiet⟩
  refine leads_bind (leads_tryCatch (reads.mono ?_ ?_))
  · rintro _ s₂ ⟨rfl, later⟩
    simp only [Bool.false_eq_true, if_false]
    exact (operations _).after (trans_of _ quiet.keeps later.keeps)
  · intro _ s₂ later
    exact leads_throw (trans_of _ quiet.keeps later.keeps)

theorem keeps_preparePolicyMapLocked (pinned : settings.pinRoot ≠ "")
    (handle : s.store.maps.lookup endpointID = some m) :
    Ends (preparePolicyMapLocked settings endpointID desired cached
      (planPolicyUpdate cached desired)) s (Keeps m (SharedHeld cached desired) s) := by
  have root : Frames Quiet (ensurePinRoot settings) := frames_wrapping quiet_attempt
  rw [preparePolicyMapLocked, if_neg pinned]
  refine leads_bind ((root s).mono ?_ fun _ _ quiet => quiet.keeps)
  intro _ s₁ quiet
  refine leads_bind (leads_get ?_)
  simp only [quiet.store, handle]
  rw [← quiet.sameMaps] at here
  refine (keeps_updatePolicyMap here matching oldNodup nodup filled kept).mono ?_ ?_
  · exact fun _ _ later => trans_of _ quiet.keeps later
  · exact fun _ _ later => trans_of _ quiet.keeps later

end Matching

theorem keeps_replaceEndpoint (pinned : settings.pinRoot ≠ "") {entries : List PolicyMapEntry}
    (canonical : canonicalPolicyMapEntries entries = .ok desired)
    (fits : desired.length ≤ settings.maxEntries.toNat)
    (handle : s.store.maps.lookup endpointID = some m)
    (here : s.host.maps.lookup m = some kernelMap) (matching : Matches kernelMap.content desired)
    (oldNodup : KeysNodup (s.store.cached endpointID)) (filled : s.store.cached endpointID ≠ [])
    (kept : (planPolicyUpdate (s.store.cached endpointID) desired).delete = []) (now : Time) :
    Ends (EBPFPolicyStore.replaceEndpoint settings now endpointID entries) s
      (Keeps m (SharedHeld (s.store.cached endpointID) desired) s) := by
  have nodup := (canonicalPolicyMapEntries_spec canonical).nodup
  have context : Frames Quiet checkContext := quiet_attempt
  refine leads_bind ((context s).mono ?_ fun _ _ quiet => quiet.keeps)
  intro _ s₁ quiet
  by_cases empty : endpointID = ""
  · simp only [if_pos empty]
    exact leads_bind (leads_throw quiet.keeps)
  · simp only [if_neg empty]
    refine leads_bind (leads_get ?_)
    rw [quiet.store, canonical]
    simp only [validatePolicyMapCapacity_eq_none nodup fits]
    rw [← quiet.sameMaps] at here
    have handle₁ : s₁.store.maps.lookup endpointID = some m := by rw [quiet.store, handle]
    refine leads_bind (leads_tryCatch (leads_tryCatch ((keeps_preparePolicyMapLocked here matching
      oldNodup nodup filled kept pinned handle₁).mono ?_ ?_)))
    -- The books are kept in the store, where no write shows.
    · intro next s₂ later
      refine Frames.after ?_ (trans_of (Keeps m _) quiet.keeps later)
      refine Frames.bind (frames_modify fun _ => keeps_of_same rfl rfl) fun _ =>
        Frames.bind (frames_modify fun _ => keeps_of_same rfl rfl) fun _ => ?_
      rw [if_pos pinned]
      exact keeps_of_quiet (harmless_writeMapMetadata settings _ endpointID).quiet
    · intro err s₂ later
      have before := trans_of (Keeps m _) quiet.keeps later
      exact leads_throw (leads_bind (leads_modify (leads_throw fun kernelMap => before kernelMap)))

end Update

/-! ### When shared entries stay in force -/

/-- What each write or deletion since `s` left in its map. -/
def writesSince (s s' : System) : List (Nat × Content) :=
  s'.host.writes.drop s.host.writes.length

/-- Take a live map that holds the cached entries. Every shared entry is in it after every
single operation of a call, whatever fails, exactly if there is no shared entry or the
live map matches the desired entries to begin with. -/
theorem shared_kept_iff {settings : StoreSettings} {s : System} (reached : Reached settings s)
    (pinned : settings.pinRoot ≠ "") {endpointID : String} (named : endpointID ≠ "")
    (live : ∀ m kernelMap, s.store.maps.lookup endpointID = some m →
      s.host.maps.lookup m = some kernelMap →
      Holding kernelMap.content (s.store.cached endpointID))
    {entries desired : List PolicyMapEntry}
    (canonical : canonicalPolicyMapEntries entries = .ok desired)
    (fits : desired.length ≤ settings.maxEntries.toNat) (now : Time) :
    (∀ faults, ∀ write ∈ writesSince s
        (stateAfter (EBPFPolicyStore.replaceEndpoint settings now endpointID entries)
          (s.withFaults faults)),
      SharedHeld (s.store.cached endpointID) desired write.2) ↔
    (∀ entry, ¬ Shared (s.store.cached endpointID) desired entry) ∨
      ∃ m kernelMap, s.store.maps.lookup endpointID = some m ∧
        s.host.maps.lookup m = some kernelMap ∧ Matches kernelMap.content desired := by
  have consistent := consistent_of_reached reached
  have known := consistent.known endpointID
  have oldNodup := known.nodup
  have nodup := (canonicalPolicyMapEntries_spec canonical).nodup
  constructor
  · intro kept
    by_contra neither
    rw [not_or, not_forall_not] at neither
    obtain ⟨⟨entry, shared⟩, differs⟩ := neither
    have filled : s.store.cached endpointID ≠ [] := ne_nil_of_mem shared.1
    obtain ⟨m, handle⟩ := Option.ne_none_iff_exists'.mp (mt known.unknown filled)
    obtain ⟨⟨kernelMap, here, _⟩, _⟩ := known.present m handle
    have differ : ¬ Matches kernelMap.content desired := fun matching =>
      differs ⟨m, kernelMap, handle, here, matching⟩
    -- Without faults the call returns, and the map was empty on the way.
    have settled : Settled endpointID desired s := by
      intro m' kernelMap' handle' here' matching
      obtain rfl := Option.some.inj (handle.symm.trans handle')
      obtain rfl := Option.some.inj (here.symm.trans here')
      exact absurd matching differ
    obtain ⟨s', returned, replaced⟩ :=
      replaceEndpoint_returns consistent named canonical fits settled now
    obtain ⟨m', _, prepared⟩ := prepared_of_replaced pinned canonical fits replaced
    obtain ⟨_, updated⟩ := prepared.updated pinned m kernelMap handle here
    have held := (live m kernelMap handle here).sharedHeld oldNodup entry shared
    have content : kernelMap.content ≠ ∅ := by
      intro empty
      rw [empty] at held
      cases held
    obtain ⟨earlier, later, writes⟩ := updated.cleared differ content
    have inside : (m', (∅ : Content)) ∈ writesSince s
        (stateAfter (EBPFPolicyStore.replaceEndpoint settings now endpointID entries)
          (s.withFaults [])) := by
      rw [stateAfter, returned, writesSince, writes, append_assoc]
      exact drop_left ▸ (by simp)
    cases kept [] _ inside entry shared
  · rintro (none | ⟨m, kernelMap, handle, here, matching⟩) faults write inside
    · exact fun entry shared => absurd shared (none entry)
    · have keys : ∀ old ∈ s.store.cached endpointID, ∃ new ∈ desired, new.key = old.key := by
        intro old inOld
        have found := live m kernelMap handle here old.key
        rw [findEntry_eq_some oldNodup inOld, Option.map_some] at found
        exact matching.keys old.key (by simp [found])
      by_cases filled : s.store.cached endpointID = []
      · intro entry shared
        rw [filled] at shared
        cases shared.1
      · have keeps := stateAfter_of_leads (keeps_replaceEndpoint (s := s.withFaults faults) pinned canonical
          fits handle here matching oldNodup filled ((plan_delete_eq_nil_iff oldNodup nodup).mpr keys)
          now)
        obtain ⟨_, later, writes, held⟩ := keeps kernelMap here
          ((live m kernelMap handle here).sharedHeld oldNodup)
        have since : writesSince s (stateAfter (EBPFPolicyStore.replaceEndpoint settings now endpointID
            entries) (s.withFaults faults)) = later := by
          rw [writesSince, writes]
          exact drop_left
        exact held write (since ▸ inside)

/-- Two ports were recorded. -/
def twoPorts : System :=
  stateAfter ((StoreCall.replace 1 "web" [portEntry 80, portEntry 443]).run eightEntries)
    (System.withFaults ⟨.new, emptyHost⟩ [])

theorem reached_twoPorts : Reached eightEntries twoPorts :=
  .call _ _ (.start fun _ _ held => by cases held)

theorem live_twoPorts (m : Nat) (kernelMap : KernelMap)
    (handle : twoPorts.store.maps.lookup "web" = some m)
    (here : twoPorts.host.maps.lookup m = some kernelMap) :
    Holding kernelMap.content [portEntry 80, portEntry 443] := by
  obtain rfl : 1 = m := Option.some.inj handle
  cases here
  have first : Holding _ [portEntry 80] := holding_empty.insert rfl
  exact first.insert rfl

/-- One of the two ports is exchanged for a third, and the other is not in force for a while. -/
theorem twoPorts_exchanged : Reached eightEntries twoPorts ∧
    Shared (twoPorts.store.cached "web") [portEntry 80, portEntry 8443] (portEntry 80) ∧
    ∃ write ∈ writesSince twoPorts
        (stateAfter (EBPFPolicyStore.replaceEndpoint eightEntries 2 "web" [portEntry 80, portEntry 8443])
          (twoPorts.withFaults [])),
      write.2.lookup (portEntry 80).key = none := by
  refine ⟨reached_twoPorts, ⟨mem_cons_self, portEntry 80, mem_cons_self, rfl, rfl⟩, ?_⟩
  exact ⟨(1, ∅), mem_of_getElem? (i := 1) rfl, rfl⟩

/-- Recording the two ports again leaves both in force. -/
theorem twoPorts_repeated : Reached eightEntries twoPorts ∧
    ∀ faults, ∀ write ∈ writesSince twoPorts
        (stateAfter (EBPFPolicyStore.replaceEndpoint eightEntries 2 "web" [portEntry 80, portEntry 443])
          (twoPorts.withFaults faults)),
      SharedHeld (twoPorts.store.cached "web") [portEntry 80, portEntry 443] write.2 := by
  have nodup : KeysNodup [portEntry 80, portEntry 443] := by
    unfold KeysNodup
    decide
  have matching := (live_twoPorts 1 _ rfl rfl).matches nodup fun _ => Iff.rfl
  exact ⟨reached_twoPorts, (shared_kept_iff reached_twoPorts (by decide) (by decide) live_twoPorts rfl
    (by decide) 2).mpr (.inr ⟨1, _, rfl, rfl, matching⟩)⟩

end Netloom.Dataplane
