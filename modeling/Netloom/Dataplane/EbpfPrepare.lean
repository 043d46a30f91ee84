import Netloom.Dataplane.EbpfMaps

/-!
# Preparing the map of an endpoint

A live map matches a list of entries if it has their keys, with values that
differ in the counters only: this is what the drift check tests. Whatever way
`preparePolicyMapLocked` takes, a map it returns matches the desired entries.
-/
namespace Netloom.Dataplane

open Stateful List AList Fold

/-! ### Maps that match entries -/

structure Matches (content : Content) (entries : List PolicyMapEntry) : Prop where
  keys : ∀ key, content.lookup key ≠ none → ∃ entry ∈ entries, entry.key = key
  values : ∀ entry ∈ entries, ∃ value, content.lookup entry.key = some value ∧
    policyEntrySemanticsEqual value entry.value = true

section Matches

variable {content : Content} {entries desired : List PolicyMapEntry}

theorem policyEntrySemanticsEqual_refl (value : PolicyEntry) :
    policyEntrySemanticsEqual value value :=
  beq_self_eq_true _

theorem eq_empty_of_matches (matching : Matches content []) : content = ∅ := by
  apply content_eq_empty
  intro key
  by_contra present
  obtain ⟨_, inside, _⟩ := matching.keys key present
  cases inside

/-- A map that holds the desired entries in some order matches them. -/
theorem Holding.matches (holding : Holding content entries) (nodup : KeysNodup entries)
    (same : ∀ entry, entry ∈ entries ↔ entry ∈ desired) : Matches content desired := by
  constructor
  · intro key present
    rw [holding key, Ne, Option.map_eq_none_iff, ← Ne, Option.ne_none_iff_exists'] at present
    obtain ⟨entry, found⟩ := present
    obtain ⟨inside, here⟩ := findEntry_some found
    exact ⟨entry, (same entry).mp inside, here⟩
  · intro entry inside
    refine ⟨entry.value, ?_, policyEntrySemanticsEqual_refl _⟩
    rw [holding, findEntry_eq_some nodup ((same entry).mpr inside), Option.map_some]

/-- Writing one of the entries again changes nothing that counts. -/
theorem Matches.insert (matching : Matches content desired) (nodup : KeysNodup desired)
    {entry : PolicyMapEntry} (inside : entry ∈ desired) :
    Matches (content.insert entry.key entry.value) desired := by
  constructor
  · intro key present
    by_cases same : key = entry.key
    · exact ⟨entry, inside, same.symm⟩
    · rw [lookup_insert_ne same] at present
      exact matching.keys key present
  · intro other inside'
    by_cases same : other.key = entry.key
    · obtain rfl := eq_of_key_eq nodup inside' inside same
      exact ⟨other.value, lookup_insert _, policyEntrySemanticsEqual_refl _⟩
    · rw [lookup_insert_ne same]
      exact matching.values other inside'

theorem Matches.perm_keys (matching : Matches content desired) (nodup : KeysNodup desired) :
    content.keys.Perm (desired.map PolicyMapEntry.key) := by
  refine (perm_ext_iff_of_nodup content.nodupKeys nodup).mpr fun key => ?_
  rw [mem_map]
  constructor
  · intro inside
    exact matching.keys key fun none => lookup_eq_none.mp none inside
  · rintro ⟨entry, inside, rfl⟩
    obtain ⟨value, found, _⟩ := matching.values entry inside
    exact lookup_isSome.mp (by rw [found]; rfl)

theorem Matches.length_eq (matching : Matches content desired) (nodup : KeysNodup desired) :
    content.entries.length = desired.length := by
  simpa [AList.keys, List.keys] using (matching.perm_keys nodup).length_eq

/-- With as many keys as there are entries, the keys of the entries are all there is. -/
theorem matches_iff (nodup : KeysNodup desired) : Matches content desired ↔
    content.entries.length = desired.length ∧ ∀ entry ∈ desired, ∃ value,
      content.lookup entry.key = some value ∧ policyEntrySemanticsEqual value entry.value := by
  refine ⟨fun matching => ⟨matching.length_eq nodup, matching.values⟩, fun ⟨size, values⟩ => ?_⟩
  refine ⟨fun key present => ?_, values⟩
  have sub : desired.map PolicyMapEntry.key ⊆ content.keys := by
    intro key listed
    obtain ⟨entry, inside, rfl⟩ := mem_map.mp listed
    obtain ⟨value, found, _⟩ := values entry inside
    exact lookup_isSome.mp (by rw [found]; rfl)
  have same := (subperm_of_subset nodup sub).perm_of_length_le (by
    simp [AList.keys, List.keys, size])
  have inside : key ∈ content.keys := by
    by_contra absent
    exact present (lookup_eq_none.mpr absent)
  exact mem_map.mp (same.mem_iff.mpr inside)

end Matches

/-! ### The drift check -/

section Drift

variable {path : Option String} {s : System} {m : Nat} {kernelMap : KernelMap} {trouble : Prop}
  {desired : List PolicyMapEntry}

theorem does_policyMapDrifted (here : s.host.maps.lookup m = some kernelMap)
    (nodup : KeysNodup desired) :
    Does path trouble (policyMapDrifted m desired) s fun drifted s' =>
      (drifted = false ↔ Matches kernelMap.content desired) ∧ Quiet s s' := by
  refine does_bind ((does_readPolicyMapEntries here).mono ?_)
  rintro entries s₁ _ ⟨rfl, quiet⟩
  refine does_pure ⟨?_, quiet⟩
  have size : (insertAll Sigma.fst Sigma.snd kernelMap.content.entries).entries.length =
      kernelMap.content.entries.length := by
    rw [entries_insertAll Sigma.fst Sigma.snd kernelMap.content.nodupKeys]
    simp
  rw [matches_iff nodup, Bool.or_eq_false_iff, decide_eq_false_iff_not, not_not, size,
    entries_insertAll PolicyMapEntry.key PolicyMapEntry.value nodup, length_reverse,
    length_map, any_eq_false]
  refine and_congr_right fun _ => ?_
  simp only [mem_reverse, mem_map, forall_exists_index, and_imp, forall_apply_eq_imp_iff₂,
    lookup_insertAll_self]
  refine forall₂_congr fun entry _ => ?_
  cases kernelMap.content.lookup entry.key with
  | none => simp
  | some value => simp

end Drift

/-! ### Updating a map in place -/

section Update

variable {path : Option String} {s : System} {m : Nat} {kernelMap : KernelMap} {trouble : Prop}
  {oldEntries desired : List PolicyMapEntry}

/-- The map matches the entries. -/
def Filled (m : Nat) (kernelMap : KernelMap) (desired : List PolicyMapEntry) (s : System) : Prop :=
  ∃ content, s.host.maps.lookup m = some { kernelMap with content } ∧ Matches content desired

theorem mem_operations {plan : PolicyUpdatePlan} {steps : List PolicyUpdateStep}
    {operation : PlanOperation} (inside : operation ∈ plan.operations steps) :
    (∃ entry ∈ plan.add ++ plan.update, operation = .put entry) ∨
      ∃ key ∈ plan.delete, operation = .delete key := by
  obtain ⟨step, _, listed⟩ := mem_flatMap.mp inside
  cases step with
  | addUpdate =>
    obtain ⟨entry, inPuts, rfl⟩ := mem_map.mp listed
    exact .inl ⟨entry, inPuts, rfl⟩
  | delete =>
    obtain ⟨key, inDelete, rfl⟩ := mem_map.mp listed
    exact .inr ⟨key, inDelete, rfl⟩

section Plan

variable (oldNodup : KeysNodup oldEntries) (nodup : KeysNodup desired)
include oldNodup nodup

theorem mem_desired_of_put {entry : PolicyMapEntry}
    (inside : entry ∈ (planPolicyUpdate oldEntries desired).add ++
      (planPolicyUpdate oldEntries desired).update) : entry ∈ desired := by
  rcases mem_append.mp inside with added | updated
  · exact ((mem_plan_add oldNodup nodup).mp added).1
  · exact ((mem_plan_update oldNodup nodup).mp updated).1

/-- On a map that matches the desired entries, a plan for them only writes keys that are
there, and its first deletion fails. -/
theorem does_operations (here : s.host.maps.lookup m = some kernelMap)
    (matching : Matches kernelMap.content desired)
    (settled : ¬ trouble → (planPolicyUpdate oldEntries desired).delete = [])
    (endpointID : String) (steps : List PolicyUpdateStep) :
    Does path trouble (((planPolicyUpdate oldEntries desired).operations steps).forM
      (applyToMap endpointID m)) s fun _ s' => Filled m kernelMap desired s' ∧
        ∀ key, .delete key ∉ (planPolicyUpdate oldEntries desired).operations steps := by
  refine does_forM (fun done s' => Filled m kernelMap desired s' ∧ ∀ key, .delete key ∉ done)
    ?_ ?_ fun _ _ held => held
  · exact ⟨⟨kernelMap.content, here, matching⟩, by simp⟩
  · rintro done operation rest s₁ split _ ⟨⟨content, held, matching⟩, none⟩
    have inside : operation ∈ (planPolicyUpdate oldEntries desired).operations steps := by
      rw [← split]
      simp
    rcases mem_operations inside with ⟨entry, inPuts, rfl⟩ | ⟨key, inDelete, rfl⟩
    · have wanted := mem_desired_of_put oldNodup nodup inPuts
      have present : content.lookup entry.key ≠ Option.none := by
        obtain ⟨value, found, _⟩ := matching.values entry wanted
        simp [found]
      refine (puts_applyToMap endpointID m trouble entry s₁ _ held fun _ => .inl present).mono ?_
      rintro _ s₂ _ ⟨held, _⟩
      exact ⟨⟨_, held, matching.insert nodup wanted⟩, fun key => by simp [none key]⟩
    · -- The key is not wanted, so a map that matches does not have it.
      obtain ⟨_, unwanted⟩ := (mem_plan_delete oldNodup nodup).mp inDelete
      refine does_bind (does_attempt fun s₂ quiet => ?_)
      rw [← quiet.sameMaps] at held
      refine does_wrapping ((does_mapDelete held fun untroubled => ?_).mono ?_)
      · rw [settled untroubled] at inDelete
        cases inDelete
      · rintro _ s₃ _ ⟨present, _⟩
        obtain ⟨entry, wanted, here⟩ := matching.keys key present
        exact absurd here (findEntry_none.mp unwanted entry wanted)

end Plan

section Fill

variable (here : s.host.maps.lookup m = some { kernelMap with content := ∅ })
  (nodup : KeysNodup desired) (fits : ¬ trouble → desired.length ≤ kernelMap.maxEntries.toNat)
include here nodup fits

/-- Into an empty map, a plan that starts from nothing writes the desired entries. -/
theorem does_rewrite (endpointID : String) :
    Does path trouble (((planPolicyUpdate [] desired).operations [.addUpdate]).forM
      (applyToMap endpointID m)) s fun _ s' => Filled m kernelMap desired s' := by
  have none := keysNodup_nil
  let puts := (planPolicyUpdate [] desired).add ++ (planPolicyUpdate [] desired).update
  have wanted : ∀ entry, entry ∈ puts ↔ entry ∈ desired := by
    refine fun entry => ⟨mem_desired_of_put none nodup, fun inside => mem_append_left _ ?_⟩
    exact (mem_plan_add none nodup).mpr ⟨inside, rfl⟩
  have writes : (planPolicyUpdate [] desired).operations [.addUpdate] = puts.map .put :=
    append_nil _
  have loop : (puts.map PlanOperation.put).forM (applyToMap endpointID m) =
      puts.forM fun entry => applyToMap endpointID m (.put entry) := forM_map
  have counts := plan_counts_new none nodup
  rw [writes, loop]
  refine (does_fill (puts_applyToMap endpointID m) here (keysNodup_plan_puts none nodup)
    fun untroubled => ?_).mono ?_
  · have fits := fits untroubled
    rw [length_append]
    omega
  · rintro _ s₁ _ ⟨content, held, holding⟩
    exact ⟨content, held, holding.matches (keysNodup_plan_puts none nodup) wanted⟩

theorem does_populatePolicyMap : Does path trouble (populatePolicyMap m desired) s
    fun _ s' => Filled m kernelMap desired s' := by
  refine (does_fill (puts_populate m) here nodup fits).mono ?_
  rintro _ s₁ _ ⟨content, held, holding⟩
  exact ⟨content, held, holding.matches nodup fun _ => Iff.rfl⟩

end Fill

/-- What an update of a map that was there has done: the map matches the desired entries;
if it did so before, nothing was to be deleted; if it did not, it was empty on the way. -/
structure Updated (m : Nat) (kernelMap : KernelMap) (oldEntries desired : List PolicyMapEntry)
    (s s' : System) : Prop where
  content : Filled m kernelMap desired s'
  settled : Matches kernelMap.content desired → oldEntries ≠ [] →
    (planPolicyUpdate oldEntries desired).delete = []
  cleared : ¬ Matches kernelMap.content desired → kernelMap.content ≠ ∅ →
    ∃ earlier later, s'.host.writes = s.host.writes ++ earlier ++ (m, ∅) :: later

theorem Updated.since {s₁ s' : System} (updated : Updated m kernelMap oldEntries desired s₁ s')
    (quiet : Quiet s s₁) : Updated m kernelMap oldEntries desired s s' := by
  refine ⟨updated.content, updated.settled, ?_⟩
  rw [← quiet.sameWrites]
  exact updated.cleared

/-- Updates in place run the deletions of a plan in either order. -/
private theorem delete_eq_nil_of_operations {plan : PolicyUpdatePlan} {count : Nat}
    {maxEntries : BitVec 32}
    (none : ∀ key, .delete key ∉ plan.operations (policyUpdateSequence count plan maxEntries false)) :
    plan.delete = [] := by
  apply eq_nil_iff_forall_not_mem.mpr
  intro key inside
  apply none key
  simp only [policyUpdateSequence, Bool.false_eq_true, if_false]
  split <;> simp [PolicyUpdatePlan.operations, inside]

/-- Clearing and then filling the map, by whatever step. -/
private theorem does_clearThen {fill : StoreM Unit} (here : s.host.maps.lookup m = some kernelMap)
    (settled : Matches kernelMap.content desired → oldEntries ≠ [] → False) (text : String)
    (fills : ∀ s', s'.host.maps.lookup m = some { kernelMap with content := ∅ } →
      Does path trouble fill s' fun _ s'' => Filled m kernelMap desired s'') :
    Does path trouble (do wrapping text (clearMap m); fill) s fun _ s' =>
      Updated m kernelMap oldEntries desired s s' := by
  refine does_bind (does_wrapping ((does_clearMap here).mono ?_))
  rintro _ s₁ _ ⟨empty, last⟩
  refine (fills s₁ empty).mono ?_
  rintro _ s₂ evolves filled
  refine ⟨filled, fun same some => (settled same some).elim, ?_⟩
  intro _ some
  obtain ⟨earlier, writes⟩ := last some
  obtain ⟨later, writes'⟩ := evolves.writes
  exact ⟨earlier, later, by rw [← writes', writes]; simp⟩

theorem does_updatePolicyMap (here : s.host.maps.lookup m = some kernelMap)
    (oldNodup : KeysNodup oldEntries) (nodup : KeysNodup desired) (settings : StoreSettings)
    (endpointID : String) (reloaded : Bool) (fresh : reloaded → oldEntries = [])
    (fits : ¬ trouble → desired.length ≤ kernelMap.maxEntries.toNat)
    (settled : ¬ trouble → Matches kernelMap.content desired → oldEntries ≠ [] →
      (planPolicyUpdate oldEntries desired).delete = []) :
    Does path trouble (updatePolicyMap settings endpointID m reloaded desired oldEntries
      (planPolicyUpdate oldEntries desired)) s fun m' s' =>
        m' = m ∧ Updated m kernelMap oldEntries desired s s' := by
  refine does_bind (does_attempt fun s₁ quiet => ?_)
  rw [← quiet.sameMaps] at here
  cases oldEntries with
  | nil =>
    -- Nothing is cached: whatever the map holds is cleared away.
    have whole : (reloaded || ([] : List PolicyMapEntry).isEmpty) := by simp
    have skipped : (!reloaded && !([] : List PolicyMapEntry).isEmpty) = false := by simp
    simp only [skipped, whole, Bool.false_eq_true, if_false, if_true, pure_bind,
      policyUpdateSequence]
    rw [← bind_assoc]
    refine does_bind ((does_clearThen here (fun _ some => some rfl) _ fun s₂ empty =>
      does_rewrite empty nodup fits endpointID).mono ?_)
    exact fun _ s' _ updated => does_pure ⟨rfl, updated.since quiet⟩
  | cons first rest =>
    have inPlace : reloaded = false := by
      cases reloaded with
      | false => rfl
      | true => cases fresh rfl
    subst inPlace
    simp only [Bool.not_false, isEmpty_cons, Bool.and_self, Bool.or_self, if_true,
      Bool.false_eq_true, if_false, pure_bind]
    refine does_bind (does_wrapping ((does_policyMapDrifted here nodup).mono ?_))
    rintro drifted s₂ _ ⟨drift, later⟩
    rw [← later.sameMaps] at here
    replace quiet : Quiet s s₂ := trans_of _ quiet later
    cases drifted with
    | true =>
      have differs : Matches kernelMap.content desired → first :: rest ≠ [] → False :=
        fun matching _ => Bool.noConfusion (drift.mpr matching)
      simp only [if_true]
      rw [← bind_assoc]
      refine does_bind ((does_clearThen here differs _ fun s₃ empty =>
        does_wrapping (does_populatePolicyMap empty nodup fits)).mono ?_)
      exact fun _ s' _ updated => does_pure ⟨rfl, updated.since quiet⟩
    | false =>
      have matching := drift.mp rfl
      have settled : ¬ trouble → (planPolicyUpdate (first :: rest) desired).delete = [] :=
        fun untroubled => settled untroubled matching (by simp)
      simp only [Bool.false_eq_true, if_false]
      refine does_bind ((does_operations oldNodup nodup here matching settled endpointID _).mono ?_)
      rintro _ s₃ _ ⟨filled, none⟩
      refine does_pure ⟨rfl, Updated.since ?_ quiet⟩
      refine ⟨filled, fun _ _ => ?_, fun differs => absurd matching differs⟩
      exact delete_eq_nil_of_operations none

end Update

/-! ### Files and new maps -/

section Files

variable {path metadataPath : String} {touched : Option String} {s : System} {trouble : Prop}

private theorem evolves_pins {pins : AList fun _ : String => Nat}
    (others : ∀ other, other ≠ path → pins.lookup other = s.host.pins.lookup other) :
    Evolves (some path) s { s with host.pins := pins } :=
  ⟨rfl, fun _ kernelMap held => ⟨kernelMap.content, held⟩, id,
    fun other apart => others other fun same => apart (same ▸ rfl), prefix_rfl, id⟩

theorem does_pinMap (m : Nat) : Does (some path) trouble (pinMap m path) s fun _ s' =>
    s'.host.maps = s.host.maps ∧ s'.host.pins.lookup path = some m :=
  does_bind (does_attempt fun _ quiet => leads_modify
    ⟨evolves_pins fun _ apart => lookup_insert_ne apart, quiet.sameMaps, lookup_insert _⟩)

theorem does_removePin : Does (some path) trouble (removePin path) s fun _ _ => True :=
  does_bind (does_attempt fun _ _ => leads_modify
    ⟨evolves_pins fun _ apart => lookup_erase_ne apart, trivial⟩)

private theorem quiet_metadata (s : System) {metadata : AList fun _ : String => Option PolicyMapMetadata} :
    Quiet s { s with host.metadata := metadata } :=
  ⟨⟨rfl, fun _ kernelMap held => ⟨kernelMap.content, held⟩, id, fun _ _ => rfl, prefix_rfl, id⟩,
    rfl, rfl, rfl⟩

theorem harmless_removeMetadata : Harmless (removeMetadata metadataPath) :=
  harmless_attempt.bind (harmless_modify fun s => quiet_metadata s)

variable (settings : StoreSettings)

theorem harmless_writeMapMetadata (metadataPath endpointID : String) :
    Harmless (writeMapMetadata settings metadataPath endpointID) :=
  harmless_attempt.wrapping.bind (harmless_attempt.wrapping.bind (harmless_modify fun s => quiet_metadata s))

theorem freshMap_notMem (host : Host) : host.maps.lookup host.freshMap = none := by
  have bound : ∀ (numbers : List Nat), ∀ n ∈ numbers, n ≤ numbers.foldr max 0 := by
    intro numbers
    induction numbers with
    | nil => simp
    | cons first rest ih =>
      grind
  apply lookup_eq_none.mpr
  intro inside
  have := bound host.maps.keys _ inside
  rw [Host.freshMap] at this
  omega

/-- An empty map with the attributes the store asks for. -/
def emptyMap : KernelMap :=
  { maxEntries := settings.maxEntries, expectedShape := true, content := ∅ }

private theorem evolves_newMap (s : System) : Evolves touched s { s with
      host.maps := s.host.maps.insert s.host.freshMap (emptyMap settings) } := by
  have fresh := freshMap_notMem s.host
  refine ⟨rfl, fun m kernelMap held => ⟨kernelMap.content, ?_⟩, id, fun _ _ => rfl,
    prefix_rfl, fun bounded m kernelMap held => ?_⟩
  · have apart : m ≠ s.host.freshMap := by
      rintro rfl
      rw [fresh] at held
      cases held
    exact (lookup_insert_ne apart).trans held
  · by_cases same : m = s.host.freshMap
    · subst same
      obtain rfl := Option.some.inj ((lookup_insert _).symm.trans held)
      exact Nat.zero_le _
    · exact bounded m kernelMap ((lookup_insert_ne same).symm.trans held)

theorem does_newMap : Does touched trouble (newMap settings) s fun m s' =>
    s'.host.maps.lookup m = some (emptyMap settings) := by
  refine does_bind (does_attempt fun s₁ quiet => ?_)
  exact leads_bind (leads_get (leads_bind (leads_set (leads_pure
    ⟨evolves_newMap settings s₁, lookup_insert _⟩))))

/-- A pin under the path was there before. -/
structure Shrinks (path : String) (s s' : System) : Prop extends Evolves (some path) s s' where
  ownPin : ∀ m, s'.host.pins.lookup path = some m → s.host.pins.lookup path = some m

instance : IsPreorder System (Shrinks path) where
  refl s := ⟨Evolves.refl s, fun _ => id⟩
  trans _ _ _ first second := ⟨first.toEvolves.trans second.toEvolves,
    fun m pinned => first.ownPin m (second.ownPin m pinned)⟩

theorem Quiet.shrinks {s s' : System} (quiet : Quiet s s') : Shrinks path s s' :=
  ⟨quiet.evolves, fun m pinned => by rwa [quiet.samePins] at pinned⟩

theorem shrinks_attempt : Frames (Shrinks path) attempt :=
  quiet_attempt.weaken fun _ _ => Quiet.shrinks

theorem shrinks_removePin : Frames (Shrinks path) (removePin path) := by
  refine shrinks_attempt.bind fun _ => frames_modify fun s =>
    ⟨evolves_pins fun _ apart => lookup_erase_ne apart, fun m pinned => ?_⟩
  cases (lookup_erase path s.host.pins).symm.trans pinned

theorem shrinks_removePinnedMap (m : Option Nat) :
    Frames (Shrinks path) (removePinnedMap m path metadataPath) := by
  have unpins : ∀ text, Frames (Shrinks path) (ignoring (wrapping text (removePin path))) :=
    fun _ => frames_ignoring (frames_wrapping shrinks_removePin)
  have rest : ∀ {last : Option PolicyError → Option PolicyError → StoreM Unit},
      (∀ pin metadata, Frames (Shrinks path) (last pin metadata)) → Frames (Shrinks path) (do
      let pin ← ignoring (wrapping s!"unpin eBPF policy map {path}" (removePin path))
      let metadata ← ignoring
        (wrapping s!"remove policy map metadata {metadataPath}" (removeMetadata metadataPath))
      last pin metadata) := by
    intro last ends
    exact (unpins _).bind fun pin => Frames.bind (frames_ignoring (frames_wrapping
      (harmless_removeMetadata.quiet.weaken fun _ _ => Quiet.shrinks))) (ends pin)
  cases m with
  | none =>
    refine rest fun pin metadata => ?_
    split
    · exact frames_pure _
    · exact frames_throw _
  | some m =>
    refine (unpins _).bind fun unpinned =>
      (frames_ignoring (frames_wrapping shrinks_attempt)).bind fun closed => rest fun _ _ => ?_
    split
    · exact frames_pure _
    · exact frames_throw _

/-- Without faults nothing fails. -/
theorem does_removePinnedMap :
    Does (some path) trouble (removePinnedMap none path metadataPath) s fun _ _ => True := by
  have fails : Leads (removePinnedMap none path metadataPath) s (fun _ _ => True)
      fun _ _ => s.host.faults ≠ [] := by
    obtain ⟨store, maps, pins, metadata, faults, writes⟩ := s
    cases faults with
    | nil => trivial
    | cons => exact leads_of_forall (fun _ _ => trivial) fun _ _ => cons_ne_nil _ _
  exact (Leads.and (shrinks_removePinnedMap none s) fails).mono
    (fun _ _ both => ⟨both.1.toEvolves, trivial⟩) fun _ _ both => ⟨both.1.toEvolves, .inl both.2⟩

/-- Cleaning up after a failure changes neither what failed nor why. -/
theorem does_cleanup {α : Type} {body : StoreM α} {cleanup : StoreM Unit} {Q : α → System → Prop}
    (does : Does (some path) trouble body s Q) (frames : Frames (Shrinks path) cleanup) :
    Does (some path) trouble (tryCatch body fun err => do let _ ← ignoring cleanup; throw err) s Q := by
  refine leads_tryCatch (Leads.mono does (fun _ _ holds => holds) ?_)
  rintro e s₁ ⟨before, reason⟩
  refine leads_bind ((frames_ignoring frames s₁).mono ?_ ?_)
  · intro _ s₂ later
    exact leads_throw ⟨before.trans later.toEvolves, reason⟩
  · intro _ s₂ later
    exact ⟨before.trans later.toEvolves, reason⟩

end Files

/-! ### Preparing the map -/

section Prepare

variable {path metadataPath : String} {touched : Option String} {s : System} {trouble : Prop}
  (settings : StoreSettings) (endpointID : String)

theorem does_createTransientPolicyMap {desired : List PolicyMapEntry} (nodup : KeysNodup desired)
    (fits : ¬ trouble → desired.length ≤ settings.maxEntries.toNat) :
    Does touched trouble (createTransientPolicyMap settings endpointID desired) s fun m s' =>
      Filled m (emptyMap settings) desired s' := by
  refine does_bind (does_wrapping ((does_newMap settings).mono ?_))
  intro m s₁ _ here
  replace here : s₁.host.maps.lookup m = some { emptyMap settings with content := ∅ } := here
  refine does_bind (does_wrapping ((does_populatePolicyMap here nodup fits).mono ?_))
  exact fun _ s₂ _ filled => does_pure filled

theorem does_createPinnedPolicyMap :
    Does (some path) trouble (createPinnedPolicyMap settings endpointID path metadataPath) s fun m s' =>
      s'.host.maps.lookup m = some (emptyMap settings) ∧ s'.host.pins.lookup path = some m := by
  refine does_bind (does_wrapping (does_removePin.mono fun _ s₁ _ _ => ?_))
  refine does_bind (does_wrapping (harmless_removeMetadata.does fun s₂ _ => ?_))
  refine does_bind (does_wrapping ((does_newMap settings).mono ?_))
  intro m s₃ _ here
  refine does_bind (does_wrapping ((does_pinMap m).mono ?_))
  rintro _ s₄ _ ⟨maps, pin⟩
  refine does_bind (does_cleanup ((harmless_writeMapMetadata settings _ endpointID).does
    fun s₅ quiet => ?_) (shrinks_removePinnedMap (some m)))
  exact does_pure ⟨by rw [quiet.sameMaps, maps, here], by rw [quiet.samePins, pin]⟩

/-- The map is there, with room for what the store allows. -/
abbrev Sized (m : Nat) (s : System) : Prop :=
  ∃ kernelMap, s.host.maps.lookup m = some kernelMap ∧ kernelMap.maxEntries = settings.maxEntries

theorem does_validatePinnedMap (m : Nat) (endpointID : String) :
    Does touched True (validatePinnedMap settings m endpointID metadataPath) s fun _ s' =>
      Quiet s s' ∧ Sized settings m s := by
  have throws : ∀ s₁ {α : Type} {e : PolicyError} {Q : α → System → Prop},
      Does touched True (throw e : StoreM α) s₁ Q := fun s₁ {_ _ _} =>
    leads_throw ⟨Evolves.refl s₁, .inr trivial⟩
  refine does_bind (does_wrapping (does_attempt fun s₁ before => ?_))
  refine leads_bind (leads_get ?_)
  cases here : s₁.host.maps.lookup m with
  | none => exact throws s₁
  | some kernelMap =>
    dsimp only
    split
    · exact does_bind (throws s₁)
    · next shaped =>
      have room : kernelMap.maxEntries = settings.maxEntries := by
        simp only [Bool.or_eq_true, decide_eq_true_eq, not_or, not_not] at shaped
        exact shaped.2
      refine does_bind (does_attempt fun s₂ later => ?_)
      have valid : Quiet s s₂ ∧ Sized settings m s :=
        ⟨trans_of _ before later, kernelMap, by rw [← before.sameMaps, here], room⟩
      refine leads_bind (leads_get ?_)
      split
      · exact throws s₂
      · exact throws s₂
      · split
        · exact throws s₂
        · split
          · exact throws s₂
          · exact does_pure valid

theorem does_loadPinnedPolicyMap :
    Does touched True (loadPinnedPolicyMap settings endpointID path metadataPath) s fun loaded s' =>
      ∀ m, loaded = some m → s'.host.pins.lookup path = some m ∧ Sized settings m s' := by
  refine leads_bind (leads_get ?_)
  cases pinned : s.host.pins.lookup path with
  | none => exact does_pure (by simp)
  | some m =>
    refine does_bind (does_wrapping (does_attempt fun s₁ before => ?_))
    refine does_bind ((does_validatePinnedMap settings m endpointID).mono ?_)
    rintro _ s₂ _ ⟨later, kernelMap, here, room⟩
    refine does_pure fun m' same => ?_
    cases same
    exact ⟨by rw [later.samePins, before.samePins, pinned], kernelMap, by rw [later.sameMaps, here],
      room⟩

/-- A pinned map that cannot be used is removed. -/
theorem does_loadOrMigrate :
    Does (some path) trouble (tryCatch (loadPinnedPolicyMap settings endpointID path metadataPath)
      fun _ => do
        migratePinnedMap endpointID path metadataPath
        pure none) s fun loaded s' =>
      ∀ m, loaded = some m → s'.host.pins.lookup path = some m ∧ Sized settings m s' := by
  refine leads_tryCatch (Leads.mono (does_loadPinnedPolicyMap settings endpointID)
    (fun _ _ holds => holds) ?_)
  rintro e s₁ ⟨before, _⟩
  have removes : Does (some path) trouble (do
      migratePinnedMap endpointID path metadataPath
      pure (none : Option Nat)) s₁ fun loaded _ => loaded = none :=
    does_bind (does_wrapping ((does_removePinnedMap).mono fun _ _ _ _ => does_pure rfl))
  exact (removes.after before).mono (fun loaded s₂ ⟨later, empty⟩ => ⟨later, by simp [empty]⟩)
    fun _ _ failed => failed

/-- What is known of the map that `preparePolicyMapLocked` returns. -/
structure Prepared (oldEntries desired : List PolicyMapEntry) (m : Nat) (s s' : System) : Prop where
  here : ∃ kernelMap, s'.host.maps.lookup m = some kernelMap ∧
    kernelMap.maxEntries = settings.maxEntries ∧ Matches kernelMap.content desired
  loaded : settings.pinRoot ≠ "" → s.store.maps.lookup endpointID = none →
    s'.host.pins.lookup (settings.mapPath endpointID) = some m
  updated : settings.pinRoot ≠ "" → ∀ m' kernelMap, s.store.maps.lookup endpointID = some m' →
    s.host.maps.lookup m' = some kernelMap →
    m = m' ∧ Updated m kernelMap oldEntries desired s s'

theorem does_preparePolicyMapLocked
    {oldEntries desired : List PolicyMapEntry} (oldNodup : KeysNodup oldEntries)
    (nodup : KeysNodup desired)
    (touches : s.store.maps.lookup endpointID = none → touched = some (settings.mapPath endpointID))
    (unknown : s.store.maps.lookup endpointID = none → oldEntries = [])
    (present : ∀ m, s.store.maps.lookup endpointID = some m → Sized settings m s)
    (fits : ¬ trouble → desired.length ≤ settings.maxEntries.toNat)
    (settled : ¬ trouble → ∀ m kernelMap, s.store.maps.lookup endpointID = some m →
      s.host.maps.lookup m = some kernelMap → Matches kernelMap.content desired →
      oldEntries ≠ [] → (planPolicyUpdate oldEntries desired).delete = []) :
    Does touched trouble (preparePolicyMapLocked settings endpointID desired
      oldEntries (planPolicyUpdate oldEntries desired)) s fun m s' =>
        Prepared settings endpointID oldEntries desired m s s' := by
  unfold preparePolicyMapLocked
  split
  · next unpinned =>
    refine (does_createTransientPolicyMap settings endpointID nodup fits).mono ?_
    rintro m s₁ _ ⟨content, held, matching⟩
    exact ⟨⟨_, held, rfl, matching⟩, (absurd unpinned ·), (absurd unpinned ·)⟩
  · next pinned =>
    refine does_bind (does_wrapping (does_attempt fun s₁ before => ?_))
    refine leads_bind (leads_get ?_)
    rw [before.store]
    cases handle : s.store.maps.lookup endpointID with
    | some m =>
      obtain ⟨kernelMap, here, room⟩ := present m handle
      have here₁ : s₁.host.maps.lookup m = some kernelMap := by rw [before.sameMaps, here]
      rw [← room] at fits
      refine (does_updatePolicyMap here₁ oldNodup nodup settings endpointID false (by simp) fits
        fun untroubled => settled untroubled m kernelMap handle here).mono ?_
      rintro m' s₂ _ ⟨rfl, updated⟩
      obtain ⟨content, held, matching⟩ := updated.content
      refine ⟨⟨_, held, room, matching⟩, fun _ missing => (nomatch handle.symm.trans missing),
        fun _ other kernelMap' same held' => ?_⟩
      obtain rfl := Option.some.inj (handle.symm.trans same)
      obtain rfl := Option.some.inj (here.symm.trans held')
      exact ⟨rfl, updated.since before⟩
    | none =>
      obtain rfl := unknown handle
      obtain rfl := touches handle
      -- Without a handle, the map is one that can be loaded, or a new one.
      dsimp only
      refine does_bind ((does_loadOrMigrate settings endpointID).mono ?_)
      rintro (_ | m) s₂ _ loaded
      · refine does_bind ((does_createPinnedPolicyMap settings endpointID).mono ?_)
        rintro m s₃ _ ⟨here, pin⟩
        replace here : s₃.host.maps.lookup m = some { emptyMap settings with content := ∅ } := here
        refine does_bind ((does_cleanup (does_populatePolicyMap here nodup fits).loosen
          (shrinks_removePinnedMap (some m))).mono ?_)
        rintro _ s₄ _ ⟨⟨content, held, matching⟩, files⟩
        refine does_pure ⟨⟨_, held, rfl, matching⟩, fun _ _ => by rw [files.pins _ nofun, pin],
          fun _ _ _ known => nomatch handle.symm.trans known⟩
      · obtain ⟨pin, kernelMap, here, room⟩ := loaded m rfl
        rw [← room] at fits
        refine ((does_updatePolicyMap here oldNodup nodup settings endpointID true (fun _ => rfl) fits
          fun _ _ some => absurd rfl some).loosen).mono ?_
        rintro m' s₃ _ ⟨⟨rfl, updated⟩, files⟩
        obtain ⟨content, held, matching⟩ := updated.content
        exact ⟨⟨_, held, room, matching⟩, fun _ _ => by rw [files.pins _ nofun, pin],
          fun _ _ _ known => nomatch handle.symm.trans known⟩

end Prepare

end Netloom.Dataplane
