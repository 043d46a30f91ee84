import Netloom.Dataplane.EbpfStore

/-!
# What the operations on kernel maps do

Each operation is described once, for every choice of faults: what it leaves
alone, what it does to the map if it succeeds, and that without faults it fails
only for a reason of its own.
-/
namespace Netloom.Dataplane

open Stateful List AList

abbrev Content := AList fun _ : PolicyKey => PolicyEntry

/-! ### What stays -/

/-- No map holds more than it has room for. -/
def Host.Bounded (host : Host) : Prop :=
  ∀ m kernelMap, host.maps.lookup m = some kernelMap →
    kernelMap.content.entries.length ≤ kernelMap.maxEntries.toNat

/-- Everything but the content of kernel maps, the pin under the path, if there is one, the
metadata and the faults stays: no map disappears, and without faults no faults come up. -/
structure Evolves (path : Option String) (s s' : System) : Prop where
  store : s'.store = s.store
  maps : ∀ m kernelMap, s.host.maps.lookup m = some kernelMap →
    ∃ content, s'.host.maps.lookup m = some { kernelMap with content }
  faults : s.host.faults = [] → s'.host.faults = []
  pins : ∀ other, path ≠ some other → s'.host.pins.lookup other = s.host.pins.lookup other
  writes : s.host.writes <+: s'.host.writes
  bounded : s.host.Bounded → s'.host.Bounded

variable {path : Option String}

theorem Evolves.refl (s : System) : Evolves path s s :=
  ⟨rfl, fun _ kernelMap held => ⟨kernelMap.content, held⟩, id, fun _ _ => rfl, prefix_rfl, id⟩

theorem Evolves.trans {s s' s'' : System} (first : Evolves path s s') (second : Evolves path s' s'') :
    Evolves path s s'' := by
  refine ⟨second.store.trans first.store, ?_, fun none => second.faults (first.faults none),
    fun other apart => (second.pins other apart).trans (first.pins other apart),
    first.writes.trans second.writes, fun bounded => second.bounded (first.bounded bounded)⟩
  intro m kernelMap held
  obtain ⟨content, held⟩ := first.maps m kernelMap held
  obtain ⟨content', held⟩ := second.maps m _ held
  exact ⟨content', held⟩

instance : IsPreorder System (Evolves path) where
  refl := Evolves.refl
  trans _ _ _ := Evolves.trans

theorem Evolves.loosen {s s' : System} (evolves : Evolves none s s') : Evolves path s s' :=
  { evolves with pins := fun other _ => evolves.pins other nofun }

/-- Nothing but metadata and faults changes. -/
structure Quiet (s s' : System) : Prop extends Evolves none s s' where
  samePins : s'.host.pins = s.host.pins
  sameMaps : s'.host.maps = s.host.maps
  sameWrites : s'.host.writes = s.host.writes

instance : IsPreorder System Quiet where
  refl s := ⟨Evolves.refl s, rfl, rfl, rfl⟩
  trans _ _ _ first second := ⟨first.toEvolves.trans second.toEvolves,
    second.samePins.trans first.samePins, second.sameMaps.trans first.sameMaps,
    second.sameWrites.trans first.sameWrites⟩

theorem Quiet.evolves {s s' : System} (quiet : Quiet s s') : Evolves path s s' :=
  quiet.toEvolves.loosen

/-- A computation that ends with `Q` if it succeeds, and that fails only for faults or in
`trouble`. -/
abbrev Does {α : Type} (path : Option String) (trouble : Prop) (body : StoreM α) (s : System)
    (Q : α → System → Prop) : Prop :=
  Leads body s (fun a s' => Evolves path s s' ∧ Q a s')
    (fun _ s' => Evolves path s s' ∧ (s.host.faults ≠ [] ∨ trouble))

section Rules

variable {α β : Type} {s : System} {trouble : Prop} {body : StoreM α} {Q : α → System → Prop}

/-- Where an earlier step has led, the computation does the same since then. -/
theorem Does.after {s₁ : System} (does : Does path trouble body s₁ Q) (before : Evolves path s s₁) :
    Leads body s₁ (fun a s' => Evolves path s s' ∧ Q a s')
      (fun _ s' => Evolves path s s' ∧ (s.host.faults ≠ [] ∨ trouble)) :=
  Leads.mono does (fun _ _ ⟨later, holds⟩ => ⟨before.trans later, holds⟩) fun _ _ ⟨later, reason⟩ =>
    ⟨before.trans later, reason.imp_left fun faults none => faults (before.faults none)⟩

theorem Does.mono {Q' : α → System → Prop} (does : Does path trouble body s Q)
    (result : ∀ a s', Evolves path s s' → Q a s' → Q' a s') : Does path trouble body s Q' :=
  Leads.mono does (fun a s' ⟨evolves, holds⟩ => ⟨evolves, result a s' evolves holds⟩)
    fun _ _ failed => failed

theorem does_pure {a : α} (holds : Q a s) : Does path trouble (pure a) s Q :=
  leads_pure ⟨Evolves.refl s, holds⟩

theorem does_bind {next : α → StoreM β} {Q : β → System → Prop}
    (first : Does path trouble body s fun a s' => Does path trouble (next a) s' Q) :
    Does path trouble (body >>= next) s Q :=
  Leads.bind first fun _ _ ⟨evolves, second⟩ => second.after evolves

theorem does_wrapping {text : String} (does : Does path trouble body s Q) :
    Does path trouble (wrapping text body) s Q :=
  leads_tryCatch (Leads.mono does (fun _ _ holds => holds) fun _ _ failed => leads_throw failed)

theorem does_forM {γ : Type} {items : List γ} {body : γ → StoreM Unit} {Q : Unit → System → Prop}
    (Invariant : List γ → System → Prop) (initial : Invariant [] s)
    (step : ∀ done item rest s', done ++ item :: rest = items → Evolves path s s' → Invariant done s' →
      Does path trouble (body item) s' fun _ s'' => Invariant (done ++ [item]) s'')
    (final : ∀ s', Evolves path s s' → Invariant items s' → Q () s') :
    Does path trouble (items.forM body) s Q := by
  refine leads_forM (fun done s' => Evolves path s s' ∧ Invariant done s') ⟨Evolves.refl s, initial⟩ ?_
    fun s' ⟨evolves, holds⟩ => ⟨evolves, final s' evolves holds⟩
  rintro done item rest s' split ⟨evolves, holds⟩
  exact (step done item rest s' split evolves holds).after evolves

end Rules

/-! ### Computations that keep the books -/

section Frames

variable {α : Type} {R : System → System → Prop} [IsPreorder System R]

theorem frames_wrapping {text : String} {body : StoreM α} (first : Frames R body) :
    Frames R (wrapping text body) :=
  first.tryCatch fun _ => frames_throw _

theorem frames_ignoring {body : StoreM Unit} (first : Frames R body) : Frames R (ignoring body) :=
  (first.bind fun _ => frames_pure _).tryCatch fun _ => frames_pure _

theorem Does.loosen {s : System} {trouble : Prop} {body : StoreM α} {Q : α → System → Prop}
    (does : Does none trouble body s Q) :
    Does path trouble body s fun a s' => Q a s' ∧ Evolves none s s' :=
  Leads.mono does (fun _ _ ⟨evolves, holds⟩ => ⟨evolves.loosen, holds, evolves⟩)
    fun _ _ ⟨evolves, reason⟩ => ⟨evolves.loosen, reason⟩

end Frames

/-! ### Single operations -/

section Operations

variable {s : System} {m : Nat} {kernelMap : KernelMap} {trouble : Prop}

/-- A computation that changes nothing but metadata and faults, and fails only for faults. -/
def Harmless (body : StoreM Unit) : Prop :=
  ∀ s, Leads body s (fun _ => Quiet s) fun _ s' => Quiet s s' ∧ s.host.faults ≠ []

/-- An operation does nothing else before it acts. -/
theorem harmless_attempt : Harmless attempt := by
  intro s
  unfold Leads attempt
  cases faults : s.host.faults with
  | nil => exact refl_of Quiet s
  | cons fault rest =>
    have some : s.host.faults ≠ [] := by simp [faults]
    have quiet : Quiet s { s with host.faults := rest } :=
      ⟨⟨rfl, fun _ kernelMap held => ⟨kernelMap.content, held⟩, fun none => absurd none some,
        fun _ _ => rfl, prefix_rfl, id⟩, rfl, rfl, rfl⟩
    cases fault with
    | none => exact quiet
    | some text => exact ⟨quiet, by simp⟩

section Harmless

variable {body : StoreM Unit} (harmless : Harmless body)
include harmless

theorem Harmless.does {Q : Unit → System → Prop} (holds : ∀ s', Quiet s s' → Q () s') :
    Does path trouble body s Q :=
  (harmless s).mono (fun _ s' quiet => ⟨quiet.evolves, holds s' quiet⟩)
    fun _ _ ⟨quiet, faults⟩ => ⟨quiet.evolves, .inl faults⟩

theorem Harmless.quiet : Frames Quiet body := fun s =>
  (harmless s).mono (fun _ _ quiet => quiet) fun _ _ failed => failed.1

theorem Harmless.wrapping {text : String} : Harmless (wrapping text body) := fun s =>
  leads_tryCatch ((harmless s).mono (fun _ _ quiet => quiet) fun _ _ failed => leads_throw failed)

theorem Harmless.bind {next : StoreM Unit} (second : Harmless next) :
    Harmless (do body; next) := by
  intro s
  refine leads_bind ((harmless s).mono (fun _ s₁ before => ?_) fun _ _ failed => failed)
  refine (second s₁).mono (fun _ _ quiet => trans_of _ before quiet) ?_
  rintro _ s₂ ⟨quiet, faults⟩
  exact ⟨trans_of _ before quiet, fun none => faults (before.faults none)⟩

end Harmless

theorem harmless_modify {f : System → System} (quiet : ∀ s, Quiet s (f s)) :
    Harmless (modify f) := fun s => leads_modify (quiet s)

theorem does_attempt {Q : Unit → System → Prop} (holds : ∀ s', Quiet s s' → Q () s') :
    Does path trouble attempt s Q :=
  harmless_attempt.does holds

theorem quiet_attempt : Frames Quiet attempt := harmless_attempt.quiet

/-- The map has this content, and the operation that gave it is the last one recorded. -/
structure Wrote (m : Nat) (kernelMap : KernelMap) (content : Content) (s s' : System) : Prop where
  here : s'.host.maps.lookup m = some { kernelMap with content }
  writes : s'.host.writes = s.host.writes ++ [(m, content)]

section

variable (here : s.host.maps.lookup m = some kernelMap)

include here

private theorem evolves_setContent
    {content : Content} (size : s.host.Bounded → content.entries.length ≤ kernelMap.maxEntries.toNat) :
    Evolves path s (s.setContent m kernelMap content) := by
  refine ⟨rfl, ?_, id, fun _ _ => rfl, prefix_append _ _, ?_⟩
  · intro other kernelMap' held
    by_cases same : other = m
    · subst same
      rw [here] at held
      cases held
      exact ⟨content, lookup_insert _⟩
    · exact ⟨kernelMap'.content, (lookup_insert_ne same).trans held⟩
  · intro bounded other kernelMap' held
    by_cases same : other = m
    · subst same
      obtain rfl := Option.some.inj ((lookup_insert _).symm.trans held)
      exact size bounded
    · exact bounded other kernelMap' ((lookup_insert_ne same).symm.trans held)

variable {key : PolicyKey} {value : PolicyEntry}

/-- A map with room for a key still has room for itself with the key written. -/
private theorem evolves_put (free : ¬ (kernelMap.content.lookup key = none ∧
      kernelMap.maxEntries.toNat ≤ kernelMap.content.entries.length)) :
    Evolves path s (s.setContent m kernelMap (kernelMap.content.insert key value)) := by
  refine evolves_setContent here fun bounded => ?_
  cases found : kernelMap.content.lookup key with
  | none =>
    rw [entries_insert_of_notMem (lookup_eq_none.mp found), length_cons]
    have space : ¬ kernelMap.maxEntries.toNat ≤ kernelMap.content.entries.length :=
      fun full => free ⟨found, full⟩
    omega
  | some old =>
    have present : key ∈ kernelMap.content := lookup_isSome.mp (by simp [found])
    have same : (kernelMap.content.insert key value).entries.length =
        kernelMap.content.entries.length := by
      have keys := (perm_cons_erase (AList.mem_keys.mp present)).length_eq
      have kept := congrArg List.length (keys_kerase (a := key) (l := kernelMap.content.entries))
      simp only [AList.keys, List.keys, length_map, length_cons] at keys kept
      rw [entries_insert, length_cons, kept, ← keys]
    exact same.trans_le (bounded m kernelMap here)

private theorem evolves_delete :
    Evolves path s (s.setContent m kernelMap (kernelMap.content.erase key)) := by
  refine evolves_setContent here fun bounded => ?_
  exact ((kerase_sublist key kernelMap.content.entries).length_le).trans (bounded m kernelMap here)

omit here in
theorem wrote_setContent {s₁ : System} (content : Content) (quiet : Quiet s s₁) :
    Wrote m kernelMap content s (s₁.setContent m kernelMap content) :=
  ⟨lookup_insert _, by rw [← quiet.sameWrites]; rfl⟩

theorem does_mapPut (room : ¬ trouble → kernelMap.content.lookup key ≠ none ∨
      kernelMap.content.entries.length < kernelMap.maxEntries.toNat) :
    Does path trouble (mapPut m key value) s fun _ s' =>
      Wrote m kernelMap (kernelMap.content.insert key value) s s' := by
  refine does_bind (does_attempt fun s₁ quiet => ?_)
  rw [← quiet.sameMaps] at here
  apply leads_bind
  apply leads_get
  simp only [here]
  split
  · next full =>
    refine leads_throw ⟨Evolves.refl _, .inr ?_⟩
    by_contra untroubled
    rcases room untroubled with present | space
    · exact present full.1
    · have := full.2
      omega
  · next free => exact leads_set ⟨evolves_put here free, wrote_setContent _ quiet⟩

theorem does_mapDelete (present : ¬ trouble → kernelMap.content.lookup key ≠ none) :
    Does path trouble (mapDelete m key) s fun _ s' => kernelMap.content.lookup key ≠ none ∧
      Wrote m kernelMap (kernelMap.content.erase key) s s' := by
  refine does_bind (does_attempt fun s₁ quiet => ?_)
  rw [← quiet.sameMaps] at here
  apply leads_bind
  apply leads_get
  simp only [here]
  split
  · next absent =>
    exact leads_throw ⟨Evolves.refl _, .inr (by_contra fun untroubled => present untroubled absent)⟩
  · next held =>
    exact leads_set ⟨evolves_delete here, held, wrote_setContent _ quiet⟩

theorem does_readPolicyMapEntries :
    Does path trouble (readPolicyMapEntries m) s fun entries s' =>
      entries = kernelMap.content.entries ∧ Quiet s s' := by
  refine does_bind (does_attempt fun s₁ quiet => ?_)
  rw [← quiet.sameMaps] at here
  apply leads_bind
  apply leads_get
  simp only [here]
  exact leads_pure ⟨Evolves.refl _, rfl, quiet⟩

end

end Operations

/-! ### Frames of the operations -/

section OperationFrames

variable {R : System → System → Prop} [IsPreorder System R] (context : Frames R attempt) {m : Nat}
include context

theorem frames_mapPut {key : PolicyKey} {value : PolicyEntry}
    (put : ∀ s kernelMap, s.host.maps.lookup m = some kernelMap →
      ¬ (kernelMap.content.lookup key = none ∧
        kernelMap.maxEntries.toNat ≤ kernelMap.content.entries.length) →
      R s (s.setContent m kernelMap (kernelMap.content.insert key value))) :
    Frames R (mapPut m key value) := by
  refine context.bind fun _ s => leads_bind (leads_get ?_)
  cases here : s.host.maps.lookup m with
  | none => exact frames_throw _ s
  | some kernelMap =>
    dsimp only
    split
    · exact frames_throw _ s
    · next free => exact leads_set (put s kernelMap here free)

theorem frames_readPolicyMapEntries : Frames R (readPolicyMapEntries m) := by
  refine context.bind fun _ => frames_get.bind fun sys => ?_
  cases sys.host.maps.lookup m with
  | none => exact frames_throw _
  | some kernelMap => exact frames_pure _

end OperationFrames

/-! ### Clearing and filling a map -/

section Loops

variable {s : System} {m : Nat} {kernelMap : KernelMap} {trouble : Prop} {content : Content}

theorem content_eq_empty (none : ∀ key, content.lookup key = none) : content = ∅ := by
  apply AList.ext
  apply eq_nil_iff_forall_not_mem.mpr
  rintro ⟨key, value⟩ member
  have found := mem_lookup_iff.mpr member
  rw [Option.mem_def, none key] at found
  cases found

/-- Clearing leaves the map empty. If there was something to delete, the empty map is
also what the last deletion left. -/
theorem does_clearMap (here : s.host.maps.lookup m = some kernelMap) :
    Does path trouble (clearMap m) s fun _ s' =>
      s'.host.maps.lookup m = some { kernelMap with content := ∅ } ∧
      (kernelMap.content ≠ ∅ →
        ∃ earlier, s'.host.writes = s.host.writes ++ earlier ++ [(m, ∅)]) := by
  refine does_bind ((does_readPolicyMapEntries here).mono ?_)
  rintro entries s₁ _ ⟨rfl, quiet⟩
  refine does_bind (does_forM (fun done s' => ∃ content later,
    s'.host.maps.lookup m = some { kernelMap with content } ∧
    (∀ key, content.lookup key = if key ∈ done.keys then none else kernelMap.content.lookup key) ∧
    s'.host.writes = s.host.writes ++ later ∧
    (done ≠ [] → later.getLast? = some (m, content))) ?_ ?_ ?_)
  · exact ⟨kernelMap.content, [], by rw [quiet.sameMaps, here], by simp, by simp [quiet.sameWrites],
      by simp⟩
  · rintro done entry rest s₂ split _ ⟨content, later, held, left, writes, _⟩
    have nodup : (kernelMap.content.entries.map Sigma.fst).Nodup := kernelMap.content.nodupKeys
    have fresh : entry.1 ∉ done.keys := by
      grind
    have stored : kernelMap.content.lookup entry.1 = some entry.2 :=
      mem_lookup_iff.mpr (by rw [← split]; simp)
    have present : content.lookup entry.1 ≠ none := by
      rw [left, if_neg fresh, stored]
      simp
    refine (does_mapDelete held fun _ => present).mono ?_
    rintro _ s₃ _ ⟨_, held, wrote⟩
    refine ⟨content.erase entry.1, later ++ [(m, content.erase entry.1)], held, fun key => ?_,
      by rw [wrote, writes, append_assoc], by simp⟩
    by_cases same : key = entry.1
    · subst same
      simp [List.keys]
    · rw [lookup_erase_ne same, left]
      refine if_congr ?_ rfl rfl
      rw [List.keys, map_append, mem_append]
      simp [same]
  · rintro s₂ _ ⟨content, later, held, left, writes, last⟩
    -- Everything the iteration visited is deleted, and it visited everything.
    have empty : content = ∅ := by
      apply content_eq_empty
      intro key
      rw [left]
      split
      · rfl
      · next absent => exact lookup_eq_none.mpr absent
    subst empty
    refine does_attempt fun s₃ quiet => ?_
    refine ⟨by rw [quiet.sameMaps, held], fun some => ?_⟩
    obtain ⟨earlier, rfl⟩ := getLast?_eq_some_iff.mp (last fun none => some (AList.ext none))
    exact ⟨earlier, by rw [quiet.sameWrites, writes, append_assoc]⟩

/-- The map holds exactly these entries. -/
def Holding (content : Content) (entries : List PolicyMapEntry) : Prop :=
  ∀ key, content.lookup key = (findEntry entries key).map PolicyMapEntry.value

theorem holding_empty : Holding ∅ [] := fun _ => rfl

/-- A step that puts an entry into the map if it has room. -/
def Puts (path : Option String) (m : Nat) (body : PolicyMapEntry → StoreM Unit) : Prop :=
  ∀ (trouble : Prop) entry s kernelMap, s.host.maps.lookup m = some kernelMap →
    (¬ trouble → kernelMap.content.lookup entry.key ≠ none ∨
      kernelMap.content.entries.length < kernelMap.maxEntries.toNat) →
    Does path trouble (body entry) s fun _ s' =>
      Wrote m kernelMap (kernelMap.content.insert entry.key entry.value) s s'

/-- A look at the context before a write does not matter. -/
private theorem does_afterContext {body : StoreM Unit}
    (here : s.host.maps.lookup m = some kernelMap)
    (does : ∀ s', s'.host.maps.lookup m = some kernelMap →
      Does path trouble body s' fun _ s'' => Wrote m kernelMap content s' s'') :
    Does path trouble (do checkContext; body) s fun _ s'' => Wrote m kernelMap content s s'' := by
  refine does_bind (does_attempt fun s₁ quiet => ?_)
  refine (does s₁ (by rw [quiet.sameMaps, here])).mono ?_
  rintro _ s₂ _ ⟨held, wrote⟩
  exact ⟨held, by rw [wrote, quiet.sameWrites]⟩

theorem puts_populate (m : Nat) :
    Puts path m (fun entry => do checkContext; mapPut m entry.key entry.value) := by
  intro trouble entry s kernelMap here room
  exact does_afterContext here fun s' here => does_mapPut here room

theorem puts_applyToMap (endpointID : String) (m : Nat) :
    Puts path m fun entry => applyToMap endpointID m (.put entry) := by
  intro trouble entry s kernelMap here room
  exact does_afterContext here fun s' here => does_wrapping (does_mapPut here room)

variable {entries : List PolicyMapEntry} {entry : PolicyMapEntry}

private theorem findEntry_append_singleton (fresh : findEntry entries entry.key = none)
    (key : PolicyKey) :
    findEntry (entries ++ [entry]) key =
      if key = entry.key then some entry else findEntry entries key := by
  rw [findEntry, find?_append, ← findEntry]
  split
  · next same =>
    subst same
    simp [fresh]
  · next differ =>
    have apart : ¬ entry.key = key := fun same => differ same.symm
    simp [apart]

theorem Holding.insert (holding : Holding content entries)
    (fresh : findEntry entries entry.key = none) :
    Holding (content.insert entry.key entry.value) (entries ++ [entry]) := by
  intro key
  rw [findEntry_append_singleton fresh]
  by_cases same : key = entry.key
  · rw [if_pos same, same, lookup_insert, Option.map_some]
  · rw [if_neg same, lookup_insert_ne same, holding]

/-- Filling an empty map that is large enough. -/
theorem does_fill {body : PolicyMapEntry → StoreM Unit} (puts : Puts path m body)
    (here : s.host.maps.lookup m = some { kernelMap with content := ∅ }) (nodup : KeysNodup entries)
    (fits : ¬ trouble → entries.length ≤ kernelMap.maxEntries.toNat) :
    Does path trouble (entries.forM body) s fun _ s' => ∃ content,
      s'.host.maps.lookup m = some { kernelMap with content } ∧ Holding content entries := by
  refine does_forM (fun done s' => ∃ content,
    s'.host.maps.lookup m = some { kernelMap with content } ∧ Holding content done ∧
      content.entries.length = done.length) ?_ ?_ ?_
  · exact ⟨∅, here, holding_empty, rfl⟩
  · rintro done entry rest s₁ split _ ⟨content, held, holding, size⟩
    have fresh : findEntry done entry.key = none := by
      rw [← split, KeysNodup, map_append, map_cons, nodup_append] at nodup
      rw [findEntry_none]
      intro other inDone same
      exact nodup.2.2 _ (mem_map_of_mem inDone) entry.key (by simp) same
    have absent : content.lookup entry.key = none := by
      rw [holding, fresh]
      rfl
    have room : ¬ trouble → content.entries.length < kernelMap.maxEntries.toNat := by
      grind
    refine (puts trouble entry s₁ _ held fun untroubled => .inr (room untroubled)).mono ?_
    rintro _ s₂ _ ⟨held, _⟩
    refine ⟨_, held, holding.insert fresh, ?_⟩
    rw [entries_insert_of_notMem (lookup_eq_none.mp absent), length_cons, size,
      length_append, length_singleton]
  · rintro s₁ _ ⟨content, held, holding, _⟩
    exact ⟨content, held, holding⟩

end Loops

end Netloom.Dataplane
