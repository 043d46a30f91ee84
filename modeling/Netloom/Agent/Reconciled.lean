import Netloom.Agent.Reconcile

/-!
# What a run leaves

Frames say what no run does, whether it succeeds or fails at any point. The record of a
completed run says what was compiled, which entries the store holds for it, which
connections were dropped and what is attached.
-/
namespace Netloom.Agent

open Model (Time Endpoint endpointKey)
open Policy (Program)
open Dataplane (InMemoryPolicyStore InMemoryConntrackStore ConntrackKey PolicyMapEntry encodeProgram)
open Dataplane.InMemoryPolicyStore (SameAt)
open Control (DesiredState)
open Stateful List Checked Fold

/-! ### Frames of the steps -/

section Rules

variable {α : Type} {R : Reconciler → Reconciler → Prop} [IsPreorder Reconciler R]

theorem frames_checked (outcome : Except String α) : Frames R (checked outcome) := by
  cases outcome with
  | ok a => exact frames_pure a
  | error err => exact frames_throw err

theorem frames_checked_bind {β : Type} {outcome : Except String α} {f : α → Reconciling β}
    (next : ∀ a, outcome = .ok a → Frames R (f a)) : Frames R (checked outcome >>= f) := by
  cases outcome with
  | ok a => exact fun r => leads_bind (leads_pure (next a rfl r))
  | error err => exact fun r => leads_bind (leads_throw (refl_of R r))

theorem frames_wrapping {body : Reconciling α} (wrap : String → String) (frames : Frames R body) :
    Frames R (wrapping wrap body) :=
  frames.tryCatch fun err => frames_throw (wrap err)

theorem frames_onlyIf {condition : Bool} {body : Reconciling Unit}
    (frames : condition → Frames R body) : Frames R (onlyIf condition body) := by
  unfold onlyIf
  split
  · next holds => exact frames holds
  · exact frames_pure _

end Rules

section LeadRules

variable {α : Type} {r : Reconciler} {Q : α → Reconciler → Prop} {E : String → Reconciler → Prop}
  {outcome : Except String α}

theorem leads_checked (returned : ∀ a, outcome = .ok a → Q a r)
    (failed : ∀ err, outcome = .error err → E err r) : Leads (checked outcome) r Q E := by
  cases outcome with
  | ok a => exact leads_pure (returned a rfl)
  | error err => exact leads_throw (failed err rfl)

theorem leads_checked_bind {β : Type} {f : α → Reconciling β} {Q : β → Reconciler → Prop}
    (next : ∀ a, outcome = .ok a → Leads (f a) r Q fun _ _ => True) :
    Leads (checked outcome >>= f) r Q fun _ _ => True :=
  leads_bind (leads_checked next fun _ _ => trivial)

theorem leads_wrapping {wrap : String → String} {body : Reconciling α}
    (leads : Leads body r Q fun err r' => E (wrap err) r') : Leads (wrapping wrap body) r Q E :=
  leads_tryCatch (leads.mono (fun _ _ holds => holds) fun _ _ holds => leads_throw holds)

theorem leads_onlyIf {condition : Bool} {body : Reconciling Unit} {Q : Unit → Reconciler → Prop}
    (yes : condition → Leads body r Q E) (no : condition = false → Q () r) :
    Leads (onlyIf condition body) r Q E := by
  cases condition with
  | true => exact yes rfl
  | false => exact leads_pure (no rfl)

end LeadRules

/-- The store changes as `R` says, and besides it only the number of compilations. -/
def OnStore (R : InMemoryPolicyStore → InMemoryPolicyStore → Prop) (r r' : Reconciler) : Prop :=
  ∃ store compilations, R r.store store ∧ r' = { r with store, compilations }

instance {R : InMemoryPolicyStore → InMemoryPolicyStore → Prop} [IsPreorder _ R] :
    IsPreorder Reconciler (OnStore R) where
  refl r := ⟨_, _, refl_of R r.store, rfl⟩
  trans := by
    rintro r _ _ ⟨_, _, first, rfl⟩ ⟨_, _, second, rfl⟩
    exact ⟨_, _, trans_of R first second, rfl⟩

/-- The relation holds for every change of the store that spares the frozen endpoints. -/
structure Admits (options : ReconcileOptions)
    (R : InMemoryPolicyStore → InMemoryPolicyStore → Prop) : Prop where
  replace : ∀ endpointID ∉ options.frozenPolicyEndpoints, ∀ s now entries,
    R s (s.replaceEndpoint now endpointID entries).2
  delete : ∀ endpointID ∉ options.frozenPolicyEndpoints, ∀ s now,
    R s (s.deleteEndpoint now endpointID)
  sweep : ∀ keep, (∀ endpointID ∈ options.frozenPolicyEndpoints, endpointID ∈ keep) →
    ∀ s maxIdle now visited, R s (s.sweepPolicyEndpoints keep maxIdle now visited).2

instance (endpointID : String) : IsPreorder InMemoryPolicyStore (SameAt endpointID) where
  refl _ := ⟨rfl, rfl⟩
  trans _ _ _ := SameAt.trans

section Steps

variable {options : ReconcileOptions} {R : InMemoryPolicyStore → InMemoryPolicyStore → Prop}
  [IsPreorder _ R]

omit [IsPreorder _ R] in
theorem frames_modifyStore {change : InMemoryPolicyStore → InMemoryPolicyStore}
    (related : ∀ s, R s (change s)) : Frames (OnStore R) (modifyStore change) :=
  frames_modify fun r => ⟨_, _, related r.store, rfl⟩

variable {endpointID : String}

omit [IsPreorder _ R] in
theorem frames_replaceEndpoint {now : Time} {entries : List PolicyMapEntry}
    (related : ∀ s, R s (InMemoryPolicyStore.replaceEndpoint s now endpointID entries).2) :
    Frames (OnStore R) (replaceEndpoint now endpointID entries) := by
  intro r
  refine leads_bind (leads_get (leads_bind (leads_set ?_)))
  have replaced : OnStore R r
      { r with store := (r.store.replaceEndpoint now endpointID entries).2 } :=
    ⟨_, _, related r.store, rfl⟩
  split
  · exact leads_pure replaced
  · exact leads_throw replaced

/-- Deleting endpoints one after the other. -/
theorem related_deleteEndpoints (clock : String → Time) {endpointIDs : List String}
    (deleted : ∀ endpointID ∈ endpointIDs, ∀ s now, R s (s.deleteEndpoint now endpointID))
    (s : InMemoryPolicyStore) :
    R s (endpointIDs.foldl (fun s endpointID => s.deleteEndpoint (clock endpointID) endpointID) s) := by
  induction endpointIDs generalizing s with
  | nil => exact refl_of R s
  | cons endpointID rest ih =>
    rw [forall_mem_cons] at deleted
    exact trans_of R (deleted.1 s _) (ih deleted.2 _)

/-- The maps in memory are never under pressure. -/
theorem leads_mitigatePolicyMapPressure (options : ReconcileOptions) (run : Surroundings)
    (programs : List CompiledProgram) (r : Reconciler) :
    Leads (mitigatePolicyMapPressure options run programs) r (fun _ r' => r' = r)
      fun _ _ => False := by
  have unpressed : ∀ {Q : BitVec 32 × String → Reconciler → Prop} {E}, Q (0, "") r →
      Leads policyMapPressure r Q E := by
    intro Q E holds
    refine leads_bind (leads_get (leads_pure ?_))
    rwa [r.store.maxPressure_policyMapUsage]
  refine leads_bind (unpressed (leads_bind (leads_onlyIf (fun pressed => ?_) fun _ => ?_)))
  · simp only [gt_iff_lt, ge_iff_le, Bool.and_eq_true, decide_eq_true_eq] at pressed
    exact absurd pressed.1 (BitVec.not_lt.mpr pressed.2)
  · refine leads_bind (unpressed (leads_onlyIf (fun _ => ?_) fun _ => rfl))
    simp only [quarantinePolicyMapPressure, Bool.or_eq_true, decide_true, or_true, if_true]
    exact leads_pure rfl

theorem frames_quarantinePolicyMapPressure (admits : Admits options R) (run : Surroundings)
    (keep : List String) (threshold : BitVec 32) (pressure : BitVec 32 × String) :
    Frames (OnStore R) (quarantinePolicyMapPressure options run keep threshold pressure) := by
  unfold quarantinePolicyMapPressure
  split
  · exact frames_pure ()
  split
  · exact frames_pure ()
  split
  · exact frames_pure ()
  · next thawed =>
    exact frames_wrapping _ (frames_replaceEndpoint fun s => admits.replace _ thawed s _ _)

/-- Mitigation and quarantine spare the frozen endpoints at any pressure. -/
theorem frames_mitigatePolicyMapPressure (admits : Admits options R) (run : Surroundings)
    (programs : List CompiledProgram) :
    Frames (OnStore R) (mitigatePolicyMapPressure options run programs) := by
  have read : Frames (OnStore R) policyMapPressure := frames_get.bind fun _ => frames_pure _
  refine read.bind fun _ => (frames_onlyIf fun _ => frames_modifyStore fun s => ?_).bind fun _ => ?_
  · refine related_deleteEndpoints (fun id => run.clock (.mitigate id)) ?_ s
    intro endpointID deleted
    have unlisted := of_decide_eq_true (mem_filter.mp deleted).2
    exact admits.delete endpointID fun frozen => unlisted (mem_append_right _ frozen)
  · refine read.bind fun pressure => frames_onlyIf fun _ => ?_
    exact frames_quarantinePolicyMapPressure admits run _ _ pressure

theorem frames_sweepPolicyEndpoints (admits : Admits options R) (run : Surroundings)
    (programs : List CompiledProgram) :
    Frames (OnStore R) (sweepPolicyEndpoints options run programs) := by
  unfold sweepPolicyEndpoints
  split
  · exact frames_pure _
  · refine (frames_checked _).bind fun _ => frames_modifyStore fun s => ?_
    exact admits.sweep _ (fun _ listed => mem_append_right _ listed) s _ _ _

/-- The relation holds whatever replaces the entries of the endpoint. -/
def ReplacedAt (R : InMemoryPolicyStore → InMemoryPolicyStore → Prop) (endpoint : Endpoint) : Prop :=
  ∀ s now entries, R s (InMemoryPolicyStore.replaceEndpoint s now
    (endpointKey endpoint.vpc endpoint.id) entries).2

theorem frames_prepareEndpoint (state : DesiredState) (run : Surroundings) (endpoint : Endpoint)
    (related : endpointKey endpoint.vpc endpoint.id ∉ options.frozenPolicyEndpoints →
      ReplacedAt R endpoint) :
    Frames (OnStore R) (prepareEndpoint state options run endpoint) := by
  refine (frames_checked _).bind fun _ => frames_checked_bind fun program compiled r => ?_
  refine leads_bind (leads_get (leads_bind (leads_set ?_)))
  have counted : OnStore R r { r with compilations := r.compilations + 1 } :=
    ⟨_, _, refl_of R r.store, rfl⟩
  refine Frames.after (Frames.bind (frames_onlyIf fun applied => ?_) fun _ => frames_pure _) counted
  refine frames_wrapping _ ((frames_checked _).bind fun entries => frames_replaceEndpoint ?_)
  rw [Policy.endpointID_of_compile compiled] at applied ⊢
  have thawed : endpointKey endpoint.vpc endpoint.id ∉ options.frozenPolicyEndpoints := by
    rw [Bool.and_eq_true] at applied
    simpa [policyEndpointFrozen] using applied.2
  exact fun s => related thawed s _ _

theorem frames_prepareEndpoints (state : DesiredState) (run : Surroundings)
    (endpoints : List Endpoint)
    (related : ∀ endpoint ∈ endpoints,
      endpointKey endpoint.vpc endpoint.id ∉ options.frozenPolicyEndpoints → ReplacedAt R endpoint) :
    Frames (OnStore R) (prepareEndpoints state options run endpoints) := by
  induction endpoints with
  | nil => exact frames_pure _
  | cons endpoint rest ih =>
    rw [forall_mem_cons] at related
    unfold prepareEndpoints
    split
    · exact ih related.2
    · refine (frames_prepareEndpoint state run endpoint related.1).bind fun _ => ?_
      exact (ih related.2).bind fun _ => frames_pure _

theorem frames_prepareReconcile (admits : Admits options R) (state : DesiredState)
    (run : Surroundings) : Frames (OnStore R) (prepareReconcile state options run) := by
  refine (frames_checked _).bind fun _ => (frames_checked _).bind fun _ => ?_
  refine (frames_prepareEndpoints state run _ fun _ _ => admits.replace _).bind fun programs => ?_
  refine (frames_checked _).bind fun _ => ?_
  refine (frames_mitigatePolicyMapPressure admits run programs).bind fun _ => ?_
  refine (frames_checked _).bind fun _ => ?_
  exact (frames_sweepPolicyEndpoints admits run programs).bind fun _ => frames_pure _

end Steps

/-! ### The programs of a run -/

variable (state : DesiredState) (options : ReconcileOptions) (run : Surroundings)
  (programs : List CompiledProgram)

/-- The endpoints of the node. -/
def localEndpoints (endpoints : List Endpoint) : List Endpoint :=
  endpoints.filter fun endpoint => endpoint.node = options.node

/-- The endpoint's program, when it is compiled in this run. -/
def compiledIn (endpoint : Endpoint) : Except String Program :=
  endpointProgram state options endpoint
    (run.clock (.compile (endpointKey endpoint.vpc endpoint.id)))

/-- The store holds entries that mean what the program's do. -/
def AppliedIn (host : Endian) (store : InMemoryPolicyStore) (program : Program) : Prop :=
  ∃ entries, encodeProgram host program = .ok entries ∧
    (store.entries program.endpointID).map PolicyMapEntry.meaning =
      entries.map PolicyMapEntry.meaning

/-- The programs of the node's endpoints, compiled one after the other. -/
structure Programs
    (start : Nat) (endpoints : List Endpoint) (programs : List CompiledProgram) : Prop where
  compiled : List.Forall₂ (fun endpoint compiled =>
    compiledIn state options run endpoint = .ok compiled.program)
    (localEndpoints options endpoints) programs
  numbered : programs.map CompiledProgram.compilation = List.range' start programs.length

variable {host : Endian} {program : Program}

theorem canonical_of_encodeProgram {entries : List PolicyMapEntry}
    (encoded : encodeProgram host program = .ok entries) :
    Dataplane.Canonical entries := by
  simp only [encodeProgram, Checked.bind_eq_ok] at encoded
  obtain ⟨_, _, canonical⟩ := encoded
  exact Dataplane.canonical_of_canonicalPolicyMapEntries canonical

theorem leads_applyEndpointProgram (host : Endian) (now : Time) (program : Program)
    (r : Reconciler) :
    Leads (applyEndpointProgram host now program) r
      (fun _ r' => AppliedIn host r'.store program ∧ r'.compilations = r.compilations)
      fun _ _ => True := by
  refine leads_checked_bind fun entries encoded => ?_
  refine leads_bind (leads_get (leads_bind (leads_set ?_)))
  split
  · next succeeded =>
    refine leads_pure ⟨⟨entries, encoded, ?_⟩, rfl⟩
    exact InMemoryPolicyStore.map_meaning_entries_replaceEndpoint
      (canonical_of_encodeProgram encoded) succeeded
  · exact leads_throw trivial

theorem leads_prepareEndpoint (endpoint : Endpoint) (r : Reconciler) :
    Leads (prepareEndpoint state options run endpoint) r
      (fun compiled r' => compiledIn state options run endpoint = .ok compiled.program ∧
        compiled.compilation = r.compilations ∧ r'.compilations = r.compilations + 1 ∧
        (options.deferPolicyApply = false →
          compiled.program.endpointID ∉ options.frozenPolicyEndpoints →
          AppliedIn run.host r'.store compiled.program))
      fun _ _ => True := by
  refine leads_checked_bind fun _ _ => leads_checked_bind fun program compiled => ?_
  refine leads_bind (leads_get (leads_bind (leads_set (leads_bind ?_))))
  refine leads_onlyIf (fun applied => leads_wrapping ?_) fun skipped => ?_
  · refine (leads_applyEndpointProgram _ _ _ _).mono (fun _ r' holds => ?_) fun _ _ _ => trivial
    exact leads_pure ⟨compiled, rfl, holds.2, fun _ _ => holds.1⟩
  · refine leads_pure ⟨compiled, rfl, rfl, fun undeferred thawed => ?_⟩
    simp [undeferred, policyEndpointFrozen, thawed] at skipped

/-- The programs that are applied in this run. -/
def Applies (compiled : CompiledProgram) : Prop :=
  options.deferPolicyApply = false ∧ compiled.program.endpointID ∉ options.frozenPolicyEndpoints

theorem AppliedIn.of_sameAt {store store' : InMemoryPolicyStore}
    (applied : AppliedIn host store program) (same : SameAt program.endpointID store store') :
    AppliedIn host store' program := by
  rw [AppliedIn, same.1]
  exact applied

/-- Programs of different endpoints do not overwrite each other, so in the end the store
holds all of them. -/
theorem leads_prepareEndpoints {endpoints : List Endpoint}
    (nodup : (endpoints.map fun endpoint => endpointKey endpoint.vpc endpoint.id).Nodup)
    (r : Reconciler) :
    Leads (prepareEndpoints state options run endpoints) r
      (fun programs r' => Programs state options run r.compilations endpoints programs ∧
        r'.compilations = r.compilations + programs.length ∧
        ∀ compiled ∈ programs, Applies options compiled →
          AppliedIn run.host r'.store compiled.program)
      fun _ _ => True := by
  induction endpoints generalizing r with
  | nil => exact leads_pure ⟨⟨.nil, rfl⟩, rfl, by simp⟩
  | cons endpoint rest ih =>
    rw [map_cons, nodup_cons] at nodup
    unfold prepareEndpoints
    split
    · next elsewhere =>
      refine (ih nodup.2 r).mono (fun programs r' holds => ⟨⟨?_, holds.1.numbered⟩, holds.2⟩)
        fun _ _ _ => trivial
      have skipped : localEndpoints options (endpoint :: rest) = localEndpoints options rest := by
        simp [localEndpoints, elsewhere]
      rw [skipped]
      exact holds.1.compiled
    · next here =>
      rw [not_not] at here
      refine (leads_prepareEndpoint state options run endpoint r).bind ?_
      rintro first r₁ ⟨compiled, number, count, applied⟩
      -- The endpoints that follow leave this one's entries alone.
      have own : first.program.endpointID = endpointKey endpoint.vpc endpoint.id :=
        Policy.endpointID_of_compile compiled
      have later : Frames (OnStore (SameAt first.program.endpointID))
          (prepareEndpoints state options run rest) := by
        refine frames_prepareEndpoints state run rest fun other listed _ s now entries => ?_
        refine s.sameAt_replaceEndpoint now entries fun same => nodup.1 ?_
        exact mem_map.mpr ⟨other, listed, (own.symm.trans same).symm⟩
      refine leads_bind (((ih nodup.2 r₁).and (later r₁)).mono ?_ fun _ _ _ => trivial)
      rintro programs _ ⟨⟨others, counted, all⟩, _, _, kept, rfl⟩
      refine leads_pure ⟨⟨?_, ?_⟩, ?_, ?_⟩
      · have taken : localEndpoints options (endpoint :: rest) =
            endpoint :: localEndpoints options rest := by
          simp [localEndpoints, here]
        rw [taken]
        exact .cons compiled others.compiled
      · rw [map_cons, length_cons, range'_succ, number, others.numbered, count]
      · rw [counted, count, length_cons]
        omega
      · rw [forall_mem_cons]
        exact ⟨fun wanted => (applied wanted.1 wanted.2).of_sameAt kept, all⟩

/-! ### A completed run -/

/-- The tracked connections after the programs were compared and the idle ones dropped. -/
def sweptConntrack (r : Reconciler) : InMemoryConntrackStore :=
  ((syncConntrackPrograms programs r).conntrack.sweepIdle
    (conntrackIdleTimeout options.conntrackIdle) (run.clock .conntrack)).2

/-- The endpoint had no signature, or still has the one it had. -/
def KeepsSignature (r : Reconciler) (endpointID : String) : Prop :=
  ∀ signature, r.conntrackSignatures.lookup endpointID = some signature →
    (desiredSignatures programs).lookup endpointID = some signature

/-- The endpoints whose connections are dropped. -/
def changedEndpoints (programs : List CompiledProgram) (r : Reconciler) : List String :=
  (r.conntrackSignatures.entries.filter fun entry =>
    (desiredSignatures programs).lookup entry.1 ≠ some entry.2).map Sigma.fst

theorem notMem_changedEndpoints {programs : List CompiledProgram} {r : Reconciler}
    {endpointID : String} :
    endpointID ∉ changedEndpoints programs r ↔ KeepsSignature programs r endpointID := by
  simp only [changedEndpoints, mem_map, mem_filter, decide_eq_true_eq, not_exists, not_and, ne_eq]
  constructor
  · intro unchanged signature held
    by_contra changed
    exact unchanged ⟨_, signature⟩ ⟨AList.mem_lookup_iff.mp held, changed⟩ rfl
  · rintro keeps ⟨endpointID, signature⟩ ⟨listed, changed⟩ rfl
    exact changed (keeps signature (AList.mem_lookup_iff.mpr listed))

theorem lookup_deleteEndpoints (endpointIDs : List String) (conntrack : InMemoryConntrackStore)
    (key : ConntrackKey) (lastSeen : Time) :
    (endpointIDs.foldl InMemoryConntrackStore.deleteEndpoint conntrack).entries.lookup key =
        some lastSeen ↔
      conntrack.entries.lookup key = some lastSeen ∧ key.endpointID ∉ endpointIDs := by
  induction endpointIDs generalizing conntrack with
  | nil => simp
  | cons endpointID rest ih =>
    rw [foldl_cons, ih, InMemoryConntrackStore.deleteEndpoint, lookup_keep,
      Option.filter_eq_some_iff, mem_cons, not_or, decide_eq_true_eq, and_assoc]

theorem conntrackIdleTimeout_pos (timeout : Int) : 0 < conntrackIdleTimeout timeout := by
  unfold conntrackIdleTimeout
  split
  · assumption
  · decide

/-- A connection survives a run exactly if its endpoint keeps its signature and it was not
idle for too long. -/
theorem lookup_sweptConntrack (options : ReconcileOptions) (run : Surroundings)
    (programs : List CompiledProgram) (r : Reconciler) (key : ConntrackKey) (lastSeen : Time) :
    (sweptConntrack options run programs r).entries.lookup key = some lastSeen ↔
      r.conntrack.entries.lookup key = some lastSeen ∧ KeepsSignature programs r key.endpointID ∧
      Dataplane.conntrackEntryExpired lastSeen (run.clock .conntrack)
        (conntrackIdleTimeout options.conntrackIdle) = false := by
  have folded : (syncConntrackPrograms programs r).conntrack =
      (changedEndpoints programs r).foldl InMemoryConntrackStore.deleteEndpoint r.conntrack := by
    rw [changedEndpoints, foldl_map]
    rfl
  rw [sweptConntrack, InMemoryConntrackStore.sweepIdle,
    if_neg (Int.not_le.mpr (conntrackIdleTimeout_pos _)), lookup_keep,
    Option.filter_eq_some_iff, folded, lookup_deleteEndpoints, notMem_changedEndpoints,
    and_assoc, Bool.not_eq_true_eq_eq_false]

def attachesTCX (options : ReconcileOptions) : Bool :=
  options.tcxInterface ≠ "" || options.tcxWorkload

/-- The outcome of attaching what the programs ask for. -/
def syncedTCX (options : ReconcileOptions) (run : Surroundings) (programs : List CompiledProgram)
    (r : Reconciler) : Attachments × TcxUpdateStats × Except String Unit :=
  syncTCXTargets run.order run.faults (tcxTargets options (tcxPrograms options programs))
    r.attachments

/-- The first part of a run. -/
structure Prepared (state : DesiredState) (options : ReconcileOptions) (run : Surroundings)
    (programs : List CompiledProgram) (r r' : Reconciler) : Prop where
  valid : validateAgentState state = .ok ()
  compiled : Programs state options run r.compilations state.endpoints programs
  compilations : r'.compilations = r.compilations + programs.length
  applied : ∀ compiled ∈ programs, Applies options compiled →
    AppliedIn run.host r'.store compiled.program

structure Completed (state : DesiredState) (options : ReconcileOptions) (run : Surroundings)
    (programs : List CompiledProgram) (r r' : Reconciler) : Prop extends
    Prepared state options run programs r r' where
  conntrack : r'.conntrack = sweptConntrack options run programs r
  conntrackSignatures : r'.conntrackSignatures = desiredSignatures programs
  attached : attachesTCX options = true → (syncedTCX options run programs r).2.2 = .ok () ∧
    r'.attachments = (syncedTCX options run programs r).1
  unattached : attachesTCX options = false → r'.attachments = r.attachments

/-- A run that failed: before the connections were looked at, or when it attached. -/
inductive Interrupted (options : ReconcileOptions) (run : Surroundings) (r r' : Reconciler) :
    Prop where
  | early (conntrack : r'.conntrack = r.conntrack)
      (conntrackSignatures : r'.conntrackSignatures = r.conntrackSignatures)
  | late (programs : List CompiledProgram)
      (conntrack : r'.conntrack = sweptConntrack options run programs r)
      (conntrackSignatures : r'.conntrackSignatures = desiredSignatures programs)

theorem nodup_of_validateAgentState {state : DesiredState}
    (valid : validateAgentState state = .ok ()) :
    (state.endpoints.map fun endpoint => endpointKey endpoint.vpc endpoint.id).Nodup := by
  simp only [validateAgentState, Checked.bind_eq_ok] at valid
  obtain ⟨_, _, _, endpoints, _⟩ := valid
  exact (of_distinct endpoints).2

section Programs

variable {state : DesiredState} {options : ReconcileOptions} {run : Surroundings} {start : Nat}
  {programs : List CompiledProgram}

/-- The programs are those of different endpoints. -/
theorem Programs.nodup (compiled : Programs state options run start state.endpoints programs)
    (valid : validateAgentState state = .ok ()) :
    (programs.map fun compiled => compiled.program.endpointID).Nodup := by
  have ids : (localEndpoints options state.endpoints).map
      (fun endpoint => endpointKey endpoint.vpc endpoint.id) =
        programs.map fun compiled => compiled.program.endpointID := by
    have related := compiled.compiled
    clear compiled
    generalize localEndpoints options state.endpoints = endpoints at related
    induction related with
    | nil => rfl
    | cons head _ ih => rw [map_cons, map_cons, ih, Policy.endpointID_of_compile head]
  rw [← ids]
  exact (filter_sublist.map _).nodup (nodup_of_validateAgentState valid)

/-- Every endpoint of the node has a program, whose signature is recorded. -/
theorem Programs.signed (compiled : Programs state options run start state.endpoints programs)
    (valid : validateAgentState state = .ok ()) (endpoint : Endpoint)
    (here : endpoint ∈ localEndpoints options state.endpoints) :
    ∃ own ∈ programs, compiledIn state options run endpoint = .ok own.program ∧
      (desiredSignatures programs).lookup (endpointKey endpoint.vpc endpoint.id) =
        some (conntrackSignature own) := by
  obtain ⟨own, listed, compiles⟩ : ∃ own ∈ programs,
      compiledIn state options run endpoint = .ok own.program := by
    have related := compiled.compiled
    clear compiled
    generalize localEndpoints options state.endpoints = endpoints at related here
    induction related with
    | nil => cases here
    | @cons _ own _ _ head _ ih =>
      grind
  refine ⟨own, listed, compiles, (lookup_insertAll _ _ (compiled.nodup valid) _ _).mpr ?_⟩
  exact ⟨own, listed, Policy.endpointID_of_compile compiles, rfl⟩

end Programs

variable (state : DesiredState) (options : ReconcileOptions) (run : Surroundings)
  {compiled : CompiledProgram}

theorem mem_policyEndpointKeepSet {programs : List CompiledProgram} (listed : compiled ∈ programs)
    (frozen : List String) :
    compiled.program.endpointID ∈ policyEndpointKeepSet programs frozen :=
  mem_append_left _ (mem_map_of_mem listed)

/-- A sweep leaves the programs that were just applied. -/
theorem leads_sweepPolicyEndpoints (programs : List CompiledProgram) (r : Reconciler) :
    Leads (sweepPolicyEndpoints options run programs) r
      (fun _ r' => r'.compilations = r.compilations ∧
        ∀ compiled ∈ programs, SameAt compiled.program.endpointID r.store r'.store)
      fun _ _ => True := by
  unfold sweepPolicyEndpoints
  split
  · exact leads_pure ⟨rfl, fun _ _ => ⟨rfl, rfl⟩⟩
  · refine leads_checked_bind fun _ _ => leads_modify ⟨rfl, fun compiled listed => ?_⟩
    exact r.store.sameAt_sweepPolicyEndpoints _ _ _ (mem_policyEndpointKeepSet listed _)

theorem leads_prepareReconcile (r : Reconciler) :
    Leads (prepareReconcile state options run) r
      (fun result r' => result.1 = tcxTargets options (tcxPrograms options result.2) ∧
        Prepared state options run result.2 r r') fun _ _ => True := by
  refine leads_checked_bind fun _ _ => leads_checked_bind fun _ valid => ?_
  refine (leads_prepareEndpoints state options run (nodup_of_validateAgentState valid) r).bind ?_
  rintro programs r₁ ⟨compiled, count, applied⟩
  refine leads_checked_bind fun _ _ => ?_
  refine leads_bind ((leads_mitigatePolicyMapPressure options run programs r₁).mono ?_
    fun _ _ _ => trivial)
  rintro _ r₁ rfl
  refine leads_checked_bind fun _ _ => ?_
  refine (leads_sweepPolicyEndpoints options run programs r₁).bind ?_
  rintro _ r₂ ⟨counted, kept⟩
  refine leads_pure ⟨rfl, valid, compiled, counted.trans count, fun other listed wanted => ?_⟩
  exact (applied other listed wanted).of_sameAt (kept other listed)

/-- The store after stale endpoints were deleted still has the programs. -/
theorem sameAt_syncPolicyStore {programs : List CompiledProgram} (listed : compiled ∈ programs)
    (r : Reconciler) :
    SameAt compiled.program.endpointID r.store (syncPolicyStore options run programs r).store := by
  refine related_deleteEndpoints (fun id => run.clock (.delete id)) ?_ r.store
  intro endpointID stale s now
  have unlisted := of_decide_eq_true (mem_filter.mp stale).2
  exact s.sameAt_deleteEndpoint now fun same => unlisted (same ▸ mem_policyEndpointKeepSet listed _)

instance : IsPreorder InMemoryPolicyStore fun _ _ => True where
  refl _ := trivial
  trans _ _ _ _ _ := trivial

theorem leads_attachTCX (targets : List TcxTarget) (r : Reconciler) :
    Leads (attachTCX options run targets) r
      (fun _ r' => (syncTCXTargets run.order run.faults targets r.attachments).2.2 = .ok () ∧
        r' = { r with
          attachments := (syncTCXTargets run.order run.faults targets r.attachments).1 })
      fun _ r' => r'.conntrack = r.conntrack ∧ r'.conntrackSignatures = r.conntrackSignatures := by
  refine leads_bind (leads_get (leads_bind (leads_set (leads_checked (fun _ outcome => ?_)
    fun _ _ => ⟨rfl, rfl⟩))))
  cases synced : (syncTCXTargets run.order run.faults targets r.attachments).2.2 with
  | ok _ => exact ⟨rfl, rfl⟩
  | error err =>
    rw [synced] at outcome
    cases outcome

theorem leads_reconcile (r : Reconciler) :
    Leads (reconcile state options run) r
      (fun _ r' => ∃ programs, Completed state options run programs r r')
      fun _ r' => Interrupted options run r r' := by
  have admits : Admits options fun _ _ => True := ⟨by simp, by simp, by simp⟩
  refine leads_bind (((leads_prepareReconcile state options run r).and
    (frames_prepareReconcile admits state run r)).mono ?_
    fun _ _ ⟨_, _, _, _, same⟩ => by rw [same]; exact .early rfl rfl)
  rintro ⟨targets, programs⟩ _ ⟨⟨planned, prepared⟩, store, compilations, _, rfl⟩
  dsimp only at planned prepared
  subst planned
  refine leads_bind (leads_modify (leads_bind
    ((leads_mitigatePolicyMapPressure options run programs _).mono ?_ fun _ _ never => never.elim)))
  rintro _ r₂ rfl
  refine leads_bind (leads_checked (fun _ _ => ?_) fun _ _ => .early rfl rfl)
  refine leads_bind (leads_modify (leads_bind (leads_modify ?_)))
  have applied : ∀ compiled ∈ programs, Applies options compiled → AppliedIn run.host
      (syncPolicyStore options run programs { r with store, compilations }).store
        compiled.program := by
    intro compiled listed wanted
    exact (prepared.applied compiled listed wanted).of_sameAt
      (sameAt_syncPolicyStore options run listed _)
  refine leads_onlyIf (fun wanted => ?_) fun unwanted => ?_
  · refine (leads_attachTCX options run _ _).mono (fun _ r' attached => ⟨programs, ?_⟩)
      fun _ r' kept => .late programs kept.1 kept.2
    obtain ⟨outcome, rfl⟩ := attached
    refine ⟨⟨prepared.valid, prepared.compiled, prepared.compilations, applied⟩, rfl, rfl,
      fun _ => ⟨outcome, rfl⟩, fun unwanted => ?_⟩
    exact absurd (unwanted.symm.trans wanted) Bool.false_ne_true
  · refine ⟨programs, ⟨prepared.valid, prepared.compiled, prepared.compilations, applied⟩, rfl,
      rfl, fun wanted => ?_, fun _ => rfl⟩
    exact absurd (unwanted.symm.trans wanted) Bool.false_ne_true

end Netloom.Agent
