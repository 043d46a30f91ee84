import Netloom.Agent.Reconciled

/-!
# Frozen endpoints

The policy of a frozen endpoint is left as it is. A run changes the policy store where it
applies a program, deletes what is stale, sweeps, and mitigates the pressure of the maps.
Each of these makes its own list of what to spare.
-/
namespace Netloom.Agent

open Dataplane (InMemoryPolicyStore)
open Dataplane.InMemoryPolicyStore (SameAt)
open Control (DesiredState)
open Stateful List

/-! ### The policy of a frozen endpoint -/

variable {options : ReconcileOptions} {endpointID : String}

/-- A change at another endpoint, or one that spares this endpoint, leaves it as it is. -/
theorem admits_sameAt (frozen : endpointID ∈ options.frozenPolicyEndpoints) :
    Admits options (SameAt endpointID) where
  replace other thawed s now entries := by
    have differ : endpointID ≠ other := fun same => thawed (same ▸ frozen)
    exact s.sameAt_replaceEndpoint now entries differ
  delete other thawed s now := by
    have differ : endpointID ≠ other := fun same => thawed (same ▸ frozen)
    exact s.sameAt_deleteEndpoint now differ
  sweep keep kept s maxIdle now visited :=
    s.sameAt_sweepPolicyEndpoints maxIdle now visited (kept endpointID frozen)

/-- The relation between the stores of two reconcilers. -/
def StoreRelated (R : InMemoryPolicyStore → InMemoryPolicyStore → Prop) (r r' : Reconciler) :
    Prop := R r.store r'.store

instance {R : InMemoryPolicyStore → InMemoryPolicyStore → Prop} [IsPreorder _ R] :
    IsPreorder Reconciler (StoreRelated R) where
  refl r := refl_of R r.store
  trans _ _ _ := trans_of R

theorem frames_reconcile {R : InMemoryPolicyStore → InMemoryPolicyStore → Prop} [IsPreorder _ R]
    (admits : Admits options R) (state : DesiredState) (run : Surroundings) :
    Frames (StoreRelated R) (reconcile state options run) := by
  have stale : ∀ programs, Frames (StoreRelated R)
      (modify (syncPolicyStore options run programs) : Reconciling Unit) := by
    refine fun programs => frames_modify fun r => ?_
    refine related_deleteEndpoints (fun id => run.clock (.delete id)) ?_ r.store
    intro endpointID stale
    have unlisted := of_decide_eq_true (mem_filter.mp stale).2
    exact admits.delete endpointID fun frozen => unlisted (mem_append_right _ frozen)
  have elsewhere : ∀ change : Reconciler → Reconciler, (∀ r, (change r).store = r.store) →
      Frames (StoreRelated R) (modify change : Reconciling Unit) := by
    refine fun change same => frames_modify fun r => ?_
    rw [StoreRelated, same r]
    exact refl_of R r.store
  have attached : ∀ targets, Frames (StoreRelated R) (attachTCX options run targets) :=
    fun targets r => leads_bind (leads_get (leads_bind (leads_set
      ((frames_checked _).after (refl_of R r.store)))))
  have kept : ∀ r r', OnStore R r r' → StoreRelated R r r' := by
    rintro r _ ⟨_, _, related, rfl⟩
    exact related
  refine ((frames_prepareReconcile admits state run).weaken kept).bind ?_
  rintro ⟨targets, programs⟩
  refine (stale programs).bind fun _ => Frames.bind ?_ fun _ => ?_
  · exact (frames_mitigatePolicyMapPressure admits run programs).weaken kept
  refine (frames_checked _).bind fun _ => ?_
  refine Frames.bind (elsewhere _ ?_) fun _ => Frames.bind (elsewhere _ ?_) fun _ => ?_
  · exact fun r => rfl
  · exact fun r => rfl
  · exact frames_onlyIf fun _ => attached targets

/-- Whether the run succeeds or fails anywhere, and whether or not the endpoint is part of
the desired state, its stored entries and its revision are what they were. -/
theorem frozen_policy_kept (state : DesiredState) (options : ReconcileOptions)
    (run : Surroundings) (r : Reconciler) :
    ∀ endpointID ∈ options.frozenPolicyEndpoints,
      (r.reconciled state options run).store.entries endpointID = r.store.entries endpointID ∧
      (r.reconciled state options run).store.revision endpointID = r.store.revision endpointID := by
  intro endpointID frozen
  have framed := frames_reconcile (admits_sameAt frozen) state run r
  unfold Reconciler.reconciled
  split
  · next returned => exact framed.of_ok returned
  · next failed => exact framed.of_error failed

/-- The workload with its entries, after a first run. -/
def reconciledWorkload : Reconciler :=
  (Reconciler.new .new).reconciled (workloadState [ingressRule "no-tcp" .tcp .drop]) onNode (calm 1)

/-- The workload is frozen and gone from the desired state, and the run sweeps. -/
theorem frozen_policy_kept_when_gone :
    let options := { onNode with frozenPolicyEndpoints := [workloadKey], policyGCMaxIdle := 1 }
    workloadKey ∈ options.frozenPolicyEndpoints ∧
      ((reconciledWorkload.reconciled {} options (calm 10)).store.entries workloadKey =
          reconciledWorkload.store.entries workloadKey ∧
        (reconciledWorkload.reconciled {} options (calm 10)).store.revision workloadKey =
          reconciledWorkload.store.revision workloadKey) ∧
      reconciledWorkload.store.entries workloadKey ≠ [] := by
  intro options
  have listed : workloadKey ∈ options.frozenPolicyEndpoints := mem_singleton_self _
  exact ⟨listed, frozen_policy_kept _ _ _ _ _ listed, by decide +kernel⟩

/-! ### The attachments of a frozen endpoint -/

/-- The handle was attached for a program of the endpoint. -/
def Handle.Enforces (handle : Handle) (endpointID : String) : Prop :=
  ∃ text ∈ handle.signature.programs, text.endpointID = endpointID

/-- All runs succeed and lead from the first state to the last. -/
def Succeeds : Reconciler → List ReconcileCall → Reconciler → Prop
  | r, [], r' => r' = r
  | r, call :: rest, r' => ∃ next,
      reconcile call.state call.options call.run r = .ok () next ∧ Succeeds next rest r'

variable {programs : List CompiledProgram}

theorem endpointID_of_mem_tcxTargets (workload : options.tcxWorkload) {target : TcxTarget}
    (wanted : target ∈ tcxTargets options programs) {compiled : CompiledProgram}
    (attached : compiled ∈ target.programs) : compiled ∈ programs := by
  rw [tcxTargets, if_pos workload, mem_flatMap] at wanted
  obtain ⟨program, listed, own⟩ := wanted
  have single : target.programs = [program] := by
    rw [workloadTargets, mem_append] at own
    rcases own with ingress | egress
    · split at ingress <;> simp_all
    · split at egress <;> simp_all
  rw [single, mem_singleton] at attached
  exact attached ▸ listed

/-- What a successful run leaves attached belongs to endpoints that are not frozen. -/
theorem not_enforces_of_completed {state : DesiredState} {run : Surroundings} {r r' : Reconciler}
    (completed : Completed state options run programs r r') (workload : options.tcxWorkload)
    (frozen : endpointID ∈ options.frozenPolicyEndpoints) {key : String} {handle : Handle}
    (held : r'.attachments.recorded.lookup key = some handle) :
    ¬ handle.Enforces endpointID := by
  have requested : attachesTCX options := by simp [attachesTCX, workload]
  obtain ⟨succeeded, books⟩ := completed.attached requested
  have reads := signature_syncTCXTargets succeeded key
  rw [syncedTCX] at books
  rw [← books, held] at reads
  -- The handle reads as a wanted target, whose programs are those of thawed endpoints.
  obtain ⟨target, wanted, same⟩ := Option.map_eq_some_iff.mp reads.symm
  obtain ⟨_, listed, _, rfl⟩ := Fold.of_lookup_insertAll _ _ wanted
  rintro ⟨text, printed, named⟩
  rw [← same] at printed
  obtain ⟨compiled, attached, rfl⟩ := mem_map.mp printed
  change compiled.program.endpointID = endpointID at named
  have chosen := endpointID_of_mem_tcxTargets workload listed attached
  have thawed := (Bool.and_eq_true_iff.mp (mem_filter.mp chosen).2).1
  have isFrozen : policyEndpointFrozen options compiled.program.endpointID :=
    decide_eq_true (named ▸ frozen)
  rw [isFrozen] at thawed
  cases thawed

/-- Runs that all succeed and attach to workloads forget, of every frozen endpoint, all
handles that were recorded before, already with the first of them. -/
theorem frozen_attachments_forgotten {r r' : Reconciler} {calls : List ReconcileCall}
    (succeeded : Succeeds r calls r') (run : calls ≠ []) {endpointID : String}
    (frozen : ∀ call ∈ calls, call.options.tcxWorkload = true ∧
      endpointID ∈ call.options.frozenPolicyEndpoints) :
    ∀ key handle, r.attachments.recorded.lookup key = some handle → handle.Enforces endpointID →
      ∀ key', r'.attachments.recorded.lookup key' ≠ some handle := by
  rintro key handle - enforces key' held
  induction calls generalizing r with
  | nil => exact run rfl
  | cons call rest ih =>
    obtain ⟨next, returned, later⟩ := succeeded
    rw [forall_mem_cons] at frozen
    cases rest with
    | nil =>
      obtain rfl : r' = next := later
      obtain ⟨programs, completed⟩ :=
        (leads_reconcile call.state call.options call.run r).of_ok returned
      exact not_enforces_of_completed completed frozen.1.1 frozen.1.2 held enforces
    | cons second others => exact ih later (by simp) frozen.2

/-- The second run differs from the first only in that the workload is frozen. -/
theorem frozen_workload_detached : ∃ first second key handle,
    reconcile (workloadState [ingressRule "no-tcp" .tcp .drop]) onNode (calm 1) (.new .new) =
      .ok () first ∧
    first.attachments.recorded.lookup key = some handle ∧ handle.id ∈ first.attachments.opened ∧
    reconcile (workloadState [ingressRule "no-tcp" .tcp .drop])
      { onNode with frozenPolicyEndpoints := [workloadKey] } (calm 2) first = .ok () second ∧
    second.attachments.recorded.lookup key = none ∧ handle.id ∉ second.attachments.opened := by
  refine ⟨_, _, "nlhb871cba/47/ingress", _, rfl, rfl, ?_, rfl, ?_, ?_⟩ <;> decide +kernel

def frozenCall : ReconcileCall where
  state := workloadState [ingressRule "no-tcp" .tcp .drop]
  options := { onNode with frozenPolicyEndpoints := [workloadKey] }
  run := calm 2

/-- The handle of the workload and what becomes of it. -/
theorem frozen_workload_forgotten : ∃ second key handle,
    reconciledWorkload.attachments.recorded.lookup key = some handle ∧
    handle.Enforces workloadKey ∧ Succeeds reconciledWorkload [frozenCall] second ∧
    ∀ key', second.attachments.recorded.lookup key' ≠ some handle := by
  have before : ∃ key handle,
      reconciledWorkload.attachments.recorded.lookup key = some handle ∧
      handle.Enforces workloadKey :=
    ⟨"nlhb871cba/47/ingress", _, rfl, _, mem_singleton_self _, rfl⟩
  have after : ∃ second, Succeeds reconciledWorkload [frozenCall] second := ⟨_, _, rfl, rfl⟩
  obtain ⟨key, handle, held, enforces⟩ := before
  obtain ⟨second, succeeded⟩ := after
  have frozen : ∀ call ∈ [frozenCall], call.options.tcxWorkload ∧
      workloadKey ∈ call.options.frozenPolicyEndpoints := by
    intro call listed
    rw [mem_singleton.mp listed]
    exact ⟨rfl, mem_singleton_self _⟩
  exact ⟨second, key, handle, held, enforces, succeeded, frozen_attachments_forgotten succeeded
    (cons_ne_nil _ _) frozen key handle held enforces⟩

end Netloom.Agent
