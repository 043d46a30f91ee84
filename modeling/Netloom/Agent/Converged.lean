import Netloom.Agent.Reconciled

/-!
# What a completed run leaves

A run of the agent that returns leaves policy, connections and attachments as its state asks,
whatever was there before: the runs before it may have failed anywhere.
-/
namespace Netloom.Agent

open Control (DesiredState)
open Dataplane List

/-- Counters and rule references play no part in what is allowed. -/
theorem evaluate_map_meaning (host : Endian) (entries : List PolicyMapEntry) (packet : Packet) :
    (evaluate host (entries.map PolicyMapEntry.meaning) packet).verdict = .allow ↔
      (evaluate host entries packet).verdict = .allow := by
  have same : ∀ entry : PolicyMapEntry,
      entryMatches host entry.meaning packet = entryMatches host entry packet ∧
      entryVerdict entry.meaning.value = entryVerdict entry.value ∧
      entryPriority entry.meaning.value = entryPriority entry.value := fun _ => ⟨rfl, rfl, rfl⟩
  simp [evaluate_allow_iff, same]

/-- What a run leaves that has compiled these programs for the endpoints of the node. -/
structure Leaves (state : DesiredState) (options : ReconcileOptions) (run : Surroundings)
    (programs : List CompiledProgram) (r r' : Reconciler) : Prop where
  compiled : Forall₂ (fun endpoint compiled =>
      compiledIn state options run endpoint = .ok compiled.program)
    (localEndpoints options state.endpoints) programs
  /-- The store allows what the programs allow, but for endpoints that are frozen or deferred. -/
  policy : ∀ compiled ∈ programs, Applies options compiled → ∃ entries,
    encodeProgram run.host compiled.program = .ok entries ∧ ∀ packet,
      (evaluate run.host (r'.store.entries compiled.program.endpointID) packet).verdict = .allow ↔
        (evaluate run.host entries packet).verdict = .allow
  /-- A connection is left if its endpoint keeps its signature and it is in use. -/
  connections : ∀ key lastSeen, r'.conntrack.entries.lookup key = some lastSeen ↔
    r.conntrack.entries.lookup key = some lastSeen ∧ KeepsSignature programs r key.endpointID ∧
    conntrackEntryExpired lastSeen (run.clock .conntrack)
      (conntrackIdleTimeout options.conntrackIdle) = false
  /-- The recorded handles are those of the targets. -/
  attachments : attachesTCX options → ∀ key,
    (r'.attachments.recorded.lookup key).map Handle.signature =
      ((desiredTargets (tcxTargets options (tcxPrograms options programs))).lookup key).map
        tcxTargetSignature

variable {state : DesiredState} {options : ReconcileOptions} {run : Surroundings} {r r' : Reconciler}

/-- A run that returns has compiled every endpoint of the node and leaves what they ask for. -/
theorem reconcile_converges (ran : reconcile state options run r = .ok () r') :
    ∃ programs, Leaves state options run programs r r' := by
  obtain ⟨programs, completed⟩ := (leads_reconcile state options run r).of_ok ran
  refine ⟨programs, completed.compiled.compiled, ?policy, ?connections, ?attachments⟩
  case policy =>
    intro compiled listed applies
    obtain ⟨entries, encoded, same⟩ := completed.applied compiled listed applies
    refine ⟨entries, encoded, fun packet => ?_⟩
    rw [← evaluate_map_meaning, same, evaluate_map_meaning]
  case connections =>
    intro key lastSeen
    rw [completed.conntrack, lookup_sweptConntrack]
  case attachments =>
    intro attaches key
    obtain ⟨succeeded, attachments⟩ := completed.attached attaches
    rw [attachments]
    exact signature_syncTCXTargets succeeded key

/-- The program of the workload is applied, and it is attached. -/
theorem reconcile_converges_workload : ∃ r' : Reconciler,
    reconcile (workloadState [ingressRule "no-tcp" .tcp .drop]) onNode (calm 1) (.new .new) =
      .ok () r' ∧
    attachesTCX onNode ∧ ∃ programs, programs.length = 1 ∧
      (∀ compiled ∈ programs, Applies onNode compiled) ∧
      Leaves (workloadState [ingressRule "no-tcp" .tcp .drop]) onNode (calm 1) programs
        (.new .new) r' := by
  refine ⟨_, rfl, rfl, ?_⟩
  obtain ⟨programs, leaves⟩ := reconcile_converges
    (show reconcile (workloadState [ingressRule "no-tcp" .tcp .drop]) onNode (calm 1) (.new .new) =
      .ok () _ from rfl)
  exact ⟨programs, leaves.compiled.length_eq.symm, fun _ _ => ⟨rfl, not_mem_nil⟩, leaves⟩

/-! ### Attaching again -/

/-- Once targets are attached, asking for the same targets attaches nothing, in whatever order
the maps are walked and whatever fails. -/
theorem syncTCXTargets_again {order : MapOrder} {faults : AttachFaults} {targets : List TcxTarget}
    {s : Attachments} (succeeded : (syncTCXTargets order faults targets s).2.2 = .ok ())
    (order' : MapOrder) (faults' : AttachFaults) :
    (syncTCXTargets order' faults' targets (syncTCXTargets order faults targets s).1).1.fresh =
      (syncTCXTargets order faults targets s).1.fresh := by
  refine fresh_syncTCXTargets fun key target wanted => ?_
  rw [signature_syncTCXTargets succeeded key, wanted, Option.map_some]

theorem syncTCXTargets_again_drop :
    (syncTCXTargets inOrder noFaults [workloadTarget [dropRule]] .new).2.2 = .ok () ∧
    (syncTCXTargets inOrder noFaults [workloadTarget [dropRule]]
      (syncTCXTargets inOrder noFaults [workloadTarget [dropRule]] .new).1).1.fresh = 1 :=
  ⟨rfl, (syncTCXTargets_again rfl inOrder noFaults).trans rfl⟩

end Netloom.Agent
