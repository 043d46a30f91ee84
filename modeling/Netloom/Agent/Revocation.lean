import Netloom.Agent.Reconciled

/-!
# Connections and the policy they were allowed by

A connection is added to the table while the policy store holds some entries for
its endpoint. When the entries change, the connections they allowed are to go. The
reconciler does not look at the entries: it compares the text of the program it
compiled last with the one it compiled before.
-/
namespace Netloom.Agent

open List
open Model (Time Endpoint endpointKey)
open Policy (Program)
open Dataplane (InMemoryPolicyStore InMemoryConntrackStore ConntrackKey PolicyMapEntry Packet
  encodeProgram evaluate evaluateStateful reverseConntrackKey)
open Control (DesiredState)

/-! ### Runs and evaluations -/

/-- A connection in the table, and the entries that were stored for its endpoint when an
evaluation added it. -/
structure AddedUnder where
  key : ConntrackKey
  entries : List PolicyMapEntry

/-- The reconciler, and under which entries the connections were added that it tracks. -/
structure Tracking where
  reconciler : Reconciler
  added : List AddedUnder

def Tracking.new (store : InMemoryPolicyStore) : Tracking := ⟨.new store, []⟩

inductive AgentStep where
  | reconcile (call : ReconcileCall)
  | evaluate (endpointID : String) (packet : Packet) (searched added : Time)

/-- The connections that are still in the table. -/
def stillTracked (r : Reconciler) (added : List AddedUnder) : List AddedUnder :=
  added.filter fun connection => connection.key ∈ r.conntrack.entries

def Surroundings.on (run : Surroundings) (host : Endian) : Surroundings := { run with host }

/-- A run, or an evaluation on the stored entries, on a host with the byte order `host`. -/
def Tracking.step (host : Endian) (t : Tracking) : AgentStep → Tracking
  | .reconcile call =>
    let r := t.reconciler.reconciled call.state call.options (call.run.on host)
    ⟨r, stillTracked r t.added⟩
  | .evaluate endpointID packet searched added =>
    let entries := t.reconciler.store.entries endpointID
    let outcome := evaluateStateful host endpointID entries packet searched added
      t.reconciler.conntrack
    let r := { t.reconciler with conntrack := outcome.2 }
    let new := if outcome.1.established then [⟨reverseConntrackKey endpointID packet, entries⟩]
      else []
    ⟨r, stillTracked r (new ++ t.added)⟩

/-- For every endpoint of the node that is not frozen, all connections in the table were
added under entries that mean what those of its program do. -/
def Revoked (host : Endian) (call : ReconcileCall) (t : Tracking) : Prop :=
  ∀ endpoint ∈ localEndpoints call.options call.state.endpoints,
    endpointKey endpoint.vpc endpoint.id ∉ call.options.frozenPolicyEndpoints →
    ∀ program entries, compiledIn call.state call.options (call.run.on host) endpoint =
      .ok program → encodeProgram host program = .ok entries →
    ∀ connection ∈ t.added, connection.key.endpointID = endpointKey endpoint.vpc endpoint.id →
      connection.entries.map PolicyMapEntry.meaning = entries.map PolicyMapEntry.meaning

/-! ### Signatures that describe entries -/

/-- The endpoint has a signature, and the entries mean what the map entries in it do. -/
def Describes (host : Endian) (r : Reconciler) (endpointID : String)
    (entries : List PolicyMapEntry) : Prop :=
  ∃ signature program encoded, r.conntrackSignatures.lookup endpointID = some signature ∧
    program.mapEntries = signature.mapEntries ∧ encodeProgram host program = .ok encoded ∧
    entries.map PolicyMapEntry.meaning = encoded.map PolicyMapEntry.meaning

variable {host : Endian}

theorem encodeProgram_congr {program program' : Program}
    (same : program.mapEntries = program'.mapEntries) :
    encodeProgram host program = encodeProgram host program' := by
  rw [encodeProgram, encodeProgram, same]

/-- After a run that returned, the entries of every endpoint that it applied are described. -/
theorem describes_of_completed {state : DesiredState} {options : ReconcileOptions}
    {run : Surroundings} {programs : List CompiledProgram} {r r' : Reconciler}
    (completed : Completed state options run programs r r') {endpoint : Endpoint}
    (here : endpoint ∈ localEndpoints options state.endpoints)
    (undeferred : options.deferPolicyApply = false)
    (thawed : endpointKey endpoint.vpc endpoint.id ∉ options.frozenPolicyEndpoints) :
    Describes run.host r' (endpointKey endpoint.vpc endpoint.id)
      (r'.store.entries (endpointKey endpoint.vpc endpoint.id)) := by
  obtain ⟨own, listed, compiles, signed⟩ := completed.compiled.signed completed.valid endpoint here
  have named := Policy.endpointID_of_compile compiles
  rw [← named] at thawed signed ⊢
  obtain ⟨entries, encoded, same⟩ := completed.applied own listed ⟨undeferred, thawed⟩
  rw [← completed.conntrackSignatures] at signed
  exact ⟨_, own.program, entries, signed, rfl, encoded, same⟩

/-- Where an evaluation adds a connection, the stored entries are described. -/
def Covered (host : Endian) (t : Tracking) : AgentStep → Prop
  | .reconcile _ => True
  | .evaluate endpointID packet _ _ =>
    let entries := t.reconciler.store.entries endpointID
    (evaluate host entries packet).verdict = .allow →
      (∃ entry, (evaluate host entries packet).matched = some entry ∧ entry.value.stateful ≠ 0) →
      Describes host t.reconciler endpointID entries

/-- Every connection was added under entries that its endpoint's signature describes. -/
def AllDescribed (host : Endian) (t : Tracking) : Prop :=
  ∀ connection ∈ t.added, Describes host t.reconciler connection.key.endpointID connection.entries

variable {r : Reconciler}

theorem mem_stillTracked {added : List AddedUnder} {connection : AddedUnder} :
    connection ∈ stillTracked r added ↔
      connection ∈ added ∧ ∃ lastSeen, r.conntrack.entries.lookup connection.key = some lastSeen := by
  rw [stillTracked, mem_filter, decide_eq_true_eq, ← AList.lookup_isSome, Option.isSome_iff_exists]

variable {t : Tracking}

section

variable (described : AllDescribed host t)

include described

/-- Where the signatures are brought up to date, a connection that stays has an endpoint
whose signature stays. -/
theorem allDescribed_of_swept {options : ReconcileOptions} {run : Surroundings}
    {programs : List CompiledProgram}
    (conntrack : r.conntrack = sweptConntrack options run programs t.reconciler)
    (signatures : r.conntrackSignatures = desiredSignatures programs) :
    AllDescribed host ⟨r, stillTracked r t.added⟩ := by
  intro connection kept
  obtain ⟨before, lastSeen, held⟩ := mem_stillTracked.mp kept
  obtain ⟨signature, program, encoded, signed, rest⟩ := described connection before
  rw [conntrack, lookup_sweptConntrack] at held
  refine ⟨signature, program, encoded, ?_, rest⟩
  rw [signatures]
  exact held.2.1 signature signed

theorem allDescribed_reconcile (call : ReconcileCall) :
    AllDescribed host (t.step host (.reconcile call)) := by
  have leads := leads_reconcile call.state call.options (call.run.on host) t.reconciler
  unfold Tracking.step Reconciler.reconciled
  dsimp only
  split
  · next returned =>
    obtain ⟨programs, completed⟩ := leads.of_ok returned
    exact allDescribed_of_swept described completed.conntrack completed.conntrackSignatures
  · next failed =>
    cases leads.of_error failed with
    | early conntrack signatures =>
      intro connection kept
      have before := (mem_stillTracked.mp kept).1
      have still := described connection before
      rwa [Describes, ← signatures] at still
    | late programs conntrack signatures =>
      exact allDescribed_of_swept described conntrack signatures

variable {endpointID : String} {packet : Packet} {searched added : Time}

omit described in
theorem allowed_of_established {entries : List PolicyMapEntry} {s : InMemoryConntrackStore}
    (established : (evaluateStateful host endpointID entries packet searched added s).1.established =
      true) :
    (evaluate host entries packet).verdict = .allow ∧
      ∃ entry, (evaluate host entries packet).matched = some entry ∧ entry.value.stateful ≠ 0 := by
  have cases := Dataplane.evaluated_evaluateStateful host endpointID entries packet searched added s
  have plainly := (Dataplane.evaluate_flags host entries packet).2
  generalize evaluateStateful host endpointID entries packet searched added s = outcome
    at cases established
  cases cases with
  | blocked _ => exact absurd (plainly.symm.trans established) (by simp)
  | found _ _ _ => cases established
  | established _ _ _ entry matched allows stateful => exact ⟨allows, entry, matched, stateful⟩
  | plain _ _ => exact absurd (plainly.symm.trans established) (by simp)

theorem allDescribed_evaluate
    (covered : Covered host t (.evaluate endpointID packet searched added)) :
    AllDescribed host (t.step host (.evaluate endpointID packet searched added)) := by
  intro connection kept
  obtain ⟨listed, -⟩ := mem_stillTracked.mp kept
  rcases mem_append.mp listed with new | old
  · split at new
    · next established =>
      obtain rfl := mem_singleton.mp new
      obtain ⟨allows, stateful⟩ := allowed_of_established established
      exact covered allows stateful
    · cases new
  · exact described connection old

/-! ### Revocation -/

/-- A successful run on connections that are described. -/
theorem revoked_of_allDescribed {call : ReconcileCall}
    (succeeded : reconcile call.state call.options (call.run.on host) t.reconciler = .ok () r) :
    Revoked host call (t.step host (.reconcile call)) := by
  obtain ⟨programs, completed⟩ :=
    (leads_reconcile call.state call.options (call.run.on host) t.reconciler).of_ok succeeded
  intro endpoint here _ program entries compiles encoded connection tracked endpointID
  have still := allDescribed_reconcile described call connection tracked
  have reached : t.reconciler.reconciled call.state call.options (call.run.on host) = r := by
    rw [Reconciler.reconciled, succeeded]
  obtain ⟨own, -, ownCompiles, signed⟩ := completed.compiled.signed completed.valid endpoint here
  obtain ⟨signature, other, encodedOther, found, mapEntries, encodes, same⟩ := still
  change (t.reconciler.reconciled call.state call.options
    (call.run.on host)).conntrackSignatures.lookup _ = _ at found
  -- The signature that describes the connection is the one of the program just compiled.
  rw [reached, completed.conntrackSignatures, endpointID, signed, Option.some.injEq] at found
  obtain rfl := Except.ok.inj (compiles.symm.trans ownCompiles)
  have agree : encodeProgram host other = encodeProgram host own.program :=
    encodeProgram_congr (by rw [mapEntries, ← found]; rfl)
  rw [agree, encoded, Except.ok.injEq] at encodes
  rw [same, encodes]

end

/-- Runs may fail anywhere. As long as connections are only added under entries that the
signature of their endpoint describes, every successful run leaves, for the endpoints it
did not find frozen, only connections that were added under what its programs mean. -/
theorem connections_revoked (host : Endian) (store : InMemoryPolicyStore) (steps : List AgentStep)
    (covered : Runs.EachCall (Tracking.step host) (Covered host) (.new store) steps) :
    ∀ before call after r, steps = before ++ .reconcile call :: after →
      reconcile call.state call.options (call.run.on host)
        (Runs.after (Tracking.step host) (.new store) before).reconciler = .ok () r →
      Revoked host call
        (Runs.after (Tracking.step host) (.new store) (before ++ [.reconcile call])) := by
  intro before call after r split succeeded
  have all : Runs.Throughout (Tracking.step host) (AllDescribed host) (.new store) steps := by
    refine Runs.throughout_of_eachCall (fun t step described met => ?_) ?_ covered
    · cases step with
      | reconcile call => exact allDescribed_reconcile described call
      | evaluate endpointID packet searched added => exact allDescribed_evaluate described met
    · intro connection tracked
      cases tracked
  rw [Runs.after_append]
  exact revoked_of_allDescribed (all before _ split) succeeded

/-! ### A connection that stays -/

/-- The workload accepts one protocol, and its connections are tracked. -/
def accepting (protocol : Model.Protocol) (now : Time) : ReconcileCall where
  state := workloadState [{ ingressRule "accept" protocol .allow with stateful := true }]
  options := onNode
  run := calm now

def incoming (protocol : BitVec 8) : Packet where
  sourcePort := 40000
  remoteIP := .v4 0x0a000009
  direction := Dataplane.directionIngress
  protocol
  destPort := 53
  bytes := 60

/-- A run applies another program and fails, a connection is added, and the next run is for
the first program again. -/
def aroundFailure : List AgentStep :=
  [.reconcile (accepting .tcp 1),
    .reconcile { accepting .udp 2 with run := { calm 2 with telemetryBefore := .error "down" } },
    .evaluate workloadKey (incoming 17) 3 3]

theorem connection_outlives_policy : ∃ r,
    reconcile (accepting .tcp 4).state (accepting .tcp 4).options ((accepting .tcp 4).run.on .little)
      (Runs.after (Tracking.step .little) (.new .new) aroundFailure).reconciler = .ok () r ∧
    ¬ Revoked .little (accepting .tcp 4) (Runs.after (Tracking.step .little) (.new .new)
      (aroundFailure ++ [.reconcile (accepting .tcp 4)])) := by
  refine ⟨_, rfl, fun revoked => ?_⟩
  have kept := revoked workload (mem_singleton_self _) (by decide) _ _ rfl rfl _
    mem_cons_self rfl
  revert kept
  decide +kernel

/-- The connection is added while the run that applied the program is the last one. -/
def afterSuccess : List AgentStep :=
  [.reconcile (accepting .udp 1), .evaluate workloadKey (incoming 17) 2 2]

theorem connection_revoked : ∃ r,
    reconcile (accepting .tcp 3).state (accepting .tcp 3).options ((accepting .tcp 3).run.on .little)
      (Runs.after (Tracking.step .little) (.new .new) afterSuccess).reconciler = .ok () r ∧
    (Runs.after (Tracking.step .little) (.new .new) afterSuccess).added ≠ [] ∧
    Revoked .little (accepting .tcp 3) (Runs.after (Tracking.step .little) (.new .new)
      (afterSuccess ++ [.reconcile (accepting .tcp 3)])) := by
  obtain ⟨_, completed⟩ := (leads_reconcile (accepting .udp 1).state onNode
    ((accepting .udp 1).run.on .little) (.new .new)).of_ok rfl
  have described := describes_of_completed completed (mem_singleton_self workload) rfl not_mem_nil
  have covered : Runs.EachCall (Tracking.step .little) (Covered .little) (.new .new)
      (afterSuccess ++ [.reconcile (accepting .tcp 3)]) := by
    refine Runs.eachCall_cons.mpr ⟨trivial, Runs.eachCall_cons.mpr ⟨fun _ _ => described, ?_⟩⟩
    refine Runs.eachCall_cons.mpr ⟨trivial, fun before call rest split => ?_⟩
    simp at split
  refine ⟨_, rfl, cons_ne_nil _ _, ?_⟩
  exact connections_revoked .little .new _ covered afterSuccess (accepting .tcp 3) [] _ rfl rfl

end Netloom.Agent
