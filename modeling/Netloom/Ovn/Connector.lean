import Mathlib.Data.List.AList
import Mathlib.Data.List.Rotate
import Netloom.Model.Types

/-!
# Connecting to the northbound cluster

The connector dials the endpoints of the cluster in turn, beginning with the leader or with the
one after the current, until one answers. Endpoints that failed a short time ago come last. What
the connector only reports, the statuses of the endpoints and of the leader probe, is left out.
-/
namespace Netloom.Ovn

open Model (Time)
open List

structure LibovsdbEndpointFailure where
  failures : Int := 0
  nextRetry : Time := 0
  error : String := ""

structure ClusterConnector where
  endpoints : List String
  current : String := ""
  currentIndex : Int := -1
  failovers : Int := 0
  endpointFailureCooldown : Int
  endpointFailures : AList fun _ : String => LibovsdbEndpointFailure

namespace ClusterConnector

variable (c : ClusterConnector) (now : Time)

def endpoint (index : Nat) : String := c.endpoints.getD index ""

/-- Where `Connect` starts: at the leader, or else after the current endpoint. -/
def start (leader : String) : Nat :=
  let next := if 0 ≤ c.currentIndex then ((c.currentIndex + 1) % c.endpoints.length).toNat else 0
  if leader = "" then next else (c.endpoints.idxOf? leader).getD next

/-- The endpoint is in cooldown. -/
def coolsDown (endpoint : String) : Bool :=
  match c.endpointFailures.lookup endpoint with
  | none => false
  | some failure => 0 < c.endpointFailureCooldown && now < failure.nextRetry

/-- The positions to dial first, and those to dial after them. -/
def endpointAttemptPlan (start : Nat) : List Nat × List Nat :=
  let indexes := (range c.endpoints.length).map fun offset => (start + offset) % c.endpoints.length
  let primary := indexes.filter fun index => !c.coolsDown now (c.endpoint index)
  let cooled := indexes.filter fun index => c.coolsDown now (c.endpoint index)
  if primary = [] then (cooled, []) else (primary, cooled)

def recordClusterEndpointFailure (endpoint err : String) : ClusterConnector :=
  let failure := (c.endpointFailures.lookup endpoint).getD {}
  { c with endpointFailures := c.endpointFailures.insert endpoint {
      failures := failure.failures + 1
      nextRetry := if 0 < c.endpointFailureCooldown then now + c.endpointFailureCooldown
        else failure.nextRetry
      error := err } }

def recordClusterEndpointSuccess (endpoint : String) : ClusterConnector :=
  { c with endpointFailures := c.endpointFailures.erase endpoint }

end ClusterConnector

/-- How a call ends: the connector it leaves, the positions it dialed, the client or an error. -/
structure Connection (κ : Type) where
  connector : ClusterConnector
  dialed : List Nat
  outcome : Except String κ

section Connect

variable {κ : Type} (dial : Nat → String → Except String κ) (clock : Nat → Time)

/-- The loop of `Connect`: `dial n` is the outcome of the `n`-th dial of the call, and `clock` what
the clock shows, first for the plan and then after each dial. -/
def dialInTurn : List Nat → List String → ClusterConnector → Connection κ
  | [], errs, c =>
    let errs := if errs = [] then ["no OVN northbound libovsdb endpoint was eligible for retry"]
      else errs
    ⟨c, [], .error ("connect OVN northbound libovsdb endpoints: " ++ "; ".intercalate errs)⟩
  | index :: rest, errs, c =>
    let endpoint := c.endpoint index
    match dial errs.length endpoint with
    | .error err =>
      let failed := c.recordClusterEndpointFailure (clock (errs.length + 1)) endpoint err
      let later := dialInTurn rest (errs ++ [s!"{endpoint}: {err}"]) failed
      { later with dialed := index :: later.dialed }
    | .ok client =>
      -- No failure changes what was current at the start.
      let failedOver := c.current ≠ "" ∧ endpoint ≠ c.current
      let connected := { c.recordClusterEndpointSuccess endpoint with
        current := endpoint
        currentIndex := index
        failovers := if failedOver then c.failovers + 1 else c.failovers }
      ⟨connected, [index], .ok client⟩

/-- `Connect`, for the leader that the probe found, if any. -/
def ClusterConnector.connect (c : ClusterConnector) (leader : String) : Connection κ :=
  if c.endpoints = [] then ⟨c, [], .error "OVN northbound libovsdb endpoints are not configured"⟩
  else
    let plan := c.endpointAttemptPlan (clock 0) (c.start leader)
    dialInTurn dial clock (plan.1 ++ plan.2) [] c

/-! ### The plan -/

/-- Every position is planned once, and those in cooldown come last. -/
theorem endpointAttemptPlan_order (c : ClusterConnector) (now : Time) (start : Nat) :
    ∃ primary cooled, (c.endpointAttemptPlan now start).1 ++ (c.endpointAttemptPlan now start).2 =
        primary ++ cooled ∧ primary ++ cooled ~ range c.endpoints.length ∧
      (∀ index ∈ primary, c.coolsDown now (c.endpoint index) = false) ∧
      ∀ index ∈ cooled, c.coolsDown now (c.endpoint index) := by
  have rotated : (range c.endpoints.length).map (fun offset => (start + offset) % c.endpoints.length) =
      (range c.endpoints.length).rotate start := by
    apply ext_getElem
    · simp
    · intro offset _ _
      simp [getElem_rotate, Nat.add_comm]
  refine ⟨_, _, ?_, ((perm_append_comm.trans (filter_append_perm
    (fun index => c.coolsDown now (c.endpoint index)) _)).trans (rotate_perm _ start)), ?_, ?_⟩
  · rw [ClusterConnector.endpointAttemptPlan, rotated]
    split
    · next empty => simp [empty]
    · rfl
  · intro index inside
    simpa using of_mem_filter inside
  · exact fun index => of_mem_filter

/-! ### The dials -/

/-- These are dialed one after the other, from the given dial on, and all of them fail. -/
def Failed (c : ClusterConnector) (first : Nat) (positions : List Nat) : Prop :=
  ∀ before index after, positions = before ++ index :: after →
    ∃ err, dial (first + before.length) (c.endpoint index) = .error err

variable {dial} {c : ClusterConnector}

theorem Failed.cons {first index : Nat} {positions : List Nat} {err : String}
    (failed : dial first (c.endpoint index) = .error err)
    (later : Failed dial c (first + 1) positions) : Failed dial c first (index :: positions) := by
  intro before other after split
  cases before with
  | nil =>
    cases split
    exact ⟨err, failed⟩
  | cons _ before =>
    cases split
    have found := later before other after rfl
    rw [Nat.add_right_comm] at found
    exact found

theorem Failed.of_append {first : Nat} {positions more : List Nat}
    (failed : Failed dial c first (positions ++ more)) : Failed dial c first positions := by
  rintro before index after rfl
  exact failed before index (after ++ more) (by simp)

/-- The loop stops at the first dial that succeeds, or fails after the last one. -/
theorem dialInTurn_cases (dial : Nat → String → Except String κ) (plan : List Nat) (errs : List String)
    (c : ClusterConnector) :
    (∃ earlier index later client connector, plan = earlier ++ index :: later ∧
      dialInTurn dial clock plan errs c = ⟨connector, earlier ++ [index], .ok client⟩ ∧
      Failed dial c errs.length earlier ∧
      dial (errs.length + earlier.length) (c.endpoint index) = .ok client ∧
      connector.current = c.endpoint index ∧ connector.currentIndex = index) ∨
    ∃ err connector, dialInTurn dial clock plan errs c = ⟨connector, plan, .error err⟩ ∧
      Failed dial c errs.length plan := by
  induction plan generalizing errs c with
  | nil => exact .inr ⟨_, c, rfl, fun before _ _ split => by simp at split⟩
  | cons index rest ih =>
    rw [dialInTurn]
    cases answer : dial errs.length (c.endpoint index) with
    | ok client =>
      exact .inl ⟨[], index, rest, client, _, rfl, rfl, fun before _ _ split => by simp at split,
        answer, rfl, rfl⟩
    | error err =>
      -- A failure leaves the endpoints as they are.
      have next := ih (errs ++ [s!"{c.endpoint index}: {err}"])
        (c.recordClusterEndpointFailure (clock (errs.length + 1)) (c.endpoint index) err)
      rw [length_append, length_singleton] at next
      rcases next with ⟨earlier, found, later, client, connector, rfl, ends, failed, success, current⟩ |
        ⟨text, connector, ends, failed⟩
      · refine .inl ⟨index :: earlier, found, later, client, connector, rfl, ?_, failed.cons answer, ?_,
          current⟩
        · simp only [ends, cons_append]
        · rwa [length_cons, Nat.add_comm earlier.length, ← Nat.add_assoc]
      · exact .inr ⟨text, connector, by simp only [ends], failed.cons answer⟩

/-- What a call is to do, if its plan is made at the given time. -/
structure Attempted (dial : Nat → String → Except String κ) (c : ClusterConnector) (now : Time)
    (call : Connection κ) : Prop where
  once : call.dialed.Nodup ∧ ∀ index ∈ call.dialed, index < c.endpoints.length
  /-- Before an endpoint in cooldown, all that are not have been dialed and have failed. -/
  cooledLast : ∀ before index after, call.dialed = before ++ index :: after →
    c.coolsDown now (c.endpoint index) → Failed dial c 0 before ∧
      ∀ other < c.endpoints.length, c.coolsDown now (c.endpoint other) = false → other ∈ before
  /-- The first client is returned, and its endpoint is the current one. -/
  returned : ∀ client, call.outcome = .ok client → ∃ earlier index,
    call.dialed = earlier ++ [index] ∧ Failed dial c 0 earlier ∧
    dial earlier.length (c.endpoint index) = .ok client ∧
    call.connector.current = c.endpoint index ∧ call.connector.currentIndex = index
  exhausted : ∀ err, call.outcome = .error err →
    Failed dial c 0 call.dialed ∧ ∀ index < c.endpoints.length, index ∈ call.dialed

/-- Each endpoint is dialed once at most, those in cooldown last, until one of them answers. -/
theorem connect_attempted (dial : Nat → String → Except String κ) (clock : Nat → Time)
    (c : ClusterConnector) (leader : String) :
    Attempted dial c (clock 0) (c.connect dial clock leader) := by
  by_cases none : c.endpoints = []
  · rw [ClusterConnector.connect, if_pos none]
    constructor <;> simp [none, Failed]
  rw [ClusterConnector.connect, if_neg none]
  obtain ⟨primary, cooled, order, all, free, cold⟩ :=
    endpointAttemptPlan_order c (clock 0) (c.start leader)
  dsimp only
  rw [order]
  have ends := dialInTurn_cases clock dial (primary ++ cooled) [] c
  generalize dialInTurn dial clock (primary ++ cooled) [] c = call at ends ⊢
  -- What was dialed is a beginning of the plan, and all but its last dial failed.
  obtain ⟨⟨rest, whole⟩, tried⟩ : call.dialed <+: primary ++ cooled ∧
      Failed dial c 0 call.dialed.dropLast := by
    rcases ends with ⟨earlier, index, later, _, _, split, rfl, failed, _⟩ | ⟨_, _, rfl, failed⟩
    · rw [split, dropLast_concat]
      exact ⟨⟨later, by simp⟩, failed⟩
    · obtain ⟨more, same⟩ := dropLast_prefix (primary ++ cooled)
      exact ⟨prefix_rfl, Failed.of_append (same.symm ▸ failed)⟩
  refine ⟨⟨?_, fun index inside => ?_⟩, ?_, ?_, ?_⟩
  · exact (all.nodup_iff.mpr nodup_range).sublist (whole ▸ sublist_append_left _ _)
  · exact mem_range.mp (all.subset (whole ▸ mem_append_left _ inside))
  · intro before index after split cooling
    rw [split] at whole tried
    rw [dropLast_append_of_ne_nil (cons_ne_nil _ _)] at tried
    refine ⟨tried.of_append, fun other bound awake => ?_⟩
    have inPrimary : other ∈ primary := by
      rcases mem_append.mp (all.symm.subset (mem_range.mpr bound)) with inside | late
      · exact inside
      · exact absurd (cold other late) (by simp [awake])
    rw [append_assoc] at whole
    rcases append_eq_append_iff.mp whole with ⟨_ | ⟨first, more⟩, same, tail⟩ | ⟨_, same, _⟩
    · rwa [same, append_nil] at inPrimary
    · -- The position would be one of those that are not in cooldown.
      obtain ⟨rfl, _⟩ := cons.inj tail
      have awake := free index (by simp [same])
      simp [cooling] at awake
    · rw [same]
      exact mem_append_left _ inPrimary
  · grind
  · grind

end Connect

end Netloom.Ovn
