import Mathlib.Data.List.Basic
import Mathlib.Data.List.TakeWhile
import Mathlib.Tactic.Common

/-!
# Transactions of the command executor

The executor runs a list of operations as few commands: an operation that it carries out itself
is run alone, and the others in batches, where the addition of a NAT rule begins a new one.
-/
namespace Netloom.Ovn

open List

/-- An operation as the executor gets it. -/
structure Command where
  flags : List String := []
  command : String
  args : List String := []
  deriving DecidableEq, Repr

def isSpecialOperation (op : Command) : Bool :=
  op.command ∈ ["gc-dhcp-options", "gc-stale-dhcp-options", "gc-load-balancer-health-checks",
    "ensure-load-balancer-health-check", "gc-stale-load-balancer-health-checks", "gc-nat-rule",
    "gc-stale-nat-rules", "tag-nat-rule", "tag-policy-route", "gc-stale-policy-routes",
    "sync-policy-route-nexthop", "sync-policy-route-nexthops", "ensure-policy-route-nexthops"]

/-- Without a special operation this is the length of the list, where the source has `-1`. -/
def firstSpecialOperation (ops : List Command) : Nat := ops.findIdx isSpecialOperation

def addsNATRule (op : Command) : Bool := op.command = "lr-nat-add"

def nextTransactionBatchEnd (ops : List Command) : Nat :=
  if ops.length ≤ 1 then ops.length else 1 + ops.tail.findIdx addsNATRule

/-- What is run at once. -/
inductive Step where
  | special (op : Command)
  | batch (ops : List Command)
  deriving DecidableEq, Repr

def Step.ops : Step → List Command
  | special op => [op]
  | batch ops => ops

/-- The next step for a list that begins with `op`. -/
def nextStep (op : Command) (rest : List Command) : Step :=
  if isSpecialOperation op then .special op
  else
    let regular := (op :: rest).take (firstSpecialOperation (op :: rest))
    .batch ((op :: rest).take (nextTransactionBatchEnd regular))

/-- What a step may consist of. -/
def Step.Formed : Step → Prop
  | special op => isSpecialOperation op
  | batch ops => (∀ op ∈ ops, isSpecialOperation op = false) ∧ ∀ op ∈ ops.tail, addsNATRule op = false

private theorem take_findIdx (p : Command → Bool) (ops : List Command) :
    ops.take (ops.findIdx p) = ops.takeWhile (!p ·) := by
  simp [takeWhile_eq_take_findIdx_not]

/-- A step takes some operations off the front of the list. -/
theorem nextStep_spec (op : Command) (rest : List Command) : (nextStep op rest).Formed ∧
    (nextStep op rest).ops ≠ [] ∧ (nextStep op rest).ops <+: op :: rest := by
  cases special : isSpecialOperation op with
  | true =>
    rw [nextStep, if_pos special]
    exact ⟨special, by simp [Step.ops], rest, rfl⟩
  | false =>
    have size : ∀ rest, nextTransactionBatchEnd (op :: rest) = rest.findIdx addsNATRule + 1 := by
      intro rest
      cases rest with
      | nil => rfl
      | cons => simp [nextTransactionBatchEnd, Nat.add_comm 1 (findIdx _ _)]
    have regular : ∀ op ∈ rest.takeWhile (!isSpecialOperation ·), isSpecialOperation op = false :=
      fun op member => by simpa using mem_takeWhile_imp member
    obtain ⟨later, whole⟩ := takeWhile_prefix (!isSpecialOperation ·) (l := rest)
    -- a batch ends before the next special operation, and before the next NAT rule
    rw [nextStep, if_neg (by simp [special]), firstSpecialOperation, take_findIdx,
      takeWhile_cons_of_pos (by simp [special])]
    generalize rest.takeWhile (!isSpecialOperation ·) = front at whole regular
    subst whole
    simp only [size, take_succ_cons, take_append_of_le_length findIdx_le_length, take_findIdx]
    have front := takeWhile_prefix (!addsNATRule ·) (l := front)
    refine ⟨⟨forall_mem_cons.mpr ⟨special, fun op member => ?_⟩, fun op member => ?_⟩,
      cons_ne_nil _ _, cons_prefix_cons.mpr ⟨rfl, front.trans (prefix_append _ _)⟩⟩
    · exact regular op (takeWhile_subset _ member)
    · simpa using mem_takeWhile_imp member

/-- The steps that were run, and the one that failed. -/
structure Transcript where
  completed : List Step
  failed : Option (Step × String)
  deriving DecidableEq, Repr

def Transcript.attempted (run : Transcript) : List Step :=
  run.completed ++ (run.failed.map Prod.fst).toList

/-- The loop over the list; `execute` is the outcome of a step after the steps before it. -/
def executeTransaction (execute : List Step → Step → Except String Unit) (done : List Step)
    (ops : List Command) : Transcript :=
  match ops with
  | [] => ⟨done, none⟩
  | op :: rest =>
    match execute done (nextStep op rest) with
    | .error err => ⟨done, some (nextStep op rest, err)⟩
    | .ok () => executeTransaction execute (done ++ [nextStep op rest])
        ((op :: rest).drop (nextStep op rest).ops.length)
termination_by ops.length
decreasing_by
  have taken := length_pos_of_ne_nil (nextStep_spec op rest).2.1
  rw [length_drop, length_cons]
  omega

variable {execute : List Step → Step → Except String Unit}

/-- What a run adds to the steps before it. -/
theorem executeTransaction_spec (done : List Step) (ops : List Command) :
    ∃ steps later, (executeTransaction execute done ops).completed = done ++ steps ∧
      steps.flatMap Step.ops ++ later = ops ∧
      (later = [] ↔ (executeTransaction execute done ops).failed = none) ∧
      (((executeTransaction execute done ops).failed.map Prod.fst).toList.flatMap Step.ops <+:
        later) ∧
      (∀ step ∈ steps ++ ((executeTransaction execute done ops).failed.map Prod.fst).toList,
        step.Formed) ∧
      (∀ before step, before ++ [step] <+: steps → execute (done ++ before) step = .ok ()) ∧
      ∀ step err, (executeTransaction execute done ops).failed = some (step, err) →
        execute (done ++ steps) step = .error err := by
  fun_induction executeTransaction execute done ops with
  | case1 done => exact ⟨[], [], by simp, rfl, by simp, by simp, by simp, by simp, by simp⟩
  | case2 done op rest err failed =>
    obtain ⟨formed, _, front⟩ := nextStep_spec op rest
    refine ⟨[], op :: rest, by simp, rfl, by simp, by simpa using front, by simpa using formed,
      by simp, ?_⟩
    rintro step message ⟨⟩
    simpa using failed
  | case3 done op rest succeeded ih =>
    obtain ⟨formed, _, front⟩ := nextStep_spec op rest
    obtain ⟨steps, later, completed, whole, ends, next, all, each, stops⟩ := ih
    refine ⟨nextStep op rest :: steps, later, by simpa using completed, ?_, ends, next,
      forall_mem_cons.mpr ⟨formed, all⟩, fun before step early => ?_, by simpa using stops⟩
    · rw [flatMap_cons, append_assoc, whole, prefix_iff_eq_append.mp front]
    · cases before with
      | nil =>
        obtain ⟨rfl, _⟩ := cons_prefix_cons.mp early
        simpa using succeeded
      | cons first before =>
        obtain ⟨rfl, earlier⟩ := cons_prefix_cons.mp early
        simpa using each before step earlier

/-- The steps of a run are well formed and take the list off from its front, all of it exactly
if none fails. A step is completed because it succeeded after those before it, the one that
failed did so after the completed ones, and nothing is run after it. -/
theorem executeTransaction_in_order (execute : List Step → Step → Except String Unit)
    (ops : List Command) :
    let run := executeTransaction execute [] ops
    run.completed.flatMap Step.ops <+: ops ∧ run.attempted.flatMap Step.ops <+: ops ∧
    (run.completed.flatMap Step.ops = ops ↔ run.failed = none) ∧
    (∀ step ∈ run.attempted, step.Formed) ∧
    (∀ before step, before ++ [step] <+: run.completed → execute before step = .ok ()) ∧
    (∀ step err, run.failed = some (step, err) → execute run.completed step = .error err) ∧
    ∀ before step after, run.attempted = before ++ step :: after → execute before step ≠ .ok () →
      after = [] := by
  intro run
  obtain ⟨steps, later, completed, whole, ends, next, all, each, stops⟩ :=
    @executeTransaction_spec execute [] ops
  rw [nil_append] at completed
  rw [Transcript.attempted, completed]
  refine ⟨⟨later, whole⟩, ?_, ?_, all, each, stops, fun before step after split failed => ?_⟩
  · rw [flatMap_append, ← whole]
    exact (prefix_append_right_inj _).mpr next
  · rw [← ends, ← whole]
    exact self_eq_append_right
  · by_contra more
    -- a step before another one is one of those that succeeded
    refine failed (each before step (prefix_of_prefix_length_le
      ⟨after, by simp⟩ (split ▸ prefix_append _ _) ?_))
    have one : (run.failed.map Prod.fst).toList.length ≤ 1 := by cases run.failed <;> simp
    have sizes := congrArg length split
    have rest := length_pos_of_ne_nil more
    simp only [length_append, length_cons, length_nil] at sizes ⊢
    omega

end Netloom.Ovn
