import Mathlib.Data.List.Basic

/-!
# Runs of a deterministic machine

A machine takes one call after another. Where an invariant is kept by every call
and a property holds after a call exactly if the call met a condition, the
property holds all along a run exactly if every call of it met the condition in
the state it was made in.
-/
namespace Runs

open List

variable {σ ι : Type*} (step : σ → ι → σ) (start : σ)

/-- The state after the calls, made in order. -/
def after (calls : List ι) : σ := calls.foldl step start

@[simp] theorem after_nil : after step start [] = start := rfl

@[simp] theorem after_cons (call : ι) (rest : List ι) :
    after step start (call :: rest) = after step (step start call) rest := rfl

theorem after_append (first second : List ι) :
    after step start (first ++ second) = after step (after step start first) second :=
  foldl_append

variable {step : σ → ι → σ} {start : σ} {Invariant : σ → Prop} {calls : List ι}

/-- What every call of a run keeps holds after it. -/
theorem after_invariant (kept : ∀ call ∈ calls, ∀ s, Invariant s → Invariant (step s call))
    (initial : Invariant start) : Invariant (after step start calls) := by
  induction calls generalizing start with
  | nil => exact initial
  | cons call rest ih =>
    exact ih (fun later inside => kept later (mem_cons_of_mem _ inside))
      (kept call mem_cons_self start initial)

/-- The property holds in every state of the run. -/
def Throughout (step : σ → ι → σ) (Holds : σ → Prop) (start : σ) (calls : List ι) : Prop :=
  ∀ before rest, calls = before ++ rest → Holds (after step start before)

/-- Every call of the run meets the condition in the state it is made in. -/
def EachCall (step : σ → ι → σ) (Meets : σ → ι → Prop) (start : σ) (calls : List ι) : Prop :=
  ∀ before call rest, calls = before ++ call :: rest → Meets (after step start before) call

variable {Holds : σ → Prop} {call : ι} {rest : List ι}

theorem throughout_cons : Throughout step Holds start (call :: rest) ↔
      Holds start ∧ Throughout step Holds (step start call) rest := by
  constructor
  · intro all
    refine ⟨all [] _ rfl, fun before later split => ?_⟩
    exact all (call :: before) later (by rw [split, cons_append])
  · rintro ⟨now, later⟩ before after split
    cases before with
    | nil => exact now
    | cons first before =>
      obtain ⟨rfl, rfl⟩ := cons.inj split
      exact later before after rfl

variable {Meets : σ → ι → Prop}

theorem eachCall_cons : EachCall step Meets start (call :: rest) ↔
      Meets start call ∧ EachCall step Meets (step start call) rest := by
  constructor
  · intro all
    refine ⟨all [] _ _ rfl, fun before next later split => ?_⟩
    exact all (call :: before) next later (by rw [split, cons_append])
  · rintro ⟨now, later⟩ before next after split
    cases before with
    | nil =>
      obtain ⟨rfl, rfl⟩ := cons.inj split
      exact now
    | cons first before =>
      obtain ⟨rfl, rfl⟩ := cons.inj split
      exact later before next after rfl

/-- A property that a call keeps if it meets the condition. -/
theorem throughout_of_eachCall (kept : ∀ s call, Holds s → Meets s call → Holds (step s call))
    (initial : Holds start) (met : EachCall step Meets start calls) :
    Throughout step Holds start calls := by
  induction calls generalizing start with
  | nil =>
    intro before rest split
    obtain ⟨rfl, -⟩ := append_eq_nil_iff.mp split.symm
    exact initial
  | cons call rest ih =>
    rw [eachCall_cons] at met
    exact throughout_cons.mpr ⟨initial, ih (kept start call initial met.1) met.2⟩

/-- The rule of this library: a property decided call by call. -/
theorem throughout_iff (kept : ∀ s call, Invariant s → Invariant (step s call))
    (decided : ∀ s call, Invariant s → Holds s → (Holds (step s call) ↔ Meets s call))
    (initial : Invariant start) (holds : Holds start) (calls : List ι) :
    Throughout step Holds start calls ↔ EachCall step Meets start calls := by
  induction calls generalizing start with
  | nil =>
    refine ⟨fun _ before call rest split => by simp at split, fun _ before rest split => ?_⟩
    obtain ⟨rfl, -⟩ := append_eq_nil_iff.mp split.symm
    exact holds
  | cons call rest ih =>
    rw [throughout_cons, eachCall_cons]
    have next := decided start call initial holds
    constructor
    · rintro ⟨_, later⟩
      have after : Holds (step start call) := later [] rest rfl
      exact ⟨next.mp after, (ih (kept start call initial) after).mp later⟩
    · rintro ⟨met, later⟩
      have after := next.mpr met
      exact ⟨holds, (ih (kept start call initial) after).mpr later⟩

end Runs
