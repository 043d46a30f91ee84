import Netloom.Lib.Runs

/-!
# Saving behind a lock

Calls change a value in memory under a lock and save the result after the lock is released;
a call whose save fails puts back the value it had found. Saves of different calls can come in
any order.
-/
namespace WriteBehind

open List

variable {σ α : Type}

/-- A call that has released the lock. -/
structure Call (σ α : Type) where
  action : α
  /-- The value it has found. -/
  previous : σ
  /-- The value it has left, which it saves. -/
  result : σ
  /-- Its save has failed. -/
  failed : Bool := false

structure Machine (σ α : Type) where
  memory : σ
  /-- What has been saved last. -/
  saved : σ
  /-- The calls under way, in the order in which they held the lock. -/
  calls : List (Call σ α) := []
  /-- The last save has not failed. -/
  clean : Bool := true
  /-- The actions of the calls that have returned without an error, in order. -/
  done : List α := []

/-- What happens next; calls are given by their places. -/
inductive Event (α : Type) where
  | lock (action : α)
  | saved (n : Nat)
  | failed (n : Nat)
  | restored (n : Nat)

section

variable (apply : α → σ → σ)

/-- One step; an event that cannot happen changes nothing. -/
def step (m : Machine σ α) : Event α → Machine σ α
  | .lock action =>
    { m with
      memory := apply action m.memory
      calls := m.calls ++ [⟨action, m.memory, apply action m.memory, false⟩] }
  | .saved n => match m.calls[n]? with
    | some ⟨action, _, result, false⟩ =>
      { m with
        saved := result
        calls := m.calls.eraseIdx n
        clean := true
        done := m.done ++ [action] }
    | _ => m
  | .failed n => match m.calls[n]? with
    | some ⟨action, previous, result, false⟩ =>
      { m with calls := m.calls.set n ⟨action, previous, result, true⟩, clean := false }
    | _ => m
  | .restored n => match m.calls[n]? with
    | some ⟨_, previous, _, true⟩ =>
      { m with memory := previous, calls := m.calls.eraseIdx n }
    | _ => m

/-- What keeps the saved value up with memory. -/
def Orderly (m : Machine σ α) : Event α → Prop
  | .lock _ => ∀ call ∈ m.calls, call.failed = false
  | .saved n => n = 0
  | .failed _ => m.calls.length ≤ 1
  | .restored _ => True

/-- Each call has found what the call before has left. -/
def Chain (memory : σ) : σ → List (Call σ α) → Prop
  | base, [] => memory = base
  | base, call :: rest =>
    call.previous = base ∧ call.result = apply call.action base ∧ Chain memory call.result rest

/-- The value after the actions that have been acknowledged. -/
def acknowledged (start : σ) (m : Machine σ α) : σ :=
  m.done.foldl (fun value action => apply action value) start

/-- Memory is what the calls under way have made of the acknowledged value, and a save that has
not failed has saved that value. -/
structure Ordered (start : σ) (m : Machine σ α) : Prop where
  chain : Chain apply m.memory (acknowledged apply start m) m.calls
  saved : m.clean = true → m.saved = acknowledged apply start m
  alone : ∀ call ∈ m.calls, call.failed = true → m.calls = [call]

theorem Chain.append {memory base : σ} {calls : List (Call σ α)} (action : α)
    (chain : Chain apply memory base calls) :
    Chain apply (apply action memory) base
      (calls ++ [⟨action, memory, apply action memory, false⟩]) := by
  induction calls generalizing base with
  | nil =>
    obtain rfl : memory = base := chain
    exact ⟨rfl, rfl, rfl⟩
  | cons call rest ih =>
    obtain ⟨found, left, chain⟩ := chain
    exact ⟨found, left, ih chain⟩

variable {apply} {start : σ} {m : Machine σ α}

section

variable (ordered : Ordered apply start m)

include ordered

theorem Ordered.lock (action : α)
    (sound : ∀ call ∈ m.calls, call.failed = false) :
    Ordered apply start (step apply m (.lock action)) where
  chain := ordered.chain.append apply action
  saved := ordered.saved
  alone call member failed := by
    rcases mem_append.mp member with earlier | new
    · exact absurd failed (by simp [sound call earlier])
    · rw [mem_singleton.mp new] at failed
      exact absurd failed (by simp)

theorem Ordered.save :
    Ordered apply start (step apply m (.saved 0)) := by
  obtain ⟨memory, saved, calls, clean, done⟩ := m
  match calls with
  | [] | ⟨_, _, _, true⟩ :: rest => exact ordered
  | ⟨action, previous, result, false⟩ :: rest =>
    obtain ⟨_, left, chain⟩ := ordered.chain
    have value : acknowledged apply start (step apply
        ⟨memory, saved, ⟨action, previous, result, false⟩ :: rest, clean, done⟩ (.saved 0)) =
        result := (foldl_concat ..).trans left.symm
    refine ⟨value ▸ chain, fun _ => value.symm, fun call member failed => ?_⟩
    -- a failed call would have been the only one
    have only := ordered.alone call (mem_cons_of_mem _ member) failed
    rw [cons.injEq] at only
    rw [← only.1] at failed
    exact absurd failed (by simp)

theorem Ordered.fail (n : Nat) (single : m.calls.length ≤ 1) :
    Ordered apply start (step apply m (.failed n)) := by
  obtain ⟨memory, saved, calls, clean, done⟩ := m
  match calls, n with
  | [], _ | [⟨_, _, _, true⟩], 0 => exact ordered
  | [⟨_, _, _, false⟩], 0 =>
    refine ⟨ordered.chain, fun clean => absurd clean (by simp [step]), fun other member _ => ?_⟩
    rw [mem_singleton.mp member]
    rfl
  | [call], n + 1 => exact ordered
  | _ :: _ :: _, _ => simp at single

theorem Ordered.restore (n : Nat) : Ordered apply start (step apply m (.restored n)) := by
  obtain ⟨memory, saved, calls, clean, done⟩ := m
  simp only [WriteBehind.step]
  split
  next action previous result found =>
    have member := mem_of_getElem? found
    obtain rfl := ordered.alone _ member rfl
    obtain rfl : n = 0 := by
      grind
    exact ⟨ordered.chain.1, ordered.saved, fun call member => absurd member (by simp)⟩
  next => exact ordered

/-- What one orderly step keeps. -/
theorem Ordered.step (event : Event α) (orderly : Orderly m event) :
    Ordered apply start (step apply m event) := by
  cases event with
  | lock action => exact ordered.lock action orderly
  | saved n =>
    obtain rfl : n = 0 := orderly
    exact ordered.save
  | failed n => exact ordered.fail n orderly
  | restored n => exact ordered.restore n

/-- While no call is under way, memory holds what has been acknowledged, and so does the saved
value if the last save has not failed. -/
theorem Ordered.settled (idle : m.calls = []) :
    m.memory = acknowledged apply start m ∧ (m.clean → m.saved = m.memory) := by
  have memory : m.memory = acknowledged apply start m := by
    have chain := ordered.chain
    rwa [idle] at chain
  exact ⟨memory, fun clean => (ordered.saved clean).trans memory.symm⟩

end

theorem Ordered.initial (start : σ) : Ordered apply start { memory := start, saved := start } where
  chain := rfl
  saved _ := rfl
  alone _ member := absurd member (by simp)

end

end WriteBehind
