import Mathlib.Algebra.Group.Basic
import Mathlib.Data.List.AList
import Mathlib.Data.List.Perm.Basic

/-!
# Counting under keys

Loops that add amounts under keys of a map. What a key holds in the end is the sum of
its amounts, so the order of the loops and of the loops over maps inside of them does
not matter.
-/
namespace Tally

open List

variable {κ C : Type} [DecidableEq κ] [AddCommMonoid C]

/-- Adds an amount under a key; a key that is missing counts as zero. -/
def bump (map : AList fun _ : κ => C) (event : κ × C) : AList fun _ : κ => C :=
  map.insert event.1 ((map.lookup event.1).getD 0 + event.2)

/-- Adds all amounts, one after the other. -/
def addAll (map : AList fun _ : κ => C) (events : List (κ × C)) : AList fun _ : κ => C :=
  events.foldl bump map

theorem addAll_append (map : AList fun _ : κ => C) (first second : List (κ × C)) :
    addAll map (first ++ second) = addAll (addAll map first) second :=
  foldl_append

/-- What the keys hold after an event. -/
def record (held : κ → Option C) (event : κ × C) : κ → Option C :=
  Function.update held event.1 (some ((held event.1).getD 0 + event.2))

theorem lookup_addAll (map : AList fun _ : κ => C) (events : List (κ × C)) :
    (fun key => (addAll map events).lookup key) = events.foldl record fun key => map.lookup key := by
  induction events generalizing map with
  | nil => rfl
  | cons event rest ih =>
    have step : (fun key => (bump map event).lookup key) = record (fun key => map.lookup key) event := by
      funext key
      by_cases here : key = event.1
      · subst here
        simp [bump, record]
      · simp [bump, record, here, AList.lookup_insert_ne here]
    rw [foldl_cons, ← step]
    exact ih (bump map event)

/-- Amounts are added in either order. -/
instance : RightCommutative (@record κ C _ _) where
  right_comm held first second := by
    by_cases same : second.1 = first.1
    · simp [record, same, add_right_comm]
    · have apart : first.1 ≠ second.1 := fun equal => same equal.symm
      simp [record, same, apart, Function.update_comm apart]

/-- The order of the events does not matter. -/
theorem lookup_addAll_perm {events events' : List (κ × C)} (perm : events.Perm events') (key : κ) :
    (addAll ∅ events).lookup key = (addAll ∅ events').lookup key := by
  have same := (lookup_addAll ∅ events).trans
    ((perm.foldl_eq _).trans (lookup_addAll ∅ events').symm)
  exact congrFun same key

end Tally
