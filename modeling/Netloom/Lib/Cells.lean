import Mathlib.Data.List.Flatten
import Mathlib.Data.List.Nodup

/-!
# Runs seen at one place

A state is changed by a list of operations, and what is seen of it at one place
changes by some of them only.
-/
namespace Netloom.Cells

open List

variable {σ ο ν α : Type}

/-- How operations act on a view: those that touch it as `inner` says, the others not at all. -/
structure Framed (step : σ → ο → σ) (view : σ → ν) (inner : ν → ο → ν) (touches : ο → Bool) :
    Prop where
  touched : ∀ state op, touches op = true → view (step state op) = inner (view state) op
  untouched : ∀ state op, touches op = false → view (step state op) = view state

variable {touches : ο → Bool}

theorem Framed.view_foldl {step : σ → ο → σ} {view : σ → ν} {inner : ν → ο → ν}
    (framed : Framed step view inner touches) (ops : List ο) (state : σ) :
    view (ops.foldl step state) = (ops.filter touches).foldl inner (view state) := by
  induction ops generalizing state with
  | nil => rfl
  | cons op rest ih =>
    rw [foldl_cons, ih]
    cases touch : touches op with
    | true => rw [filter_cons_of_pos touch, foldl_cons, framed.touched state op touch]
    | false => rw [filter_cons_of_neg (by simp [touch]), framed.untouched state op touch]

/-- Operations that each add a value unless it is there. -/
theorem mem_foldl_add [DecidableEq ν] {add : List ν → ο → List ν} {plan : α → ο} {value : α → ν}
    (adds : ∀ held item,
      add held (plan item) = if value item ∈ held then held else held ++ [value item])
    (items : List α) (start : List ν) (found : ν) :
    found ∈ (items.map plan).foldl add start ↔ found ∈ start ∨ found ∈ items.map value := by
  induction items generalizing start with
  | nil => simp
  | cons first rest ih =>
    rw [map_cons, foldl_cons, ih, adds]
    split
    · next there => grind
    · simp [or_assoc]

variable {items : List α}

/-- If the plan of an item touches the place either as a whole or not at all, the operations
that touch it are the plans of some of the items. -/
theorem filter_flatMap {plan : α → List ο} {mine : α → Bool}
    (owned : ∀ item ∈ items, ∀ op ∈ plan item, touches op = mine item) :
    (items.flatMap plan).filter touches = (items.filter mine).flatMap plan := by
  induction items with
  | nil => rfl
  | cons first rest ih =>
    rw [flatMap_cons, filter_append, ih fun item member => owned item (by simp [member])]
    have here := owned first (by simp)
    cases own : mine first with
    | true =>
      rw [filter_cons_of_pos own, flatMap_cons,
        filter_eq_self.mpr fun op member => (here op member).trans own]
    | false =>
      rw [filter_cons_of_neg (by simp [own]),
        filter_eq_nil_iff.mpr fun op member => by simp [here op member, own],
        nil_append]

/-- At most one item of a list with distinct keys has a given key. -/
theorem filter_key {κ : Type} [DecidableEq κ] {items : List κ} (nodup : items.Nodup) (k : κ) :
    (items.filter fun item => item = k) = if k ∈ items then [k] else [] := by
  rw [show (items.filter fun item => decide (item = k)) = items.filter (· == k) from by
    congr 1, filter_beq]
  split
  · next member => rw [count_eq_one_of_mem nodup member, replicate_one]
  · next absent => rw [count_eq_zero_of_not_mem absent, replicate_zero]

/-- The only item with its key. -/
theorem filter_eq_singleton {κ : Type} [DecidableEq κ] {key : α → κ} (nodup : (items.map key).Nodup)
    {item : α} (member : item ∈ items) :
    (items.filter fun other => key other = key item) = [item] := by
  induction items with
  | nil => cases member
  | cons first rest ih =>
    rw [map_cons, nodup_cons] at nodup
    obtain ⟨fresh, nodup⟩ := nodup
    rcases mem_cons.mp member with rfl | later
    · rw [filter_cons_of_pos (by simp), filter_eq_nil_iff.mpr]
      intro other inside
      simpa using fun same => fresh (mem_map.mpr ⟨other, inside, same⟩)
    · have apart : key first ≠ key item := fun same =>
        fresh (mem_map.mpr ⟨item, later, same.symm⟩)
      rw [filter_cons_of_neg (by simpa using apart), ih nodup later]

end Netloom.Cells
