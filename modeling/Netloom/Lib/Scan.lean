import Netloom.Lib.Fold

/-!
# Searching upwards, and maps in both directions

`search` walks from a start to the next element and the next, as long as it stays
inside, and stops at the first element that is free. `Inverse` relates a map to the map back.
-/
namespace Scan

open AList

/-! ### Searching -/

/-- How a search ends: at a free element, outside, where no element follows, or because
its bound is reached. -/
inductive Outcome (α : Type) where
  | found (item : α)
  | exhausted
  | stuck
  | unfinished
  deriving DecidableEq, Repr

variable {α : Type}

/-- Looks for the first free element, for at most `fuel` elements. -/
def search (inside taken : α → Bool) (next : α → Option α) : Nat → α → Outcome α
  | 0, _ => .unfinished
  | fuel + 1, item =>
    if inside item then
      if taken item then
        match next item with
        | some following => search inside taken next fuel following
        | none => .stuck
      else .found item
    else .exhausted

variable {inside taken : α → Bool} {next : α → Option α}

/-- Looks on after an element. -/
def proceed (inside taken : α → Bool) (next : α → Option α) (fuel : Nat) (item : α) :
    Outcome α :=
  match next item with
  | some following => search inside taken next fuel following
  | none => .stuck

/-- A numbering of the elements inside, in the order of the walk. After the last one the
walk leaves them, or it is stuck. -/
structure Numbering (inside : α → Bool) (next : α → Option α) (size : Nat) (nth : Nat → α) :
    Prop where
  member : ∀ i < size, inside (nth i) = true
  follows : ∀ i, i + 1 < size → next (nth i) = some (nth (i + 1))
  leaves : ∀ item, next (nth (size - 1)) = some item → inside item = false

/-- Over such a numbering a search finds a free element, or it ends as the walk does: a bound
of the number of elements is never reached. -/
theorem proceed_of_numbering {size : Nat} {nth : Nat → α}
    (numbering : Numbering inside next size nth) {start fuel : Nat} (early : start < size)
    (enough : size ≤ start + fuel) :
    (∃ i, start < i ∧ i < size ∧ taken (nth i) = false ∧
        proceed inside taken next fuel (nth start) = .found (nth i)) ∨
      (∀ i, start < i → i < size → taken (nth i)) ∧
        proceed inside taken next fuel (nth start) =
          if (next (nth (size - 1))).isSome then .exhausted else .stuck := by
  induction fuel generalizing start with
  | zero => omega
  | succ fuel ih =>
    rcases Nat.lt_or_ge (start + 1) size with below | beyond
    · -- one more element, and then the rest of the walk
      rw [proceed, numbering.follows start below]
      simp only [search, if_pos (numbering.member _ below)]
      split
      · next busy =>
        rcases @ih (start + 1) below (by omega) with ⟨i, low, found⟩ | ⟨all, ends⟩
        · exact .inl ⟨i, by omega, found⟩
        · refine .inr ⟨fun i low high => ?_, ends⟩
          rcases Nat.eq_or_lt_of_le low with rfl | later
          · exact busy
          · exact all i later high
      · next free => exact .inl ⟨start + 1, by omega, below, by simpa using free, rfl⟩
    · obtain rfl : start = size - 1 := by omega
      refine .inr ⟨fun i low high => by omega, ?_⟩
      rw [proceed]
      cases after : next (nth (size - 1)) with
      | none => rfl
      | some item => simp [search, numbering.leaves item after]

/-! ### Maps in both directions -/

section

variable {κ ν : Type} [DecidableEq κ] [DecidableEq ν]

/-- Each map leads back where the other comes from. -/
def Inverse (there : AList fun _ : κ => ν) (back : AList fun _ : ν => κ) : Prop :=
  ∀ k v, there.lookup k = some v ↔ back.lookup v = some k

variable {there : AList fun _ : κ => ν} {back : AList fun _ : ν => κ}

/-- A pair that agrees with what is there may be added. -/
theorem Inverse.insert (inverse : Inverse there back) {k : κ} {v : ν}
    (forth : ∀ v', there.lookup k = some v' → v' = v)
    (return' : ∀ k', back.lookup v = some k' → k' = k) :
    Inverse (there.insert k v) (back.insert v k) := by
  intro k' v'
  rw [Fold.lookup_insert_eq_some, Fold.lookup_insert_eq_some]
  constructor
  · rintro (⟨rfl, rfl⟩ | ⟨apart, held⟩)
    · exact .inl ⟨rfl, rfl⟩
    · have found := (inverse k' v').mp held
      exact .inr ⟨fun same => apart (return' k' (same ▸ found)), found⟩
  · rintro (⟨rfl, rfl⟩ | ⟨apart, found⟩)
    · exact .inl ⟨rfl, rfl⟩
    · have held := (inverse k' v').mpr found
      exact .inr ⟨fun same => apart (forth v' (same ▸ held)), held⟩

/-- A pair that is there may be taken out. -/
theorem Inverse.erase (inverse : Inverse there back) {k : κ} {v : ν}
    (held : there.lookup k = some v) : Inverse (there.erase k) (back.erase v) := by
  intro k' v'
  by_cases sameKey : k' = k
  · subst sameKey
    rw [lookup_erase]
    by_cases sameValue : v' = v
    · subst sameValue
      rw [lookup_erase]
      simp
    · rw [lookup_erase_ne sameValue, ← inverse, held]
      simp [Ne.symm sameValue]
  · rw [lookup_erase_ne sameKey]
    by_cases sameValue : v' = v
    · subst sameValue
      rw [lookup_erase, inverse, (inverse k v').mp held]
      simp [Ne.symm sameKey]
    · rw [lookup_erase_ne sameValue]
      exact inverse k' v'

end

end Scan
