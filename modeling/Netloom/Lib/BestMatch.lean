import Mathlib.Order.Lattice
import Netloom.Lib.Fold

/-!
# Selecting the best matching item

One pass over a list that keeps the best item seen so far among those that
match.
-/
namespace BestMatch

open List

variable {α κ : Type} [LinearOrder κ]

/-- The pass: an item replaces the selected one only if it is strictly better. -/
def select (applies : α → Bool) (better : α → α → Bool) (items : List α) : Option α :=
  items.foldl (fun selected item =>
    if !applies item then selected
    else match selected with
      | none => some item
      | some best => if better item best then some item else some best) none

/-- What the pass keeps is a matching item of greatest rank. -/
def IsBest (applies : α → Bool) (rank : α → κ) (items : List α) (best : α) : Prop :=
  best ∈ items ∧ applies best = true ∧ ∀ item ∈ items, applies item = true → rank item ≤ rank best

theorem select_spec (applies : α → Bool) (better : α → α → Bool) (rank : α → κ)
    (ranked : ∀ a b, better a b ↔ rank b < rank a) (items : List α) :
    (select applies better items = none → ∀ item ∈ items, applies item = false) ∧
      ∀ best, select applies better items = some best → IsBest applies rank items best := by
  refine Fold.foldl_invariant _ (fun done selected =>
    (selected = none → ∀ item ∈ done, applies item = false) ∧
      ∀ best, selected = some best → IsBest applies rank done best) items none (by simp) ?_
  rintro done item rest selected _ ⟨missing, found⟩
  have concat : ∀ best, (best ∈ done ∨ best = item) → applies best →
      (∀ x ∈ done, applies x → rank x ≤ rank best) →
      (applies item → rank item ≤ rank best) → IsBest applies rank (done ++ [item]) best := by
    intro best member applied earlier last
    exact ⟨by simpa using member, applied, by simpa [or_imp, forall_and] using ⟨earlier, last⟩⟩
  by_cases matched : applies item
  · simp only [matched, Bool.not_true, Bool.false_eq_true, if_false]
    cases selected with
    | none =>
      refine ⟨by simp, fun best equal => ?_⟩
      cases equal
      refine concat _ (.inr rfl) matched (fun x earlier applied => ?_) fun _ => le_refl _
      simp [missing rfl x earlier] at applied
    | some best =>
      obtain ⟨inDone, applied, top⟩ := found best rfl
      by_cases improves : better item best
      · simp only [improves, if_true]
        refine ⟨by simp, fun new equal => ?_⟩
        cases equal
        exact concat _ (.inr rfl) matched (fun x earlier applies' =>
          (top x earlier applies').trans ((ranked _ _).mp improves).le) fun _ => le_refl _
      · simp only [improves, Bool.false_eq_true, if_false]
        refine ⟨by simp, fun new equal => ?_⟩
        cases equal
        exact concat _ (.inl inDone) applied top fun _ =>
          le_of_not_gt fun lt => improves ((ranked _ _).mpr lt)
  · simp only [matched, Bool.not_false, if_true]
    refine ⟨fun none => by simpa [or_imp, forall_and, matched] using missing none,
      fun best equal => ?_⟩
    obtain ⟨inDone, applied, top⟩ := found best equal
    exact concat _ (.inl inDone) applied top fun applies' => absurd applies' matched

section Agree

variable (applies : α → Bool) (better : α → α → Bool) (rank : α → κ) {items items' : List α}
  (ranked : ∀ a b, better a b ↔ rank b < rank a)
include ranked

/-- Where each matching item of one list has one in the other that measures as much, both
passes keep nothing, or items of the same measure. -/
theorem select_agree {μ : Type} [PartialOrder μ] (measure : α → μ)
    (monotone : ∀ a b, rank a ≤ rank b → measure a ≤ measure b)
    (there : ∀ a ∈ items, applies a → ∃ b ∈ items', applies b ∧ measure a ≤ measure b)
    (back : ∀ b ∈ items', applies b → ∃ a ∈ items, applies a ∧ measure b ≤ measure a) :
    select applies better items = none ∧ select applies better items' = none ∨
      ∃ a b, select applies better items = some a ∧ select applies better items' = some b ∧
        measure a = measure b := by
  obtain ⟨missing, best⟩ := select_spec applies better rank ranked items
  obtain ⟨missing', best'⟩ := select_spec applies better rank ranked items'
  cases found : select applies better items with
  | none =>
    cases found' : select applies better items' with
    | none => exact .inl ⟨rfl, rfl⟩
    | some b =>
      obtain ⟨member, applied, _⟩ := best' b found'
      obtain ⟨a, inItems, applied, _⟩ := back b member applied
      simp [missing found a inItems] at applied
  | some a =>
    obtain ⟨member, applied, top⟩ := best a found
    obtain ⟨b', inItems', applied', le⟩ := there a member applied
    cases found' : select applies better items' with
    | none => simp [missing' found' b' inItems'] at applied'
    | some b =>
      obtain ⟨member', appliedB, top'⟩ := best' b found'
      obtain ⟨a', inItems, appliedA, le'⟩ := back b member' appliedB
      exact .inr ⟨a, b, rfl, rfl, le_antisymm (le.trans (monotone _ _ (top' b' inItems' applied')))
        (le'.trans (monotone _ _ (top a' inItems appliedA)))⟩

/-- The order of the items does not matter if no two matching items have the same rank. -/
theorem select_perm (perm : items.Perm items')
    (unique : ∀ a ∈ items, ∀ b ∈ items, applies a → applies b →
      rank a = rank b → a = b) :
    select applies better items = select applies better items' := by
  rcases select_agree applies better rank ranked rank (fun _ _ le => le)
      (fun a member applied => ⟨a, perm.mem_iff.mp member, applied, le_refl _⟩)
      (fun b member applied => ⟨b, perm.mem_iff.mpr member, applied, le_refl _⟩) with
    ⟨none, none'⟩ | ⟨a, b, found, found', same⟩
  · rw [none, none']
  · obtain ⟨member, applied, _⟩ := (select_spec applies better rank ranked items).2 a found
    obtain ⟨member', applied', _⟩ := (select_spec applies better rank ranked items').2 b found'
    rw [found, found', unique a member b (perm.mem_iff.mpr member') applied applied' same]

end Agree

end BestMatch
