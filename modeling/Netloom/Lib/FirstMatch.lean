import Netloom.Lib.Ranging
import Mathlib.Data.List.Sort

/-!
# The first match of a sorted list

A list of rules is sorted by number, rules with one number in any order, and the first rule
that matches decides.
-/
namespace FirstMatch

open List

variable {α : Type} [DecidableEq α] (number : α → Int)

/-- The items in an order with ascending numbers. -/
structure Arranged (items list : List α) : Prop where
  perm : list.Perm items
  sorted : list.Pairwise fun a b => number a ≤ number b

/-- An item that matches and has the least number of those that match. -/
structure Least (test : α → Bool) (items : List α) (item : α) : Prop where
  listed : item ∈ items
  hit : test item = true
  least : ∀ other ∈ items, test other = true → number item ≤ number other

/-- The order by numbers with one item before the others of its number. -/
def rankBefore (first item : α) : Int := if item = first then 2 * number item - 1 else 2 * number item

variable {test : α → Bool} {items : List α}

omit [DecidableEq α] in
/-- The first match has the least number. -/
theorem least_of_find? {list : List α} (arranged : Arranged number items list) {item : α}
    (found : list.find? test = some item) :
    Least number test items item where
  listed := arranged.perm.mem_iff.mp (mem_of_find?_eq_some found)
  hit := find?_some found
  least other listed := Ranging.find?_sorted arranged.sorted (fun _ => le_refl _) found other
    (arranged.perm.mem_iff.mpr listed)

omit [DecidableEq α] in
/-- If something matches, something with the least number does. -/
theorem exists_least (some : ∃ item ∈ items, test item) : ∃ item, Least number test items item := by
  let list := items.insertionSort fun a b => number a ≤ number b
  have arranged : Arranged number items list :=
    ⟨perm_insertionSort _ _, pairwise_insertionSort _ _⟩
  obtain ⟨item, listed, hit⟩ := some
  obtain ⟨first, found⟩ := Ranging.exists_find? ⟨item, arranged.perm.mem_iff.mpr listed, hit⟩
  exact ⟨first, least_of_find? number arranged found⟩

/-- Every item with the least number comes first in some order. -/
theorem exists_arranged {item : α} (least : Least number test items item) :
    ∃ list, Arranged number items list ∧ list.find? test = some item := by
  let list := items.insertionSort fun a b => rankBefore number item a ≤ rankBefore number item b
  have perm : list.Perm items := perm_insertionSort _ _
  have ranked : list.Pairwise fun a b => rankBefore number item a ≤ rankBefore number item b :=
    pairwise_insertionSort _ _
  refine ⟨list, ⟨perm, ranked.imp fun {a b} le => ?_⟩, ?_⟩
  · -- ranks of different numbers are ordered as the numbers
    unfold rankBefore at le
    split_ifs at le <;> omega
  · obtain ⟨first, found⟩ :=
      Ranging.exists_find? ⟨item, perm.mem_iff.mpr least.listed, least.hit⟩
    have below := Ranging.find?_sorted ranked (fun _ => le_refl _) found item
      (perm.mem_iff.mpr least.listed) least.hit
    have above := least.least first (perm.mem_iff.mp (mem_of_find?_eq_some found))
      (find?_some found)
    rw [found]
    by_contra differ
    have other : first ≠ item := fun same => differ (congrArg _ same)
    simp only [rankBefore, if_true, if_neg other] at below
    omega

/-- The first match has a property in every order exactly if something matches and all matches
with the least number have it. -/
theorem first_in_every_order (test : α → Bool) (P : α → Prop) (items : List α) :
    (∀ list, Arranged number items list → ∃ item, list.find? test = some item ∧ P item) ↔
      (∃ item ∈ items, test item) ∧ ∀ item, Least number test items item → P item := by
  constructor
  · intro first
    refine ⟨?_, fun item least => ?_⟩
    · obtain ⟨item, found, _⟩ := first (items.insertionSort fun a b => number a ≤ number b)
        ⟨perm_insertionSort _ _, pairwise_insertionSort _ _⟩
      exact ⟨item, (mem_insertionSort _).mp (mem_of_find?_eq_some found), find?_some found⟩
    · obtain ⟨list, arranged, found⟩ := exists_arranged number least
      obtain ⟨other, found', holds⟩ := first list arranged
      rw [found, Option.some.injEq] at found'
      exact found' ▸ holds
  · rintro ⟨⟨item, listed, hit⟩, holds⟩ list arranged
    obtain ⟨first, found⟩ := Ranging.exists_find? ⟨item, arranged.perm.mem_iff.mpr listed, hit⟩
    exact ⟨first, found, holds first (least_of_find? number arranged found)⟩

end FirstMatch
