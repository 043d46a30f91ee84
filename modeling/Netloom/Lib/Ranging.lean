import Mathlib.Data.List.AList
import Mathlib.Data.List.Perm.Basic
import Mathlib.Order.Basic

/-!
# Loops over maps

A loop over a map runs through its entries in an order of its own. A search
that can stop at one entry only, and a list that is sorted afterwards, do not
depend on that order.
-/
namespace Ranging

open List

universe u

/-- One way to run through maps. -/
structure Order where
  arrange : {α : Type u} → List α → List α
  perm : ∀ {α : Type u} (items : List α), (arrange items).Perm items

def Order.identity : Order.{u} where
  arrange items := items
  perm items := List.Perm.refl items

def Order.reversed : Order.{u} where
  arrange items := items.reverse
  perm items := reverse_perm items

variable {κ α β : Type} (order : Order.{0}) (map : AList fun _ : κ => α)

/-- The values of a map in the order of the loop. -/
def Order.values : List α :=
  order.arrange (map.entries.map Sigma.snd)

def Order.keys : List κ :=
  order.arrange map.keys

theorem Order.values_perm : (order.values map).Perm (map.entries.map Sigma.snd) :=
  order.perm _

theorem Order.lookup_of_mem_values {order : Order.{0}} [DecidableEq κ] {map : AList fun _ : κ => α}
    {value : α} (member : value ∈ order.values map) : ∃ key, map.lookup key = some value := by
  rw [(order.values_perm map).mem_iff, mem_map] at member
  obtain ⟨⟨key, found⟩, member, rfl⟩ := member
  exact ⟨key, AList.mem_lookup_iff.mpr member⟩

theorem Order.mem_values_of_lookup {order : Order.{0}} [DecidableEq κ] {map : AList fun _ : κ => α}
    {key : κ} {value : α} (held : map.lookup key = some value) : value ∈ order.values map := by
  rw [(order.values_perm map).mem_iff]
  exact mem_map.mpr ⟨⟨key, value⟩, AList.mem_lookup_iff.mp held, rfl⟩

variable {items items' : List α}

/-- A search that nothing but one item answers, or only with the same result. -/
theorem findSome?_eq {f : α → Option β} {a : α} (member : a ∈ items)
    (others : ∀ b ∈ items, f b = none ∨ f b = f a) : items.findSome? f = f a := by
  cases found : items.findSome? f with
  | none => exact (findSome?_eq_none_iff.mp found a member).symm
  | some x =>
    obtain ⟨b, member', hit⟩ := exists_of_findSome?_eq_some found
    rw [← (others b member').resolve_left (by simp [hit]), hit]

/-- The first hit does not depend on the order if all hits have the same result. -/
theorem findSome?_perm (f : α → Option β) (perm : items.Perm items')
    (unique : ∀ a ∈ items, ∀ b ∈ items, ∀ x y, f a = some x → f b = some y → x = y) :
    items.findSome? f = items'.findSome? f := by
  cases found : items.findSome? f with
  | none =>
    grind
  | some x =>
    obtain ⟨a, member, hit⟩ := exists_of_findSome?_eq_some found
    cases found' : items'.findSome? f with
    | none =>
      rw [findSome?_eq_none_iff] at found'
      simp [found' a (perm.mem_iff.mp member)] at hit
    | some y =>
      obtain ⟨b, member', hit'⟩ := exists_of_findSome?_eq_some found'
      rw [unique a member b (perm.mem_iff.mpr member') x y hit hit']

theorem exists_find? {p : α → Bool} (hit : ∃ a ∈ items, p a) : ∃ a, items.find? p = some a :=
  Option.isSome_iff_exists.mp (find?_isSome.mpr hit)

theorem find?_sorted {p : α → Bool} {before : α → α → Prop} (sorted : items.Pairwise before)
    (reflexive : ∀ a, before a a) {a : α} (found : items.find? p = some a) :
    ∀ b ∈ items, p b → before a b := by
  obtain ⟨_, front, rest, rfl, missed⟩ := find?_eq_some_iff_append.mp found
  intro b member hit
  rcases mem_append.mp member with earlier | here
  · exact absurd hit (by simpa using missed b earlier)
  · rcases mem_cons.mp here with rfl | later
    · exact reflexive b
    · exact (pairwise_cons.mp (pairwise_append.mp sorted).2.1).1 b later

/-- The first hit of a sorted list does not depend on how it was sorted, if no two hits
have the same rank. -/
theorem find?_sorted_perm {ρ : Type} [PartialOrder ρ] (p : α → Bool) (rank : α → ρ)
    (perm : items.Perm items') (sorted : items.Pairwise fun a b => rank b ≤ rank a)
    (sorted' : items'.Pairwise fun a b => rank b ≤ rank a)
    (unique : ∀ a ∈ items, ∀ b ∈ items, p a → p b → rank a = rank b → a = b) :
    items.find? p = items'.find? p := by
  cases found : items.find? p with
  | none =>
    grind
  | some a =>
    have member := mem_of_find?_eq_some found
    have hit := find?_some found
    cases found' : items'.find? p with
    | none => exact absurd hit (find?_eq_none.mp found' a (perm.mem_iff.mp member))
    | some b =>
      have member' := perm.mem_iff.mpr (mem_of_find?_eq_some found')
      have hit' := find?_some found'
      have above := find?_sorted sorted (fun _ => le_refl _) found b member' hit'
      have below := find?_sorted sorted' (fun _ => le_refl _) found' a (perm.mem_iff.mp member) hit
      rw [unique a member b member' hit hit' (le_antisymm below above)]

/-- Where only one element is a hit, no sorting is needed. -/
theorem find?_perm (p : α → Bool) (perm : items.Perm items')
    (unique : ∀ a ∈ items, ∀ b ∈ items, p a → p b → a = b) : items.find? p = items'.find? p :=
  find?_sorted_perm p (fun _ => ()) perm (pairwise_of_forall fun _ _ => le_refl _)
    (pairwise_of_forall fun _ _ => le_refl _)
    fun a member b member' hit hit' _ => unique a member b member' hit hit'

theorem any_perm (p : α → Bool) (perm : items.Perm items') : items.any p = items'.any p := by
  rw [Bool.eq_iff_iff, any_eq_true, any_eq_true]
  exact exists_congr fun a => and_congr_left' perm.mem_iff

end Ranging
