import Mathlib.Data.List.Basic
import Mathlib.Tactic.Common

/-!
# Codes that are read from the left

A code is instantaneous if a code word is recognised without looking at what follows.
-/
namespace PrefixCode

open List

variable {α β : Type}

/-- A code word of one of these symbols is told from every other, whatever follows. -/
def Instantaneous (code : α → List β) (Symbol : α → Prop) : Prop :=
  ∀ a b, Symbol a → Symbol b → ∀ rest rest', code a ++ rest = code b ++ rest' → a = b

variable {code : α → List β} {Symbol : α → Prop}

/-- Of two codes at the start of one text, one continues the other. -/
theorem Instantaneous.continues (instantaneous : Instantaneous code Symbol) {left right : List α}
    (symbols : ∀ a ∈ left, Symbol a) (symbols' : ∀ a ∈ right, Symbol a) {rest rest' : List β}
    (equal : left.flatMap code ++ rest = right.flatMap code ++ rest') :
    (∃ more, right = left ++ more ∧ rest = more.flatMap code ++ rest') ∨
      ∃ more, left = right ++ more ∧ rest' = more.flatMap code ++ rest := by
  induction left generalizing right with
  | nil => exact .inl ⟨right, rfl, by simpa using equal⟩
  | cons a left ih =>
    cases right with
    | nil => exact .inr ⟨a :: left, rfl, by simpa using equal.symm⟩
    | cons b right =>
      simp only [flatMap_cons, append_assoc] at equal
      have same := instantaneous a b (symbols a (by simp)) (symbols' b (by simp)) _ _ equal
      subst same
      have others := ih (fun c member => symbols c (by simp [member]))
        (fun c member => symbols' c (by simp [member])) (append_cancel_left equal)
      rcases others with ⟨more, rfl, tail⟩ | ⟨more, rfl, tail⟩
      · exact .inl ⟨more, rfl, tail⟩
      · exact .inr ⟨more, rfl, tail⟩

/-- A code is read back in one way. -/
theorem Instantaneous.injective (instantaneous : Instantaneous code Symbol)
    (some : ∀ a, code a ≠ []) {left right : List α} (symbols : ∀ a ∈ left, Symbol a)
    (symbols' : ∀ a ∈ right, Symbol a) (equal : left.flatMap code = right.flatMap code) :
    left = right := by
  have ended : ∀ more : List α, [] = more.flatMap code → more = [] := by
    intro more empty
    cases more with
    | nil => rfl
    | cons a more =>
      rw [flatMap_cons] at empty
      exact absurd (append_eq_nil_iff.mp empty.symm).1 (some a)
  have texts : left.flatMap code ++ [] = right.flatMap code ++ [] := by rw [equal]
  rcases instantaneous.continues symbols symbols' texts with ⟨more, rfl, tail⟩ | ⟨more, rfl, tail⟩
  · rw [ended more (by simpa using tail), append_nil]
  · rw [ended more (by simpa using tail), append_nil]

end PrefixCode
