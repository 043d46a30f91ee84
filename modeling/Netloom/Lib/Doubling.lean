import Mathlib.Algebra.Order.Ring.Int
import Mathlib.Tactic.Linarith
import Mathlib.Tactic.Positivity

/-!
# Doubling of 64-bit values

A program that doubles is run twice: with the product of the machine, which wraps around,
and with a product that traps instead. If both runs give the same, nothing has wrapped.
-/
namespace Doubling

def wrapping (value : Int64) : Option Int64 := some (value * 2)

def trapping (value : Int64) : Option Int64 :=
  if (value * 2).toInt = value.toInt * 2 then some (value * 2) else none

/-- The product is that of the machine as long as the machine's is exact. -/
def Agrees (double : Int64 → Option Int64) : Prop :=
  ∀ value : Int64, (value * 2).toInt = value.toInt * 2 → double value = some (value * 2)

theorem agrees_wrapping : Agrees wrapping := fun _ _ => rfl

theorem agrees_trapping : Agrees trapping := fun _ exactly => if_pos exactly

variable {value : Int64}

theorem toInt_double (positive : 0 < value.toInt) (small : value.toInt < 2 ^ 62) :
    (value * 2).toInt = value.toInt * 2 := by
  rw [Int64.toInt_mul]
  exact Int.bmod_eq_of_le (by simp; omega) (by simp; omega)

/-- What does not trap is below half of the range. -/
theorem exact_of_trapping {double : Int64} (result : trapping value = some double) :
    double.toInt = value.toInt * 2 ∧ value.toInt < 2 ^ 62 := by
  simp only [trapping, Option.ite_none_right_eq_some, Option.some.injEq] at result
  obtain ⟨exactly, rfl⟩ := result
  have bound := (value * 2).toInt_lt
  omega

theorem toInt_half (value : Int64) (positive : 0 < value.toInt) :
    (value / 2).toInt = value.toInt / 2 := by
  rw [Int64.toInt_div_of_ne_right _ _ (by decide)]
  exact Int.tdiv_eq_ediv_of_nonneg positive.le

/-- A value that is replaced by its default where it is not positive. -/
theorem positive_default {default : Int64} (set : 0 < default.toInt) :
    0 < (if value ≤ 0 then default else value).toInt := by
  split
  · exact set
  · next above => exact Int64.lt_iff_toInt_lt.mp (Int64.not_le.mp above)

theorem toInt_ofInt {n : Int} {least most : Int64} (low : least.toInt ≤ n) (high : n ≤ most.toInt) :
    (Int64.ofInt n).toInt = n := by
  have bounds := And.intro least.le_toInt most.toInt_lt
  rw [Int64.toInt_ofInt]
  exact Int.bmod_eq_of_le (by simp; omega) (by simp; omega)

end Doubling
