import Mathlib
import Netloom.Lib.Doubling

/-!
# Backoff of the identity group feed

The loop compares with half of the limit before it doubles. Half is rounded down, so an odd
limit can be reached one nanosecond early.
-/
namespace Netloom.Control

open Doubling Int64

section
variable (double : Int64 → Option Int64)

/-- The loop of `identityGroupFeedBackoff` with this many rounds left. -/
def feedBackoffLoop (max : Int64) : Nat → Int64 → Option Int64
  | 0, backoff => some (if backoff > max then max else backoff)
  | rounds + 1, backoff =>
    if backoff ≥ max / 2 then some max else (double backoff).bind (feedBackoffLoop max rounds)

def effectiveBase (base : Int64) : Int64 := if base ≤ 0 then 1000000000 else base

def effectiveMax (base max : Int64) : Int64 :=
  let max := if max ≤ 0 then 60000000000 else max
  if max < effectiveBase base then effectiveBase base else max

/-- `identityGroupFeedBackoff`, with the multiplication it doubles by. -/
def identityGroupFeedBackoff (base max : Int64) (failures : Int) : Option Int64 :=
  let failures := if failures < 1 then 1 else failures
  feedBackoffLoop double (effectiveMax base max) (failures - 1).toNat (effectiveBase base)

end

/-- The outcome of the loop in numbers. -/
def cappedBackoff (max backoff : Int) : Nat → Int
  | 0 => backoff
  | rounds + 1 => if max / 2 ≤ backoff * 2 ^ rounds then max else backoff * 2 ^ (rounds + 1)

section
variable {max backoff : Int} (positive : 0 < backoff) (within : backoff ≤ max)
include positive within

theorem cappedBackoff_mono : Monotone (cappedBackoff max backoff) := by
  apply monotone_nat_of_le_succ
  intro rounds
  cases rounds with
  | zero =>
    simp only [cappedBackoff, pow_zero, zero_add, pow_one]
    omega
  | succ rounds =>
    have more : 0 < backoff * 2 ^ rounds := by positivity
    simp only [cappedBackoff, pow_succ, ← mul_assoc]
    split_ifs <;> omega

theorem cappedBackoff_bounds (rounds : Nat) : backoff ≤ cappedBackoff max backoff rounds ∧
    cappedBackoff max backoff rounds ≤ max ∧
    |cappedBackoff max backoff rounds - min (backoff * 2 ^ rounds) max| ≤ 1 := by
  refine ⟨cappedBackoff_mono positive within (Nat.zero_le rounds), ?_⟩
  cases rounds with
  | zero => simp [cappedBackoff, within]
  | succ rounds =>
    simp only [cappedBackoff, pow_succ, ← mul_assoc, abs_le]
    split_ifs <;> omega

end

/-- The run with a product that is exact in the range of the loop. -/
theorem feedBackoffLoop_eq {double : Int64 → Option Int64} (agrees : Agrees double)
    {max backoff : Int64} (positive : 0 < backoff.toInt) (within : backoff.toInt ≤ max.toInt)
    (rounds : Nat) : feedBackoffLoop double max rounds backoff =
      some (ofInt (cappedBackoff max.toInt backoff.toInt rounds)) := by
  induction rounds generalizing backoff with
  | zero =>
    have kept : ¬ max < backoff := by rw [lt_iff_toInt_lt]; omega
    simp [feedBackoffLoop, kept, cappedBackoff]
  | succ rounds ih =>
    have half := toInt_half max (by omega)
    have power : (1 : Int) ≤ 2 ^ rounds := one_le_pow₀ (by omega)
    by_cases reached : max / 2 ≤ backoff
    · have large := le_iff_toInt_le.mp reached
      have ends : max.toInt / 2 ≤ backoff.toInt * 2 ^ rounds := by nlinarith
      simp [feedBackoffLoop, reached, cappedBackoff, ends]
    · have small : backoff.toInt < (max / 2).toInt := by rwa [← lt_iff_toInt_lt, ← Int64.not_le]
      have bound := max.toInt_lt
      have doubled := toInt_double positive (by omega)
      rw [feedBackoffLoop, if_neg reached, agrees _ doubled, Option.bind_some,
        ih (by omega) (by omega), doubled]
      cases rounds with
      | zero => simp [cappedBackoff, show ¬ max.toInt / 2 ≤ backoff.toInt by omega]
      | succ rounds => simp only [cappedBackoff, pow_succ', mul_assoc]

/-- The delay lies between the effective bounds, grows with the failures and is the doubled
base up to a nanosecond, and no product overflows. -/
theorem identityGroupFeedBackoff_bounded (base max : Int64) :
    ∃ delay : Int → Int64, ∀ failures,
      identityGroupFeedBackoff wrapping base max failures = some (delay failures) ∧
      identityGroupFeedBackoff trapping base max failures = some (delay failures) ∧
      effectiveBase base ≤ delay failures ∧ delay failures ≤ effectiveMax base max ∧
      (∀ more, failures ≤ more → delay failures ≤ delay more) ∧
      |(delay failures).toInt - min ((effectiveBase base).toInt * 2 ^ (failures - 1).toNat)
        (effectiveMax base max).toInt| ≤ 1 := by
  have positive : 0 < (effectiveBase base).toInt := positive_default (by decide)
  have within : (effectiveBase base).toInt ≤ (effectiveMax base max).toInt := by
    rw [← le_iff_toInt_le, effectiveMax]
    generalize (if max ≤ 0 then (60000000000 : Int64) else max) = max
    split_ifs with less
    · exact Int64.le_refl _
    · exact Int64.not_lt.mp less
  have run : ∀ {double}, Agrees double → ∀ failures,
      identityGroupFeedBackoff double base max failures = some (ofInt (cappedBackoff
        (effectiveMax base max).toInt (effectiveBase base).toInt (failures - 1).toNat)) := by
    intro double agrees failures
    have counted : ((if failures < 1 then 1 else failures) - 1).toNat = (failures - 1).toNat := by
      split <;> omega
    rw [identityGroupFeedBackoff, counted]
    exact feedBackoffLoop_eq agrees positive within _
  have value : ∀ rounds, _ := fun rounds =>
    have bounds := cappedBackoff_bounds positive within rounds
    toInt_ofInt bounds.1 bounds.2.1
  refine ⟨_, fun failures => ⟨run agrees_wrapping failures, run agrees_trapping failures, ?_⟩⟩
  have bounds := cappedBackoff_bounds positive within (failures - 1).toNat
  simp only [le_iff_toInt_le, value]
  refine ⟨bounds.1, bounds.2.1, fun more fewer => ?_, bounds.2.2⟩
  exact cappedBackoff_mono positive within (by omega)

end Netloom.Control
