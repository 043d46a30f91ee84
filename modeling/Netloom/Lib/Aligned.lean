import Mathlib.Data.Nat.Bitwise
import Mathlib.Data.Nat.Factorization.Basic
import Mathlib.Tactic.Linarith
import Mathlib.Tactic.Positivity
import Mathlib.Tactic.Ring
import Netloom.Lib.Cidr

/-!
# Aligned intervals

An interval whose length is a power of two that divides its start is a block.
The loop below cuts an interval of words into such blocks: it takes the largest
power of two that divides the current position and halves it until it fits.
-/
namespace Aligned

/-- The lowest set bit, computed as `value & -value` on `n`-bit words. -/
def lowestBit (n value : Nat) : Nat := value &&& ((2 ^ n - value) % 2 ^ n)

/-- The lowest set bit is the largest power of two that divides the value. -/
theorem lowestBit_spec (n value : Nat) (positive : 0 < value) (small : value < 2 ^ n) :
    ∃ k j, lowestBit n value = 2 ^ k ∧ value = 2 ^ k * (2 * j + 1) := by
  obtain ⟨k, m, odd, equal⟩ := Nat.exists_eq_two_pow_mul_odd (Nat.pos_iff_ne_zero.mp positive)
  obtain ⟨j, rfl⟩ := odd
  refine ⟨k, j, ?_, equal⟩
  have below : k < n := by
    by_contra ge
    have : 2 ^ n ≤ 2 ^ k := Nat.pow_le_pow_right (by omega) (by omega)
    nlinarith
  obtain ⟨d, rfl⟩ : ∃ d, n = k + (d + 1) := ⟨n - k - 1, by omega⟩
  have powers : 2 ^ (k + (d + 1)) = 2 ^ k * (2 * 2 ^ d) := by ring
  have bound : 2 * j + 1 < 2 * 2 ^ d := by
    rw [equal, powers] at small
    exact Nat.lt_of_mul_lt_mul_left small
  have complement : 2 ^ (k + (d + 1)) - value = 2 ^ k * (2 * (2 ^ d - (j + 1)) + 1) := by
    rw [equal, powers, ← Nat.mul_sub]
    congr 1
    omega
  have inside : 2 ^ (k + (d + 1)) - value < 2 ^ (k + (d + 1)) := by omega
  rw [lowestBit, Nat.mod_eq_of_lt inside, complement]
  nth_rewrite 1 [equal]
  apply Nat.eq_of_testBit_eq
  intro i
  -- Below bit k both factors are shifted away, at k both are odd, above k the bits of
  -- the second factor are the complement of those of the first.
  have jBound : j < 2 ^ d := by omega
  simp only [Nat.testBit_and, Nat.testBit_two_pow_mul, Nat.testBit_two_pow]
  rcases Nat.lt_trichotomy i k with low | here | high
  · have apart : ¬ k = i := by omega
    simp [Nat.not_le.mpr low, apart]
  · subst here
    simp
  · have apart : ¬ k = i := by omega
    obtain ⟨e, rfl⟩ : ∃ e, i = k + (e + 1) := ⟨i - k - 1, by omega⟩
    have shift : k + (e + 1) - k = e + 1 := by omega
    simp only [apart, decide_false, shift, Nat.testBit_succ]
    have first : (2 * j + 1) / 2 = j := by omega
    have second : (2 * (2 ^ d - (j + 1)) + 1) / 2 = 2 ^ d - (j + 1) := by omega
    rw [first, second, Nat.testBit_two_pow_sub_succ jBound]
    cases j.testBit e <;> simp

/-- An aligned interval of words is a block. -/
theorem contains_iff_interval {w : Nat} (k start : Nat) (le : k ≤ w) (aligned : 2 ^ k ∣ start)
    (small : start < 2 ^ w) (p : BitVec w) (fits : w - k ≤ w) :
    (Cidr.mk (BitVec.ofNat w start) (w - k) fits).contains p ↔
      start ≤ p.toNat ∧ p.toNat < start + 2 ^ k := by
  obtain ⟨q, rfl⟩ := aligned
  have back : w - (w - k) = k := by omega
  simp only [Cidr.contains, back, beq_iff_eq, ← BitVec.toNat_inj, BitVec.toNat_ushiftRight,
    BitVec.toNat_ofNat, Nat.shiftRight_eq_div_pow, Nat.mod_eq_of_lt small]
  have positive : 0 < 2 ^ k := by positivity
  rw [Nat.mul_div_cancel_left q positive, Nat.div_eq_iff positive, Nat.mul_comm q]
  omega

/-- Halves a size until it fits into what remains. -/
def fit : Nat → Nat → Nat → Nat
  | 0, size, _ => size
  | steps + 1, size, remaining =>
    if remaining < size then fit steps (size / 2) remaining else size

/-- Cuts the interval from `current` to `last` of `w`-bit words, held in 32-bit
registers, into blocks: pairs of a start and a number of fixed leading bits. -/
def split (w : Nat) : Nat → Nat → Nat → List (Nat × Nat)
  | 0, _, _ => []
  | fuel + 1, current, last =>
    if current ≤ last then
      let lowest := lowestBit 32 current
      let size := fit (w + 1) (if lowest = 0 then 2 ^ w else lowest) (last - current + 1)
      (current, w - Nat.log2 size) :: split w fuel (current + size) last
    else []

private theorem fit_spec (steps k remaining : Nat) (enough : k < steps) (some : 0 < remaining) :
    ∃ j, j ≤ k ∧ fit steps (2 ^ k) remaining = 2 ^ j ∧ 2 ^ j ≤ remaining ∧
      (j = k ∨ remaining < 2 ^ (j + 1)) := by
  induction steps generalizing k with
  | zero => omega
  | succ steps ih =>
    simp only [fit]
    split
    · next large =>
      cases k with
      | zero => simp at large; omega
      | succ k =>
        have half : 2 ^ (k + 1) / 2 = 2 ^ k := by rw [Nat.pow_succ]; omega
        rw [half]
        obtain ⟨j, le, equal, fits, rfl | most⟩ := ih k (by omega)
        · exact ⟨j, by omega, equal, fits, .inr large⟩
        · exact ⟨j, by omega, equal, fits, .inr most⟩
    · exact ⟨k, Nat.le_refl _, rfl, by omega, .inl rfl⟩

/-- The size chosen at a position is a power of two that divides the position and
does not reach beyond the interval, and the next larger one would not do. -/
private theorem size_spec (w current last : Nat) (width : w < 32) (small : last < 2 ^ w)
    (le : current ≤ last) :
    ∃ k ≤ w, fit (w + 1) (if lowestBit 32 current = 0 then 2 ^ w else lowestBit 32 current)
      (last - current + 1) = 2 ^ k ∧ 2 ^ k ∣ current ∧ 2 ^ k ≤ last - current + 1 ∧
      (2 ^ (k + 1) ∣ current + 2 ^ k ∨ last - current + 1 < 2 ^ (k + 1)) := by
  rcases Nat.eq_zero_or_pos current with rfl | positive
  · have zero : lowestBit 32 0 = 0 := by simp [lowestBit]
    obtain ⟨k, le', equal, fits, most⟩ := fit_spec (w + 1) w (last - 0 + 1) (by omega) (by omega)
    refine ⟨k, le', by rw [if_pos zero, equal], Nat.dvd_zero _, fits, .inr ?_⟩
    rcases most with rfl | most
    · rw [Nat.pow_succ]
      omega
    · exact most
  · have below : current < 2 ^ 32 := by
      have : 2 ^ w ≤ 2 ^ 32 := Nat.pow_le_pow_right (by omega) (by omega)
      omega
    obtain ⟨k, i, equal, odd⟩ := lowestBit_spec 32 current positive below
    have divides : 2 ^ k ∣ current := ⟨2 * i + 1, odd⟩
    have nonzero : ¬ lowestBit 32 current = 0 := by
      rw [equal]
      positivity
    have short : k < w := by
      have : 2 ^ k ≤ current := Nat.le_of_dvd positive divides
      exact (Nat.pow_lt_pow_iff_right (by omega)).mp (by omega : 2 ^ k < 2 ^ w)
    obtain ⟨j, le', equal', fits, most⟩ :=
      fit_spec (w + 1) k (last - current + 1) (by omega) (by omega)
    refine ⟨j, by omega, by rw [if_neg nonzero, equal, equal'],
      (Nat.pow_dvd_pow 2 le').trans divides, fits, most.imp_left ?_⟩
    rintro rfl
    exact ⟨i + 1, by rw [odd]; ring⟩

/-- The blocks that the loop takes from a position on: each is aligned, stays within the
interval and is the largest that does. -/
inductive Cuts (w last : Nat) : Nat → List (Nat × Nat) → Prop
  | done {current : Nat} : last < current → Cuts w last current []
  | block {current k : Nat} {blocks : List (Nat × Nat)} : k ≤ w → 2 ^ k ∣ current →
      current + 2 ^ k ≤ last + 1 →
      (2 ^ (k + 1) ∣ current + 2 ^ k ∨ last + 1 < current + 2 ^ (k + 1)) →
      Cuts w last (current + 2 ^ k) blocks → Cuts w last current ((current, w - k) :: blocks)

theorem cuts_split (w fuel current last : Nat) (width : w < 32) (small : last < 2 ^ w)
    (enough : last + 1 - current ≤ fuel) : Cuts w last current (split w fuel current last) := by
  induction fuel generalizing current with
  | zero => exact .done (by omega)
  | succ fuel ih =>
    simp only [split]
    split
    · next le =>
      obtain ⟨k, kw, size, divides, fits, most⟩ := size_spec w current last width small le
      have positive : 0 < 2 ^ k := by positivity
      simp only [size, Nat.log2_two_pow]
      exact .block kw divides (by omega) (most.imp_right (by omega)) (ih _ (by omega))
    · exact .done (by omega)

section

variable {w last current : Nat} {blocks : List (Nat × Nat)}

section

variable (cuts : Cuts w last current blocks)

include cuts

/-- The blocks are aligned, and together exactly the interval. -/
theorem Cuts.spec :
    (∀ block ∈ blocks, block.2 ≤ w ∧ 2 ^ (w - block.2) ∣ block.1 ∧
      block.1 + 2 ^ (w - block.2) ≤ last + 1) ∧
    ∀ x, (∃ block ∈ blocks, block.1 ≤ x ∧ x < block.1 + 2 ^ (w - block.2)) ↔
      current ≤ x ∧ x ≤ last := by
  induction cuts with
  | done beyond =>
    refine ⟨by simp, fun x => ?_⟩
    simp only [List.not_mem_nil, false_and, exists_false, false_iff]
    omega
  | @block current k blocks kw divides fits most rest ih =>
    obtain ⟨aligned, covered⟩ := ih
    have positive : 0 < 2 ^ k := by positivity
    have bits : w - (w - k) = k := by omega
    simp only [List.mem_cons, forall_eq_or_imp, exists_eq_or_imp, bits]
    refine ⟨⟨⟨by omega, divides, fits⟩, aligned⟩, fun x => ?_⟩
    rw [covered x]
    omega

theorem Cuts.le_of_mem {block : Nat × Nat}
    (member : block ∈ blocks) : current ≤ block.1 := by
  have nonempty : 0 < 2 ^ (w - block.2) := by positivity
  exact ((cuts.spec.2 block.1).mp ⟨block, member, le_refl _, by omega⟩).1

/-- Each block ends before the next one begins. -/
theorem Cuts.pairwise :
    blocks.Pairwise fun a b => a.1 + 2 ^ (w - a.2) ≤ b.1 := by
  induction cuts with
  | done beyond => exact .nil
  | @block current k blocks kw divides fits most rest ih =>
    refine .cons (fun block member => ?_) ih
    have bits : w - (w - k) = k := by omega
    simpa only [bits] using rest.le_of_mem member

omit cuts in
/-- A multiple of a larger power is not a smaller power away from a multiple of twice it. -/
private theorem not_dvd_add {k j : Nat} (less : j < k) (divides : 2 ^ k ∣ current) :
    ¬ 2 ^ (j + 1) ∣ current + 2 ^ j := by
  intro next
  have half := (Nat.dvd_add_right ((Nat.pow_dvd_pow 2 less).trans divides)).mp next
  have := Nat.le_of_dvd (by positivity) half
  have : 2 ^ j < 2 ^ (j + 1) := Nat.pow_lt_pow_right (by omega) (by omega)
  omega

private theorem Cuts.length_of_lt (beyond : last < current) : blocks.length = 0 := by
  cases cuts with
  | done => rfl
  | @block k => omega

/-- Behind the largest block the sizes fall, so less than `2 ^ k` takes `k` blocks. -/
private theorem Cuts.length_of_short {k : Nat}
    (divides : 2 ^ k ∣ current) (short : last + 1 < current + 2 ^ k) : blocks.length ≤ k := by
  induction cuts generalizing k with
  | done => exact Nat.zero_le k
  | @block current j blocks jw aligned fits most rest ih =>
    have less : j < k := (Nat.pow_lt_pow_iff_right (by omega)).mp (by omega : 2 ^ j < 2 ^ k)
    have close := most.resolve_left (not_dvd_add less divides)
    rw [Nat.pow_succ] at close
    have shorter := ih (aligned.add (Nat.dvd_refl _)) (by omega)
    rw [List.length_cons]
    omega

/-- Up to the largest block the sizes grow: from a multiple of `2 ^ k` other than zero at
most `w - 1 - k` blocks lead up to it, and at most `w - 1` follow. -/
theorem Cuts.length_le {k : Nat} (small : last < 2 ^ w)
    (positive : 0 < current) (divides : 2 ^ k ∣ current) (less : k < w) :
    blocks.length + k ≤ max w (2 * w - 2) := by
  induction cuts generalizing k with
  | done =>
    rw [List.length_nil]
    omega
  | @block current j blocks jw aligned fits most rest ih =>
    rw [List.length_cons]
    rcases most with next | close
    · have order : k ≤ j := by
        by_contra smaller
        exact not_dvd_add (by omega) divides next
      rcases Nat.lt_or_ge (j + 1) w with more | full
      · have := ih (by omega) next more
        omega
      · -- No multiple of the whole width is left above the position.
        have := Nat.le_of_dvd (by omega) ((Nat.pow_dvd_pow 2 full).trans next)
        have := rest.length_of_lt (by omega)
        omega
    · rw [Nat.pow_succ] at close
      have below : 2 ^ j ≤ current := Nat.le_of_dvd positive aligned
      have bounded : j < w := (Nat.pow_lt_pow_iff_right (by omega)).mp (by omega : 2 ^ j < 2 ^ w)
      rcases Nat.lt_or_ge (j + 1) w with more | full
      · have := rest.length_of_short (aligned.add (Nat.dvd_refl _)) (by omega)
        omega
      · obtain rfl : w = j + 1 := by omega
        rw [Nat.pow_succ] at small
        have := rest.length_of_lt (by omega)
        omega

end

end

end Aligned
