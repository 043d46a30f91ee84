import Mathlib.Algebra.Group.Nat.Defs
import Mathlib.Data.List.Basic
import Mathlib.Tactic.Common

/-!
# Address blocks of fixed width

A block is the set of `w`-bit words that agree with a given word on its first
`bits` bits. Blocks are the common shape of CIDR prefixes, aligned port ranges
and longest-prefix-match keys.
-/

/-- The words that agree with `addr` on the first `bits` bits. -/
@[ext] structure Cidr (w : Nat) where
  addr : BitVec w
  bits : Nat
  bits_le : bits ≤ w
  deriving DecidableEq, Repr

namespace Cidr

open List BitVec

variable {w : Nat}

/-- Agreement on the first `n` bits, most significant first. -/
def Agree (n : Nat) (a b : BitVec w) : Prop := ∀ i, i < n → a.getMsbD i = b.getMsbD i

theorem Agree.refl (n : Nat) (a : BitVec w) : Agree n a a := fun _ _ => rfl

variable {n : Nat} {a b : BitVec w}

theorem Agree.symm (agree : Agree n a b) : Agree n b a :=
  fun i below => (agree i below).symm

theorem Agree.trans {c : BitVec w} (first : Agree n a b) (second : Agree n b c) :
    Agree n a c := fun i below => (first i below).trans (second i below)

theorem Agree.mono {m : Nat} (agree : Agree n a b) (le : m ≤ n) :
    Agree m a b := fun i below => agree i (Nat.lt_of_lt_of_le below le)

theorem agree_width : Agree w a b ↔ a = b :=
  ⟨eq_of_getMsbD_eq, fun same => same ▸ Agree.refl _ _⟩

/-- Shifting the tail away compares exactly the leading bits. -/
theorem shiftRight_eq_iff (n : Nat) (le : n ≤ w) (a b : BitVec w) :
    a >>> (w - n) = b >>> (w - n) ↔ Agree n a b := by
  constructor
  · intro equal i below
    have bit := congrArg (fun word => word.getMsbD (i + (w - n))) equal
    simp only [getMsbD_ushiftRight] at bit
    have inside : i + (w - n) < w := by omega
    have beyond : ¬ i + (w - n) < w - n := by omega
    simpa [inside, beyond] using bit
  · intro agree
    apply eq_of_getMsbD_eq
    intro i below
    simp only [getMsbD_ushiftRight]
    by_cases shifted : i < w - n
    · simp [shifted]
    · have inside : i - (w - n) < n := by omega
      simp [shifted, agree _ inside]

/-- Masking the tail away compares the same bits as shifting it away. -/
theorem and_mask_eq_iff (k : Nat) (a b : BitVec w) :
    a &&& (BitVec.allOnes w <<< k) = b &&& (BitVec.allOnes w <<< k) ↔ a >>> k = b >>> k := by
  constructor
  · intro equal
    apply eq_of_getLsbD_eq
    intro i below
    have bit := congrArg (fun word => word.getLsbD (k + i)) equal
    have high : ¬ k + i < k := by omega
    by_cases inside : k + i < w
    · simpa [inside, high] using bit
    · simp [getLsbD_of_ge a (k + i) (by omega), getLsbD_of_ge b (k + i) (by omega)]
  · intro equal
    apply eq_of_getLsbD_eq
    intro i below
    by_cases low : i < k
    · simp [low]
    · have bit := congrArg (fun word => word.getLsbD (i - k)) equal
      have back : k + (i - k) = i := by omega
      simp only [getLsbD_ushiftRight, back] at bit
      simp [bit]

variable {v : Nat}

/-- The leading bits of two words written one after the other. -/
theorem agree_append (n : Nat) (a a' : BitVec w) (b b' : BitVec v) :
    Agree (w + n) (a ++ b) (a' ++ b') ↔ a = a' ∧ Agree n b b' := by
  simp only [Agree, getMsbD_append]
  constructor
  · intro agree
    constructor
    · apply eq_of_getMsbD_eq
      intro i below
      have bit := agree i (by omega)
      rwa [if_neg (by omega), if_neg (by omega)] at bit
    · intro i below
      have bit := agree (w + i) (by omega)
      rwa [if_pos (by omega), if_pos (by omega), Nat.add_sub_cancel_left] at bit
  · rintro ⟨rfl, agree⟩ i below
    split
    · exact agree (i - w) (by omega)
    · rfl

theorem append_eq_append_iff (a a' : BitVec w) (b b' : BitVec v) :
    a ++ b = a' ++ b' ↔ a = a' ∧ b = b' := by
  rw [← agree_width, agree_append, agree_width]

theorem agree_append_left (le : n ≤ w) (a a' : BitVec w) (b b' : BitVec v) :
    Agree n (a ++ b) (a' ++ b') ↔ Agree n a a' := by
  simp only [Agree, getMsbD_append]
  refine forall₂_congr fun i below => ?_
  rw [if_neg (by omega), if_neg (by omega)]

variable (block : Cidr w)

/-- Membership of a word in a block. -/
def contains (a : BitVec w) : Bool :=
  a >>> (w - block.bits) == block.addr >>> (w - block.bits)

theorem contains_iff (a : BitVec w) : block.contains a ↔ Agree block.bits a block.addr := by
  simp only [contains, beq_iff_eq]
  exact shiftRight_eq_iff block.bits block.bits_le a block.addr

theorem contains_addr : block.contains block.addr :=
  (contains_iff _ _).mpr (Agree.refl _ _)

/-- Clears all bits from position `n` on. -/
def clearFrom (n : Nat) (a : BitVec w) : BitVec w := (a >>> (w - n)) <<< (w - n)

theorem getMsbD_clearFrom (n : Nat) (le : n ≤ w) (a : BitVec w) (i : Nat) :
    (clearFrom n a).getMsbD i = (decide (i < n) && a.getMsbD i) := by
  simp only [clearFrom, getMsbD_shiftLeft, getMsbD_ushiftRight]
  by_cases inside : i < n
  · have shifted : i + (w - n) < w := by omega
    simp [inside, shifted]
  · simp only [inside, decide_false, Bool.false_and]
    by_cases below : i + (w - n) < w
    · omega
    · simp [below]

theorem agree_clearFrom (n : Nat) (le : n ≤ w) (a : BitVec w) : Agree n (clearFrom n a) a := by
  intro i below
  simp [getMsbD_clearFrom n le, below]

theorem clearFrom_eq (le : n ≤ w) (agree : Agree n a b) : clearFrom n a = clearFrom n b := by
  rw [clearFrom, (shiftRight_eq_iff n le a b).mpr agree, clearFrom]

/-- The same block written with its first word. -/
def masked : Cidr w := { block with addr := clearFrom block.bits block.addr }

@[simp] theorem masked_bits : block.masked.bits = block.bits := rfl

theorem contains_masked (a : BitVec w) : block.masked.contains a = block.contains a := by
  rw [Bool.eq_iff_iff, contains_iff, contains_iff]
  have agree := agree_clearFrom block.bits block.bits_le block.addr
  exact ⟨fun inside => inside.trans agree, fun inside => inside.trans agree.symm⟩

@[simp] theorem masked_masked : block.masked.masked = block.masked := by
  have fixed := clearFrom_eq block.bits_le (agree_clearFrom block.bits block.bits_le block.addr)
  simp [masked, fixed]

/-! ### Inclusion of blocks -/

variable (outer inner : Cidr w)

/-- One block includes another: it is no longer, and contains its first word. -/
def covers : Bool :=
  decide (outer.bits ≤ inner.bits) && outer.contains inner.addr

theorem covers_iff_agree :
    outer.covers inner ↔
      outer.bits ≤ inner.bits ∧ Agree outer.bits inner.addr outer.addr := by
  simp [covers, contains_iff]

/-- Sets the bit at position `i`, most significant first. -/
def setBit (a : BitVec w) (i : Nat) : BitVec w := a ||| BitVec.twoPow w (w - 1 - i)

theorem getMsbD_setBit (a : BitVec w) (i j : Nat) (inside : i < w) :
    (setBit a i).getMsbD j = (decide (j = i) || a.getMsbD j) := by
  simp only [setBit, getMsbD_eq_getLsbD]
  by_cases here : j = i
  · subst here
    have top : w - 1 - j < w := by omega
    simp [inside, top]
  · grind

/-- Inclusion is inclusion of the sets of words. -/
theorem covers_iff :
    outer.covers inner ↔ ∀ a, inner.contains a → outer.contains a := by
  rw [covers_iff_agree]
  constructor
  · rintro ⟨longer, agree⟩ a inside
    rw [contains_iff] at inside ⊢
    exact (inside.mono longer).trans agree
  · intro included
    have first := (contains_iff _ _).mp (included inner.addr inner.contains_addr)
    refine ⟨?_, first⟩
    by_contra shorter
    -- Flipping the first free bit of the inner block leaves the inner block only.
    have room : inner.bits < w := by have := outer.bits_le; omega
    have inside : ∀ base : BitVec w, Agree inner.bits base inner.addr →
        base.getMsbD inner.bits = outer.addr.getMsbD inner.bits := by
      intro base agree
      exact (contains_iff _ _).mp (included base ((contains_iff _ _).mpr agree)) _ (by omega)
    have set := inside (setBit inner.addr inner.bits) (by
      intro i below
      have apart : ¬ i = inner.bits := by omega
      simp [getMsbD_setBit _ _ _ room, apart])
    have cleared := inside (clearFrom inner.bits inner.addr)
      (agree_clearFrom inner.bits inner.bits_le inner.addr)
    rw [getMsbD_setBit _ _ _ room] at set
    rw [getMsbD_clearFrom _ inner.bits_le] at cleared
    simp [← set] at cleared

theorem covers_masked : outer.masked.covers inner.masked = outer.covers inner := by
  rw [Bool.eq_iff_iff, covers_iff, covers_iff]
  simp [contains_masked]

theorem covers_refl (block : Cidr w) : block.covers block := by
  simp [covers, contains_addr]

theorem covers_trans {a b c : Cidr w} (first : a.covers b) (second : b.covers c) : a.covers c := by
  rw [covers_iff] at *
  exact fun word inside => first word (second word inside)

/-- Blocks that share a word are nested, the one with fewer bits outside. -/
theorem covers_of_overlap {outer inner : Cidr w} (le : outer.bits ≤ inner.bits)
    (inOuter : outer.contains a) (inInner : inner.contains a) : outer.covers inner := by
  rw [contains_iff] at inOuter inInner
  exact (covers_iff_agree _ _).mpr ⟨le, (inInner.mono le).symm.trans inOuter⟩

/-- Masked blocks are determined by the words they contain. -/
theorem eq_of_covers_of_masked {a b : Cidr w} (maskedA : a.masked = a) (maskedB : b.masked = b)
    (forward : a.covers b) (backward : b.covers a) : a = b := by
  rw [covers_iff_agree] at forward backward
  have bits : a.bits = b.bits := Nat.le_antisymm forward.1 backward.1
  obtain ⟨addrA, bitsA, leA⟩ := a
  obtain ⟨addrB, bitsB, leB⟩ := b
  simp only [masked, Cidr.mk.injEq, and_true] at maskedA maskedB bits forward
  subst bits
  have addr : addrA = addrB := by
    rw [← maskedA, ← maskedB, clearFrom_eq leA forward.2]
  simp [addr]

/-! ### First and last word, halves -/

/-- The last word of a block. -/
def last (block : Cidr w) : BitVec w := block.addr ||| (BitVec.allOnes w >>> block.bits)

theorem agree_last (block : Cidr w) : Agree block.bits block.last block.addr := by
  intro i below
  simp [last, below]

theorem contains_last (block : Cidr w) : block.contains block.last :=
  (contains_iff _ _).mpr block.agree_last

/-- Testing the last word as well as the first one adds nothing. -/
theorem covers_and_last :
    (decide (outer.bits ≤ inner.bits) && outer.contains inner.addr && outer.contains inner.last) =
      outer.covers inner := by
  change (outer.covers inner && outer.contains inner.last) = outer.covers inner
  cases included : outer.covers inner with
  | false => rfl
  | true => exact (covers_iff _ _).mp included _ inner.contains_last

/-! ### Blocks as intervals -/

variable (block : Cidr w) (room : block.bits < w) (upper : Bool)

theorem contains_iff_div (a : BitVec w) : block.contains a ↔
    a.toNat / 2 ^ (w - block.bits) = block.addr.toNat / 2 ^ (w - block.bits) := by
  rw [contains, beq_iff_eq, ← toNat_inj, toNat_ushiftRight, toNat_ushiftRight,
    Nat.shiftRight_eq_div_pow, Nat.shiftRight_eq_div_pow]

theorem toNat_masked : block.masked.addr.toNat =
    block.addr.toNat / 2 ^ (w - block.bits) * 2 ^ (w - block.bits) := by
  have small : block.addr.toNat / 2 ^ (w - block.bits) * 2 ^ (w - block.bits) < 2 ^ w :=
    Nat.lt_of_le_of_lt (Nat.div_mul_le_self _ _) block.addr.isLt
  show (clearFrom block.bits block.addr).toNat = _
  rw [clearFrom, toNat_shiftLeft, toNat_ushiftRight, Nat.shiftRight_eq_div_pow,
    Nat.shiftLeft_eq, Nat.mod_eq_of_lt small]

/-- A block is an interval that starts at its masked word. -/
theorem contains_iff_range (a : BitVec w) : block.contains a ↔
    block.masked.addr.toNat ≤ a.toNat ∧
      a.toNat < block.masked.addr.toNat + 2 ^ (w - block.bits) := by
  have positive : 0 < 2 ^ (w - block.bits) := Nat.two_pow_pos _
  rw [contains_iff_div, toNat_masked, Nat.div_eq_iff positive]
  omega

theorem range_le : block.masked.addr.toNat + 2 ^ (w - block.bits) ≤ 2 ^ w := by
  have width : 2 ^ w = 2 ^ block.bits * 2 ^ (w - block.bits) := by
    rw [← Nat.pow_add, Nat.add_sub_cancel' block.bits_le]
  have below : block.addr.toNat / 2 ^ (w - block.bits) < 2 ^ block.bits := by
    rw [Nat.div_lt_iff_lt_mul (Nat.two_pow_pos _), ← width]
    exact block.addr.isLt
  rw [toNat_masked, width, ← Nat.succ_mul]
  exact Nat.mul_le_mul_right _ below

/-- The half of a block whose next bit is `upper`, written with its first word. -/
def half : Cidr w where
  addr := if upper then setBit (clearFrom block.bits block.addr) block.bits
    else clearFrom block.bits block.addr
  bits := block.bits + 1
  bits_le := room

theorem getMsbD_half (i : Nat) :
    (block.half room upper).addr.getMsbD i =
      if i < block.bits then block.addr.getMsbD i else decide (i = block.bits) && upper := by
  cases upper with
  | false =>
    simp only [half, Bool.false_eq_true, if_false, getMsbD_clearFrom _ block.bits_le]
    by_cases below : i < block.bits <;> simp [below]
  | true =>
    simp only [half, if_true, getMsbD_setBit _ _ _ room, getMsbD_clearFrom _ block.bits_le]
    by_cases below : i < block.bits
    · have apart : ¬ i = block.bits := by omega
      simp [below, apart]
    · simp [below]

/-- A half holds the words of the block with that next bit. -/
theorem contains_half (a : BitVec w) :
    (block.half room upper).contains a ↔
      block.contains a ∧ a.getMsbD block.bits = upper := by
  rw [contains_iff, contains_iff]
  constructor
  · intro agree
    constructor
    · intro i below
      have bit := agree i (Nat.lt_succ_of_lt below)
      rw [bit, getMsbD_half, if_pos below]
    · have bit := agree block.bits (Nat.lt_succ_self _)
      rw [bit, getMsbD_half]
      simp
  · rintro ⟨agree, next⟩ i below
    rw [getMsbD_half]
    by_cases inside : i < block.bits
    · rw [if_pos inside, agree i inside]
    · have here : i = block.bits := by
        simp only [half] at below
        omega
      subst here
      simp [next]

theorem half_masked : (block.half room upper).masked = block.half room upper := by
  have addr : clearFrom (block.bits + 1) (block.half room upper).addr =
      (block.half room upper).addr := by
    apply eq_of_getMsbD_eq
    intro i _
    rw [getMsbD_clearFrom _ room, getMsbD_half]
    by_cases inside : i < block.bits + 1
    · simp [inside]
    · grind
  exact congrArg (fun word => Cidr.mk word (block.bits + 1) room) addr

theorem contains_iff_half (a : BitVec w) :
    block.contains a ↔
      (block.half room false).contains a ∨ (block.half room true).contains a := by
  rw [contains_half, contains_half]
  cases a.getMsbD block.bits <;> simp

/-- Clearing one bit further does not change a masked block's first word. -/
theorem clearFrom_succ_of_masked (fixed : block.masked = block) (room : block.bits < w) :
    clearFrom (block.bits + 1) block.addr = (block.half room false).addr := by
  have clear : clearFrom block.bits block.addr = block.addr := congrArg Cidr.addr fixed
  have same : (block.half room false).addr = block.addr := by
    simp [half, clear]
  rw [← same]
  exact congrArg Cidr.addr (half_masked block room false)

theorem clearFrom_setBit_of_masked (fixed : block.masked = block) (room : block.bits < w) :
    clearFrom (block.bits + 1) (setBit block.addr block.bits) = (block.half room true).addr := by
  have clear : clearFrom block.bits block.addr = block.addr := congrArg Cidr.addr fixed
  have same : (block.half room true).addr = setBit block.addr block.bits := by
    simp [half, clear]
  rw [← same]
  exact congrArg Cidr.addr (half_masked block room true)

/-- Of two nested masked blocks that differ, the outer one has fewer bits. -/
theorem bits_lt_of_covers {outer inner : Cidr w} (maskedOuter : outer.masked = outer)
    (maskedInner : inner.masked = inner) (included : outer.covers inner)
    (differ : outer ≠ inner) : outer.bits < inner.bits := by
  obtain ⟨le, agree⟩ := (covers_iff_agree _ _).mp included
  rcases Nat.lt_or_ge outer.bits inner.bits with lt | ge
  · exact lt
  · have bits : inner.bits = outer.bits := Nat.le_antisymm ge le
    have back : inner.covers outer :=
      (covers_iff_agree _ _).mpr ⟨ge, bits ▸ agree.symm⟩
    exact absurd (eq_of_covers_of_masked maskedOuter maskedInner included back) differ

theorem base_covers_half (base : Cidr w) (room : base.bits < w) (upper : Bool) :
    base.covers (base.half room upper) :=
  (covers_iff _ _).mpr fun a inside => ((contains_half base room upper a).mp inside).1

end Cidr
