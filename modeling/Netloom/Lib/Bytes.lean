import Mathlib.Data.BitVec
import Mathlib.Tactic.Ring

/-!
# Bytes and numbers

The number a string of bytes stands for, most significant byte first, the bytes
of a number, and the two byte orders a host can store numbers in.
-/
namespace Netloom

open List

/-- The byte order of the host. -/
inductive Endian where
  | little
  | big
  deriving DecidableEq, Repr

namespace Bytes

abbrev Byte := BitVec 8

/-- The number a string of bytes stands for, most significant byte first. -/
def value (bytes : List Byte) : Nat := bytes.foldl (fun number byte => number * 256 + byte.toNat) 0

/-- The lowest `n` bytes of a number, most significant byte first. -/
def digits : Nat → Nat → List Byte
  | 0, _ => []
  | n + 1, number => digits n (number / 256) ++ [BitVec.ofNat 8 number]

variable (host : Endian) (n number : Nat)

/-- The bytes of a number as the host stores them. -/
def native : List Byte :=
  match host with
  | .little => (digits n number).reverse
  | .big => digits n number

/-- The number the host reads from bytes in memory. -/
def ofNative (bytes : List Byte) : Nat :=
  match host with
  | .little => value bytes.reverse
  | .big => value bytes

/-- The number whose bytes in memory are those of the given number in network order. -/
def toNetwork : Nat := ofNative host (digits n number)

variable (bytes : List Byte)

private theorem foldl_value (start : Nat) :
    bytes.foldl (fun number byte => number * 256 + byte.toNat) start =
      start * 256 ^ bytes.length + value bytes := by
  induction bytes generalizing start with
  | nil => simp [value]
  | cons byte rest ih =>
    rw [value, foldl_cons, foldl_cons, ih, ih (0 * 256 + byte.toNat), length_cons]
    ring

@[simp] theorem value_nil : value [] = 0 := rfl

@[simp] theorem value_singleton (byte : Byte) : value [byte] = byte.toNat := by simp [value]

theorem value_append (first second : List Byte) :
    value (first ++ second) = value first * 256 ^ second.length + value second := by
  rw [value, foldl_append, foldl_value]
  rfl

theorem value_lt : value bytes < 256 ^ bytes.length := by
  induction bytes using reverseRecOn with
  | nil => simp
  | append_singleton rest byte ih =>
    have small := byte.isLt
    rw [value_append, length_append, pow_add]
    simp only [length_singleton, pow_one, value_singleton]
    omega

@[simp] theorem length_digits : (digits n number).length = n := by
  induction n generalizing number with
  | zero => rfl
  | succ n ih => simp [digits, ih]

@[simp] theorem length_native : (native host n number).length = n := by
  cases host <;> simp [native]

/-- The bytes of the number of a string are the string. -/
@[simp] theorem digits_value : digits bytes.length (value bytes) = bytes := by
  induction bytes using reverseRecOn with
  | nil => rfl
  | append_singleton rest byte ih =>
    have small := byte.isLt
    have tail : value (rest ++ [byte]) = value rest * 256 + byte.toNat := by
      rw [value_append]
      simp
    have front : (value rest * 256 + byte.toNat) / 256 = value rest := by omega
    have last : BitVec.ofNat 8 (value rest * 256 + byte.toNat) = byte := by
      apply BitVec.eq_of_toNat_eq
      rw [BitVec.toNat_ofNat]
      omega
    rw [length_append, length_singleton, tail, digits, front, last, ih]

/-- The number of the bytes of a number is its remainder. -/
theorem value_digits (n number : Nat) : value (digits n number) = number % 256 ^ n := by
  induction n generalizing number with
  | zero => simp [digits, Nat.mod_one]
  | succ n ih =>
    have split : number % (256 * 256 ^ n) = number % 256 + 256 * (number / 256 % 256 ^ n) :=
      Nat.mod_mul
    rw [digits, value_append, ih, length_singleton, pow_one, value_singleton, BitVec.toNat_ofNat,
      pow_succ' 256 n, split]
    omega

/-- Only the remainder of a number is stored. -/
theorem digits_mod (n number : Nat) : digits n (number % 256 ^ n) = digits n number := by
  have both := digits_value (digits n number)
  rwa [value_digits, length_digits] at both

theorem native_mod (n number : Nat) : native host n (number % 256 ^ n) = native host n number := by
  cases host <;> simp [native, digits_mod]

variable {n : Nat}

/-- Storing a number from a wider register. -/
theorem native_mod_of_dvd {wide : Nat} (number : Nat) (fits : 256 ^ n ∣ wide) :
    native host n (number % wide) = native host n number := by
  rw [← native_mod, Nat.mod_mod_of_dvd _ fits, native_mod]

theorem toNetwork_mod_of_dvd {wide : Nat} (number : Nat) (fits : 256 ^ n ∣ wide) :
    toNetwork host n (number % wide) = toNetwork host n number := by
  rw [toNetwork, ← digits_mod, Nat.mod_mod_of_dvd _ fits, digits_mod, toNetwork]

/-- What is stored after conversion to network order are the bytes in network order. -/
theorem native_toNetwork :
    native host bytes.length (toNetwork host bytes.length (value bytes)) = bytes := by
  cases host with
  | little =>
    have turned := digits_value bytes.reverse
    rw [length_reverse] at turned
    rw [native, toNetwork, digits_value, ofNative, turned, reverse_reverse]
  | big => rw [native, toNetwork, digits_value, ofNative, digits_value]

/-- A single byte is stored alike on every host. -/
theorem native_one {bytes : List Byte} (one : bytes.length = 1) :
    native host 1 (value bytes) = bytes := by
  obtain ⟨byte, rfl⟩ := length_eq_one_iff.mp one
  have digits : digits 1 (value [byte]) = [byte] := digits_value [byte]
  cases host <;> simp only [native, digits, reverse_singleton]

/-- Reading back what was stored. -/
theorem ofNative_native (n number : Nat) :
    ofNative host (native host n number) = number % 256 ^ n := by
  cases host with
  | little => rw [ofNative, native, reverse_reverse, value_digits]
  | big => rw [ofNative, native, value_digits]

/-! ### Words -/

theorem toNat_append {m : Nat} (first : BitVec m) (second : BitVec n) :
    (first ++ second).toNat = first.toNat * 2 ^ n + second.toNat := by
  rw [BitVec.toNat_append, ← Nat.shiftLeft_add_eq_or_of_lt second.isLt, Nat.shiftLeft_eq]

/-- The word of a string of bytes. -/
def word (n : Nat) (bytes : List Byte) : BitVec n := BitVec.ofNat n (value bytes)

theorem toNat_word {bytes : List Byte} (fits : 8 * bytes.length ≤ n) :
    (word n bytes).toNat = value bytes := by
  have small := value_lt bytes
  have bound : 256 ^ bytes.length ≤ 2 ^ n := by
    rw [show 256 = 2 ^ 8 by norm_num, ← pow_mul]
    exact Nat.pow_le_pow_right (by norm_num) fits
  rw [word, BitVec.toNat_ofNat, Nat.mod_eq_of_lt (by omega)]

/-- Words of strings are appended as the strings are. -/
theorem word_append {m : Nat} {first second : List Byte} (fits : 8 * first.length ≤ m)
    (whole : 8 * second.length = n) :
    word (m + n) (first ++ second) = word m first ++ word n second := by
  apply BitVec.eq_of_toNat_eq
  have both : 8 * (first ++ second).length ≤ m + n := by
    rw [length_append]
    omega
  rw [toNat_append, toNat_word fits, toNat_word whole.le, toNat_word both, value_append, ← whole,
    pow_mul]
  norm_num

end Bytes

end Netloom
