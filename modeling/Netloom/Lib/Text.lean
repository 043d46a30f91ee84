import Mathlib.Algebra.Order.BigOperators.Group.List
import Mathlib.Data.List.Basic
import Mathlib.Data.Nat.Digits.Lemmas

/-!
# Texts that determine their parts

Numerals in a base up to sixteen are injective, use no punctuation and are read
back by `readDigits`. Texts joined by a separator that occurs in none of the
pieces determine the pieces.
-/
namespace Text

open List

variable (base : Nat)

theorem mem_toDigits (above : 1 < base) (n : Nat) (c : Char)
    (member : c ∈ Nat.toDigits base n) : ∃ digit < base, c = Nat.digitChar digit := by
  induction n using Nat.strongRecOn with
  | ind n ih =>
    rw [Nat.toDigits_eq_if above] at member
    split at member
    · next small => exact ⟨n, small, by simpa using member⟩
    · next large =>
      rcases mem_append.mp member with front | back
      · exact ih (n / base) (Nat.div_lt_self (by omega) above) front
      · exact ⟨n % base, Nat.mod_lt _ (by omega), by simpa using back⟩

/-- A separator that is no digit does not occur in a numeral. -/
theorem notMem_toDigits (above : 1 < base) (n : Nat) (c : Char)
    (noDigit : ∀ digit, Nat.digitChar digit ≠ c) : c ∉ Nat.toDigits base n := by
  intro member
  obtain ⟨digit, _, equal⟩ := mem_toDigits base above n c member
  exact noDigit digit equal.symm

/-- Digits end with `f`; whatever is beyond is written as a star. -/
theorem forall_digitChar {P : Char → Prop} (digits : ∀ digit < 16, P (Nat.digitChar digit))
    (star : P '*') (digit : Nat) : P (Nat.digitChar digit) := by
  rcases Nat.lt_or_ge digit 16 with small | large
  · exact digits digit small
  · have beyond : Nat.digitChar digit = '*' := by
      unfold Nat.digitChar
      repeat rw [if_neg (by omega)]
    exact beyond ▸ star

/-! ### Reading numerals -/

/-- The value of a digit; letters count in both cases. -/
def digitValue (c : Char) : Option Nat :=
  if '0' ≤ c ∧ c ≤ '9' then some (c.toNat - '0'.toNat)
  else if 'a' ≤ c ∧ c ≤ 'f' then some (c.toNat - 'a'.toNat + 10)
  else if 'A' ≤ c ∧ c ≤ 'F' then some (c.toNat - 'A'.toNat + 10)
  else none

def readDigit (base : Nat) (value : Nat) (c : Char) : Option Nat :=
  match digitValue c with
  | some digit => if digit < base then some (value * base + digit) else none
  | none => none

/-- The number a text of digits stands for; the empty text stands for none. -/
def readDigits (base : Nat) (chars : List Char) : Option Nat :=
  if chars = [] then none else chars.foldlM (readDigit base) 0

private theorem digitValue_digitChar : ∀ digit < 16, digitValue (Nat.digitChar digit) = some digit := by
  decide

theorem readDigits_toDigits (above : 1 < base) (below : base ≤ 16) (n : Nat) :
    readDigits base (Nat.toDigits base n) = some n := by
  have scan : (Nat.toDigits base n).foldlM (readDigit base) 0 = some n := by
    induction n using Nat.strongRecOn with
    | ind n ih =>
      rcases Nat.lt_or_ge n base with small | large
      · simp [Nat.toDigits_of_lt_base small, readDigit, digitValue_digitChar n (by omega), small]
      · -- The last digit is the remainder; what stands before it is the quotient.
        have last : n % base < base := Nat.mod_lt _ (by omega)
        rw [Nat.toDigits_of_base_le above large, foldlM_append,
          ih (n / base) (Nat.div_lt_self (by omega) above)]
        simp [readDigit, digitValue_digitChar (n % base) (by omega), last, Nat.div_add_mod']
  rw [readDigits, if_neg Nat.toDigits_ne_nil, scan]

theorem toDigits_injective (above : 1 < base) (below : base ≤ 16) (m n : Nat)
    (equal : Nat.toDigits base m = Nat.toDigits base n) : m = n := by
  have read := readDigits_toDigits base above below m
  rw [equal, readDigits_toDigits base above below n] at read
  exact (Option.some.inj read).symm

variable {c : Char}

/-- Only digits are read. -/
theorem notMem_of_readDigits {base : Nat} {chars : List Char} {value : Nat}
    (read : readDigits base chars = some value) (noValue : digitValue c = none) : c ∉ chars := by
  unfold readDigits at read
  split at read
  · simp at read
  · suffices general : ∀ start, chars.foldlM (readDigit base) start = some value → c ∉ chars from
      general 0 read
    clear read
    induction chars with
    | nil => simp
    | cons first rest ih =>
      intro start read
      rw [foldlM_cons, Option.bind_eq_bind, Option.bind_eq_some_iff] at read
      obtain ⟨next, head, tail⟩ := read
      rw [mem_cons, not_or]
      refine ⟨?_, ?_⟩
      · rintro rfl
        simp [readDigit, noValue] at head
      · cases rest with
        | nil => simp
        | cons second rest => exact ih (by simp) next tail

/-! ### Joined texts -/

/-- Pieces free of the separator are recovered from the joined text. -/
theorem join_injective (separator : Char) (left right : List (List Char))
    (leftFree : ∀ piece ∈ left, separator ∉ piece)
    (rightFree : ∀ piece ∈ right, separator ∉ piece) (leftSome : left ≠ []) (rightSome : right ≠ [])
    (equal : intercalate [separator] left = intercalate [separator] right) :
    left = right := by
  rw [← splitOn_intercalate separator leftFree leftSome, equal,
    splitOn_intercalate separator rightFree rightSome]

variable {pieces : List (List Char)}

theorem mem_intercalate {separator : List Char} (member : c ∈ intercalate separator pieces) :
    c ∈ separator ∨ ∃ piece ∈ pieces, c ∈ piece := by
  induction pieces with
  | nil => simp at member
  | cons piece rest ih =>
    cases rest with
    | nil => exact .inr ⟨piece, by simp, by simpa using member⟩
    | cons next rest =>
      rw [intercalate_cons_cons] at member
      simp only [mem_append] at member
      rcases member with (front | same) | back
      · exact .inr ⟨piece, by simp, front⟩
      · exact .inl same
      · rcases ih back with same | ⟨found, inside, char⟩
        · exact .inl same
        · exact .inr ⟨found, mem_cons_of_mem _ inside, char⟩

variable {separator : Char}

theorem mem_join (member : c ∈ intercalate [separator] pieces) :
    c = separator ∨ ∃ piece ∈ pieces, c ∈ piece := by
  simpa using mem_intercalate member

/-- Joined texts are free of what none of them and no separator has. -/
theorem notMem_intercalate {separator : List Char} (apart : c ∉ separator)
    (free : ∀ piece ∈ pieces, c ∉ piece) :
    c ∉ intercalate separator pieces := by
  intro member
  rcases mem_intercalate member with inside | ⟨piece, listed, inside⟩
  · exact apart inside
  · exact free piece listed inside

theorem separator_mem_join (separator : Char) (pieces : List (List Char))
    (several : 2 ≤ pieces.length) : separator ∈ intercalate [separator] pieces := by
  match pieces, several with
  | first :: second :: rest, _ => simp

/-- A joined text is cut into what its pieces are cut into. -/
theorem splitOn_join (separator : Char) (some : pieces ≠ []) :
    splitOn separator (intercalate [separator] pieces) =
      pieces.flatMap (splitOn separator) := by
  induction pieces with
  | nil => exact absurd rfl some
  | cons piece rest ih =>
    cases rest with
    | nil => simp
    | cons next rest =>
      rw [intercalate_cons_cons, append_assoc, singleton_append, splitOn_append_cons_self,
        ih (by simp), ← flatMap_cons]

/-- What adds up over texts adds up over a joined text. -/
theorem measure_join (separator : Char) (measure : List Char → Nat)
    (append : ∀ a b, measure (a ++ b) = measure a + measure b) (pieces : List (List Char)) :
    measure (intercalate [separator] pieces) =
      (pieces.map measure).sum + (pieces.length - 1) * measure [separator] := by
  induction pieces with
  | nil =>
    have empty := append [] []
    simp_all
  | cons piece rest ih =>
    cases rest with
    | nil => simp
    | cons next rest =>
      rw [intercalate_cons_cons, append, append, ih]
      simp only [map_cons, sum_cons, length_cons, Nat.add_sub_cancel]
      ring

theorem notMem_of_mem_splitOn {chars piece : List Char}
    (member : piece ∈ splitOn separator chars) : separator ∉ piece := by
  induction n : chars.length using Nat.strong_induction_on generalizing chars with
  | _ n ih =>
    subst n
    by_cases inside : separator ∈ chars
    · -- The first piece ends at the first separator, and the others are cut from the rest.
      obtain ⟨front, rest, rfl, free⟩ := eq_append_cons_of_mem inside
      rw [splitOn_append_cons_self_of_not_mem free, mem_cons] at member
      rcases member with rfl | later
      · exact free
      · exact ih rest.length (by rw [length_append, length_cons]; omega) later rfl
    · rw [splitOn_eq_singleton inside, mem_singleton] at member
      exact member ▸ inside

theorem length_splitOn (separator : Char) (chars : List Char) :
    (splitOn separator chars).length = chars.count separator + 1 := by
  have counted := measure_join separator (count separator) (fun _ _ => count_append)
    (splitOn separator chars)
  have none : ((splitOn separator chars).map (count separator)).sum = 0 := by
    refine sum_eq_zero fun n member => ?_
    obtain ⟨piece, inside, rfl⟩ := mem_map.mp member
    exact count_eq_zero_of_not_mem (notMem_of_mem_splitOn inside)
  have some : 0 < (splitOn separator chars).length :=
    length_pos_iff.mpr (splitOnP_ne_nil _ _)
  rw [intercalate_splitOn, none, count_singleton_self] at counted
  omega

theorem count_splitOn (other : c ≠ separator) (chars : List Char) :
    ((splitOn separator chars).map (count c)).sum = chars.count c := by
  have counted := measure_join separator (count c) (fun _ _ => count_append)
    (splitOn separator chars)
  have none : count c [separator] = 0 := count_eq_zero.mpr (by simpa using other)
  rw [intercalate_splitOn, none] at counted
  omega

/-! ### Sums of measures -/

/-- Terms that are not greater and have the same sum are the same. -/
theorem eq_of_sum_eq {α : Type} {f g : α → Nat} {items : List α} (le : ∀ a ∈ items, f a ≤ g a)
    (sums : (items.map f).sum = (items.map g).sum) : ∀ a ∈ items, f a = g a := by
  have total : ∀ rest : List α, (∀ a ∈ rest, f a ≤ g a) → (rest.map f).sum ≤ (rest.map g).sum :=
    fun rest le => sum_le_sum le
  induction items with
  | nil => simp
  | cons first rest ih =>
    grind

/-- A selection that keeps every item with its measure keeps the sum. -/
theorem sum_filterMap {α β : Type} {f : α → Option β} {μ : β → Nat} {ν : α → Nat} {items : List α}
    (all : ∀ a ∈ items, (f a).isSome) (same : ∀ a ∈ items, ∀ b, f a = some b → μ b = ν a) :
    ((items.filterMap f).map μ).sum = (items.map ν).sum := by
  induction items with
  | nil => rfl
  | cons first rest ih =>
    obtain ⟨value, found⟩ := Option.isSome_iff_exists.mp (all first mem_cons_self)
    rw [filterMap_cons_some found, map_cons, map_cons, sum_cons, sum_cons,
      same first mem_cons_self value found,
      ih (fun a member => all a (mem_cons_of_mem _ member))
        (fun a member => same a (mem_cons_of_mem _ member))]

/-! ### Cutting once -/

variable {a b d : List Char}

/-- A text before a separator or the end is found in one way. -/
theorem cut_or_end {c : List Char} (free : separator ∉ a) (free' : separator ∉ c)
    (ends : ∀ x ∈ b.head?, x = separator) (ends' : ∀ x ∈ d.head?, x = separator)
    (equal : a ++ b = c ++ d) : a = c := by
  have front : ∀ {front back : List Char}, separator ∉ front →
      (∀ x ∈ back.head?, x = separator) →
      (front ++ back).takeWhile (fun x => x ≠ separator) = front := by
    intro front back free ends
    rw [takeWhile_append_of_pos fun x member => by
      simpa using ne_of_mem_of_not_mem member free]
    cases back with
    | nil => simp
    | cons x rest => simp [ends x (by simp)]
  rw [← front free ends, equal, front free' ends']

/-- A text is cut at its only separator in one way. -/
theorem cut_injective {c : List Char} (free : separator ∉ a) (free' : separator ∉ c)
    (equal : a ++ separator :: b = c ++ separator :: d) : a = c ∧ b = d := by
  obtain rfl := cut_or_end free free' (by simp) (by simp) equal
  exact ⟨rfl, by simpa using equal⟩

/-- The same cut from the right. -/
theorem cut_injective_right {c : List Char} (free : separator ∉ b) (free' : separator ∉ d)
    (equal : a ++ separator :: b = c ++ separator :: d) : a = c ∧ b = d := by
  have reversed := congrArg reverse equal
  simp only [reverse_append, reverse_cons, append_assoc, singleton_append]
    at reversed
  obtain ⟨right, left⟩ := cut_injective (by simpa using free) (by simpa using free') reversed
  exact ⟨reverse_injective left, reverse_injective right⟩

/-- Two texts that are followed by the same character, and in another place by the same
other character, are the same. -/
theorem eq_of_two_cuts {x y : Char} (differ : x ≠ y) {c b' d' : List Char}
    (first : a ++ x :: b = c ++ x :: d) (second : a ++ y :: b' = c ++ y :: d') : a = c := by
  -- What one is longer by would start with both characters.
  have nothing : ∀ {middle b d b' d' : List Char}, x :: b = middle ++ x :: d →
      y :: b' = middle ++ y :: d' → middle = [] := by
    intro middle b d b' d' first second
    cases middle with
    | nil => rfl
    | cons z middle =>
      grind
  rcases append_eq_append_iff.mp first with ⟨middle, rfl, rest⟩ | ⟨middle, rfl, rest⟩
  all_goals rw [append_assoc] at second
  · rw [nothing rest (append_cancel_left second), append_nil]
  · rw [nothing rest (append_cancel_left second).symm, append_nil]

/-! ### Joined pieces that tell where they end -/

/-- Pieces that are told from what follows them are recovered from the joined text, if what
follows the last of them does not start like a separator. -/
theorem pieces_injective {separator final final' : List Char} (ends : ¬ separator <+: final)
    (ends' : ¬ separator <+: final') {pieces' : List (List Char)} (some : pieces ≠ [])
    (some' : pieces' ≠ []) (told : ∀ piece ∈ pieces, ∀ piece' ∈ pieces', ∀ rest rest',
      piece ++ rest = piece' ++ rest' → piece = piece')
    (equal : intercalate separator pieces ++ final =
      intercalate separator pieces' ++ final') : pieces = pieces' := by
  induction pieces generalizing pieces' with
  | nil => exact absurd rfl some
  | cons piece rest ih =>
    obtain ⟨piece', rest', rfl⟩ := exists_cons_of_ne_nil some'
    -- what follows the first piece is a separator, or the end
    have after : ∀ (first : List Char) (more : List (List Char)) (last : List Char),
        intercalate separator (first :: more) ++ last = first ++ match more with
          | [] => last
          | _ :: _ => separator ++ (intercalate separator more ++ last) := by
      intro first more last
      cases more with
      | nil => simp
      | cons second more => simp [intercalate_cons_cons]
    rw [after, after] at equal
    obtain rfl := told piece (by simp) piece' (by simp) _ _ equal
    have same := append_cancel_left equal
    cases rest with
    | nil =>
      cases rest' with
      | nil => rfl
      | cons _ _ => exact absurd ⟨_, same.symm⟩ ends
    | cons second rest =>
      cases rest' with
      | nil => exact absurd ⟨_, same⟩ ends'
      | cons second' rest' =>
        rw [ih (by simp) (by simp)
          (fun a inA b inB => told a (mem_cons_of_mem _ inA) b (mem_cons_of_mem _ inB))
          (append_cancel_left same)]

/-- Texts joined in front of the same others are recovered, whatever follows. -/
theorem front_injective {front front' back : List (List Char)}
    (free : ∀ piece ∈ front, separator ∉ piece) (free' : ∀ piece ∈ front', separator ∉ piece)
    (lengths : front.length = front'.length) (some : back ≠ []) {rest rest' : List Char}
    (equal : intercalate [separator] (front ++ back) ++ rest =
      intercalate [separator] (front' ++ back) ++ rest') : front = front' := by
  induction front generalizing front' with
  | nil => exact (eq_nil_of_length_eq_zero lengths.symm).symm
  | cons piece front ih =>
    obtain ⟨piece', front', rfl⟩ := exists_cons_of_length_eq_add_one lengths.symm
    have after : ∀ (first : List Char) (more : List (List Char)) (last : List Char),
        intercalate [separator] (first :: more ++ back) ++ last =
          first ++ separator :: (intercalate [separator] (more ++ back) ++ last) := by
      intro first more last
      rw [cons_append, intercalate_cons_of_ne_nil (append_ne_nil_of_right_ne_nil more some)]
      simp
    rw [after, after] at equal
    obtain ⟨rfl, others⟩ := cut_injective (free piece (by simp)) (free' piece' (by simp)) equal
    rw [ih (fun a member => free a (mem_cons_of_mem _ member))
      (fun a member => free' a (mem_cons_of_mem _ member)) (by simpa using lengths) others]

end Text
