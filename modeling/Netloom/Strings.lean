import Mathlib.Data.List.Sort
import Mathlib.Data.String.Basic
import Netloom.Lib.Text
import Netloom.Netip

/-!
# The string functions the source uses

Go strings are modelled by `String`, compared in code point order, which is the
order of their UTF-8 bytes. Case folding covers ASCII and the two other letters
that fold into it; all names the folded texts are compared with are ASCII.
-/
namespace Netloom.Strings

open List

/-- `unicode.IsSpace`. -/
def isSpace (c : Char) : Bool :=
  [0x09, 0x0a, 0x0b, 0x0c, 0x0d, 0x20, 0x85, 0xa0, 0x1680, 0x2028, 0x2029, 0x202f, 0x205f,
    0x3000].contains c.toNat || (0x2000 ≤ c.toNat && c.toNat ≤ 0x200a)

def trimSpace (s : String) : String :=
  String.ofList ((s.toList.dropWhile isSpace).reverse.dropWhile isSpace).reverse

def lowerRune (c : Char) : Char :=
  if 'A' ≤ c ∧ c ≤ 'Z' then Char.ofNat (c.toNat + 32)
  else if c.toNat = 0x130 then 'i'
  else if c.toNat = 0x212a then 'k'
  else c

def toLower (s : String) : String := String.ofList (s.toList.map lowerRune)

def hasSuffix (s suffix : String) : Bool := suffix.toList.isSuffixOf s.toList

def trimSuffix (s suffix : String) : String :=
  if hasSuffix s suffix then String.ofList (s.toList.take (s.toList.length - suffix.toList.length))
  else s

/-- `strings.ReplaceAll` for a single character that is removed. -/
def removeRune (s : String) (c : Char) : String := String.ofList (s.toList.filter (· ≠ c))

/-- Passes over `skip` characters of a text that was replaced, and replaces the next ones. -/
def replaceRunes (old new : List Char) : Nat → List Char → List Char
  | _, [] => []
  | skip + 1, _ :: rest => replaceRunes old new skip rest
  | 0, c :: rest =>
    if old.isPrefixOf (c :: rest) then new ++ replaceRunes old new (old.length - 1) rest
    else c :: replaceRunes old new 0 rest

/-- `strings.ReplaceAll` for a text that is not empty. -/
def replaceAll (s old new : String) : String :=
  String.ofList (replaceRunes old.toList new.toList 0 s.toList)

example : replaceAll "a=1,a=2" "a=" "bc=" = "bc=1,bc=2" := by decide +kernel

def hasPrefix (s start : String) : Bool := start.toList.isPrefixOf s.toList

def split (s : String) (separator : Char) : List String :=
  (List.splitOn separator s.toList).map String.ofList

def containsAny (s chars : String) : Bool := s.toList.any chars.toList.contains

/-- `sort.Strings` on a copy. -/
def sortStrings (values : List String) : List String := values.insertionSort (· ≤ ·)

theorem sortStrings_perm (values : List String) : (sortStrings values).Perm values :=
  perm_insertionSort _ _

@[simp] theorem mem_sortStrings {value : String} {values : List String} :
    value ∈ sortStrings values ↔ value ∈ values := (sortStrings_perm values).mem_iff

@[simp] theorem sortStrings_eq_nil {values : List String} : sortStrings values = [] ↔ values = [] := by
  rw [← length_eq_zero_iff, (sortStrings_perm values).length_eq, length_eq_zero_iff]

/-- What is sorted can be read off its characters. -/
theorem perm_of_sortStrings {left right : List String}
    (same : (sortStrings left).map String.toList = (sortStrings right).map String.toList) :
    left.Perm right := by
  have sorted := map_injective_iff.mpr (fun _ _ => String.toList_injective) same
  exact (sortStrings_perm left).symm.trans (sorted ▸ sortStrings_perm right)

theorem sortStrings_pairwise (values : List String) : (sortStrings values).Pairwise (· ≤ ·) :=
  pairwise_insertionSort _ _

/-- What is sorted does not depend on the order it came in. -/
theorem sortStrings_congr {left right : List String} (perm : left.Perm right) :
    sortStrings left = sortStrings right :=
  List.Perm.eq_of_pairwise (fun _ _ _ _ => le_antisymm) (sortStrings_pairwise left)
    (sortStrings_pairwise right)
    ((sortStrings_perm left).trans (perm.trans (sortStrings_perm right).symm))

/-! ### Trimming -/

theorem toList_trimSpace (s : String) : (trimSpace s).toList =
    ((s.toList.dropWhile isSpace).reverse.dropWhile isSpace).reverse := by
  rw [trimSpace, String.toList_ofList]

theorem trimSpace_sublist (s : String) : (trimSpace s).toList.Sublist s.toList := by
  rw [toList_trimSpace]
  have back := (dropWhile_sublist (l := (s.toList.dropWhile isSpace).reverse) isSpace).reverse
  rw [reverse_reverse] at back
  exact back.trans (dropWhile_sublist isSpace)

variable {s : String}

/-- A text that does not get shorter stays as it is. -/
theorem trimSpace_of_length (long : s.toList.length ≤ (trimSpace s).toList.length) :
    trimSpace s = s :=
  String.toList_injective ((trimSpace_sublist s).eq_of_length_le long)

theorem length_trimSpace_le (s : String) : (trimSpace s).toList.length ≤ s.toList.length :=
  (trimSpace_sublist s).length_le

variable {c : Char}

theorem count_dropWhile {p : Char → Bool} (other : p c = false) (chars : List Char) :
    (chars.dropWhile p).count c = chars.count c := by
  induction chars with
  | nil => rfl
  | cons first rest ih =>
    by_cases drops : p first
    · have differ : first ≠ c := by
        rintro rfl
        simp [other] at drops
      rw [dropWhile_cons_of_pos drops, ih, count_cons_of_ne differ]
    · rw [dropWhile_cons_of_neg drops]

/-- Trimming removes white space only. -/
theorem count_trimSpace (visible : isSpace c = false) (s : String) :
    (trimSpace s).toList.count c = s.toList.count c := by
  rw [toList_trimSpace, count_reverse, count_dropWhile visible, count_reverse,
    count_dropWhile visible]

theorem mem_trimSpace (visible : isSpace c = false) : c ∈ (trimSpace s).toList ↔ c ∈ s.toList := by
  rw [← count_pos_iff, ← count_pos_iff, count_trimSpace visible]

/-- `strings.TrimFunc`. -/
def trimFunc (p : Char → Bool) (chars : List Char) : List Char :=
  ((chars.dropWhile p).reverse.dropWhile p).reverse

/-- A text that has nothing to trim at its ends. -/
theorem trimFunc_eq_self {p : Char → Bool} {chars : List Char}
    (first : ∀ c ∈ chars.head?, p c = false) (last : ∀ c ∈ chars.getLast?, p c = false) :
    trimFunc p chars = chars := by
  have keeps : ∀ chars : List Char, (∀ c ∈ chars.head?, p c = false) →
      chars.dropWhile p = chars := by
    intro chars visible
    cases chars with
    | nil => rfl
    | cons c rest => exact dropWhile_cons_of_neg (by simp [visible c rfl])
  rw [trimFunc, keeps _ first, keeps _ (by simpa using last), reverse_reverse]

theorem trimSpace_eq_self (first : ∀ c ∈ s.toList.head?, isSpace c = false)
    (last : ∀ c ∈ s.toList.getLast?, isSpace c = false) : trimSpace s = s :=
  String.toList_injective ((toList_trimSpace s).trans (trimFunc_eq_self first last))

theorem head?_dropWhile_isSpace (chars : List Char) :
    ∀ c ∈ (chars.dropWhile isSpace).head?, isSpace c = false := by
  intro c member
  have := head?_dropWhile_not isSpace chars
  rw [Option.mem_def.mp member] at this
  simpa using this

theorem trimSpace_trimSpace (s : String) : trimSpace (trimSpace s) = trimSpace s := by
  refine trimSpace_eq_self ?_ ?_
  · intro c member
    rw [toList_trimSpace, head?_reverse] at member
    -- The first character that is left is also the first after the front was trimmed.
    refine head?_dropWhile_isSpace s.toList c ?_
    have suffix := dropWhile_suffix (l := (s.toList.dropWhile isSpace).reverse) isSpace
    obtain ⟨front, split⟩ := suffix
    have whole := congrArg getLast? split
    rw [getLast?_append, Option.mem_def.mp member, Option.some_or, getLast?_reverse]
      at whole
    exact whole.symm
  · intro c member
    rw [toList_trimSpace, getLast?_reverse] at member
    exact head?_dropWhile_isSpace _ c member

private def hexDigits (width n : Nat) : List Char :=
  let digits := Nat.toDigits 16 n
  List.replicate (width - digits.length) '0' ++ digits

def doubleQuote : Char := Char.ofNat 0x22

def singleQuote : Char := Char.ofNat 0x27

def backslash : Char := Char.ofNat 0x5c

/-- One rune as `strconv.Quote` writes it inside the given quotation mark. Runes
above ASCII are taken as printable. -/
def quoteRuneBody (mark c : Char) : List Char :=
  if c = mark ∨ c = backslash then [backslash, c]
  else if 0x20 ≤ c.toNat ∧ c.toNat ≠ 0x7f then [c]
  else match c.toNat with
    | 7 => [backslash, 'a']
    | 8 => [backslash, 'b']
    | 9 => [backslash, 't']
    | 10 => [backslash, 'n']
    | 11 => [backslash, 'v']
    | 12 => [backslash, 'f']
    | 13 => [backslash, 'r']
    | code => [backslash, 'x'] ++ hexDigits 2 code

/-- The verb `%q` on a string. -/
def quote (s : String) : String :=
  String.ofList (doubleQuote :: s.toList.flatMap (quoteRuneBody doubleQuote) ++ [doubleQuote])

/-- The verb `%q` on a rune. -/
def quoteRune (c : Char) : String :=
  String.ofList (singleQuote :: quoteRuneBody singleQuote c ++ [singleQuote])

/-! ### `net.ParseMAC` -/

def isHexDigit (c : Char) : Bool :=
  ('0' ≤ c && c ≤ '9') || ('a' ≤ c && c ≤ 'f') || ('A' ≤ c && c ≤ 'F')

/-- The digits of a hardware address: pairs after `:` or `-`, or fours after `.`,
of 6, 8 or 20 bytes. -/
def macDigits (s : String) : Option (List Char) :=
  let chars := s.toList
  let separated (separator : Char) (width : Nat) (counts : List Nat) : Option (List Char) :=
    let pieces := List.splitOn separator chars
    if pieces.all (fun piece => piece.length == width && piece.all isHexDigit) &&
        counts.contains pieces.length
      then some pieces.flatten else none
  if s.utf8ByteSize < 14 then none
  else if chars[2]? = some ':' then separated ':' 2 [6, 8, 20]
  else if chars[2]? = some '-' then separated '-' 2 [6, 8, 20]
  else if chars[4]? = some '.' then separated '.' 4 [3, 4, 10]
  else none

def parseMAC (s : String) : Except String (List Char) :=
  match macDigits s with
  | some digits => .ok digits
  | none => .error s!"address {s}: invalid MAC address"

end Netloom.Strings
