import Mathlib.Data.List.TakeWhile
import Netloom.Lib.Text
import Netloom.Netip

/-!
# The texts of addresses and prefixes

Which characters the texts have, and how the pieces between the colons of an IPv6
address show its groups, the empty piece standing for the run of zeros. `parseAddr`
follows what `netip.ParseAddr` documents: four decimal fields without superfluous
zeros, or up to eight hexadecimal fields of which one run may be left out, the last
two possibly in dotted form, with an optional zone.
-/
namespace Netloom.Netip

open List Text

/-! ### Numerals -/

theorem decimal_eq (n : Nat) : decimal n = Nat.toDigits 10 n := by
  rw [decimal, Nat.repr_eq_ofList_toDigits, String.toList_ofList]

variable {m n : Nat}

theorem decimal_injective (equal : decimal m = decimal n) : m = n := by
  rw [decimal_eq, decimal_eq] at equal
  exact toDigits_injective 10 (by omega) (by omega) m n equal

theorem notMem_decimal (n : Nat) (c : Char) (noDigit : ∀ digit, Nat.digitChar digit ≠ c) :
    c ∉ decimal n := by
  rw [decimal_eq]
  exact notMem_toDigits 10 (by omega) n c noDigit

theorem notMem_hex (n : Nat) (c : Char) (noDigit : ∀ digit, Nat.digitChar digit ≠ c) :
    c ∉ hex n := notMem_toDigits 16 (by omega) n c noDigit

variable (digit : Nat)

theorem digit_ne_dot : Nat.digitChar digit ≠ '.' :=
  Nat.digitChar_ne '.' (by decide)

theorem digit_ne_colon : Nat.digitChar digit ≠ ':' :=
  Nat.digitChar_ne ':' (by decide)

theorem digit_ne_slash : Nat.digitChar digit ≠ '/' :=
  Nat.digitChar_ne '/' (by decide)

/-! ### IPv4 -/

theorem notMem_text4 (word : BitVec 32) (c : Char) (noDot : c ≠ '.')
    (noDigit : ∀ digit, Nat.digitChar digit ≠ c) : c ∉ text4 word := by
  intro member
  rcases mem_join member with same | ⟨piece, inside, char⟩
  · exact noDot same
  · obtain ⟨byte, _, rfl⟩ := mem_map.mp inside
    exact notMem_decimal _ _ noDigit char

theorem dot_mem_text4 (word : BitVec 32) : '.' ∈ text4 word := by
  simp [text4, bytes4]

/-! ### IPv6 -/

@[simp] theorem length_groups6 (word : BitVec 128) : (groups6 word).length = 8 := by
  simp [groups6]

variable (groups : List (BitVec 16))

/-- A zero run has at least two groups, lies inside the eight and is all zeros. -/
theorem zeroRun_spec (eight : groups.length = 8)
    (first after : Nat) (found : zeroRun groups = some (first, after)) :
    first + 2 ≤ after ∧ after ≤ 8 ∧
      groups = groups.take first ++ replicate (after - first) 0 ++ groups.drop after := by
  let Good : Option (Nat × Nat) → Prop := fun best => ∀ run, best = some run →
    run.1 + 2 ≤ run.2 ∧ run.2 ≤ 8 ∧ ((groups.drop run.1).take (run.2 - run.1)) =
      replicate (run.2 - run.1) 0
  -- Every candidate the scan can choose is good, whatever it has chosen before.
  have step : ∀ best i, Good best → Good (if 2 ≤ zeroRunAt groups i ∧
      (best.elim 0 fun run => run.2 - run.1) < zeroRunAt groups i
        then some (i, i + zeroRunAt groups i) else best) := by
    intro best i good run chosen
    split at chosen
    · next long =>
      cases chosen
      have front : (groups.drop i).takeWhile (· == 0) <+: groups.drop i := takeWhile_prefix _
      have whole : zeroRunAt groups i ≤ (groups.drop i).length := front.length_le
      simp only [length_drop, eight] at whole
      refine ⟨by simp only; omega, by simp only; omega, ?_⟩
      simp only [Nat.add_sub_cancel_left]
      have taken : (groups.drop i).take (zeroRunAt groups i) = (groups.drop i).takeWhile (· == 0) :=
        (prefix_iff_eq_take.mp front).symm
      rw [taken, eq_replicate_iff]
      exact ⟨rfl, fun group member => by simpa using mem_takeWhile_imp member⟩
    · exact good run chosen
  obtain ⟨long, inside, zeros⟩ := foldlRecOn (motive := Good) (range 8) _ (by simp [Good])
    (fun best good i _ => step best i good) _ found
  refine ⟨long, inside, ?_⟩
  simp only at zeros long inside
  rw [← zeros, append_assoc]
  have rest : groups.drop after = (groups.drop first).drop (after - first) := by
    rw [drop_drop]
    congr 1
    omega
  rw [rest, take_append_drop, take_append_drop]

theorem mem_texts_ne_nil (piece : List Char)
    (member : piece ∈ groups.map fun group => hex group.toNat) : piece ≠ [] := by
  obtain ⟨group, _, rfl⟩ := mem_map.mp member
  exact Nat.toDigits_ne_nil

/-- The pieces before the first empty one are the groups before the run. -/
theorem front_pieces (front back : List (List Char)) (full : ∀ piece ∈ front, piece ≠ []) :
    (((if front.length = 0 then [[]] else front) ++ [[]] ++ back).takeWhile (· ≠ [])) = front := by
  cases front with
  | nil => simp
  | cons piece rest =>
    simp only [length_cons, Nat.add_one_ne_zero, if_false, append_assoc]
    rw [takeWhile_append_of_pos (by simpa using full)]
    simp

/-- The pieces after the last empty one are the groups after the run. -/
theorem back_pieces (front back : List (List Char)) (full : ∀ piece ∈ back, piece ≠ []) :
    ((front ++ [[]] ++ (if back.length = 0 then [[]] else back)).reverse.takeWhile (· ≠ [])) =
      back.reverse := by
  cases back with
  | nil => simp
  | cons piece rest =>
    simp only [length_cons, Nat.add_one_ne_zero, if_false, reverse_append]
    rw [takeWhile_append_of_pos (by simpa [or_comm, forall_and] using full)]
    simp

theorem pieces6_some (eight : groups.length = 8)
    (first after : Nat) (found : zeroRun groups = some (first, after)) :
    pieces6 groups =
      (if ((groups.take first).map fun group => hex group.toNat).length = 0 then [[]]
        else (groups.take first).map fun group => hex group.toNat) ++ [[]] ++
      (if ((groups.drop after).map fun group => hex group.toNat).length = 0 then [[]]
        else (groups.drop after).map fun group => hex group.toNat) := by
  obtain ⟨long, inside, _⟩ := zeroRun_spec groups eight first after found
  have front : (groups.take first).length = first := by
    rw [length_take]
    omega
  have back : (groups.drop after).length = 0 ↔ 8 ≤ after := by
    rw [length_drop]
    omega
  simp only [length_map, front, back]
  simp [pieces6, found]

/-! ### Prefixes -/

theorem pieces6_free (c : Char)
    (noDigit : ∀ digit, Nat.digitChar digit ≠ c) : ∀ piece ∈ pieces6 groups, c ∉ piece := by
  intro piece member
  have texts : ∀ piece ∈ groups.map (fun group => hex group.toNat), c ∉ piece := by
    intro piece member
    obtain ⟨group, _, rfl⟩ := mem_map.mp member
    exact notMem_hex _ _ noDigit
  unfold pieces6 at member
  simp only at member
  split at member
  · exact texts piece member
  · simp only [mem_append, mem_singleton] at member
    rcases member with (front | rfl) | back
    · split at front
      · simp_all
      · exact texts piece (mem_of_mem_take front)
    · simp
    · split at back
      · simp_all
      · exact texts piece (mem_of_mem_drop back)

theorem notMem_text6 (word : BitVec 128) (c : Char) (noColon : c ≠ ':') (noDot : c ≠ '.')
    (noDigit : ∀ digit, Nat.digitChar digit ≠ c) : c ∉ text6 word := by
  have noF : c ≠ 'f' := fun same => noDigit 15 (by rw [same]; rfl)
  unfold text6
  split
  · simp only [mem_append, not_or]
    exact ⟨by simp [noColon, noF], notMem_text4 _ _ noDot noDigit⟩
  · intro member
    rcases mem_join member with same | ⟨piece, inside, char⟩
    · exact noColon same
    · exact pieces6_free _ _ noDigit piece inside char

theorem pieces6_ne_nil (eight : groups.length = 8) : pieces6 groups ≠ [] := by
  unfold pieces6
  simp only
  split
  · intro empty
    simp [map_eq_nil_iff.mp empty] at eight
  · simp

theorem colon_mem_text6 (word : BitVec 128) : ':' ∈ text6 word := by
  have several : 2 ≤ (pieces6 (groups6 word)).length := by
    unfold pieces6
    simp only
    split
    · simp
    · next first after found =>
      simp only [length_append, length_singleton]
      have front : 1 ≤ (if first = 0 then [[]] else
          ((groups6 word).map fun group => hex group.toNat).take first).length := by
        split
        · simp
        · simp
          omega
      omega
  unfold text6
  split
  · simp
  · exact separator_mem_join ':' _ several

theorem slash_notMem_text4 (word : BitVec 32) : '/' ∉ text4 word :=
  notMem_text4 word '/' (by decide) digit_ne_slash

theorem slash_notMem_text6 (word : BitVec 128) : '/' ∉ text6 word :=
  notMem_text6 word '/' (by decide) (by decide) digit_ne_slash

variable {cidr : Prefix}

theorem slash_mem_text (valid : cidr.isValid) : '/' ∈ cidr.text := by
  cases cidr with
  | invalid => simp [Prefix.isValid] at valid
  | v4 block => simp [Prefix.text_v4]
  | v6 block => simp [Prefix.text_v6]

/-- A valid prefix is written with digits, dots, colons and one slash. -/
theorem Prefix.notMem_text (valid : cidr.isValid) (c : Char) (noDot : c ≠ '.')
    (noColon : c ≠ ':') (noSlash : c ≠ '/') (noDigit : ∀ digit, Nat.digitChar digit ≠ c) :
    c ∉ cidr.text := by
  cases cidr with
  | invalid => simp [Prefix.isValid] at valid
  | v4 block =>
    simp only [Prefix.text_v4, mem_append, mem_cons, not_or]
    exact ⟨notMem_text4 _ _ noDot noDigit, noSlash, notMem_decimal _ _ noDigit⟩
  | v6 block =>
    simp only [Prefix.text_v6, mem_append, mem_cons, not_or]
    exact ⟨notMem_text6 _ _ noColon noDot noDigit, noSlash, notMem_decimal _ _ noDigit⟩

/-- Neither form of a prefix uses the bar that separates it from other key parts. -/
theorem Prefix.bar_notMem_text (cidr : Prefix) : '|' ∉ cidr.text := by
  cases valid : cidr.isValid with
  | false =>
    cases cidr with
    | invalid => decide
    | v4 block | v6 block => simp [Prefix.isValid] at valid
  | true =>
    exact Prefix.notMem_text valid '|' (by decide) (by decide) (by decide)
      fun _ => Nat.digitChar_ne '|' (by decide)

/-! ### Reading texts -/

open Option

/-! ### The two forms -/

variable (chars : List Char)

/-- One field of a dotted address. -/
def parseOctet : Option (BitVec 8) :=
  if chars.head? = some '0' ∧ 1 < chars.length then none
  else match readDigits 10 chars with
    | some value => if value ≤ 255 then some (BitVec.ofNat 8 value) else none
    | none => none

def parse4 : Option (BitVec 32) :=
  match List.splitOn '.' chars with
  | [a, b, c, d] => do
    return (← parseOctet a) ++ (← parseOctet b) ++ (← parseOctet c) ++ (← parseOctet d)
  | _ => none

/-- A field of one to four hexadecimal digits. -/
def parseGroup : Option (BitVec 16) :=
  if 4 < chars.length then none else (readDigits 16 chars).map (BitVec.ofNat 16)

/-- The fields up to the end of the text, of which the last may be a dotted address. -/
def parseGroups : List (List Char) → Option (List (BitVec 16))
  | [] => some []
  | [last] =>
    if '.' ∈ last then
      (parse4 last).map fun word => [word.extractLsb' 16 16, word.extractLsb' 0 16]
    else (parseGroup last).map fun group => [group]
  | piece :: rest => do return (← parseGroup piece) :: (← parseGroups rest)

def wordOfGroups : List (BitVec 16) → Option (BitVec 128)
  | [a, b, c, d, e, f, g, h] => some (a ++ b ++ c ++ d ++ e ++ f ++ g ++ h)
  | _ => none

/-- The fields are cut at the colons. An empty field is the omitted run, with one more
at either end of the text if the run reaches it. -/
def parse6 : Option (BitVec 128) :=
  let pieces := List.splitOn ':' chars
  if [] ∉ pieces then parseGroups pieces >>= wordOfGroups
  else
    let front := pieces.takeWhile (· ≠ [])
    let back := (pieces.reverse.takeWhile (· ≠ [])).reverse
    if pieces = (if front.length = 0 then [[]] else front) ++ [[]] ++
        (if back.length = 0 then [[]] else back) then do
      let left ← front.mapM parseGroup
      let right ← parseGroups back
      if left.length + right.length < 8 then
        wordOfGroups (left ++ List.replicate (8 - left.length - right.length) 0 ++ right)
      else none
    else none

/-- An IPv6 address with what stands after the percent sign as its zone. -/
def parseZoned : Option Addr :=
  let word := parse6 (chars.takeWhile (· ≠ '%'))
  match chars.dropWhile (· ≠ '%') with
  | [] => word.map fun word => .v6 word ""
  | [_] => none
  | _ :: zone => word.map fun word => .v6 word (String.ofList zone)

def isMark (c : Char) : Bool := c = '.' || c = ':' || c = '%'

/-- The first mark of the text decides on its form. -/
def parseAddr (s : String) : Option Addr :=
  let first := s.toList.find? isMark
  if first = some '.' then (parse4 s.toList).map .v4
  else if first = some ':' then parseZoned s.toList
  else none

/-- The length of a prefix, without superfluous zeros. -/
def parseBits : Option Nat :=
  if chars.head? = some '0' ∧ 1 < chars.length then none else readDigits 10 chars

/-- `netip.ParsePrefix`. -/
def parsePrefix (s : String) : Option Prefix :=
  match s.toList.dropWhile (· ≠ '/') with
  | [] => none
  | _ :: length => do
    let ip ← parseAddr (String.ofList (s.toList.takeWhile (· ≠ '/')))
    let bits ← parseBits length
    if ip.zone = "" ∧ bits ≤ ip.bitLen then some (prefixFrom ip bits) else none

/-! ### IPv4 -/

private theorem parseOctet_toDigits :
    ∀ n < 256, parseOctet (Nat.toDigits 10 n) = some (BitVec.ofNat 8 n) := by decide +kernel

theorem parseOctet_decimal (byte : BitVec 8) : parseOctet (decimal byte.toNat) = some byte := by
  rw [decimal_eq, parseOctet_toDigits byte.toNat byte.isLt, BitVec.ofNat_toNat, BitVec.setWidth_eq]

/-- Adjacent parts of a word are one part. -/
private theorem append_parts {width : Nat} (word : BitVec width) (start low high : Nat) :
    word.extractLsb' (start + low) high ++ word.extractLsb' start low =
      word.extractLsb' start (high + low) :=
  BitVec.extractLsb'_append_extractLsb'_eq_extractLsb' rfl

private theorem append_bytes4 (word : BitVec 32) :
    word.extractLsb' 24 8 ++ word.extractLsb' 16 8 ++ word.extractLsb' 8 8 ++
      word.extractLsb' 0 8 = word := by
  rw [append_parts word 16 8 8, append_parts word 8 8 16, append_parts word 0 8 24]
  exact BitVec.extractLsb'_eq_self

theorem parse4_text4 (word : BitVec 32) : parse4 (text4 word) = some word := by
  have free : ∀ piece ∈ (bytes4 word).map (fun byte => decimal byte.toNat), '.' ∉ piece := by
    intro piece member
    obtain ⟨byte, _, rfl⟩ := mem_map.mp member
    exact notMem_decimal _ _ digit_ne_dot
  have pieces : splitOn '.' (text4 word) = (bytes4 word).map fun byte => decimal byte.toNat :=
    splitOn_intercalate '.' free (by simp [bytes4])
  unfold parse4
  rw [pieces]
  simp only [bytes4, map_cons, map_nil, parseOctet_decimal]
  exact congrArg some (append_bytes4 word)

/-! ### IPv6 -/

theorem parseGroup_hex (group : BitVec 16) : parseGroup (hex group.toNat) = some group := by
  have short : (hex group.toNat).length ≤ 4 :=
    Nat.toDigits_length 16 _ 4 (by omega) group.isLt
  rw [parseGroup, if_neg (by omega), hex, readDigits_toDigits 16 (by omega) (by omega)]
  simp

private theorem mapM_parseGroup :
    (groups.map fun group => hex group.toNat).mapM parseGroup = some groups := by
  induction groups with
  | nil => rfl
  | cons group rest ih => simp [parseGroup_hex, ih]

private theorem dot_notMem_hex (group : BitVec 16) : '.' ∉ hex group.toNat :=
  notMem_hex _ _ digit_ne_dot

private theorem parseGroups_hex :
    parseGroups (groups.map fun group => hex group.toNat) = some groups := by
  induction groups with
  | nil => rfl
  | cons group rest ih =>
    cases rest with
    | nil => simp [parseGroups, dot_notMem_hex, parseGroup_hex]
    | cons next rest =>
      simp only [map_cons] at ih ⊢
      simp [parseGroups, parseGroup_hex, ih, bind, Option.bind, pure]

variable (word : BitVec 128)

private theorem wordOfGroups_groups6 : wordOfGroups (groups6 word) = some word := by
  have split : groups6 word = [word.extractLsb' 112 16, word.extractLsb' 96 16,
      word.extractLsb' 80 16, word.extractLsb' 64 16, word.extractLsb' 48 16,
      word.extractLsb' 32 16, word.extractLsb' 16 16, word.extractLsb' 0 16] := rfl
  rw [split, wordOfGroups, append_parts word 96 16 16, append_parts word 80 16 32,
    append_parts word 64 16 48, append_parts word 48 16 64, append_parts word 32 16 80,
    append_parts word 16 16 96, append_parts word 0 16 112]
  exact congrArg some BitVec.extractLsb'_eq_self

/-- The pieces of an address are read back, with or without an omitted run. -/
private theorem parse6_pieces6 :
    parse6 (intercalate [':'] (pieces6 (groups6 word))) = some word := by
  have eight := length_groups6 word
  have cut : splitOn ':' (intercalate [':'] (pieces6 (groups6 word))) =
      pieces6 (groups6 word) :=
    splitOn_intercalate ':' (pieces6_free _ _ digit_ne_colon) (pieces6_ne_nil _ eight)
  simp only [parse6, cut]
  cases run : zeroRun (groups6 word) with
  | none =>
    have plain : pieces6 (groups6 word) = (groups6 word).map fun group => hex group.toNat := by
      simp [pieces6, run]
    have full : [] ∉ pieces6 (groups6 word) := by
      rw [plain]
      exact fun empty => mem_texts_ne_nil _ _ empty rfl
    rw [if_pos full, plain, parseGroups_hex]
    exact wordOfGroups_groups6 word
  | some bounds =>
    obtain ⟨first, after⟩ := bounds
    obtain ⟨long, inside, shape⟩ := zeroRun_spec _ eight first after run
    have empty : ¬ [] ∉ pieces6 (groups6 word) := by simp [pieces6, run]
    have pieces := pieces6_some _ eight first after run
    have front : (pieces6 (groups6 word)).takeWhile (· ≠ []) =
        ((groups6 word).take first).map fun group => hex group.toNat := by
      rw [pieces, front_pieces _ _ (mem_texts_ne_nil _)]
    have back : ((pieces6 (groups6 word)).reverse.takeWhile (· ≠ [])).reverse =
        ((groups6 word).drop after).map fun group => hex group.toNat := by
      rw [pieces, back_pieces _ _ (mem_texts_ne_nil _), reverse_reverse]
    have gap : 8 - first - (8 - after) = after - first := by omega
    rw [if_neg empty, front, back, if_pos pieces, mapM_parseGroup, parseGroups_hex]
    simp only [bind_eq_bind, bind_some, length_take, length_drop, eight,
      Nat.min_eq_left (by omega : first ≤ 8), gap]
    rw [if_pos (by omega), ← shape]
    exact wordOfGroups_groups6 word

/-- The groups of a mapped address are five zeros, a mark and the IPv4 address. -/
private theorem groups6_mapped (mapped : is4In6 word) :
    groups6 word = replicate 5 0 ++ [0xffff, (word.extractLsb' 0 32).extractLsb' 16 16,
      (word.extractLsb' 0 32).extractLsb' 0 16] := by
  simp only [is4In6, beq_iff_eq] at mapped
  have high : ∀ start, start + 16 ≤ 96 → word.extractLsb' (start + 32) 16 =
      BitVec.extractLsb' start 16 (0xffff : BitVec 96) := by
    intro start inside
    rw [← mapped]
    ext i below
    simp only [BitVec.getElem_extractLsb', BitVec.getLsbD_extractLsb']
    have position : 32 + (start + i) = start + 32 + i := by omega
    simp [show start + i < 96 by omega, position]
  have split : groups6 word = [word.extractLsb' (80 + 32) 16, word.extractLsb' (64 + 32) 16,
      word.extractLsb' (48 + 32) 16, word.extractLsb' (32 + 32) 16, word.extractLsb' (16 + 32) 16,
      word.extractLsb' (0 + 32) 16, word.extractLsb' 16 16, word.extractLsb' 0 16] := rfl
  rw [split, high 80 (by omega), high 64 (by omega), high 48 (by omega), high 32 (by omega),
    high 16 (by omega), high 0 (by omega), BitVec.extractLsb'_extractLsb'_of_le (by omega),
    BitVec.extractLsb'_extractLsb'_of_le (by omega)]
  rfl

/-- The dotted form stands for the two last groups. -/
private theorem parse6_mapped (word : BitVec 32) :
    parse6 ("::ffff:".toList ++ text4 word) =
      wordOfGroups (replicate 5 0 ++ [0xffff, word.extractLsb' 16 16,
        word.extractLsb' 0 16]) := by
  have noColon : ':' ∉ text4 word := notMem_text4 word ':' (by decide) digit_ne_colon
  have dot := dot_mem_text4 word
  have full : text4 word ≠ [] := ne_nil_of_mem dot
  have cut : splitOn ':' ("::ffff:".toList ++ text4 word) =
      [[], [], "ffff".toList, text4 word] := by
    have joined : "::ffff:".toList ++ text4 word =
        intercalate [':'] [[], [], "ffff".toList, text4 word] := by
      simp
    rw [joined]
    exact splitOn_intercalate ':' (by simp [noColon]) (by simp)
  simp only [parse6, cut]
  simp [full, parseGroups, dot, parse4_text4, show parseGroup ['f', 'f', 'f', 'f'] = some 0xffff
    from by decide]

theorem parse6_text6 : parse6 (text6 word) = some word := by
  unfold text6
  split
  · next mapped =>
    rw [parse6_mapped, ← groups6_mapped word mapped]
    exact wordOfGroups_groups6 word
  · exact parse6_pieces6 word

/-! ### Addresses -/

private theorem find_mark {p : Char → Bool} {mark : Char} {chars : List Char} (member : mark ∈ chars)
    (holds : p mark) (only : ∀ c ∈ chars, p c → c = mark) : chars.find? p = some mark := by
  cases found : chars.find? p with
  | none => exact absurd holds (by simpa using find?_eq_none.mp found mark member)
  | some c => rw [only c (mem_of_find?_eq_some found) (find?_some found)]

private theorem digit_ne_percent : Nat.digitChar digit ≠ '%' :=
  Nat.digitChar_ne '%' (by decide)

private theorem find_mark_text4 (word : BitVec 32) : (text4 word).find? isMark = some '.' := by
  refine find_mark (dot_mem_text4 word) (by decide) fun c member mark => ?_
  have noColon := notMem_text4 word ':' (by decide) digit_ne_colon
  have noPercent := notMem_text4 word '%' (by decide) digit_ne_percent
  simp only [isMark, Bool.or_eq_true, decide_eq_true_eq] at mark
  rcases mark with (dot | colon) | percent
  · exact dot
  · exact absurd (colon ▸ member) noColon
  · exact absurd (percent ▸ member) noPercent

private theorem find_mark_text6 : (text6 word).find? isMark = some ':' := by
  have colon := colon_mem_text6 word
  unfold text6 at colon ⊢
  split
  · rfl
  · next unmapped =>
    rw [if_neg unmapped] at colon
    refine find_mark colon (by decide) fun c member mark => ?_
    rcases mem_join member with same | ⟨piece, inside, char⟩
    · exact same
    · -- Inside a piece there are digits only, so no mark at all.
      simp only [isMark, Bool.or_eq_true, decide_eq_true_eq] at mark
      rcases mark with (rfl | rfl) | rfl
      · exact absurd char (pieces6_free _ _ digit_ne_dot piece inside)
      · rfl
      · exact absurd char (pieces6_free _ _ digit_ne_percent piece inside)

/-- An address of this family is cut at the first percent sign behind it. -/
private theorem plain_text6 : ∀ c ∈ text6 word, decide (c ≠ '%') := by
  intro c member
  simpa using ne_of_mem_of_not_mem member
    (notMem_text6 word '%' (by decide) (by decide) digit_ne_percent)

private theorem parseZoned_text6 (zone : String) :
    parseZoned (text6 word ++ if zone = "" then [] else '%' :: zone.toList) =
      some (.v6 word zone) := by
  have plain := plain_text6 word
  by_cases named : zone = ""
  · simp only [parseZoned, named, if_true, append_nil, takeWhile_eq_self_iff.mpr plain,
      dropWhile_eq_nil_iff.mpr plain, parse6_text6, map_some]
  · have letters : zone.toList ≠ [] := by simpa using named
    obtain ⟨first, rest, shape⟩ := exists_cons_of_ne_nil letters
    have name : String.ofList (first :: rest) = zone := by rw [← shape, String.ofList_toList]
    simp only [parseZoned, named, if_false, takeWhile_append_of_pos plain,
      dropWhile_append_of_pos plain, shape]
    simp [parse6_text6, name]

private theorem parseAddr_text6_append (zone : List Char) :
    parseAddr (String.ofList (text6 word ++ zone)) = parseZoned (text6 word ++ zone) := by
  rw [parseAddr, String.toList_ofList, find?_append, find_mark_text6, some_or]
  rfl

/-- A zone has to be named. -/
theorem parseAddr_emptyZone : parseAddr (String.ofList (text6 word ++ ['%'])) = none := by
  rw [parseAddr_text6_append, parseZoned, dropWhile_append_of_pos (plain_text6 word)]
  rfl

/-- Every valid address is read back from its text. -/
theorem parseAddr_string (ip : Addr) (valid : ip.isValid) : parseAddr ip.string = some ip := by
  cases ip with
  | zero => simp [Addr.isValid] at valid
  | v4 word =>
    rw [parseAddr, Addr.string, String.toList_ofList, Addr.text_v4, if_pos (find_mark_text4 word),
      parse4_text4, map_some]
  | v6 word zone =>
    rw [Addr.string, Addr.text_v6, parseAddr_text6_append, parseZoned_text6]

theorem Addr.string_injective {a b : Addr} (validA : a.isValid) (validB : b.isValid)
    (equal : a.string = b.string) : a = b := by
  have read := parseAddr_string a validA
  rw [equal, parseAddr_string b validB, Option.some.injEq] at read
  exact read.symm

/-! ### Prefixes -/

private theorem parseBits_toDigits : ∀ n ≤ 128, parseBits (Nat.toDigits 10 n) = some n := by
  decide +kernel

private theorem parseBits_decimal (bits : Nat) (small : bits ≤ 128) :
    parseBits (decimal bits) = some bits := by
  rw [decimal_eq, parseBits_toDigits bits small]

private theorem parsePrefix_cut (ip : Addr) (bits : Nat) (valid : ip.isValid)
    (noZone : ip.zone = "") (free : '/' ∉ ip.text) (fits : bits ≤ ip.bitLen) (small : bits ≤ 128) :
    parsePrefix (String.ofList (ip.text ++ '/' :: decimal bits)) = some (prefixFrom ip bits) := by
  have plain : ∀ c ∈ ip.text, decide (c ≠ '/') := by
    intro c member
    simpa using ne_of_mem_of_not_mem member free
  have address : parseAddr (String.ofList ip.text) = some ip := parseAddr_string ip valid
  simp only [parsePrefix, String.toList_ofList, dropWhile_append_of_pos plain,
    takeWhile_append_of_pos plain]
  simp [address, parseBits_decimal bits small, noZone, fits]

/-- Every valid prefix is read back from its text. -/
theorem parsePrefix_string (cidr : Prefix) (valid : cidr.isValid) :
    parsePrefix cidr.string = some cidr := by
  cases cidr with
  | invalid => simp [Prefix.isValid] at valid
  | v4 block =>
    have read := parsePrefix_cut (.v4 block.addr) block.bits rfl rfl (slash_notMem_text4 _)
      block.bits_le (by have := block.bits_le; omega)
    have same : prefixFrom (.v4 block.addr) block.bits = .v4 block := by
      simp [prefixFrom, block.bits_le]
    rw [same] at read
    exact read
  | v6 block =>
    have text : (Addr.v6 block.addr "").text = text6 block.addr := by
      rw [Addr.text_v6, if_pos rfl, append_nil]
    have read := parsePrefix_cut (.v6 block.addr "") block.bits rfl rfl
      (by rw [text]; exact slash_notMem_text6 _) block.bits_le block.bits_le
    have same : prefixFrom (.v6 block.addr "") block.bits = .v6 block := by
      simp [prefixFrom, block.bits_le]
    rw [same, text] at read
    exact read

/-- Prefixes with the same text are the same. The compiler removes duplicates by comparing
texts, and nothing is lost by that. -/
theorem Prefix.string_injective {a b : Prefix} (equal : a.string = b.string) : a = b := by
  have read : ∀ cidr : Prefix, parsePrefix cidr.string =
      if cidr.isValid then some cidr else none := by
    intro cidr
    cases cidr with
    | invalid => decide
    | v4 block | v6 block => exact parsePrefix_string _ rfl
  have same := congrArg parsePrefix equal
  rw [read, read] at same
  cases a <;> cases b <;> simp_all [Prefix.isValid]

theorem Prefix.text_injective {a b : Prefix} (equal : a.text = b.text) : a = b :=
  Prefix.string_injective (congrArg String.ofList equal)

/-! ### What is accepted -/

/-- A character that no address is written with, unless in its zone. -/
structure Foreign (c : Char) : Prop where
  noDigit : ∀ digit, Nat.digitChar digit ≠ c
  noValue : digitValue c = none
  noDot : c ≠ '.'
  noColon : c ≠ ':'

theorem foreign_comma : Foreign ',' :=
  ⟨fun _ => Nat.digitChar_ne ',' (by decide), by decide, by decide, by decide⟩

theorem foreign_bar : Foreign '|' :=
  ⟨fun _ => Nat.digitChar_ne '|' (by decide), by decide, by decide, by decide⟩

theorem foreign_hash : Foreign '#' :=
  ⟨fun _ => Nat.digitChar_ne '#' (by decide), by decide, by decide, by decide⟩

theorem foreign_doubleQuote : Foreign (Char.ofNat 0x22) :=
  ⟨fun _ => Nat.digitChar_ne (Char.ofNat 0x22) (by decide), by decide, by decide, by decide⟩

/-- A text is free of what none of its fields and no separator is. -/
theorem notMem_of_splitOn {separator c : Char} (other : c ≠ separator) {chars : List Char}
    (free : ∀ piece ∈ splitOn separator chars, c ∉ piece) : c ∉ chars := by
  intro member
  have joined : intercalate [separator] (splitOn separator chars) = chars :=
    intercalate_splitOn separator
  rw [← joined] at member
  rcases mem_join member with same | ⟨piece, inside, found⟩
  · exact other same
  · exact free piece inside found

section

variable {c : Char} (foreign : Foreign c)

include foreign

variable {chars : List Char}

theorem notMem_of_parseOctet {byte : BitVec 8} (parsed : parseOctet chars = some byte) :
    c ∉ chars := by
  unfold parseOctet at parsed
  split at parsed
  · simp at parsed
  · split at parsed
    · next value read => exact notMem_of_readDigits read foreign.noValue
    · simp at parsed

theorem notMem_of_parseGroup {group : BitVec 16} (parsed : parseGroup chars = some group) :
    c ∉ chars := by
  unfold parseGroup at parsed
  split at parsed
  · simp at parsed
  · obtain ⟨value, read, _⟩ := map_eq_some_iff.mp parsed
    exact notMem_of_readDigits read foreign.noValue

theorem notMem_of_parse4 {word : BitVec 32} (parsed : parse4 chars = some word) : c ∉ chars := by
  refine notMem_of_splitOn foreign.noDot ?_
  unfold parse4 at parsed
  split at parsed
  · next a b c d fields =>
    simp only [bind_eq_bind, bind_eq_some_iff, Option.pure_def] at parsed
    obtain ⟨_, first, _, second, _, third, _, fourth, _⟩ := parsed
    rw [fields]
    intro piece member
    simp only [mem_cons, not_mem_nil, or_false] at member
    rcases member with rfl | rfl | rfl | rfl
    all_goals exact notMem_of_parseOctet foreign (by assumption)
  · simp at parsed

variable {pieces : List (List Char)} {groups : List (BitVec 16)}

theorem notMem_of_parseGroups (parsed : parseGroups pieces = some groups) :
    ∀ piece ∈ pieces, c ∉ piece := by
  induction pieces generalizing groups with
  | nil => simp
  | cons piece rest ih =>
    cases rest with
    | nil =>
      rw [parseGroups] at parsed
      intro last member
      rw [mem_singleton.mp member]
      split at parsed
      · obtain ⟨word, read, _⟩ := map_eq_some_iff.mp parsed
        exact notMem_of_parse4 foreign read
      · obtain ⟨group, read, _⟩ := map_eq_some_iff.mp parsed
        exact notMem_of_parseGroup foreign read
    | cons next rest =>
      simp only [parseGroups, bind_eq_bind, bind_eq_some_iff, Option.pure_def]
        at parsed
      obtain ⟨_, head, _, tail, _⟩ := parsed
      exact forall_mem_cons.mpr ⟨notMem_of_parseGroup foreign head, ih tail⟩

theorem notMem_of_mapM_parseGroup (parsed : pieces.mapM parseGroup = some groups) :
    ∀ piece ∈ pieces, c ∉ piece := by
  induction pieces generalizing groups with
  | nil => simp
  | cons piece rest ih =>
    simp only [mapM_cons, bind_eq_bind, bind_eq_some_iff, Option.pure_def]
      at parsed
    obtain ⟨_, head, _, tail, _⟩ := parsed
    exact forall_mem_cons.mpr ⟨notMem_of_parseGroup foreign head, ih tail⟩

theorem notMem_of_parse6 {word : BitVec 128} (parsed : parse6 chars = some word) : c ∉ chars := by
  refine notMem_of_splitOn foreign.noColon ?_
  simp only [parse6] at parsed
  split at parsed
  · obtain ⟨groups, read, _⟩ := bind_eq_some_iff.mp parsed
    exact notMem_of_parseGroups foreign read
  · obtain ⟨cut, parsed⟩ := ite_none_right_eq_some.mp parsed
    simp only [bind_eq_bind, bind_eq_some_iff] at parsed
    obtain ⟨left, front, right, back, _⟩ := parsed
    -- Every field is in front of the omitted run, behind it, or empty.
    rw [cut]
    intro piece member
    rw [mem_append, mem_append] at member
    have here : ∀ fields : List (List Char), (∀ field ∈ fields, c ∉ field) →
        piece ∈ (if fields.length = 0 then [[]] else fields) → c ∉ piece := by
      intro fields free inside
      split at inside
      · rw [mem_singleton.mp inside]
        exact not_mem_nil
      · exact free piece inside
    rcases member with (inFront | run) | inBack
    · exact here _ (notMem_of_mapM_parseGroup foreign front) inFront
    · rw [mem_singleton.mp run]
      exact not_mem_nil
    · exact here _ (notMem_of_parseGroups foreign back) inBack

variable {ip : Addr}

omit foreign in
theorem Addr.notMem_text (noDot : c ≠ '.') (noColon : c ≠ ':')
    (noDigit : ∀ digit, Nat.digitChar digit ≠ c) (valid : ip.isValid)
    (plain : ip.zone = "") : c ∉ ip.text := by
  cases ip with
  | zero => simp [Addr.isValid] at valid
  | v4 word =>
    rw [Addr.text_v4]
    exact notMem_text4 word c noDot noDigit
  | v6 word zone =>
    rw [Addr.zone] at plain
    rw [Addr.text_v6, if_pos plain, append_nil]
    exact notMem_text6 word c noColon noDot noDigit

/-- An address without a zone is written without such characters. -/
theorem Addr.notMem_text_of_zone (valid : ip.isValid) (plain : ip.zone = "") : c ∉ ip.text :=
  Addr.notMem_text foreign.noDot foreign.noColon foreign.noDigit valid plain

variable {cidr : Prefix}

omit foreign in
theorem Addr.plain_of_contains (inside : cidr.contains ip) : ip.isValid ∧ ip.zone = "" := by
  cases ip <;> cases cidr <;> simp_all [Prefix.contains, Addr.isValid, Addr.zone]

theorem Addr.notMem_text_of_contains (inside : cidr.contains ip) : c ∉ ip.text :=
  have plain := Addr.plain_of_contains inside
  Addr.notMem_text_of_zone foreign plain.1 plain.2

/-- Such a character occurs as often in an address as in the text it was read from. -/
theorem count_text_of_parseAddr {s : String} (parsed : parseAddr s = some ip) :
    ip.text.count c = s.toList.count c := by
  have free4 : ∀ word, c ∉ text4 word := fun word =>
    notMem_text4 word c foreign.noDot foreign.noDigit
  have free6 : ∀ word, c ∉ text6 word := fun word =>
    notMem_text6 word c foreign.noColon foreign.noDot foreign.noDigit
  simp only [parseAddr] at parsed
  split at parsed
  · obtain ⟨word, read, rfl⟩ := map_eq_some_iff.mp parsed
    rw [Addr.text_v4, count_eq_zero_of_not_mem (free4 word),
      count_eq_zero_of_not_mem (notMem_of_parse4 foreign read)]
  split at parsed
  · have whole : s.toList.count c = (s.toList.takeWhile (· ≠ '%')).count c +
        (s.toList.dropWhile (· ≠ '%')).count c := by
      rw [← count_append, takeWhile_append_dropWhile]
    simp only [parseZoned] at parsed
    split at parsed
    · next noZone =>
      obtain ⟨word, read, rfl⟩ := map_eq_some_iff.mp parsed
      rw [whole, noZone, count_eq_zero_of_not_mem (notMem_of_parse6 foreign read),
        Addr.text_v6, if_pos rfl, append_nil, count_eq_zero_of_not_mem (free6 word)]
      rfl
    · simp at parsed
    · next percent zone some rest =>
      obtain ⟨word, read, rfl⟩ := map_eq_some_iff.mp parsed
      have sign : percent = '%' := by
        have := head?_dropWhile_not (· ≠ '%') s.toList
        rw [rest] at this
        simpa using this
      have named : String.ofList zone ≠ "" := by
        intro empty
        exact some (by simpa using empty)
      rw [whole, rest, count_eq_zero_of_not_mem (notMem_of_parse6 foreign read),
        Addr.text_v6, if_neg named, count_append, sign, String.toList_ofList,
        count_eq_zero_of_not_mem (free6 word)]
  · simp at parsed

end

end Netloom.Netip
