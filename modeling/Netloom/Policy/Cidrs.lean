import Netloom.Lib.Fold
import Netloom.Policy.Types

/-!
# Prefix arithmetic of the compiler

Subtraction of an excepted prefix, sorting, removal of duplicates and the
merging of sibling prefixes, and what each of them does to the set of addresses
a prefix list stands for.
-/
namespace Netloom.Policy

open Netip (Addr Prefix Version prefixFrom)
open Model List Fold Netip.Version Cidr

/-! ### Source functions -/

def prefixContainsPrefix (parent child : Prefix) : Bool :=
  Model.prefixContainsPrefix parent child

/-- `setPrefixBit`. The zero address reads as the sixteen zero bytes of `::`. -/
def setPrefixBit (addr : Addr) (bit : Nat) : Addr :=
  match addr with
  | .zero => .v6 (Cidr.setBit 0 bit) ""
  | .v4 word => .v4 (Cidr.setBit word bit)
  | .v6 word _ => .v6 (Cidr.setBit word bit) ""

/-- `splitPrefix`: the two halves of a masked prefix. -/
def splitPrefix (cidr : Prefix) : Prefix × Prefix :=
  let nextBits := cidr.bits + 1
  ((prefixFrom cidr.addr nextBits).masked,
    (prefixFrom (setPrefixBit cidr.addr cidr.bits.toNat) nextBits).masked)

/-- `subtractPrefix` with a bound on its depth. A split adds a bit, so the depth
never exceeds the 128 bits of an address. -/
def subtractPrefixUpTo : Nat → Prefix → Prefix → List Prefix
  | 0, base, _ => [base.masked]
  | depth + 1, base, except =>
    let base := base.masked
    let except := except.masked
    if !prefixContainsPrefix base except then [base]
    else if base = except then []
    else
      let (left, right) := splitPrefix base
      subtractPrefixUpTo depth left except ++ subtractPrefixUpTo depth right except

def subtractPrefix (base except : Prefix) : List Prefix := subtractPrefixUpTo 129 base except

variable (cidrs : List Prefix)

/-- Cuts the excepted prefixes out of a list, one after the other. -/
def subtractAll (excepts : List Prefix) : List Prefix :=
  excepts.foldl (fun cidrs except =>
    cidrs.flatMap fun cidr => subtractPrefix cidr except.masked) cidrs

/-- `dedupeCIDRs` and `dedupeAddrs`: the first of equal elements stays. -/
def dedupe {α : Type} [DecidableEq α] (items : List α) : List α :=
  dedupeBy (fun item => item) items

/-- The stable sort of prefixes by their text. -/
def sortByString : List Prefix :=
  cidrs.insertionSort fun a b => ¬ b.string < a.string

/-- The order of `sortCIDRs`: IPv4 first, then the address, then the length. -/
def cidrBefore (left right : Prefix) : Bool :=
  if left.addr.is4 != right.addr.is4 then left.addr.is4
  else match left.addr.compare right.addr with
    | .lt => true
    | .gt => false
    | .eq => left.bits < right.bits

def sortCIDRs : List Prefix :=
  cidrs.insertionSort fun a b => ¬ cidrBefore b a = true

def mergeSiblingCIDRs (left right : Prefix) : Option Prefix :=
  let left := left.masked
  let right := right.masked
  if !left.isValid || !right.isValid || left = right then none
  else if left.addr.is4 != right.addr.is4 || left.bits ≠ right.bits || left.bits = 0 then none
  else
    let parentBits := left.bits - 1
    let leftParent := (prefixFrom left.addr parentBits).masked
    let rightParent := (prefixFrom right.addr parentBits).masked
    if leftParent ≠ rightParent then none
    else
      let (siblingA, siblingB) := splitPrefix leftParent
      if (left = siblingA ∧ right = siblingB) ∨ (left = siblingB ∧ right = siblingA)
      then some leftParent else none

/-- The merging pass of `compactCIDRsOnce`, before duplicates are removed. -/
def mergeNeighbours : List Prefix → List Prefix × Bool
  | [] => ([], false)
  | [cidr] => ([cidr], false)
  | first :: second :: rest =>
    match mergeSiblingCIDRs first second with
    | some parent => (parent :: (mergeNeighbours rest).1, true)
    | none =>
      let (out, changed) := mergeNeighbours (second :: rest)
      (first :: out, changed)

def compactCIDRsOnce : List Prefix × Bool :=
  let (out, changed) := mergeNeighbours cidrs
  (dedupe out, changed)

/-- The loop of `compactCIDRs`. A pass that changes something shortens the list, so
as many passes as there are prefixes are enough. -/
def compactPasses : Nat → List Prefix → List Prefix
  | 0, current => current
  | passes + 1, current =>
    let (next, changed) := compactCIDRsOnce current
    if changed then compactPasses passes (sortCIDRs next) else sortCIDRs next

def compactCIDRs : List Prefix :=
  if cidrs.length < 2 then dedupe cidrs
  else
    let current := sortCIDRs (dedupe cidrs)
    compactPasses (current.length + 1) current

/-! ### Inclusion of prefixes -/

theorem prefixContainsPrefix_cidr (version : Version) (a b : Cidr version.width) :
    prefixContainsPrefix (version.cidr a) (version.cidr b) = a.covers b := by
  rw [← covers_and_last]
  cases version <;>
    simp [prefixContainsPrefix, Model.prefixContainsPrefix, Version.cidr, Prefix.isValid,
      Prefix.addr, Prefix.bits, Prefix.contains, Model.prefixLastAddr, Addr.is4] <;>
    rfl

/-- Two prefixes are blocks of one family, or they have nothing in common. -/
theorem family_cases (p q : Prefix) :
    (∃ (version : Version) (a b : _), p = version.cidr a ∧ q = version.cidr b) ∨
      (prefixContainsPrefix p q = false ∧ ∀ ip, p.contains ip → ¬ q.contains ip) := by
  by_cases one : ∃ (version : Version) (a b : _), p = version.cidr a ∧ q = version.cidr b
  · exact .inl one
  · refine .inr ⟨?_, fun ip inP inQ => ?_⟩
    · cases p <;> cases q <;>
        first
        | exact absurd ⟨.v4, _, _, rfl, rfl⟩ one
        | exact absurd ⟨.v6, _, _, rfl, rfl⟩ one
        | rfl
    · obtain ⟨version, a, b, _, rfl, rfl, _⟩ := exists_of_contains inP inQ
      exact one ⟨version, a, b, rfl, rfl⟩

variable {p q : Prefix}

/-- A prefix includes only blocks of its family. -/
theorem of_prefixContainsPrefix (included : prefixContainsPrefix p q) :
    ∃ (version : Version) (a b : _), p = version.cidr a ∧ q = version.cidr b ∧
      a.covers b := by
  obtain ⟨version, a, b, rfl, rfl⟩ | ⟨apart, _⟩ := family_cases p q
  · rw [prefixContainsPrefix_cidr] at included
    exact ⟨version, a, b, rfl, rfl, included⟩
  · rw [apart] at included
    cases included

variable {parent : Prefix} {child : Prefix} {ip : Addr}

/-- Inclusion of prefixes is inclusion of their address sets. -/
theorem contains_of_prefixContainsPrefix (included : prefixContainsPrefix parent child)
    (inside : child.contains ip) : parent.contains ip := by
  obtain ⟨version, a, b, rfl, rfl, covers⟩ := of_prefixContainsPrefix included
  obtain ⟨word, rfl, held⟩ := contains_cidr.mp inside
  exact contains_cidr.mpr ⟨word, rfl, (covers_iff a b).mp covers word held⟩

/-- Prefixes that share an address are nested, the one with fewer bits outside. -/
theorem prefixContainsPrefix_of_overlap (le : p.bits ≤ q.bits) (inP : p.contains ip)
    (inQ : q.contains ip) : prefixContainsPrefix p q := by
  obtain ⟨version, a, b, word, rfl, rfl, inA, inB⟩ := exists_of_contains inP inQ
  rw [prefixContainsPrefix_cidr]
  exact covers_of_overlap (by simpa using le) inA inB

theorem nested_of_overlap (inP : p.contains ip) (inQ : q.contains ip) :
    prefixContainsPrefix p q ∨ prefixContainsPrefix q p :=
  (Int.le_total p.bits q.bits).imp (prefixContainsPrefix_of_overlap · inP inQ)
    (prefixContainsPrefix_of_overlap · inQ inP)

theorem prefixContainsPrefix_trans {r : Prefix} (first : prefixContainsPrefix p q)
    (second : prefixContainsPrefix q r) : prefixContainsPrefix p r := by
  obtain ⟨version, a, b, rfl, rfl, outer⟩ := of_prefixContainsPrefix first
  obtain ⟨c, rfl⟩ : ∃ c, r = version.cidr c := by
    obtain ⟨version', _, c, same, rfl, _⟩ := of_prefixContainsPrefix second
    cases version <;> cases version' <;> cases same <;> exact ⟨c, rfl⟩
  rw [prefixContainsPrefix_cidr] at *
  exact covers_trans first second

theorem valid_of_prefixContainsPrefix (included : prefixContainsPrefix parent child) :
    child.isValid := by
  simp only [prefixContainsPrefix, Model.prefixContainsPrefix, Bool.and_eq_true] at included
  exact included.1.1.1.1.2

theorem bits_le_of_prefixContainsPrefix (included : prefixContainsPrefix p q) : p.bits ≤ q.bits := by
  obtain ⟨version, a, b, rfl, rfl, covers⟩ := of_prefixContainsPrefix included
  simpa using ((covers_iff_agree a b).mp covers).1

variable {cidr : Prefix}

theorem prefixContainsPrefix_refl (valid : cidr.isValid) : prefixContainsPrefix cidr cidr :=
  prefixContainsPrefix_of_overlap le_rfl (Prefix.contains_addr valid) (Prefix.contains_addr valid)

/-! ### Subtraction -/

/-- The prefixes have no address in common. -/
def Apart (a b : Prefix) : Prop := ∀ ip, a.contains ip = true → ¬ b.contains ip = true

theorem Apart.symm {a b : Prefix} (apart : Apart a b) : Apart b a :=
  fun ip inB inA => apart ip inA inB

/-- The two halves of a prefix. -/
structure Splits (base left right : Prefix) : Prop where
  contains_iff : ∀ ip, base.contains ip ↔ left.contains ip ∨ right.contains ip
  apart : Apart left right
  half : ∀ half ∈ [left, right],
    half.masked = half ∧ half.bits = base.bits + 1 ∧ prefixContainsPrefix base half

theorem splits_splitPrefix {version : Version} (block : Cidr version.width)
    (fixed : block.masked = block) (room : block.bits < version.width) :
    Splits (version.cidr block) (splitPrefix (version.cidr block)).1
      (splitPrefix (version.cidr block)).2 := by
  have fits : (0 : Int) ≤ block.bits + 1 ∧ (block.bits : Int) + 1 ≤ version.width := by omega
  have next : ((block.bits : Int) + 1).toNat = block.bits + 1 := by omega
  have set : setPrefixBit (version.addr block.addr) block.bits =
      version.addr (Cidr.setBit block.addr block.bits) := by cases version <;> rfl
  have halves : splitPrefix (version.cidr block) =
      (version.cidr (block.half room false), version.cidr (block.half room true)) := by
    simp only [splitPrefix, bits_cidr, addr_cidr, Int.toNat_natCast, set, prefixFrom_addr _ fits,
      masked_cidr, Cidr.masked, next, clearFrom_succ_of_masked block fixed room,
      clearFrom_setBit_of_masked block fixed room]
    rfl
  rw [halves]
  refine ⟨fun ip => ?_, fun ip here there => ?_, fun half member => ?_⟩
  · simp only [contains_cidr, contains_iff_half _ room, and_or_left, exists_or]
  · obtain ⟨word, rfl, lower⟩ := contains_cidr.mp here
    rw [Version.contains_addr] at there
    exact Bool.noConfusion (((contains_half _ _ _ _).mp lower).2.symm.trans
      ((contains_half _ _ _ _).mp there).2)
  · simp only [mem_cons, not_mem_nil, or_false] at member
    rcases member with rfl | rfl <;> exact ⟨by rw [masked_cidr, half_masked],
      by simp [Cidr.half], by rw [prefixContainsPrefix_cidr, base_covers_half]⟩

variable {base except piece : Prefix} {pieces : List Prefix}

/-- A masked prefix that properly includes another one has halves. -/
theorem splits_of_included (fixedBase : base.masked = base) (fixedExcept : except.masked = except)
    (included : prefixContainsPrefix base except) (differ : base ≠ except) :
    base.bits < except.bits ∧ Splits base (splitPrefix base).1 (splitPrefix base).2 := by
  obtain ⟨version, a, b, rfl, rfl, covers⟩ := of_prefixContainsPrefix included
  rw [masked_cidr, cidr_inj] at fixedBase fixedExcept
  have longer := bits_lt_of_covers fixedBase fixedExcept covers (mt (congrArg _) differ)
  exact ⟨by simpa using longer, splits_splitPrefix a fixedBase (longer.trans_le b.bits_le)⟩

/-- The calls of `subtractPrefix` as they return, for a masked except. -/
inductive Subtracts (except : Prefix) : Prefix → List Prefix → Prop where
  | apart {base : Prefix} (apart : prefixContainsPrefix base.masked except = false) :
      Subtracts except base [base.masked]
  | equal {base : Prefix} (same : base.masked = except) : Subtracts except base []
  | split {base : Prefix} {left right : List Prefix}
      (included : prefixContainsPrefix base.masked except = true) (differ : base.masked ≠ except)
      (lower : Subtracts except (splitPrefix base.masked).1 left)
      (upper : Subtracts except (splitPrefix base.masked).2 right) :
      Subtracts except base (left ++ right)

/-- Subtraction returns: every call it makes has a base with more bits. -/
theorem subtracts_subtractPrefix (fixed : except.masked = except) :
    Subtracts except base (subtractPrefix base except) := by
  have upTo : ∀ (depth : Nat) base,
      (prefixContainsPrefix base.masked except → except.bits - base.masked.bits < depth) →
      Subtracts except base (subtractPrefixUpTo depth base except) := by
    intro depth
    induction depth with
    | zero =>
      intro base deep
      refine .apart (Bool.eq_false_iff.mpr fun included => ?_)
      have short := deep included
      have le := bits_le_of_prefixContainsPrefix included
      omega
    | succ depth ih =>
      intro base deep
      rw [subtractPrefixUpTo]
      simp only [fixed]
      cases included : prefixContainsPrefix base.masked except with
      | false => exact .apart included
      | true =>
        by_cases same : base.masked = except
        · simpa [same] using Subtracts.equal same
        · obtain ⟨_, splits⟩ := splits_of_included base.masked_masked fixed included same
          have short := deep included
          have shorter : ∀ half ∈ [(splitPrefix base.masked).1, (splitPrefix base.masked).2],
              except.bits - half.masked.bits < depth := by
            intro half member
            obtain ⟨masked, bits, _⟩ := splits.half half member
            rw [masked, bits]
            omega
          simp only [Bool.not_true, Bool.false_eq_true, if_false, same]
          exact .split included same (ih _ fun _ => shorter _ (by simp))
            (ih _ fun _ => shorter _ (by simp))
  refine upTo 129 base fun included => ?_
  obtain ⟨version, a, b, outer, rfl, _⟩ := of_prefixContainsPrefix included
  have le := b.bits_le.trans width_le
  rw [outer, bits_cidr, bits_cidr]
  omega

/-- What is left of the base if the except is cut out: pieces without common addresses that
together are the rest of the base. A prefix of the base that properly includes a piece properly
includes the except as well: no piece could have been cut off later. -/
structure Remainder (except base : Prefix) (pieces : List Prefix) : Prop where
  contains_iff : ∀ ip, (∃ piece ∈ pieces, piece.contains ip) ↔
    base.contains ip ∧ ¬ (prefixContainsPrefix base.masked except ∧ except.contains ip)
  apart : pieces.Pairwise Apart
  masked : ∀ piece ∈ pieces, piece.masked = piece
  inside : base.isValid → ∀ piece ∈ pieces, prefixContainsPrefix base.masked piece
  largest : ∀ piece ∈ pieces, ∀ block, prefixContainsPrefix base.masked block →
    prefixContainsPrefix block piece → ¬ prefixContainsPrefix piece block →
    prefixContainsPrefix block except ∧ ¬ prefixContainsPrefix except block

theorem Subtracts.remainder (fixed : except.masked = except)
    (subtracts : Subtracts except base pieces) : Remainder except base pieces := by
  induction subtracts with
  | apart apart =>
    refine ⟨fun ip => by simp [apart, Prefix.contains_masked], pairwise_singleton _ _, by simp,
      fun valid => ?_, ?_⟩
    · simpa using prefixContainsPrefix_refl (by simpa using valid)
    · simp only [mem_singleton, forall_eq]
      exact fun block inBase _ proper => absurd inBase proper
  | equal same =>
    refine ⟨fun ip => iff_of_false (by simp) fun ⟨inside, outside⟩ => outside ?_, .nil, by simp,
      by simp, by simp⟩
    rw [← Prefix.contains_masked, same] at inside
    rw [same]
    exact ⟨prefixContainsPrefix_refl (Prefix.valid_of_contains inside), inside⟩
  | @split base left right included differ _ _ lower upper =>
    obtain ⟨longer, splits⟩ := splits_of_included base.masked_masked fixed included differ
    -- A half that meets the except includes it, so both halves lose the same addresses.
    have outside : ∀ half ∈ [(splitPrefix base.masked).1, (splitPrefix base.masked).2],
        ∀ pieces, Remainder except half pieces → ∀ ip, (∃ piece ∈ pieces, piece.contains ip) ↔
          half.contains ip ∧ ¬ except.contains ip := by
      intro half member pieces rest ip
      obtain ⟨masked, bits, _⟩ := splits.half half member
      rw [rest.contains_iff, masked]
      exact and_congr_right fun here => not_congr (and_iff_right_of_imp
        (prefixContainsPrefix_of_overlap (by omega) here))
    have part : ∀ half ∈ [(splitPrefix base.masked).1, (splitPrefix base.masked).2],
        ∀ pieces, Remainder except half pieces → ∀ piece ∈ pieces,
          prefixContainsPrefix base.masked piece ∧
          ∀ block, prefixContainsPrefix base.masked block → prefixContainsPrefix block piece →
            ¬ prefixContainsPrefix piece block →
            prefixContainsPrefix block except ∧ ¬ prefixContainsPrefix except block := by
      intro half member pieces rest piece found
      obtain ⟨masked, bits, inBase⟩ := splits.half half member
      have inHalf := rest.inside (valid_of_prefixContainsPrefix inBase) piece found
      have largest := rest.largest piece found
      rw [masked] at inHalf largest
      refine ⟨prefixContainsPrefix_trans inBase inHalf, fun block blockInBase outer proper => ?_⟩
      have word := Prefix.contains_addr (valid_of_prefixContainsPrefix inHalf)
      have inBlock := contains_of_prefixContainsPrefix outer word
      -- Either the block lies in the half, or it is as large as the base.
      by_cases short : half.bits ≤ block.bits
      · exact largest block (prefixContainsPrefix_of_overlap short
          (contains_of_prefixContainsPrefix inHalf word) inBlock) outer proper
      · have whole := prefixContainsPrefix_of_overlap (q := base.masked) (by omega) inBlock
          (contains_of_prefixContainsPrefix blockInBase inBlock)
        refine ⟨prefixContainsPrefix_trans whole included, fun back => ?_⟩
        have := bits_le_of_prefixContainsPrefix (prefixContainsPrefix_trans back whole)
        omega
    have first := outside _ (by simp) _ lower
    have second := outside _ (by simp) _ upper
    refine ⟨fun ip => ?_, pairwise_append.mpr ⟨lower.apart, upper.apart, ?_⟩,
      forall_mem_append.mpr ⟨lower.masked, upper.masked⟩, fun _ => forall_mem_append.mpr
        ⟨fun piece found => (part _ (by simp) _ lower piece found).1,
          fun piece found => (part _ (by simp) _ upper piece found).1⟩,
      forall_mem_append.mpr ⟨fun piece found => (part _ (by simp) _ lower piece found).2,
        fun piece found => (part _ (by simp) _ upper piece found).2⟩⟩
    · simp only [mem_append, or_and_right, exists_or, first, second]
      rw [← or_and_right, ← splits.contains_iff, Prefix.contains_masked, included]
      simp
    · intro part inLower other inUpper ip here there
      exact splits.apart ip ((first ip).mp ⟨part, inLower, here⟩).1
        ((second ip).mp ⟨other, inUpper, there⟩).1

variable (base) in
theorem remainder_subtractPrefix (fixed : except.masked = except) :
    Remainder except base (subtractPrefix base except) :=
  (subtracts_subtractPrefix fixed).remainder fixed

/-- A prefix that does not include the except is only masked. -/
theorem subtractPrefix_apart (apart : prefixContainsPrefix base.masked except.masked = false) :
    subtractPrefix base except = [base.masked] := by
  simp [subtractPrefix, subtractPrefixUpTo, apart]

variable {bases : List Prefix}

/-- Cutting prefixes out of disjoint ones leaves disjoint ones. -/
theorem pairwise_subtractAll (apart : bases.Pairwise Apart) (excepts : List Prefix) :
    (subtractAll bases excepts).Pairwise Apart := by
  refine foldl_invariant _ (fun _ pieces => pieces.Pairwise Apart) excepts bases apart ?_
  intro done except rest pieces _ apart
  refine pairwise_flatMap.mpr ⟨fun piece _ => (remainder_subtractPrefix piece except.masked_masked).apart, ?_⟩
  refine apart.imp fun {first second} apart part inFirst other inSecond ip here there => ?_
  have inside : ∀ piece, ∀ part ∈ subtractPrefix piece except.masked, part.contains ip →
      piece.contains ip := fun piece part found held =>
    (((remainder_subtractPrefix piece except.masked_masked).contains_iff ip).mp ⟨part, found, held⟩).1
  exact apart ip (inside first part inFirst here) (inside second other inSecond there)

/-! ### Subtraction of several prefixes -/

variable {excepts : List Prefix}

theorem valid_of_mem_subtractAll (valid : ∀ base ∈ bases, base.isValid)
    (member : piece ∈ subtractAll bases excepts) : piece.isValid := by
  refine foldl_invariant _ (fun _ pieces => ∀ piece ∈ pieces, piece.isValid)
    excepts bases valid ?_ piece member
  intro done except rest pieces _ allValid part found
  obtain ⟨whole, inPieces, inSubtract⟩ := mem_flatMap.mp found
  exact valid_of_prefixContainsPrefix
    ((remainder_subtractPrefix whole except.masked_masked).inside (allValid whole inPieces) part inSubtract)

/-- What is known of a piece after cutting out `done`: it belongs to a base, and a
larger prefix of that base properly includes one of the prefixes cut out. -/
def CutOff (bases done : List Prefix) (piece : Prefix) : Prop :=
  ∃ base ∈ bases, prefixContainsPrefix base piece = true ∧
    ∀ block, prefixContainsPrefix base block = true → prefixContainsPrefix block piece = true →
      ¬ prefixContainsPrefix piece block = true →
      ∃ except ∈ done, prefixContainsPrefix block except = true ∧
        ¬ prefixContainsPrefix except block = true

/-- No prefix of the list is a proper part of a later one. -/
def NoLaterOuter (excepts : List Prefix) : Prop :=
  excepts.Pairwise fun earlier later =>
    prefixContainsPrefix later earlier = true → prefixContainsPrefix earlier later = true

variable {done : List Prefix}

private theorem cutOff_step {part : Prefix} (masked : piece.masked = piece)
    (maskedExcept : except.masked = except) (cut : CutOff bases done piece)
    (member : part ∈ subtractPrefix piece except) :
    part.masked = part ∧ CutOff bases (done ++ [except]) part := by
  obtain ⟨base, inBases, inBase, larger⟩ := cut
  have valid := valid_of_prefixContainsPrefix inBase
  have rest := remainder_subtractPrefix piece maskedExcept
  have inPiece := rest.inside valid part member
  have proper := rest.largest part member
  rw [masked] at inPiece proper
  refine ⟨rest.masked part member, base, inBases, prefixContainsPrefix_trans inBase inPiece, ?_⟩
  intro block blockInBase outer notInner
  have word := Prefix.contains_addr (valid_of_prefixContainsPrefix inPiece)
  have inBlock := contains_of_prefixContainsPrefix outer word
  have inPieceWord := contains_of_prefixContainsPrefix inPiece word
  by_cases smaller : prefixContainsPrefix piece block
  · exact ⟨except, by simp, proper block smaller outer notInner⟩
  · have whole := (nested_of_overlap inPieceWord inBlock).resolve_left smaller
    obtain ⟨earlier, found, including⟩ := larger block blockInBase whole smaller
    exact ⟨earlier, mem_append_left _ found, including⟩

/-- A prefix of the list that properly includes none before it. -/
def Cuts (excepts : List Prefix) (except : Prefix) : Prop :=
  ∃ before after, excepts = before ++ except :: after ∧ ∀ earlier ∈ before,
    prefixContainsPrefix except earlier = true → prefixContainsPrefix earlier except = true

/-- The prefix properly includes none of these. -/
private def Foremost (done : List Prefix) (except : Prefix) : Prop := ∀ earlier ∈ done,
  prefixContainsPrefix except earlier → prefixContainsPrefix earlier except

private theorem cuts_concat {cut : Prefix} :
    Cuts (done ++ [except]) cut ↔ Cuts done cut ∨ cut = except ∧ Foremost done except := by
  constructor
  · rintro ⟨before, after, split, first⟩
    rcases eq_nil_or_concat' after with rfl | ⟨front, last, rfl⟩
    · obtain ⟨rfl, same⟩ := append_inj' split rfl
      obtain rfl := (cons.inj same).1
      exact .inr ⟨rfl, first⟩
    · rw [← cons_append, ← append_assoc] at split
      exact .inl ⟨before, front, (append_inj' split rfl).1, first⟩
  · rintro (⟨before, after, rfl, first⟩ | ⟨rfl, first⟩)
    · exact ⟨before, after ++ [except], by simp, first⟩
    · exact ⟨done, [], rfl, first⟩

/-- Of the prefixes that one properly includes, the first properly includes none before it. -/
private theorem exists_cuts (outer : ¬ Foremost done except) :
    ∃ cut, Cuts done cut ∧ prefixContainsPrefix except cut := by
  let proper : Prefix → Bool := fun earlier =>
    prefixContainsPrefix except earlier && !prefixContainsPrefix earlier except
  obtain ⟨first, found⟩ : ∃ first, done.find? proper = some first :=
    Option.isSome_iff_exists.mp (find?_isSome.mpr (by simpa [proper, Foremost] using outer))
  obtain ⟨isProper, before, after, rfl, none⟩ := find?_eq_some_iff_append.mp found
  have including : prefixContainsPrefix except first := by
    simp only [proper, Bool.and_eq_true] at isProper
    exact isProper.1
  refine ⟨first, ⟨before, after, rfl, fun earlier inside inner => ?_⟩, including⟩
  have back : prefixContainsPrefix earlier except := by
    simpa [proper, prefixContainsPrefix_trans including inner] using none earlier inside
  exact prefixContainsPrefix_trans back including

/-- If every except lies inside or outside each base, subtraction leaves exactly the addresses
outside those that properly include none before them: the others are in no piece by the time
they are to be cut out. -/
theorem contains_subtractAll_iff (bases excepts : List Prefix)
    (masked : ∀ base ∈ bases, base.masked = base ∧ base.isValid)
    (maskedExcepts : ∀ except ∈ excepts, except.masked = except)
    (apart : ∀ base ∈ bases, ∀ except ∈ excepts,
      prefixContainsPrefix base except ∨ Apart base except) (ip : Addr) :
    (∃ piece ∈ subtractAll bases excepts, piece.contains ip) ↔
      (∃ base ∈ bases, base.contains ip) ∧
        ∀ cut, Cuts excepts cut → ¬ cut.contains ip := by
  have run := foldl_invariant
    (fun cidrs except => cidrs.flatMap fun cidr => subtractPrefix cidr except.masked)
    (fun done pieces => (∀ piece ∈ pieces, piece.masked = piece ∧ CutOff bases done piece) ∧
      ∀ ip, (∃ piece ∈ pieces, piece.contains ip) ↔
        (∃ base ∈ bases, base.contains ip) ∧ ∀ cut, Cuts done cut → ¬ cut.contains ip)
    excepts bases ?_ ?_
  · exact run.2 ip
  · refine ⟨fun base member => ⟨(masked base member).1, base, member,
      prefixContainsPrefix_refl (masked base member).2, ?_⟩, by simp [Cuts]⟩
    exact fun block inBase _ proper => absurd inBase proper
  · rintro done except rest pieces split ⟨cut, covered⟩
    have member : except ∈ excepts := by simp [← split]
    have fixed := maskedExcepts except member
    simp only [fixed]
    refine ⟨fun part found => ?_, fun ip => ?_⟩
    · obtain ⟨piece, inPieces, inPart⟩ := mem_flatMap.mp found
      exact cutOff_step (cut piece inPieces).1 fixed (cut piece inPieces).2 inPart
    have step : (∃ part ∈ pieces.flatMap fun cidr => subtractPrefix cidr except,
        part.contains ip) ↔ ∃ piece ∈ pieces, piece.contains ip ∧
          ¬ (prefixContainsPrefix piece except ∧ except.contains ip) := by
      have parts := fun piece inPieces => (cut piece inPieces).1 ▸
        (remainder_subtractPrefix piece fixed).contains_iff ip
      simp only [mem_flatMap]
      grind
    rw [step]
    have whole : ∀ piece ∈ pieces, piece.contains ip → except.contains ip →
        (prefixContainsPrefix piece except ↔ Foremost done except) := by
      intro piece inPieces inPiece inExcept
      constructor
      · -- Otherwise a part of the except is gone, and no piece includes it.
        intro including
        by_contra outer
        obtain ⟨first, cuts, inner⟩ := exists_cuts outer
        have word := Prefix.contains_addr (valid_of_prefixContainsPrefix inner)
        exact ((covered first.addr).mp ⟨piece, inPieces, contains_of_prefixContainsPrefix
          (prefixContainsPrefix_trans including inner) word⟩).2 first cuts word
      · -- Otherwise the piece lies in an except that properly includes an earlier one.
        intro foremost
        obtain ⟨_, base, inBases, inBase, larger⟩ := cut piece inPieces
        refine (nested_of_overlap inPiece inExcept).elim id fun outer => ?_
        by_contra proper
        have inBaseExcept := (apart base inBases except member).resolve_right
          fun disjoint => disjoint ip (contains_of_prefixContainsPrefix inBase inPiece) inExcept
        obtain ⟨earlier, found, inner, proper⟩ := larger except inBaseExcept outer proper
        exact proper (foremost earlier found inner)
    have gone : (∀ cut, Cuts (done ++ [except]) cut → ¬ cut.contains ip) ↔
        (∀ cut, Cuts done cut → ¬ cut.contains ip) ∧
          (Foremost done except → ¬ except.contains ip) := by
      simp only [cuts_concat, or_imp, forall_and, and_imp, forall_eq]
    rw [gone, ← and_assoc, ← covered]
    grind

theorem cuts_of_noLaterOuter (ordered : NoLaterOuter excepts) :
    Cuts excepts except ↔ except ∈ excepts := by
  constructor
  · rintro ⟨before, after, rfl, _⟩
    simp
  · intro member
    obtain ⟨before, after, rfl⟩ := append_of_mem member
    rw [NoLaterOuter, pairwise_append] at ordered
    exact ⟨before, after, rfl, fun earlier inside => ordered.2.2 earlier inside except (by simp)⟩

/-! ### Compaction -/

variable {α : Type}

theorem mem_dedupe [DecidableEq α] {items : List α} {item : α} :
    item ∈ dedupe items ↔ item ∈ items := by
  obtain ⟨sound, complete, _⟩ := dedupeBy_spec (fun item : α => item) items
  exact ⟨sound item, fun member => by
    obtain ⟨kept, found, rfl⟩ := complete item member
    exact found⟩

theorem length_dedupe_le [DecidableEq α] (items : List α) :
    (dedupe items).length ≤ items.length := (dedupeBy_spec (fun item : α => item) items).2.2.2

theorem mem_sortCIDRs {cidrs : List Prefix} :
    cidr ∈ sortCIDRs cidrs ↔ cidr ∈ cidrs := mem_insertionSort _

theorem mem_sortByString {cidrs : List Prefix} :
    cidr ∈ sortByString cidrs ↔ cidr ∈ cidrs := mem_insertionSort _

/-- The halves of a parent cover it. -/
private theorem contains_splitPrefix_parent (valid : cidr.isValid) (some : cidr.bits ≠ 0)
    (ip : Addr) :
    let parent := (prefixFrom cidr.addr (cidr.bits - 1)).masked
    parent.contains ip ↔
      (splitPrefix parent).1.contains ip ∨ (splitPrefix parent).2.contains ip := by
  obtain ⟨version, block, rfl⟩ := exists_cidr valid
  rw [bits_cidr] at some
  have le := block.bits_le
  have fits : (0 : Int) ≤ block.bits - 1 ∧ (block.bits : Int) - 1 ≤ version.width := by omega
  have equal : (prefixFrom (version.cidr block).addr ((version.cidr block).bits - 1)).masked =
      version.cidr (Cidr.mk block.addr ((block.bits : Int) - 1).toNat (by omega)).masked := by
    rw [addr_cidr, bits_cidr, prefixFrom_addr _ fits, masked_cidr]
  have room : (Cidr.mk block.addr ((block.bits : Int) - 1).toNat (by omega)).masked.bits <
      version.width := by
    simp only [masked_bits]
    omega
  simp only [equal]
  exact (splits_splitPrefix _ (masked_masked _) room).contains_iff ip

/-- Merged siblings have exactly the addresses of their parent. -/
theorem contains_mergeSiblingCIDRs {left right : Prefix}
    (merged : mergeSiblingCIDRs left right = some parent) (ip : Addr) :
    parent.contains ip ↔ left.contains ip ∨ right.contains ip := by
  rw [← left.contains_masked, ← right.contains_masked]
  simp only [mergeSiblingCIDRs] at merged
  generalize left.masked = left at *
  generalize right.masked = right at *
  split at merged
  · simp at merged
  next usable =>
  split at merged
  · simp at merged
  next shape =>
  split at merged
  · simp at merged
  split at merged
  · next siblings =>
    cases merged
    have valid : left.isValid := by
      simp only [Bool.or_eq_true, not_or, Bool.not_eq_true', decide_eq_true_eq] at usable
      simpa using usable.1.1
    have some : left.bits ≠ 0 := by
      simp only [Bool.or_eq_true, not_or, decide_eq_true_eq] at shape
      exact shape.2
    refine (contains_splitPrefix_parent valid some ip).trans ?_
    rcases siblings with ⟨lower, upper⟩ | ⟨upper, lower⟩
    · rw [← lower, ← upper]
    · rw [← lower, ← upper]
      exact or_comm
  · simp at merged

/-- An address is in one of the prefixes. -/
def Covered (cidrs : List Prefix) (ip : Addr) : Prop := ∃ cidr ∈ cidrs, cidr.contains ip = true

theorem covered_congr {left right : List Prefix} (same : ∀ cidr, cidr ∈ left ↔ cidr ∈ right)
    (ip : Addr) : Covered left ip ↔ Covered right ip := by
  simp [Covered, same]

/-- A pass returns prefixes of the list and parents of merged ones, and what it does not
return has been merged. -/
structure Merges (cidrs out : List Prefix) : Prop where
  sound : ∀ cidr ∈ out, cidr ∈ cidrs ∨
    ∃ left ∈ cidrs, ∃ right ∈ cidrs, mergeSiblingCIDRs left right = some cidr
  complete : ∀ cidr ∈ cidrs, cidr ∈ out ∨ ∃ other ∈ cidrs, ∃ parent ∈ out,
    mergeSiblingCIDRs cidr other = some parent ∨ mergeSiblingCIDRs other cidr = some parent

theorem merges_mergeNeighbours : Merges cidrs (mergeNeighbours cidrs).1 := by
  fun_induction mergeNeighbours cidrs with
  | case1 => exact ⟨by simp, by simp⟩
  | case2 => exact ⟨fun _ => .inl, fun _ => .inl⟩
  | case3 first second rest parent merged ih =>
    obtain ⟨sound, complete⟩ := ih
    constructor <;> grind
  | case4 first second rest merged out changed equal ih =>
    rw [equal] at ih
    obtain ⟨sound, complete⟩ := ih
    constructor <;> grind

/-- A pass that merges something shortens the list. -/
private theorem length_mergeNeighbours : (mergeNeighbours cidrs).1.length ≤ cidrs.length ∧
      ((mergeNeighbours cidrs).2 → (mergeNeighbours cidrs).1.length < cidrs.length) := by
  fun_induction mergeNeighbours cidrs with
  | case1 => simp
  | case2 => simp
  | case3 first second rest parent merged ih =>
    simp only [length_cons]
    omega
  | case4 first second rest merged out changed equal ih => simpa [equal] using ih

section Keeps

variable {P : List Prefix → Prop}
  (same : ∀ left right, (∀ cidr, cidr ∈ left ↔ cidr ∈ right) → P left → P right)
  (merge : ∀ cidrs out, Merges cidrs out → P cidrs → P out)
include same merge

private theorem compactCIDRsOnce_keeps {current : List Prefix} (holds : P current) :
    P (sortCIDRs (compactCIDRsOnce current).1) :=
  same _ _ (fun _ => (mem_sortCIDRs.trans mem_dedupe).symm)
    (merge _ _ (merges_mergeNeighbours current) holds)

/-- What depends on the members of a list only and is kept by merging is kept by compaction. -/
theorem compactCIDRs_keeps {cidrs : List Prefix} (holds : P cidrs) : P (compactCIDRs cidrs) := by
  have passes : ∀ (passes : Nat) current, P current → P (compactPasses passes current) := by
    intro passes
    induction passes with
    | zero => exact fun current holds => holds
    | succ passes ih =>
      intro current holds
      simp only [compactPasses]
      split
      · exact ih _ (compactCIDRsOnce_keeps same merge holds)
      · exact compactCIDRsOnce_keeps same merge holds
  unfold compactCIDRs
  split
  · exact same _ _ (fun _ => mem_dedupe.symm) holds
  · exact passes _ _ (same _ _ (fun _ => (mem_sortCIDRs.trans mem_dedupe).symm) holds)

end Keeps

/-- Compaction keeps the set of addresses. -/
theorem compactCIDRs_covered (ip : Addr) : Covered (compactCIDRs cidrs) ip ↔ Covered cidrs ip := by
  refine compactCIDRs_keeps (P := fun out => Covered out ip ↔ Covered cidrs ip)
    (fun left right members holds => (covered_congr members ip).symm.trans holds)
    (fun current out merges holds => Iff.trans ?_ holds) Iff.rfl
  constructor
  · rintro ⟨cidr, member, inside⟩
    rcases merges.sound cidr member with kept | ⟨left, inLeft, right, inRight, merged⟩
    · exact ⟨cidr, kept, inside⟩
    · rcases (contains_mergeSiblingCIDRs merged ip).mp inside with here | here
      · exact ⟨left, inLeft, here⟩
      · exact ⟨right, inRight, here⟩
  · rintro ⟨cidr, member, inside⟩
    rcases merges.complete cidr member with kept | ⟨_, _, parent, inOut, merged | merged⟩
    · exact ⟨cidr, kept, inside⟩
    · exact ⟨parent, inOut, (contains_mergeSiblingCIDRs merged ip).mpr (.inl inside)⟩
    · exact ⟨parent, inOut, (contains_mergeSiblingCIDRs merged ip).mpr (.inr inside)⟩

/-- The loop of `compactCIDRs` as it ends. -/
inductive Compacts : List Prefix → List Prefix → Prop where
  | unchanged {current : List Prefix} (unchanged : (compactCIDRsOnce current).2 = false) :
      Compacts current (sortCIDRs (compactCIDRsOnce current).1)
  | changed {current result : List Prefix} (changed : (compactCIDRsOnce current).2 = true)
      (rest : Compacts (sortCIDRs (compactCIDRsOnce current).1) result) : Compacts current result

/-- The loop ends: a pass that changes something shortens the list. -/
theorem compacts_compactPasses (passes : Nat) (current : List Prefix)
    (enough : current.length < passes) : Compacts current (compactPasses passes current) := by
  induction passes generalizing current with
  | zero => omega
  | succ passes ih =>
    simp only [compactPasses]
    split
    · next changed =>
      refine .changed changed (ih _ ?_)
      have shorter := (length_mergeNeighbours current).2 changed
      have deduped := length_dedupe_le (mergeNeighbours current).1
      simp only [compactCIDRsOnce, sortCIDRs, length_insertionSort]
      omega
    · next unchanged => exact .unchanged (by simpa using unchanged)

/-- Compaction keeps the invalid prefix: it has no sibling. -/
theorem invalid_mem_compactCIDRs {cidrs : List Prefix} (member : .invalid ∈ cidrs) :
    .invalid ∈ compactCIDRs cidrs := by
  refine compactCIDRs_keeps (P := fun out => Prefix.invalid ∈ out)
    (fun left right members => (members _).mp) (fun current out merges member => ?_) member
  refine (merges.complete _ member).resolve_right ?_
  rintro ⟨other, _, parent, _, merged | merged⟩ <;>
    simp [mergeSiblingCIDRs, Prefix.masked, Prefix.isValid] at merged

theorem compactCIDRs_valid (valid : ∀ cidr ∈ cidrs, cidr.isValid) :
    ∀ cidr ∈ compactCIDRs cidrs, cidr.isValid := by
  refine compactCIDRs_keeps (P := fun out => ∀ cidr ∈ out, cidr.isValid)
    (fun left right members valid cidr member => valid cidr ((members cidr).mpr member))
    (fun current out merges valid cidr member => ?_) valid
  rcases merges.sound cidr member with kept | ⟨left, inLeft, _, _, merged⟩
  · exact valid cidr kept
  · exact Prefix.valid_of_contains ((contains_mergeSiblingCIDRs merged _).mpr
      (.inl (Prefix.contains_addr (valid left inLeft))))

end Netloom.Policy
