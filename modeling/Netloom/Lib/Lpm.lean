import Netloom.Lib.BestMatch
import Netloom.Lib.Cidr

/-!
# Longest-prefix match

A trie maps blocks of `n`-bit words to values. Putting a value under a block
replaces the value of that block, and a lookup returns the value of the longest
block that contains the word and is no longer than the lookup itself.

A list of ranked blocks is pruned for such a trie if longer blocks never rank
below the blocks around them. Then longest-prefix match decides as a scan by rank does.
-/
namespace Lpm

open List AList

variable {n : Nat} {α : Type}

/-- One value per block. The blocks are written with their first words. -/
abbrev Trie (n : Nat) (α : Type) := AList (fun _ : Cidr n => α)

variable (trie : Trie n α) (bits : Nat) (word : BitVec n)

/-- Puts a value under the first `bits` bits of a word. -/
def put (value : α) : Except String (Trie n α) :=
  if fits : bits ≤ n then .ok (trie.insert (Cidr.masked ⟨word, bits, fits⟩) value)
  else .error "invalid argument"

/-- The longest block that contains the word among those of at most `bits` bits. -/
def longest : Option (Sigma fun _ : Cidr n => α) :=
  BestMatch.select (fun node => decide (node.1.bits ≤ bits) && node.1.contains word)
    (fun a b => decide (b.1.bits < a.1.bits)) trie.entries

def lookup : Option α :=
  (longest trie bits word).map Sigma.snd

/-- What is selected: nothing only if no block applies, and otherwise an entry such that
no block that applies is longer. -/
theorem longest_spec :
    (longest trie bits word = none → ∀ block value, trie.lookup block = some value →
      block.bits ≤ bits → block.contains word = false) ∧
    ∀ node, longest trie bits word = some node → trie.lookup node.1 = some node.2 ∧
      node.1.bits ≤ bits ∧ node.1.contains word ∧
      ∀ other value', trie.lookup other = some value' →
        other.bits ≤ bits → other.contains word → other.bits ≤ node.1.bits := by
  obtain ⟨missed, found⟩ := BestMatch.select_spec
    (fun node : Sigma fun _ : Cidr n => α => decide (node.1.bits ≤ bits) && node.1.contains word)
    (fun a b => decide (b.1.bits < a.1.bits)) (fun node => node.1.bits)
    (fun a b => decide_eq_true_iff) trie.entries
  have stored : ∀ block value, trie.lookup block = some value → ⟨block, value⟩ ∈ trie.entries :=
    fun block value looked => mem_lookup_iff.mp looked
  constructor
  · intro none block value looked short
    have applies := missed none _ (stored block value looked)
    simpa [short] using applies
  · intro node chosen
    obtain ⟨member, applies, top⟩ := found node chosen
    simp only [Bool.and_eq_true, decide_eq_true_eq] at applies
    refine ⟨mem_lookup_iff.mpr member, applies.1, applies.2,
      fun other value' looked short inside => ?_⟩
    exact top ⟨other, value'⟩ (stored other value' looked) (by simp [short, inside])

/-- The blocks of a trie are written with their first words. -/
def Masked : Prop :=
  ∀ block value, trie.lookup block = some value → block.masked = block

variable {bits : Nat} {word : BitVec n}

private theorem lookup_of_agree {trie trie' : Trie n α} {v : α} (first : Masked trie)
    (first' : Masked trie')
    (same : ∀ block, block.contains word → trie.lookup block = trie'.lookup block)
    (looked : lookup trie bits word = some v) : lookup trie' bits word = some v := by
  obtain ⟨node, chosen, rfl⟩ := Option.map_eq_some_iff.mp looked
  obtain ⟨stored, short, inside, top⟩ := (longest_spec trie bits word).2 node chosen
  have stored' : trie'.lookup node.1 = some node.2 := (same node.1 inside).symm.trans stored
  obtain ⟨missed, found⟩ := longest_spec trie' bits word
  cases other : longest trie' bits word with
  | none =>
    grind
  | some node' =>
    obtain ⟨held, short', inside', top'⟩ := found node' other
    have here : trie.lookup node'.1 = some node'.2 := (same node'.1 inside').trans held
    -- Each is at least as long as the other, and both contain the word.
    have le : node.1.bits ≤ node'.1.bits := top' node.1 node.2 stored' short inside
    have ge : node'.1.bits ≤ node.1.bits := top node'.1 node'.2 here short' inside'
    have equal : node.1 = node'.1 :=
      Cidr.eq_of_covers_of_masked (first _ _ stored) (first' _ _ held)
        (Cidr.covers_of_overlap le inside inside') (Cidr.covers_of_overlap ge inside' inside)
    rw [← equal, stored'] at held
    rw [lookup, other, Option.map_some, Option.some.inj held]

/-- Tries with the same values under the blocks around a word find the same for it. -/
theorem lookup_congr {trie trie' : Trie n α} (first : Masked trie) (first' : Masked trie')
    (same : ∀ block, block.contains word → trie.lookup block = trie'.lookup block) :
    lookup trie bits word = lookup trie' bits word := by
  apply Option.ext
  intro v
  constructor
  · exact lookup_of_agree first first' same
  · exact lookup_of_agree first' first fun block inside => (same block inside).symm

/-! ### Filling a trie -/

/-- Puts the items one after the other. -/
def fill {ν : Type} (block : α → Cidr n) (value : α → ν) (items : List α) (trie : Trie n ν) :
    Trie n ν :=
  items.foldl (fun trie x => trie.insert (block x) (value x)) trie

variable {ν : Type}

theorem lookup_fill (block : α → Cidr n) (value : α → ν) (items : List α) (b : Cidr n) :
    (fill block value items ∅).lookup b =
      ((items.filter fun x => block x = b).getLast?).map value :=
  Fold.lookup_insertAll_eq block value items b

variable {block : α → Cidr n}

/-- What is found in a filled trie belongs to an item with that block. -/
theorem exists_of_lookup_fill {value : α → ν} {items : List α} {b : Cidr n}
    {v : ν} (found : (fill block value items ∅).lookup b = some v) :
    ∃ x ∈ items, block x = b ∧ value x = v :=
  Fold.of_lookup_insertAll block value found

variable {items : List α}

/-- A lookup depends only on the items whose blocks contain the word. -/
theorem lookup_fill_congr {block : α → Cidr n} {value : α → ν} {items' : List α} {keep : α → Bool}
    (first : ∀ x, (block x).masked = block x) (same : items.filter keep = items'.filter keep)
    (kept : ∀ x ∈ items, (block x).contains word → keep x)
    (kept' : ∀ x ∈ items', (block x).contains word → keep x) :
    lookup (fill block value items ∅) bits word = lookup (fill block value items' ∅) bits word := by
  have masked : ∀ items, Masked (fill block value items ∅) := by
    intro items b v found
    obtain ⟨x, _, rfl, _⟩ := exists_of_lookup_fill found
    exact first x
  -- Filtering by a block around the word may as well start from the kept items.
  have narrowed : ∀ (items : List α) (b : Cidr n), b.contains word →
      (∀ x ∈ items, (block x).contains word → keep x) →
      (items.filter fun x => block x = b) = (items.filter keep).filter fun x => block x = b := by
    intro items b inside kept
    rw [filter_filter]
    apply filter_congr
    intro x member
    by_cases here : block x = b
    · simp [here, kept x member (here ▸ inside)]
    · simp [here]
  refine lookup_congr (masked items) (masked items') fun b inside => ?_
  rw [lookup_fill, lookup_fill, narrowed items b inside kept, narrowed items' b inside kept', same]

/-- A lookup in a filled trie misses if no item is about the word, and otherwise returns the
value of an item that is, such that none is longer. -/
theorem lookup_fill_cases (block : α → Cidr n) (value : α → ν) (items : List α) (bits : Nat)
    (word : BitVec n) :
    lookup (fill block value items ∅) bits word = none ∧
        (∀ x ∈ items, (block x).bits ≤ bits → (block x).contains word = false) ∨
      ∃ x ∈ items, lookup (fill block value items ∅) bits word = some (value x) ∧
        (block x).contains word ∧ ∀ y ∈ items, (block y).bits ≤ bits →
          (block y).contains word → (block y).bits ≤ (block x).bits := by
  have stored : ∀ x ∈ items, ∃ v, (fill block value items ∅).lookup (block x) = some v := by
    intro x member
    rw [lookup_fill]
    cases last : (items.filter fun y => block y = block x).getLast? with
    | none => simpa using filter_eq_nil_iff.mp (getLast?_eq_none_iff.mp last) x member
    | some y => exact ⟨value y, rfl⟩
  obtain ⟨missed, found⟩ := longest_spec (fill block value items ∅) bits word
  unfold lookup
  cases chosen : longest (fill block value items ∅) bits word with
  | none =>
    grind
  | some node =>
    obtain ⟨held, _, inside, top⟩ := found node chosen
    obtain ⟨x, member, is, same⟩ := exists_of_lookup_fill held
    rw [← is] at inside top
    refine .inr ⟨x, member, congrArg some same.symm, inside, fun y inY => ?_⟩
    obtain ⟨v, here⟩ := stored y inY
    exact top _ v here

/-! ### Pruned lists -/

section Pruned

variable {M : Type} {covers : M → M → Prop}

/-- What is left of the ranked items seen: all of it was seen, every seen item is covered by
one that ranks no lower, and an item covered by another ranks no lower than it. -/
structure Pruned (covers : M → M → Prop) (seen out : List (M × Nat)) : Prop where
  sound : out ⊆ seen
  complete : ∀ s ∈ seen, ∃ x ∈ out, covers x.1 s.1 ∧ s.2 ≤ x.2
  ordered : out.Pairwise fun x y => (covers x.1 y.1 → x.2 < y.2) ∧ (covers y.1 x.1 → y.2 ≤ x.2)

theorem Pruned.empty : Pruned covers [] [] := ⟨by simp, by simp, .nil⟩

variable {seen out : List (M × Nat)} (pruned : Pruned covers seen out)
include pruned

/-- An outer item of the list ranks no higher than an inner one. -/
theorem Pruned.rank_le {x y : M × Nat} (inX : x ∈ out) (inY : y ∈ out) (around : covers y.1 x.1) :
    y.2 ≤ x.2 := by
  let Nested := fun x y : M × Nat => (covers x.1 y.1 → x.2 ≤ y.2) ∧ (covers y.1 x.1 → y.2 ≤ x.2)
  have : Std.Symm Nested := ⟨fun _ _ related => ⟨related.2, related.1⟩⟩
  have pairs : out.Pairwise Nested :=
    pruned.ordered.imp fun apart => ⟨fun inside => (apart.1 inside).le, apart.2⟩
  have all := pairs.forall_of_forall fun x _ => ⟨fun _ => le_refl _, fun _ => le_refl _⟩
  exact (all inX inY).2 around

section Item

variable {c : M × Nat}

section Stopped

variable {e : M × Nat} (member : e ∈ out) (around : covers e.1 c.1) (le : c.2 ≤ e.2)
include member around le

/-- An item that is covered by a listed one of at least its rank changes nothing. -/
theorem Pruned.skip : Pruned covers (seen ++ [c]) out := by
  refine ⟨subset_append_of_subset_left _ pruned.sound, fun s inSeen => ?_, pruned.ordered⟩
  rcases mem_append.mp inSeen with earlier | last
  · exact pruned.complete s earlier
  · obtain rfl := mem_singleton.mp last
    exact ⟨e, member, around, le⟩

/-- Under the same condition the item covers nothing listed with a lower rank. -/
theorem Pruned.none_below (trans : ∀ {a b d}, covers a b → covers b d → covers a d) :
    ∀ x ∈ out, ¬ (covers c.1 x.1 ∧ x.2 < c.2) := by
  rintro x inX ⟨inside, lt⟩
  have := pruned.rank_le inX member (trans around inside)
  omega

end Stopped

/-- Any other item is added, and the listed ones it covers with a lower rank are dropped. -/
theorem Pruned.add (refl : ∀ a, covers a a) (trans : ∀ {a b d}, covers a b → covers b d → covers a d)
    {rest : List (M × Nat)} (part : rest <+ out)
    (kept : ∀ x ∈ out, x ∈ rest ↔ ¬ (covers c.1 x.1 ∧ x.2 < c.2))
    (free : ∀ x ∈ out, ¬ (covers x.1 c.1 ∧ c.2 ≤ x.2)) :
    Pruned covers (seen ++ [c]) (rest ++ [c]) := by
  refine ⟨append_subset.mpr ⟨subset_append_of_subset_left _ fun x inside =>
    pruned.sound (part.subset inside), subset_append_right _ _⟩, fun s inSeen => ?_, ?_⟩
  · rcases mem_append.mp inSeen with earlier | last
    · obtain ⟨x, inX, around, le⟩ := pruned.complete s earlier
      by_cases stays : x ∈ rest
      · exact ⟨x, mem_append_left _ stays, around, le⟩
      · -- What covered the item is dropped for the new one, which covers it as well.
        obtain ⟨inside, lt⟩ := not_not.mp (mt (kept x inX).mpr stays)
        exact ⟨c, by simp, trans inside around, by omega⟩
    · obtain rfl := mem_singleton.mp last
      exact ⟨s, by simp, refl _, le_refl _⟩
  · rw [pairwise_append]
    refine ⟨pruned.ordered.sublist part, pairwise_singleton _ _, fun x inX y inY => ?_⟩
    obtain rfl := mem_singleton.mp inY
    have inOut := part.subset inX
    refine ⟨fun around => Nat.lt_of_not_le fun le => free x inOut ⟨around, le⟩, fun inside => ?_⟩
    exact Nat.le_of_not_lt fun lt => (kept x inOut).mp inX ⟨inside, lt⟩

end Item

/-- Where covering items apply to all that the covered ones apply to, one applies among the
items that are left exactly if one does among those seen, and the greatest rank is the same. -/
theorem Pruned.greatest (Applies : M → Prop)
    (wider : ∀ {a b}, covers a b → Applies b → Applies a) :
    ((∃ x ∈ out, Applies x.1) ↔ ∃ s ∈ seen, Applies s.1) ∧
    ∀ x ∈ out, (∀ y ∈ out, Applies y.1 → y.2 ≤ x.2) → ∀ s ∈ seen, Applies s.1 → s.2 ≤ x.2 := by
  have covered : ∀ s ∈ seen, Applies s.1 → ∃ x ∈ out, Applies x.1 ∧ s.2 ≤ x.2 := by
    intro s inSeen applies
    obtain ⟨x, inX, around, le⟩ := pruned.complete s inSeen
    exact ⟨x, inX, wider around applies, le⟩
  refine ⟨⟨fun ⟨x, inX, applies⟩ => ⟨x, pruned.sound inX, applies⟩, fun ⟨s, inSeen, applies⟩ => ?_⟩,
    fun x _ top s inSeen applies => ?_⟩
  · obtain ⟨x, inX, applies, _⟩ := covered s inSeen applies
    exact ⟨x, inX, applies⟩
  · obtain ⟨y, inY, applies, le⟩ := covered s inSeen applies
    exact le.trans (top y inY applies)

end Pruned

/-- Looking up a word in a trie of items that rank no lower than those around them: a miss means
that no item contains the word, and a hit is one of greatest rank among those that do. -/
theorem lookup_fill_greatest {rank : α → Nat} {items : List α} {bits : Nat}
    (ordered : ∀ x ∈ items, ∀ y ∈ items, (block y).covers (block x) → rank y ≤ rank x)
    (value : α → ν) (short : ∀ x ∈ items, (block x).bits ≤ bits) (word : BitVec n) :
    lookup (fill block value items ∅) bits word = none ∧
        (∀ x ∈ items, (block x).contains word = false) ∨
      ∃ x ∈ items, lookup (fill block value items ∅) bits word = some (value x) ∧
        (block x).contains word ∧ ∀ y ∈ items, (block y).contains word → rank y ≤ rank x := by
  rcases lookup_fill_cases block value items bits word with
    ⟨none, missed⟩ | ⟨x, inX, found, inside, top⟩
  · exact .inl ⟨none, fun x inX => missed x inX (short x inX)⟩
  · refine .inr ⟨x, inX, found, inside, fun y inY contains => ordered x inX y inY ?_⟩
    -- Both contain the word, so the shorter one includes the longer one.
    exact Cidr.covers_of_overlap (top y inY (short y inY) contains) contains inside

end Lpm
