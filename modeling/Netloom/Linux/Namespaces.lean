import Netloom.Lib.PrefixCode
import Netloom.Model.Routing

/-!
# Names of network namespaces

A character of an endpoint key is written as itself or as an underscore and a tag. A number
in a tag has six digits, which is enough for every character, so the code is instantaneous.
-/
namespace Netloom.Linux

open Model List PrefixCode

def sanitizeRune (r : Char) : List Char :=
  if ('a' ≤ r ∧ r ≤ 'z') ∨ ('A' ≤ r ∧ r ≤ 'Z') ∨ ('0' ≤ r ∧ r ≤ '9') ∨ r = '-' then [r]
  else if r = '_' then ['_', '_']
  else if r = '.' then ['_', 'd']
  else if r = '/' then ['_', 's']
  else if r = ':' then ['_', 'c']
  else if r = ' ' then ['_', 'w']
  else ['_', 'x'] ++ hexPadded 6 r.toNat

def sanitize (value : String) : String := String.ofList (value.toList.flatMap sanitizeRune)

def netnsName (endpointID namePrefix : String) : String :=
  (if namePrefix = "" then "nl" else namePrefix) ++ "-" ++ sanitize endpointID

/-- The characters with a tag of their own. -/
private def runeTags : List (Char × Char) :=
  [('_', '_'), ('.', 'd'), ('/', 's'), (':', 'c'), (' ', 'w')]

theorem sanitizeRune_cases (r : Char) :
    (r ≠ '_' ∧ sanitizeRune r = [r]) ∨
      (∃ tag, (r, tag) ∈ runeTags ∧ sanitizeRune r = ['_', tag]) ∨
      sanitizeRune r = '_' :: 'x' :: hexPadded 6 r.toNat := by
  unfold sanitizeRune
  split_ifs with plain
  · refine .inl ⟨?_, rfl⟩
    rintro rfl
    exact absurd plain (by decide)
  all_goals simp [*, runeTags]

theorem instantaneous_sanitizeRune : Instantaneous sanitizeRune fun _ => True := by
  intro a b _ _ rest rest' equal
  have told : ∀ p ∈ runeTags, p.2 ≠ 'x' ∧ ∀ q ∈ runeTags, p.2 = q.2 → p.1 = q.1 := by decide
  have six : ∀ c : Char, (hexPadded 6 c.toNat).length = 6 := by
    intro c
    have valid : c.toNat < 0xd800 ∨ 0xdfff < c.toNat ∧ c.toNat < 0x110000 := c.valid
    exact length_hexPadded (by omega) (by omega)
  rcases sanitizeRune_cases a with ⟨plain, code⟩ | ⟨tag, listed, code⟩ | code <;>
    rcases sanitizeRune_cases b with ⟨plain', code'⟩ | ⟨tag', listed', code'⟩ | code' <;>
    rw [code, code'] at equal <;> obtain ⟨head, tail⟩ := cons.inj equal
  · exact head
  · exact absurd head plain
  · exact absurd head plain
  · exact absurd head.symm plain'
  · exact (told _ listed).2 _ listed' (cons.inj tail).1
  · exact absurd (cons.inj tail).1 (told _ listed).1
  · exact absurd head.symm plain'
  · exact absurd (cons.inj tail).1.symm (told _ listed').1
  · have digits := (append_inj (cons.inj tail).2 ((six a).trans (six b).symm)).1
    exact Char.toNat_inj.mp (hexPadded_inj digits)

/-- Different endpoints have different names, under every prefix. -/
theorem netnsName_injective : Function.Injective sanitize ∧
    ∀ namePrefix, Function.Injective fun endpointID => netnsName endpointID namePrefix := by
  have injective : Function.Injective sanitize := by
    intro left right equal
    have codes := String.ofList_injective equal
    exact String.toList_inj.mp (instantaneous_sanitizeRune.injective
      (fun r => by rcases sanitizeRune_cases r with ⟨_, code⟩ | ⟨_, _, code⟩ | code <;> simp [code])
      (fun _ _ => trivial) (fun _ _ => trivial) codes)
  exact ⟨injective, fun namePrefix left right equal =>
    injective (String.append_right_inj _ |>.mp equal)⟩

end Netloom.Linux
