import Netloom.Lib.PrefixCode
import Netloom.Ovn.Operation

/-!
# Names of records as codes

A name is sanitised character by character: letters, digits and hyphens stay, every
other character becomes an underscore and a tag. As long as all characters are below
U+10000 this is an instantaneous code; above, a number has more than four digits and its
first four can be those of another character. The underscore that joins VPC and name can be
read as the start of a tag.
-/
namespace Netloom.Ovn

open Model List Text
open String (toList_ofList toList_inj toList_injective)

/-! ### The code of a character -/

/-- The characters that are written as they are. -/
def Plain (c : Char) : Prop :=
  ('a' ≤ c ∧ c ≤ 'z') ∨ ('A' ≤ c ∧ c ≤ 'Z') ∨ ('0' ≤ c ∧ c ≤ '9') ∨ c = '-'

instance (c : Char) : Decidable (Plain c) := by unfold Plain; infer_instance

/-- The characters whose number has at most four digits, and those where the first four of
the digits are a surrogate. -/
def Basic (c : Char) : Prop := c.toNat < 0x10000 ∨ (0xd8000 ≤ c.toNat ∧ c.toNat < 0xe0000)

instance (c : Char) : Decidable (Basic c) := by unfold Basic; infer_instance

/-- What follows the underscore in the code of a character. -/
def escapeTag (c : Char) : List Char :=
  if c = '_' then ['_'] else if c = '.' then ['d'] else if c = '/' then ['s']
  else if c = ':' then ['c'] else 'x' :: hexPadded 4 c.toNat

variable {c : Char}

theorem sanitizeRune_of_plain (plain : Plain c) : ovnSanitizeRune c = [c] := by
  rw [ovnSanitizeRune]
  exact if_pos plain

theorem sanitizeRune_of_escaped (escaped : ¬ Plain c) : ovnSanitizeRune c = '_' :: escapeTag c := by
  rw [Plain] at escaped
  rw [ovnSanitizeRune, if_neg escaped, escapeTag]
  split_ifs <;> rfl

theorem sanitizeRune_ne_nil (c : Char) : ovnSanitizeRune c ≠ [] := by
  by_cases plain : Plain c
  · simp [sanitizeRune_of_plain plain]
  · simp [sanitizeRune_of_escaped plain]

variable {n : Nat}

/-- A number of more than four digits is written as its quotient and the last digit. -/
theorem hexPadded_of_le (large : 0x10000 ≤ n) :
    hexPadded 4 n = hexPadded 4 (n / 16) ++ [Nat.digitChar (n % 16)] := by
  have digits : 4 ≤ (Nat.toDigits 16 (n / 16)).length := by
    by_contra short
    have small := (Nat.length_toDigits_le_iff (b := 16) (k := 3) (by omega) (by omega)).mp
      (show (Nat.toDigits 16 (n / 16)).length ≤ 3 by omega)
    omega
  rw [hexPadded, Nat.toDigits_of_base_le (by omega) (by omega), hexPadded,
    Nat.sub_eq_zero_of_le digits, Nat.sub_eq_zero_of_le (by simp; omega)]
  simp

variable {rest : List Char} {a b : Char} {rest' : List Char}

/-- Numbers of four digits and numbers that continue a surrogate are told apart. -/
theorem hexPadded_told (basic : Basic a) (basic' : Basic b)
    (equal : hexPadded 4 a.toNat ++ rest = hexPadded 4 b.toNat ++ rest') :
    a = b := by
  -- the first four digits of the longer number are no character
  have apart : ∀ {a b : Char} {rest rest' : List Char}, a.toNat < 0x10000 →
      0xd8000 ≤ b.toNat → b.toNat < 0xe0000 →
      hexPadded 4 a.toNat ++ rest ≠ hexPadded 4 b.toNat ++ rest' := by
    intro a b rest rest' small low high equal
    rw [hexPadded_of_le (show 0x10000 ≤ b.toNat by omega), append_assoc] at equal
    have digits := (append_inj equal ((length_hexPadded (by omega) small).trans
      (length_hexPadded (by omega) (by omega)).symm)).1
    have number := hexPadded_inj digits
    have valid : a.toNat < 0xd800 ∨ 0xdfff < a.toNat ∧ a.toNat < 0x110000 := a.valid
    omega
  have lengths : (hexPadded 4 a.toNat).length = (hexPadded 4 b.toNat).length := by
    have five : ∀ {n : Nat}, 0xd8000 ≤ n → n < 0xe0000 → (hexPadded 4 n).length = 5 := by
      intro n low high
      rw [hexPadded_of_le (by omega), length_append, length_hexPadded (by omega) (by omega),
        length_singleton]
    rcases basic with small | ⟨low, high⟩ <;> rcases basic' with small' | ⟨low', high'⟩
    · rw [length_hexPadded (by omega) small, length_hexPadded (by omega) small']
    · exact absurd equal (apart small low' high')
    · exact absurd equal.symm (apart small' low high)
    · rw [five low high, five low' high']
  exact Char.toNat_inj.mp (hexPadded_inj (append_inj equal lengths).1)

/-- The shapes of a tag. -/
theorem escapeTag_cases (c : Char) :
    (c = '_' ∧ escapeTag c = ['_']) ∨ (c = '.' ∧ escapeTag c = ['d']) ∨
      (c = '/' ∧ escapeTag c = ['s']) ∨ (c = ':' ∧ escapeTag c = ['c']) ∨
      escapeTag c = 'x' :: hexPadded 4 c.toNat := by
  rw [escapeTag]
  split_ifs <;> simp [*]

theorem escapeTag_told (basic : Basic a) (basic' : Basic b)
    (equal : escapeTag a ++ rest = escapeTag b ++ rest') : a = b := by
  -- the first character says which shape it is, and the digits say the rest
  rcases escapeTag_cases a with ⟨rfl, tag⟩ | ⟨rfl, tag⟩ | ⟨rfl, tag⟩ | ⟨rfl, tag⟩ | tag <;>
    rcases escapeTag_cases b with ⟨rfl, tag'⟩ | ⟨rfl, tag'⟩ | ⟨rfl, tag'⟩ | ⟨rfl, tag'⟩ | tag' <;>
    first
    | rfl
    | rw [tag, tag'] at equal
      first
      | exact absurd (cons.inj equal).1 (by decide)
      | exact hexPadded_told basic basic' (cons.inj equal).2

/-- On these characters the code is instantaneous. -/
theorem instantaneous_sanitizeRune : PrefixCode.Instantaneous ovnSanitizeRune Basic := by
  have noUnderscore : ∀ {c : Char}, Plain c → c ≠ '_' := by
    rintro c plain rfl
    exact absurd plain (by decide)
  intro a b basic basic' rest rest' equal
  by_cases plain : Plain a <;> by_cases plain' : Plain b
  · rw [sanitizeRune_of_plain plain, sanitizeRune_of_plain plain'] at equal
    exact (cons.inj equal).1
  · rw [sanitizeRune_of_plain plain, sanitizeRune_of_escaped plain'] at equal
    exact absurd (cons.inj equal).1 (noUnderscore plain)
  · rw [sanitizeRune_of_escaped plain, sanitizeRune_of_plain plain'] at equal
    exact absurd (cons.inj equal).1.symm (noUnderscore plain')
  · rw [sanitizeRune_of_escaped plain, sanitizeRune_of_escaped plain'] at equal
    exact escapeTag_told basic basic' (cons.inj equal).2

/-! ### Codes of texts -/

/-- The sanitised form of a text that is not empty. -/
def codeOf (chars : List Char) : List Char := chars.flatMap ovnSanitizeRune

@[simp] theorem codeOf_nil : codeOf [] = [] := rfl

@[simp] theorem codeOf_cons (c : Char) (rest : List Char) :
    codeOf (c :: rest) = ovnSanitizeRune c ++ codeOf rest := rfl

@[simp] theorem codeOf_append (left right : List Char) :
    codeOf (left ++ right) = codeOf left ++ codeOf right := flatMap_append

variable {chars : List Char}

theorem codeOf_of_plain (plain : ∀ c ∈ chars, Plain c) :
    codeOf chars = chars := by
  induction chars with
  | nil => rfl
  | cons c rest ih =>
    rw [codeOf_cons, sanitizeRune_of_plain (plain c (by simp)),
      ih fun x member => plain x (by simp [member]), singleton_append]

theorem toNat_of_plain (plain : Plain c) : c.toNat < 0x80 := by
  have bound : ∀ {a : Char}, c ≤ a → a.toNat < 0x80 → c.toNat < 0x80 := by
    intro a le small
    exact Nat.lt_of_le_of_lt le small
  rcases plain with ⟨_, le⟩ | ⟨_, le⟩ | ⟨_, le⟩ | rfl
  iterate 3 exact bound le (by decide)
  decide

theorem basic_of_plain (plain : Plain c) : Basic c := by
  have small := toNat_of_plain plain
  exact .inl (by omega)

/-- Characters that are not ASCII are written as their number. -/
theorem sanitizeRune_of_large (large : 0x80 ≤ c.toNat) :
    ovnSanitizeRune c = '_' :: 'x' :: hexPadded 4 c.toNat := by
  have escaped : ¬ Plain c := fun plain => by
    have small := toNat_of_plain plain
    omega
  rw [sanitizeRune_of_escaped escaped]
  rcases escapeTag_cases c with ⟨rfl, _⟩ | ⟨rfl, _⟩ | ⟨rfl, _⟩ | ⟨rfl, _⟩ | tag
  iterate 4 exact absurd large (by decide)
  rw [tag]

theorem plain_digitChar : ∀ digit < 16, Plain (Nat.digitChar digit) := by decide

theorem forall_mem_of_all {P : Char → Prop} [DecidablePred P]
    (all : (chars.all fun c => P c)) : ∀ c ∈ chars, P c := by
  simpa using all

/-- All tags but that of the underscore are plain. -/
theorem plain_of_mem_escapeTag (other : c ≠ '_') : ∀ x ∈ escapeTag c, Plain x := by
  rcases escapeTag_cases c with ⟨same, _⟩ | ⟨_, tag⟩ | ⟨_, tag⟩ | ⟨_, tag⟩ | tag
  · exact absurd same other
  all_goals rw [tag]
  iterate 3 exact forall_mem_of_all (by decide)
  exact forall_mem_cons.mpr ⟨by decide, forall_hexPadded plain_digitChar⟩

theorem basic_of_mem_escapeTag : ∀ x ∈ escapeTag c, Basic x := by
  by_cases same : c = '_'
  · rw [same]
    exact forall_mem_of_all (by decide)
  · exact fun x member => basic_of_plain (plain_of_mem_escapeTag same x member)

theorem codeOf_injective {left right : List Char} (basic : ∀ c ∈ left, Basic c)
    (basic' : ∀ c ∈ right, Basic c) (equal : codeOf left = codeOf right) : left = right :=
  instantaneous_sanitizeRune.injective sanitizeRune_ne_nil basic basic' equal

/-- A code that starts with an underscore is that of a character that is not plain. -/
theorem escaped_of_codeOf {tail : List Char} (starts : ovnSanitizeRune c ++ rest = '_' :: tail) :
    ¬ Plain c := by
  intro plain
  rw [sanitizeRune_of_plain plain] at starts
  rw [(cons.inj starts).1] at plain
  exact absurd plain (by decide)

/-! ### Underscores that are read as the start of a tag -/

/-- An underscore in front of this text and the separator behind it can be read as parts of
one code. Leading underscores only move the question to the next character. -/
def Reads : List Char → Prop
  | [] => True
  | c :: rest =>
    if c = '_' then Reads rest
    else ¬ Plain c ∨ ∃ u, Basic u ∧ ¬ Plain u ∧ escapeTag u <+: c :: rest

/-- The text, a separator and the code of some name are together the code of a name. -/
def Opens (text : List Char) : Prop :=
  ∃ name name' : List Char, (∀ c ∈ name, Basic c) ∧ (∀ c ∈ name', Basic c) ∧ name' ≠ [] ∧
    codeOf name = text ++ '_' :: codeOf name'

/-- A separator and a letter are the code of a dot. -/
theorem opens_codeOf (basic : ∀ c ∈ chars, Basic c) : Opens (codeOf chars) := by
  refine ⟨chars ++ ['.'], ['d'], ?_, forall_mem_of_all (by decide), by simp, ?_⟩
  · exact forall_mem_append.mpr ⟨basic, forall_mem_of_all (by decide)⟩
  · rw [codeOf_append]
    rfl

theorem opens_cons (basic : Basic c) {text : List Char} :
    Opens (ovnSanitizeRune c ++ text) ↔ Opens text := by
  constructor
  · rintro ⟨name, name', fine, fine', some', equal⟩
    cases name with
    | nil => simp at equal
    | cons u name =>
      obtain ⟨basicU, basicName⟩ := forall_mem_cons.mp fine
      rw [codeOf_cons, append_assoc] at equal
      obtain rfl := instantaneous_sanitizeRune _ _ basicU basic _ _ equal
      exact ⟨name, name', basicName, fine', some', append_cancel_left equal⟩
  · rintro ⟨name, name', fine, fine', some', equal⟩
    exact ⟨c :: name, name', forall_mem_cons.mpr ⟨basic, fine⟩, fine', some', by
      rw [codeOf_cons, equal, append_assoc]⟩

theorem sanitizeRune_underscore : ovnSanitizeRune '_' = ['_', '_'] := by decide

/-- The tag of a character that is not plain is plain, so it is its own code. -/
theorem codeOf_escapeTag (other : c ≠ '_') : codeOf (escapeTag c) = escapeTag c :=
  codeOf_of_plain (plain_of_mem_escapeTag other)

theorem opens_escaped (other : c ≠ '_') (basic : ∀ x ∈ rest, Basic x) :
    Opens (escapeTag c ++ codeOf rest) := by
  rw [← codeOf_escapeTag other, ← codeOf_append]
  exact opens_codeOf (forall_mem_append.mpr ⟨basic_of_mem_escapeTag, basic⟩)

theorem reads_iff (basic : ∀ c ∈ chars, Basic c) : Reads chars ↔ Opens ('_' :: codeOf chars) := by
  have double : ∀ text, '_' :: '_' :: text = ovnSanitizeRune '_' ++ text := by
    intro text
    rw [sanitizeRune_underscore]
    rfl
  induction chars with
  | nil => exact ⟨fun _ => ⟨['_', 'd'], ['d'], forall_mem_of_all (by decide),
      forall_mem_of_all (by decide), by simp, by decide⟩, fun _ => trivial⟩
  | cons c rest ih =>
    obtain ⟨basicC, basicRest⟩ := forall_mem_cons.mp basic
    rw [Reads]
    by_cases same : c = '_'
    · -- two underscores are the code of one, and the third is in front of the rest
      subst same
      rw [if_pos rfl, codeOf_cons, sanitizeRune_underscore, cons_append, double,
        opens_cons basicC]
      exact ih basicRest
    · rw [if_neg same]
      by_cases plain : Plain c
      · rw [or_iff_right (by simpa using plain)]
        constructor
        · rintro ⟨u, basicU, escaped, more, shape⟩
          have other : u ≠ '_' := by
            rintro rfl
            exact same (cons.inj shape).1.symm
          have basicMore : ∀ x ∈ more, Basic x := by
            intro x member
            exact basic x (shape ▸ mem_append_right _ member)
          have code : '_' :: codeOf (c :: rest) = codeOf (u :: more) := by
            rw [← shape, codeOf_append, codeOf_escapeTag other, codeOf_cons,
              sanitizeRune_of_escaped escaped, cons_append]
          rw [code]
          exact opens_codeOf (forall_mem_cons.mpr ⟨basicU, basicMore⟩)
        · rintro ⟨name, name', fine, fine', some', equal⟩
          cases name with
          | nil => simp at equal
          | cons u name =>
            have basicU := (forall_mem_cons.mp fine).1
            have escaped : ¬ Plain u := escaped_of_codeOf (codeOf_cons u name ▸ equal)
            rw [codeOf_cons u, sanitizeRune_of_escaped escaped, cons_append, cons_append,
              cons.injEq] at equal
            have other : u ≠ '_' := by
              rintro rfl
              have heads := equal.2
              rw [codeOf_cons, sanitizeRune_of_plain plain] at heads
              exact same (cons.inj heads).1.symm
            -- the tag and the text agree as far as both go, and the tag cannot reach the separator
            have texts : codeOf (c :: rest) ++ '_' :: codeOf name' =
                codeOf (escapeTag u) ++ codeOf name := by
              rw [codeOf_escapeTag other]
              exact equal.2.symm
            refine ⟨u, basicU, escaped, ?_⟩
            rcases instantaneous_sanitizeRune.continues basic basic_of_mem_escapeTag texts with
              ⟨more, shape, tail⟩ | ⟨more, shape, _⟩
            · cases more with
              | nil => rw [shape, append_nil]
              | cons x more =>
                have plainX : Plain x := plain_of_mem_escapeTag other x (shape ▸ by simp)
                exact absurd plainX (escaped_of_codeOf (by
                  rw [flatMap_cons, append_assoc] at tail
                  exact tail.symm))
            · exact ⟨more, shape.symm⟩
      · -- an underscore in front of a tag that is plain stands for itself
        rw [codeOf_cons, sanitizeRune_of_escaped plain, cons_append, double,
          opens_cons (by decide)]
        exact iff_of_true (.inl plain) (opens_escaped same basicRest)

/-- The same of a text that starts with an escaped character, behind its own underscore. -/
theorem reads_cons_iff (escaped : ¬ Plain c) (basic : ∀ x ∈ rest, Basic x) :
    Reads (c :: rest) ↔ Opens (escapeTag c ++ codeOf rest) := by
  rw [Reads]
  split
  · next same =>
    rw [same]
    exact reads_iff basic
  · next other => exact iff_of_true (.inl escaped) (opens_escaped other basic)

/-! ### Names of objects -/

/-- The name of an object before it is shortened. -/
def objectName (kind vpc name : String) : String :=
  kind ++ ovnSanitize vpc ++ "_" ++ ovnSanitize name

variable {name : String}

theorem toList_ovnSanitize (named : name ≠ "") :
    (ovnSanitize name).toList = codeOf name.toList := by
  rw [ovnSanitize, if_neg named, toList_ofList, codeOf]

def BasicName (name : String) : Prop := ∀ c ∈ name.toList, Basic c

instance (name : String) : Decidable (BasicName name) :=
  decidable_of_iff (name.toList.all fun c => decide (Basic c)) (by simp [BasicName])

variable {vpc vpc' name' : String}

theorem objectName_eq_iff {kind : String} (named : vpc ≠ "" ∧ name ≠ "")
    (named' : vpc' ≠ "" ∧ name' ≠ "") : objectName kind vpc name = objectName kind vpc' name' ↔
      codeOf vpc.toList ++ '_' :: codeOf name.toList =
        codeOf vpc'.toList ++ '_' :: codeOf name'.toList := by
  rw [← toList_inj]
  simp [objectName, toList_ovnSanitize named.1, toList_ovnSanitize named.2,
      toList_ovnSanitize named'.1, toList_ovnSanitize named'.2, show "_".toList = ['_'] from rfl]

/-- The second VPC name is the first one and more, where the separator behind the first one
can be read as the start of a tag. -/
def Shifts (vpc vpc' : String) : Prop :=
  ∃ c rest, vpc'.toList = vpc.toList ++ c :: rest ∧ ¬ Plain c ∧ Reads (c :: rest)

/-- Texts that are shortened to one name are the same. -/
def Reliable (sha256 : Sha256) (text text' : String) : Prop :=
  ovnIdentifier sha256 text = ovnIdentifier sha256 text' → text = text'

/-- Objects of one name have the same VPC and the same name, or their VPCs shift. -/
theorem shifts_of_codes (basic : BasicName vpc ∧ BasicName name)
    (basic' : BasicName vpc' ∧ BasicName name') (named : name ≠ "") (named' : name' ≠ "")
    (equal : codeOf vpc.toList ++ '_' :: codeOf name.toList =
      codeOf vpc'.toList ++ '_' :: codeOf name'.toList) :
    (vpc = vpc' ∧ name = name') ∨ Shifts vpc vpc' ∨ Shifts vpc' vpc := by
  -- it is enough to look at the case where the second VPC name is the longer one
  have longer : ∀ {vpc vpc' name name' : String}, BasicName vpc' → BasicName name →
      BasicName name' → name ≠ "" → name' ≠ "" → ∀ more, vpc'.toList = vpc.toList ++ more →
      '_' :: codeOf name.toList = codeOf more ++ '_' :: codeOf name'.toList →
      (vpc = vpc' ∧ name = name') ∨ Shifts vpc vpc' := by
    intro vpc vpc' name name' basicVPC basicName basicName' named named' more shape equal
    cases more with
    | nil =>
      rw [append_nil] at shape
      exact .inl ⟨toList_injective shape.symm, toList_injective
        (codeOf_injective basicName basicName' (cons.inj equal).2)⟩
    | cons c rest =>
      have escaped : ¬ Plain c := escaped_of_codeOf (by
        rw [codeOf_cons, append_assoc] at equal
        exact equal.symm)
      have basicRest : ∀ x ∈ rest, Basic x := fun x member =>
        basicVPC x (shape ▸ by simp [member])
      refine .inr ⟨c, rest, shape, escaped, (reads_cons_iff escaped basicRest).mpr
        ⟨name.toList, name'.toList, basicName, basicName',
          fun empty => named' (toList_injective empty), ?_⟩⟩
      rw [codeOf_cons, sanitizeRune_of_escaped escaped] at equal
      exact (cons.inj equal).2
  rcases instantaneous_sanitizeRune.continues basic.1 basic'.1 equal with
    ⟨more, shape, tail⟩ | ⟨more, shape, tail⟩
  · rcases longer basic'.1 basic.2 basic'.2 named named' more shape tail with same | shift
    · exact .inl same
    · exact .inr (.inl shift)
  · rcases longer basic.1 basic'.2 basic.2 named' named more shape tail with same | shift
    · exact .inl ⟨same.1.symm, same.2.symm⟩
    · exact .inr (.inr shift)

/-- If two VPCs shift, some of their objects have one name. -/
theorem codes_of_shifts (basic' : BasicName vpc') (shifts : Shifts vpc vpc') :
    ∃ name name' : String, (BasicName name ∧ name ≠ "") ∧ (BasicName name' ∧ name' ≠ "") ∧
      vpc ≠ vpc' ∧ codeOf vpc.toList ++ '_' :: codeOf name.toList =
        codeOf vpc'.toList ++ '_' :: codeOf name'.toList := by
  obtain ⟨c, rest, shape, escaped, reads⟩ := shifts
  have differ : vpc ≠ vpc' := by
    rintro rfl
    simpa using congrArg length shape
  have basicRest : ∀ x ∈ rest, Basic x := fun x member => basic' x (shape ▸ by simp [member])
  obtain ⟨name, name', fine, fine', some', equal⟩ := (reads_cons_iff escaped basicRest).mp reads
  have some : name ≠ [] := by
    rintro rfl
    simp at equal
  have named : ∀ {chars : List Char}, chars ≠ [] → String.ofList chars ≠ "" := by
    intro chars some empty
    exact some (by simpa using congrArg String.toList empty)
  refine ⟨String.ofList name, String.ofList name', ⟨?_, named some⟩, ⟨?_, named some'⟩, differ, ?_⟩
  iterate 2 rwa [BasicName, toList_ofList]
  simp [equal, shape, sanitizeRune_of_escaped escaped]

/-- A name with any other character has the code of another name. -/
theorem exists_same_code (other : ¬ BasicName name) :
    ∃ name' : String, name' ≠ name ∧ codeOf name'.toList = codeOf name.toList := by
  obtain ⟨c, member, large⟩ : ∃ c ∈ name.toList, ¬ Basic c := by
    simpa [BasicName] using other
  obtain ⟨before, after, shape⟩ := append_of_mem member
  simp only [Basic, not_or, not_and] at large
  have top : c.toNat < 0xd800 ∨ 0xdfff < c.toNat ∧ c.toNat < 0x110000 := c.valid
  -- the first digits are a character, and the last one is written as it is
  have valid : Nat.isValidChar (c.toNat / 16) := by
    simp only [Nat.isValidChar]
    omega
  let first : Char := Char.ofNatAux (c.toNat / 16) valid
  have number : first.toNat = c.toNat / 16 := rfl
  have code : codeOf [first, Nat.digitChar (c.toNat % 16)] = codeOf [c] := by
    have digit := plain_digitChar (c.toNat % 16) (by omega)
    simp only [codeOf_cons, codeOf_nil, append_nil, sanitizeRune_of_plain digit]
    rw [sanitizeRune_of_large (by omega), sanitizeRune_of_large (show 0x80 ≤ c.toNat by omega),
      hexPadded_of_le (show 0x10000 ≤ c.toNat by omega), number]
    rfl
  refine ⟨String.ofList (before ++ [first, Nat.digitChar (c.toNat % 16)] ++ after), ?_, ?_⟩
  · rintro rfl
    simpa using congrArg length shape
  · rw [toList_ofList, shape, codeOf_append, codeOf_append, code, ← codeOf_append,
      ← codeOf_append, append_assoc, singleton_append]

theorem ne_empty_of_code (named : name ≠ "") (code : codeOf name'.toList = codeOf name.toList) :
    name' ≠ "" := by
  rintro rfl
  obtain ⟨c, rest, shape⟩ := exists_cons_of_ne_nil
    (fun empty => named (toList_injective empty))
  rw [shape, codeOf_cons] at code
  exact sanitizeRune_ne_nil c (append_eq_nil_iff.mp code.symm).1

theorem sanitize_of_code (named : name ≠ "") (code : codeOf name'.toList = codeOf name.toList) :
    ovnSanitize name' = ovnSanitize name := by
  apply toList_injective
  rw [toList_ovnSanitize named, toList_ovnSanitize (ne_empty_of_code named code), code]

/-! ### Names that are told apart -/

section

variable (sha256 : Sha256)

/-- Routers of two VPCs have different names. -/
def RoutersApart (vpc vpc' : String) : Prop :=
  Reliable sha256 ("nl_lr_" ++ ovnSanitize vpc) ("nl_lr_" ++ ovnSanitize vpc') →
    logicalRouter sha256 vpc ≠ logicalRouter sha256 vpc'

/-- Two objects have different names, be they subnets, endpoints or load balancers. -/
def ObjectsApart (vpc name vpc' name' : String) : Prop :=
  (Reliable sha256 (objectName "nl_ls_" vpc name) (objectName "nl_ls_" vpc' name') →
    logicalSwitch sha256 vpc name ≠ logicalSwitch sha256 vpc' name') ∧
  (Reliable sha256 (objectName "nl_lp_" vpc name) (objectName "nl_lp_" vpc' name') →
    logicalPort sha256 vpc name ≠ logicalPort sha256 vpc' name') ∧
  (Reliable sha256 (objectName "nl_lb_" vpc name) (objectName "nl_lb_" vpc' name') →
    loadBalancerName sha256 vpc name ≠ loadBalancerName sha256 vpc' name')

variable {sha256}

theorem objectsApart_of_ne {vpc name vpc' name' : String}
    (differ : ∀ kind, objectName kind vpc name ≠ objectName kind vpc' name') :
    ObjectsApart sha256 vpc name vpc' name' :=
  ⟨fun reliable equal => differ _ (reliable equal), fun reliable equal => differ _ (reliable equal),
    fun reliable equal => differ _ (reliable equal)⟩

theorem not_objectsApart_of_eq {vpc name vpc' name' : String}
    (same : ∀ kind, objectName kind vpc name = objectName kind vpc' name') :
    ¬ ObjectsApart sha256 vpc name vpc' name' := by
  intro apart
  exact apart.1 (fun _ => same _) (congrArg (ovnIdentifier sha256) (same "nl_ls_"))

end

/-- Routers of different VPCs have different names, and so have all objects of two VPCs if
neither VPC name shifts the other. A name with any other character has the name of another. -/
theorem names_apart_iff (sha256 : Sha256) :
    (∀ vpc vpc' : String, vpc ≠ "" → vpc' ≠ "" → BasicName vpc → BasicName vpc' →
      (vpc ≠ vpc' → RoutersApart sha256 vpc vpc') ∧
      ((∀ name name' : String, name ≠ "" → name' ≠ "" → BasicName name → BasicName name' →
          (vpc, name) ≠ (vpc', name') → ObjectsApart sha256 vpc name vpc' name') ↔
        ¬ Shifts vpc vpc' ∧ ¬ Shifts vpc' vpc)) ∧
    ∀ name : String, name ≠ "" → ¬ BasicName name → ∃ name' : String, name' ≠ "" ∧ name' ≠ name ∧
      ¬ RoutersApart sha256 name name' ∧ ∀ vpc, ¬ ObjectsApart sha256 vpc name vpc name' := by
  refine ⟨fun vpc vpc' named named' basic basic' => ⟨?_, ?_, ?_⟩, ?_⟩
  · intro differ reliable equal
    have texts := toList_inj.mpr (reliable equal)
    simp only [String.toList_append, append_cancel_left_eq, toList_ovnSanitize named,
      toList_ovnSanitize named'] at texts
    exact differ (toList_injective (codeOf_injective basic basic' texts))
  · -- a shift gives two objects of one name
    intro apart
    constructor
    · intro shifts
      obtain ⟨name, name', ⟨fine, some⟩, ⟨fine', some'⟩, differ, equal⟩ :=
        codes_of_shifts basic' shifts
      refine not_objectsApart_of_eq (fun kind => ?_)
        (apart name name' some some' fine fine' fun same => differ (Prod.mk.inj same).1)
      exact (objectName_eq_iff ⟨named, some⟩ ⟨named', some'⟩).mpr equal
    · intro shifts
      obtain ⟨name, name', ⟨fine, some⟩, ⟨fine', some'⟩, differ, equal⟩ :=
        codes_of_shifts basic shifts
      refine not_objectsApart_of_eq (fun kind => ?_)
        (apart name' name some' some fine' fine fun same => differ (Prod.mk.inj same).1.symm)
      exact (objectName_eq_iff ⟨named, some'⟩ ⟨named', some⟩).mpr equal.symm
  · rintro ⟨forth, back⟩ name name' some some' fine fine' differ
    apply objectsApart_of_ne
    intro kind equal
    have codes := (objectName_eq_iff ⟨named, some⟩ ⟨named', some'⟩).mp equal
    rcases shifts_of_codes ⟨basic, fine⟩ ⟨basic', fine'⟩ some some' codes with
      ⟨rfl, rfl⟩ | shifts | shifts
    · exact differ rfl
    · exact forth shifts
    · exact back shifts
  · intro name named other
    obtain ⟨name', differ, code⟩ := exists_same_code other
    have text := sanitize_of_code named code
    refine ⟨name', ne_empty_of_code named code, differ, ?_, fun vpc => ?_⟩
    · intro apart
      exact apart (fun _ => by rw [text]) (by rw [logicalRouter, logicalRouter,
        ovnLogicalRouterName, ovnLogicalRouterName, text])
    · exact not_objectsApart_of_eq fun kind => by rw [objectName, objectName, text]

/-- VPC names of letters do not shift each other; a character with five digits is not told
from two others. -/
theorem names_apart_red_blue :
    (∀ name name' : String, name ≠ "" → name' ≠ "" → BasicName name → BasicName name' →
      ("red", name) ≠ ("blue", name') → ObjectsApart (fun _ => []) "red" name "blue" name') ∧
    ∃ name' : String, name' ≠ "" ∧ name' ≠ "🌐" ∧ ¬ RoutersApart (fun _ => []) "🌐" name' := by
  constructor
  · refine ((names_apart_iff (fun _ => [])).1 "red" "blue" (by decide) (by decide) (by decide)
      (by decide)).2.mpr ⟨?_, ?_⟩
    all_goals
      rintro ⟨c, rest, shape, _⟩
      exact absurd (cons.inj shape).1 (by decide)
  · obtain ⟨name', named, differ, routers, _⟩ :=
      (names_apart_iff (fun _ => [])).2 "🌐" (by decide) (by decide)
    exact ⟨name', named, differ, routers⟩

/-- The dot of the VPC and the separator are read as separator and dot, whatever the hash. -/
theorem names_shared_dot :
    (fun sha256 => logicalSwitch sha256 "a.b" "c") = (fun sha256 => logicalSwitch sha256 "a" "db:") ∧
    (fun sha256 => logicalPort sha256 "a.b" "c") = (fun sha256 => logicalPort sha256 "a" "db:") ∧
    (fun sha256 => loadBalancerName sha256 "a.b" "c") =
      (fun sha256 => loadBalancerName sha256 "a" "db:") ∧
    (fun sha256 => logicalRouter sha256 "𐀀") = (fun sha256 => logicalRouter sha256 "က0") := by
  have same : ∀ kind, objectName kind "a.b" "c" = objectName kind "a" "db:" := by
    intro kind
    exact (objectName_eq_iff (by decide) (by decide)).mpr (by decide)
  have router : "nl_lr_" ++ ovnSanitize "𐀀" = "nl_lr_" ++ ovnSanitize "က0" := by decide
  exact ⟨funext fun sha256 => congrArg (ovnIdentifier sha256) (same "nl_ls_"),
    funext fun sha256 => congrArg (ovnIdentifier sha256) (same "nl_lp_"),
    funext fun sha256 => congrArg (ovnIdentifier sha256) (same "nl_lb_"),
    funext fun sha256 => congrArg (ovnIdentifier sha256) router⟩

end Netloom.Ovn
