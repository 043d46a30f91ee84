import Netloom.Lib.Cidr

/-!
# Addresses and prefixes of `net/netip`

`Addr` is the zero value, an IPv4 address or an IPv6 address with its zone;
an IPv4-mapped address is an IPv6 address. `Prefix` keeps one invalid value:
the package never compares two different invalid prefixes.
-/
namespace Netloom.Netip

inductive Addr where
  | zero
  | v4 (word : BitVec 32)
  | v6 (word : BitVec 128) (zone : String)
  deriving DecidableEq, Repr

inductive Prefix where
  | invalid
  | v4 (block : Cidr 32)
  | v6 (block : Cidr 128)
  deriving DecidableEq, Repr

namespace Addr

def isValid : Addr → Bool
  | zero => false
  | v4 _ => true
  | v6 _ _ => true

def is4 : Addr → Bool
  | v4 _ => true
  | zero | v6 _ _ => false

def is6 : Addr → Bool
  | v6 _ _ => true
  | zero | v4 _ => false

def isUnspecified (ip : Addr) : Bool := ip == .v4 0 || ip == .v6 0 ""

def bitLen : Addr → Nat
  | zero => 0
  | v4 _ => 32
  | v6 _ _ => 128

def zone : Addr → String
  | v6 _ name => name
  | zero | v4 _ => ""

def toNat : Addr → Nat
  | zero => 0
  | v4 word => word.toNat
  | v6 word _ => word.toNat

/-- `Addr.Compare`: the family first, then the address, then the zone. -/
def compare (a b : Addr) : Ordering :=
  (Ord.compare a.bitLen b.bitLen).then
    ((Ord.compare a.toNat b.toNat).then (Ord.compare a.zone b.zone))

end Addr

/-! ### Text form of addresses -/

def decimal (n : Nat) : List Char := n.repr.toList

def hex (n : Nat) : List Char := Nat.toDigits 16 n

/-- The four bytes of an IPv4 address, most significant first. -/
def bytes4 (word : BitVec 32) : List (BitVec 8) :=
  [word.extractLsb' 24 8, word.extractLsb' 16 8, word.extractLsb' 8 8, word.extractLsb' 0 8]

def text4 (word : BitVec 32) : List Char :=
  List.intercalate ['.'] ((bytes4 word).map fun byte => decimal byte.toNat)

/-- The eight groups of an IPv6 address, most significant first. -/
def groups6 (word : BitVec 128) : List (BitVec 16) :=
  (List.range 8).map fun i => word.extractLsb' (16 * (7 - i)) 16

def zeroRunAt (groups : List (BitVec 16)) (i : Nat) : Nat :=
  ((groups.drop i).takeWhile (· == 0)).length

/-- The first longest run of at least two zero groups, as start and end. -/
def zeroRun (groups : List (BitVec 16)) : Option (Nat × Nat) :=
  (List.range 8).foldl (fun best i =>
    let length := zeroRunAt groups i
    if 2 ≤ length ∧ (best.elim 0 fun run => run.2 - run.1) < length
      then some (i, i + length) else best) none

/-- What stands between the colons. The zero run is an empty piece, with one more
at either end of the text if the run reaches it. -/
def pieces6 (groups : List (BitVec 16)) : List (List Char) :=
  let texts := groups.map fun group => hex group.toNat
  match zeroRun groups with
  | none => texts
  | some (first, after) =>
    (if first = 0 then [[]] else texts.take first) ++ [[]] ++
      (if 8 ≤ after then [[]] else texts.drop after)

/-- `Addr.Is4In6`: the IPv4-mapped addresses `::ffff:0:0/96`. -/
def is4In6 (word : BitVec 128) : Bool := word.extractLsb' 32 96 == 0xffff

def text6 (word : BitVec 128) : List Char :=
  if is4In6 word then "::ffff:".toList ++ text4 (word.extractLsb' 0 32)
  else List.intercalate [':'] (pieces6 (groups6 word))

def Addr.text : Addr → List Char
  | .zero => "invalid IP".toList
  | .v4 word => text4 word
  | .v6 word zone => text6 word ++ if zone = "" then [] else '%' :: zone.toList

theorem Addr.text_v4 (word : BitVec 32) : (Addr.v4 word).text = text4 word := rfl

theorem Addr.text_v6 (word : BitVec 128) (zone : String) :
    (Addr.v6 word zone).text = text6 word ++ if zone = "" then [] else '%' :: zone.toList := rfl

def Addr.string (ip : Addr) : String := String.ofList ip.text

/-! ### Prefixes -/

/-- `netip.PrefixFrom`: the zone is dropped, a length outside the family is invalid. -/
def prefixFrom (ip : Addr) (bits : Int) : Prefix :=
  match ip with
  | .zero => .invalid
  | .v4 word => if fits : 0 ≤ bits ∧ bits ≤ 32 then .v4 ⟨word, bits.toNat, by omega⟩ else .invalid
  | .v6 word _ =>
    if fits : 0 ≤ bits ∧ bits ≤ 128 then .v6 ⟨word, bits.toNat, by omega⟩ else .invalid

namespace Prefix

def isValid : Prefix → Bool
  | invalid => false
  | v4 _ | v6 _ => true

def addr : Prefix → Addr
  | invalid => .zero
  | v4 block => .v4 block.addr
  | v6 block => .v6 block.addr ""

/-- `Prefix.Bits`, which is -1 for the invalid prefix. -/
def bits : Prefix → Int
  | invalid => -1
  | v4 block => block.bits
  | v6 block => block.bits

def masked : Prefix → Prefix
  | invalid => .invalid
  | v4 block => .v4 block.masked
  | v6 block => .v6 block.masked

/-- `Prefix.Contains`: an address with a zone is in no prefix. -/
def contains : Prefix → Addr → Bool
  | v4 block, .v4 word => block.contains word
  | v6 block, .v6 word zone => zone == "" && block.contains word
  | _, _ => false

variable (cidr : Prefix)

theorem contains_masked (ip : Addr) : cidr.masked.contains ip = cidr.contains ip := by
  cases cidr <;> cases ip <;> simp [masked, contains, Cidr.contains_masked]

@[simp] theorem masked_masked : cidr.masked.masked = cidr.masked := by
  cases cidr <;> simp [masked]

@[simp] theorem masked_isValid : cidr.masked.isValid = cidr.isValid := by
  cases cidr <;> rfl

def text : Prefix → List Char
  | invalid => "invalid Prefix".toList
  | v4 block => text4 block.addr ++ '/' :: decimal block.bits
  | v6 block => text6 block.addr ++ '/' :: decimal block.bits

theorem valid_of_contains {cidr : Prefix} {ip : Addr} (inside : cidr.contains ip) :
    cidr.isValid := by
  cases cidr <;> simp_all [contains, isValid]

theorem contains_addr {cidr : Prefix} (valid : cidr.isValid) : cidr.contains cidr.addr := by
  cases cidr with
  | invalid => cases valid
  | v4 block => exact block.contains_addr
  | v6 block => simp [contains, addr, block.contains_addr]

theorem text_v4 (block : Cidr 32) :
    (v4 block).text = text4 block.addr ++ '/' :: decimal block.bits := rfl

theorem text_v6 (block : Cidr 128) :
    (v6 block).text = text6 block.addr ++ '/' :: decimal block.bits := rfl

def string (cidr : Prefix) : String := String.ofList cidr.text

end Prefix

/-! ### Both families at once -/

/-- The family of an address or a prefix, for arguments that do not depend on it. -/
inductive Version where
  | v4
  | v6

namespace Version

def width : Version → Nat
  | v4 => 32
  | v6 => 128

/-- The prefix of a block. -/
def cidr : (version : Version) → Cidr version.width → Prefix
  | v4, block => .v4 block
  | v6, block => .v6 block

/-- The address of a word. -/
def addr : (version : Version) → BitVec version.width → Addr
  | v4, word => .v4 word
  | v6, word => .v6 word ""

variable {version : Version} {a b : Cidr version.width}

@[simp] theorem masked_cidr : (version.cidr a).masked = version.cidr a.masked := by
  cases version <;> rfl

@[simp] theorem bits_cidr : (version.cidr a).bits = a.bits := by cases version <;> rfl

theorem addr_cidr : (version.cidr a).addr = version.addr a.addr := by cases version <;> rfl

theorem prefixFrom_addr (word : BitVec version.width) {bits : Int}
    (fits : 0 ≤ bits ∧ bits ≤ version.width) :
    prefixFrom (version.addr word) bits = version.cidr ⟨word, bits.toNat, by omega⟩ := by
  cases version <;> exact dif_pos fits

@[simp] theorem cidr_inj : version.cidr a = version.cidr b ↔ a = b := by
  refine ⟨fun same => ?_, congrArg _⟩
  cases version <;> cases same <;> rfl

theorem contains_addr (word : BitVec version.width) :
    (version.cidr a).contains (version.addr word) = a.contains word := by
  cases version <;> rfl

theorem contains_cidr {ip : Addr} : (version.cidr a).contains ip ↔
    ∃ word, ip = version.addr word ∧ a.contains word := by
  constructor
  · intro inside
    cases version <;> cases ip <;> simp [cidr, Prefix.contains] at inside
    · exact ⟨_, rfl, inside⟩
    · exact ⟨_, by rw [inside.1]; rfl, inside.2⟩
  · rintro ⟨word, rfl, inside⟩
    rw [contains_addr, inside]

theorem width_le : version.width ≤ 128 := by cases version <;> decide

theorem exists_cidr {p : Prefix} (valid : p.isValid) :
    ∃ (version : Version) (block : _), p = version.cidr block := by
  cases p with
  | invalid => cases valid
  | v4 block => exact ⟨.v4, block, rfl⟩
  | v6 block => exact ⟨.v6, block, rfl⟩

/-- Prefixes that share an address are of its family. -/
theorem exists_of_contains {p q : Prefix} {ip : Addr} (inP : p.contains ip)
    (inQ : q.contains ip) : ∃ (version : Version) (a b : Cidr version.width) (word : _),
      p = version.cidr a ∧ q = version.cidr b ∧ a.contains word ∧ b.contains word := by
  obtain ⟨version, a, rfl⟩ := exists_cidr (Prefix.valid_of_contains inP)
  obtain ⟨version', b, rfl⟩ := exists_cidr (Prefix.valid_of_contains inQ)
  obtain ⟨word, rfl, inA⟩ := contains_cidr.mp inP
  obtain ⟨word', same, inB⟩ := contains_cidr.mp inQ
  cases version <;> cases version' <;> cases same
  · exact ⟨.v4, a, b, word, rfl, rfl, inA, inB⟩
  · exact ⟨.v6, a, b, word, rfl, rfl, inA, inB⟩

end Version

/-- Two masked prefixes of one length that share an address are the same. -/
theorem Prefix.eq_of_contains {left right : Prefix} {ip : Addr} (maskedLeft : left.masked = left)
    (maskedRight : right.masked = right) (bits : left.bits = right.bits)
    (inLeft : left.contains ip) (inRight : right.contains ip) : left = right := by
  obtain ⟨version, a, b, word, rfl, rfl, inA, inB⟩ := Version.exists_of_contains inLeft inRight
  simp only [Version.masked_cidr, Version.cidr_inj, Version.bits_cidr, Int.natCast_inj] at *
  exact Cidr.eq_of_covers_of_masked maskedLeft maskedRight
    (Cidr.covers_of_overlap (Nat.le_of_eq bits) inA inB)
    (Cidr.covers_of_overlap (Nat.le_of_eq bits.symm) inB inA)

end Netloom.Netip
