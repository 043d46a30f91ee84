import Netloom.Lib.Scan
import Netloom.Model.Validate
import Netloom.Lib.Stateful

/-!
# The address allocator

An allocator hands out the addresses of one prefix to owners. Its methods hold a lock
from start to end, so each is one step on the allocator. `Allocate` looks at one
address after the other; the step from one to the next goes through a big integer of
sixteen bytes and fails with a panic at the last address of a family.
-/
namespace Netloom.Ipam

open Netip (Addr Prefix)
open Checked (require absent)

structure Allocator where
  cidr : Prefix
  /-- The addresses that are never given away. -/
  reserved : List Addr := []
  excluded : List Prefix := []
  allocated : AList (fun _ : String => Addr) := ∅
  owners : AList (fun _ : Addr => String) := ∅

/-- How a method ends that does not return. -/
inductive Failure where
  | err (text : String)
  | panic
  deriving DecidableEq, Repr

def prefixContainsAny (prefixes : List Prefix) (ip : Addr) : Bool :=
  prefixes.any fun cidr => cidr.contains ip

/-- The package has its own copy of this function, which masks the prefix first. -/
def prefixLastAddr (cidr : Prefix) : Addr := Model.prefixLastAddr cidr.masked

def newAllocatorWithExcludedPrefixes (cidr : Prefix) (excluded : List Prefix)
    (reserved : List Addr) : Except String Allocator := do
  require cidr.isValid "prefix is required"
  excluded.forM fun exclude => do
    let exclude := exclude.masked
    require exclude.isValid "excluded prefix is invalid"
    require (exclude.addr.is4 == cidr.addr.is4)
      s!"excluded prefix {exclude.string} family must match prefix {cidr.string}"
    require (cidr.contains exclude.addr && cidr.contains (prefixLastAddr exclude))
      s!"excluded prefix {exclude.string} is outside prefix {cidr.string}"
  reserved.forM fun ip => do
    require (cidr.contains ip) s!"reserved ip {ip.string} is outside prefix {cidr.string}"
    require (!prefixContainsAny (excluded.map Prefix.masked) ip)
      s!"reserved ip {ip.string} is excluded"
  pure { cidr := cidr.masked, reserved, excluded := excluded.map Prefix.masked }

/-- The next address; there is none after the last one of a family. The zero address
counts as `::`. -/
def nextAddr : Addr → Option Addr
  | .zero => some (.v6 1 "")
  | .v4 word => if word = BitVec.allOnes 32 then none else some (.v4 (word + 1))
  | .v6 word _ => if word = BitVec.allOnes 128 then none else some (.v6 (word + 1) "")

/-- The number of addresses of a prefix, which bounds the search. -/
def prefixSize : Prefix → Nat
  | .invalid => 0
  | .v4 block => 2 ^ (32 - block.bits)
  | .v6 block => 2 ^ (128 - block.bits)

namespace Allocator

variable (a : Allocator) (owner : String) (ip : Addr)

def isUnavailable : Bool :=
  a.reserved.contains ip || prefixContainsAny a.excluded ip || (a.owners.lookup ip).isSome

/-- The first usable address that is available. The bound is never reached. -/
def search : Scan.Outcome Addr :=
  match nextAddr a.cidr.addr with
  | some firstUsable =>
    Scan.search a.cidr.contains a.isUnavailable nextAddr (prefixSize a.cidr) firstUsable
  | none => .stuck

def give : Allocator :=
  { a with allocated := a.allocated.insert owner ip, owners := a.owners.insert ip owner }

def allocate : EStateM Failure Allocator Addr := fun a =>
  if owner = "" then .error (.err "owner is required") a
  else match a.allocated.lookup owner with
    | some ip => .ok ip a
    | none => match a.search with
      | .found ip => .ok ip (a.give owner ip)
      | .exhausted => .error (.err s!"no available ip in {a.cidr.string}") a
      | .stuck | .unfinished => .error .panic a

/-- What speaks against giving an address to an owner. -/
def checkReserve : Except String Unit := do
  require (owner ≠ "") "owner is required"
  require (a.cidr.contains ip) s!"ip {ip.string} is outside prefix {a.cidr.string}"
  require (!a.reserved.contains ip) s!"ip {ip.string} is reserved"
  require (!prefixContainsAny a.excluded ip) s!"ip {ip.string} is excluded"
  absent (fun existing => s!"ip {ip.string} already allocated to {existing}")
    ((a.owners.lookup ip).filter fun existing => existing ≠ owner)
  absent (fun existing => s!"owner {owner} already allocated {existing.string}")
    ((a.allocated.lookup owner).filter fun existing => existing ≠ ip)

def reserve : EStateM Failure Allocator Unit := fun a =>
  match a.checkReserve owner ip with
  | .ok _ => .ok () (a.give owner ip)
  | .error text => .error (.err text) a

def release : EStateM Failure Allocator Unit := fun a =>
  match a.allocated.lookup owner with
  | some ip => .ok () { a with allocated := a.allocated.erase owner, owners := a.owners.erase ip }
  | none => .ok () a

end Allocator

/-! ### Runs -/

/-- A call of a method. -/
inductive Call where
  | allocate (owner : String)
  | reserve (owner : String) (ip : Addr)
  | release (owner : String)
  deriving DecidableEq, Repr

/-- The result is the address, for the method that returns one. -/
def Call.run : Call → EStateM Failure Allocator (Option Addr)
  | .allocate owner => some <$> Allocator.allocate owner
  | .reserve owner ip => (fun _ => none) <$> Allocator.reserve owner ip
  | .release owner => (fun _ => none) <$> Allocator.release owner

/-- The allocator after a call, whether it has returned or failed. -/
def Call.after (a : Allocator) (call : Call) : Allocator :=
  match call.run a with
  | .ok _ a' => a'
  | .error _ a' => a'

open Checked AList Netip.Prefix

/-! ### Walking through a prefix -/

/-- The prefix reaches up to the last address of its family. -/
def endsAtAllOnes : Prefix → Bool
  | .invalid => false
  | .v4 block => block.contains (BitVec.allOnes 32)
  | .v6 block => block.contains (BitVec.allOnes 128)

/-- The addresses from the first one of a prefix on. -/
def nthAddr : Prefix → Nat → Addr
  | .invalid, _ => .zero
  | .v4 block, i => .v4 (BitVec.ofNat 32 (block.masked.addr.toNat + i))
  | .v6 block, i => .v6 (BitVec.ofNat 128 (block.masked.addr.toNat + i)) ""

section

variable {w : Nat} (block : Cidr w)

/-- A block reaches the last word of its family if it ends where the words do. -/
theorem contains_allOnes : block.contains (BitVec.allOnes w) ↔
    block.masked.addr.toNat + 2 ^ (w - block.bits) = 2 ^ w := by
  have reaches := block.range_le
  have positive : 0 < 2 ^ (w - block.bits) := Nat.two_pow_pos _
  rw [block.contains_iff_range, BitVec.toNat_allOnes]
  omega

section

variable {i : Nat} (small : i < 2 ^ (w - block.bits))

include small

/-- The words of a block are numbered from its first word on. -/
theorem toNat_nth :
    (BitVec.ofNat w (block.masked.addr.toNat + i)).toNat = block.masked.addr.toNat + i := by
  have reaches := block.range_le
  rw [BitVec.toNat_ofNat, Nat.mod_eq_of_lt (by omega)]

theorem contains_nth :
    block.contains (BitVec.ofNat w (block.masked.addr.toNat + i)) := by
  rw [block.contains_iff_range, toNat_nth block small]
  omega

theorem nth_eq_allOnes :
    BitVec.ofNat w (block.masked.addr.toNat + i) = BitVec.allOnes w ↔
      i + 1 = 2 ^ (w - block.bits) ∧ block.contains (BitVec.allOnes w) := by
  have reaches := block.range_le
  rw [contains_allOnes, ← BitVec.toNat_inj, toNat_nth block small, BitVec.toNat_allOnes]
  omega

end

/-- The word after the last one of a block is outside. -/
theorem contains_end (room : block.contains (BitVec.allOnes w) ≠ true) :
    block.contains (BitVec.ofNat w (block.masked.addr.toNat + 2 ^ (w - block.bits))) = false := by
  have reaches := block.range_le
  rw [ne_eq, contains_allOnes] at room
  rw [← Bool.not_eq_true, block.contains_iff_range, BitVec.toNat_ofNat,
    Nat.mod_eq_of_lt (by omega)]
  omega

/-- Every word of the block has a number. -/
theorem exists_nth {word : BitVec w} (inside : block.contains word) :
    ∃ i < 2 ^ (w - block.bits), BitVec.ofNat w (block.masked.addr.toNat + i) = word := by
  obtain ⟨low, high⟩ := (block.contains_iff_range word).mp inside
  refine ⟨word.toNat - block.masked.addr.toNat, by omega, ?_⟩
  rw [Nat.add_sub_cancel' low, BitVec.ofNat_toNat, BitVec.setWidth_eq]

end

variable {cidr : Prefix}

theorem prefixSize_pos (valid : cidr.isValid) : 0 < prefixSize cidr.masked := by
  cases cidr with
  | invalid => cases valid
  | v4 block | v6 block => exact Nat.two_pow_pos _

/-- The address after a number; none after the last address of the family. -/
theorem nextAddr_nthAddr {i : Nat} (small : i < prefixSize cidr.masked) :
    nextAddr (nthAddr cidr i) =
      if i + 1 = prefixSize cidr.masked ∧ endsAtAllOnes cidr then none
      else some (nthAddr cidr (i + 1)) := by
  cases cidr with
  | invalid => cases small
  | v4 block | v6 block =>
    simp only [nthAddr, nextAddr, nth_eq_allOnes block small]
    rw [← Nat.add_assoc, BitVec.ofNat_add _ 1]
    rfl

/-- The search walks through the addresses by their numbers. -/
theorem numbering_nthAddr (valid : cidr.isValid) :
    Scan.Numbering cidr.masked.contains nextAddr (prefixSize cidr.masked) (nthAddr cidr) := by
  refine ⟨fun i below => ?_, fun i below => ?_, fun item after => ?_⟩
  · rw [contains_masked]
    cases cidr with
    | invalid => cases valid
    | v4 block | v6 block => simp [Prefix.contains, nthAddr, contains_nth block below]
  · rw [nextAddr_nthAddr (by omega), if_neg (by omega)]
  · have positive := prefixSize_pos valid
    rw [nextAddr_nthAddr (by omega), Nat.sub_add_cancel positive] at after
    simp only [true_and, Option.ite_none_left_eq_some, Option.some.injEq] at after
    obtain ⟨room, rfl⟩ := after
    rw [contains_masked]
    cases cidr with
    | invalid => cases valid
    | v4 block | v6 block =>
      simp [Prefix.contains, nthAddr, prefixSize, Prefix.masked, contains_end block room]

theorem nthAddr_zero (valid : cidr.isValid) : nthAddr cidr 0 = cidr.masked.addr := by
  cases cidr with
  | invalid => cases valid
  | v4 block | v6 block => simp [nthAddr, Prefix.masked, Prefix.addr]

theorem nthAddr_ne_first {i : Nat} (later : 0 < i) (below : i < prefixSize cidr.masked) :
    nthAddr cidr i ≠ nthAddr cidr 0 := by
  cases cidr with
  | invalid => cases below
  | v4 block | v6 block =>
    simp [nthAddr, ← BitVec.toNat_inj, toNat_nth block below, later.ne']

theorem exists_nthAddr {ip : Addr} (inside : cidr.contains ip) :
    ∃ i < prefixSize cidr.masked, nthAddr cidr i = ip := by
  cases cidr with
  | invalid => cases ip <;> simp [Prefix.contains] at inside
  | v4 block =>
    cases ip with
    | zero | v6 => simp [Prefix.contains] at inside
    | v4 word =>
      obtain ⟨i, below, same⟩ := exists_nth block inside
      exact ⟨i, below, by rw [nthAddr, same]⟩
  | v6 block =>
    cases ip with
    | zero | v4 => simp [Prefix.contains] at inside
    | v6 word zone =>
      simp only [Prefix.contains, Bool.and_eq_true, beq_iff_eq] at inside
      obtain ⟨i, below, same⟩ := exists_nth block inside.2
      exact ⟨i, below, by rw [nthAddr, same, inside.1]⟩

/-! ### Allocators of one prefix -/

/-- What holds of an allocator between two calls. -/
structure Consistent (cidr : Prefix) (excluded : List Prefix) (reserved : List Addr)
    (a : Allocator) : Prop where
  prefixIs : a.cidr = cidr.masked
  reservedIs : a.reserved = reserved
  excludedIs : a.excluded = excluded.map Prefix.masked
  inverse : Scan.Inverse a.allocated a.owners
  owned : ∀ ip owner, a.owners.lookup ip = some owner →
    cidr.contains ip = true ∧ ip ∉ reserved ∧ ∀ exclude ∈ excluded, exclude.contains ip = false
  named : a.allocated.lookup "" = none

variable {excluded : List Prefix} {reserved : List Addr} {a : Allocator}

theorem prefixContainsAny_masked (excluded : List Prefix) (ip : Addr) :
    prefixContainsAny (excluded.map Prefix.masked) ip ↔
      ∃ exclude ∈ excluded, exclude.contains ip := by
  simp [prefixContainsAny, contains_masked]

/-- A new allocator owns nothing. -/
theorem consistent_new (created : newAllocatorWithExcludedPrefixes cidr excluded reserved = .ok a) :
    cidr.isValid ∧ Consistent cidr excluded reserved a := by
  simp only [newAllocatorWithExcludedPrefixes, bind_eq_ok, require_eq_ok, pure_eq_ok] at created
  obtain ⟨_, valid, _, _, _, _, rfl⟩ := created
  exact ⟨valid, rfl, rfl, rfl, fun _ _ => by simp, by simp, by simp⟩

namespace Consistent

variable (consistent : Consistent cidr excluded reserved a)

include consistent

theorem isUnavailable_iff (ip : Addr) : a.isUnavailable ip ↔
    ip ∈ reserved ∨ (∃ exclude ∈ excluded, exclude.contains ip) ∨
      (a.owners.lookup ip).isSome := by
  rw [Allocator.isUnavailable, Bool.or_eq_true, Bool.or_eq_true, consistent.reservedIs,
    consistent.excludedIs, prefixContainsAny_masked, List.contains_iff_mem, or_assoc]

/-- An address that is not taken may be given to an owner without one. -/
theorem give {owner : String} {ip : Addr} (ownerNamed : owner ≠ "")
    (inside : cidr.contains ip) (open' : ip ∉ reserved)
    (apart : ∀ exclude ∈ excluded, exclude.contains ip = false)
    (forth : ∀ ip', a.allocated.lookup owner = some ip' → ip' = ip)
    (back : ∀ owner', a.owners.lookup ip = some owner' → owner' = owner) :
    Consistent cidr excluded reserved (a.give owner ip) where
  prefixIs := consistent.prefixIs
  reservedIs := consistent.reservedIs
  excludedIs := consistent.excludedIs
  inverse := consistent.inverse.insert forth back
  owned := by
    intro ip' owner' held
    by_cases same : ip' = ip
    · exact same ▸ ⟨inside, open', apart⟩
    · rw [Allocator.give, lookup_insert_ne same] at held
      exact consistent.owned ip' owner' held
  named := by
    rw [Allocator.give, lookup_insert_ne ownerNamed.symm]
    exact consistent.named

/-- What the search finds may be given away; it finds nothing only if nothing is left, and
it is then stuck where the prefix ends with its family. -/
theorem search_spec (valid : cidr.isValid) :
    (∃ ip, a.search = .found ip ∧ cidr.contains ip ∧ ip ≠ cidr.masked.addr ∧
        a.isUnavailable ip = false) ∨
      (∀ ip, cidr.contains ip → ip ≠ cidr.masked.addr → a.isUnavailable ip) ∧
        a.search = if endsAtAllOnes cidr then .stuck else .exhausted := by
  have numbering := numbering_nthAddr valid
  have positive := prefixSize_pos valid
  have search : a.search = Scan.proceed cidr.masked.contains a.isUnavailable nextAddr
      (prefixSize cidr.masked) (nthAddr cidr 0) := by
    rw [nthAddr_zero valid, ← consistent.prefixIs, Allocator.search, Scan.proceed]
    cases nextAddr a.cidr.addr <;> rfl
  rw [search]
  rcases Scan.proceed_of_numbering numbering positive (Nat.le_add_left _ 0) with
    ⟨i, later, below, free, found⟩ | ⟨all, ends⟩
  · refine .inl ⟨_, found, ?_, ?_, free⟩
    · rw [← contains_masked, numbering.member i below]
    · rw [← nthAddr_zero valid]
      exact nthAddr_ne_first later below
  · refine .inr ⟨fun ip inside other => ?_, ?_⟩
    · obtain ⟨i, below, rfl⟩ := exists_nthAddr inside
      -- the first address is the only one before the start of the search
      have later : 0 < i := Nat.pos_of_ne_zero fun zero => other (zero ▸ nthAddr_zero valid)
      exact all i later below
    · rw [ends, nextAddr_nthAddr (by omega), Nat.sub_add_cancel positive]
      cases endsAtAllOnes cidr <;> simp

theorem allocate (valid : cidr.isValid) (owner : String) : Stateful.Leads (Allocator.allocate owner) a
      (fun _ a' => Consistent cidr excluded reserved a') fun _ a' => a' = a := by
  unfold Stateful.Leads Allocator.allocate
  by_cases unnamed : owner = ""
  · simp [unnamed]
  · rw [if_neg unnamed]
    cases held : a.allocated.lookup owner with
    | some ip => exact consistent
    | none =>
      rcases consistent.search_spec valid with ⟨ip, found, inside, _, free⟩ | ⟨_, ends⟩
      · simp only [found]
        rw [← Bool.not_eq_true, consistent.isUnavailable_iff, not_or, not_or] at free
        obtain ⟨open', apart, unowned⟩ := free
        simp only [not_exists, not_and, Bool.not_eq_true] at apart
        refine consistent.give unnamed inside open' apart ?_ ?_
        · intro ip' other
          rw [held] at other
          cases other
        · intro owner' other
          simp [other] at unowned
      · rw [ends]
        cases endsAtAllOnes cidr <;> rfl

theorem reserve (owner : String) (ip : Addr) : Stateful.Leads (Allocator.reserve owner ip) a
    (fun _ a' => Consistent cidr excluded reserved a') fun _ a' => a' = a := by
  unfold Stateful.Leads Allocator.reserve
  cases checked : a.checkReserve owner ip with
  | error text => rfl
  | ok _ =>
    simp only [Allocator.checkReserve, bind_eq_ok, require_eq_ok,
      absent_eq_ok, decide_eq_true_eq, Bool.not_eq_true'] at checked
    obtain ⟨_, ownerNamed, _, inside, _, open', _, apart, _, owners, allocated⟩ := checked
    rw [consistent.prefixIs, contains_masked] at inside
    rw [consistent.reservedIs, ← Bool.not_eq_true, List.contains_iff_mem] at open'
    rw [consistent.excludedIs, ← Bool.not_eq_true, prefixContainsAny_masked] at apart
    simp only [not_exists, not_and, Bool.not_eq_true] at apart
    refine consistent.give ownerNamed inside open' apart ?_ ?_
    · intro ip' held
      simpa [held, Option.filter] using allocated
    · intro owner' held
      simpa [held, Option.filter] using owners

theorem release (owner : String) : Stateful.Leads (Allocator.release owner) a
    (fun _ a' => Consistent cidr excluded reserved a') fun _ _ => False := by
  unfold Stateful.Leads Allocator.release
  cases held : a.allocated.lookup owner with
  | none => exact consistent
  | some ip =>
    exact {
      prefixIs := consistent.prefixIs
      reservedIs := consistent.reservedIs
      excludedIs := consistent.excludedIs
      inverse := consistent.inverse.erase held
      owned := by
        intro ip' owner' other
        by_cases same : ip' = ip
        · rw [same, lookup_erase] at other
          cases other
        · rw [lookup_erase_ne same] at other
          exact consistent.owned ip' owner' other
      named := by
        by_cases same : "" = owner
        · subst same
          exact lookup_erase _ _
        · rw [lookup_erase_ne same]
          exact consistent.named }

end Consistent

/-! ### Any sequence of calls -/

/-- A call keeps the allocator consistent, and changes nothing if it fails. -/
theorem Consistent.call (consistent : Consistent cidr excluded reserved a)
    (valid : cidr.isValid) (call : Call) :
    Stateful.Leads call.run a (fun _ a' => Consistent cidr excluded reserved a')
      fun _ a' => a' = a := by
  cases call with
  | allocate owner => exact Stateful.leads_map (consistent.allocate valid owner)
  | reserve owner ip => exact Stateful.leads_map (consistent.reserve owner ip)
  | release owner =>
    exact Stateful.leads_map
      ((consistent.release owner).mono (fun _ _ kept => kept) fun _ _ no => no.elim)

/-- The allocator after any calls is consistent. -/
theorem Consistent.calls (consistent : Consistent cidr excluded reserved a)
    (valid : cidr.isValid) (calls : List Call) :
    Consistent cidr excluded reserved (calls.foldl Call.after a) := by
  induction calls generalizing a with
  | nil => exact consistent
  | cons call rest ih =>
    refine ih ?_
    have kept := consistent.call valid call
    rw [Call.after]
    cases outcome : call.run a with
    | ok result a' => exact kept.of_ok outcome
    | error failure a' => exact kept.of_error outcome ▸ consistent

/-- What the users of an allocator may rely on. -/
structure Sound (cidr : Prefix) (excluded : List Prefix) (reserved : List Addr) (a : Allocator) :
    Prop where
  inverse : ∀ owner ip, a.allocated.lookup owner = some ip ↔ a.owners.lookup ip = some owner
  owned : ∀ ip owner, a.owners.lookup ip = some owner →
    cidr.contains ip = true ∧ ip ∉ reserved ∧ ∀ exclude ∈ excluded, exclude.contains ip = false
  /-- An owner with an address gets it again. -/
  again : ∀ owner ip, a.allocated.lookup owner = some ip → Allocator.allocate owner a = .ok ip a
  /-- A call that fails changes nothing. -/
  unchanged : ∀ (call : Call) failure a', call.run a = .error failure a' → a' = a
  /-- A new owner gets no address only if there is none after the first. -/
  complete : ∀ owner, owner ≠ "" → a.allocated.lookup owner = none → ∀ failure a',
    Allocator.allocate owner a = .error failure a' → ∀ ip, cidr.contains ip = true →
      ip ≠ cidr.masked.addr → ip ∈ reserved ∨ (∃ exclude ∈ excluded, exclude.contains ip = true) ∨
        ∃ other, a.owners.lookup ip = some other

/-- A new allocator is sound after any calls, also one whose prefix ends with its family. -/
theorem sound_of_calls (cidr : Prefix) (excluded : List Prefix) (reserved : List Addr)
    (a : Allocator) (created : newAllocatorWithExcludedPrefixes cidr excluded reserved = .ok a)
    (calls : List Call) : Sound cidr excluded reserved (calls.foldl Call.after a) := by
  obtain ⟨valid, fresh⟩ := consistent_new created
  have consistent := fresh.calls valid calls
  generalize calls.foldl Call.after a = b at consistent
  refine ⟨consistent.inverse, consistent.owned, fun owner ip held => ?_,
    fun call failure a' failed => (consistent.call valid call).of_error failed, ?_⟩
  · have named : owner ≠ "" := by
      rintro rfl
      rw [consistent.named] at held
      cases held
    simp [Allocator.allocate, named, held]
  · intro owner named new failure a' failed ip inside other
    rw [Allocator.allocate, if_neg named, new] at failed
    rcases consistent.search_spec valid with ⟨ip', found, _⟩ | ⟨all, _⟩
    · simp [found] at failed
    · rw [← Option.isSome_iff_exists]
      exact (consistent.isUnavailable_iff ip).mp (all ip inside other)

/-- Two of the four addresses of a prefix can be given away. -/
theorem sound_of_calls_small :
    ∃ a, newAllocatorWithExcludedPrefixes (.v4 ⟨0xc0a80000, 30, by decide⟩) []
        [.v4 0xc0a80001] = .ok a ∧
      Sound (.v4 ⟨0xc0a80000, 30, by decide⟩) [] [.v4 0xc0a80001]
        ([Call.allocate "a", .reserve "b" (.v4 0xc0a80003), .allocate "c"].foldl Call.after a) :=
  ⟨_, rfl, sound_of_calls _ _ _ _ rfl _⟩

/-! ### The last address of a family -/

/-- After any calls, asking for an address panics just for a new owner, when the prefix ends
with its family and no address after the first is left. -/
theorem allocate_panics_iff (cidr : Prefix) (excluded : List Prefix) (reserved : List Addr)
    (a : Allocator) (created : newAllocatorWithExcludedPrefixes cidr excluded reserved = .ok a)
    (calls : List Call) (owner : String) :
    (∀ b, Allocator.allocate owner (calls.foldl Call.after a) ≠ .error .panic b) ↔
      owner = "" ∨ ((calls.foldl Call.after a).allocated.lookup owner).isSome = true ∨
        endsAtAllOnes cidr = false ∨ ∃ ip, cidr.contains ip = true ∧ ip ≠ cidr.masked.addr ∧
          (calls.foldl Call.after a).isUnavailable ip = false := by
  obtain ⟨valid, fresh⟩ := consistent_new created
  have consistent := fresh.calls valid calls
  generalize calls.foldl Call.after a = b at consistent
  rw [Allocator.allocate]
  by_cases unnamed : owner = ""
  · simp [unnamed]
  cases held : b.allocated.lookup owner with
  | some ip => simp [unnamed]
  | none =>
    rcases consistent.search_spec valid with ⟨ip, found, inside, other, free⟩ | ⟨all, ends⟩
    · simpa [unnamed, found] using .inr ⟨ip, inside, other, free⟩
    · -- nothing is left: the walk decides
      have none' : ¬ ∃ ip, cidr.contains ip ∧ ip ≠ cidr.masked.addr ∧
          b.isUnavailable ip = false := by
        rintro ⟨ip, inside, other, free⟩
        simp [all ip inside other] at free
      cases last : endsAtAllOnes cidr <;> simp [unnamed, ends, last, none']

/-- The third owner in the last four addresses gets one. -/
theorem allocate_last_returns :
    ∃ a, newAllocatorWithExcludedPrefixes (.v4 ⟨0xfffffffc, 30, by decide⟩) [] [] = .ok a ∧
      ∀ b, Allocator.allocate "c" ([Call.allocate "a", .allocate "b"].foldl Call.after a) ≠
        .error .panic b :=
  ⟨_, rfl, (allocate_panics_iff (.v4 ⟨0xfffffffc, 30, by decide⟩) [] [] _ rfl _ _).mpr
    (.inr (.inr (.inr ⟨.v4 0xffffffff, by decide, by decide, rfl⟩)))⟩

/-- The fourth brings the program down. -/
theorem allocate_beyond_last_panics :
    ∃ a b, newAllocatorWithExcludedPrefixes (.v4 ⟨0xfffffffc, 30, by decide⟩) [] [] = .ok a ∧
      Allocator.allocate "d"
        ([Call.allocate "a", .allocate "b", .allocate "c"].foldl Call.after a) =
          .error .panic b :=
  ⟨_, _, rfl, rfl⟩

end Netloom.Ipam
