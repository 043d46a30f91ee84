import Netloom.Lib.Bytes
import Netloom.Policy.Compile

/-!
# The policy map of an endpoint

Entries as the kernel map stores them, the encoding of a compiled program and its
canonical form with one entry per key. Port numbers are stored in network byte order, so the encoding
depends on the byte order of the host.
-/
namespace Netloom.Dataplane

open Netip (Addr Prefix)
open Model List Checked

def swapBytes (value : BitVec 16) : BitVec 16 := value.extractLsb' 0 8 ++ value.extractLsb' 8 8

/-- `hostToNetwork16`: the value whose bytes in memory are in network order. -/
def hostToNetwork16 : Endian → BitVec 16 → BitVec 16
  | .little, value => swapBytes value
  | .big, value => value

def networkToHost16 : Endian → BitVec 16 → BitVec 16
  | .little, value => swapBytes value
  | .big, value => value

def directionIngress : BitVec 8 := 1
def directionEgress : BitVec 8 := 2
def staticPrefixBits : BitVec 32 := 40

structure PolicyKey where
  prefixLen : BitVec 32
  remoteIdentity : BitVec 32 := 0
  direction : BitVec 8 := 0
  protocol : BitVec 8 := 0
  destPortBE : BitVec 16 := 0
  deriving DecidableEq, Repr

structure PolicyEntry where
  deny : BitVec 8 := 0
  l4PrefixLen : BitVec 8 := 0
  stateful : BitVec 8 := 0
  log : BitVec 8 := 0
  precedence : BitVec 32 := 0
  ruleCookie : BitVec 32 := 0
  reject : BitVec 8 := 0
  requireIdentity : BitVec 8 := 0
  packets : BitVec 64 := 0
  bytes : BitVec 64 := 0
  deriving DecidableEq, Repr

structure PolicyMapEntry where
  key : PolicyKey
  value : PolicyEntry
  remoteCIDR : Prefix := .invalid
  ruleRef : String := ""
  deriving DecidableEq, Repr

/-! ### Encoding -/

def protocolNumber : Protocol → Except String (BitVec 8)
  | .unset | .any => .ok 0
  | .tcp => .ok 6
  | .udp => .ok 17
  | .icmp => .ok 1
  | .sctp => .ok 132
  | .other text => .error s!"unsupported protocol {Strings.quote text}"

/-- ICMP towards an IPv6 prefix is ICMPv6. -/
def protocolNumberForEntry (entry : Policy.MapEntry) : Except String (BitVec 8) :=
  if entry.key.protocol = .icmp && entry.remoteCIDR.isValid && entry.remoteCIDR.addr.is6 &&
      !entry.remoteCIDR.addr.is4
  then .ok 58 else protocolNumber entry.key.protocol

def directionNumber : Direction → Except String (BitVec 8)
  | .ingress => .ok directionIngress
  | .egress => .ok directionEgress
  | .other text => .error s!"unsupported direction {Strings.quote text}"

def boolByte (value : Bool) : BitVec 8 := if value then 1 else 0

/-- `stableCookie` is the plain FNV-1a hash. -/
def stableCookie (value : String) : BitVec 32 := Policy.fnv32a value

def policyRuleCookieKey (entry : Policy.MapEntry) : String :=
  if entry.ruleRef ≠ "" then entry.ruleRef else entry.ruleID

def encodeEntry (host : Endian) (entry : Policy.MapEntry) : Except String PolicyMapEntry := do
  let proto ← protocolNumberForEntry entry
  let direction ← directionNumber entry.key.direction
  pure {
    key := {
      prefixLen := staticPrefixBits + entry.key.l4PrefixBits.setWidth 32
      remoteIdentity := entry.key.remoteIdentity
      direction
      protocol := proto
      destPortBE := hostToNetwork16 host entry.key.destPort }
    remoteCIDR := entry.remoteCIDR
    ruleRef := entry.ruleRef
    value := {
      deny := boolByte entry.value.deny
      l4PrefixLen := entry.key.l4PrefixBits
      stateful := boolByte entry.value.stateful
      log := boolByte entry.value.log
      precedence := entry.value.precedence
      ruleCookie := stableCookie (policyRuleCookieKey entry)
      reject := boolByte entry.value.reject
      requireIdentity := boolByte entry.value.requireIdentity
      packets := 0
      bytes := 0 } }

/-! ### Canonical form -/

/-- The rank of an action: reject over deny over allow. -/
def policyActionPrecedence (value : PolicyEntry) : Nat :=
  if value.reject ≠ 0 then 2 else if value.deny ≠ 0 then 1 else 0

def betterPolicyMapEntry (candidate selected : PolicyMapEntry) : Bool :=
  if candidate.value.precedence ≠ selected.value.precedence then
    candidate.value.precedence > selected.value.precedence
  else if candidate.value.l4PrefixLen ≠ selected.value.l4PrefixLen then
    candidate.value.l4PrefixLen > selected.value.l4PrefixLen
  else policyActionPrecedence candidate.value > policyActionPrecedence selected.value

def samePolicyMapPriority (left right : PolicyMapEntry) : Bool :=
  left.value.precedence = right.value.precedence && left.value.l4PrefixLen = right.value.l4PrefixLen

/-- The order of `comparePolicyKey`. -/
def policyKeyBefore (a b : PolicyKey) : Bool :=
  if a.prefixLen ≠ b.prefixLen then a.prefixLen < b.prefixLen
  else if a.remoteIdentity ≠ b.remoteIdentity then a.remoteIdentity < b.remoteIdentity
  else if a.direction ≠ b.direction then a.direction < b.direction
  else if a.protocol ≠ b.protocol then a.protocol < b.protocol
  else a.destPortBE < b.destPortBE

variable (entries : List PolicyMapEntry)

def sortEntries : List PolicyMapEntry :=
  entries.insertionSort fun a b => ¬ policyKeyBefore b.key a.key = true

def sortKeys (keys : List PolicyKey) : List PolicyKey :=
  keys.insertionSort fun a b => ¬ policyKeyBefore b a = true

/-- Replaces the entry with the same key, or appends. -/
def upsertEntry : List PolicyMapEntry → PolicyMapEntry → List PolicyMapEntry
  | [], entry => [entry]
  | first :: rest, entry =>
    if first.key = entry.key then entry :: rest else first :: upsertEntry rest entry

def deleteEntry (key : PolicyKey) : List PolicyMapEntry :=
  entries.filter fun entry => entry.key ≠ key

def findEntry (key : PolicyKey) : Option PolicyMapEntry :=
  entries.find? fun entry => entry.key = key

/-- One iteration of `canonicalPolicyMapEntries`, on the entries kept so far. -/
def canonicalStep (byKey : List PolicyMapEntry) (entry : PolicyMapEntry) :
    Except String (List PolicyMapEntry) :=
  let sameMetadata (existing : PolicyMapEntry) : Except String Unit :=
    require (entry.remoteCIDR = existing.remoteCIDR)
      "conflicting policy map entries for identical key and remote cidr metadata"
  match findEntry byKey entry.key with
  | none => .ok (upsertEntry byKey entry)
  | some existing =>
    if betterPolicyMapEntry entry existing then do
      sameMetadata existing
      pure (upsertEntry byKey entry)
    else do
      sameMetadata existing
      require (!(samePolicyMapPriority entry existing && entry.value ≠ existing.value))
        "conflicting policy map entries for identical key"
      pure byKey

def canonicalPolicyMapEntries : Except String (List PolicyMapEntry) := do
  let byKey ← entries.foldlM canonicalStep []
  pure (sortEntries byKey)

def encodeProgram (host : Endian) (program : Policy.Program) :
    Except String (List PolicyMapEntry) := do
  let entries ← program.mapEntries.mapM fun entry =>
    context (fun err => s!"rule {entry.ruleID}: {err}") (encodeEntry host entry)
  canonicalPolicyMapEntries entries

/-! ### Lists with one entry per key -/

/-- No two entries share a key. -/
def KeysNodup : Prop := (entries.map PolicyMapEntry.key).Nodup

theorem keysNodup_nil : KeysNodup [] := nodup_nil

variable {entries : List PolicyMapEntry} {entry : PolicyMapEntry}

theorem findEntry_some {key : PolicyKey} (found : findEntry entries key = some entry) :
    entry ∈ entries ∧ entry.key = key := by
  refine ⟨mem_of_find?_eq_some found, ?_⟩
  simpa using find?_some found

theorem findEntry_none {key : PolicyKey} :
    findEntry entries key = none ↔ ∀ entry ∈ entries, entry.key ≠ key := by
  simp [findEntry]

theorem eq_of_key_eq (nodup : KeysNodup entries) {a b : PolicyMapEntry} (inA : a ∈ entries)
    (inB : b ∈ entries) (same : a.key = b.key) : a = b :=
  inj_on_of_nodup_map nodup inA inB same

theorem findEntry_eq_some (nodup : KeysNodup entries) (member : entry ∈ entries) :
    findEntry entries entry.key = some entry := by
  cases found : findEntry entries entry.key with
  | none => exact absurd rfl (findEntry_none.mp found entry member)
  | some other =>
    obtain ⟨inEntries, same⟩ := findEntry_some found
    rw [eq_of_key_eq nodup inEntries member same]

theorem map_key_upsertEntry (entries : List PolicyMapEntry) (entry : PolicyMapEntry) :
    (upsertEntry entries entry).map PolicyMapEntry.key =
      if entry.key ∈ entries.map PolicyMapEntry.key then entries.map PolicyMapEntry.key
      else entries.map PolicyMapEntry.key ++ [entry.key] := by
  induction entries with
  | nil => simp [upsertEntry]
  | cons first rest ih =>
    by_cases same : first.key = entry.key
    · simp [upsertEntry, same]
    · have apart : ¬ entry.key = first.key := fun equal => same equal.symm
      simp only [upsertEntry, same, if_false, map_cons, ih, mem_cons, apart, false_or]
      split <;> simp

theorem keysNodup_upsertEntry (nodup : KeysNodup entries) (entry : PolicyMapEntry) :
    KeysNodup (upsertEntry entries entry) := by
  rw [KeysNodup, map_key_upsertEntry]
  split
  · exact nodup
  · next fresh =>
    exact nodup_append.mpr ⟨nodup, by simp, fun k member k' last equal => fresh (by
      rw [mem_singleton] at last
      exact last ▸ equal ▸ member)⟩

/-- Upserting replaces the entry of that key and leaves the others. -/
theorem mem_upsertEntry (nodup : KeysNodup entries) (entry x : PolicyMapEntry) :
    x ∈ upsertEntry entries entry ↔ x = entry ∨ (x ∈ entries ∧ x.key ≠ entry.key) := by
  induction entries with
  | nil => simp [upsertEntry]
  | cons first rest ih =>
    rw [KeysNodup, map_cons, nodup_cons] at nodup
    by_cases same : first.key = entry.key
    · have others : ∀ y ∈ rest, y.key ≠ entry.key := fun y member equal =>
        nodup.1 (mem_map.mpr ⟨y, member, equal.trans same.symm⟩)
      simp only [upsertEntry, same, if_true, mem_cons]
      grind
    · simp only [upsertEntry, same, if_false, mem_cons, ih nodup.2]
      grind

/-! ### What canonicalization keeps -/

/-- The comparison of `betterPolicyMapEntry` as one number. -/
def entryRank (entry : PolicyMapEntry) : Nat :=
  (entry.value.precedence.toNat * 256 + entry.value.l4PrefixLen.toNat) * 3 +
    policyActionPrecedence entry.value

theorem policyActionPrecedence_lt (value : PolicyEntry) : policyActionPrecedence value < 3 := by
  unfold policyActionPrecedence
  split
  · omega
  · split <;> omega

theorem betterPolicyMapEntry_iff (candidate selected : PolicyMapEntry) :
    betterPolicyMapEntry candidate selected ↔ entryRank selected < entryRank candidate := by
  have actionC := policyActionPrecedence_lt candidate.value
  have actionS := policyActionPrecedence_lt selected.value
  have l4C := candidate.value.l4PrefixLen.isLt
  have l4S := selected.value.l4PrefixLen.isLt
  simp only [betterPolicyMapEntry, entryRank, gt_iff_lt, ne_eq, ← BitVec.toNat_inj, BitVec.lt_def]
  -- The first field that differs decides, and its weight exceeds the fields after it.
  split_ifs with precedence bits <;> simp only [decide_eq_true_eq] <;> omega

theorem precedence_le_of_entryRank_le {a b : PolicyMapEntry}
    (le : entryRank a ≤ entryRank b) : a.value.precedence.toNat ≤ b.value.precedence.toNat := by
  have actionB := policyActionPrecedence_lt b.value
  have l4B := b.value.l4PrefixLen.isLt
  simp only [entryRank] at le
  omega

/-- The loop invariant of canonicalization: of the entries seen so far it holds one
per key, each of them seen, and for each seen entry one that is at least as good
with the same remote prefix. -/
structure CanonicalOf (seen byKey : List PolicyMapEntry) : Prop where
  nodup : KeysNodup byKey
  sound : ∀ entry ∈ byKey, entry ∈ seen
  complete : ∀ entry ∈ seen, ∃ kept ∈ byKey, kept.key = entry.key ∧
    kept.remoteCIDR = entry.remoteCIDR ∧ entryRank entry ≤ entryRank kept

/-- What an iteration does to a key that is taken. -/
theorem canonicalStep_of_some {byKey next : List PolicyMapEntry} {existing : PolicyMapEntry}
    (found : findEntry byKey entry.key = some existing) :
    canonicalStep byKey entry = .ok next ↔ entry.remoteCIDR = existing.remoteCIDR ∧
      (entryRank existing < entryRank entry ∧ upsertEntry byKey entry = next ∨
        entryRank entry ≤ entryRank existing ∧ byKey = next ∧
          (samePolicyMapPriority entry existing → entry.value = existing.value)) := by
  simp only [canonicalStep, found]
  split
  · next improves =>
    rw [betterPolicyMapEntry_iff] at improves
    simp [require_eq_ok, improves, Nat.not_le.mpr improves]
  · next noBetter =>
    rw [betterPolicyMapEntry_iff, Nat.not_lt] at noBetter
    simp [bind_eq_ok, require_eq_ok, noBetter, Nat.not_lt.mpr noBetter, or_iff_not_imp_left,
      and_comm]

theorem canonicalStep_spec {seen byKey next : List PolicyMapEntry} (holds : CanonicalOf seen byKey)
    (stepped : canonicalStep byKey entry = .ok next) :
    CanonicalOf (seen ++ [entry]) next := by
  obtain ⟨nodup, sound, complete⟩ := holds
  -- Taking the entry in keeps the invariant if it is no worse than what it replaces.
  have taken : (∀ existing ∈ byKey, existing.key = entry.key →
      existing.remoteCIDR = entry.remoteCIDR ∧ entryRank existing ≤ entryRank entry) →
      CanonicalOf (seen ++ [entry]) (upsertEntry byKey entry) := by
    intro better
    refine ⟨keysNodup_upsertEntry nodup entry, fun x member => ?_, fun x member => ?_⟩
    · rcases (mem_upsertEntry nodup entry x).mp member with rfl | ⟨old, _⟩
      · simp
      · exact mem_append_left _ (sound x old)
    · rcases mem_append.mp member with earlier | last
      · obtain ⟨kept, inByKey, key, cidr, rank⟩ := complete x earlier
        by_cases same : kept.key = entry.key
        · obtain ⟨cidr', rank'⟩ := better kept inByKey same
          exact ⟨entry, (mem_upsertEntry nodup entry _).mpr (.inl rfl), same.symm.trans key,
            cidr'.symm.trans cidr, rank.trans rank'⟩
        · exact ⟨kept, (mem_upsertEntry nodup entry _).mpr (.inr ⟨inByKey, same⟩), key, cidr, rank⟩
      · obtain rfl := mem_singleton.mp last
        exact ⟨x, (mem_upsertEntry nodup x _).mpr (.inl rfl), rfl, rfl, Nat.le_refl _⟩
  cases found : findEntry byKey entry.key with
  | none =>
    simp only [canonicalStep, found, Except.ok.injEq] at stepped
    obtain rfl := stepped
    exact taken fun existing member same => absurd same (findEntry_none.mp found existing member)
  | some existing =>
    obtain ⟨inByKey, sameKey⟩ := findEntry_some found
    obtain ⟨cidr, ⟨better, rfl⟩ | ⟨worse, rfl, _⟩⟩ := (canonicalStep_of_some found).mp stepped
    · refine taken fun other member same => ?_
      obtain rfl := eq_of_key_eq nodup member inByKey (same.trans sameKey.symm)
      exact ⟨cidr.symm, better.le⟩
    · refine ⟨nodup, fun x member => mem_append_left _ (sound x member), fun x member => ?_⟩
      rcases mem_append.mp member with earlier | last
      · exact complete x earlier
      · obtain rfl := mem_singleton.mp last
        exact ⟨existing, inByKey, sameKey, cidr.symm, worse⟩

theorem canonicalPolicyMapEntries_spec {out : List PolicyMapEntry}
    (returned : canonicalPolicyMapEntries entries = .ok out) : CanonicalOf entries out := by
  simp only [canonicalPolicyMapEntries, bind_eq_ok, pure_eq_ok] at returned
  obtain ⟨byKey, folded, rfl⟩ := returned
  have run := foldlM_invariant canonicalStep CanonicalOf entries [] byKey
    (fun done item state state' _ holds stepped => canonicalStep_spec holds stepped)
    ⟨by simp [KeysNodup], by simp, by simp⟩ folded
  have perm := perm_insertionSort
    (fun a b : PolicyMapEntry => ¬ policyKeyBefore b.key a.key) byKey
  refine ⟨?_, fun entry member => run.sound entry (perm.mem_iff.mp member), fun entry member => ?_⟩
  · exact (perm.map PolicyMapEntry.key).nodup_iff.mpr run.nodup
  · obtain ⟨kept, inByKey, rest⟩ := run.complete entry member
    exact ⟨kept, perm.mem_iff.mpr inByKey, rest⟩

theorem upsertEntry_of_findEntry_none (missing : findEntry entries entry.key = none) :
    upsertEntry entries entry = entries ++ [entry] := by
  rw [findEntry_none] at missing
  induction entries with
  | nil => rfl
  | cons first rest ih =>
    simp only [mem_cons, forall_eq_or_imp] at missing
    rw [upsertEntry, if_neg missing.1, ih missing.2, cons_append]

/-- Entries with distinct keys are only sorted. -/
theorem canonicalPolicyMapEntries_of_nodup (nodup : KeysNodup entries) :
    canonicalPolicyMapEntries entries = .ok (sortEntries entries) := by
  have loop : ∀ done rest : List PolicyMapEntry, KeysNodup (done ++ rest) →
      rest.foldlM canonicalStep done = .ok (done ++ rest) := by
    intro done rest
    induction rest generalizing done with
    | nil => intro _; simp [pure, Except.pure]
    | cons entry rest ih =>
      intro nodup
      -- No entry taken before has this one's key.
      have missing : findEntry done entry.key = none := by
        rw [findEntry_none]
        intro earlier inDone same
        rw [KeysNodup, map_append, nodup_append] at nodup
        exact nodup.2.2 earlier.key (mem_map_of_mem inDone) entry.key (by simp) same
      have stepped : canonicalStep done entry = .ok (done ++ [entry]) := by
        simp [canonicalStep, missing, upsertEntry_of_findEntry_none missing]
      have rest' := ih (done ++ [entry]) (by simpa using nodup)
      rw [foldlM_cons, stepped]
      simpa using rest'
  have all := loop [] entries nodup
  rw [nil_append] at all
  rw [canonicalPolicyMapEntries, all]
  rfl

end Netloom.Dataplane
