import Netloom.Lib.Bpf
import Netloom.Dataplane.TcxKeys

/-!
# The TCX program

The instructions attached to an interface, the trie as the program finds it in
memory, and what the instructions read of a frame.
-/
namespace Netloom.Dataplane

open Bpf List Bpf.State Bytes
open Model

/-! ### Instructions -/

def tcxL4CounterInstructions : List Instr := [
  .movImm .r1 1,
  .addAtomic .r9 .r1 .dword 8,
  .loadMem .r1 .r6 0 .word,
  .addAtomic .r9 .r1 .dword 16]

def ipv4PeerOffset : Direction → Except String Nat
  | .ingress => .ok 26
  | .egress => .ok 30
  | direction => .error s!"unsupported policy direction \"{direction.text}\""

def localOffsetForIPv4Peer (peerOffset : Nat) : Nat := if peerOffset = 26 then 30 else 26

def ipv4L4ACLTCXInstructions (aclMapFD : Int) (peerOffset : Nat) : List Instr :=
  let localOffset := localOffsetForIPv4Peer peerOffset
  [ .movReg .r6 .r1,
    .movImm .r0 (Family.lookupPrefixLen .v4),
    .storeMem .fp (-20) .r0 .word,
    .movImm .r0 0,
    .storeMem .fp (-16) .r0 .word,
    .storeMem .fp (-12) .r0 .word,
    .storeMem .fp (-4) .r0 .word,
    .loadAbs 12 .half,
    .jneImm .r0 0x0800 "pass",
    .loadAbs localOffset .word,
    .hostToBE .r0 .word,
    .storeMem .fp (-16) .r0 .word,
    .loadAbs 23 .byte,
    .storeMem .fp (-12) .r0 .byte,
    .movReg .r8 .r0,
    .loadAbs peerOffset .word,
    .hostToBE .r0 .word,
    .storeMem .fp (-8) .r0 .word,
    .loadAbs 20 .half,
    .andImm .r0 0x1fff,
    .jneImm .r0 0 "pass",
    .loadAbs 14 .byte,
    .andImm .r0 0x0f,
    .lshImm .r0 2,
    .movReg .r7 .r0,
    .jeqImm .r8 1 "load_icmp",
    .loadInd .r0 .r7 16 .half,
    .storeMem .fp (-4) .r0 .half,
    .symbol "lookup",
    .loadMapPtr .r1 aclMapFD,
    .movReg .r2 .fp,
    .addImm .r2 (-20),
    .mapLookupElem,
    .jeqImm .r0 0 "pass",
    .movReg .r9 .r0] ++
  tcxL4CounterInstructions ++
  [ .loadMem .r0 .r9 0 .word,
    .ret,
    .symbol "load_icmp",
    .loadInd .r0 .r7 14 .half,
    .jeqImm .r0 0x0304 "pass",
    .storeMem .fp (-4) .r0 .half,
    .ja "lookup",
    .symbol "pass",
    .movImm .r0 tcxPass,
    .ret]

/-! ### The trie in memory -/

/-- The fields of a value in the order of the structure. -/
def L4ACLValue.layout (host : Endian) (v : L4ACLValue) : List Byte :=
  native host 4 (BitVec.ofInt 32 v.action).toNat ++ (native host 4 v.ruleCookie.toNat) ++
    (native host 8 v.packets.toNat) ++ (native host 8 v.bytes.toNat) ++ (native host 4 v.log.toNat) ++
    (native host 4 v.reject.toNat)

/-- What the kernel looks up: the first word of a key is its number of bits. -/
def findNode {family : Family} (host : Endian) (aclMap : L4ACLMap family) (key : List Byte) :
    Option (Cidr (keyWidth family)) :=
  let bits := ofNative host (key.take 4)
  if bits ≤ keyWidth family then
    (Lpm.longest aclMap bits (word (keyWidth family) (key.drop 4))).map Sigma.fst
  else none

/-- The program runs on a frame and the trie. -/
def tcxEnv {family : Family} (host : Endian) (aclMap : L4ACLMap family) (aclMapFD : Int)
    (frame : List Byte) : Env (Cidr (keyWidth family)) where
  host
  packet := frame
  context := fun offset => if offset = 0 then some (BitVec.ofNat 64 (frame.length % 2 ^ 32)) else none
  keySize := 4 + keyWidth family / 8
  valueSize := 32
  find := fun fd key => if fd = aclMapFD then findNode host aclMap key else none

/-- The counters of the entries, packets first. -/
abbrev Counters (family : Family) := Cidr (keyWidth family) → BitVec 64 × BitVec 64

/-- The values of the trie stand in memory, with the counters as they are now. -/
def Holds {family : Family} (host : Endian) (aclMap : L4ACLMap family) (counters : Counters family)
    (s : State (Cidr (keyWidth family))) : Prop :=
  ∀ node v, aclMap.lookup node = some v → s.load (.element node) 0 32 =
    { v with packets := (counters node).1, bytes := (counters node).2 }.layout host

/-- One more frame of the given length. -/
def Counters.count {family : Family} (counters : Counters family)
    (node : Option (Cidr (keyWidth family))) (length : Nat) : Counters family := fun node' =>
  if node = some node' then
    ((counters node').1 + 1, (counters node').2 + BitVec.ofNat 64 (length % 2 ^ 32))
  else counters node'

/-! ### Frames -/

/-- The destination port of an IPv4 frame, or type and code of an ICMP message. Later
fragments have none, and the message that fragmentation is needed is left out. -/
def ipv4Field (frame : List Byte) (protocol : Nat) : Option (List Byte) := do
  let fragment ← slice frame 20 2
  guard (value fragment % 0x2000 = 0)
  let version ← slice frame 14 1
  let header := value version % 16 * 4
  if protocol = 1 then do
    let field ← slice frame (header + 14) 2
    guard (value field ≠ 0x0304)
    pure field
  else slice frame (header + 16) 2

/-- The packet with the given bytes. -/
def L4Packet.ofBytes (family : Family) (localIP protocol peerIP field : List Byte) :
    L4Packet family where
  localIP := Bytes.word family.width localIP
  protocol := Bytes.word 8 protocol
  peerIP := Bytes.word family.width peerIP
  field := Bytes.word 16 field

/-- What the IPv4 program reads of a frame before the lookup. Frames that are not IPv4 or
end too early are not read. -/
def ipv4L4Packet (peerOffset : Nat) (frame : List Byte) : Option (L4Packet .v4) := do
  let etherType ← slice frame 12 2
  guard (value etherType = 0x0800)
  let localIP ← slice frame (localOffsetForIPv4Peer peerOffset) 4
  let protocol ← slice frame 23 1
  let peerIP ← slice frame peerOffset 4
  let field ← ipv4Field frame (value protocol)
  pure (.ofBytes .v4 localIP protocol peerIP field)

/-- The entry a lookup selects. -/
def selectNode {family : Family} (host : Endian) (aclMap : L4ACLMap family)
    (packet : L4Packet family) : Option (Cidr (keyWidth family)) :=
  (Lpm.longest aclMap family.lookupPrefixLen (packet.word host)).map Sigma.fst

/-- How the program ends for a frame it has read as the given packet: with the verdict of
the lookup, counting the frame at the selected entry, and with pass for a frame it has not
read as a packet. -/
def Processed {family : Family} (host : Endian) (aclMap : L4ACLMap family)
    (counters : Counters family) (frame : List Byte) (packet : Option (L4Packet family))
    (code : BitVec 64) (final : State (Cidr (keyWidth family))) : Prop :=
  code.setWidth 32 = BitVec.ofInt 32 (packet.elim tcxPass (lookupVerdict family host aclMap)) ∧
    Holds host aclMap (counters.count (packet.bind (selectNode host aclMap)) frame.length) final

/-! ### The lookup -/

section Lookup

variable {family : Family} {host : Endian} {aclMap : L4ACLMap family} {aclMapFD : Int}
  {frame : List Byte} {counters : Counters family} {s : State (Cidr (keyWidth family))}

/-- Registers and the stack do not matter. -/
theorem Holds.of_elements {t : State (Cidr (keyWidth family))}
    (holds : Holds host aclMap counters s)
    (same : ∀ node offset, t.memory (.element node) offset = s.memory (.element node) offset) :
    Holds host aclMap counters t := by
  intro node v found
  rw [← holds node v found, State.load, State.load]
  simp [same]

section Value

variable {region : Region (Cidr (keyWidth family))} {v : L4ACLValue}

private theorem layout_eq (v : L4ACLValue) : v.layout host =
    (native host 4 (BitVec.ofInt 32 v.action).toNat ++ (native host 4 v.ruleCookie.toNat)) ++
      (native host 8 v.packets.toNat ++ (native host 8 v.bytes.toNat ++
        (native host 4 v.log.toNat ++ (native host 4 v.reject.toNat)))) := by
  simp [L4ACLValue.layout]

/-- The fields of a value that the program reads. -/
private theorem load_value (held : s.load region 0 32 = v.layout host) :
    s.load region 0 4 = native host 4 (BitVec.ofInt 32 v.action).toNat ∧
      s.load region 8 8 = native host 8 v.packets.toNat ∧
      s.load region 16 8 = native host 8 v.bytes.toNat := by
  have split : s.load region 0 32 = (s.load region 0 4 ++ s.load region 4 4) ++
      (s.load region 8 8 ++ (s.load region 16 8 ++ s.load region 24 8)) := by
    rw [show (32 : Nat) = (4 + 4) + (8 + (8 + 8)) from rfl, load_add, load_add, load_add, load_add]
    rfl
  rw [split, layout_eq] at held
  obtain ⟨front, back⟩ := append_inj held (by simp)
  obtain ⟨packets, back⟩ := append_inj back (by simp)
  exact ⟨(append_inj front (by simp)).1, packets, (append_inj back (by simp)).1⟩

private theorem native_add (word : BitVec 64) (number : Nat) :
    native host 8 (ofNative host (native host 8 word.toNat) + number) =
      native host 8 (word + BitVec.ofNat 64 number).toNat := by
  rw [ofNative_native, ← native_mod host 8 (word.toNat % 256 ^ 8 + number),
    BitVec.toNat_add, BitVec.toNat_ofNat, show 256 ^ 8 = 2 ^ 64 by norm_num,
    Nat.mod_add_mod, Nat.add_mod_mod]

private theorem load_addPackets (held : s.load region 0 32 = v.layout host) (number : Nat) :
    (s.store region 8 (native host 8 (ofNative host (s.load region 8 8) + number))).load region 0 32 =
      { v with packets := v.packets + BitVec.ofNat 64 number }.layout host := by
  rw [(load_value held).2.1, native_add]
  rw [layout_eq] at held ⊢
  exact load_store_piece s region _ _ _ held (by simp) (by simp)

private theorem load_addBytes (held : s.load region 0 32 = v.layout host) (number : Nat) :
    (s.store region 16 (native host 8 (ofNative host (s.load region 16 8) + number))).load region 0 32 =
      { v with bytes := v.bytes + BitVec.ofNat 64 number }.layout host := by
  rw [(load_value held).2.2, native_add]
  rw [layout_eq, ← append_assoc] at held ⊢
  exact load_store_piece s region _ _ _ held (by simp) (by simp)

end Value

/-- Adding to the two counters of an entry. -/
private theorem holds_count (frame : List Byte) (memory : Holds host aclMap counters s)
    (node : Cidr (keyWidth family)) {t : State (Cidr (keyWidth family))}
    (first : t = s.store (.element node) 8
      (native host 8 (ofNative host (s.load (.element node) 8 8) + 1))) :
    Holds host aclMap (counters.count (some node) frame.length) (t.store (.element node) 16
      (native host 8 (ofNative host (t.load (.element node) 16 8) + frame.length % 2 ^ 32))) := by
  intro node' v found
  subst first
  have held := memory node' v found
  by_cases here : node = node'
  · subst here
    rw [load_addBytes (load_addPackets held 1), Counters.count, if_pos rfl]
    rfl
  · have other : ∀ (t : State (Cidr (keyWidth family))) (offset : Int) (new : List Byte),
        (t.store (.element node) offset new).load (.element node') 0 32 =
          t.load (.element node') 0 32 := fun t offset new =>
      load_store_of_apart t (.inl fun same => here (Region.element.inj same).symm)
    rw [other, other, held, Counters.count, if_neg fun same => here (Option.some.inj same)]

variable {node : Cidr (keyWidth family)} {program rest : List Instr}
  {Post : BitVec 64 → State (Cidr (keyWidth family)) → Prop}

theorem wp_pass (pass : Bpf.after program "pass" = [.movImm .r0 tcxPass, .ret])
    (holds : Post 0 (s.set .r0 (.scalar 0))) :
    Wp (tcxEnv host aclMap aclMapFD frame) program (Bpf.after program "pass") s Post := by
  rw [pass]
  apply wp_movImm
  exact wp_ret 0 (by simp [tcxPass]) holds

variable {packet : L4Packet family}

/-- The entry the lookup finds has its value in the trie. -/
theorem lookup_of_selectNode (selected : selectNode host aclMap packet = some node) :
    ∃ v, aclMap.lookup node = some v ∧ lookupVerdict family host aclMap packet = v.action := by
  obtain ⟨⟨node, v⟩, longest, rfl⟩ := Option.map_eq_some_iff.mp selected
  have looked : Lpm.lookup aclMap family.lookupPrefixLen (packet.word host) = some v := by
    rw [Lpm.lookup, longest]
    rfl
  refine ⟨v, ((Lpm.longest_spec _ _ _).2 _ longest).1, ?_⟩
  rw [lookupVerdict, ← L4Packet.word, looked]
  rfl

theorem lookupVerdict_of_selectNode (missing : selectNode host aclMap packet = none) :
    lookupVerdict family host aclMap packet = tcxPass := by
  have looked : Lpm.lookup aclMap family.lookupPrefixLen (packet.word host) = none := by
    rw [Lpm.lookup, Option.map_eq_none_iff.mp missing]
    rfl
  rw [lookupVerdict, ← L4Packet.word, looked]
  rfl

/-- Counting the frame at an entry and returning its action. -/
private theorem wp_count {v : L4ACLValue} (context : s.regs .r6 = .context)
    (address : s.regs .r9 = .pointer (.element node) 0) (found : aclMap.lookup node = some v)
    (memory : Holds host aclMap counters s) :
    Wp (tcxEnv host aclMap aclMapFD frame) program
      (tcxL4CounterInstructions ++ .loadMem .r0 .r9 0 .word :: .ret :: rest) s
      fun code final => code.setWidth 32 = BitVec.ofInt 32 v.action ∧
        Holds host aclMap (counters.count (some node) frame.length) final := by
  have inside : ∀ n : Nat, n ≤ 24 →
      (tcxEnv host aclMap aclMapFD frame).inBounds (.element node) (0 + n) 8 := by
    intro n within
    have size : (tcxEnv host aclMap aclMapFD frame).valueSize = 32 := rfl
    simp only [Env.inBounds, size, Bool.and_eq_true, decide_eq_true_eq]
    omega
  have small : frame.length % 2 ^ 32 < 2 ^ 64 := by omega
  have counted := holds_count frame memory node rfl
  apply wp_movImm
  apply wp_addAtomic (.element node) 0 1 (by simp [address]) (by simp) (by norm_num)
    (inside 8 (by omega))
  apply wp_loadMem_context (BitVec.ofNat 64 (frame.length % 2 ^ 32)) (by simp [context]) rfl
  apply wp_addAtomic (.element node) 0 (frame.length % 2 ^ 32) (by simp [address]) (by simp) small
    (inside 16 (by omega))
  apply wp_loadMem (.element node) 0 (by simp [address]) rfl
  apply wp_ret (BitVec.ofNat 64 (ofNative host (native host 4 (BitVec.ofInt 32 v.action).toNat)))
  · rw [← (load_value (counted node v found)).1, regs_set, if_pos rfl]
    rfl
  refine ⟨?_, counted⟩
  rw [ofNative_native, show 256 ^ 4 = 2 ^ 32 by norm_num,
    Nat.mod_eq_of_lt (BitVec.ofInt 32 v.action).isLt]
  generalize BitVec.ofInt 32 v.action = action
  simp

/-- The instructions from the lookup on return the verdict of the entry and count. -/
theorem wp_lookup {key : List Byte} {size : Nat}
    (pass : Bpf.after program "pass" = [.movImm .r0 tcxPass, .ret])
    (context : s.regs .r6 = .context) (pointer : s.regs .fp = .pointer .stack 0)
    (sizeIs : size = 4 + keyWidth family / 8) (length : key.length = keyWidth family / 8)
    (loaded : s.load .stack (-size) size = native host 4 family.lookupPrefixLen ++ key)
    (keyIs : word (keyWidth family) key = packet.word host)
    (memory : Holds host aclMap counters s) :
    Wp (tcxEnv host aclMap aclMapFD frame) program
      ([.loadMapPtr .r1 aclMapFD, .movReg .r2 .fp, .addImm .r2 (-size), .mapLookupElem,
        .jeqImm .r0 0 "pass", .movReg .r9 .r0] ++ tcxL4CounterInstructions ++
        .loadMem .r0 .r9 0 .word :: .ret :: rest) s
      (Processed host aclMap counters frame (some packet)) := by
  have bits : family.lookupPrefixLen % 256 ^ 4 = family.lookupPrefixLen ∧
      family.lookupPrefixLen ≤ keyWidth family := by
    cases family <;> decide
  have found : (tcxEnv host aclMap aclMapFD frame).find aclMapFD
      (native host 4 family.lookupPrefixLen ++ key) = selectNode host aclMap packet := by
    simp only [tcxEnv, if_true, findNode, take_left' (length_native ..),
      drop_left' (length_native ..), ofNative_native, bits.1, bits.2, keyIs, selectNode]
  have keySize : (tcxEnv host aclMap aclMapFD frame).keySize = size := sizeIs.symm
  have inStack : (tcxEnv host aclMap aclMapFD frame).inBounds .stack (-size) size := by
    have small : size ≤ 512 := by rw [sizeIs]; cases family <;> decide
    simp only [Env.inBounds, Bool.and_eq_true, decide_eq_true_eq]
    omega
  apply wp_loadMapPtr
  apply wp_movReg (.pointer .stack 0) (by simp [pointer])
  apply wp_addImm .stack 0 (by simp)
  apply wp_mapLookupElem aclMapFD (-size) (by simp) (by simp)
  · rwa [keySize]
  · -- No entry: the program passes.
    intro missing
    rw [keySize, load_set, load_set, load_set, loaded, found] at missing
    apply wp_jeqImm 0 (by simp) (by norm_num) (by decide)
    · intro _
      apply wp_pass pass
      constructor
      · rw [Option.elim_some, lookupVerdict_of_selectNode missing]
        rfl
      · rw [Option.bind_some, missing]
        exact memory
    · intro nonzero
      exact absurd rfl nonzero
  · intro node selected
    rw [keySize, load_set, load_set, load_set, loaded, found] at selected
    obtain ⟨v, inTrie, verdict⟩ := lookup_of_selectNode selected
    apply wp_jeqImm_pointer (.element node) 0 (by simp)
    apply wp_movReg (.pointer (.element node) 0) (by simp)
    refine Wp.mono (wp_count (by simp [context]) (by simp) inTrie (memory.of_elements fun _ _ => rfl)) ?_
    intro code final returned
    rwa [Processed, Option.elim_some, Option.bind_some, selected, verdict]

end Lookup

end Netloom.Dataplane
