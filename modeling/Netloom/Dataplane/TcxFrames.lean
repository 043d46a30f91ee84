import Netloom.Dataplane.TcxProgram

/-!
# The IPv4 program on frames

The instructions of the IPv4 program are run symbolically, in four pieces: the
key on the stack is cleared, addresses and protocol are stored, the port is
found behind the header and stored, and the key is looked up.
-/
namespace Netloom.Dataplane

open Bpf List Bytes Bpf.State
open Model

/-! ### The key -/

section IPv4

variable {host : Endian} {aclMap : L4ACLMap .v4} {aclMapFD : Int} {frame : List Byte}
  {counters : Counters .v4} {s : State (Cidr (keyWidth .v4))} {peerOffset : Nat}

/-- The bytes of a key. -/
def l4KeyBytes (host : Endian) (localIP protocol peerIP field : List Byte) : List Byte :=
  localIP ++ protocol ++ [0, 0, 0] ++ peerIP ++ (native host 2 (value field)) ++ [0, 0]

private theorem word_native (field : List Byte) (length : field.length = 2) :
    word 16 (native host 2 (value field)) = nativeBytes host (word 16 field) := by
  obtain ⟨first, second, rfl⟩ := length_eq_two.mp length
  have digits : Bytes.digits 2 (value [first, second]) = [first, second] :=
    digits_value [first, second]
  have pair : ∀ a b : Byte, word 16 [a, b] = a ++ b := by
    intro a b
    have appended : word (8 + 8) ([a] ++ [b]) = word 8 [a] ++ word 8 [b] :=
      word_append (by simp) rfl
    simpa [word] using appended
  cases host with
  | little =>
    rw [native, digits, nativeBytes, reverse_cons, reverse_singleton,
      singleton_append, pair, pair, swapBytes]
    congr 1
    · exact BitVec.extractLsb'_append_eq_right.symm
    · exact BitVec.extractLsb'_append_eq_left.symm
  | big => rw [native, digits, nativeBytes]

variable {localIP protocol peerIP field : List Byte}

private theorem word_l4KeyBytes {family : Family} (whole : 8 * localIP.length = family.width)
    (one : protocol.length = 1) (whole' : 8 * peerIP.length = family.width)
    (two : field.length = 2) :
    word (keyWidth family) (l4KeyBytes host localIP protocol peerIP field) =
      (L4Packet.ofBytes family localIP protocol peerIP field).word host := by
  have length := length_native host 2 (value field)
  rw [l4KeyBytes, word_append (by simp [one, length]; omega) (by simp),
    word_append (by simp [one]; omega) (by simp),
    word_append (by simp [one]; omega) whole',
    word_append (by simp [one]; omega) (by simp),
    word_append (by omega) (by simp [one]), word_native field two]
  rfl

/-- The key on the stack once addresses and protocol have been stored. -/
private def Front (host : Endian) (localIP protocol peerIP : List Byte)
    (s : State (Cidr (keyWidth .v4))) : Prop :=
  s.load .stack (-20) 20 =
    (native host 4 112 ++ localIP ++ protocol ++ [0, 0, 0] ++ peerIP) ++ ([0, 0] ++ [0, 0])

/-! ### The pieces of the program -/

section Reading

variable (memory : Holds host aclMap counters s)
include memory

/-- A frame that ends too early is passed, and is not read as a packet. -/
private theorem unread {offset n : Nat} {packetOf : List Byte → Option (L4Packet .v4)}
    (missing : slice frame offset n = none) :
    Processed host aclMap counters frame ((slice frame offset n).bind packetOf) 0 s := by
  rw [missing]
  exact ⟨rfl, memory⟩

/-- So is a frame that fails a test. -/
private theorem wp_refused {program : List Instr} {packet : Unit → Option (L4Packet .v4)}
    {p : Prop} [Decidable p] (pass : Bpf.after program "pass" = [.movImm .r0 tcxPass, .ret])
    (refused : ¬ p) :
    Wp (tcxEnv host aclMap aclMapFD frame) program (Bpf.after program "pass") s
      (Processed host aclMap counters frame (Option.bind (guard p) packet)) := by
  apply wp_pass pass
  simp only [guard, if_neg refused]
  exact ⟨rfl, memory.of_elements fun _ _ => rfl⟩

end Reading

private theorem bind_guard {α : Type} {p : Prop} [Decidable p] (holds : p) (next : Unit → Option α) :
    Option.bind (guard p) next = next () := by
  simp [guard, holds]

section Stored

variable (four : localIP.length = 4) (one : protocol.length = 1) (four' : peerIP.length = 4)
  (context : s.regs .r6 = .context) (pointer : s.regs .fp = .pointer .stack 0)
  (front : Front host localIP protocol peerIP s) (memory : Holds host aclMap counters s)
include four one four' context pointer front memory

/-- The lookup once the port has been stored. -/
private theorem wp_ipv4Lookup (two : field.length = 2) :
    Wp (tcxEnv host aclMap aclMapFD frame) (ipv4L4ACLTCXInstructions aclMapFD peerOffset)
      (after (ipv4L4ACLTCXInstructions aclMapFD peerOffset) "lookup")
      (s.store .stack (-4) (native host 2 (value field)))
      (Processed host aclMap counters frame (some (.ofBytes .v4 localIP protocol peerIP field))) := by
  have length : (l4KeyBytes host localIP protocol peerIP field).length = 16 := by
    simp [l4KeyBytes, four, one, four']
  have word : Bytes.word (keyWidth .v4) (l4KeyBytes host localIP protocol peerIP field) =
      (L4Packet.ofBytes .v4 localIP protocol peerIP field).word host :=
    word_l4KeyBytes (by rw [four]; rfl) one (by rw [four']; rfl) two
  have loaded := load_store_piece s .stack _ [0, 0] [0, 0] front
    (length_native host 2 (value field)) (by simp [four, one, four'] : (-4 : Int) = _)
  exact wp_lookup rfl (by simp [context]) (by simp [pointer]) rfl length
    (loaded.trans (by simp [l4KeyBytes, Family.lookupPrefixLen])) word (memory.of_elements fun _ _ => rfl)

/-- From the fragment offset on: the port is read, and the key looked up. -/
private theorem wp_ipv4Field (number : s.regs .r8 = .scalar (BitVec.ofNat 64 (value protocol))) :
    Wp (tcxEnv host aclMap aclMapFD frame) (ipv4L4ACLTCXInstructions aclMapFD peerOffset)
      ((ipv4L4ACLTCXInstructions aclMapFD peerOffset).drop 18) s
      (Processed host aclMap counters frame ((ipv4Field frame (value protocol)).bind fun field =>
        some (.ofBytes .v4 localIP protocol peerIP field))) := by
  have protocolSmall : value protocol < 256 := by
    have small := value_lt protocol
    rwa [one] at small
  simp only [ipv4Field, Option.bind_eq_bind, Option.bind_assoc]
  apply wp_loadAbs context
  · exact unread (memory.of_elements fun _ _ => rfl)
  rintro fragment (fragmentRead : slice frame 20 2 = some fragment)
  rw [fragmentRead, Option.bind_some]
  have fragmentSmall : value fragment < 2 ^ 16 := value_slice_lt fragmentRead
  apply wp_andImm (BitVec.ofNat 64 (value fragment)) (BitVec.ofNat 64 (value fragment % 0x2000))
    (by simp) (and_imm 13 (by omega) (by norm_num))
  apply wp_jneImm (value fragment % 0x2000) (by simp) (by omega) (by decide)
  · intro later
    refine wp_refused ?_ rfl (by omega)
    exact memory.of_elements fun _ _ => rfl
  intro first
  rw [bind_guard (by omega)]
  apply wp_loadAbs (by simp [context])
  · exact unread (memory.of_elements fun _ _ => rfl)
  rintro version (versionRead : slice frame 14 1 = some version)
  rw [versionRead, Option.bind_some]
  have versionSmall : value version < 2 ^ 8 := value_slice_lt versionRead
  apply wp_andImm (BitVec.ofNat 64 (value version)) (BitVec.ofNat 64 (value version % 16))
    (by simp) (and_imm 4 (by omega) (by norm_num))
  apply wp_lshImm (BitVec.ofNat 64 (value version % 16)) (BitVec.ofNat 64 (value version % 16 * 4))
    (by simp) (shl_imm _ 2)
  apply wp_movReg (.scalar (BitVec.ofNat 64 (value version % 16 * 4))) (by simp)
  apply wp_jeqImm (value protocol) (by simp [number]) (by omega) (by decide)
  · -- An ICMP message: type and code stand where the header ends.
    intro icmp
    rw [if_pos (by omega), Option.bind_assoc]
    apply wp_loadInd (value version % 16 * 4) (by simp) (by omega) (by simp [context])
    · exact unread (memory.of_elements fun _ _ => rfl)
    rintro field (fieldRead : slice frame (value version % 16 * 4 + 14) 2 = some field)
    rw [fieldRead, Option.bind_some, Option.bind_assoc]
    have fieldSmall : value field < 2 ^ 16 := value_slice_lt fieldRead
    apply wp_jeqImm (value field) (by simp) (by omega) (by decide)
    · intro needed
      refine wp_refused ?_ rfl (by omega)
      exact memory.of_elements fun _ _ => rfl
    intro allowed
    rw [bind_guard (by omega)]
    apply wp_storeMem .stack 0 (value field) (by simp [pointer]) (by simp) rfl
    apply wp_ja
    exact wp_ipv4Lookup four one four' (by simp [context]) (by simp [pointer]) front
      (memory.of_elements fun _ _ => rfl) (length_of_slice fieldRead)
  · intro other
    rw [if_neg (by omega)]
    apply wp_loadInd (value version % 16 * 4) (by simp) (by omega) (by simp [context])
    · exact unread (memory.of_elements fun _ _ => rfl)
    rintro field (fieldRead : slice frame (value version % 16 * 4 + 16) 2 = some field)
    rw [fieldRead, Option.bind_some]
    apply wp_storeMem .stack 0 (value field) (by simp [pointer]) (by simp) rfl
    apply wp_symbol
    exact wp_ipv4Lookup four one four' (by simp [context]) (by simp [pointer]) front
      (memory.of_elements fun _ _ => rfl) (length_of_slice fieldRead)

end Stored

/-- The key on the stack once it has been cleared: the place of the peer is left out. -/
private def Blank (host : Endian) (s : State (Cidr (keyWidth .v4))) : Prop :=
  ∃ unset : List Byte, unset.length = 4 ∧ s.load .stack (-20) 20 =
    native host 4 112 ++ ([0, 0, 0, 0] ++ ([0, 0, 0, 0] ++ (unset ++ [0, 0, 0, 0])))

private theorem Blank.front {own number peer : List Byte} (blank : Blank host s)
    (four : localIP.length = 4) (one : protocol.length = 1) (four' : peerIP.length = 4)
    (ownIs : own = localIP) (numberIs : number = protocol) (peerIs : peer = peerIP) :
    Front host localIP protocol peerIP
      (((s.store .stack (-16) own).store .stack (-12) number).store .stack (-8) peer) := by
  subst ownIs numberIs peerIs
  obtain ⟨unset, length, held⟩ := blank
  have first := load_store_piece s .stack _ _ _ held four (by simp : (-16 : Int) = _)
  have second := load_store_piece _ .stack (native host 4 112 ++ own) [0]
    ([0, 0, 0] ++ (unset ++ [0, 0, 0, 0])) (first.trans (by simp)) one
    (by simp [four] : (-12 : Int) = _)
  have third := load_store_piece _ .stack (native host 4 112 ++ own ++ number ++ [0, 0, 0])
    unset [0, 0, 0, 0] (second.trans (by simp)) (four'.trans length.symm)
    (by simp [four, one] : (-8 : Int) = _)
  exact third.trans (by simp)

/-- The program once the key on the stack has been cleared. -/
private theorem wp_ipv4Header (context : s.regs .r6 = .context)
    (pointer : s.regs .fp = .pointer .stack 0) (blank : Blank host s)
    (memory : Holds host aclMap counters s) :
    Wp (tcxEnv host aclMap aclMapFD frame) (ipv4L4ACLTCXInstructions aclMapFD peerOffset)
      ((ipv4L4ACLTCXInstructions aclMapFD peerOffset).drop 7) s
      (Processed host aclMap counters frame (ipv4L4Packet peerOffset frame)) := by
  simp only [ipv4L4Packet, Option.bind_eq_bind]
  apply wp_loadAbs context
  · exact unread (memory.of_elements fun _ _ => rfl)
  rintro etherType (etherTypeRead : slice frame 12 2 = some etherType)
  rw [etherTypeRead, Option.bind_some]
  have small : value etherType < 2 ^ 16 := value_slice_lt etherTypeRead
  apply wp_jneImm (value etherType) (by simp) (by omega) (by decide)
  · intro other
    refine wp_refused ?_ rfl (by omega)
    exact memory.of_elements fun _ _ => rfl
  intro ipv4
  rw [bind_guard (by omega)]
  apply wp_loadAbs (by simp [context])
  · exact unread (memory.of_elements fun _ _ => rfl)
  rintro localIP (localRead : slice frame (localOffsetForIPv4Peer peerOffset) 4 = some localIP)
  rw [localRead, Option.bind_some]
  have four : localIP.length = 4 := length_of_slice localRead
  apply wp_hostToBE (value localIP) (by simp)
  apply wp_storeMem .stack 0 (toNetwork host 4 (value localIP)) (by simp [pointer])
    (by rw [regs_set, if_pos rfl]; rfl) rfl
  apply wp_loadAbs (by simp [context])
  · exact unread (memory.of_elements fun _ _ => rfl)
  rintro protocol (protocolRead : slice frame 23 1 = some protocol)
  rw [protocolRead, Option.bind_some]
  have one : protocol.length = 1 := length_of_slice protocolRead
  apply wp_storeMem .stack 0 (value protocol) (by simp [pointer]) (by simp) rfl
  apply wp_movReg (.scalar (BitVec.ofNat 64 (value protocol))) (by simp)
  apply wp_loadAbs (by simp [context])
  · exact unread (memory.of_elements fun _ _ => rfl)
  rintro peerIP (peerRead : slice frame peerOffset 4 = some peerIP)
  rw [peerRead, Option.bind_some]
  have four' : peerIP.length = 4 := length_of_slice peerRead
  apply wp_hostToBE (value peerIP) (by simp)
  apply wp_storeMem .stack 0 (toNetwork host 4 (value peerIP)) (by simp [pointer])
    (by rw [regs_set, if_pos rfl]; rfl) rfl
  have localBytes := native_toNetwork host localIP
  have peerBytes := native_toNetwork host peerIP
  rw [four] at localBytes
  rw [four'] at peerBytes
  exact wp_ipv4Field four one four' (by simp [context]) (by simp [pointer])
    (blank.front four one four' localBytes (native_one host one) peerBytes)
    (memory.of_elements fun _ _ => rfl) (by simp)

private theorem blank_stores : Blank host
    ((((s.store .stack (-20) (native host 4 112)).store .stack (-16) (native host 4 0)).store
      .stack (-12) (native host 4 0)).store .stack (-4) (native host 4 0)) := by
  have zero : native host 4 0 = [0, 0, 0, 0] := by cases host <;> decide
  have split : s.load .stack (-20) 20 = [] ++ (s.load .stack (-20) 4 ++ (s.load .stack (-16) 4 ++
      (s.load .stack (-12) 4 ++ (s.load .stack (-8) 4 ++ s.load .stack (-4) 4)))) := by
    rw [show (20 : Nat) = 4 + (4 + (4 + (4 + 4))) from rfl, load_add, load_add, load_add, load_add]
    rfl
  have first := load_store_piece s .stack _ _ _ split
    ((length_native host 4 112).trans (by simp)) (by simp : (-20 : Int) = _)
  have second := load_store_piece _ .stack (native host 4 112) _ _ first
    ((length_native host 4 0).trans (by simp)) (by simp : (-16 : Int) = _)
  have third := load_store_piece _ .stack (native host 4 112 ++ (native host 4 0)) _ _
    (second.trans (append_assoc ..).symm) ((length_native host 4 0).trans (by simp))
    (by simp : (-12 : Int) = _)
  have fourth := load_store_piece _ .stack (native host 4 112 ++ (native host 4 0) ++
    (native host 4 0 ++ s.load .stack (-8) 4)) (s.load .stack (-4) 4) [] (third.trans (by simp))
    ((length_native host 4 0).trans (by simp)) (by simp : (-4 : Int) = _)
  exact ⟨s.load .stack (-8) 4, by simp, fourth.trans (by simp [zero])⟩

/-- The whole program. -/
theorem wp_ipv4L4ACLTCXInstructions (aclMapFD : Int) (frame : List Byte) (peerOffset : Nat)
    {memory : Region (Cidr (keyWidth .v4)) → Int → Byte}
    (holds : Holds host aclMap counters (entry memory)) :
    Wp (tcxEnv host aclMap aclMapFD frame) (ipv4L4ACLTCXInstructions aclMapFD peerOffset)
      (ipv4L4ACLTCXInstructions aclMapFD peerOffset) (entry memory)
      (Processed host aclMap counters frame (ipv4L4Packet peerOffset frame)) := by
  apply wp_movReg .context rfl
  apply wp_movImm
  apply wp_storeMem .stack 0 112 rfl (by simp [Family.lookupPrefixLen]) rfl
  apply wp_movImm
  apply wp_storeMem .stack 0 0 rfl (by simp) rfl
  apply wp_storeMem .stack 0 0 rfl (by simp) rfl
  apply wp_storeMem .stack 0 0 rfl (by simp) rfl
  exact wp_ipv4Header rfl rfl blank_stores (holds.of_elements fun _ _ => rfl)

end IPv4

/-! ### Datagrams -/

/-- An Ethernet frame with an unfragmented IPv4 datagram. The datagram carries at least
four bytes: source and destination port, or type, code and checksum of ICMP. -/
structure Datagram where
  hardware : List Byte
  service : List Byte
  flags : BitVec 3
  timeToLive : Byte
  protocol : Byte
  checksum : List Byte
  source : BitVec 32
  destination : BitVec 32
  options : List Byte
  first : BitVec 16
  second : BitVec 16
  payload : List Byte
  hardware_length : hardware.length = 12
  service_length : service.length = 5
  checksum_length : checksum.length = 2
  options_length : options.length % 4 = 0 ∧ options.length ≤ 40

namespace Datagram

variable (d : Datagram)

/-- The number of words of the header. -/
def headerWords : Nat := 5 + d.options.length / 4

/-- The fields on the wire, in order. -/
def pieces : List (List Byte) := [
  d.hardware, [0x08, 0x00], [BitVec.ofNat 8 (0x40 + d.headerWords)], d.service,
  [d.flags ++ 0#5, 0], [d.timeToLive], [d.protocol], d.checksum, digits 4 d.source.toNat,
  digits 4 d.destination.toNat, d.options, digits 2 d.first.toNat, digits 2 d.second.toNat,
  d.payload]

def frame : List Byte := d.pieces.flatten

/-- The address of the endpoint: the receiver of what comes in, the sender of what goes
out. -/
def localIP (direction : Direction) : BitVec 32 :=
  if direction = .ingress then d.destination else d.source

def peerIP (direction : Direction) : BitVec 32 :=
  if direction = .ingress then d.source else d.destination

/-- What is compared with the port of a rule. -/
def field : BitVec 16 := if d.protocol = 1 then d.first else d.second

end Datagram

/-- A piece is found behind the pieces before it. -/
private theorem slice_flatten {pieces : List (List Byte)} {piece : List Byte} {offset n : Nat}
    (k : Nat) (found : pieces[k]? = some piece) (before : (pieces.take k).flatten.length = offset)
    (length : piece.length = n) : slice pieces.flatten offset n = some piece := by
  have split : pieces.flatten = (pieces.take k).flatten ++ (piece ++ (pieces.drop (k + 1)).flatten) := by
    conv_lhs => rw [← take_append_drop k pieces]
    rw [flatten_append, drop_eq_getElem?_toList_append, found]
    simp
  subst before length
  rw [split, slice, if_pos (by simp), drop_left, take_left]

private theorem word_digits (n : Nat) (x : BitVec (8 * n)) : word (8 * n) (digits n x.toNat) = x := by
  have bound : 256 ^ n = 2 ^ (8 * n) := by
    rw [pow_mul]
    norm_num
  rw [word, value_digits, bound, Nat.mod_eq_of_lt x.isLt, BitVec.ofNat_toNat, BitVec.setWidth_eq]

section Frames

variable (d : Datagram)

private theorem frame_slices :
    slice d.frame 12 2 = some [0x08, 0x00] ∧
    slice d.frame 14 1 = some [BitVec.ofNat 8 (0x40 + d.headerWords)] ∧
    slice d.frame 20 2 = some [d.flags ++ 0#5, 0] ∧ slice d.frame 23 1 = some [d.protocol] ∧
    slice d.frame 26 4 = some (digits 4 d.source.toNat) ∧
    slice d.frame 30 4 = some (digits 4 d.destination.toNat) ∧
    slice d.frame (d.headerWords * 4 + 14) 2 = some (digits 2 d.first.toNat) ∧
    slice d.frame (d.headerWords * 4 + 16) 2 = some (digits 2 d.second.toNat) := by
  have h := d.hardware_length
  have v := d.service_length
  have c := d.checksum_length
  have o := d.options_length
  have words : d.headerWords = 5 + d.options.length / 4 := rfl
  refine ⟨slice_flatten 1 rfl ?_ rfl, slice_flatten 2 rfl ?_ rfl, slice_flatten 4 rfl ?_ rfl,
    slice_flatten 6 rfl ?_ rfl, slice_flatten 8 rfl ?_ (by simp), slice_flatten 9 rfl ?_ (by simp),
    slice_flatten 11 rfl ?_ (by simp), slice_flatten 12 rfl ?_ (by simp)⟩ <;>
    simp [Datagram.pieces, h, v, c, words]
  all_goals omega

private theorem ipv4Field_frame (read : ¬ (d.protocol = 1 ∧ d.first = 0x0304)) :
    ipv4Field d.frame (value [d.protocol]) = some (digits 2 d.field.toNat) := by
  obtain ⟨_, version, fragment, _, _, _, first, second⟩ := frame_slices d
  have options := d.options_length
  have words : d.headerWords = 5 + d.options.length / 4 := rfl
  have header : value [BitVec.ofNat 8 (0x40 + d.headerWords)] % 16 = d.headerWords := by
    rw [value_singleton, BitVec.toNat_ofNat]
    omega
  have whole : value [d.flags ++ 0#5, 0] % 0x2000 = 0 := by
    have flags := toNat_append d.flags 0#5
    simp only [value, foldl_cons, foldl_nil, flags]
    simp
    omega
  have number : value [d.protocol] = 1 ↔ d.protocol = 1 := by
    rw [value_singleton]
    exact ⟨fun one => BitVec.eq_of_toNat_eq one, fun one => by rw [one]; rfl⟩
  have half : ∀ x : BitVec 16, value (digits 2 x.toNat) = x.toNat := by
    intro x
    rw [value_digits]
    exact Nat.mod_eq_of_lt x.isLt
  unfold ipv4Field Datagram.field
  by_cases icmp : d.protocol = 1
  · have needed : d.first.toNat ≠ 0x0304 := fun same =>
      read ⟨icmp, BitVec.eq_of_toNat_eq same⟩
    simp only [fragment, version, Option.bind_eq_bind, Option.bind_some, guard, whole, header,
      number.mpr icmp, if_pos icmp, if_true, first, half, needed, ne_eq, not_false_eq_true,
      Option.pure_def]
  · simp only [fragment, version, Option.bind_eq_bind, Option.bind_some, guard, whole, header, number,
      icmp, if_true, if_false, second, Option.pure_def]

/-- The program reads the datagram. -/
theorem ipv4L4Packet_frame {direction : Direction} {peerOffset : Nat}
    (offset : ipv4PeerOffset direction = .ok peerOffset)
    (read : ¬ (d.protocol = 1 ∧ d.first = 0x0304)) :
    ipv4L4Packet peerOffset d.frame = some {
      localIP := d.localIP direction, protocol := d.protocol, peerIP := d.peerIP direction,
      field := d.field } := by
  obtain ⟨etherType, _, _, protocol, source, destination, _, _⟩ := frame_slices d
  have field := ipv4Field_frame d read
  have ipv4 : value [0x08, 0x00] = 0x0800 := rfl
  have packet : ∀ own peer : BitVec 32, L4Packet.ofBytes .v4 (digits 4 own.toNat) [d.protocol]
      (digits 4 peer.toNat) (digits 2 d.field.toNat) =
        { localIP := own, protocol := d.protocol, peerIP := peer, field := d.field } := by
    intro own peer
    have address : ∀ x : BitVec 32, word 32 (digits 4 x.toNat) = x := word_digits 4
    have port : ∀ x : BitVec 16, word 16 (digits 2 x.toNat) = x := word_digits 2
    have byte : word 8 [d.protocol] = d.protocol := by simp [word]
    change (⟨word 32 _, word 8 _, word 32 _, word 16 _⟩ : L4Packet .v4) = _
    rw [address, address, port, byte]
  cases direction with
  | ingress =>
    cases offset
    simp only [ipv4L4Packet, etherType, Option.bind_eq_bind, Option.bind_some, guard, ipv4, if_true,
      Option.pure_def, show localOffsetForIPv4Peer 26 = 30 from rfl, protocol, source, destination,
      field, packet]
    rfl
  | egress =>
    cases offset
    simp only [ipv4L4Packet, etherType, Option.bind_eq_bind, Option.bind_some, guard, ipv4, if_true,
      Option.pure_def, show localOffsetForIPv4Peer 30 = 26 from rfl, protocol, source, destination,
      field, packet]
    rfl
  | other text => simp [ipv4PeerOffset] at offset

end Frames

end Netloom.Dataplane
