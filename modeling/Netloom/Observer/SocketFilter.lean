import Netloom.Lib.Bpf

/-!
# The socket filter of the DNS observer

The observer looks for the payload of a DNS response in an Ethernet frame: behind any
number of VLAN tags an IPv4 packet, with options or without, or an IPv6 packet with
extension headers, and in it a UDP packet from port 53 with a response.

The filter reads frames at fixed offsets: no tag, one tag or two tags, and behind them an
IPv4 header without options or an IPv6 header that names UDP. Its loads take the packet from
the context in `r6`, which the kernel leaves unset and the program never sets.
-/
namespace Netloom.Observer

open Bytes (Byte value)

variable (packet : List Byte)

/-- `binary.BigEndian.Uint16` of two bytes. -/
def uint16 (offset : Nat) : Nat := value ((packet.drop offset).take 2)

/-- A byte of a packet; only used where the packet is long enough. -/
def byteAt (offset : Nat) : Byte := packet.getD offset 0

/-- `IPPROTO_UDP` -/
def protoUDP : Byte := 17

def dnsResponseFromUDPPacket : Option (List Byte) :=
  if packet.length < 8 then none
  else
    let srcPort := uint16 packet 0
    let udpLen := uint16 packet 4
    if srcPort ≠ 53 ∨ udpLen < 8 ∨ udpLen > packet.length then none
    else
      let payload := (packet.take udpLen).drop 8
      if payload.length < 12 ∨ byteAt payload 2 &&& 0x80 = 0 then none else some payload

def dnsResponseFromIPv4Packet : Option (List Byte) :=
  if packet.length < 20 ∨ byteAt packet 0 >>> 4 ≠ 4 then none
  else
    let ihl := (byteAt packet 0 &&& 0x0f).toNat * 4
    if ihl < 20 ∨ packet.length < ihl then none
    else
      let totalLen := uint16 packet 2
      if totalLen < ihl ∨ totalLen > packet.length then none
      else if byteAt packet 9 ≠ protoUDP then none
      else dnsResponseFromUDPPacket ((packet.take totalLen).drop ihl)

/-- The loop over the headers of an IPv6 packet, on what is left of the payload. -/
def dnsResponseFromIPv6Headers (nextHeader : Byte) (rest : List Byte) : Option (List Byte) :=
  if nextHeader = protoUDP then dnsResponseFromUDPPacket rest
  else if nextHeader = 0 ∨ nextHeader = 43 ∨ nextHeader = 60 then
    if rest.length < 2 then none
    else
      let headerLen := ((byteAt rest 1).toNat + 1) * 8
      if rest.length < headerLen then none
      else dnsResponseFromIPv6Headers (byteAt rest 0) (rest.drop headerLen)
  else if nextHeader = 44 then
    if rest.length < 8 then none
    else dnsResponseFromIPv6Headers (byteAt rest 0) (rest.drop 8)
  else none
termination_by rest.length
decreasing_by all_goals simp only [List.length_drop]; omega

def dnsResponseFromIPv6Packet : Option (List Byte) :=
  if packet.length < 40 ∨ byteAt packet 0 >>> 4 ≠ 6 then none
  else
    let payloadLen := uint16 packet 4
    if payloadLen + 40 > packet.length then none
    else dnsResponseFromIPv6Headers (byteAt packet 6) ((packet.take (40 + payloadLen)).drop 40)

/-- The type of a VLAN tag. -/
def isTag (etherType : Nat) : Bool := etherType = 0x8100 || etherType = 0x88a8

/-- The loop over the tags of a frame, on what follows the type that was read last. -/
def skipTags : Nat → List Byte → Option (Nat × List Byte)
  | etherType, a :: b :: c :: d :: rest =>
    if isTag etherType then skipTags (value [c, d]) rest
    else some (etherType, a :: b :: c :: d :: rest)
  | etherType, rest => if isTag etherType then none else some (etherType, rest)

/-- The type of the packet in a frame, and the packet. -/
def networkPacket (frame : List Byte) : Option (Nat × List Byte) :=
  if frame.length < 14 then none else skipTags (uint16 frame 12) (frame.drop 14)

def dnsResponseFromEthernetFrame (frame : List Byte) : Option (List Byte) :=
  match networkPacket frame with
  | none => none
  | some (etherType, packet) =>
    if etherType = 0x0800 then dnsResponseFromIPv4Packet packet
    else if etherType = 0x86dd then dnsResponseFromIPv6Packet packet
    else none

open Bpf

/-! ### The program -/

def snapLen : Int := 0xffff

/-- The instructions of `dnsSocketFilterProgramSpec`. -/
def dnsSocketFilterProgramSpec : List Instr := [
  .loadAbs 12 .half,
  .jeqImm .r0 0x0800 "ipv4_l3_14",
  .jeqImm .r0 0x86dd "ipv6_l3_14",
  .jeqImm .r0 0x8100 "vlan_l3_18",
  .jeqImm .r0 0x88a8 "vlan_l3_18",
  .ja "drop",

  .symbol "vlan_l3_18",
  .loadAbs 16 .half,
  .jeqImm .r0 0x0800 "ipv4_l3_18",
  .jeqImm .r0 0x86dd "ipv6_l3_18",
  .jeqImm .r0 0x8100 "vlan_l3_22",
  .jeqImm .r0 0x88a8 "vlan_l3_22",
  .ja "drop",

  .symbol "vlan_l3_22",
  .loadAbs 20 .half,
  .jeqImm .r0 0x0800 "ipv4_l3_22",
  .jeqImm .r0 0x86dd "ipv6_l3_22",
  .ja "drop",

  .symbol "ipv4_l3_14",
  .loadAbs 14 .byte,
  .jneImm .r0 0x45 "drop",
  .loadAbs 23 .byte,
  .jneImm .r0 17 "drop",
  .loadAbs 34 .half,
  .jneImm .r0 53 "drop",
  .loadAbs 44 .byte,
  .jsetImm .r0 0x80 "pass",
  .ja "drop",

  .symbol "ipv4_l3_18",
  .loadAbs 18 .byte,
  .jneImm .r0 0x45 "drop",
  .loadAbs 27 .byte,
  .jneImm .r0 17 "drop",
  .loadAbs 38 .half,
  .jneImm .r0 53 "drop",
  .loadAbs 48 .byte,
  .jsetImm .r0 0x80 "pass",
  .ja "drop",

  .symbol "ipv4_l3_22",
  .loadAbs 22 .byte,
  .jneImm .r0 0x45 "drop",
  .loadAbs 31 .byte,
  .jneImm .r0 17 "drop",
  .loadAbs 42 .half,
  .jneImm .r0 53 "drop",
  .loadAbs 52 .byte,
  .jsetImm .r0 0x80 "pass",
  .ja "drop",

  .symbol "ipv6_l3_14",
  .loadAbs 20 .byte,
  .jneImm .r0 17 "drop",
  .loadAbs 54 .half,
  .jneImm .r0 53 "drop",
  .loadAbs 64 .byte,
  .jsetImm .r0 0x80 "pass",
  .ja "drop",

  .symbol "ipv6_l3_18",
  .loadAbs 24 .byte,
  .jneImm .r0 17 "drop",
  .loadAbs 58 .half,
  .jneImm .r0 53 "drop",
  .loadAbs 68 .byte,
  .jsetImm .r0 0x80 "pass",
  .ja "drop",

  .symbol "ipv6_l3_22",
  .loadAbs 28 .byte,
  .jneImm .r0 17 "drop",
  .loadAbs 62 .half,
  .jneImm .r0 53 "drop",
  .loadAbs 72 .byte,
  .jsetImm .r0 0x80 "pass",

  .symbol "drop",
  .movImm .r0 0,
  .ret,
  .symbol "pass",
  .movImm .r0 snapLen,
  .ret]

variable (frame : List Byte)

/-- The program reads nothing but the frame. -/
def filterEnv : Env Empty where
  host := .little
  packet := frame
  context := fun _ => none
  keySize := 0
  valueSize := 0
  find := fun _ _ => none

/-- The filter, started as the kernel starts a program, ends with a length and does not drop
the frame. -/
def Accepts : Prop :=
  ∃ memory length final, Returns (filterEnv frame) dnsSocketFilterProgramSpec
    dnsSocketFilterProgramSpec (entry memory) length final ∧ length ≠ 0

/-! ### No frame passes

The programs of the TCX hooks begin by moving the context from `r1` to `r6`. This one does not.
-/

/-- The first instruction loads from the packet, with nothing in `r6` yet. -/
theorem filter_not_returns (memory : Region Empty → Int → Byte) (length : BitVec 64)
    (final : State Empty) : ¬ Returns (filterEnv frame) dnsSocketFilterProgramSpec
      dnsSocketFilterProgramSpec (entry memory) length final :=
  not_returns_of_fault (loadAbs_without_context rfl)

/-- The verifier refuses the program, so the filter is never attached: it ends on no frame,
and no frame reaches the observer through it, whatever response the parser finds there. -/
theorem filter_accepts_nothing (frame : List Byte) :
    ¬ Accepts frame ∧ ∀ memory length final, ¬ Returns (filterEnv frame)
      dnsSocketFilterProgramSpec dnsSocketFilterProgramSpec (entry memory) length final := by
  refine ⟨?_, filter_not_returns frame⟩
  rintro ⟨memory, length, final, returns, _⟩
  exact filter_not_returns frame memory length final returns

/-- An untagged frame with a response in an IPv4 packet without options. -/
def untaggedFrame : List Byte :=
  List.replicate 12 0 ++ [0x08, 0x00] ++
    [0x45, 0, 0, 40, 0, 0, 0, 0, 64, 17, 0, 0, 10, 0, 0, 53, 10, 0, 0, 1] ++
    [0, 53, 0xc0, 0, 0, 20, 0, 0] ++ [0, 1, 0x81, 0x80, 0, 0, 0, 0, 0, 0, 0, 0]

/-- The parser finds the response in the plainest frame there is, and the filter does not
accept it. -/
theorem filter_hides_response :
    dnsResponseFromEthernetFrame untaggedFrame =
      some [0, 1, 0x81, 0x80, 0, 0, 0, 0, 0, 0, 0, 0] ∧ ¬ Accepts untaggedFrame := by
  refine ⟨by decide, ?_⟩
  rintro ⟨memory, length, final, returns, _⟩
  exact filter_not_returns untaggedFrame memory length final returns

end Netloom.Observer
