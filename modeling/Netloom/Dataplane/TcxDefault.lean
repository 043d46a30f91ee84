import Netloom.Dataplane.TcxFrames
import Netloom.Dataplane.TcxMisses

/-!
# Packets without an entry

The TCX program drops a packet only for an entry that says so. A packet whose key is
not in the trie is passed, also where default deny makes the evaluator drop it.
-/
namespace Netloom.Dataplane

open Netip (Addr Prefix)
open Model Checked Policy
open Bpf
open Bytes (Byte)

/-! ### The trie in fresh memory -/

/-- Memory in which the values of the trie have just been stored. -/
def trieMemory {family : Family} (host : Endian) (aclMap : L4ACLMap family) :
    Region (Cidr (keyWidth family)) → Int → Byte
  | .stack, _ => 0
  | .element node, offset =>
    match aclMap.lookup node with
    | some v => ((v.layout host)[offset.toNat]?).getD 0
    | none => 0

/-! ### Verdicts on datagrams -/

/-- The program ends with the verdict, whatever the counters are. -/
def TcxReturns (host : Endian) (aclMap : L4ACLMap .v4) (peerOffset : Nat) (frame : List Byte)
    (verdict : Int) : Prop :=
  ∀ aclMapFD counters memory, Holds host aclMap counters (entry memory) → ∃ code final,
    Returns (tcxEnv host aclMap aclMapFD frame) (ipv4L4ACLTCXInstructions aclMapFD peerOffset)
      (ipv4L4ACLTCXInstructions aclMapFD peerOffset) (entry memory) code final ∧
    code.setWidth 32 = BitVec.ofInt 32 verdict

/-- The datagram carries the packet of the endpoint: tcp, udp or sctp, in the direction. -/
structure Datagram.Carries (d : Datagram) (direction : Direction) (localIP : BitVec 32)
    (packet : Packet) : Prop where
  own : d.localIP direction = localIP
  goes : directionNumber direction = .ok packet.direction
  remote : packet.remoteIP = .v4 (d.peerIP direction)
  protocol : packet.protocol = d.protocol
  transport : packet.protocol = 6 ∨ packet.protocol = 17 ∨ packet.protocol = 132
  port : packet.destPort = d.second

section Verdicts

variable {host : Endian} {program : Program} {direction : Direction} {localIP : BitVec 32}
  {entries : List PolicyMapEntry} {rules : List L4ACLRule} {peerOffset : Nat} {d : Datagram}
  {packet : Packet}

/-- The program looks up what the datagram carries. -/
theorem tcxReturns_lookupVerdict (host : Endian) (aclMap : L4ACLMap .v4)
    (offset : ipv4PeerOffset direction = .ok peerOffset)
    (carries : d.Carries direction localIP packet) :
    TcxReturns host aclMap peerOffset d.frame
      (lookupVerdict .v4 host aclMap (l4PacketOf localIP (d.peerIP direction) packet)) := by
  have notIcmp : packet.protocol ≠ 1#8 ∧ packet.protocol ≠ 58#8 := by
    rcases carries.transport with h | h | h <;> simp [h]
  have read : ipv4L4Packet peerOffset d.frame =
      some (l4PacketOf localIP (d.peerIP direction) packet) := by
    have field : d.field = l4Field packet := by
      rw [Datagram.field, if_neg (by rw [← carries.protocol]; exact notIcmp.1), ← carries.port]
      simp [l4Field, notIcmp]
    rw [ipv4L4Packet_frame d offset (by rw [← carries.protocol]; exact fun both => notIcmp.1 both.1),
      carries.own, field, ← carries.protocol]
    rfl
  intro aclMapFD counters memory holds
  obtain ⟨code, final, returns, verdict, _⟩ :=
    wp_ipv4L4ACLTCXInstructions aclMapFD d.frame peerOffset holds
  rw [read] at verdict
  exact ⟨code, final, returns, verdict⟩

/-- The rules of a projection are well formed. -/
private theorem wellFormed_of_projection
    (projected : ipv4L4ACLRulesFromProgramForDirection program direction = .ok rules) :
    rules ≠ [] ∧ ∀ x ∈ rules, WellFormed .v4 x := by
  simp only [ipv4L4ACLRulesFromProgramForDirection, l4ACLRulesFromProgramForDirection, bind_eq_ok,
    checkProjection_eq_ok, appendL4ACLRulesFromProgram_eq_ok] at projected
  obtain ⟨_, ⟨supported, projects⟩, rfl, enforcing⟩ := projected
  refine ⟨fun none => by simp [none, hasEnforcingTCXRule] at enforcing, ?_⟩
  exact forall_of_foldlM_append WellFormed.setLog (wellFormed_programCandidates supported)
    (by simp) projects

/-- On an address-based program with exactly keyed rules, a packet without entry has no key
in the trie. -/
theorem TcxProgram.lookupVerdict_of_unmatched
    (is : TcxProgram host program direction localIP entries rules)
    (keyed : ∀ rule ∈ program.rules, rule.direction = direction → RuleExactlyKeyed host rule)
    (carries : d.Carries direction localIP packet)
    (unmatched : (evaluate host entries packet).matched = none) :
    lookupVerdict .v4 host (trieOf .v4 host rules)
      (l4PacketOf localIP (d.peerIP direction) packet) = tcxPass := by
  have notExempt : alwaysAllowed packet = false := by
    rcases carries.transport with h | h | h <;>
      simp [alwaysAllowed, isIPv4FragmentationNeeded, isIPv6PacketTooBig, isIPv6NeighborDiscovery, h]
  have none : selectEntry host entries packet = none := by
    cases selected : selectEntry host entries packet with
    | none => rfl
    | some best => simp [evaluate, notExempt, selected] at unmatched
  have meets := (is.selected carries.goes carries.remote).1.mp none
  have kept := is.keptExactly keyed
  rcases lookupVerdict_projected is.wellFormed_candidates kept.alike kept.exact is.projected
      (l4PacketOf localIP (d.peerIP direction) packet) with
    ⟨missed, _⟩ | ⟨x, inSeen, admits, _⟩
  · exact missed
  · obtain ⟨rule, inRules, same, inCandidates⟩ := mem_programCandidates.mp inSeen
    exact absurd ((is.meets_iff carries.goes carries.remote inRules).mpr
      ⟨same, x, inCandidates, admits⟩) (meets rule inRules)

/-- The entry the lookup selects is there and drops. -/
def DropEntry (host : Endian) (aclMap : L4ACLMap .v4) (packet : L4Packet .v4) : Prop :=
  ∃ node v, selectNode host aclMap packet = some node ∧ aclMap.lookup node = some v ∧
    v.action = tcxDrop

/-- Projected rules pass or drop, so the verdict is one of the two. -/
private theorem lookupVerdict_fill (host : Endian) (wf : ∀ x ∈ rules, WellFormed .v4 x) (key : L4Packet .v4) :
    let aclMap := trieOf .v4 host rules
    (DropEntry host aclMap key → lookupVerdict .v4 host aclMap key = tcxDrop) ∧
      (¬ DropEntry host aclMap key → lookupVerdict .v4 host aclMap key = tcxPass) := by
  intro aclMap
  cases selected : selectNode host aclMap key with
  | none =>
    refine ⟨?_, fun _ => lookupVerdict_of_selectNode selected⟩
    rintro ⟨node, _, found, _⟩
    simp [selected] at found
  | some node =>
    obtain ⟨v, found, verdict⟩ := lookup_of_selectNode selected
    constructor
    · rintro ⟨node', v', selected', found', drops⟩
      obtain rfl := Option.some.inj (selected.symm.trans selected')
      obtain rfl := Option.some.inj (found.symm.trans found')
      rw [verdict, drops]
    · intro none
      obtain ⟨x, member, _, rfl⟩ := Lpm.exists_of_lookup_fill found
      rcases (wf x member).action with passes | drops
      · exact verdict.trans passes
      · exact absurd ⟨node, x.value, selected, found, drops⟩ none

/-- The TCX program on the projection of a compiled program drops a datagram of the
endpoint if the lookup selects an entry that drops, and passes it otherwise. If the rules
of the direction are address-based and exactly keyed, a packet for which the evaluator
selects no entry has none in the trie either, and is passed. -/
theorem tcx_passes_unmatched {ctx : CompileContext} {clock : Time} {endpoint : Endpoint}
    {groups : SecurityGroups}
    (compiled : Policy.compileForEndpointWithContext endpoint groups ctx clock = .ok program)
    (endpointIP : program.endpointIP = .v4 localIP)
    (projected : ipv4L4ACLRulesFromProgramForDirection program direction = .ok rules)
    (encoded : encodeProgram host program = .ok entries)
    (offset : ipv4PeerOffset direction = .ok peerOffset) :
    ∃ aclMap, newL4ACLMapFromRules .v4 host rules = .ok aclMap ∧
      ∀ d packet, Datagram.Carries d direction localIP packet →
        (DropEntry host aclMap (l4PacketOf localIP (d.peerIP direction) packet) →
          TcxReturns host aclMap peerOffset d.frame tcxDrop) ∧
        (¬ DropEntry host aclMap (l4PacketOf localIP (d.peerIP direction) packet) →
          TcxReturns host aclMap peerOffset d.frame tcxPass) ∧
        ((∀ rule ∈ program.rules, rule.direction = direction →
            AddressRule rule ∧ RuleExactlyKeyed host rule) →
          (evaluate host entries packet).matched = none →
            TcxReturns host aclMap peerOffset d.frame tcxPass) := by
  have wf := wellFormed_of_projection projected
  refine ⟨_, newL4ACLMapFromRules_eq wf.1 wf.2, ?_⟩
  intro d packet carries
  have returns := tcxReturns_lookupVerdict host
    (trieOf .v4 host rules) offset carries
  obtain ⟨drops, passes⟩ := lookupVerdict_fill host wf.2
    (l4PacketOf localIP (d.peerIP direction) packet)
  refine ⟨fun entry => ?_, fun none => ?_, fun keyed unmatched => ?_⟩
  · exact drops entry ▸ returns
  · exact passes none ▸ returns
  · have is := tcxProgram_of_compile compiled endpointIP
      (fun rule member same => (keyed rule member same).1) projected encoded
    rw [is.lookupVerdict_of_unmatched (fun rule member same => (keyed rule member same).2) carries
      unmatched] at returns
    exact returns

end Verdicts

/-! ### The web server without an entry -/

/-- Https from an address to the web server. -/
def webDatagram (source : BitVec 32) : Datagram where
  hardware := List.replicate 12 0
  service := [0, 0, 40, 0, 1]
  flags := 2
  timeToLive := 64
  protocol := 6
  checksum := [0, 0]
  source
  destination := 0x0a000102
  options := []
  first := 40000
  second := 443
  payload := []
  hardware_length := rfl
  service_length := rfl
  checksum_length := rfl
  options_length := by decide

theorem carries_webDatagram (source : BitVec 32) :
    (webDatagram source).Carries .ingress 0x0a000102 (webPacket source) :=
  ⟨rfl, rfl, rfl, rfl, .inl rfl, rfl⟩

/-- The decision of the evaluator and the code the TCX program returns. -/
def webCodes (remoteCIDR : Prefix) (source : BitVec 32) :
    Except String (Decision × Option (BitVec 64)) := do
  let program ← Policy.compileForEndpointWithContext webServer (webGroups remoteCIDR) {} 0
  let entries ← encodeProgram .little program
  let rules ← ipv4L4ACLRulesFromProgramForDirection program .ingress
  let aclMap ← newL4ACLMapFromRules .v4 .little rules
  let peerOffset ← ipv4PeerOffset .ingress
  let instructions := ipv4L4ACLTCXInstructions 3 peerOffset
  pure (evaluate .little entries (webPacket source),
    (exec (tcxEnv .little aclMap 3 (webDatagram source).frame) instructions 64 instructions
      (entry (trieMemory .little aclMap))).map Prod.fst)

set_option maxRecDepth 10000 in
/-- The only rule drops https from 10.0.0.65, and the group does not turn default deny off.
A packet from 10.0.0.66 has no entry. The evaluator drops it, the TCX program passes it. -/
theorem webCodes_unmatched : webCodes (.v4 ⟨0x0a000041, 32, by decide⟩) 0x0a000042 =
    .ok ({ verdict := .drop, matched := none }, some 0) ∧
    Policy.defaultDenyDisabledForDirection
      (Policy.attachedGroups webServer (webGroups (.v4 ⟨0x0a000041, 32, by decide⟩))) .ingress =
        false := by
  constructor
  · decide +kernel
  · decide +kernel

/-- The packet of the entry is dropped, all others are passed, also those without an entry. -/
theorem tcx_drops_web : ∃ program entries rules aclMap,
    Policy.compileForEndpointWithContext webServer
      (webGroups (.v4 ⟨0x0a000041, 32, by decide⟩)) {} 0 = .ok program ∧
    encodeProgram .little program = .ok entries ∧
    ipv4L4ACLRulesFromProgramForDirection program .ingress = .ok rules ∧
    newL4ACLMapFromRules .v4 .little rules = .ok aclMap ∧
    ∀ source, (DropEntry .little aclMap (l4PacketOf 0x0a000102 source (webPacket source)) →
        TcxReturns .little aclMap 26 (webDatagram source).frame tcxDrop) ∧
      (¬ DropEntry .little aclMap (l4PacketOf 0x0a000102 source (webPacket source)) →
        TcxReturns .little aclMap 26 (webDatagram source).frame tcxPass) ∧
      ((evaluate .little entries (webPacket source)).matched = none →
        TcxReturns .little aclMap 26 (webDatagram source).frame tcxPass) := by
  have runs : (webCodes (.v4 ⟨0x0a000041, 32, by decide⟩) 0x0a000041).map Prod.snd =
      .ok (some 2) := by
    decide +kernel
  obtain ⟨_, runs, _⟩ := (map_eq_ok _ _ _).mp runs
  simp only [webCodes, bind_eq_ok] at runs
  obtain ⟨program, compiled, entries, encoded, rules, projected, _⟩ := runs
  have endpointIP := (compiledOf_compileForEndpointWithContext compiled).2.1
  have offset : ipv4PeerOffset .ingress = .ok 26 := rfl
  obtain ⟨aclMap, filled, verdicts⟩ :=
    tcx_passes_unmatched compiled endpointIP projected encoded offset
  refine ⟨program, entries, rules, aclMap, compiled, encoded, projected, filled, fun source => ?_⟩
  obtain ⟨drops, passes, unmatched⟩ := verdicts _ _ (carries_webDatagram source)
  exact ⟨drops, passes, unmatched fun rule member _ => keyed_web compiled rule member⟩

/-! ### One frame after the other -/

section Frames

variable (host : Endian) (aclMap : L4ACLMap .v4)

/-- The program runs on frames in turn, each time on the memory the last run left. -/
inductive TcxRun (aclMapFD : Int) (peerOffset : Nat) :
    (Region (Cidr (keyWidth .v4)) → Int → Byte) → List (List Byte × BitVec 32) →
    (Region (Cidr (keyWidth .v4)) → Int → Byte) → Prop
  | done (memory) : TcxRun aclMapFD peerOffset memory [] memory
  | frame {memory frame code final rest last} :
    Returns (tcxEnv host aclMap aclMapFD frame) (ipv4L4ACLTCXInstructions aclMapFD peerOffset)
      (ipv4L4ACLTCXInstructions aclMapFD peerOffset) (entry memory) code final →
    TcxRun aclMapFD peerOffset final.memory rest last →
    TcxRun aclMapFD peerOffset memory ((frame, code.setWidth 32) :: rest) last

/-- The counters that the trie was filled with. -/
def filledCounters : Counters .v4 := fun node =>
  (aclMap.lookup node).elim (0, 0) fun v => (v.packets, v.bytes)

theorem holds_trieMemory :
    Holds host aclMap (filledCounters aclMap) (entry (trieMemory host aclMap)) := by
  intro node v found
  have length : (v.layout host).length = 32 := by simp [L4ACLValue.layout]
  simp only [filledCounters, found, Option.elim_some]
  apply List.ext_getElem
  · simp [State.load, length]
  · intro i _ inside
    have inside : i < (v.layout host).length := inside
    simp [State.load, entry, trieMemory, found, inside]

/-- On the trie as it was filled, whatever frames come and in whatever order, every run returns
the verdict of the lookup for its own frame, and the counters of an entry in memory end as the
frames that selected it and their lengths. -/
theorem tcx_runs_on_frames (aclMapFD : Int) (peerOffset : Nat) (frames : List (List Byte)) :
    ∃ last, TcxRun host aclMap aclMapFD peerOffset (trieMemory host aclMap)
        (frames.map fun frame => (frame, BitVec.ofInt 32
          ((ipv4L4Packet peerOffset frame).elim tcxPass (lookupVerdict .v4 host aclMap)))) last ∧
      Holds host aclMap (frames.foldl (fun counters frame => counters.count
        ((ipv4L4Packet peerOffset frame).bind (selectNode host aclMap)) frame.length)
        (filledCounters aclMap)) (entry last) := by
  have holds := holds_trieMemory host aclMap
  generalize trieMemory host aclMap = memory, filledCounters aclMap = counters at holds ⊢
  -- the invariant is that memory holds the trie with the counters so far
  induction frames generalizing memory counters with
  | nil => exact ⟨memory, .done memory, holds⟩
  | cons frame rest ih =>
    obtain ⟨code, final, returns, verdict, counted⟩ :=
      wp_ipv4L4ACLTCXInstructions aclMapFD frame peerOffset holds
    obtain ⟨last, runs, holds⟩ := ih final.memory _ (counted.of_elements fun _ _ => rfl)
    exact ⟨last, by rw [List.map_cons, ← verdict]; exact .frame returns runs, holds⟩

end Frames

end Netloom.Dataplane
