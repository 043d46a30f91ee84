import Netloom.Dataplane.TcxAttach
import Netloom.Dataplane.TcxMisses

/-!
# Endpoints on one TCX interface

A program stands on the address of its endpoint, but its rules of the other
family stand on the primary address of the interface.
-/
namespace Netloom.Dataplane

open Netip (Addr Prefix prefixFrom)
open Model List Checked AList
open Policy (Rule Program PortBlock)

/-! ### Leaving a program out -/

/-- The endpoint of the program has the address with these bytes. -/
def StandsOn (family : Family) (program : Program) (word : BitVec family.width) : Prop :=
  family.has program.endpointIP = true ∧ family.word program.endpointIP = word

/-- The two attachments differ for packets of the program's endpoint only. -/
def Isolated (host : Endian) (program : Program) (whole rest : TCXAttachment) : Prop :=
  ∀ (family : Family) (packet : L4Packet family), ¬ StandsOn family program packet.localIP →
    whole.verdict host packet = rest.verdict host packet

/-- In the family, the projection refuses no rule of the program, and no rule it is projected to
stands on the unspecified address, from where it is moved. -/
structure Contained (family : Family) (direction : Direction) (program : Program) : Prop where
  projects : ∃ rules, appendL4ACLRulesFromProgram family direction [] program = .ok rules
  placed : ∀ x ∈ programCandidates family direction program, localWord family x ≠ 0

section Isolation

variable {family : Family} {host : Endian} {direction : Direction} {program : Program}
  {before after : List Program} {primary : (family : Family) → Option (BitVec family.width)}
  {x : L4ACLRule}

/-- The loop over the programs of the interface. -/
private abbrev projectAll (family : Family) (direction : Direction) (programs : List Program) :
    Except String (List L4ACLRule) :=
  programs.foldlM (appendL4ACLRulesFromProgram family direction) []

theorem localWord_of_mem_programCandidates
    (member : x ∈ programCandidates family direction program) :
    localWord family x = if family.has program.endpointIP then family.word program.endpointIP
      else 0 := by
  obtain ⟨rule, _, _, member⟩ := mem_programCandidates.mp member
  obtain ⟨protocol, action, sourceCIDR, _, block, _, rfl⟩ := mem_candidates.mp member
  rw [localWord, projectedRule, Family.word_addr, (programCIDR_eq family program).2.2]
  split
  · rfl
  · cases family <;> rfl

/-- A program without candidates adds nothing. -/
private theorem projectAll_without (contained : Contained family direction program)
    (none : programCandidates family direction program = []) (out : List L4ACLRule) :
    projectAll family direction (before ++ program :: after) = .ok out ↔
      projectAll family direction (before ++ after) = .ok out := by
  obtain ⟨_, projects⟩ := contained.projects
  have supported := ((appendL4ACLRulesFromProgram_eq_ok ..).mp projects).1
  rw [foldlM_programs_eq_ok, foldlM_programs_eq_ok]
  simp only [flatMap_append, flatMap_cons, none, nil_append, forall_mem_append, forall_mem_cons,
    eq_true supported, true_and]

/-- The rules of a contained program stand on the address of its endpoint. -/
private theorem stands_of_contained (contained : Contained family direction program)
    (member : x ∈ programCandidates family direction program) :
    StandsOn family program (localWord family x) := by
  have placed := contained.placed x member
  rw [localWord_of_mem_programCandidates member] at placed ⊢
  split at placed
  · next has => exact ⟨has, (if_pos has).symm⟩
  · exact absurd rfl placed

/-- A set of addresses with all rules of one program and no other rule takes the candidates
apart. -/
private theorem onKept_candidates (before after : List Program) (keep : BitVec family.width → Bool)
    (own : ∀ x ∈ programCandidates family direction program, keep (localWord family x))
    (others : ∀ p ∈ before ++ after, ∀ x ∈ programCandidates family direction p,
      keep (localWord family x) = false) :
    onKept keep ((before ++ program :: after).flatMap (programCandidates family direction)) =
      programCandidates family direction program ∧
    onKept (fun v => !keep v)
        ((before ++ program :: after).flatMap (programCandidates family direction)) =
      (before ++ after).flatMap (programCandidates family direction) := by
  have others := forall_mem_flatMap.mpr others
  simp only [flatMap_append, forall_mem_append] at others
  obtain ⟨earlier, later⟩ := others
  simp only [flatMap_append, flatMap_cons, onKept, filter_append]
  constructor
  · rw [filter_eq_nil_iff.mpr fun x member => by simp [earlier x member],
      filter_eq_self.mpr own,
      filter_eq_nil_iff.mpr fun x member => by simp [later x member], nil_append,
      append_nil]
  · rw [filter_eq_self.mpr fun x member => by simp [earlier x member],
      filter_eq_nil_iff.mpr fun x member => by simp [own x member],
      filter_eq_self.mpr fun x member => by simp [later x member], nil_append]

/-- The loop succeeds with the program exactly if it does without it, and the two lists agree
off the endpoint's address. -/
private theorem projectAll_apart {word : BitVec family.width} (stands : StandsOn family program word)
    (specified : word ≠ 0) (contained : Contained family direction program)
    (distinct : ∀ other ∈ before ++ after, ¬ StandsOn family other word) (kept : List L4ACLRule) :
    projectAll family direction (before ++ after) = .ok kept ↔
      ∃ out, projectAll family direction (before ++ program :: after) = .ok out ∧
        onKept (fun v => !decide (v = word)) out = kept := by
  obtain ⟨_, projects⟩ := contained.projects
  obtain ⟨supported, alone⟩ := (appendL4ACLRulesFromProgram_eq_ok ..).mp projects
  obtain ⟨has, rfl⟩ := stands
  obtain ⟨own, keeps⟩ := onKept_candidates before after
    (fun v => decide (v = family.word program.endpointIP))
    (fun x (member : x ∈ programCandidates family direction program) => by
      simp [localWord_of_mem_programCandidates member, has])
    (fun other inOthers x member => by
      rw [localWord_of_mem_programCandidates member, decide_eq_false_iff_not]
      split
      · next has => exact fun same => distinct other inOthers ⟨has, same⟩
      · exact specified.symm)
  have empty : ∀ x ∈ ([] : List L4ACLRule), WellFormed family x := by simp
  constructor
  · intro returned
    obtain ⟨others, looped⟩ := (foldlM_programs_eq_ok ..).mp returned
    have all : ∀ p ∈ before ++ program :: after, ∀ rule ∈ p.rules, rule.direction = direction →
        Supported family rule := by
      simp only [forall_mem_append, forall_mem_cons] at others ⊢
      exact ⟨others.1, supported, others.2⟩
    have wf := wellFormed_of_supported all
    rw [← keeps] at looped
    rw [← own] at alone
    obtain ⟨out, whole⟩ := foldlM_of_onKept _ wf empty alone looped
    exact ⟨out, (foldlM_programs_eq_ok ..).mpr ⟨all, whole⟩,
      Except.ok.inj ((foldlM_onKept _ wf empty whole).symm.trans looped)⟩
  · rintro ⟨out, returned, rfl⟩
    obtain ⟨all, looped⟩ := (foldlM_programs_eq_ok ..).mp returned
    refine (foldlM_programs_eq_ok ..).mpr
      ⟨?_, keeps ▸ foldlM_onKept _ (wellFormed_of_supported all) empty looped⟩
    simp only [forall_mem_append, forall_mem_cons] at all ⊢
    exact ⟨all.1, all.2.2⟩

section Compared

variable {whole rest : TCXAttachment}
  (attached : attachTCXL4ProgramsForDirection host primary (before ++ program :: after) direction =
    .ok whole)
  (without : attachTCXL4ProgramsForDirection host primary (before ++ after) direction = .ok rest)
include attached without

/-- Two loops that succeed together, with lists of one verdict. -/
private theorem verdict_congr {packet : L4Packet family}
    (back : ∀ kept, projectAll family direction (before ++ after) = .ok kept →
      ∃ out, projectAll family direction (before ++ program :: after) = .ok out)
    (forth : ∀ out, projectAll family direction (before ++ program :: after) = .ok out →
      ∃ kept, projectAll family direction (before ++ after) = .ok kept ∧
        rulesVerdict (primary family) host out packet =
          rulesVerdict (primary family) host kept packet) :
    whole.verdict host packet = rest.verdict host packet := by
  rw [verdict_of_attach attached, verdict_of_attach without]
  unfold projectAll at back forth
  cases all : (before ++ program :: after).foldlM (appendL4ACLRulesFromProgram family direction) [] with
  | ok out =>
    obtain ⟨kept, others, same⟩ := forth out all
    rw [others]
    exact same
  | error message =>
    grind

/-- Where the program is contained, leaving it out changes nothing for the other addresses. -/
private theorem verdict_of_contained (contained : Contained family direction program)
    (distinct : ∀ other ∈ before ++ after, ∀ word, StandsOn family program word →
      ¬ StandsOn family other word)
    {packet : L4Packet family} (off : ¬ StandsOn family program packet.localIP) :
    whole.verdict host packet = rest.verdict host packet := by
  cases candidates : programCandidates family direction program with
  | nil =>
    have same : ∀ out, _ ↔ projectAll family direction (before ++ after) = .ok out :=
      projectAll_without contained candidates
    exact verdict_congr attached without (fun kept others => ⟨kept, (same kept).mpr others⟩)
      fun out all => ⟨out, (same out).mp all, rfl⟩
  | cons first more =>
    have member : first ∈ programCandidates family direction program := by simp [candidates]
    have specified := contained.placed first member
    have stands := stands_of_contained contained member
    generalize localWord family first = word at specified stands
    have same := projectAll_apart stands specified contained fun other inOthers =>
      distinct other inOthers _ stands
    refine verdict_congr attached without (fun kept others => ?_) fun out all => ?_
    · obtain ⟨out, returned, _⟩ := (same kept).mp others
      exact ⟨out, returned⟩
    · have others := (same _).mpr ⟨out, all, rfl⟩
      refine ⟨_, others, rulesVerdict_congr (primary family)
        (fun v => !decide (v = word)) (wellFormed_of_foldlM all)
        (wellFormed_of_foldlM others) (by simp [onKept]) fun x _ moved => ?_⟩
      simp only [Bool.not_eq_true', decide_eq_false_iff_not]
      intro own
      -- A rule on the endpoint's address is not moved.
      rw [if_neg (own ▸ specified)] at moved
      exact off (moved ▸ own ▸ stands)

end Compared

end Isolation

/-- The interface has the primary addresses 10.0.1.1 and fd00::1. -/
def webPrimary : (family : Family) → Option (BitVec family.width)
  | .v4 => some 0x0a000101#32
  | .v6 => some 0xfd000000000000000000000000000001#128

/-- A second server next to the first, behind the same interface. -/
def webSpare : Endpoint := { webServer with id := "spare", ip := .v4 0x0a000103 }

/-- Both programs, and the tries with and without that of the first server. -/
def webAttachments (remoteCIDR : Prefix) :
    Except String ((Program × Program) × TCXAttachment × TCXAttachment) := do
  let server ← Policy.compileForEndpointWithContext webServer (webGroups remoteCIDR) {} 0
  let spare ← Policy.compileForEndpointWithContext webSpare
    (webGroups (Netip.prefixFrom (.v4 0x0a000041) 32)) {} 0
  let whole ← attachTCXL4ProgramsForDirection .little webPrimary [server, spare] .ingress
  let rest ← attachTCXL4ProgramsForDirection .little webPrimary [spare] .ingress
  pure ((server, spare), whole, rest)

/-- An https packet over IPv6 to the interface itself. -/
def webPacket6 : L4Packet .v6 where
  localIP := 0xfd000000000000000000000000000001#128
  protocol := 6
  peerIP := 0xfd000000000000000000000000000002#128
  field := 443

/-- The rules that the first server's program is projected to, and whether they are all placed. -/
private def webPlaced (family : Family) (server : Program) : Except String Bool := do
  let _ ← appendL4ACLRulesFromProgram family .ingress [] server
  pure ((programCandidates family .ingress server).all fun x => localWord family x ≠ 0)

private theorem webAttachments_v4 :
    (do
      let ((server, spare), _) ← webAttachments (.v4 ⟨0x0a000041, 32, by decide⟩)
      let placed4 ← webPlaced .v4 server
      let placed6 ← webPlaced .v6 server
      pure (server.endpointIP, spare.endpointIP, placed4, placed6)) =
      (.ok (.v4 0x0a000102, .v4 0x0a000103, true, true) : Except String _) := by
  decide +kernel

private theorem contained_of_webPlaced {family : Family} {server : Program}
    (placed : webPlaced family server = .ok true) : Contained family .ingress server := by
  simp only [webPlaced, bind_eq_ok, pure_eq_ok] at placed
  obtain ⟨rules, projects, placed⟩ := placed
  exact ⟨⟨rules, projects⟩, by simpa using placed⟩

end Netloom.Dataplane
