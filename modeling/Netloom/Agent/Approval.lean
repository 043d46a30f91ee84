import Netloom.Lib.PrefixCode
import Netloom.Model.Routing

/-!
# Approvals of policy rollouts

An approver signs the reference of a change and the endpoints it is for. The signed text has
the reference on one line and the sorted keys of the endpoints on the next, joined by commas.
Nothing keeps references and keys from containing commas and line breaks, so one text can be
read as several approvals.
-/
namespace Netloom.Agent

open Model List Checked Strings

/-! ### Signatures -/

/-- The digest of a message under a secret. -/
abbrev Hmac := String → String → List (BitVec 8)

def policyRolloutApprovalPayload (approvalRef : String) (endpointIDs : List String) : String :=
  "netloom-policy-rollout-approval-v1\napproval_ref=" ++ approvalRef ++ "\nendpoints=" ++
    ",".intercalate (sortStrings endpointIDs)

/-- `strings.TrimPrefix`. -/
def trimPrefix (s start : String) : String :=
  if start.toList.isPrefixOf s.toList then String.ofList (s.toList.drop start.toList.length) else s

variable (hmac : Hmac) (secret : String)

def policyRolloutApprovalSignature (approvalRef : String) (endpointIDs : List String) : String :=
  "sha256=" ++ hexBytes (hmac secret (policyRolloutApprovalPayload approvalRef endpointIDs))

def verifyPolicyRolloutApprovalSignature (signature approvalRef : String)
    (endpointIDs : List String) : Except String Bool :=
  if trimSpace secret = "" then pure false
  else do
    let signature := trimSpace signature
    require (signature ≠ "")
      "policy rollout approval signature is required when approval secret is configured"
    let expected := policyRolloutApprovalSignature hmac secret approvalRef endpointIDs
    require (trimPrefix signature "sha256=" = trimPrefix expected "sha256=")
      "policy rollout approval signature is invalid"
    pure true

/-- The signature is there and right. -/
def Verifies (signature approvalRef : String) (endpointIDs : List String) : Prop :=
  verifyPolicyRolloutApprovalSignature hmac secret signature approvalRef endpointIDs = .ok true

/-- Bytes are read back from their digits. -/
theorem hexBytes_injective : Function.Injective hexBytes := by
  have two : ∀ byte : BitVec 8, (hexPadded 2 byte.toNat).length = 2 :=
    fun byte => length_hexPadded (by omega) byte.isLt
  have code : PrefixCode.Instantaneous (fun byte : BitVec 8 => hexPadded 2 byte.toNat)
      fun _ => True := by
    intro a b _ _ rest rest' equal
    have digits := (append_inj equal ((two a).trans (two b).symm)).1
    exact BitVec.eq_of_toNat_eq (hexPadded_inj digits)
  intro left right equal
  refine code.injective (fun byte empty => ?_) (by simp) (by simp) (String.ofList_injective equal)
  simpa [empty] using two byte

theorem trimPrefix_append (start rest : String) : trimPrefix (start ++ rest) start = rest := by
  simp [trimPrefix]

theorem trimSpace_signature (bytes : List (BitVec 8)) :
    trimSpace ("sha256=" ++ hexBytes bytes) = "sha256=" ++ hexBytes bytes := by
  apply trimSpace_eq_self
  · intro c first
    obtain rfl : 's' = c := by simpa using first
    decide
  · intro c last
    have member := mem_of_mem_getLast? last
    simp only [String.toList_append, hexBytes, String.toList_ofList, mem_append, mem_flatMap] at member
    rcases member with word | ⟨byte, _, digit⟩
    · have visible : ("sha256=".toList.all fun c => !isSpace c) := by decide
      simpa using all_eq_true.mp visible c word
    · exact forall_hexPadded (P := fun c => isSpace c = false) (by decide) c digit

section Verified

variable {hmac secret} (collisionFree : Function.Injective (hmac secret))
  (configured : trimSpace secret ≠ "")
include collisionFree configured

/-- Some signature verifies for both approvals exactly if they have one text. -/
theorem exists_verifies_iff (approvalRef approvalRef' : String) (ids ids' : List String) :
    (∃ signature, Verifies hmac secret signature approvalRef ids ∧
      Verifies hmac secret signature approvalRef' ids') ↔
    policyRolloutApprovalPayload approvalRef ids = policyRolloutApprovalPayload approvalRef' ids' := by
  have verifies : ∀ signature approvalRef ids, Verifies hmac secret signature approvalRef ids ↔
      trimSpace signature ≠ "" ∧ trimPrefix (trimSpace signature) "sha256=" =
        hexBytes (hmac secret (policyRolloutApprovalPayload approvalRef ids)) := by
    intro signature approvalRef ids
    rw [Verifies, verifyPolicyRolloutApprovalSignature, if_neg configured]
    simp [policyRolloutApprovalSignature, trimPrefix_append]
  simp only [verifies]
  constructor
  · rintro ⟨signature, ⟨_, left⟩, _, right⟩
    exact collisionFree (hexBytes_injective (left.symm.trans right))
  · intro same
    refine ⟨policyRolloutApprovalSignature hmac secret approvalRef ids, ?_⟩
    simp [policyRolloutApprovalSignature, trimSpace_signature, trimPrefix_append, same]

end Verified

/-! ### Texts that are read in one way -/

/-- The text is the key of an endpoint that passes validation. -/
def AcceptedKey (key : String) : Prop :=
  ∃ endpoint : Endpoint, endpoint.validate = .ok () ∧ endpointKey endpoint.vpc endpoint.id = key

/-- Validation asks of the VPC and the identifier only that there are some. -/
theorem acceptedKey_iff {key : String} : AcceptedKey key ↔
    ∃ vpc id, vpc ≠ "" ∧ id ≠ "" ∧ key = vpc ++ "\x00" ++ id := by
  constructor
  · rintro ⟨endpoint, accepted, rfl⟩
    simp only [Endpoint.validate, bind_eq_ok, require_eq_ok, decide_eq_true_eq] at accepted
    obtain ⟨_, id, _, vpc, _⟩ := accepted
    exact ⟨endpoint.vpc, endpoint.id, vpc, id, rfl⟩
  · rintro ⟨vpc, id, named, identified, rfl⟩
    refine ⟨{ vpc, id, subnet := "apps", ip := .v4 1, node := "n1" }, ?_, rfl⟩
    simp only [Endpoint.validate, bind_eq_ok, require_eq_ok, decide_eq_true_eq]
    exact ⟨(), identified, (), named, (), by decide, (), rfl, (), rfl, (), rfl, (), by decide, (), rfl,
      (), rfl, rfl⟩

section Keys

variable {key : String}

theorem AcceptedKey.append (accepted : AcceptedKey key) (more : String) :
    AcceptedKey (key ++ more) := by
  obtain ⟨vpc, id, named, identified, rfl⟩ := acceptedKey_iff.mp accepted
  refine acceptedKey_iff.mpr ⟨vpc, id ++ more, named, by simp [identified], ?_⟩
  rw [String.append_assoc]

theorem AcceptedKey.ne_empty (accepted : AcceptedKey key) : key ≠ "" := by
  obtain ⟨vpc, id, named, _, rfl⟩ := acceptedKey_iff.mp accepted
  simp [named]

end Keys

/-- The keys of an approval as they are signed. -/
def listed (endpointIDs : List String) : String := ",".intercalate (sortStrings endpointIDs)

theorem le_append (s more : String) : s ≤ s ++ more := by
  rw [String.le_iff_toList_le, String.toList_append]
  cases more.toList with
  | nil => rw [append_nil]
  | cons c rest =>
    have lt : s.toList ++ [] < s.toList ++ c :: rest := List.Lex.append_left (· < ·) .nil s.toList
    exact (append_nil _ ▸ lt).le

/-- The first key starts a joined list. -/
theorem exists_intercalate_eq (first : String) (rest : List String) :
    ∃ more, ",".intercalate (first :: rest) = first ++ more := by
  cases rest with
  | nil => exact ⟨"", by simp⟩
  | cons next rest => exact ⟨_, by rw [String.intercalate_cons_cons, String.append_assoc]⟩

/-- Keys that are joined could be the key of one endpoint. -/
theorem acceptedKey_listed {ids : List String} (accepted : ∀ id ∈ ids, AcceptedKey id)
    (some : ids ≠ []) : AcceptedKey (listed ids) := by
  rw [listed]
  cases sorted : sortStrings ids with
  | nil => exact absurd ((sorted ▸ sortStrings_perm ids).nil_eq).symm some
  | cons first rest =>
    obtain ⟨more, joined⟩ := exists_intercalate_eq first rest
    rw [joined]
    exact (accepted first (mem_sortStrings.mp (sorted ▸ mem_cons_self))).append more

/-- The line of the endpoints starts elsewhere too, and what follows it there is empty or a key. -/
def CutsElsewhere (approvalRef rest : String) : Prop :=
  ∃ other rest', other ≠ approvalRef ∧ (rest' = "" ∨ AcceptedKey rest') ∧
    approvalRef ++ "\nendpoints=" ++ rest = other ++ "\nendpoints=" ++ rest'

/-- The key is also two keys in order, joined by a comma. -/
def FallsApart (key : String) : Prop :=
  ∃ first second, AcceptedKey first ∧ AcceptedKey second ∧ first ≤ second ∧
    key = first ++ "," ++ second

/-- An approval for one endpoint at most, whose text is read in no other way. -/
structure Unambiguous (approvalRef : String) (endpointIDs : List String) : Prop where
  short : endpointIDs.length ≤ 1
  line : ¬ CutsElsewhere approvalRef (endpointIDs.headD "")
  keys : ∀ id ∈ endpointIDs, ¬ FallsApart id

/-- Every approval with the same text is the same. -/
def ReadOnce (approvalRef : String) (ids : List String) : Prop :=
  ∀ approvalRef' ids', (∀ id ∈ ids', AcceptedKey id) →
    policyRolloutApprovalPayload approvalRef ids = policyRolloutApprovalPayload approvalRef' ids' →
    approvalRef = approvalRef' ∧ ids.Perm ids'

theorem payload_eq_iff {approvalRef approvalRef' : String} {ids ids' : List String} :
    policyRolloutApprovalPayload approvalRef ids = policyRolloutApprovalPayload approvalRef' ids' ↔
    approvalRef ++ "\nendpoints=" ++ listed ids =
      approvalRef' ++ "\nendpoints=" ++ listed ids' := by
  unfold policyRolloutApprovalPayload listed
  generalize "netloom-policy-rollout-approval-v1\napproval_ref=" = header
  simp [String.append_assoc]

variable {approvalRef : String} {ids : List String}

theorem listed_singleton (id : String) : listed [id] = id := by simp [listed, sortStrings]

theorem listed_of_short (short : ids.length ≤ 1) : listed ids = ids.headD "" := by
  match ids with
  | [] => rfl
  | [id] => exact listed_singleton id

theorem ReadOnce.unambiguous (accepted : ∀ id ∈ ids, AcceptedKey id)
    (once : ReadOnce approvalRef ids) : Unambiguous approvalRef ids := by
  have short : ids.length ≤ 1 := by
    by_contra long
    have some : ids ≠ [] := by
      rintro rfl
      simp at long
    -- The joined keys are taken for one.
    have perm := (once approvalRef [listed ids] (by simpa using acceptedKey_listed accepted some)
      (payload_eq_iff.mpr (by rw [listed_singleton]))).2
    exact long perm.length_eq.le
  refine ⟨short, ?_, ?_⟩
  · rintro ⟨other, rest', differ, shape, same⟩
    rw [← listed_of_short short] at same
    rcases shape with rfl | key
    · exact differ (once other [] (by simp) (payload_eq_iff.mpr same)).1.symm
    · refine differ (once other [rest'] (by simpa using key) (payload_eq_iff.mpr ?_)).1.symm
      rw [same, listed_singleton]
  · rintro id member ⟨first, second, firstKey, secondKey, le, rfl⟩
    obtain ⟨only, rfl⟩ := length_eq_one_iff.mp (short.antisymm (length_pos_of_mem member))
    obtain rfl := mem_singleton.mp member
    have pair : listed [first, second] = first ++ "," ++ second := by
      simp [listed, sortStrings, le]
    have perm := (once approvalRef [first, second] (by simp [firstKey, secondKey])
      (payload_eq_iff.mpr (by rw [pair, listed_singleton]))).2
    exact absurd perm.length_eq (by simp)

theorem Unambiguous.readOnce (accepted : ∀ id ∈ ids, AcceptedKey id)
    (unambiguous : Unambiguous approvalRef ids) : ReadOnce approvalRef ids := by
  intro approvalRef' ids' accepted' same
  rw [payload_eq_iff, listed_of_short unambiguous.short] at same
  have ref : approvalRef' = approvalRef := by
    by_contra differ
    refine unambiguous.line ⟨approvalRef', listed ids', differ, ?_, same⟩
    by_cases none : ids' = []
    · exact .inl (by rw [none]; rfl)
    · exact .inr (acceptedKey_listed accepted' none)
  subst ref
  refine ⟨rfl, ?_⟩
  have joined : listed ids' = ids.headD "" := ((String.append_right_inj _).mp same).symm
  have short := unambiguous.short
  match ids with
  | [] =>
    by_contra differ
    have some : ids' ≠ [] := fun none => differ (none ▸ .nil)
    exact (acceptedKey_listed accepted' some).ne_empty joined
  | [id] =>
    have perm := sortStrings_perm ids'
    rw [listed] at joined
    have keys : ∀ key ∈ sortStrings ids', AcceptedKey key := fun key member =>
      accepted' key (mem_sortStrings.mp member)
    have pairwise := sortStrings_pairwise ids'
    generalize sortStrings ids' = sorted at perm joined keys pairwise
    match sorted with
    | [] => exact absurd joined.symm (accepted id (by simp)).ne_empty
    | [key] =>
      obtain rfl : key = id := by simpa using joined
      exact perm
    | first :: second :: rest =>
      obtain ⟨more, tail⟩ := exists_intercalate_eq second rest
      rw [String.intercalate_cons_cons, tail] at joined
      refine absurd ⟨first, second ++ more, keys first (by simp),
        (keys second (by simp)).append more, ?_, joined.symm⟩ (unambiguous.keys id (by simp))
      exact ((pairwise_cons.mp pairwise).1 second (by simp)).trans (le_append second more)

/-! ### Binding -/

/-- A signature that verifies for the approval verifies for no other one. -/
def Binds (hmac : Hmac) (secret approvalRef : String) (endpointIDs : List String) : Prop :=
  ∀ signature approvalRef' endpointIDs', (∀ id ∈ endpointIDs', AcceptedKey id) →
    Verifies hmac secret signature approvalRef endpointIDs →
    Verifies hmac secret signature approvalRef' endpointIDs' →
    approvalRef = approvalRef' ∧ endpointIDs.Perm endpointIDs'

/-- Signatures bind an approval exactly if it is for one endpoint at most and its text is read
in no other way. -/
theorem approval_binds_iff {hmac : Hmac} {secret : String}
    (collisionFree : Function.Injective (hmac secret)) (configured : trimSpace secret ≠ "")
    (approvalRef : String) {endpointIDs : List String}
    (accepted : ∀ id ∈ endpointIDs, AcceptedKey id) :
    Binds hmac secret approvalRef endpointIDs ↔ Unambiguous approvalRef endpointIDs := by
  have texts : Binds hmac secret approvalRef endpointIDs ↔ ReadOnce approvalRef endpointIDs := by
    constructor
    · intro binds approvalRef' ids' accepted' same
      obtain ⟨signature, left, right⟩ :=
        (exists_verifies_iff collisionFree configured ..).mpr same
      exact binds signature approvalRef' ids' accepted' left right
    · intro once signature approvalRef' ids' accepted' left right
      exact once approvalRef' ids' accepted'
        ((exists_verifies_iff collisionFree configured ..).mp ⟨signature, left, right⟩)
  exact texts.trans ⟨ReadOnce.unambiguous accepted, Unambiguous.readOnce accepted⟩

/-! ### Two approvals with one signature -/

/-- In place of a digest, the message itself. -/
def plainHmac : Hmac := fun _ message => message.toByteArray.data.toList.map UInt8.toBitVec

theorem plainHmac_injective : Function.Injective (plainHmac secret) := by
  intro left right equal
  have bytes := map_injective_iff.mpr (fun _ _ => UInt8.toBitVec_inj.mp) equal
  exact String.toByteArray_inj.mp (ByteArray.ext (Array.toList_inj.mp bytes))

theorem approval_binds_web : Binds plainHmac "secret" "CHG-1" ["prod\x00web"] := by
  refine (approval_binds_iff (plainHmac_injective _) (by decide) _ ?_).mpr ⟨le_rfl, ?_, ?_⟩
  · simpa using acceptedKey_iff.mpr ⟨"prod", "web", by decide, by decide, rfl⟩
  · rintro ⟨other, rest, differ, _, same⟩
    have chars := congrArg String.toList same
    simp only [String.toList_append] at chars
    -- There is one line break, so both cuts are at it.
    have once : ("CHG-1".toList ++ "\nendpoints=".toList ++ "prod\x00web".toList).count '\n' = 1 := by
      decide
    have line : "\nendpoints=".toList.count '\n' = 1 := by decide
    rw [show ["prod\x00web"].headD "" = "prod\x00web" from rfl] at chars
    rw [chars, count_append, count_append, line] at once
    have free : '\n' ∉ other.toList := count_eq_zero.mp (by omega)
    rw [append_assoc, append_assoc] at chars
    have cut := Text.cut_injective (c := "CHG-1".toList) free (by decide) chars.symm
    exact differ (String.toList_injective cut.1)
  · rintro id member ⟨first, second, _, _, _, same⟩
    have comma : ',' ∈ id.toList := by simp [same]
    rw [mem_singleton.mp member] at comma
    exact absurd comma (by decide)

/-- An approval for two endpoints is one for a single endpoint whose name has a comma. -/
theorem approval_of_two_endpoints :
    (∀ id ∈ ["prod\x00a", "prod\x00b", "prod\x00a,prod\x00b"], AcceptedKey id) ∧
    ∃ signature, Verifies plainHmac "secret" signature "CHG-1" ["prod\x00a", "prod\x00b"] ∧
      Verifies plainHmac "secret" signature "CHG-1" ["prod\x00a,prod\x00b"] := by
  have keys : ∀ id ≠ "", AcceptedKey ("prod" ++ "\x00" ++ id) := fun id named =>
    acceptedKey_iff.mpr ⟨"prod", id, by decide, named, rfl⟩
  refine ⟨?_, ?_⟩
  · simpa using ⟨keys "a" (by decide), keys "b" (by decide), keys "a,prod\x00b" (by decide)⟩
  · exact (exists_verifies_iff (plainHmac_injective _) (by decide) ..).mpr (by decide +kernel)

end Netloom.Agent
