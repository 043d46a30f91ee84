import Mathlib
import Netloom.Lib.Fold
import Netloom.Lib.Runs
import Netloom.Policy.Types

/-!
# TCX attachments and their books

The reconciler records for every attachment point the handle that `attach`
returned for it. A synchronisation with the wanted targets reuses a handle whose
target reads as it did, attaches the others, closes the handles of targets no
longer wanted and records the outcome. Attaching and closing may fail at any
point.
-/
namespace Netloom.Agent

open List AList Fold
open Policy (Program Rule MapEntry)
open Model (Direction)

/-! ### Targets and how they print -/

/-- A compiled program in memory. The ICMP fields of its rules are pointers to bytes that
its own compilation allocated. -/
structure CompiledProgram where
  program : Program
  compilation : Nat
  deriving DecidableEq, Repr

/-- A rule as the format verb for Go syntax prints it inside a slice: a pointer prints as
its address. An address is told by the compilation that allocated it; which of the
pointers of one compilation it is follows from where it is printed. -/
structure RuleText where
  rule : Rule
  icmpType : Option Nat
  icmpCode : Option Nat
  deriving DecidableEq, Repr

def ruleText (compilation : Nat) (rule : Rule) : RuleText where
  rule := { rule with icmpType := none, icmpCode := none }
  icmpType := rule.icmpType.map fun _ => compilation
  icmpCode := rule.icmpCode.map fun _ => compilation

structure ProgramText where
  endpointID : String
  endpointIP : Netip.Addr
  mapEntries : List MapEntry
  rules : List RuleText
  deriving DecidableEq, Repr

def CompiledProgram.text (compiled : CompiledProgram) : ProgramText where
  endpointID := compiled.program.endpointID
  endpointIP := compiled.program.endpointIP
  mapEntries := compiled.program.mapEntries
  rules := compiled.program.rules.map (ruleText compiled.compilation)

inductive AttachType where
  | tcxIngress
  | tcxEgress
  deriving DecidableEq, Repr

/-- The number of the attach type, as the kernel has it. -/
def AttachType.number : AttachType → Nat
  | .tcxIngress => 46
  | .tcxEgress => 47

structure TcxTarget where
  ifName : String
  attach : AttachType
  policyDirection : Direction
  programs : List CompiledProgram
  deriving DecidableEq, Repr

def tcxTargetKey (target : TcxTarget) : String :=
  s!"{target.ifName}/{target.attach.number}/{target.policyDirection.text}"

def tcxTargetLabel (target : TcxTarget) : String :=
  s!"iface={target.ifName} direction={target.policyDirection.text} attach={target.attach.number}"

structure TargetSignature where
  key : String
  programs : List ProgramText
  deriving DecidableEq, Repr

def tcxTargetSignature (target : TcxTarget) : TargetSignature where
  key := tcxTargetKey target
  programs := target.programs.map CompiledProgram.text

/-! ### The books and the calls that change them -/

structure Handle where
  id : Nat
  signature : TargetSignature
  deriving DecidableEq, Repr

/-- Handles by the key of their target. -/
abbrev Books := AList fun _ : String => Handle

/-- A target under its key. -/
abbrev KeyedTarget := Sigma fun _ : String => TcxTarget

/-- The recorded attachments, and the handles that were returned by `attach` and not
successfully closed. The next handle has the number `fresh`. -/
structure Attachments where
  recorded : Books
  opened : Finset Nat
  fresh : Nat

def Attachments.new : Attachments := ⟨∅, ∅, 0⟩

/-- What fails during one call. A handle is closed at most once in a call, and a key is
attached at most once. -/
structure AttachFaults where
  attachError : String → Option String
  closeError : Nat → Option String
  metricsError : Option String

/-- The order in which a map is iterated over is not specified. -/
structure MapOrder where
  arrange : {α : Type} → List α → List α
  perm : ∀ {α : Type} (items : List α), (arrange items).Perm items

structure TcxUpdateStats where
  failed : Nat := 0
  rollbacks : Nat := 0
  target : String := ""
  lastError : String := ""
  attempted : Nat := 0
  reused : Nat := 0
  detached : Nat := 0
  deriving DecidableEq, Repr

/-- A close that fails leaves the handle open. -/
def closeHandle (faults : AttachFaults) (opened : Finset Nat) (handle : Handle) : Finset Nat :=
  if (faults.closeError handle.id).isSome then opened else opened.erase handle.id

def closeHandles (faults : AttachFaults) (handles : List Handle) (opened : Finset Nat) :
    Finset Nat :=
  handles.foldl (closeHandle faults) opened

def closeTCXAttachments (order : MapOrder) (faults : AttachFaults) (s : Attachments) :
    Attachments × Option String :=
  let visited := order.arrange s.recorded.entries
  ({ s with recorded := ∅, opened := closeHandles faults (visited.map Sigma.snd) s.opened },
    visited.findSome? fun entry =>
      (faults.closeError entry.2.id).map fun err => s!"close tcx attachment {entry.1}: {err}")

/-- The recorded handle that is kept for the target. -/
def reusable (recorded : Books) (key : String) (target : TcxTarget) : Option Handle :=
  (recorded.lookup key).filter fun old => old.signature = tcxTargetSignature target

/-- The variables of the loop that reuses or attaches. -/
structure AttachLoop where
  next : Books
  attached : List String
  opened : Finset Nat
  fresh : Nat
  stats : TcxUpdateStats

/-- The loop over the desired targets. It ends early with the target whose attachment
failed. -/
def attachTargets (recorded : Books) (faults : AttachFaults) :
    List KeyedTarget → AttachLoop → AttachLoop × Option (TcxTarget × String)
  | [], loop => (loop, none)
  | ⟨key, target⟩ :: rest, loop =>
    match reusable recorded key target with
    | some old => attachTargets recorded faults rest { loop with
        next := loop.next.insert key old
        stats := { loop.stats with reused := loop.stats.reused + 1 } }
    | none =>
      let stats := { loop.stats with attempted := loop.stats.attempted + 1 }
      match faults.attachError key with
      | some err => ({ loop with stats }, some (target, err))
      | none => attachTargets recorded faults rest {
          next := loop.next.insert key ⟨loop.fresh, tcxTargetSignature target⟩
          attached := loop.attached ++ [key]
          opened := insert loop.fresh loop.opened
          fresh := loop.fresh + 1
          stats }

def desiredTargets (targets : List TcxTarget) : AList fun _ : String => TcxTarget :=
  insertAll tcxTargetKey id targets

def syncTCXTargets (order : MapOrder) (faults : AttachFaults) (targets : List TcxTarget)
    (s : Attachments) : Attachments × TcxUpdateStats × Except String Unit :=
  if targets = [] then
    match closeTCXAttachments order faults s with
    | (s', some err) => (s', { failed := 1, target := "stale", lastError := err },
        .error s!"close stale tcx attachments: {err}")
    | (s', none) => (s', {}, .ok ())
  else
    match attachTargets s.recorded faults (order.arrange (desiredTargets targets).entries)
        ⟨∅, [], s.opened, s.fresh, {}⟩ with
    | (loop, some (target, err)) =>
      -- What this call attached is closed again, and the books stay as they were.
      let attached := loop.attached.reverse.filterMap loop.next.lookup
      ({ s with opened := closeHandles faults attached loop.opened, fresh := loop.fresh },
        { loop.stats with
          failed := 1, rollbacks := loop.attached.length, target := tcxTargetLabel target,
          lastError := err },
        .error s!"attach tcx target {tcxTargetLabel target}: {err}")
    | (loop, none) =>
      let stale := (order.arrange s.recorded.entries).filter fun entry =>
        (loop.next.lookup entry.1).isNone
      let opened := closeHandles faults (stale.map Sigma.snd) loop.opened
      let stats := { loop.stats with detached := stale.length }
      match stale.findSome? fun entry => (faults.closeError entry.2.id).map fun err =>
          s!"close stale tcx attachment {entry.1}: {err}" with
      | some err =>
        -- All of the new books is closed, reused handles too, and the old books stay.
        let next := (order.arrange loop.next.entries).map Sigma.snd
        ({ s with opened := closeHandles faults next opened, fresh := loop.fresh },
          { stats with
            failed := 1, rollbacks := loop.attached.length, target := "stale", lastError := err },
          .error err)
      | none =>
        let s' : Attachments := ⟨loop.next, opened, loop.fresh⟩
        match faults.metricsError with
        | some err => (s', { stats with failed := 1, target := "metrics", lastError := err },
            .error err)
        | none => (s', stats, .ok ())

/-! ### What the loops do -/

section Closing

variable {faults : AttachFaults} {opened : Finset Nat} {id : Nat}

theorem mem_closeHandle {handle : Handle} : id ∈ closeHandle faults opened handle ↔
    id ∈ opened ∧ (handle.id = id → faults.closeError id ≠ none) := by
  unfold closeHandle
  split
  · next failed =>
    refine (and_iff_left ?_).symm
    rintro rfl
    exact Option.isSome_iff_ne_none.mp failed
  · next closed =>
    rw [Finset.mem_erase, and_comm]
    refine and_congr_right fun _ => ⟨fun other same => absurd same.symm other, ?_⟩
    rintro kept rfl
    exact kept rfl (by simpa using closed)

theorem mem_closeHandles {handles : List Handle} : id ∈ closeHandles faults handles opened ↔
    id ∈ opened ∧ ((∃ handle ∈ handles, handle.id = id) → faults.closeError id ≠ none) := by
  unfold closeHandles
  induction handles generalizing opened with
  | nil => simp
  | cons handle rest ih =>
    rw [foldl_cons, ih, mem_closeHandle, and_assoc]
    simp only [mem_cons, exists_eq_or_imp, or_imp]

end Closing

theorem reusable_eq_some {recorded : Books} {key : String}
    {target : TcxTarget} {old : Handle} : reusable recorded key target = some old ↔
      recorded.lookup key = some old ∧ old.signature = tcxTargetSignature target := by
  simp [reusable]

/-- The targets no recorded handle is kept for. -/
def pending (recorded : Books) (targets : List KeyedTarget) : List KeyedTarget :=
  targets.filter fun entry => (reusable recorded entry.1 entry.2).isNone

variable {entry : KeyedTarget}

theorem mem_pending {recorded : Books} {targets : List KeyedTarget} :
    entry ∈ pending recorded targets ↔
      entry ∈ targets ∧ reusable recorded entry.1 entry.2 = none := by
  simp [pending]

/-- The handles in the books. -/
def handles (books : Books) : Set Nat :=
  { id | ∃ key handle, books.lookup key = some handle ∧ handle.id = id }

/-- What the new books hold under a key after the targets `done`: the handle that is reused,
or one that is numbered from `start` on by its place among the pending targets. -/
def InBooks (recorded : Books) (start : Nat) (done : List KeyedTarget) (key : String)
    (handle : Handle) : Prop :=
  ∃ target, ⟨key, target⟩ ∈ done ∧ reusable recorded key target = some handle ∨
    ∃ i, (pending recorded done)[i]? = some ⟨key, target⟩ ∧
      handle = ⟨start + i, tcxTargetSignature target⟩

/-- The invariant of the loop after the targets `done`. -/
structure Attached (recorded : Books) (start : Nat) (opened : Finset Nat)
    (done : List KeyedTarget) (loop : AttachLoop) : Prop where
  fresh : loop.fresh = start + (pending recorded done).length
  opened : ∀ id, id ∈ loop.opened ↔ id ∈ opened ∨ start ≤ id ∧ id < loop.fresh
  attached : loop.attached = (pending recorded done).map Sigma.fst
  books : ∀ key handle, loop.next.lookup key = some handle ↔ InBooks recorded start done key handle

section Steps

variable {recorded : Books} {start : Nat} {opened : Finset Nat}
  {done : List KeyedTarget} {loop : AttachLoop} {key : String} {handle : Handle}

theorem InBooks.reads (holds : InBooks recorded start done key handle) :
    ∃ target, ⟨key, target⟩ ∈ done ∧ handle.signature = tcxTargetSignature target := by
  rcases holds with ⟨target, ⟨listed, kept⟩ | ⟨i, place, rfl⟩⟩
  · exact ⟨target, listed, (reusable_eq_some.mp kept).2⟩
  · exact ⟨target, (mem_pending.mp (mem_of_getElem? place)).1, rfl⟩

theorem exists_inBooks (start : Nat) {target : TcxTarget} (listed : ⟨key, target⟩ ∈ done) :
    ∃ handle, InBooks recorded start done key handle ∧
      handle.signature = tcxTargetSignature target := by
  cases found : reusable recorded key target with
  | some old => exact ⟨old, ⟨target, .inl ⟨listed, found⟩⟩, (reusable_eq_some.mp found).2⟩
  | none =>
    obtain ⟨i, place⟩ := mem_iff_getElem?.mp (mem_pending.mpr ⟨listed, found⟩)
    exact ⟨_, ⟨target, .inr ⟨i, place, rfl⟩⟩, rfl⟩

variable (inv : Attached recorded start opened done loop)
include inv

/-- What is written under a key not visited yet hides none of the handles. -/
theorem Attached.books_insert (unvisited : entry.1 ∉ done.map Sigma.fst)
    (added : reusable recorded entry.1 entry.2 = some handle ∨
      reusable recorded entry.1 entry.2 = none ∧
        handle = ⟨start + (pending recorded done).length, tcxTargetSignature entry.2⟩)
    (key : String) (other : Handle) : (loop.next.insert entry.1 handle).lookup key = some other ↔
      InBooks recorded start (done ++ [entry]) key other := by
  have visited : InBooks recorded start done key other → key ≠ entry.1 := by
    rintro holds rfl
    obtain ⟨target, listed, _⟩ := holds.reads
    exact unvisited (mem_map.mpr ⟨_, listed, rfl⟩)
  rw [lookup_insert_eq_some, inv.books, and_iff_right_of_imp visited]
  obtain ⟨head, target⟩ := entry
  rcases added with found | ⟨missing, rfl⟩
  · have same : pending recorded (done ++ [⟨head, target⟩]) = pending recorded done := by
      simp [pending, found]
    simp only [InBooks, same, mem_append, mem_singleton, Sigma.mk.inj_iff, heq_eq_eq]
    grind
  · have one : pending recorded (done ++ [⟨head, target⟩]) =
        pending recorded done ++ [⟨head, target⟩] := by
      simp [pending, missing]
    have place : ∀ i other, (pending recorded done ++ [⟨head, target⟩])[i]? = some other ↔
        (pending recorded done)[i]? = some other ∨
          i = (pending recorded done).length ∧ ⟨head, target⟩ = other := by
      grind
    simp only [InBooks, one, place, mem_append, mem_singleton, Sigma.mk.inj_iff, heq_eq_eq]
    grind

variable (id : Nat)

theorem Attached.isNew_iff : start ≤ id ∧ id < loop.fresh ↔
    ∃ i entry, (pending recorded done)[i]? = some entry ∧ start + i = id := by
  rw [inv.fresh]
  constructor
  · rintro ⟨above, below⟩
    obtain ⟨i, rfl⟩ := Nat.exists_eq_add_of_le above
    exact ⟨i, _, getElem?_eq_getElem (Nat.lt_of_add_lt_add_left below), rfl⟩
  · rintro ⟨i, entry, place, rfl⟩
    obtain ⟨inside, -⟩ := List.getElem?_eq_some_iff.mp place
    omega

theorem Attached.held : id ∈ handles loop.next ↔ (start ≤ id ∧ id < loop.fresh) ∨
    ∃ entry ∈ done, ∃ old, reusable recorded entry.1 entry.2 = some old ∧ old.id = id := by
  simp only [handles, inv.books, inv.isNew_iff, Set.mem_ofPred_eq]
  constructor
  · rintro ⟨key, _, ⟨target, ⟨listed, kept⟩ | ⟨i, place, rfl⟩⟩, rfl⟩
    · exact .inr ⟨_, listed, _, kept, rfl⟩
    · exact .inl ⟨i, _, place, rfl⟩
  · rintro (⟨i, entry, place, rfl⟩ | ⟨entry, listed, old, kept, rfl⟩)
    · exact ⟨_, _, ⟨_, .inr ⟨i, place, rfl⟩⟩, rfl⟩
    · exact ⟨_, _, ⟨_, .inl ⟨listed, kept⟩⟩, rfl⟩

/-- The handles a failed call closes again are those it attached. -/
theorem Attached.mem_attached :
    (∃ handle ∈ loop.attached.reverse.filterMap loop.next.lookup, handle.id = id) ↔
      start ≤ id ∧ id < loop.fresh := by
  have held : ∀ i entry, (pending recorded done)[i]? = some entry →
      loop.next.lookup entry.1 = some ⟨start + i, tcxTargetSignature entry.2⟩ :=
    fun i entry place => (inv.books _ _).mpr ⟨entry.2, .inr ⟨i, place, rfl⟩⟩
  simp only [mem_filterMap, mem_reverse, inv.attached, inv.isNew_iff, mem_map]
  constructor
  · rintro ⟨handle, ⟨_, ⟨entry, waiting, rfl⟩, found⟩, rfl⟩
    obtain ⟨i, place⟩ := mem_iff_getElem?.mp waiting
    rw [held i entry place] at found
    cases found
    exact ⟨i, entry, place, rfl⟩
  · rintro ⟨i, entry, place, rfl⟩
    exact ⟨_, ⟨_, ⟨entry, mem_of_getElem? place, rfl⟩, held i entry place⟩, rfl⟩

end Steps

/-- The two ways the loop ends: all targets are in the new books, or a pending target
could not be attached and the new books cover the targets before it. -/
def LoopEnds (recorded : Books) (faults : AttachFaults) (start : Nat) (opened : Finset Nat)
    (done rest : List KeyedTarget) (result : AttachLoop × Option (TcxTarget × String)) : Prop :=
  (result.2 = none ∧ Attached recorded start opened (done ++ rest) result.1 ∧
    ∀ entry ∈ pending recorded rest, faults.attachError entry.1 = none) ∨
  ∃ visited entry later err, result.2 = some (entry.2, err) ∧ rest = visited ++ entry :: later ∧
    Attached recorded start opened (done ++ visited) result.1 ∧
    (∀ entry ∈ pending recorded visited, faults.attachError entry.1 = none) ∧
    reusable recorded entry.1 entry.2 = none ∧ faults.attachError entry.1 = some err

section Loop

variable {recorded : Books} {faults : AttachFaults} {start : Nat}
  {opened : Finset Nat} {done rest : List KeyedTarget} {loop : AttachLoop}

theorem LoopEnds.cons {result : AttachLoop × Option (TcxTarget × String)}
    (ends : LoopEnds recorded faults start opened (done ++ [entry]) rest result)
    (first : reusable recorded entry.1 entry.2 = none → faults.attachError entry.1 = none) :
    LoopEnds recorded faults start opened done (entry :: rest) result := by
  have both : ∀ more, (∀ entry ∈ pending recorded more, faults.attachError entry.1 = none) →
      ∀ other ∈ pending recorded (entry :: more), faults.attachError other.1 = none := by
    intro more attachable other inside
    obtain ⟨inside, missing⟩ := mem_pending.mp inside
    rcases mem_cons.mp inside with rfl | later
    · exact first missing
    · exact attachable other (mem_pending.mpr ⟨later, missing⟩)
  rcases ends with ⟨all, after, attachable⟩ |
    ⟨visited, failing, later, err, stopped, split, after, attachable, missing⟩
  · rw [← append_cons] at after
    exact .inl ⟨all, after, both rest attachable⟩
  · rw [← append_cons] at after
    exact .inr ⟨entry :: visited, failing, later, err, stopped, by rw [split, cons_append],
      after, both visited attachable, missing⟩

theorem loopEnds_attachTargets (nodup : ((done ++ rest).map Sigma.fst).Nodup)
    (inv : Attached recorded start opened done loop) :
    LoopEnds recorded faults start opened done rest (attachTargets recorded faults rest loop) := by
  induction rest generalizing done loop with
  | nil => exact .inl ⟨rfl, by simpa [attachTargets] using inv, by simp [pending]⟩
  | cons entry rest ih =>
    have unvisited : entry.1 ∉ done.map Sigma.fst := by
      rw [map_append, nodup_append] at nodup
      exact fun inside => nodup.2.2 _ inside _ (by simp) rfl
    rw [append_cons] at nodup
    rw [attachTargets]
    cases found : reusable recorded entry.1 entry.2 with
    | some old =>
      have same : pending recorded (done ++ [entry]) = pending recorded done := by
        simp [pending, found]
      refine (ih nodup ?_).cons fun missing => absurd (found.symm.trans missing) nofun
      exact ⟨same ▸ inv.fresh, inv.opened, same ▸ inv.attached,
        inv.books_insert unvisited (.inl found)⟩
    | none =>
      have one : pending recorded (done ++ [entry]) = pending recorded done ++ [entry] := by
        simp [pending, found]
      cases failed : faults.attachError entry.1 with
      | some err =>
        refine .inr ⟨[], entry, rest, err, rfl, rfl, ?_, by simp [pending], found, failed⟩
        rw [append_nil]
        exact ⟨inv.fresh, inv.opened, inv.attached, inv.books⟩
      | none =>
        refine (ih nodup ⟨?_, fun id => ?_, ?_, ?_⟩).cons fun _ => failed
        · simp [one, inv.fresh, Nat.add_assoc]
        · have grown : start ≤ loop.fresh := by rw [inv.fresh]; omega
          rw [Finset.mem_insert, inv.opened, or_left_comm]
          refine or_congr_right ?_
          dsimp only
          omega
        · simp [one, inv.attached]
        · exact inv.books_insert unvisited (.inr ⟨found, by rw [inv.fresh]⟩)

end Loop

/-! ### When the books stay exact -/

/-- The recorded handles are the open ones. -/
def Exact (s : Attachments) : Prop := ∀ id, id ∈ s.opened ↔ id ∈ handles s.recorded

/-- Handles are numbered as they are attached, and no two keys share one. -/
structure Numbered (s : Attachments) : Prop where
  recorded : ∀ key handle, s.recorded.lookup key = some handle → handle.id < s.fresh
  opened : ∀ id ∈ s.opened, id < s.fresh
  apart : ∀ key key' handle handle', s.recorded.lookup key = some handle →
    s.recorded.lookup key' = some handle' → handle.id = handle'.id → key = key'

/-- When closing everything keeps the books exact: no close fails. -/
def ClosesAll (faults : AttachFaults) (s : Attachments) : Prop :=
  ∀ key handle, s.recorded.lookup key = some handle → faults.closeError handle.id = none

section Synchronisation

variable (order : MapOrder) (faults : AttachFaults) (targets : List TcxTarget) (s : Attachments)

/-- The recorded handles of targets no longer wanted. -/
def Stale (handle : Handle) : Prop :=
  ∃ key, s.recorded.lookup key = some handle ∧ (desiredTargets targets).lookup key = none

/-- The recorded handles whose target reads as it did. -/
def Reused (handle : Handle) : Prop :=
  ∃ key target, s.recorded.lookup key = some handle ∧
    (desiredTargets targets).lookup key = some target ∧ handle.signature = tcxTargetSignature target

/-- The recorded handles whose target has changed. -/
def Superseded (handle : Handle) : Prop :=
  ∃ key target, s.recorded.lookup key = some handle ∧
    (desiredTargets targets).lookup key = some target ∧ handle.signature ≠ tcxTargetSignature target

/-- The targets the call has to attach, in the order it comes to them. -/
def wantedTargets : List KeyedTarget :=
  pending s.recorded (order.arrange (desiredTargets targets).entries)

/-- Those of them it attaches before an attachment fails. -/
def attachedTargets : List KeyedTarget :=
  (wantedTargets order targets s).takeWhile fun entry => (faults.attachError entry.1).isNone

/-- The numbers of the handles the call attaches. -/
def IsNew (id : Nat) : Prop :=
  s.fresh ≤ id ∧ id < s.fresh + (attachedTargets order faults targets s).length

/-- When a synchronisation keeps the books exact. If an attachment fails, every handle the
call attached before is closed. If a stale handle cannot be closed, no stale and no reused
handle is, and every new one is. Otherwise no target replaces a recorded handle. -/
structure SyncKeeps : Prop where
  nothingWanted : targets = [] → ClosesAll faults s
  attachFails : targets ≠ [] →
    attachedTargets order faults targets s ≠ wantedTargets order targets s →
    ∀ id, IsNew order faults targets s id → faults.closeError id = none
  staleFails : targets ≠ [] →
    attachedTargets order faults targets s = wantedTargets order targets s →
    (∃ handle, Stale targets s handle ∧ faults.closeError handle.id ≠ none) →
    (∀ handle, Stale targets s handle → faults.closeError handle.id ≠ none) ∧
    (∀ handle, Reused targets s handle → faults.closeError handle.id ≠ none) ∧
    ∀ id, IsNew order faults targets s id → faults.closeError id = none
  succeeds : targets ≠ [] →
    attachedTargets order faults targets s = wantedTargets order targets s →
    (∀ handle, Stale targets s handle → faults.closeError handle.id = none) →
    ∀ handle, ¬ Superseded targets s handle

/-- All a synchronisation with some target can do to the books. -/
inductive Synced : Attachments → Prop where
  | attachFails (opened : Finset Nat)
      (failed : attachedTargets order faults targets s ≠ wantedTargets order targets s)
      (open_iff : ∀ id, id ∈ opened ↔ id ∈ s.opened ∨
        IsNew order faults targets s id ∧ faults.closeError id ≠ none) :
      Synced ⟨s.recorded, opened, s.fresh + (attachedTargets order faults targets s).length⟩
  | staleFails (opened : Finset Nat)
      (attached : attachedTargets order faults targets s = wantedTargets order targets s)
      (failed : ∃ handle, Stale targets s handle ∧ faults.closeError handle.id ≠ none)
      (open_iff : ∀ id, id ∈ opened ↔ (id ∈ s.opened ∨ IsNew order faults targets s id) ∧
        (IsNew order faults targets s id → faults.closeError id ≠ none) ∧
        ∀ handle, Stale targets s handle ∨ Reused targets s handle → handle.id = id →
          faults.closeError id ≠ none) :
      Synced ⟨s.recorded, opened, s.fresh + (attachedTargets order faults targets s).length⟩
  | succeeds (next : Books) (opened : Finset Nat)
      (attached : attachedTargets order faults targets s = wantedTargets order targets s)
      (closed : ∀ handle, Stale targets s handle → faults.closeError handle.id = none)
      (open_iff : ∀ id, id ∈ opened ↔ (id ∈ s.opened ∨ IsNew order faults targets s id) ∧
        ∀ handle, Stale targets s handle → handle.id ≠ id)
      (next_iff : ∀ id, id ∈ handles next ↔ IsNew order faults targets s id ∨
        ∃ handle, Reused targets s handle ∧ handle.id = id)
      (apart : ∀ key key' handle handle', next.lookup key = some handle →
        next.lookup key' = some handle' → handle.id = handle'.id → key = key') :
      Synced ⟨next, opened, s.fresh + (attachedTargets order faults targets s).length⟩

end Synchronisation

section Sync

variable {order : MapOrder} {faults : AttachFaults} {targets : List TcxTarget}
  {s s' : Attachments}

theorem Synced.numbered (synced : Synced order faults targets s s') (numbered : Numbered s) :
    Numbered s' := by
  have below : ∀ id, id ∈ s.opened ∨ IsNew order faults targets s id →
      id < s.fresh + (attachedTargets order faults targets s).length := by
    rintro id (old | new)
    · exact Nat.lt_add_right _ (numbered.opened id old)
    · exact new.2
  have recorded := fun key handle held =>
    Nat.lt_add_right (attachedTargets order faults targets s).length
      (numbered.recorded key handle held)
  cases synced with
  | attachFails opened failed open_iff =>
    exact ⟨recorded, fun id inside => below id (((open_iff id).mp inside).imp_right And.left),
      numbered.apart⟩
  | staleFails opened attached failed open_iff =>
    exact ⟨recorded, fun id inside => below id ((open_iff id).mp inside).1, numbered.apart⟩
  | succeeds next opened attached closed open_iff next_iff apart =>
    refine ⟨fun key handle held => ?_, fun id inside => below id ((open_iff id).mp inside).1, apart⟩
    rcases (next_iff handle.id).mp ⟨key, handle, held, rfl⟩ with new | ⟨old, reused, same⟩
    · exact new.2
    · obtain ⟨key', _, held', _⟩ := reused
      exact same ▸ recorded key' old held'

/-- A recorded handle is stale, reused or superseded. -/
theorem handle_cases (targets : List TcxTarget) {key : String} {handle : Handle}
    (held : s.recorded.lookup key = some handle) :
    Stale targets s handle ∨ Reused targets s handle ∨ Superseded targets s handle := by
  cases wanted : (desiredTargets targets).lookup key with
  | none => exact .inl ⟨key, held, wanted⟩
  | some target =>
    by_cases same : handle.signature = tcxTargetSignature target
    · exact .inr (.inl ⟨key, target, held, wanted, same⟩)
    · exact .inr (.inr ⟨key, target, held, wanted, same⟩)

/-- A handle whose key is wanted shares its number with no stale one. -/
theorem Numbered.unstale (numbered : Numbered s) {key : String} {handle : Handle}
    {target : TcxTarget} (held : s.recorded.lookup key = some handle)
    (wanted : (desiredTargets targets).lookup key = some target) :
    ∀ other, Stale targets s other → other.id ≠ handle.id := by
  rintro other ⟨key', held', gone⟩ same
  rw [numbered.apart key' key other handle held' held same, wanted] at gone
  cases gone

theorem Synced.exact_iff (synced : Synced order faults targets s s') (wanted : targets ≠ [])
    (numbered : Numbered s) (exact : Exact s) :
    Exact s' ↔ SyncKeeps order faults targets s := by
  have new_unrecorded : ∀ id, IsNew order faults targets s id → id ∉ handles s.recorded := by
    rintro id new ⟨key, handle, held, rfl⟩
    exact absurd (numbered.recorded key handle held) (Nat.not_lt.mpr new.1)
  cases synced with
  | attachFails opened failed open_iff =>
    constructor
    · intro after
      refine ⟨fun none => absurd none wanted, fun _ _ id new => ?_, fun _ all => absurd all failed,
        fun _ all => absurd all failed⟩
      by_contra left
      exact new_unrecorded id new ((after id).mp ((open_iff id).mpr (.inr ⟨new, left⟩)))
    · intro keeps id
      rw [← exact id, open_iff id]
      refine or_iff_left ?_
      rintro ⟨new, left⟩
      exact left (keeps.attachFails wanted failed id new)
  | staleFails opened attached failed open_iff =>
    constructor
    · intro after
      -- The old books are kept, so each of their handles must still be open.
      have still : ∀ handle, Stale targets s handle ∨ Reused targets s handle →
          faults.closeError handle.id ≠ none := by
        intro handle kind
        have inside : handle.id ∈ handles s.recorded := by
          rcases kind with ⟨key, held, _⟩ | ⟨key, _, held, _⟩ <;> exact ⟨key, handle, held, rfl⟩
        exact ((open_iff handle.id).mp ((after handle.id).mpr inside)).2.2 handle kind rfl
      refine ⟨fun none => absurd none wanted, fun _ some => absurd attached some,
        fun _ _ _ => ⟨fun handle stale => still handle (.inl stale),
          fun handle reused => still handle (.inr reused), fun id new => ?_⟩, fun _ _ all => ?_⟩
      · by_contra left
        refine new_unrecorded id new ((after id).mp ((open_iff id).mpr
          ⟨.inr new, fun _ => left, fun handle kind same => same ▸ still handle kind⟩))
      · obtain ⟨handle, stale, err⟩ := failed
        exact absurd (all handle stale) err
    · intro keeps id
      obtain ⟨stale, reused, new⟩ := keeps.staleFails wanted attached failed
      rw [← exact id, open_iff id]
      constructor
      · rintro ⟨old | isNew, kept, -⟩
        · exact old
        · exact absurd (new id isNew) (kept isNew)
      · intro old
        refine ⟨.inl old, fun isNew => absurd ((exact id).mp old) (new_unrecorded id isNew), ?_⟩
        rintro handle (kind | kind) rfl
        · exact stale handle kind
        · exact reused handle kind
  | succeeds next opened attached closed open_iff next_iff apart =>
    have none_failed : ¬ ∃ handle, Stale targets s handle ∧ faults.closeError handle.id ≠ none := by
      rintro ⟨handle, stale, err⟩
      exact err (closed handle stale)
    constructor
    · intro after
      refine ⟨fun none => absurd none wanted, fun _ some => absurd attached some,
        fun _ _ some => absurd some none_failed, ?_⟩
      rintro _ _ _ handle ⟨key, target, held, lookup, differ⟩
      -- A superseded handle is neither stale nor in the new books, but it is open.
      have opened := (open_iff handle.id).mpr
        ⟨.inl ((exact handle.id).mpr ⟨key, handle, held, rfl⟩), numbered.unstale held lookup⟩
      rcases (next_iff handle.id).mp ((after handle.id).mp opened) with new | ⟨other, reused, same⟩
      · exact new_unrecorded handle.id new ⟨key, handle, held, rfl⟩
      · obtain ⟨key', target', held', lookup', equal⟩ := reused
        obtain rfl := numbered.apart key' key other handle held' held same
        rw [held] at held'
        rw [lookup] at lookup'
        cases held'
        cases lookup'
        exact differ equal
    · intro keeps id
      have unchanged := keeps.succeeds wanted attached closed
      rw [open_iff id, next_iff id]
      constructor
      · rintro ⟨old | isNew, unstale⟩
        · obtain ⟨key, handle, held, rfl⟩ := (exact id).mp old
          rcases handle_cases targets held with stale | reused | superseded
          · exact absurd rfl (unstale handle stale)
          · exact .inr ⟨handle, reused, rfl⟩
          · exact absurd superseded (unchanged handle)
        · exact .inl isNew
      · rintro (isNew | ⟨handle, ⟨key, target, held, lookup, same⟩, rfl⟩)
        · refine ⟨.inr isNew, ?_⟩
          rintro handle ⟨key, held, _⟩ rfl
          exact new_unrecorded handle.id isNew ⟨key, handle, held, rfl⟩
        · exact ⟨.inl ((exact handle.id).mpr ⟨key, handle, held, rfl⟩), numbered.unstale held lookup⟩

theorem numbered_closeTCXAttachments (numbered : Numbered s) :
    Numbered (closeTCXAttachments order faults s).1 := by
  refine ⟨by simp [closeTCXAttachments], fun id inside => ?_, by simp [closeTCXAttachments]⟩
  exact numbered.opened id (mem_closeHandles.mp inside).1

theorem mem_arranged_entries {books : Books} {id : Nat} :
    (∃ handle ∈ (order.arrange books.entries).map Sigma.snd, handle.id = id) ↔
      id ∈ handles books := by
  simp only [mem_map, (order.perm books.entries).mem_iff, handles, Set.mem_ofPred_eq]
  constructor
  · rintro ⟨handle, ⟨entry, inside, rfl⟩, rfl⟩
    exact ⟨entry.1, entry.2, mem_lookup_iff.mpr inside, rfl⟩
  · rintro ⟨key, handle, held, rfl⟩
    exact ⟨handle, ⟨⟨key, handle⟩, mem_lookup_iff.mp held, rfl⟩, rfl⟩

end Sync

variable {desired : AList fun _ : String => TcxTarget}

variable {s : Attachments} {order : MapOrder}

theorem mem_arranged :
    entry ∈ order.arrange desired.entries ↔ desired.lookup entry.1 = some entry.2 :=
  ((order.perm desired.entries).mem_iff).trans mem_lookup_iff.symm

variable (desired) in
/-- The loop over the desired targets, and where it can end. -/
theorem loopEnds_arranged (order : MapOrder) (faults : AttachFaults) (s : Attachments) :
    LoopEnds s.recorded faults s.fresh s.opened [] (order.arrange desired.entries)
      (attachTargets s.recorded faults (order.arrange desired.entries)
        ⟨∅, [], s.opened, s.fresh, {}⟩) := by
  refine loopEnds_attachTargets ?_ ⟨rfl, by simp, rfl, by simp [InBooks, pending]⟩
  exact ((order.perm desired.entries).map Sigma.fst).nodup_iff.mpr desired.nodupKeys

/-- After the loop the books say of the targets how they read. -/
theorem Attached.signature {recorded : Books} {start : Nat} {opened : Finset Nat}
    {order : MapOrder} {loop : AttachLoop}
    (inv : Attached recorded start opened (order.arrange desired.entries) loop) (key : String) :
    (loop.next.lookup key).map Handle.signature =
      (desired.lookup key).map tcxTargetSignature := by
  refine Option.ext fun signature => ?_
  simp only [Option.map_eq_some_iff, inv.books]
  constructor
  · rintro ⟨handle, holds, rfl⟩
    obtain ⟨target, listed, reads⟩ := holds.reads
    exact ⟨target, mem_arranged.mp listed, reads.symm⟩
  · rintro ⟨target, listed, rfl⟩
    exact exists_inBooks start (mem_arranged.mpr listed)

section Sync

variable {order : MapOrder} {faults : AttachFaults} {targets : List TcxTarget} {s : Attachments}

theorem mem_reused {id : Nat} :
    (∃ entry ∈ order.arrange (desiredTargets targets).entries, ∃ old,
      reusable s.recorded entry.1 entry.2 = some old ∧ old.id = id) ↔
      ∃ handle, Reused targets s handle ∧ handle.id = id := by
  simp only [mem_arranged, reusable_eq_some]
  constructor
  · rintro ⟨entry, lookup, old, ⟨held, same⟩, rfl⟩
    exact ⟨old, ⟨entry.1, entry.2, held, lookup, same⟩, rfl⟩
  · rintro ⟨handle, ⟨key, target, held, lookup, same⟩, rfl⟩
    exact ⟨⟨key, target⟩, lookup, handle, ⟨held, same⟩, rfl⟩

/-- A new handle has a number no other has. -/
theorem Attached.apart {done : List KeyedTarget} {loop : AttachLoop} {key key' : String}
    {handle handle' : Handle} (inv : Attached s.recorded s.fresh s.opened done loop)
    (numbered : Numbered s) (held : loop.next.lookup key = some handle)
    (held' : loop.next.lookup key' = some handle') (same : handle.id = handle'.id) : key = key' := by
  rw [inv.books] at held held'
  rcases held with ⟨target, ⟨_, kept⟩ | ⟨i, place, rfl⟩⟩ <;>
    rcases held' with ⟨target', ⟨_, kept'⟩ | ⟨i', place', rfl⟩⟩
  · exact numbered.apart _ _ _ _ (reusable_eq_some.mp kept).1 (reusable_eq_some.mp kept').1 same
  · have := numbered.recorded _ _ (reusable_eq_some.mp kept).1
    dsimp only at same
    omega
  · have := numbered.recorded _ _ (reusable_eq_some.mp kept').1
    dsimp only at same
    omega
  · rw [Nat.add_left_cancel same, place'] at place
    cases place
    rfl

/-- A loop that stopped at an entry attached what was pending before it. -/
theorem attachedTargets_of_stopped {visited later : List KeyedTarget} {entry : KeyedTarget}
    {err : String}
    (split : order.arrange (desiredTargets targets).entries = visited ++ entry :: later)
    (attachable : ∀ entry ∈ pending s.recorded visited, faults.attachError entry.1 = none)
    (missing : reusable s.recorded entry.1 entry.2 = none)
    (failed : faults.attachError entry.1 = some err) :
    attachedTargets order faults targets s = pending s.recorded visited ∧
      attachedTargets order faults targets s ≠ wantedTargets order targets s := by
  have wanted : wantedTargets order targets s =
      pending s.recorded visited ++ entry :: pending s.recorded later := by
    simp [wantedTargets, split, pending, missing]
  have attached : attachedTargets order faults targets s = pending s.recorded visited := by
    rw [attachedTargets, wanted, takeWhile_append_of_pos
      (fun entry inside => by simp [attachable entry inside]),
      takeWhile_cons_of_neg (by simp [failed]), append_nil]
  refine ⟨attached, fun all => ?_⟩
  rw [attached, wanted] at all
  have := congrArg length all
  simp at this

variable (order faults) in
theorem synced_syncTCXTargets (wanted : targets ≠ []) (numbered : Numbered s) :
    Synced order faults targets s (syncTCXTargets order faults targets s).1 := by
  have ends := loopEnds_arranged (desiredTargets targets) order faults s
  rw [syncTCXTargets, if_neg wanted]
  generalize attachTargets s.recorded faults (order.arrange (desiredTargets targets).entries)
    ⟨∅, [], s.opened, s.fresh, {}⟩ = result at ends ⊢
  obtain ⟨loop, failure⟩ := result
  rcases ends with ⟨rfl, inv, attachable⟩ |
    ⟨visited, entry, later, err, rfl, split, inv, attachable, missing, failed⟩
  · -- All targets are in the new books.
    rw [nil_append] at inv
    have attached : attachedTargets order faults targets s = wantedTargets order targets s :=
      takeWhile_eq_self_iff.mpr fun entry inside => by simp [attachable entry inside]
    have fresh : loop.fresh = s.fresh + (attachedTargets order faults targets s).length := by
      rw [attached]; exact inv.fresh
    have new_iff : ∀ id, s.fresh ≤ id ∧ id < loop.fresh ↔ IsNew order faults targets s id := by
      intro id; rw [IsNew, fresh]
    have next_iff : ∀ id, id ∈ handles loop.next ↔ IsNew order faults targets s id ∨
        ∃ handle, Reused targets s handle ∧ handle.id = id := by
      intro id; rw [inv.held, new_iff, mem_reused]
    have stale_iff : ∀ handle, (∃ entry ∈ (order.arrange s.recorded.entries).filter fun entry =>
        (loop.next.lookup entry.1).isNone, entry.2 = handle) ↔ Stale targets s handle := by
      intro handle
      have missing_iff : ∀ key, loop.next.lookup key = none ↔
          (desiredTargets targets).lookup key = none := fun key => by
        rw [← Option.map_eq_none_iff, inv.signature, Option.map_eq_none_iff]
      simp only [mem_filter, (order.perm _).mem_iff, Option.isNone_iff_eq_none, missing_iff]
      constructor
      · rintro ⟨entry, ⟨inside, missing⟩, rfl⟩
        exact ⟨entry.1, mem_lookup_iff.mpr inside, missing⟩
      · rintro ⟨key, held, missing⟩
        exact ⟨⟨key, handle⟩, ⟨mem_lookup_iff.mp held, missing⟩, rfl⟩
    dsimp only
    generalize (order.arrange s.recorded.entries).filter (fun entry =>
      (loop.next.lookup entry.1).isNone) = stale at stale_iff ⊢
    have staleIDs : ∀ id, (∃ handle ∈ stale.map Sigma.snd, handle.id = id) ↔
        ∃ handle, Stale targets s handle ∧ handle.id = id := by
      intro id
      simp [stale_iff]
    simp only [fresh]
    split
    · next err found =>
      obtain ⟨entry, inside, failed⟩ := exists_of_findSome?_eq_some found
      refine .staleFails _ attached ⟨entry.2, (stale_iff entry.2).mp ⟨entry, inside, rfl⟩, ?_⟩
        fun id => ?_
      · intro closed
        simp [closed] at failed
      · rw [mem_closeHandles, mem_closeHandles, staleIDs, mem_arranged_entries, next_iff,
          inv.opened, new_iff]
        grind
    · next found =>
      have closed : ∀ handle, Stale targets s handle → faults.closeError handle.id = none := by
        intro handle isStale
        obtain ⟨entry, inside, rfl⟩ := (stale_iff handle).mpr isStale
        simpa using findSome?_eq_none_iff.mp found entry inside
      have final : Synced order faults targets s ⟨loop.next,
          closeHandles faults (stale.map Sigma.snd) loop.opened,
          s.fresh + (attachedTargets order faults targets s).length⟩ := by
        refine .succeeds _ _ attached closed (fun id => ?_) next_iff ?_
        · rw [mem_closeHandles, staleIDs, inv.opened, new_iff]
          refine and_congr_right fun _ => ⟨fun kept handle isStale same => ?_, ?_⟩
          · exact kept ⟨handle, isStale, same⟩ (same ▸ closed handle isStale)
          · rintro unstale ⟨handle, isStale, same⟩
            exact absurd same (unstale handle isStale)
        · exact fun key key' handle handle' => inv.apart numbered
      cases faults.metricsError <;> exact final
  · -- An attachment failed.
    rw [nil_append] at inv
    obtain ⟨attached, failed⟩ := attachedTargets_of_stopped split attachable missing failed
    have fresh : loop.fresh = s.fresh + (attachedTargets order faults targets s).length := by
      rw [attached]; exact inv.fresh
    simp only [fresh]
    refine .attachFails _ failed fun id => ?_
    rw [mem_closeHandles, inv.mem_attached, inv.opened, fresh]
    constructor
    · rintro ⟨old | new, kept⟩
      · exact .inl old
      · exact .inr ⟨new, kept new⟩
    · rintro (old | ⟨new, left⟩)
      · exact ⟨.inl old, fun new => absurd (numbered.opened id old) (Nat.not_lt.mpr new.1)⟩
      · exact ⟨.inr new, fun _ => left⟩

theorem exact_closeTCXAttachments_iff (exact : Exact s) :
    Exact (closeTCXAttachments order faults s).1 ↔ ClosesAll faults s := by
  have none : ∀ id, id ∉ handles (∅ : Books) := by simp [handles]
  simp only [Exact, closeTCXAttachments, mem_closeHandles, mem_arranged_entries, none, iff_false,
    not_and, Classical.not_imp, not_not, exact _]
  constructor
  · intro closed key handle held
    exact (closed handle.id ⟨key, handle, held, rfl⟩).2
  · rintro closed id ⟨key, handle, held, rfl⟩
    exact ⟨⟨key, handle, held, rfl⟩, closed key handle held⟩

end Sync

/-! ### Runs -/

/-- The calls that change the books. `Close` of the reconciler closes everything, too. -/
inductive AttachCall where
  | sync (order : MapOrder) (faults : AttachFaults) (targets : List TcxTarget)
  | close (order : MapOrder) (faults : AttachFaults)

def AttachCall.run (s : Attachments) : AttachCall → Attachments
  | .sync order faults targets => (syncTCXTargets order faults targets s).1
  | .close order faults => (closeTCXAttachments order faults s).1

/-- What a call has to meet, in the state it is made in, to keep the books exact. -/
def AttachCall.Keeps (s : Attachments) : AttachCall → Prop
  | .sync order faults targets => SyncKeeps order faults targets s
  | .close _ faults => ClosesAll faults s

theorem syncTCXTargets_nil (order : MapOrder) (faults : AttachFaults) (s : Attachments) :
    (syncTCXTargets order faults [] s).1 = (closeTCXAttachments order faults s).1 := by
  rw [syncTCXTargets, if_pos rfl]
  split
  · next closed => rw [closed]
  · next closed => rw [closed]

theorem numbered_run (numbered : Numbered s) (call : AttachCall) : Numbered (call.run s) := by
  cases call with
  | close order faults => exact numbered_closeTCXAttachments numbered
  | sync order faults targets =>
    by_cases wanted : targets = []
    · subst wanted
      rw [AttachCall.run, syncTCXTargets_nil]
      exact numbered_closeTCXAttachments numbered
    · exact (synced_syncTCXTargets order faults wanted numbered).numbered numbered

theorem exact_run_iff (numbered : Numbered s) (exact : Exact s)
    (call : AttachCall) : Exact (call.run s) ↔ call.Keeps s := by
  cases call with
  | close order faults => exact exact_closeTCXAttachments_iff exact
  | sync order faults targets =>
    by_cases wanted : targets = []
    · subst wanted
      rw [AttachCall.run, syncTCXTargets_nil, exact_closeTCXAttachments_iff exact]
      refine ⟨fun closes => ⟨fun _ => closes, ?_, ?_, ?_⟩, fun keeps => keeps.nothingWanted rfl⟩ <;>
        exact fun some => absurd rfl some
    · exact (synced_syncTCXTargets order faults wanted numbered).exact_iff wanted numbered exact

/-- Along every run of the reconciler the recorded handles are the open ones after each
call exactly if each call meets its condition: closing everything fails nowhere; where an
attachment fails, the handles attached before it are closed; where a stale handle cannot be
closed, no other recorded handle the call closes is closed either, and all new ones are;
and a call that succeeds replaces no recorded handle. -/
theorem attachments_exact_iff (calls : List AttachCall) :
    Runs.Throughout AttachCall.run Exact Attachments.new calls ↔
      Runs.EachCall AttachCall.run AttachCall.Keeps Attachments.new calls := by
  refine Runs.throughout_iff (fun s call numbered => numbered_run numbered call)
    (fun s call numbered exact => exact_run_iff numbered exact call) ?_ ?_ calls
  · exact ⟨by simp [Attachments.new], by simp [Attachments.new], by simp [Attachments.new]⟩
  · intro id
    simp [Attachments.new, handles]

/-! ### What is attached after a success -/

/-- After a success the books say of every wanted target how it reads, and nothing else. -/
theorem signature_syncTCXTargets {faults : AttachFaults}
    {targets : List TcxTarget} {s : Attachments}
    (succeeded : (syncTCXTargets order faults targets s).2.2 = .ok ()) (key : String) :
    ((syncTCXTargets order faults targets s).1.recorded.lookup key).map Handle.signature =
      ((desiredTargets targets).lookup key).map tcxTargetSignature := by
  unfold syncTCXTargets at succeeded ⊢
  by_cases none : targets = []
  · subst none
    simp only [if_true] at succeeded ⊢
    cases closed : closeTCXAttachments order faults s with
    | mk s' err =>
      rw [closed] at succeeded
      have emptied : s'.recorded = ∅ := (congrArg (fun result => result.1.recorded) closed).symm
      cases err with
      | some err => cases succeeded
      | none =>
        rw [emptied]
        rfl
  · rw [if_neg none] at succeeded ⊢
    have ends := loopEnds_arranged (desiredTargets targets) order faults s
    generalize attachTargets s.recorded faults (order.arrange (desiredTargets targets).entries)
      ⟨∅, [], s.opened, s.fresh, {}⟩ = result at ends succeeded ⊢
    obtain ⟨loop, stopped⟩ := result
    rcases ends with ⟨rfl, inv, -⟩ | ⟨_, _, _, _, rfl, -⟩
    · dsimp only at succeeded ⊢
      split at succeeded
      · cases succeeded
      · split at succeeded
        · cases succeeded
        · exact inv.signature key
    · cases succeeded

/-- Where every target can reuse a handle, nothing is attached. -/
theorem fresh_syncTCXTargets {faults : AttachFaults} {targets : List TcxTarget}
    {s : Attachments} (kept : ∀ key target, (desiredTargets targets).lookup key = some target →
      (s.recorded.lookup key).map Handle.signature = some (tcxTargetSignature target)) :
    (syncTCXTargets order faults targets s).1.fresh = s.fresh := by
  have reuses : ∀ entry ∈ order.arrange (desiredTargets targets).entries,
      reusable s.recorded entry.1 entry.2 ≠ none := by
    intro entry listed
    obtain ⟨old, held, reads⟩ :=
      Option.map_eq_some_iff.mp (kept entry.1 entry.2 (mem_arranged.mp listed))
    rw [reusable_eq_some.mpr ⟨held, reads⟩]
    nofun
  have loop : (attachTargets s.recorded faults (order.arrange (desiredTargets targets).entries)
      ⟨∅, [], s.opened, s.fresh, {}⟩).1.fresh = s.fresh := by
    rcases loopEnds_arranged (desiredTargets targets) order faults s with
      ⟨-, inv, -⟩ | ⟨visited, entry, later, _, -, split, -, -, missing, -⟩
    · rw [inv.fresh, nil_append, pending, filter_eq_nil_iff.mpr fun entry listed => by
        simpa using reuses entry listed]
      rfl
    · exact absurd missing (reuses entry (by simp [split]))
  unfold syncTCXTargets
  split
  · split <;> next closed => exact congrArg (fun result => result.1.fresh) closed.symm
  · grind

def inOrder : MapOrder := ⟨id, fun items => .refl items⟩

def noFaults : AttachFaults := ⟨fun _ => none, fun _ => none, none⟩

/-- The ingress policy of one workload, as the rules given. -/
def workloadTarget (rules : List Rule) : TcxTarget where
  ifName := "veth-web"
  attach := .tcxEgress
  policyDirection := .ingress
  programs := [⟨⟨"prod/web", .v4 0x0A000005, [], rules⟩, 0⟩]

def dropRule : Rule where
  id := "drop-http"
  vpc := "prod"
  priority := 100
  direction := .ingress
  protocol := .tcp
  action := .drop
  securityGroup := "web"

/-- Without any failure, the handle of a target whose programs changed stays open and is
forgotten. -/
theorem superseded_handle_leaks :
    let s := Runs.after AttachCall.run Attachments.new
      [.sync inOrder noFaults [workloadTarget []], .sync inOrder noFaults [workloadTarget [dropRule]]]
    0 ∈ s.opened ∧ 0 ∉ handles s.recorded := by
  intro s
  have others : ∀ entry ∈ s.recorded.entries, entry.2.id ≠ 0 := by decide
  refine ⟨by decide, ?_⟩
  rintro ⟨key, handle, held, same⟩
  exact others ⟨key, handle⟩ (mem_lookup_iff.mp held) same

theorem attached_and_closed :
    Runs.Throughout AttachCall.run Exact Attachments.new
      [.sync inOrder noFaults [workloadTarget [dropRule]], .close inOrder noFaults] := by
  refine (attachments_exact_iff _).mpr ?_
  rw [Runs.eachCall_cons, Runs.eachCall_cons]
  refine ⟨⟨?_, ?_, ?_, ?_⟩, fun _ _ _ => rfl, fun before call rest split => by simp at split⟩
  · simp
  · exact fun _ _ _ _ => rfl
  · rintro _ _ ⟨handle, ⟨key, held, _⟩, _⟩
    simp [Attachments.new] at held
  · rintro _ _ _ handle ⟨key, target, held, _⟩
    simp [Attachments.new] at held

end Netloom.Agent
