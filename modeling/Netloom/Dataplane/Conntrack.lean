import Netloom.Lib.Runs
import Netloom.Dataplane.Evaluator

/-!
# Connection tracking in user space

A packet that a stateful entry allows leaves the key of its reply in a table, and
a packet whose key is in the table is allowed unless an entry that denies or
rejects is selected for it.
-/
namespace Netloom.Dataplane

open List AList Fold Runs
open Netip (Addr)
open Model (Time elapsed)

/-! ### Keys -/

structure ConntrackKey where
  endpointID : String
  remoteIdentity : BitVec 32
  remoteIP : Addr
  direction : BitVec 8
  protocol : BitVec 8
  icmpType : BitVec 8
  icmpCode : BitVec 8
  sourcePort : BitVec 16
  destPort : BitVec 16
  deriving DecidableEq, Repr

def isICMPProtocol (protocol : BitVec 8) : Bool := protocol = 1 || protocol = 58

def conntrackICMP (protocol icmpType icmpCode : BitVec 8) : BitVec 8 × BitVec 8 :=
  if !isICMPProtocol protocol then (0, 0) else (icmpType, icmpCode)

/-- An echo request is answered by an echo reply, and the other way round. -/
def reverseConntrackICMP (protocol icmpType icmpCode : BitVec 8) : BitVec 8 × BitVec 8 :=
  if !isICMPProtocol protocol then (0, 0)
  else if protocol = 1 && icmpType = 8 then (0, icmpCode)
  else if protocol = 1 && icmpType = 0 then (8, icmpCode)
  else if protocol = 58 && icmpType = 128 then (129, icmpCode)
  else if protocol = 58 && icmpType = 129 then (128, icmpCode)
  else (icmpType, icmpCode)

def reverseDirection (direction : BitVec 8) : BitVec 8 :=
  if direction = directionIngress then directionEgress
  else if direction = directionEgress then directionIngress
  else direction

def conntrackKey (endpointID : String) (packet : Packet) : ConntrackKey :=
  let icmp := conntrackICMP packet.protocol packet.icmpType packet.icmpCode
  { endpointID
    remoteIdentity := packet.remoteIdentity
    remoteIP := packet.remoteIP
    direction := packet.direction
    protocol := packet.protocol
    icmpType := icmp.1
    icmpCode := icmp.2
    sourcePort := packet.sourcePort
    destPort := packet.destPort }

/-- The key of the reply. Without a source port the destination port stands in for it. -/
def reverseConntrackKey (endpointID : String) (packet : Packet) : ConntrackKey :=
  let port := if packet.sourcePort = 0 then packet.destPort else packet.sourcePort
  let icmp := reverseConntrackICMP packet.protocol packet.icmpType packet.icmpCode
  { endpointID
    remoteIdentity := packet.remoteIdentity
    remoteIP := packet.remoteIP
    direction := reverseDirection packet.direction
    protocol := packet.protocol
    icmpType := icmp.1
    icmpCode := icmp.2
    sourcePort := packet.destPort
    destPort := port }

/-! ### The table -/

/-- The time each key was last seen, and how long it may be idle. -/
structure InMemoryConntrackStore where
  entries : AList fun _ : ConntrackKey => Time
  maxIdle : Int

/-- An entry without a time does not expire. -/
def conntrackEntryExpired (lastSeen now : Time) (maxIdle : Int) : Bool :=
  maxIdle > 0 && lastSeen ≠ 0 && elapsed lastSeen now > maxIdle

namespace InMemoryConntrackStore

def new (maxIdle : Int) : InMemoryConntrackStore := ⟨∅, maxIdle⟩

variable (s : InMemoryConntrackStore)

/-- `Has` at the time `now`. -/
def has (key : ConntrackKey) (now : Time) : Bool × InMemoryConntrackStore :=
  match s.entries.lookup key with
  | none => (false, s)
  | some lastSeen =>
    if conntrackEntryExpired lastSeen now s.maxIdle then
      (false, { s with entries := s.entries.erase key })
    else (true, { s with entries := s.entries.insert key now })

def add (key : ConntrackKey) (now : Time) : InMemoryConntrackStore :=
  { s with entries := s.entries.insert key now }

def deleteEndpoint (endpointID : String) : InMemoryConntrackStore :=
  { s with entries := keep (fun key _ => key.endpointID ≠ endpointID) s.entries }

/-- `SweepIdle` at the time `now`, and the number of entries it removed. -/
def sweepIdle (maxIdle : Int) (now : Time) : Nat × InMemoryConntrackStore :=
  if maxIdle ≤ 0 then (0, s)
  else
    let kept := keep (fun _ lastSeen => !conntrackEntryExpired lastSeen now maxIdle) s.entries
    (s.entries.entries.length - kept.entries.length, { s with entries := kept })

end InMemoryConntrackStore

/-- `EvaluateStateful`. The clock is read when the table is searched and again when a key
is added. -/
def evaluateStateful (host : Endian) (endpointID : String) (entries : List PolicyMapEntry)
    (packet : Packet) (searched added : Time) (s : InMemoryConntrackStore) :
    Decision × InMemoryConntrackStore :=
  let decision := evaluate host entries packet
  if decision.matched.isSome && (decision.verdict = .drop || decision.verdict = .reject) then
    (decision, s)
  else
    let found := if endpointID ≠ "" then s.has (conntrackKey endpointID packet) searched
      else (false, s)
    if found.1 then ({ verdict := .allow, conntrack := true }, found.2)
    else if decision.verdict = .allow && decision.matched.any fun entry => entry.value.stateful ≠ 0 then
      let reverse := reverseConntrackKey endpointID packet
      if reverse.endpointID ≠ "" then
        ({ decision with established := true }, found.2.add reverse added)
      else (decision, found.2)
    else (decision, found.2)

/-! ### What an evaluation does to the table -/

section Evaluate

variable (host : Endian) (endpointID : String) (entries : List PolicyMapEntry) (packet : Packet)
  (searched added : Time) (s : InMemoryConntrackStore)

/-- An entry that denies or rejects is selected for the packet. -/
def blocked : Bool :=
  (evaluate host entries packet).matched.isSome && (evaluate host entries packet).verdict ≠ .allow

theorem blocked_eq :
    ((evaluate host entries packet).matched.isSome &&
      ((evaluate host entries packet).verdict = .drop ||
        (evaluate host entries packet).verdict = .reject)) = blocked host entries packet := by
  unfold blocked
  cases (evaluate host entries packet).verdict <;> simp

theorem evaluate_flags :
    (evaluate host entries packet).conntrack = false ∧
      (evaluate host entries packet).established = false := by
  unfold evaluate
  split
  · exact ⟨rfl, rfl⟩
  · split <;> exact ⟨rfl, rfl⟩

/-- The table searched for the key of a packet, on a miss: an entry found expired goes. -/
def missed (key : ConntrackKey) : InMemoryConntrackStore :=
  if endpointID = "" then s else { s with entries := s.entries.erase key }

/-- The key is in the table and has not expired. -/
def Fresh (key : ConntrackKey) (now : Time) : Prop :=
  ∃ lastSeen, s.entries.lookup key = some lastSeen ∧
    conntrackEntryExpired lastSeen now s.maxIdle = false

/-- The four ways an evaluation ends. -/
inductive Evaluated : Decision × InMemoryConntrackStore → Prop where
  | blocked (blocks : blocked host entries packet = true) :
      Evaluated (evaluate host entries packet, s)
  | found (passes : Dataplane.blocked host entries packet = false) (named : endpointID ≠ "")
      (fresh : Fresh s (conntrackKey endpointID packet) searched) :
      Evaluated ({ verdict := .allow, conntrack := true },
        { s with entries := s.entries.insert (conntrackKey endpointID packet) searched })
  | established (passes : Dataplane.blocked host entries packet = false) (named : endpointID ≠ "")
      (stale : ¬ Fresh s (conntrackKey endpointID packet) searched) (entry : PolicyMapEntry)
      (matched : (evaluate host entries packet).matched = some entry)
      (allows : (evaluate host entries packet).verdict = .allow)
      (stateful : entry.value.stateful ≠ 0) :
      Evaluated ({ evaluate host entries packet with established := true },
        (missed endpointID s (conntrackKey endpointID packet)).add
          (reverseConntrackKey endpointID packet) added)
  | plain (passes : Dataplane.blocked host entries packet = false)
      (stale : endpointID ≠ "" → ¬ Fresh s (conntrackKey endpointID packet) searched) :
      Evaluated (evaluate host entries packet, missed endpointID s (conntrackKey endpointID packet))

/-- A search either finds the key, which counts as use, or misses. -/
theorem search_cases (key : ConntrackKey) (now : Time) :
    (endpointID ≠ "" ∧ Fresh s key now ∧
      (if endpointID ≠ "" then s.has key now else (false, s)) =
        (true, { s with entries := s.entries.insert key now })) ∨
    ((endpointID ≠ "" → ¬ Fresh s key now) ∧
      (if endpointID ≠ "" then s.has key now else (false, s)) = (false, missed endpointID s key)) := by
  by_cases unnamed : endpointID = ""
  · exact .inr ⟨fun named => absurd unnamed named, by simp [unnamed, missed]⟩
  rw [if_pos unnamed, missed, if_neg unnamed, InMemoryConntrackStore.has]
  cases found : s.entries.lookup key with
  | none =>
    refine .inr ⟨fun _ => by simp [Fresh, found], ?_⟩
    have absent : key ∉ s.entries.entries.keys := lookup_eq_none.mp found
    have same : s.entries.erase key = s.entries :=
      AList.ext (kerase_of_notMem_keys absent)
    rw [same]
  | some lastSeen =>
    cases expired : conntrackEntryExpired lastSeen now s.maxIdle with
    | true => exact .inr ⟨fun _ => by simp [Fresh, found, expired], by simp [expired]⟩
    | false => exact .inl ⟨unnamed, ⟨lastSeen, found, expired⟩, by simp [expired]⟩

theorem evaluated_evaluateStateful :
    Evaluated host endpointID entries packet searched added s
      (evaluateStateful host endpointID entries packet searched added s) := by
  unfold evaluateStateful
  dsimp only
  rw [blocked_eq]
  cases passes : blocked host entries packet with
  | true => exact .blocked passes
  | false =>
    simp only [Bool.false_eq_true, if_false]
    rcases search_cases endpointID s (conntrackKey endpointID packet) searched with
      ⟨named, fresh, found⟩ | ⟨stale, found⟩
    · rw [found, if_pos rfl]
      exact .found passes named fresh
    · rw [found, if_neg (by simp)]
      split
      · next keeps =>
        simp only [Bool.and_eq_true, decide_eq_true_eq, Option.any_eq_true] at keeps
        obtain ⟨allows, entry, matched, stateful⟩ := keeps
        by_cases named : endpointID = ""
        · rw [if_neg (by simp [reverseConntrackKey, named])]
          exact .plain passes stale
        · rw [if_pos (by simpa [reverseConntrackKey] using named)]
          exact .established passes named (stale named) entry matched allows stateful
      · exact .plain passes stale

end Evaluate

/-! ### Runs -/

/-- One evaluation as it went. -/
structure Evaluation where
  endpointID : String
  entries : List PolicyMapEntry
  packet : Packet
  searched : Time
  added : Time
  decision : Decision

inductive ConntrackCall where
  | evaluate (endpointID : String) (entries : List PolicyMapEntry) (packet : Packet)
      (searched added : Time)
  | deleteEndpoint (endpointID : String)
  | sweepIdle (now : Time)

inductive ConntrackEvent where
  | evaluated (evaluation : Evaluation)
  | deleted (endpointID : String)
  | swept (now : Time)

/-- The readings of the clock, in order. -/
def ConntrackCall.readings : ConntrackCall → List Time
  | .evaluate _ _ _ searched added => [searched, added]
  | .deleteEndpoint _ => []
  | .sweepIdle now => [now]

def ConntrackEvent.readings : ConntrackEvent → List Time
  | .evaluated evaluation => [evaluation.searched, evaluation.added]
  | .deleted _ => []
  | .swept now => [now]

/-- The table and all that happened to it. -/
structure Session where
  store : InMemoryConntrackStore
  log : List ConntrackEvent

def Session.new (maxIdle : Int) : Session := ⟨.new maxIdle, []⟩

/-- Sweeps use the idle timeout of the table. -/
def Session.run (host : Endian) (s : Session) : ConntrackCall → Session
  | .evaluate endpointID entries packet searched added =>
    let outcome := evaluateStateful host endpointID entries packet searched added s.store
    ⟨outcome.2, s.log ++ [.evaluated ⟨endpointID, entries, packet, searched, added, outcome.1⟩]⟩
  | .deleteEndpoint endpointID => ⟨s.store.deleteEndpoint endpointID, s.log ++ [.deleted endpointID]⟩
  | .sweepIdle now => ⟨(s.store.sweepIdle s.store.maxIdle now).2, s.log ++ [.swept now]⟩

/-- The evaluation allowed a packet by a stateful entry and left the key for the reply. -/
structure Evaluation.Establishes (host : Endian) (key : ConntrackKey) (evaluation : Evaluation) :
    Prop where
  endpoint : evaluation.endpointID = key.endpointID
  allowed : evaluation.decision.verdict = .allow
  established : evaluation.decision.established = true
  stateful : ∃ entry, selectEntry host evaluation.entries evaluation.packet = some entry ∧
    entry.value.stateful ≠ 0
  reverse : reverseConntrackKey evaluation.endpointID evaluation.packet = key

/-- When an event used the key, by leaving it or by finding it. -/
def ConntrackEvent.touch (key : ConntrackKey) : ConntrackEvent → Option Time
  | .evaluated evaluation =>
    if evaluation.decision.established &&
        reverseConntrackKey evaluation.endpointID evaluation.packet = key then
      some evaluation.added
    else if evaluation.decision.conntrack &&
        conntrackKey evaluation.endpointID evaluation.packet = key then
      some evaluation.searched
    else none
  | _ => none

/-- The table's entry for the key, as the log explains it: some evaluation left it, the
endpoint was not deleted since, and from use to use it was never idle for longer than
allowed. -/
def Explained (host : Endian) (maxIdle : Int) (log : List ConntrackEvent) (key : ConntrackKey)
    (lastSeen : Time) : Prop :=
  ∃ earlier evaluation between, log = earlier ++ .evaluated evaluation :: between ∧
    evaluation.Establishes host key ∧ .deleted key.endpointID ∉ between ∧
    List.IsChain (fun previous next => elapsed previous next ≤ maxIdle)
      (evaluation.added :: between.filterMap (ConntrackEvent.touch key)) ∧
    (evaluation.added :: between.filterMap (ConntrackEvent.touch key)).getLast? = some lastSeen

section Explained

variable {host : Endian} {maxIdle : Int} {log : List ConntrackEvent} {key : ConntrackKey}
  {lastSeen : Time}

/-- An event that neither uses the key nor deletes its endpoint. -/
theorem Explained.other (explained : Explained host maxIdle log key lastSeen)
    {event : ConntrackEvent} (untouched : event.touch key = none)
    (kept : event ≠ .deleted key.endpointID) :
    Explained host maxIdle (log ++ [event]) key lastSeen := by
  obtain ⟨earlier, evaluation, between, rfl, establishes, undeleted, chain, last⟩ := explained
  refine ⟨earlier, evaluation, between ++ [event], by simp, establishes, ?_, ?_⟩
  · simpa [undeleted] using fun same => kept same.symm
  · simpa [untouched] using ⟨chain, last⟩

/-- An evaluation that uses the key in time. -/
theorem Explained.used (explained : Explained host maxIdle log key lastSeen)
    {evaluation : Evaluation} {time : Time}
    (touched : (ConntrackEvent.evaluated evaluation).touch key = some time)
    (inTime : elapsed lastSeen time ≤ maxIdle) :
    Explained host maxIdle (log ++ [.evaluated evaluation]) key time := by
  obtain ⟨earlier, first, between, rfl, establishes, undeleted, chain, last⟩ := explained
  refine ⟨earlier, first, between ++ [.evaluated evaluation], by simp, establishes, ?_, ?_⟩
  · simpa using undeleted
  · rw [filterMap_append, ← cons_append]
    simp only [filterMap_cons, touched, filterMap_nil]
    refine ⟨chain.append (isChain_singleton _) ?_, getLast?_concat⟩
    simpa [last] using inTime

theorem explained_new {evaluation : Evaluation} (establishes : evaluation.Establishes host key) :
    Explained host maxIdle (log ++ [.evaluated evaluation]) key evaluation.added :=
  ⟨log, evaluation, [], rfl, establishes, by simp, by simp, by simp⟩

end Explained

/-- The reply key of every evaluation in the log that established one is in the table, if its
endpoint was not deleted since and the clock has not run on for too long since. -/
def Promised (maxIdle : Int) (log : List ConntrackEvent)
    (entries : AList fun _ : ConntrackKey => Time) : Prop :=
  ∀ earlier evaluation between, log = earlier ++ .evaluated evaluation :: between →
    evaluation.decision.established = true → .deleted evaluation.endpointID ∉ between →
    (∀ time ∈ between.flatMap ConntrackEvent.readings,
      evaluation.added ≤ time ∧ elapsed evaluation.added time ≤ maxIdle) →
    ∃ lastSeen, entries.lookup
        (reverseConntrackKey evaluation.endpointID evaluation.packet) = some lastSeen ∧
      evaluation.added ≤ lastSeen

/-- The table holds nothing the log does not explain, and all that the log promises. -/
structure Accounted (host : Endian) (maxIdle : Int) (s : Session) : Prop where
  timeout : s.store.maxIdle = maxIdle
  explained : ∀ key lastSeen, s.store.entries.lookup key = some lastSeen →
    lastSeen ≠ 0 ∧ Explained host maxIdle s.log key lastSeen
  promised : Promised maxIdle s.log s.store.entries

theorem accounted_new (host : Endian) (maxIdle : Int) : Accounted host maxIdle (.new maxIdle) :=
  ⟨rfl, by simp [Session.new, InMemoryConntrackStore.new], by simp [Promised, Session.new]⟩

theorem elapsed_le_of_le {first second now : Int} (le : first ≤ second) :
    elapsed second now ≤ elapsed first now := by
  unfold elapsed
  omega

variable {now : Time}

theorem inTime_of_not_expired {lastSeen : Time} {maxIdle : Int} (positive : 0 < maxIdle)
    (set : lastSeen ≠ 0) (fresh : conntrackEntryExpired lastSeen now maxIdle = false) :
    elapsed lastSeen now ≤ maxIdle := by
  simpa [conntrackEntryExpired, positive, set] using fresh

theorem not_expired_of_inTime {lastSeen : Time} {maxIdle : Int}
    (inTime : elapsed lastSeen now ≤ maxIdle) :
    conntrackEntryExpired lastSeen now maxIdle = false := by
  simp [conntrackEntryExpired, Int.not_lt.mpr inTime]

variable {host : Endian} {maxIdle : Int} {endpointID : String} {entries : List PolicyMapEntry}
  {packet : Packet} {searched added : Time}

/-- The table after an event keeps every key that was used since the given time, unless the
clock or a deletion says otherwise. -/
def Survives (maxIdle : Int) (event : ConntrackEvent)
    (entries entries' : AList fun _ : ConntrackKey => Time) : Prop :=
  ∀ key since lastSeen, entries.lookup key = some lastSeen → since ≤ lastSeen →
    (∀ time ∈ event.readings, since ≤ time ∧ elapsed since time ≤ maxIdle) →
    event ≠ .deleted key.endpointID →
    ∃ lastSeen', entries'.lookup key = some lastSeen' ∧ since ≤ lastSeen'

theorem Promised.append {log : List ConntrackEvent} {event : ConntrackEvent}
    {entries entries' : AList fun _ : ConntrackKey => Time} (promised : Promised maxIdle log entries)
    (survives : Survives maxIdle event entries entries')
    (new : ∀ evaluation, event = .evaluated evaluation → evaluation.decision.established →
      ∃ lastSeen, entries'.lookup
          (reverseConntrackKey evaluation.endpointID evaluation.packet) = some lastSeen ∧
        evaluation.added ≤ lastSeen) :
    Promised maxIdle (log ++ [event]) entries' := by
  intro earlier evaluation between split established undeleted inTime
  rcases eq_nil_or_concat' between with rfl | ⟨before, last, rfl⟩
  · -- The evaluation is the event itself.
    obtain ⟨-, same⟩ := append_inj' split rfl
    exact new evaluation (cons.inj same).1 established
  · rw [← cons_append, ← append_assoc] at split
    obtain ⟨front, same⟩ := append_inj' split rfl
    obtain rfl := (cons.inj same).1
    simp only [mem_append, mem_singleton, not_or] at undeleted
    obtain ⟨lastSeen, held, le⟩ := promised earlier evaluation before front established undeleted.1
      fun time inside => inTime time (by simp [inside])
    exact survives _ evaluation.added lastSeen held le
      (fun time inside => inTime time (by simp [inside])) fun same => undeleted.2 same.symm

theorem fresh_of_since {s : InMemoryConntrackStore} {key : ConntrackKey} {since lastSeen : Time}
    (held : s.entries.lookup key = some lastSeen) (le : since ≤ lastSeen)
    (inTime : elapsed since now ≤ s.maxIdle) : Fresh s key now :=
  ⟨lastSeen, held, not_expired_of_inTime ((elapsed_le_of_le le).trans inTime)⟩

/-- A miss removes at most the key that was searched for, if it was idle for too long. -/
theorem lookup_missed {s : InMemoryConntrackStore} {searchedKey : ConntrackKey}
    (stale : endpointID ≠ "" → ¬ Fresh s searchedKey searched) (key : ConntrackKey) :
    (missed endpointID s searchedKey).entries.lookup key = s.entries.lookup key ∨
      (missed endpointID s searchedKey).entries.lookup key = none ∧ ¬ Fresh s key searched := by
  unfold missed
  split
  · exact .inl rfl
  · next named =>
    by_cases same : key = searchedKey
    · subst same
      exact .inr ⟨lookup_erase _ _, stale named⟩
    · exact .inl (lookup_erase_ne same)

section Outcome

variable {s : InMemoryConntrackStore} {outcome : Decision × InMemoryConntrackStore}
  (evaluated : Evaluated host endpointID entries packet searched added s outcome)

include evaluated

/-- What an evaluation does to a key: it leaves it for a reply, finds it in time, or does not use
it, and then at most removes it because it was idle for too long. -/
theorem Evaluated.lookup_cases (key : ConntrackKey) :
    (outcome.2.entries.lookup key = some added ∧ Evaluation.Establishes host key
      ⟨endpointID, entries, packet, searched, added, outcome.1⟩) ∨
    (outcome.2.entries.lookup key = some searched ∧ Fresh s key searched ∧
      (ConntrackEvent.evaluated ⟨endpointID, entries, packet, searched, added, outcome.1⟩).touch key =
        some searched) ∨
    (ConntrackEvent.evaluated ⟨endpointID, entries, packet, searched, added, outcome.1⟩).touch key =
        none ∧
      (outcome.2.entries.lookup key = s.entries.lookup key ∨
        outcome.2.entries.lookup key = none ∧ ¬ Fresh s key searched) := by
  obtain ⟨noConntrack, notEstablished⟩ := evaluate_flags host entries packet
  cases evaluated with
  | blocked blocks =>
    exact .inr (.inr ⟨by simp [ConntrackEvent.touch, noConntrack, notEstablished], .inl rfl⟩)
  | found passes named fresh =>
    by_cases same : key = conntrackKey endpointID packet
    · subst same
      exact .inr (.inl ⟨lookup_insert _, fresh, by simp [ConntrackEvent.touch]⟩)
    · refine .inr (.inr ⟨?_, .inl (lookup_insert_ne same)⟩)
      simpa [ConntrackEvent.touch] using Ne.symm same
  | established passes named stale entry matched allows stateful =>
    by_cases same : key = reverseConntrackKey endpointID packet
    · subst same
      exact .inl ⟨lookup_insert _, rfl, allows, rfl, ⟨entry, selectEntry_of_matched matched, stateful⟩,
        rfl⟩
    · refine .inr (.inr ⟨by simpa [ConntrackEvent.touch, noConntrack] using Ne.symm same, ?_⟩)
      rw [InMemoryConntrackStore.add, lookup_insert_ne same]
      exact lookup_missed (fun _ => stale) key
  | plain passes stale =>
    exact .inr (.inr ⟨by simp [ConntrackEvent.touch, noConntrack, notEstablished],
      lookup_missed stale key⟩)

theorem Evaluated.survives :
    Survives s.maxIdle (.evaluated ⟨endpointID, entries, packet, searched, added, outcome.1⟩)
      s.entries outcome.2.entries := by
  intro key since lastSeen held le inTime _
  have searchedIn := inTime searched (by simp [ConntrackEvent.readings])
  have addedIn := inTime added (by simp [ConntrackEvent.readings])
  rcases evaluated.lookup_cases key with ⟨left, _⟩ | ⟨found, _⟩ | ⟨_, same | ⟨_, stale⟩⟩
  · exact ⟨added, left, addedIn.1⟩
  · exact ⟨searched, found, searchedIn.1⟩
  · exact ⟨lastSeen, same.trans held, le⟩
  · exact absurd (fresh_of_since held le searchedIn.2) stale

theorem Evaluated.maxIdle_eq : outcome.2.maxIdle = s.maxIdle := by
  have missed_maxIdle : ∀ key, (missed endpointID s key).maxIdle = s.maxIdle := by
    intro key
    unfold missed
    split <;> rfl
  cases evaluated with
  | blocked _ => rfl
  | found _ _ _ => rfl
  | established _ _ _ _ _ _ _ | plain _ _ => exact missed_maxIdle _

/-- An evaluation that finds its key: the entry was in time, and nothing blocked the packet. -/
theorem Evaluated.conntrack_iff : outcome.1.conntrack ↔
    Dataplane.blocked host entries packet = false ∧ endpointID ≠ "" ∧
      Fresh s (conntrackKey endpointID packet) searched := by
  have noConntrack := (evaluate_flags host entries packet).1
  cases evaluated with
  | blocked blocks => simp [noConntrack, blocks]
  | found passes named fresh => simp [passes, named, fresh]
  | established passes named stale _ _ _ _ => simp [noConntrack, stale]
  | plain passes stale => simpa [noConntrack] using fun _ named => stale named

theorem Evaluated.verdict_of_conntrack (found : outcome.1.conntrack) :
    outcome.1.verdict = .allow := by
  have noConntrack := (evaluate_flags host entries packet).1
  cases evaluated with
  | found _ _ _ => rfl
  | blocked _ | established _ _ _ _ _ _ _ | plain _ _ => simp [noConntrack] at found

/-- An evaluation that establishes a connection names its endpoint and leaves the reply key. -/
theorem Evaluated.of_established (established : outcome.1.established) :
    endpointID ≠ "" ∧
      outcome.2.entries.lookup (reverseConntrackKey endpointID packet) = some added := by
  have notEstablished := (evaluate_flags host entries packet).2
  cases evaluated with
  | established _ named _ _ _ _ _ => exact ⟨named, lookup_insert _⟩
  | found _ _ _ => simp at established
  | blocked _ | plain _ _ => simp [notEstablished] at established

end Outcome

/-- What the table holds after an evaluation is explained by the log with it. -/
theorem Accounted.explained_evaluate {s : Session} (accounted : Accounted host maxIdle s)
    (positive : 0 < maxIdle) (searchedSet : searched ≠ 0) (addedSet : added ≠ 0)
    {outcome : Decision × InMemoryConntrackStore}
    (evaluated : Evaluated host endpointID entries packet searched added s.store outcome)
    {key : ConntrackKey} {lastSeen : Time} (found : outcome.2.entries.lookup key = some lastSeen) :
    lastSeen ≠ 0 ∧ Explained host maxIdle (s.log ++
      [.evaluated ⟨endpointID, entries, packet, searched, added, outcome.1⟩]) key lastSeen := by
  rcases evaluated.lookup_cases key with
    ⟨left, establishes⟩ | ⟨used, ⟨before, held, fresh⟩, touched⟩ | ⟨untouched, same | ⟨gone, _⟩⟩
  · cases left.symm.trans found
    exact ⟨addedSet, explained_new establishes⟩
  · -- The key is used now, and it was not idle for too long.
    cases used.symm.trans found
    obtain ⟨set, explained⟩ := accounted.explained key before held
    rw [accounted.timeout] at fresh
    exact ⟨searchedSet, explained.used touched (inTime_of_not_expired positive set fresh)⟩
  · obtain ⟨set, explained⟩ := accounted.explained key lastSeen (same.symm.trans found)
    exact ⟨set, explained.other untouched (by simp)⟩
  · cases gone.symm.trans found

theorem accounted_run (positive : 0 < maxIdle) {s : Session}
    (accounted : Accounted host maxIdle s) (call : ConntrackCall)
    (set : ∀ time ∈ call.readings, time ≠ 0) : Accounted host maxIdle (s.run host call) := by
  cases call with
  | evaluate endpointID entries packet searched added =>
    have searchedSet := set searched (by simp [ConntrackCall.readings])
    have addedSet := set added (by simp [ConntrackCall.readings])
    have evaluated := evaluated_evaluateStateful host endpointID entries packet searched added s.store
    refine ⟨evaluated.maxIdle_eq.trans accounted.timeout, fun key lastSeen found =>
      accounted.explained_evaluate positive searchedSet addedSet evaluated found,
      accounted.promised.append ?_ ?_⟩
    · rw [← accounted.timeout]
      exact evaluated.survives
    · rintro evaluation same established
      obtain rfl := (ConntrackEvent.evaluated.inj same)
      exact ⟨added, (evaluated.of_established established).2, le_refl _⟩
  | deleteEndpoint endpointID =>
    refine ⟨accounted.timeout, fun key lastSeen found => ?_, accounted.promised.append ?_ (by simp)⟩
    · simp only [Session.run, InMemoryConntrackStore.deleteEndpoint, lookup_keep,
        Option.filter_eq_some_iff, decide_eq_true_eq] at found
      obtain ⟨nonzero, explained⟩ := accounted.explained key lastSeen found.1
      exact ⟨nonzero, explained.other rfl fun same =>
        found.2 (ConntrackEvent.deleted.inj same).symm⟩
    · intro key since lastSeen held le _ other
      refine ⟨lastSeen, ?_, le⟩
      simp only [Session.run, InMemoryConntrackStore.deleteEndpoint, lookup_keep,
        Option.filter_eq_some_iff, decide_eq_true_eq]
      exact ⟨held, fun same => other (by rw [same])⟩
  | sweepIdle now =>
    have swept : ((s.store.sweepIdle s.store.maxIdle now).2).entries =
        keep (fun _ lastSeen => !conntrackEntryExpired lastSeen now maxIdle) s.store.entries ∧
        (s.store.sweepIdle s.store.maxIdle now).2.maxIdle = maxIdle := by
      rw [accounted.timeout, InMemoryConntrackStore.sweepIdle, if_neg (by omega)]
      exact ⟨rfl, accounted.timeout⟩
    refine ⟨swept.2, fun key lastSeen found => ?_, accounted.promised.append ?_ (by simp)⟩
    · simp only [Session.run, swept.1, lookup_keep, Option.filter_eq_some_iff] at found
      obtain ⟨nonzero, explained⟩ := accounted.explained key lastSeen found.1
      exact ⟨nonzero, explained.other rfl (by simp)⟩
    · intro key since lastSeen held le inTime _
      refine ⟨lastSeen, ?_, le⟩
      have nowIn := inTime now (by simp [ConntrackEvent.readings])
      simp only [Session.run, swept.1, lookup_keep, Option.filter_eq_some_iff]
      exact ⟨held, by rw [not_expired_of_inTime ((elapsed_le_of_le le).trans nowIn.2)]; rfl⟩

/-! ### The log of a run -/

/-- The event a call adds to the log. -/
def Session.event (host : Endian) (s : Session) : ConntrackCall → ConntrackEvent
  | .evaluate endpointID entries packet searched added =>
    .evaluated ⟨endpointID, entries, packet, searched, added,
      (evaluateStateful host endpointID entries packet searched added s.store).1⟩
  | .deleteEndpoint endpointID => .deleted endpointID
  | .sweepIdle now => .swept now

theorem log_run (host : Endian) (s : Session) (call : ConntrackCall) :
    (s.run host call).log = s.log ++ [s.event host call] := by
  cases call <;> rfl

variable {calls : List ConntrackCall}

/-- An event in the log of a run was made by a call in a state of the run whose log is what
stands before the event. -/
theorem exists_call_of_log {before rest : List ConntrackEvent} {event : ConntrackEvent}
    (split : (Runs.after (Session.run host) (.new maxIdle) calls).log = before ++ event :: rest) :
    ∃ earlier call later, calls = earlier ++ call :: later ∧
      (Runs.after (Session.run host) (.new maxIdle) earlier).log = before ∧
      (Runs.after (Session.run host) (.new maxIdle) earlier).event host call = event := by
  induction calls using reverseRecOn generalizing rest with
  | nil => simp [Session.new] at split
  | append_singleton calls call ih =>
    rw [after_append, after_cons, after_nil, log_run] at split
    rcases eq_nil_or_concat' rest with rfl | ⟨front, last, rfl⟩
    · obtain ⟨same, single⟩ := append_inj' split rfl
      exact ⟨calls, call, [], rfl, same, (cons.inj single).1⟩
    · rw [← cons_append, ← append_assoc] at split
      obtain ⟨same, -⟩ := append_inj' split rfl
      obtain ⟨earlier, made, later, rfl, log, isEvent⟩ := ih same
      exact ⟨earlier, made, later ++ [call], by simp, log, isEvent⟩

/-- An evaluation in the log, as the table before it decided it. -/
theorem exists_evaluated_of_log {before rest : List ConntrackEvent} {evaluation : Evaluation}
    (split : (Runs.after (Session.run host) (.new maxIdle) calls).log =
      before ++ .evaluated evaluation :: rest) :
    ∃ earlier later store, calls = earlier ++ later ∧
      (Runs.after (Session.run host) (.new maxIdle) earlier).log = before ∧
      Evaluated host evaluation.endpointID evaluation.entries evaluation.packet
        evaluation.searched evaluation.added
        (Runs.after (Session.run host) (.new maxIdle) earlier).store
        (evaluation.decision, store) := by
  obtain ⟨earlier, call, later, rfl, log, isEvent⟩ := exists_call_of_log split
  cases call with
  | deleteEndpoint _ | sweepIdle _ => cases isEvent
  | evaluate endpointID entries packet searched added =>
    obtain rfl := ConntrackEvent.evaluated.inj isEvent
    exact ⟨earlier, _, _, rfl, log, evaluated_evaluateStateful ..⟩

theorem readings_log :
    (Runs.after (Session.run host) (.new maxIdle) calls).log.flatMap ConntrackEvent.readings =
      calls.flatMap ConntrackCall.readings := by
  induction calls using reverseRecOn with
  | nil => rfl
  | append_singleton calls call ih =>
    rw [after_append, after_cons, after_nil, log_run, flatMap_append,
      flatMap_append, ih]
    cases call <;> rfl

theorem accounted_after (positive : 0 < maxIdle)
    (set : ∀ time ∈ calls.flatMap ConntrackCall.readings, time ≠ 0) :
    Accounted host maxIdle (Runs.after (Session.run host) (.new maxIdle) calls) := by
  refine after_invariant (fun call inside s accounted => ?_) (accounted_new host maxIdle)
  exact accounted_run positive accounted call fun time reading =>
    set time (mem_flatMap.mpr ⟨call, inside, reading⟩)

/-! ### Replies -/

/-- Echo request and echo reply, for ICMP and ICMPv6. -/
def swapEcho (protocol icmpType : BitVec 8) : BitVec 8 :=
  if protocol = 1 then (if icmpType = 8 then 0 else if icmpType = 0 then 8 else icmpType)
  else (if icmpType = 128 then 129 else if icmpType = 129 then 128 else icmpType)

/-- The reply to a packet: direction and ports are swapped, and so are the types of an echo. -/
structure IsReply (packet reply : Packet) : Prop where
  direction : reply.direction = reverseDirection packet.direction
  sourcePort : reply.sourcePort = packet.destPort
  destPort : reply.destPort = packet.sourcePort
  remoteIP : reply.remoteIP = packet.remoteIP
  remoteIdentity : reply.remoteIdentity = packet.remoteIdentity
  protocol : reply.protocol = packet.protocol
  icmp : isICMPProtocol packet.protocol = true →
    reply.icmpType = swapEcho packet.protocol packet.icmpType ∧ reply.icmpCode = packet.icmpCode

/-- Packets whose reply key has the reply's ports. -/
def Answerable (packet : Packet) : Prop :=
  (isICMPProtocol packet.protocol = true ∧ packet.sourcePort = 0 ∧ packet.destPort = 0) ∨
    packet.sourcePort ≠ 0

theorem reverseConntrackICMP_eq (protocol icmpType icmpCode : BitVec 8) :
    reverseConntrackICMP protocol icmpType icmpCode =
      conntrackICMP protocol (swapEcho protocol icmpType) icmpCode := by
  unfold reverseConntrackICMP conntrackICMP swapEcho
  cases icmp : isICMPProtocol protocol with
  | false => simp
  | true =>
    simp only [isICMPProtocol, Bool.or_eq_true, decide_eq_true_eq] at icmp
    rcases icmp with rfl | rfl <;> (simp; split_ifs <;> simp_all)

theorem conntrackKey_reply {reply : Packet} (isReply : IsReply packet reply)
    (answerable : Answerable packet) (endpointID : String) :
    conntrackKey endpointID reply = reverseConntrackKey endpointID packet := by
  have icmp : conntrackICMP packet.protocol reply.icmpType reply.icmpCode =
      reverseConntrackICMP packet.protocol packet.icmpType packet.icmpCode := by
    rw [reverseConntrackICMP_eq]
    cases isICMP : isICMPProtocol packet.protocol with
    | false => simp [conntrackICMP, isICMP]
    | true => rw [(isReply.icmp isICMP).1, (isReply.icmp isICMP).2]
  have port : reply.destPort =
      if packet.sourcePort = 0 then packet.destPort else packet.sourcePort := by
    rw [isReply.destPort]
    rcases answerable with ⟨-, source, dest⟩ | source
    · rw [if_pos source, source, dest]
    · rw [if_neg source]
  simp [conntrackKey, reverseConntrackKey, icmp, port, isReply.direction, isReply.sourcePort,
      isReply.remoteIP, isReply.remoteIdentity, isReply.protocol]

theorem elapsed_le_of_now_le {since now later : Int} (le : now ≤ later) :
    elapsed since now ≤ elapsed since later := by
  unfold elapsed
  omega

/-- Stateful evaluation over any run of evaluations, deletions and sweeps, on a clock that
does not go back and never reads the zero time. A packet is allowed by the table only if an
earlier evaluation allowed, by a stateful entry, a packet whose reply key is the packet's
key, its endpoint was not deleted since, the key was not idle for longer than allowed from
one use to the next, and no entry that denies or rejects is selected. And the reply to a
packet that established a connection is allowed while the connection is not idle for too
long, its endpoint is not deleted and no entry that denies or rejects is selected. -/
theorem stateful_evaluation_over_runs (host : Endian) {maxIdle : Int} (positive : 0 < maxIdle)
    (calls : List ConntrackCall) (set : ∀ time ∈ calls.flatMap ConntrackCall.readings, time ≠ 0)
    (monotone : (calls.flatMap ConntrackCall.readings).Pairwise (· ≤ ·)) :
    (∀ before evaluation rest,
      (Runs.after (Session.run host) (.new maxIdle) calls).log =
        before ++ .evaluated evaluation :: rest →
      evaluation.decision.conntrack = true →
      blocked host evaluation.entries evaluation.packet = false ∧
      ∃ earlier first between, before = earlier ++ .evaluated first :: between ∧
        first.Establishes host (conntrackKey evaluation.endpointID evaluation.packet) ∧
        .deleted evaluation.endpointID ∉ between ∧
        List.IsChain (fun previous next => elapsed previous next ≤ maxIdle)
          (first.added :: (between.filterMap (ConntrackEvent.touch
            (conntrackKey evaluation.endpointID evaluation.packet)) ++ [evaluation.searched]))) ∧
    ∀ earlier first between reply rest,
      (Runs.after (Session.run host) (.new maxIdle) calls).log =
        earlier ++ .evaluated first :: between ++ .evaluated reply :: rest →
      first.decision.established = true → reply.endpointID = first.endpointID →
      IsReply first.packet reply.packet → Answerable first.packet →
      .deleted first.endpointID ∉ between →
      elapsed first.added reply.searched ≤ maxIdle →
      blocked host reply.entries reply.packet = false →
      reply.decision.verdict = .allow := by
  constructor
  · intro before evaluation rest split found
    obtain ⟨made, later, store, rfl, log, evaluated⟩ := exists_evaluated_of_log split
    have accounted : Accounted host maxIdle (Runs.after (Session.run host) (.new maxIdle) made) :=
      accounted_after positive fun time reading => set time (by simp [reading])
    obtain ⟨passes, -, lastSeen, held, inTime⟩ := evaluated.conntrack_iff.mp found
    obtain ⟨nonzero, earlier, first, between, split', establishes, undeleted, chain, last⟩ :=
      accounted.explained _ lastSeen held
    rw [accounted.timeout] at inTime
    refine ⟨passes, earlier, first, between, log.symm.trans split', establishes, undeleted, ?_⟩
    rw [← cons_append]
    refine chain.append (isChain_singleton _) ?_
    simpa [last] using inTime_of_not_expired positive nonzero inTime
  · intro earlier first between reply rest split established sameEndpoint isReply answerable
      undeleted inTime passes
    have ordered : ((earlier ++ .evaluated first :: between ++ .evaluated reply :: rest).flatMap
        ConntrackEvent.readings).Pairwise (· ≤ ·) := by
      rw [← split, readings_log]
      exact monotone
    -- The clock readings in between are after the first packet's and before the reply's.
    have inBetween : ∀ time ∈ between.flatMap ConntrackEvent.readings,
        first.added ≤ time ∧ time ≤ reply.searched := by
      intro time reading
      simp only [flatMap_append, flatMap_cons, ConntrackEvent.readings, pairwise_append] at ordered
      obtain ⟨⟨-, ⟨-, -, first_le⟩, -⟩, -, le_reply⟩ := ordered
      exact ⟨first_le first.added (by simp) time reading,
        le_reply time (by simp [reading]) reply.searched (by simp)⟩
    have named : first.endpointID ≠ "" := by
      rw [append_assoc, cons_append] at split
      obtain ⟨_, _, _, _, _, evaluated⟩ := exists_evaluated_of_log split
      exact (evaluated.of_established established).1
    obtain ⟨made, later, store, rfl, log, evaluated⟩ := exists_evaluated_of_log split
    have accounted : Accounted host maxIdle (Runs.after (Session.run host) (.new maxIdle) made) :=
      accounted_after positive fun time reading => set time (by simp [reading])
    obtain ⟨lastSeen, held, le⟩ := accounted.promised earlier first between log established undeleted
      fun time reading => ⟨(inBetween time reading).1,
        (elapsed_le_of_now_le (inBetween time reading).2).trans inTime⟩
    refine evaluated.verdict_of_conntrack (evaluated.conntrack_iff.mpr
      ⟨passes, sameEndpoint ▸ named, ?_⟩)
    rw [conntrackKey_reply isReply answerable, sameEndpoint]
    exact fresh_of_since held le (by rw [accounted.timeout]; exact inTime)

/-! ### A connection -/

/-- Allows egress TCP and tracks the connections. -/
def statefulEgress : PolicyMapEntry where
  key := { prefixLen := 48, direction := 2, protocol := 6 }
  value := { l4PrefixLen := 8, stateful := 1, precedence := 100, ruleCookie := 7 }
  ruleRef := "web/egress"

def outbound : Packet where
  sourcePort := 40000
  remoteIP := .v4 0xC0000201
  direction := 2
  protocol := 6
  destPort := 443
  bytes := 60

def inbound : Packet := { outbound with sourcePort := 443, destPort := 40000, direction := 1 }

/-- `DefaultConntrackMaxIdle`. -/
def defaultConntrackMaxIdle : Int := 300 * Model.secondNanos

/-- A packet at one time and its reply at another. -/
def connection (opened answered : Time) : List ConntrackCall :=
  [.evaluate "prod/web" [statefulEgress] outbound opened opened,
    .evaluate "prod/web" [statefulEgress] inbound answered answered]

/-- On a clock that starts at the zero time the reply is allowed an hour later, long after
the idle timeout. -/
theorem zero_time_never_expires :
    ∃ first reply, (Runs.after (Session.run .little) (.new defaultConntrackMaxIdle)
        (connection 0 (3600 * Model.secondNanos))).log = [.evaluated first, .evaluated reply] ∧
      reply.decision.conntrack = true ∧
      defaultConntrackMaxIdle < elapsed first.added reply.searched :=
  ⟨_, _, rfl, by decide, by decide⟩

theorem reply_within_timeout :
    ∃ first reply, (Runs.after (Session.run .little) (.new defaultConntrackMaxIdle)
        (connection Model.secondNanos (61 * Model.secondNanos))).log =
          [.evaluated first, .evaluated reply] ∧
      reply.decision.verdict = .allow := by
  refine ⟨_, _, rfl, ?_⟩
  refine (stateful_evaluation_over_runs .little (by decide) (connection Model.secondNanos
    (61 * Model.secondNanos)) (by decide) (by decide)).2 [] _ [] _ [] rfl (by decide) rfl
    ⟨rfl, rfl, rfl, rfl, rfl, rfl, by decide⟩ (.inr (by decide)) (by simp) (by decide) (by decide)

end Netloom.Dataplane
