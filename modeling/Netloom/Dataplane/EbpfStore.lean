import Netloom.Lib.Stateful
import Netloom.Dataplane.PolicyPlan

/-!
# The eBPF policy store

The store keeps one kernel map per endpoint. With a pin root the maps are pinned
to files, with a metadata file next to each, and are updated in place; without
one every update fills a new map. Every operation on the kernel or on a file,
and every look at the context, may fail: the faults of a run are given in
advance, and an operation that fails has no effect.
-/
namespace Netloom.Dataplane

open Model (Time)

/-! ### Kernel maps and files -/

/-- A kernel map: the attributes that `validatePinnedMap` compares, the type, the sizes
and the flags as one flag, and the content. -/
structure KernelMap where
  maxEntries : BitVec 32
  expectedShape : Bool
  content : AList fun _ : PolicyKey => PolicyEntry

structure PolicyMapMetadata where
  endpointID : String
  schemaVersion : BitVec 32
  maxEntries : BitVec 32
  deriving DecidableEq, Repr

/-- Kernel maps by their number, pins and metadata files by their path; a metadata file
that cannot be decoded is `none`. `faults` says which of the operations to come fail and
with which text. `writes` lists what each write or deletion left in its map. -/
structure Host where
  maps : AList fun _ : Nat => KernelMap
  pins : AList fun _ : String => Nat
  metadata : AList fun _ : String => Option PolicyMapMetadata
  faults : List (Option String)
  writes : List (Nat × AList fun _ : PolicyKey => PolicyEntry)

inductive PolicyMapOverflowAction where
  | reject
  | clear
  deriving DecidableEq, Repr

def defaultPolicyMapSchemaVersion : BitVec 32 := 2

/-- What a store is set up with. The paths of an endpoint's map and metadata are made of
the roots and of a hash of the endpoint's name. -/
structure StoreSettings where
  maxEntries : BitVec 32
  pinRoot : String
  schema : BitVec 32
  overflow : PolicyMapOverflowAction
  mapPath : String → String
  metadataPath : String → String
  nonzero : maxEntries ≠ 0

structure EBPFPolicyStore where
  maps : AList fun _ : String => Nat
  entries : AList fun _ : String => List PolicyMapEntry
  lastStats : AList fun _ : String => PolicyUpdateStats
  lastSeen : AList fun _ : String => Time
  revisions : AList fun _ : String => BitVec 64
  events : List PolicyUpdateEvent

/-- A store on a host. -/
structure System where
  store : EBPFPolicyStore
  host : Host

abbrev StoreM := EStateM PolicyError System

def EBPFPolicyStore.cached (store : EBPFPolicyStore) (endpointID : String) : List PolicyMapEntry :=
  (store.entries.lookup endpointID).getD []

def EBPFPolicyStore.revision (store : EBPFPolicyStore) (endpointID : String) : BitVec 64 :=
  (store.revisions.lookup endpointID).getD 0

/-! ### Operations that may fail -/

/-- The next operation: it takes its fault, if it has one. -/
def attempt : StoreM Unit := fun sys =>
  match sys.host.faults with
  | [] => .ok () sys
  | none :: rest => .ok () { sys with host.faults := rest }
  | some text :: rest => .error { message := text } { sys with host.faults := rest }

/-- `ctx.Err()`. -/
def checkContext : StoreM Unit := attempt

def Host.setContent (host : Host) (m : Nat) (kernelMap : KernelMap)
    (content : AList fun _ : PolicyKey => PolicyEntry) : Host :=
  { host with
    maps := host.maps.insert m { kernelMap with content }
    writes := host.writes ++ [(m, content)] }

def System.setContent (sys : System) (m : Nat) (kernelMap : KernelMap)
    (content : AList fun _ : PolicyKey => PolicyEntry) : System :=
  { sys with host := sys.host.setContent m kernelMap content }

/-- `Map.Put`: a full map takes no new key. -/
def mapPut (m : Nat) (key : PolicyKey) (value : PolicyEntry) : StoreM Unit := do
  attempt
  let sys ← get
  match sys.host.maps.lookup m with
  | none => throw { message := "bad file descriptor" }
  | some kernelMap =>
    if kernelMap.content.lookup key = none ∧
        kernelMap.maxEntries.toNat ≤ kernelMap.content.entries.length then
      throw { message := "no space left on device" }
    else set (sys.setContent m kernelMap (kernelMap.content.insert key value))

/-- `Map.Delete`: the key must be present. -/
def mapDelete (m : Nat) (key : PolicyKey) : StoreM Unit := do
  attempt
  let sys ← get
  match sys.host.maps.lookup m with
  | none => throw { message := "bad file descriptor" }
  | some kernelMap =>
    if kernelMap.content.lookup key = none then throw { message := "key does not exist" }
    else set (sys.setContent m kernelMap (kernelMap.content.erase key))

/-- The entries an iteration over the map visits. -/
def readPolicyMapEntries (m : Nat) : StoreM (List (Sigma fun _ : PolicyKey => PolicyEntry)) := do
  attempt
  match (← get).host.maps.lookup m with
  | none => throw { message := "bad file descriptor" }
  | some kernelMap => pure kernelMap.content.entries

/-- `clearMap`: each entry the iteration visits is deleted. -/
def clearMap (m : Nat) : StoreM Unit := do
  let entries ← readPolicyMapEntries m
  entries.forM fun entry => mapDelete m entry.1
  attempt

def populatePolicyMap (m : Nat) (entries : List PolicyMapEntry) : StoreM Unit :=
  entries.forM fun entry => do
    checkContext
    mapPut m entry.key entry.value

/-- A number no map has. -/
def Host.freshMap (host : Host) : Nat := host.maps.keys.foldr max 0 + 1

variable (settings : StoreSettings) (path : String)

/-- `ebpf.NewMap(s.policyMapSpec())`. -/
def newMap : StoreM Nat := do
  attempt
  let sys ← get
  let m := sys.host.freshMap
  set { sys with
    host.maps := sys.host.maps.insert m
      { maxEntries := settings.maxEntries, expectedShape := true, content := ∅ } }
  pure m

/-- `Map.Pin`. -/
def pinMap (m : Nat) (path : String) : StoreM Unit := do
  attempt
  modify fun sys => { sys with host.pins := sys.host.pins.insert path m }

/-- `os.Remove` of a pin; a missing file is no error. -/
def removePin : StoreM Unit := do
  attempt
  modify fun sys => { sys with host.pins := sys.host.pins.erase path }

/-- `os.Remove` of a metadata file; a missing file is no error. -/
def removeMetadata : StoreM Unit := do
  attempt
  modify fun sys => { sys with host.metadata := sys.host.metadata.erase path }

/-- Wraps the error of a computation. -/
def wrapping (text : String) {α : Type} (body : StoreM α) : StoreM α :=
  tryCatch body fun err => throw (err.wrap text)

/-- Runs a computation for its effect and returns its error instead of failing. -/
def ignoring (body : StoreM Unit) : StoreM (Option PolicyError) :=
  tryCatch (do body; pure none) fun err => pure (some err)

def ensurePinRoot : StoreM Unit :=
  wrapping s!"create eBPF map pin root {settings.pinRoot}" attempt

/-- `writeMapMetadata` without the time of the update, which nothing reads. -/
def writeMapMetadata (endpointID : String) : StoreM Unit := do
  wrapping s!"create policy map metadata root for {path}" attempt
  wrapping s!"write policy map metadata to {path}" attempt
  modify fun sys => { sys with
    host.metadata := sys.host.metadata.insert path
      (some { endpointID, schemaVersion := settings.schema, maxEntries := settings.maxEntries }) }

/-- `removePinnedMap`: every removal is tried, and an error is returned at the end. The
error of `Close` takes the place of an earlier one. -/
def removePinnedMap (m : Option Nat) (mapPath metadataPath : String) : StoreM Unit := do
  let unpinned ← match m with
    | none => pure none
    | some _ => ignoring (wrapping s!"unpin eBPF policy map {mapPath}" (removePin mapPath))
  let closed ← match m with
    | none => pure none
    | some _ => ignoring (wrapping s!"close eBPF policy map {mapPath}" attempt)
  let pin ← ignoring (wrapping s!"unpin eBPF policy map {mapPath}" (removePin mapPath))
  let metadata ← ignoring
    (wrapping s!"remove policy map metadata {metadataPath}" (removeMetadata metadataPath))
  match (closed.or unpinned).or (pin.or metadata) with
  | none => pure ()
  | some err => throw err

/-! ### Preparing the map of an endpoint -/

variable (settings : StoreSettings) (endpointID : String) (m : Nat)

def createTransientPolicyMap (entries : List PolicyMapEntry) : StoreM Nat := do
  let next ← wrapping s!"create eBPF policy map for endpoint {endpointID}" (newMap settings)
  wrapping s!"write eBPF policy map for endpoint {endpointID}" (populatePolicyMap next entries)
  pure next

def createPinnedPolicyMap (mapPath metadataPath : String) : StoreM Nat := do
  wrapping s!"remove stale pinned map for endpoint {endpointID}" (removePin mapPath)
  wrapping s!"remove stale pinned policy metadata for endpoint {endpointID}"
    (removeMetadata metadataPath)
  let m ← wrapping s!"create eBPF policy map for endpoint {endpointID}" (newMap settings)
  wrapping s!"pin eBPF policy map for endpoint {endpointID} to {mapPath}" (pinMap m mapPath)
  tryCatch (writeMapMetadata settings metadataPath endpointID) fun err => do
    let _ ← ignoring (removePinnedMap (some m) mapPath metadataPath)
    throw err
  pure m

/-- `validatePinnedMap`, with `loadMapMetadata`. -/
def validatePinnedMap (endpointID metadataPath : String) : StoreM Unit := do
  wrapping "read eBPF policy map metadata" attempt
  match (← get).host.maps.lookup m with
  | none => throw { message := "bad file descriptor" }
  | some kernelMap =>
    if !kernelMap.expectedShape || kernelMap.maxEntries ≠ settings.maxEntries then
      throw { message := "pinned eBPF map schema mismatch" }
  attempt
  match (← get).host.metadata.lookup metadataPath with
  | none => throw { message := s!"load pinned policy map metadata from {metadataPath}: missing metadata" }
  | some none =>
    throw { message := s!"load pinned policy map metadata from {metadataPath}: decode policy map metadata" }
  | some (some metadata) =>
    if metadata.schemaVersion ≠ settings.schema || metadata.maxEntries ≠ settings.maxEntries then
      throw { message := "pinned eBPF map schema migration required" }
    else if metadata.endpointID ≠ "" && metadata.endpointID ≠ endpointID then
      throw { message := "pinned eBPF map endpoint identity mismatch" }

def loadPinnedPolicyMap (mapPath metadataPath : String) : StoreM (Option Nat) := do
  match (← get).host.pins.lookup mapPath with
  | none => pure none
  | some m =>
    wrapping s!"load pinned eBPF policy map from {mapPath}" attempt
    validatePinnedMap settings m endpointID metadataPath
    pure (some m)

def migratePinnedMap (mapPath metadataPath : String) : StoreM Unit :=
  wrapping s!"migrate pinned policy map for endpoint {endpointID}"
    (removePinnedMap none mapPath metadataPath)

/-- `policyMapDrifted`: the live entries against the desired ones. -/
def policyMapDrifted (desired : List PolicyMapEntry) : StoreM Bool := do
  let actual ← readPolicyMapEntries m
  let actualByKey := Fold.insertAll Sigma.fst Sigma.snd actual
  let desiredByKey := Fold.insertAll PolicyMapEntry.key PolicyMapEntry.value desired
  pure (actualByKey.entries.length ≠ desiredByKey.entries.length ||
    desiredByKey.entries.any fun entry => match actualByKey.lookup entry.1 with
      | none => true
      | some actualValue => !policyEntrySemanticsEqual actualValue entry.2)

/-- One operation of a plan on the map. -/
def applyToMap : PlanOperation → StoreM Unit
  | .put entry => do
    checkContext
    wrapping s!"write eBPF policy map for endpoint {endpointID}" (mapPut m entry.key entry.value)
  | .delete key => do
    checkContext
    wrapping s!"delete eBPF policy map key for endpoint {endpointID}" (mapDelete m key)

/-- The second half of `preparePolicyMapLocked`, for a map that is already there. -/
def updatePolicyMap (reloaded : Bool)
    (nextEntries oldEntries : List PolicyMapEntry) (plan : PolicyUpdatePlan) : StoreM Nat := do
  checkContext
  let drifted ← if !reloaded && !oldEntries.isEmpty then
      wrapping s!"inspect eBPF policy map for endpoint {endpointID}" (policyMapDrifted m nextEntries)
    else pure false
  if drifted then
    wrapping s!"clear drifted eBPF policy map for endpoint {endpointID}" (clearMap m)
    wrapping s!"rewrite drifted eBPF policy map for endpoint {endpointID}"
      (populatePolicyMap m nextEntries)
    pure m
  else
    if reloaded || oldEntries.isEmpty then
      wrapping s!"clear stale eBPF policy map for endpoint {endpointID}" (clearMap m)
    (plan.operations (policyUpdateSequence oldEntries.length plan settings.maxEntries
      (reloaded || oldEntries.isEmpty))).forM (applyToMap endpointID m)
    pure m

def preparePolicyMapLocked
    (nextEntries oldEntries : List PolicyMapEntry) (plan : PolicyUpdatePlan) : StoreM Nat := do
  if settings.pinRoot = "" then createTransientPolicyMap settings endpointID nextEntries
  else
    ensurePinRoot settings
    let path := settings.mapPath endpointID
    let metadataPath := settings.metadataPath endpointID
    match (← get).store.maps.lookup endpointID with
    | some m => updatePolicyMap settings endpointID m false nextEntries oldEntries plan
    | none =>
      let loaded ← tryCatch (loadPinnedPolicyMap settings endpointID path metadataPath) fun _ => do
        migratePinnedMap endpointID path metadataPath
        pure none
      match loaded with
      | some m => updatePolicyMap settings endpointID m true nextEntries oldEntries plan
      | none =>
        let m ← createPinnedPolicyMap settings endpointID path metadataPath
        tryCatch (populatePolicyMap m nextEntries) fun err => do
          let _ ← ignoring (removePinnedMap (some m) path metadataPath)
          throw err
        pure m

/-! ### Replacing the entries of an endpoint -/

def policyMapCapacityHotspotLimit : Nat := 5

/-- The rule an entry is counted for, by its reference or else by its cookie. -/
def hotspotRuleRef (entry : PolicyMapEntry) : Option String :=
  let ruleRef := Strings.trimSpace entry.ruleRef
  if ruleRef ≠ "" then some ruleRef
  else if entry.value.ruleCookie = 0 then none
  else some s!"cookie:{entry.value.ruleCookie.toNat}"

def policyMapCapacityHotspots (entries : List PolicyMapEntry) (limit : Nat) :
    List PolicyMapCapacityHotspot :=
  let ruleRefs := (entries.filterMap hotspotRuleRef).dedup
  let hotspots := ruleRefs.map fun ruleRef =>
    let keys := (entries.filter fun entry => hotspotRuleRef entry = some ruleRef).map
      PolicyMapEntry.key
    ({ ruleRef, entries := keys.dedup.length } : PolicyMapCapacityHotspot)
  (hotspots.insertionSort fun a b => a.entries > b.entries ∨
    (a.entries = b.entries ∧ a.ruleRef ≤ b.ruleRef)).take limit

def formatPolicyMapCapacityHotspots (hotspots : List PolicyMapCapacityHotspot) : String :=
  ",".intercalate (hotspots.map fun hotspot => s!"{hotspot.ruleRef}:{hotspot.entries}")

variable (settings : StoreSettings) (now : Time) (endpointID : String)

/-- `validatePolicyMapCapacity`: the error if there are more keys than the map has room
for. -/
def validatePolicyMapCapacity (entries : List PolicyMapEntry) : Option PolicyError :=
  let unique := (entries.map PolicyMapEntry.key).dedup.length
  if BitVec.ofNat 32 unique ≤ settings.maxEntries then none
  else
    let hotspots := policyMapCapacityHotspots entries policyMapCapacityHotspotLimit
    let text := s!"policy map capacity exceeded for endpoint {endpointID}: " ++
      s!"desired_entries={unique} capacity={settings.maxEntries.toNat}"
    some {
      message := if hotspots.isEmpty then text
        else text ++ " top_rules=" ++ formatPolicyMapCapacityHotspots hotspots
      capacity := some hotspots }

/-- `recordPolicyUpdateFailure` at the time `now`. -/
def recordFailure (previousRevision revision : BitVec 64) (stats : PolicyUpdateStats)
    (ruleCookies : List (BitVec 32)) (ruleRefs : List String) (desired : Nat) (err : PolicyError) :
    StoreM Unit :=
  modify fun sys => { sys with
    store.events := appendPolicyUpdateEvent sys.store.events
      (attachPolicyUpdateEventPressure {
        endpointID, previousRevision, revision
        occurredAt := now
        stats := { stats with revision }
        ruleCookies, ruleRefs
        capacityHotspots := policyMapCapacityHotspotsFromError err
        success := false
        failureReason := policyUpdateFailureReason err
        error := err.message } desired settings.maxEntries) }

/-- The books of an endpoint after an update. -/
def recordUpdate (entries : List PolicyMapEntry) (revision : BitVec 64) (stats : PolicyUpdateStats)
    (used : Nat) (event : PolicyUpdateEvent) : StoreM Unit :=
  modify fun sys => { sys with
    store.entries := sys.store.entries.insert endpointID entries
    store.revisions := sys.store.revisions.insert endpointID revision
    store.lastStats := sys.store.lastStats.insert endpointID stats
    store.lastSeen := sys.store.lastSeen.insert endpointID now
    store.events := appendPolicyUpdateEvent sys.store.events
      (attachPolicyUpdateEventPressure event used settings.maxEntries) }

def setMap (m : Nat) : StoreM Unit :=
  modify fun sys => { sys with store.maps := sys.store.maps.insert endpointID m }

def clearEndpointPolicyAfterOverflowLocked (previousRevision revision : BitVec 64)
    (overflowEntries : List PolicyMapEntry) (overflowErr : PolicyError) : StoreM Unit := do
  let store := (← get).store
  let oldEntries := store.cached endpointID
  let clearPlan := planPolicyUpdate oldEntries []
  let ruleCookies := policyUpdateRuleCookies oldEntries clearPlan
  let ruleRefs := policyUpdateRuleRefs oldEntries clearPlan
  if (store.maps.lookup endpointID).isSome || settings.pinRoot ≠ "" then
    let next ← tryCatch
      (wrapping s!"clear eBPF policy map after overflow for endpoint {endpointID}"
        (preparePolicyMapLocked settings endpointID [] oldEntries clearPlan))
      fun err => do
        recordFailure settings now endpointID previousRevision revision clearPlan.stats ruleCookies
          ruleRefs 0 err
        throw err
    setMap endpointID next
  let stats := { clearPlan.stats with revision }
  recordUpdate settings now endpointID [] revision stats overflowEntries.length {
    endpointID, previousRevision, revision
    occurredAt := now
    stats, ruleCookies, ruleRefs
    capacityHotspots := policyMapCapacityHotspotsFromError overflowErr
    success := true
    failureReason := policyUpdateFailureReason overflowErr
    remediated := true
    remediation := "clear"
    error := overflowErr.message }
  if settings.pinRoot ≠ "" then
    writeMapMetadata settings (settings.metadataPath endpointID) endpointID

/-- `ReplaceEndpoint` at the time `now`. -/
def EBPFPolicyStore.replaceEndpoint (entries : List PolicyMapEntry) : StoreM Unit := do
  checkContext
  if endpointID = "" then throw { message := "endpoint id is required" }
  let store := (← get).store
  let previousRevision := store.revision endpointID
  let revision := previousRevision + 1
  match canonicalPolicyMapEntries entries with
  | .error message =>
    let err : PolicyError :=
      { message := s!"canonicalize policy map entries for endpoint {endpointID}: {message}" }
    recordFailure settings now endpointID previousRevision revision {}
      (policyEntriesRuleCookies entries) (policyEntriesRuleRefs entries) entries.length err
    throw err
  | .ok desired =>
    let oldEntries := store.cached endpointID
    let plan := planPolicyUpdate oldEntries desired
    let ruleCookies := policyUpdateRuleCookies oldEntries plan
    let ruleRefs := policyUpdateRuleRefs oldEntries plan
    match validatePolicyMapCapacity settings endpointID desired with
    | some err =>
      if settings.overflow = .clear then
        clearEndpointPolicyAfterOverflowLocked settings now endpointID previousRevision revision
          desired err
      else
        recordFailure settings now endpointID previousRevision revision plan.stats ruleCookies
          ruleRefs desired.length err
        throw err
    | none =>
      let next ← tryCatch
        (wrapping s!"prepare eBPF policy map for endpoint {endpointID}"
          (preparePolicyMapLocked settings endpointID desired oldEntries plan))
        fun err => do
          recordFailure settings now endpointID previousRevision revision plan.stats ruleCookies
            ruleRefs desired.length err
          throw err
      setMap endpointID next
      let stats := { plan.stats with revision }
      recordUpdate settings now endpointID desired revision stats desired.length {
        endpointID, previousRevision, revision
        occurredAt := now
        stats, ruleCookies, ruleRefs
        success := true }
      if settings.pinRoot ≠ "" then
        writeMapMetadata settings (settings.metadataPath endpointID) endpointID

/-! ### Deleting endpoints -/

/-- `endpointDeleteEventLocked`: nothing is recorded for an endpoint no one knows. -/
def endpointDeleteEventLocked : StoreM (Option PolicyUpdateEvent) := do
  let sys ← get
  let entries := sys.store.cached endpointID
  let previousRevision := sys.store.revision endpointID
  let unknown := entries.isEmpty && previousRevision = 0 &&
    (sys.store.maps.lookup endpointID).isNone && (sys.store.lastStats.lookup endpointID).isNone &&
    (sys.store.lastSeen.lookup endpointID).isNone
  let known ← if !unknown then pure true
    else if settings.pinRoot = "" then pure false
    else do
      attempt
      pure (sys.host.pins.lookup (settings.mapPath endpointID)).isSome
  if !known then pure none
  else
    let stats : PolicyUpdateStats := { revision := previousRevision + 1, deleted := entries.length }
    let plan : PolicyUpdatePlan :=
      { add := [], update := [], delete := entries.map PolicyMapEntry.key, unchanged := [] }
    pure (some {
      endpointID, previousRevision
      revision := stats.revision
      occurredAt := now
      stats
      ruleCookies := policyUpdateRuleCookies entries plan
      ruleRefs := policyUpdateRuleRefs entries plan
      success := true })

def deleteEndpointLocked : StoreM Unit := do
  if settings.pinRoot ≠ "" then
    wrapping s!"remove pinned eBPF map for endpoint {endpointID}"
      (removePinnedMap none (settings.mapPath endpointID) (settings.metadataPath endpointID))
  if ((← get).store.maps.lookup endpointID).isSome then
    wrapping s!"close eBPF policy map for endpoint {endpointID}" attempt
  modify fun sys => { sys with
    store.maps := sys.store.maps.erase endpointID
    store.entries := sys.store.entries.erase endpointID
    store.lastStats := sys.store.lastStats.erase endpointID
    store.lastSeen := sys.store.lastSeen.erase endpointID
    store.revisions := sys.store.revisions.erase endpointID }

/-- `DeleteEndpoint` at the time `now`. -/
def EBPFPolicyStore.deleteEndpoint : StoreM Unit := do
  checkContext
  if endpointID = "" then throw { message := "endpoint id is required" }
  let event ← endpointDeleteEventLocked settings now endpointID
  deleteEndpointLocked settings endpointID
  match event with
  | none => pure ()
  | some event => modify fun sys => { sys with
      store.events := appendPolicyUpdateEvent sys.store.events
        (attachPolicyUpdateEventPressure event 0 settings.maxEntries) }

end Netloom.Dataplane
