import Netloom.Dataplane.MemoryStore

/-!
# The usage of policy maps, summed up

Entries and capacities are added in 32 bits, and a recommended capacity is cut to 32 bits. The
greatest pressure and its first endpoint are exact whatever the sums are.
-/
namespace Netloom.Dataplane

open InMemoryPolicyStore List

structure PolicyMapPressureHotspot where
  endpointID : String
  entries : BitVec 32
  capacity : BitVec 32
  availableEntries : BitVec 32
  pressurePercent : BitVec 32
  severity : String
  recommendedCapacity : BitVec 32

structure PolicyMapUsageSummary where
  entries : BitVec 32 := 0
  capacity : BitVec 32 := 0
  maxPressurePercent : BitVec 32 := 0
  maxPressureEndpoint : String := ""
  maxPressureSeverity : String := "unknown"
  recommendedCapacity : BitVec 32 := 0
  recommendedCapacityEndpoint : String := ""
  pressureEndpoints : Nat := 0
  pressureHotspots : List PolicyMapPressureHotspot := []

def policyMapAvailableEntries (usage : PolicyMapUsage) : BitVec 32 :=
  if usage.capacity ≤ usage.entries then 0 else usage.capacity - usage.entries

def pressureOf (usage : PolicyMapUsage) : BitVec 32 :=
  policyMapPressurePercent usage.entries usage.capacity

def recommendedOf (usage : PolicyMapUsage) : BitVec 32 :=
  policyMapRecommendedCapacity usage.entries usage.capacity

/-- A value is taken for the greatest one, or for a name before that of the greatest one. -/
def takesLead (value : BitVec 32) (endpointID : String) (most : BitVec 32) (leader : String) :
    Bool :=
  value > most || (value = most && value > 0 && (leader = "" || endpointID < leader))

/-- One round of the loop of `SummarizePolicyMapUsage`. -/
def addUsage (summary : PolicyMapUsageSummary) (usage : PolicyMapUsage) : PolicyMapUsageSummary :=
  let pressure := pressureOf usage
  let severity := policyMapPressureSeverity usage.entries usage.capacity
  let recommended := recommendedOf usage
  let leads := takesLead pressure usage.endpointID summary.maxPressurePercent
    summary.maxPressureEndpoint
  let recommends := takesLead recommended usage.endpointID summary.recommendedCapacity
    summary.recommendedCapacityEndpoint
  { entries := summary.entries + usage.entries
    capacity := summary.capacity + usage.capacity
    maxPressurePercent := if leads then pressure else summary.maxPressurePercent
    maxPressureEndpoint := if leads then usage.endpointID else summary.maxPressureEndpoint
    maxPressureSeverity := if leads then severity else summary.maxPressureSeverity
    recommendedCapacity := if recommends then recommended else summary.recommendedCapacity
    recommendedCapacityEndpoint :=
      if recommends then usage.endpointID else summary.recommendedCapacityEndpoint
    pressureEndpoints := summary.pressureEndpoints +
      if pressure.toNat ≥ defaultPolicyMapPressureThresholdPercent then 1 else 0
    pressureHotspots := summary.pressureHotspots ++ if pressure > 0 then
      [⟨usage.endpointID, usage.entries, usage.capacity, policyMapAvailableEntries usage, pressure,
        severity, recommended⟩] else [] }

def sortPolicyMapPressureHotspots (hotspots : List PolicyMapPressureHotspot) :
    List PolicyMapPressureHotspot :=
  hotspots.insertionSort fun a b =>
    if a.pressurePercent ≠ b.pressurePercent then b.pressurePercent ≤ a.pressurePercent
    else a.endpointID ≤ b.endpointID

def summarizePolicyMapUsage (usages : List PolicyMapUsage) : PolicyMapUsageSummary :=
  let summary := usages.foldl addUsage {}
  { summary with
    maxPressureSeverity := if summary.maxPressureEndpoint = "" && summary.capacity > 0 then "normal"
      else summary.maxPressureSeverity
    pressureHotspots := (sortPolicyMapPressureHotspots summary.pressureHotspots).take 5 }

/-- The greatest pressure, 0 for no usage, with the first of the endpoints that have it. -/
structure Foremost (usages : List PolicyMapUsage) (summary : PolicyMapUsageSummary) : Prop where
  most : ∀ usage ∈ usages, pressureOf usage ≤ summary.maxPressurePercent
  attained : summary.maxPressurePercent = 0 ∨ ∃ usage ∈ usages,
    pressureOf usage = summary.maxPressurePercent ∧ usage.endpointID = summary.maxPressureEndpoint
  first : 0 < summary.maxPressurePercent → (∀ usage ∈ usages, usage.endpointID ≠ "") →
    ∀ usage ∈ usages, pressureOf usage = summary.maxPressurePercent →
      summary.maxPressureEndpoint ≤ usage.endpointID

/-- What a summary is to say of some usages, and a recommendation of each. -/
structure SumsUp (usages : List PolicyMapUsage) (summary : PolicyMapUsageSummary) : Prop
    extends Foremost usages summary where
  entries : summary.entries.toNat = (usages.map fun usage => usage.entries.toNat).sum
  capacity : summary.capacity.toNat = (usages.map fun usage => usage.capacity.toNat).sum
  recommended : ∀ usage ∈ usages, recommendedOf usage ≠ 0 → usage.entries ≤ recommendedOf usage ∧
    (pressureOf { usage with capacity := recommendedOf usage }).toNat <
      defaultPolicyMapPressureThresholdPercent

/-! ### The greatest pressure -/

theorem foremost_addUsage {done : List PolicyMapUsage} {summary : PolicyMapUsageSummary}
    (before : Foremost done summary) (usage : PolicyMapUsage) :
    Foremost (done ++ [usage]) (addUsage summary usage) := by
  obtain ⟨most, attained, first⟩ := before
  by_cases leads : takesLead (pressureOf usage) usage.endpointID summary.maxPressurePercent
    summary.maxPressureEndpoint
  · constructor <;> simp only [addUsage, leads, if_true] <;> grind [takesLead]
  · constructor <;> simp only [addUsage, leads] <;> grind [takesLead]

theorem foremost_summarize (usages : List PolicyMapUsage) :
    Foremost usages (summarizePolicyMapUsage usages) := by
  have ⟨most, attained, first⟩ : Foremost usages (usages.foldl addUsage {}) :=
    Fold.foldl_invariant _ Foremost usages {} ⟨nofun, .inl rfl, nofun⟩
      fun _ usage _ _ _ before => foremost_addUsage before usage
  exact ⟨most, attained, first⟩

/-! ### Sums and recommendations -/

/-- A field that every round adds to is the sum, modulo 2³². -/
theorem toNat_summed (field : PolicyMapUsageSummary → BitVec 32)
    (value : PolicyMapUsage → BitVec 32) (zero : field {} = 0)
    (adds : ∀ summary usage, field (addUsage summary usage) = field summary + value usage)
    (usages : List PolicyMapUsage) : (field (usages.foldl addUsage {})).toNat =
      (usages.map fun usage => (value usage).toNat).sum % 2 ^ 32 := by
  refine Fold.foldl_invariant _ (fun done summary => (field summary).toNat =
    (done.map fun usage => (value usage).toNat).sum % 2 ^ 32) usages {}
    (congrArg BitVec.toNat zero) ?_
  intro done usage rest summary _ sum
  simp [adds, BitVec.toNat_add, sum]

/-- A recommendation serves its usage unless it takes more than 32 bits. -/
theorem recommended_iff (usage : PolicyMapUsage) :
    (recommendedOf usage ≠ 0 → usage.entries ≤ recommendedOf usage ∧
      (pressureOf { usage with capacity := recommendedOf usage }).toNat <
        defaultPolicyMapPressureThresholdPercent) ↔
    (defaultPolicyMapPressureThresholdPercent ≤ (pressureOf usage).toNat →
      usage.entries.toNat * 100 / defaultPolicyMapPressureThresholdPercent < 2 ^ 32) := by
  have bound := usage.entries.isLt
  by_cases high : 80 ≤ (pressureOf usage).toNat
  · have used : usage.capacity ≠ 0 ∧ usage.entries ≠ 0 := by
      by_cases unlimited : usage.capacity = 0
      · simp [pressureOf, policyMapPressurePercent, unlimited] at high
      · refine ⟨unlimited, fun empty => ?_⟩
        simp_all [pressureOf, policyMapPressurePercent]
    have recommended : (recommendedOf usage).toNat =
        (usage.entries.toNat * 100 / 80 + 1) % 2 ^ 32 := by
      rw [recommendedOf, policyMapRecommendedCapacity, if_neg]
      · exact BitVec.toNat_ofNat _ _
      · simp only [Bool.or_eq_true, decide_eq_true_eq, not_or, not_lt]
        exact ⟨used, high⟩
    simp only [defaultPolicyMapPressureThresholdPercent, high, true_imp_iff, BitVec.le_def,
      ne_eq, ← BitVec.toNat_inj, BitVec.ofNat_eq_ofNat, BitVec.toNat_zero]
    constructor
    · intro serves
      by_contra large
      -- Cut to 32 bits, the recommendation is below the entries it is to hold.
      have cut : (recommendedOf usage).toNat = usage.entries.toNat * 100 / 80 + 1 - 2 ^ 32 := by
        omega
      have := (serves (by omega)).1
      omega
    · intro fits nonzero
      have exact : (recommendedOf usage).toNat = usage.entries.toNat * 100 / 80 + 1 := by omega
      refine ⟨by omega, ?_⟩
      have small : usage.entries.toNat * 100 / (recommendedOf usage).toNat < 80 :=
        (Nat.div_lt_iff_lt_mul (by omega)).mpr (by omega)
      have above : ¬ usage.entries ≥ recommendedOf usage := by
        rw [ge_iff_le, BitVec.le_def]
        omega
      have some : recommendedOf usage ≠ 0 := fun none => nonzero (congrArg BitVec.toNat none)
      rw [pressureOf, policyMapPressurePercent, if_neg some, if_neg above, BitVec.toNat_ofNat]
      exact (Nat.mod_le _ _).trans_lt small
  · have silent : recommendedOf usage = 0 := by
      rw [recommendedOf, policyMapRecommendedCapacity, if_pos]
      simpa using .inr (not_le.mp high)
    simp [silent, defaultPolicyMapPressureThresholdPercent, high]

/-- Two maps of 2³¹ entries each are reported with no capacity at all. -/
theorem capacity_wraps : ¬ SumsUp [⟨"ep-a", 1, 0x80000000⟩, ⟨"ep-b", 1, 0x80000000⟩]
    (summarizePolicyMapUsage [⟨"ep-a", 1, 0x80000000⟩, ⟨"ep-b", 1, 0x80000000⟩]) :=
  fun exact => absurd exact.capacity (by decide)

/-- A summary is exact if and only if neither sum nor any recommendation needs more than 32 bits. -/
theorem summarizePolicyMapUsage_iff (usages : List PolicyMapUsage) :
    SumsUp usages (summarizePolicyMapUsage usages) ↔
      (usages.map fun usage => usage.entries.toNat).sum < 2 ^ 32 ∧
      (usages.map fun usage => usage.capacity.toNat).sum < 2 ^ 32 ∧
      ∀ usage ∈ usages, defaultPolicyMapPressureThresholdPercent ≤ (pressureOf usage).toNat →
        usage.entries.toNat * 100 / defaultPolicyMapPressureThresholdPercent < 2 ^ 32 := by
  have entries := toNat_summed (·.entries) (·.entries) rfl (fun _ _ => rfl) usages
  have capacity := toNat_summed (·.capacity) (·.capacity) rfl (fun _ _ => rfl) usages
  constructor
  · intro exact
    refine ⟨?_, ?_, fun usage inside => (recommended_iff usage).mp (exact.recommended usage inside)⟩
    · rw [← exact.entries]
      exact BitVec.isLt _
    · rw [← exact.capacity]
      exact BitVec.isLt _
  · rintro ⟨fewEntries, smallMaps, fits⟩
    exact ⟨foremost_summarize usages, entries.trans (Nat.mod_eq_of_lt fewEntries),
      capacity.trans (Nat.mod_eq_of_lt smallMaps),
      fun usage inside => (recommended_iff usage).mpr (fits usage inside)⟩

end Netloom.Dataplane
