import Mathlib.Data.List.Basic
import Mathlib.Data.List.AList
import Mathlib.Tactic.Common

/-!
# Loops with an accumulator

The invariant rule for a left fold, whose invariant may speak of the items
already processed, and the two accumulators built most often: the list without
duplicates and the map that groups items by a key.
-/
namespace Fold

open List AList

variable {α β κ ν : Type}

/-- What each iteration preserves, the whole loop preserves. -/
theorem foldl_invariant (body : β → α → β) (Invariant : List α → β → Prop) (items : List α)
    (start : β) (initial : Invariant [] start)
    (step : ∀ done item rest state, done ++ item :: rest = items → Invariant done state →
      Invariant (done ++ [item]) (body state item)) :
    Invariant items (items.foldl body start) := by
  suffices general : ∀ rest done state, done ++ rest = items → Invariant done state →
      Invariant items (rest.foldl body state) from general items [] start rfl initial
  intro rest
  induction rest with
  | nil =>
    intro done state split holds
    rw [append_nil] at split
    exact split ▸ holds
  | cons item rest ih =>
    intro done state split holds
    have shifted : (done ++ [item]) ++ rest = items := by rw [← split]; simp
    exact ih (done ++ [item]) (body state item) shifted (step done item rest state split holds)

/-! ### Duplicates -/

/-- The first item of every key. -/
def dedupeBy [DecidableEq κ] (key : α → κ) (items : List α) : List α :=
  items.foldl (fun out item => if key item ∈ out.map key then out else out ++ [item]) []

theorem dedupeBy_spec [DecidableEq κ] (key : α → κ) (items : List α) :
    (∀ item ∈ dedupeBy key items, item ∈ items) ∧
      (∀ item ∈ items, ∃ kept ∈ dedupeBy key items, key kept = key item) ∧
      ((dedupeBy key items).map key).Nodup ∧ (dedupeBy key items).length ≤ items.length := by
  refine foldl_invariant _ (fun done out => (∀ item ∈ out, item ∈ done) ∧
    (∀ item ∈ done, ∃ kept ∈ out, key kept = key item) ∧ (out.map key).Nodup ∧
    out.length ≤ done.length) items [] (by simp) ?_
  rintro done item rest out split ⟨sound, complete, nodup, length⟩
  split
  · next seen =>
    refine ⟨fun x member => mem_append_left _ (sound x member), ?_, nodup,
      by simp only [length_append]; omega⟩
    intro x member
    rcases mem_append.mp member with earlier | last
    · exact complete x earlier
    · obtain rfl := mem_singleton.mp last
      exact mem_map.mp seen
  · next fresh =>
    refine ⟨?_, ?_, ?_, by simpa using length⟩
    · grind
    · grind
    · rw [map_append, nodup_append]
      refine ⟨nodup, by simp, fun k member k' last equal => fresh ?_⟩
      simp only [map_cons, map_nil, mem_singleton] at last
      exact last ▸ equal ▸ member

theorem dedupeBy_of_nodup [DecidableEq κ] {key : α → κ} {items : List α}
    (nodup : (items.map key).Nodup) : dedupeBy key items = items := by
  refine foldl_invariant _ (fun done out => out = done) items [] rfl ?_
  rintro done item rest out split rfl
  have fresh : key item ∉ out.map key := by
    grind
  rw [if_neg fresh]

/-! ### Maps -/

section Maps

variable [DecidableEq κ]

/-- Appends items to the list stored under a key, which is empty if absent. -/
def appendAt (map : AList fun _ : κ => List ν) (key : κ) (items : List ν) :
    AList fun _ : κ => List ν :=
  map.insert key ((map.lookup key).getD [] ++ items)

theorem lookup_appendAt (map : AList fun _ : κ => List ν) (key : κ) (items : List ν) (k : κ) :
    (appendAt map key items).lookup k =
      if k = key then some ((map.lookup key).getD [] ++ items) else map.lookup k := by
  by_cases same : k = key
  · subst same
    simp [appendAt]
  · simp [appendAt, same, lookup_insert_ne same]

/-- Applies a function to every value. -/
def mapValues {μ : Type} (f : ν → μ) (map : AList fun _ : κ => ν) : AList fun _ : κ => μ where
  entries := map.entries.map fun entry => ⟨entry.1, f entry.2⟩
  nodupKeys := by
    have keys : (map.entries.map fun entry => (⟨entry.1, f entry.2⟩ : Sigma fun _ : κ => μ)).keys =
        map.entries.keys := by simp [List.keys, Function.comp_def]
    have nodup : map.entries.keys.Nodup := map.nodupKeys
    exact (keys ▸ nodup : List.Nodup _)

theorem lookup_mapValues {μ : Type} (f : ν → μ) (map : AList fun _ : κ => ν) (k : κ) :
    (mapValues f map).lookup k = (map.lookup k).map f := by
  obtain ⟨entries, nodup⟩ := map
  simp only [mapValues, AList.lookup]
  clear nodup
  induction entries with
  | nil => rfl
  | cons entry rest ih =>
    obtain ⟨key, value⟩ := entry
    by_cases same : k = key
    · subst same
      simp
    · have apart : k ≠ (⟨key, value⟩ : Sigma fun _ : κ => ν).1 := same
      have apart' : k ≠ (⟨key, f value⟩ : Sigma fun _ : κ => μ).1 := same
      rw [map_cons, dlookup_cons_ne _ _ apart', dlookup_cons_ne _ _ apart, ih]

/-- The entries that pass the test; deleting while iterating over a map comes to this. -/
def keep (test : κ → ν → Bool) (map : AList fun _ : κ => ν) : AList fun _ : κ => ν where
  entries := map.entries.filter fun entry => test entry.1 entry.2
  nodupKeys := (filter_sublist.map Sigma.fst).nodup map.nodupKeys

theorem lookup_keep (test : κ → ν → Bool) (map : AList fun _ : κ => ν) (k : κ) :
    (keep test map).lookup k = (map.lookup k).filter (test k) := by
  apply Option.ext
  intro value
  rw [Option.filter_eq_some_iff, ← Option.mem_def, ← Option.mem_def, mem_lookup_iff, mem_lookup_iff]
  simp [keep]

/-- Items collected under their keys, and a function applied to what each key holds: the
values of its items, in order. -/
theorem getD_lookup_grouped {μ : Type} (key : α → κ) (values : α → List ν) {f : List ν → List μ}
    (nothing : f [] = []) (items : List α) (k : κ) :
    ((mapValues f (items.foldl (fun map item => appendAt map (key item) (values item))
      ∅)).lookup k).getD [] = f ((items.filter fun item => key item = k).flatMap values) := by
  have collected := foldl_invariant (fun map item => appendAt map (key item) (values item))
    (fun done (map : AList fun _ : κ => List ν) => (map.lookup k).getD [] =
      (done.filter fun item => key item = k).flatMap values) items ∅ rfl ?_
  · rw [lookup_mapValues, ← collected]
    cases (items.foldl (fun map item => appendAt map (key item) (values item)) ∅).lookup k with
    | none => exact nothing.symm
    | some held => rfl
  · intro done item rest map _ holds
    rw [lookup_appendAt]
    by_cases same : key item = k
    · subst same
      simp [holds]
    · have apart : ¬ k = key item := fun equal => same equal.symm
      simp [apart, same, holds]

end Maps

/-! ### Maps with one entry per item -/

section Insert

variable [DecidableEq κ] (key : α → κ) (value : α → ν)

/-- A map with one more entry holds the entry, and otherwise what it held. -/
theorem lookup_insert_eq_some {map : AList fun _ : κ => ν} {k k' : κ} {v v' : ν} :
    (map.insert k v).lookup k' = some v' ↔ k' = k ∧ v = v' ∨ k' ≠ k ∧ map.lookup k' = some v' := by
  by_cases here : k' = k
  · subst here
    simp
  · simp [here, lookup_insert_ne here]

/-- The map of the items, a later one replacing an earlier one with the same key. -/
def insertAll (items : List α) : AList fun _ : κ => ν :=
  items.foldl (fun map item => map.insert (key item) (value item)) ∅

/-- Under each key stands the value of the last item with that key. -/
theorem lookup_insertAll_eq (items : List α) (k : κ) :
    (insertAll key value items).lookup k =
      ((items.filter fun item => key item = k).getLast?).map value := by
  refine foldl_invariant _ (fun done (map : AList fun _ : κ => ν) => map.lookup k =
    ((done.filter fun item => key item = k).getLast?).map value) items ∅ rfl ?_
  intro done item _ map _ held
  by_cases here : key item = k
  · subst here
    simp
  · have apart : k ≠ key item := fun equal => here equal.symm
    simp [lookup_insert_ne apart, here, held]

/-- The map with every value replaced by its image. -/
theorem lookup_insertAll_comp {μ : Type} (f : ν → μ) (items : List α) (k : κ) :
    ((insertAll key value items).lookup k).map f =
      (insertAll key (fun item => f (value item)) items).lookup k := by
  rw [lookup_insertAll_eq, lookup_insertAll_eq, Option.map_map]
  rfl

variable {items : List α}

/-- Only the keys and values of the items count. -/
theorem insertAll_congr {α' : Type} {key' : α' → κ} {value' : α' → ν} {items' : List α'}
    (same : items.map (fun item => (key item, value item)) =
      items'.map fun item => (key' item, value' item)) :
    insertAll key value items = insertAll key' value' items' := by
  have paired := congrArg (foldl (fun (map : AList fun _ : κ => ν) pair =>
    map.insert pair.1 pair.2) ∅) same
  rwa [foldl_map, foldl_map] at paired

/-- What the map holds comes from one of the items. -/
theorem of_lookup_insertAll {k : κ} {v : ν} (held : (insertAll key value items).lookup k = some v) :
    ∃ item ∈ items, key item = k ∧ value item = v := by
  rw [lookup_insertAll_eq] at held
  obtain ⟨item, last, rfl⟩ := Option.map_eq_some_iff.mp held
  obtain ⟨member, same⟩ := mem_filter.mp (mem_of_getLast? last)
  exact ⟨item, member, of_decide_eq_true same, rfl⟩

/-- If no key occurs twice, the map holds the items as they are. -/
theorem entries_insertAll (nodup : (items.map key).Nodup) :
    (insertAll key value items).entries =
      (items.map fun item => (⟨key item, value item⟩ : Sigma fun _ : κ => ν)).reverse := by
  suffices general : ∀ map : AList fun _ : κ => ν, (∀ item ∈ items, key item ∉ map) →
      (items.foldl (fun map item => map.insert (key item) (value item)) map).entries =
        (items.map fun item => (⟨key item, value item⟩ : Sigma fun _ : κ => ν)).reverse ++
          map.entries by
    simpa [insertAll] using general ∅ (by simp)
  induction items with
  | nil => simp
  | cons first rest ih =>
    intro map fresh
    rw [map_cons] at nodup
    obtain ⟨apart, nodup⟩ := nodup_cons.mp nodup
    rw [foldl_cons, ih nodup]
    · rw [entries_insert_of_notMem (fresh first (by simp))]
      simp
    · intro item member
      rw [mem_insert]
      rintro (same | inside)
      · exact apart (mem_map.mpr ⟨item, member, same⟩)
      · exact fresh item (mem_cons_of_mem _ member) inside

theorem lookup_insertAll (nodup : (items.map key).Nodup) (k : κ) (v : ν) :
    (insertAll key value items).lookup k = some v ↔ ∃ item ∈ items, key item = k ∧ value item = v := by
  rw [← Option.mem_def, mem_lookup_iff, entries_insertAll key value nodup]
  simp

end Insert

/-- The entries of a map make up the map again. -/
theorem lookup_insertAll_self [DecidableEq κ] (map : AList fun _ : κ => ν) (k : κ) :
    (insertAll Sigma.fst Sigma.snd map.entries).lookup k = map.lookup k := by
  apply Option.ext
  intro value
  rw [lookup_insertAll Sigma.fst Sigma.snd map.nodupKeys, ← Option.mem_def, mem_lookup_iff]
  grind

end Fold
