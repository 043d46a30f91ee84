import Mathlib.Data.List.Forall2
import Mathlib.Data.List.Induction
import Mathlib.Tactic.Common

/-!
# Checked computations

A fallible function is a chain of guards and loops in `Except`. The lemmas
below invert a successful run once and for all: a bind succeeds exactly when
both parts do, a guard exactly when its condition holds, a loop exactly when
every iteration does.
-/
namespace Checked

open List

variable {ε α β : Type}

/-- A guard: the error unless the condition holds. -/
def require (condition : Bool) (message : ε) : Except ε Unit :=
  if condition then .ok () else .error message

/-- A check that is made only under a condition. -/
def checkIf (condition : Bool) (check : Except ε Unit) : Except ε Unit :=
  if condition then check else .ok ()

/-- A check that nothing was found; what was found is named in the error. -/
def absent (message : α → ε) : Option α → Except ε Unit
  | none => .ok ()
  | some found => .error (message found)

/-- Wraps the error of a computation, as `fmt.Errorf("...: %w", err)` does. -/
def context (wrap : ε → ε) : Except ε α → Except ε α
  | .ok value => .ok value
  | .error message => .error (wrap message)

@[simp] theorem bind_eq_ok (first : Except ε α) (next : α → Except ε β) (result : β) :
    (first >>= next) = .ok result ↔ ∃ value, first = .ok value ∧ next value = .ok result := by
  cases first with
  | error message | ok value => simp [bind, Except.bind]

@[simp] theorem pure_eq_ok (value result : α) :
    (pure value : Except ε α) = .ok result ↔ value = result := by
  simp [pure, Except.pure]

@[simp] theorem require_eq_ok (condition : Bool) (message : ε) (result : Unit) :
    require condition message = .ok result ↔ condition := by
  cases condition <;> simp [require]

@[simp] theorem checkIf_eq_ok (condition : Bool) (check : Except ε Unit) (result : Unit) :
    checkIf condition check = .ok result ↔ (condition → check = .ok ()) := by
  cases condition <;> simp [checkIf]

@[simp] theorem absent_eq_ok (message : α → ε) (found : Option α) (result : Unit) :
    absent message found = .ok result ↔ found = none := by
  cases found <;> simp [absent]

@[simp] theorem context_eq_ok (wrap : ε → ε) (body : Except ε α) (result : α) :
    context wrap body = .ok result ↔ body = .ok result := by
  cases body <;> simp [context]

@[simp] theorem map_eq_ok (f : α → β) (body : Except ε α) (result : β) :
    (f <$> body) = .ok result ↔ ∃ value, body = .ok value ∧ f value = result := by
  cases body <;> simp [Functor.map, Except.map]

/-- A loop without accumulator succeeds exactly when every iteration does. -/
theorem forM_eq_ok (body : α → Except ε Unit) (items : List α) (result : Unit) :
    forM items body = .ok result ↔ ∀ item ∈ items, body item = .ok () := by
  induction items with
  | nil => simp
  | cons item rest ih =>
    simp only [forM_cons, bind_eq_ok, ih, forall_mem_cons]
    grind

/-- A loop that numbers its items and remembers their keys: each item is checked,
its key must be new, and then it is checked further. -/
def distinctFrom {κ : Type} [DecidableEq κ] (before : Nat → α → Except ε Unit) (key : α → κ)
    (duplicate : Nat → α → ε) (after : Nat → α → Except ε Unit) :
    Nat → List κ → List α → Except ε Unit
  | _, _, [] => .ok ()
  | i, seen, item :: rest => do
    before i item
    require (key item ∉ seen) (duplicate i item)
    after i item
    distinctFrom before key duplicate after (i + 1) (key item :: seen) rest

/-- The common case: nothing is checked after the key. -/
def distinct {κ : Type} [DecidableEq κ] (before : Nat → α → Except ε Unit) (key : α → κ)
    (duplicate : Nat → α → ε) (items : List α) : Except ε Unit :=
  distinctFrom before key duplicate (fun _ _ => .ok ()) 0 [] items

variable {κ : Type}

theorem of_distinctFrom [DecidableEq κ] {before : Nat → α → Except ε Unit} {key : α → κ}
    {duplicate : Nat → α → ε} {after : Nat → α → Except ε Unit} {i : Nat} {seen : List κ}
    (accepted : distinctFrom before key duplicate after i seen items = .ok result) :
    (∀ n item, items[n]? = some item →
      before (i + n) item = .ok () ∧ after (i + n) item = .ok ()) ∧
    (items.map key).Nodup ∧ ∀ item ∈ items, key item ∉ seen := by
  induction items generalizing i seen with
  | nil => simp
  | cons item rest ih =>
    simp only [distinctFrom, bind_eq_ok, require_eq_ok, decide_eq_true_eq] at accepted
    obtain ⟨_, first, _, fresh, _, further, others⟩ := accepted
    obtain ⟨checks, nodup, apart⟩ := ih others
    simp only [mem_cons, not_or] at apart
    simp only [map_cons, nodup_cons, mem_map, not_exists, not_and, forall_mem_cons]
    refine ⟨?_, ⟨fun x member => (apart x member).1, nodup⟩, fresh,
      fun x member => (apart x member).2⟩
    intro n x found
    cases n with
    | zero =>
      obtain rfl : item = x := by simpa using found
      exact ⟨first, further⟩
    | succ n =>
      have := checks n x (by simpa using found)
      rwa [Nat.add_assoc, Nat.add_comm 1 n] at this

variable {items : List α} {result : Unit}

/-- What a numbered loop without further checks says of its items. -/
theorem of_distinct [DecidableEq κ] {before : Nat → α → Except ε Unit} {key : α → κ}
    {duplicate : Nat → α → ε} (accepted : distinct before key duplicate items = .ok result) :
    (∀ item ∈ items, ∃ n, before n item = .ok ()) ∧ (items.map key).Nodup := by
  obtain ⟨checks, nodup, _⟩ := of_distinctFrom accepted
  refine ⟨fun item member => ?_, nodup⟩
  obtain ⟨n, found⟩ := getElem?_of_mem member
  exact ⟨0 + n, (checks n item found).1⟩

/-- A loop that checks each item against those it has accepted before. -/
def growing (check : List α → α → Except ε Unit) : List α → List α → Except ε Unit
  | _, [] => .ok ()
  | seen, item :: rest => do
    check seen item
    growing check (seen ++ [item]) rest

theorem growing_eq_ok (check : List α → α → Except ε Unit) (seen items : List α) (result : Unit) :
    growing check seen items = .ok result ↔ ∀ before item after,
      items = before ++ item :: after → check (seen ++ before) item = .ok () := by
  induction items generalizing seen with
  | nil => simp [growing]
  | cons first rest ih =>
    simp only [growing, bind_eq_ok, ih]
    constructor
    · rintro ⟨_, checked, others⟩ before item after split
      cases before with
      | nil =>
        obtain ⟨rfl, rfl⟩ : first = item ∧ rest = after := by simpa using split
        simpa using checked
      | cons head before =>
        obtain ⟨rfl, tail⟩ : first = head ∧ rest = before ++ item :: after := by simpa using split
        simpa using others before item after tail
    · intro checks
      refine ⟨(), by simpa using checks [] first rest rfl, fun before item after split => ?_⟩
      simpa using checks (first :: before) item after (by rw [split, cons_append])

variable {check : List α → α → Except ε Unit}

/-- Every item passes against the items before it. -/
theorem mem_of_growing (accepted : growing check [] items = .ok result) {item : α}
    (member : item ∈ items) : ∃ before, check before item = .ok () := by
  obtain ⟨before, after, split⟩ := append_of_mem member
  exact ⟨before, by simpa using (growing_eq_ok _ _ _ _).mp accepted _ _ _ split⟩

/-- What an item must satisfy against each earlier one holds of every pair. -/
theorem pairwise_of_growing (R : α → α → Prop)
    (separates : ∀ seen item, check seen item = .ok () → ∀ old ∈ seen, R old item)
    (accepted : growing check [] items = .ok result) : items.Pairwise R := by
  rw [growing_eq_ok] at accepted
  induction items using reverseRecOn with
  | nil => exact List.Pairwise.nil
  | append_singleton front last ih =>
    rw [pairwise_append]
    refine ⟨ih fun before item after split => accepted before item (after ++ [last])
      (by rw [split]; simp), pairwise_singleton _ _, fun old member new same => ?_⟩
    rw [mem_singleton.mp same]
    exact separates front last (by simpa using accepted front last [] rfl) old member

/-- A loop whose checks are about the item and about each pair. -/
theorem growing_iff_pairwise {P : α → Prop} {R : α → α → Prop}
    (pairs : ∀ seen item, check seen item = .ok () ↔ P item ∧ ∀ old ∈ seen, R old item)
    (items : List α) :
    growing check [] items = .ok () ↔ (∀ item ∈ items, P item) ∧ items.Pairwise R := by
  constructor
  · intro accepted
    refine ⟨fun item member => ?_, ?_⟩
    · obtain ⟨before, checked⟩ := mem_of_growing accepted member
      exact ((pairs before item).mp checked).1
    · exact pairwise_of_growing R (fun seen item checked => ((pairs seen item).mp checked).2)
        accepted
  · rintro ⟨each, paired⟩
    refine (growing_eq_ok _ _ _ _).mpr fun before item after split => ?_
    rw [nil_append, pairs]
    rw [split, pairwise_append] at paired
    exact ⟨each item (by simp [split]), fun old member => paired.2.2 old member item (by simp)⟩

/-- If an item is accepted only with a key that no earlier one has, no key occurs twice. -/
theorem nodup_of_growing (key : α → κ)
    (separates : ∀ seen item, check seen item = .ok () → ∀ old ∈ seen, key old ≠ key item)
    (accepted : growing check [] items = .ok result) : (items.map key).Nodup :=
  pairwise_map.mpr (pairwise_of_growing (fun old new => key old ≠ key new) separates accepted)

theorem growing_append (check : List α → α → Except ε Unit) (seen first second : List α)
    (result : Unit) :
    growing check seen (first ++ second) = .ok result ↔
      growing check seen first = .ok () ∧ growing check (seen ++ first) second = .ok () := by
  induction first generalizing seen with
  | nil => simp [growing]
  | cons item rest ih =>
    simp only [cons_append, growing, bind_eq_ok, ih, append_assoc, nil_append]
    grind

/-- Where the check of an item runs through its parts, against all parts before, the
parts of all items are accepted one after the other. -/
theorem growing_flatMap {γ : Type} {inner : List γ → γ → Except ε Unit} {part : α → List γ}
    (covers : ∀ seen item, check seen item = .ok () →
      growing inner (seen.flatMap part) (part item) = .ok ()) (seen items : List α)
    (accepted : growing check seen items = .ok result) :
    growing inner (seen.flatMap part) (items.flatMap part) = .ok () := by
  induction items generalizing seen with
  | nil => rfl
  | cons item rest ih =>
    simp only [growing, bind_eq_ok] at accepted
    obtain ⟨_, checked, others⟩ := accepted
    rw [flatMap_cons, growing_append]
    refine ⟨covers seen item checked, ?_⟩
    simpa using ih (seen ++ [item]) others

/-- A loop that numbers its items. -/
def forEach (body : Nat → α → Except ε Unit) (items : List α) : Except ε Unit :=
  forM items.zipIdx fun item => body item.2 item.1

theorem of_forEach {body : Nat → α → Except ε Unit} (accepted : forEach body items = .ok result) :
    ∀ item ∈ items, ∃ n, body n item = .ok () := by
  intro item member
  obtain ⟨n, found⟩ := getElem?_of_mem member
  exact ⟨n, (forM_eq_ok _ _ _).mp accepted (item, n) (mem_zipIdx_iff_getElem?.mpr found)⟩

/-- A mapping loop succeeds exactly when every image exists, in order. -/
theorem mapM_eq_ok (body : α → Except ε β) (items : List α) (results : List β) :
    items.mapM body = .ok results ↔
      List.Forall₂ (fun item result => body item = .ok result) items results := by
  induction items generalizing results with
  | nil =>
    rw [mapM_nil, pure_eq_ok, forall₂_nil_left_iff]
    exact eq_comm
  | cons item rest ih =>
    simp only [mapM_cons, bind_eq_ok, pure_eq_ok, ih]
    constructor
    · rintro ⟨image, head, images, tail, rfl⟩
      exact .cons head tail
    · rintro (_ | ⟨head, tail⟩)
      exact ⟨_, head, _, tail, rfl⟩

/-- The results of a mapping loop are the images of its items. -/
theorem mem_of_mapM {body : α → Except ε β} {results : List β}
    (returned : items.mapM body = .ok results) :
    (∀ result ∈ results, ∃ item ∈ items, body item = .ok result) ∧
      ∀ item ∈ items, ∃ result ∈ results, body item = .ok result := by
  rw [mapM_eq_ok] at returned
  induction returned with
  | nil => simp
  | @cons item image rest images head tail ih =>
    grind

/-- A mapping loop that only checks its items. -/
theorem mapM_check (check : α → Except ε Unit) (image : α → β) (items : List α) (results : List β) :
    items.mapM (fun item => do check item; pure (image item)) = .ok results ↔
      (∀ item ∈ items, check item = .ok ()) ∧ items.map image = results := by
  rw [mapM_eq_ok, ← forall₂_eq_eq_eq, forall₂_map_left_iff, ← forall₂_and_left]
  simp only [bind_eq_ok, pure_eq_ok, Unique.exists_iff]

/-- A loop that checks each item before it updates the accumulator. -/
theorem foldlM_check (check : α → Except ε Unit) (update : β → α → β) (items : List α)
    (start finish : β) :
    items.foldlM (fun state item => do check item; pure (update state item)) start = .ok finish ↔
      (∀ item ∈ items, check item = .ok ()) ∧ items.foldl update start = finish := by
  induction items generalizing start with
  | nil => simp
  | cons item rest ih =>
    simp only [foldlM_cons, bind_eq_ok, pure_eq_ok, foldl_cons, forall_mem_cons]
    grind

/-- A loop of checked inner loops is one loop over all inner items. -/
theorem foldlM_flatMap {γ : Type} (check : α → Except ε Unit) (part : α → List γ)
    (body : β → γ → Except ε β) (items : List α) (start finish : β) :
    items.foldlM (fun state item => do check item; (part item).foldlM body state) start =
        .ok finish ↔
      (∀ item ∈ items, check item = .ok ()) ∧
        (items.flatMap part).foldlM body start = .ok finish := by
  induction items generalizing start with
  | nil => simp
  | cons item rest ih =>
    simp only [foldlM_cons, flatMap_cons, foldlM_append, bind_eq_ok, ih, forall_mem_cons]
    grind

/-- The loop rule: what each iteration preserves, a whole loop preserves. -/
theorem foldlM_invariant (body : β → α → Except ε β) (Invariant : List α → β → Prop)
    (items : List α) (start finish : β)
    (step : ∀ done item state state', done ++ [item] <+: items → Invariant done state →
      body state item = .ok state' → Invariant (done ++ [item]) state')
    (initial : Invariant [] start) (returned : items.foldlM body start = .ok finish) :
    Invariant items finish := by
  induction items using reverseRecOn generalizing finish with
  | nil => exact Except.ok.inj returned ▸ initial
  | append_singleton front last ih =>
    rw [foldlM_append, bind_eq_ok] at returned
    obtain ⟨state, before, stepped⟩ := returned
    have holds := ih state (fun done item state state' early =>
      step done item state state' (early.trans (prefix_append _ _))) before
    exact step front last state finish (List.prefix_refl _) holds (by simpa using stepped)

/-- Where a loop fails. -/
theorem exists_of_foldlM_error {body : β → α → Except ε β} {start : β} {err : ε}
    (failed : items.foldlM body start = .error err) :
    ∃ done item state, done ++ [item] <+: items ∧ done.foldlM body start = .ok state ∧
      body state item = .error err := by
  induction items using reverseRecOn with
  | nil => cases failed
  | append_singleton front last ih =>
    rw [foldlM_append] at failed
    cases middle : front.foldlM body start with
    | error _ =>
      obtain ⟨done, item, state, early, stepped⟩ := ih (by rwa [middle] at failed ⊢)
      exact ⟨done, item, state, early.trans (prefix_append _ _), stepped⟩
    | ok state =>
      rw [middle] at failed
      have stepped : [last].foldlM body state = .error err := failed
      exact ⟨front, last, state, List.prefix_refl _, middle, by simpa using stepped⟩

end Checked
