import Mathlib.Order.Defs.Unbundled
import Mathlib.Tactic.Common

/-!
# Stateful computations that can fail

A method that returns an error keeps what it did before the error: it is an
`EStateM` computation, whose errors carry the state they left. `Leads` is its
weakest precondition, with one postcondition for results and one for errors. `Frames`
is what a computation never breaks, whether it returns or fails.
-/
namespace Stateful

variable {ε σ α β : Type}

/-- From this state the computation returns with `Q` or fails with `E`. -/
def Leads (m : EStateM ε σ α) (s : σ) (Q : α → σ → Prop) (E : ε → σ → Prop) : Prop :=
  match m s with
  | .ok a s' => Q a s'
  | .error e s' => E e s'

section Rules

variable {s : σ} {Q Q' : α → σ → Prop} {R : β → σ → Prop} {E E' : ε → σ → Prop} {m : EStateM ε σ α}
  {a : α} {s' : σ}

theorem Leads.of_ok (leads : Leads m s Q E) (returned : m s = .ok a s') : Q a s' := by
  rwa [Leads, returned] at leads

variable {e : ε}

theorem Leads.of_error (leads : Leads m s Q E) (failed : m s = .error e s') : E e s' := by
  rwa [Leads, failed] at leads

theorem Leads.mono (leads : Leads m s Q E) (result : ∀ a s', Q a s' → Q' a s')
    (error : ∀ e s', E e s' → E' e s') : Leads m s Q' E' := by
  unfold Leads at *
  cases run : m s <;> rw [run] at leads
  · exact result _ _ leads
  · exact error _ _ leads

/-- Two facts about one run hold together. -/
theorem Leads.and (first : Leads m s Q E) (second : Leads m s Q' E') :
    Leads m s (fun a s' => Q a s' ∧ Q' a s') (fun e s' => E e s' ∧ E' e s') := by
  unfold Leads at *
  cases run : m s <;> rw [run] at first second <;> exact ⟨first, second⟩

/-- What holds in every state holds in the end. -/
theorem leads_of_forall (result : ∀ a s', Q a s') (error : ∀ e s', E e s') : Leads m s Q E := by
  unfold Leads
  cases m s
  · exact result _ _
  · exact error _ _

theorem leads_pure (holds : Q a s) : Leads (pure a) s Q E := holds

theorem leads_throw (holds : E e s) : Leads (throw e : EStateM ε σ α) s Q E := holds

theorem leads_get {Q : σ → σ → Prop} (holds : Q s s) : Leads (get : EStateM ε σ σ) s Q E := holds

theorem leads_set {Q : PUnit → σ → Prop} (holds : Q ⟨⟩ s') :
    Leads (set s' : EStateM ε σ PUnit) s Q E := holds

theorem leads_modify {Q : PUnit → σ → Prop} {f : σ → σ} (holds : Q ⟨⟩ (f s)) :
    Leads (modify f : EStateM ε σ PUnit) s Q E := holds

variable {f : α → EStateM ε σ β}

/-- What follows starts where the first part ends. -/
theorem leads_bind (first : Leads m s (fun a s' => Leads (f a) s' R E) E) :
    Leads (m >>= f) s R E := by
  unfold Leads at first
  rw [Leads, show (m >>= f) s = EStateM.bind m f s from rfl, EStateM.bind]
  cases run : m s <;> rw [run] at first <;> exact first

theorem Leads.bind (first : Leads m s Q E) (next : ∀ a s', Q a s' → Leads (f a) s' R E) :
    Leads (m >>= f) s R E :=
  leads_bind (first.mono next fun _ _ error => error)

theorem leads_map {f : α → β} (leads : Leads m s (fun a s' => R (f a) s') E) :
    Leads (f <$> m) s R E := by
  unfold Leads at leads
  rw [Leads, show (f <$> m) s = EStateM.map f m s from rfl, EStateM.map]
  cases run : m s <;> rw [run] at leads <;> exact leads

/-- A sequence returns if both parts do. -/
theorem bind_eq_ok {b : β} :
    (m >>= f) s = .ok b s' ↔ ∃ a between, m s = .ok a between ∧ f a between = .ok b s' := by
  show EStateM.bind m f s = _ ↔ _
  rw [EStateM.bind]
  split
  · next a between returned => simp [returned]
  · next e between failed => simp [failed]

/-- A handler starts where the error occurred. -/
theorem leads_tryCatch {handler : ε → EStateM ε σ α}
    (body : Leads m s Q fun e s' => Leads (handler e) s' Q E) :
    Leads (tryCatch m handler) s Q E := by
  unfold Leads at body
  rw [Leads, show tryCatch m handler s = EStateM.tryCatch m handler s from rfl, EStateM.tryCatch]
  cases run : m s <;> rw [run] at body <;> exact body

/-- The loop rule: the invariant speaks of the items already processed. -/
theorem leads_forM {γ : Type} {items : List γ} {body : γ → EStateM ε σ PUnit}
    {Q : PUnit → σ → Prop} (Invariant : List γ → σ → Prop) (initial : Invariant [] s)
    (step : ∀ done item rest s, done ++ item :: rest = items → Invariant done s →
      Leads (body item) s (fun _ s' => Invariant (done ++ [item]) s') E)
    (final : ∀ s, Invariant items s → Q ⟨⟩ s) : Leads (items.forM body) s Q E := by
  suffices general : ∀ rest done s, done ++ rest = items → Invariant done s →
      Leads (rest.forM body) s Q E from general items [] s rfl initial
  intro rest
  induction rest with
  | nil =>
    intro done s split holds
    rw [List.append_nil] at split
    exact leads_pure (final s (split ▸ holds))
  | cons item rest ih =>
    intro done s split holds
    have shifted : (done ++ [item]) ++ rest = items := by rw [← split]; simp
    exact (step done item rest s split holds).bind fun _ s' => ih (done ++ [item]) s' shifted

end Rules

/-! ### Frames -/

/-- However the computation ends, it ends in such a state. -/
abbrev Ends (m : EStateM ε σ α) (s : σ) (P : σ → Prop) : Prop :=
  Leads m s (fun _ => P) fun _ => P

/-- Whether the computation returns or fails, the state it ends in is related to the one
it started in. -/
def Frames (R : σ → σ → Prop) (m : EStateM ε σ α) : Prop :=
  ∀ s, Ends m s (R s)

theorem Frames.weaken {R R' : σ → σ → Prop} {m : EStateM ε σ α} (frames : Frames R m)
    (weaker : ∀ s s', R s s' → R' s s') : Frames R' m := fun s =>
  (frames s).mono (fun _ => weaker s) fun _ => weaker s

section Frames

variable {R : σ → σ → Prop} [IsPreorder σ R] {m : EStateM ε σ α}

theorem Frames.after (frames : Frames R m) {s s₁ : σ} (before : R s s₁) : Ends m s₁ (R s) :=
  (frames s₁).mono (fun _ _ => trans_of R before) fun _ _ => trans_of R before

theorem frames_pure (a : α) : Frames R (pure a : EStateM ε σ α) := fun s => leads_pure (refl_of R s)

theorem frames_throw (e : ε) : Frames R (throw e : EStateM ε σ α) := fun s =>
  leads_throw (refl_of R s)

theorem frames_get : Frames R (get : EStateM ε σ σ) := fun s => leads_get (refl_of R s)

omit [IsPreorder σ R] in
theorem frames_modify {f : σ → σ} (related : ∀ s, R s (f s)) :
    Frames R (modify f : EStateM ε σ PUnit) := fun s => leads_modify (related s)

theorem Frames.bind {f : α → EStateM ε σ β} (first : Frames R m) (second : ∀ a, Frames R (f a)) :
    Frames R (m >>= f) := fun s =>
  (first s).bind fun a _ before => (second a).after before

theorem Frames.tryCatch {handler : ε → EStateM ε σ α} (first : Frames R m)
    (second : ∀ e, Frames R (handler e)) : Frames R (tryCatch m handler) := by
  intro s
  refine leads_tryCatch ((first s).mono (fun _ _ before => before) fun e s' before => ?_)
  exact (second e).after before

theorem frames_forM {γ : Type} (items : List γ) {body : γ → EStateM ε σ PUnit}
    (each : ∀ item ∈ items, Frames R (body item)) : Frames R (items.forM body) := by
  induction items with
  | nil => exact frames_pure _
  | cons item rest ih =>
    exact (each item List.mem_cons_self).bind fun _ =>
      ih fun other inside => each other (List.mem_cons_of_mem item inside)

end Frames

/-! ### What a computation ignores -/

/-- The same result or the same error, in states that are related. -/
inductive Agree (R : σ → σ → Prop) : EStateM.Result ε σ α → EStateM.Result ε σ α → Prop where
  | ok (a : α) {s s' : σ} (related : R s s') : Agree R (.ok a s) (.ok a s')
  | error (e : ε) {s s' : σ} (related : R s s') : Agree R (.error e s) (.error e s')

/-- In related states the computation does the same: it ignores in what they differ. -/
def Ignores (R : σ → σ → Prop) (m : EStateM ε σ α) : Prop :=
  ∀ s s', R s s' → Agree R (m s) (m s')

section Ignores

variable {R : σ → σ → Prop}

theorem ignores_pure (a : α) : Ignores R (pure a : EStateM ε σ α) := fun _ _ => .ok a

theorem ignores_throw (e : ε) : Ignores R (throw e : EStateM ε σ α) := fun _ _ => .error e

theorem ignores_modify {f : σ → σ} (kept : ∀ s s', R s s' → R (f s) (f s')) :
    Ignores R (modify f : EStateM ε σ PUnit) := fun s s' related => .ok _ (kept s s' related)

theorem Ignores.bind {m : EStateM ε σ α} {f : α → EStateM ε σ β} (first : Ignores R m)
    (second : ∀ a, Ignores R (f a)) : Ignores R (m >>= f) := by
  intro s s' related
  show Agree R (EStateM.bind m f s) (EStateM.bind m f s')
  have outcomes := first s s' related
  unfold EStateM.bind
  generalize m s = one at outcomes
  generalize m s' = other at outcomes
  cases outcomes with
  | ok a next => exact second a _ _ next
  | error e next => exact .error e next

theorem Ignores.tryCatch {m : EStateM ε σ α} {handler : ε → EStateM ε σ α} (first : Ignores R m)
    (second : ∀ e, Ignores R (handler e)) : Ignores R (tryCatch m handler) := by
  intro s s' related
  show Agree R (EStateM.tryCatch m handler s) (EStateM.tryCatch m handler s')
  have outcomes := first s s' related
  unfold EStateM.tryCatch
  generalize m s = one at outcomes
  generalize m s' = other at outcomes
  cases outcomes with
  | ok a next => exact .ok a next
  | error e next => exact second e _ _ next

/-- After reading the state, what follows starts in it. -/
theorem ignores_get_bind {f : σ → EStateM ε σ β} (next : ∀ s s', R s s' → Agree R (f s s) (f s' s')) :
    Ignores R (get >>= f) := next

/-- After writing related states, what follows starts in them. -/
theorem ignores_set_bind {m : EStateM ε σ β} {s s' t t' : σ} (related : R s s')
    (next : Ignores R m) :
    Agree R ((set s >>= fun _ => m) t) ((set s' >>= fun _ => m) t') := next s s' related

end Ignores

/-- Whether a computation returned. -/
def returned : EStateM.Result ε σ α → Bool
  | .ok _ _ => true
  | .error _ _ => false

variable {outcome : EStateM.Result ε σ Unit}

theorem exists_of_returned (ok : returned outcome) : ∃ s, outcome = .ok () s := by
  cases outcome with
  | ok _ s => exact ⟨s, rfl⟩
  | error _ _ => cases ok

theorem Agree.returned {R : σ → σ → Prop} {outcome' : EStateM.Result ε σ Unit}
    (agree : Agree R outcome outcome') {s : σ} (ok : outcome = .ok () s) :
    ∃ s', outcome' = .ok () s' := by
  subst ok
  cases agree with
  | ok _ _ => exact ⟨_, rfl⟩

end Stateful
