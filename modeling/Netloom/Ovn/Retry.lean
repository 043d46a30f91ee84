import Netloom.Lib.Doubling
import Netloom.Strings

/-!
# Attempts of a command and the backoff between them

The limit is checked after a doubling only. A first delay above the limit is not cut, and
with a limit in the upper half of the range a doubling can wrap around before it is checked.

A command that fails is run again, or gives way to a command line that an older database
takes, as its error says.
-/
namespace Netloom.Ovn

open Doubling Int64 List

structure NBCTLRetryPolicy where
  attempts : Int
  initialBackoff : Int64
  maxBackoff : Int64

/-- `retryPolicy`: what is not positive gets its default. -/
def retryPolicy (policy : NBCTLRetryPolicy) : NBCTLRetryPolicy where
  attempts := if policy.attempts ≤ 0 then 1 else policy.attempts
  initialBackoff := if policy.initialBackoff ≤ 0 then 50000000 else policy.initialBackoff
  maxBackoff := if policy.maxBackoff ≤ 0 then 500000000 else policy.maxBackoff

section
variable (double : Int64 → Option Int64)

/-- The loop of `backoff` with this many rounds left: the limit is checked after doubling. -/
def retryBackoffLoop (maxBackoff : Int64) : Nat → Int64 → Option Int64
  | 0, delay => some delay
  | rounds + 1, delay => (double delay).bind fun delay =>
    if delay > maxBackoff then some maxBackoff else retryBackoffLoop maxBackoff rounds delay

def backoff (p : NBCTLRetryPolicy) (attempt : Int) : Option Int64 :=
  if attempt ≤ 0 ∨ p.initialBackoff ≤ 0 then some 0
  else if p.attempts ≤ 1 then some 0
  else retryBackoffLoop double p.maxBackoff (attempt - 1).toNat p.initialBackoff

end

/-- A policy that only sets its first delay waits for longer than the default limit, and one
without much of a limit for less than nothing. -/
theorem backoff_outside_limit :
    (retryPolicy ⟨2, 1000000000, 0⟩).maxBackoff = 500000000 ∧
    backoff wrapping (retryPolicy ⟨2, 1000000000, 0⟩) 1 = some 1000000000 ∧
    backoff wrapping (retryPolicy ⟨3, 2 ^ 62, maxValue⟩) 2 = some minValue := by
  decide +kernel

/-- The first delay is within the limit, and no delay within it is doubled beyond 64 bits. -/
def Doubles (delay maxBackoff : Int) : Prop :=
  delay ≤ maxBackoff ∧ ∀ rounds : Nat, delay * 2 ^ rounds ≤ maxBackoff → delay * 2 ^ rounds < 2 ^ 62

theorem retryBackoffLoop_eq {double : Int64 → Option Int64} (agrees : Agrees double)
    {delay maxBackoff : Int64} (positive : 0 < delay.toInt)
    (doubles : Doubles delay.toInt maxBackoff.toInt) (rounds : Nat) :
    retryBackoffLoop double maxBackoff rounds delay =
      some (ofInt (min (delay.toInt * 2 ^ rounds) maxBackoff.toInt)) := by
  induction rounds generalizing delay with
  | zero => simp [retryBackoffLoop, doubles.1]
  | succ rounds ih =>
    have doubled := toInt_double positive (by simpa using doubles.2 0 (by simpa using doubles.1))
    have power : (1 : Int) ≤ 2 ^ rounds := one_le_pow₀ (by omega)
    rw [retryBackoffLoop, agrees _ doubled, Option.bind_some, pow_succ', ← mul_assoc, ← doubled]
    split
    · next beyond =>
      have above := lt_iff_toInt_lt.mp beyond
      rw [min_eq_right (by nlinarith), ofInt_toInt]
    · next within =>
      rw [gt_iff_lt, lt_iff_toInt_lt, not_lt] at within
      -- the delays to come are those of this run
      refine ih (by omega) ⟨within, fun more below => ?_⟩
      simpa [doubled, pow_succ', mul_assoc] using
        doubles.2 (more + 1) (by simpa [doubled, pow_succ', mul_assoc] using below)

/-- A run that does not trap has doubled every delay within the limit exactly. -/
theorem small_of_trapping {delay maxBackoff result : Int64} (positive : 0 < delay.toInt)
    (rounds : Nat) (within : delay.toInt * 2 ^ rounds ≤ maxBackoff.toInt)
    (run : retryBackoffLoop trapping maxBackoff (rounds + 1) delay = some result) :
    delay.toInt * 2 ^ rounds < 2 ^ 62 := by
  induction rounds generalizing delay with
  | zero =>
    obtain ⟨double, trapped, _⟩ := Option.bind_eq_some_iff.mp run
    simpa using (exact_of_trapping trapped).2
  | succ rounds ih =>
    obtain ⟨double, trapped, run⟩ := Option.bind_eq_some_iff.mp run
    have doubled := (exact_of_trapping trapped).1
    have power : (1 : Int) ≤ 2 ^ rounds := one_le_pow₀ (by omega)
    rw [pow_succ', ← mul_assoc, ← doubled] at within ⊢
    have below : ¬ double > maxBackoff := by
      rw [gt_iff_lt, lt_iff_toInt_lt, not_lt]
      nlinarith
    rw [if_neg below] at run
    exact ih (by omega) within run

/-- The delays of a policy stay within its limit, do not fall and are computed exactly, unless
its first delay is above the limit or is doubled beyond 64 bits on the way there. -/
theorem backoff_bounded_iff (policy : NBCTLRetryPolicy) :
    (∃ delay : Int → Int64, ∀ attempt ≥ 1,
      backoff wrapping (retryPolicy policy) attempt = some (delay attempt) ∧
      backoff trapping (retryPolicy policy) attempt = some (delay attempt) ∧
      0 ≤ delay attempt ∧ delay attempt ≤ (retryPolicy policy).maxBackoff ∧
      ∀ later ≥ attempt, delay attempt ≤ delay later) ↔
    (1 < policy.attempts → Doubles (retryPolicy policy).initialBackoff.toInt
      (retryPolicy policy).maxBackoff.toInt) := by
  have positive : 0 < (retryPolicy policy).initialBackoff.toInt := positive_default (by decide)
  have limit : 0 < (retryPolicy policy).maxBackoff.toInt := positive_default (by decide)
  have attempts : (retryPolicy policy).attempts ≤ 1 ↔ ¬ 1 < policy.attempts := by
    simp only [retryPolicy]
    split <;> omega
  generalize retryPolicy policy = p at *
  have started : ¬ p.initialBackoff ≤ 0 := by
    rw [Int64.not_le]
    exact lt_iff_toInt_lt.mpr positive
  have unfolded : ∀ double, ∀ attempt ≥ 1, backoff double p attempt =
      if 1 < policy.attempts then
        retryBackoffLoop double p.maxBackoff (attempt - 1).toNat p.initialBackoff
      else some 0 := by
    intro double attempt first
    rw [backoff, if_neg (by simp [started]; omega)]
    simp only [attempts, ite_not]
  constructor
  · rintro ⟨delay, runs⟩ several
    constructor
    · obtain ⟨first, _, _, within, _⟩ := runs 1 le_rfl
      rw [unfolded _ _ le_rfl, if_pos several] at first
      rw [← le_iff_toInt_le, Option.some.inj first]
      exact within
    · intro rounds within
      obtain ⟨_, run, _⟩ := runs (rounds + 2) (by omega)
      rw [unfolded _ _ (by omega), if_pos several,
        show ((rounds : Int) + 2 - 1).toNat = rounds + 1 by omega] at run
      exact small_of_trapping positive rounds within run
  · intro doubles
    by_cases several : 1 < policy.attempts
    · have run : ∀ {double}, Agrees double → ∀ attempt ≥ 1, backoff double p attempt =
          some (ofInt (min (p.initialBackoff.toInt * 2 ^ (attempt - 1).toNat) p.maxBackoff.toInt)) := by
        intro double agrees attempt first
        rw [unfolded _ _ first, if_pos several]
        exact retryBackoffLoop_eq agrees positive (doubles several) _
      have least : ∀ rounds : Nat,
          0 ≤ min (p.initialBackoff.toInt * 2 ^ rounds) p.maxBackoff.toInt :=
        fun rounds => le_min (by positivity) limit.le
      refine ⟨_, fun attempt first =>
        ⟨run agrees_wrapping _ first, run agrees_trapping _ first, ?_⟩⟩
      simp only [le_iff_toInt_le, @toInt_ofInt _ 0 _ (least _) (min_le_right _ _)]
      refine ⟨least _, min_le_right _ _, fun later more => ?_⟩
      gcongr <;> omega
    · refine ⟨fun _ => 0, fun attempt first => ?_⟩
      simp [unfolded _ _ first, several, le_iff_toInt_le, limit.le]

/-! ### Attempts and fallbacks -/

/-- A command line. -/
abbrev Args := List String

/-- `strings.Contains` for one of the texts. -/
def mentions (err : String) (texts : List String) : Bool :=
  texts.any fun text => text.toList <:+: err.toList

def isRetryableNBCTLCommandError (err : String) : Bool :=
  mentions err ["database is busy", "database is locked", "transaction is already committed",
    "Transaction in progress", "another transaction", "connection refused", "failed to connect",
    "No such file or directory", "Connection reset by peer", "broken pipe"]

def isNATFallbackableError (err : String) : Bool :=
  mentions err ["logical_port_range", "external_port_range",
    "column whose name matches \"protocol\"", "column \"protocol\""]

open Strings

/-! ### Candidates -/

def hasAnyNATArgPrefix (args : Args) (starts : List String) : Bool :=
  args.any fun arg => starts.any (hasPrefix arg)

def hasNATRangeArgs (args : Args) : Bool :=
  hasAnyNATArgPrefix args ["external_port_range=", "logical_port_range="]

def hasNATProtocolArg (args : Args) : Bool := hasAnyNATArgPrefix args ["protocol="]

def legacyNATRangeArgs (args : Args) : Args :=
  args.map fun arg => replaceAll (replaceAll arg "external_port_range=" "external_port=")
    "logical_port_range=" "logical_port="

def removeNATProtocolArg (args : Args) : Args := args.filter fun arg => !hasPrefix arg "protocol="

/-- The command line, and what an older database may take in its place. -/
def natFallbackArgs (args : Args) : List Args :=
  if hasNATRangeArgs args then
    let rangeArgs := legacyNATRangeArgs args
    let candidates := if rangeArgs ≠ args then [args, rangeArgs] else [args]
    if hasNATProtocolArg rangeArgs && !candidates.contains (removeNATProtocolArg rangeArgs) then
      candidates ++ [removeNATProtocolArg rangeArgs]
    else candidates
  else if hasNATProtocolArg args && removeNATProtocolArg args ≠ args then
    [args, removeNATProtocolArg args]
  else [args]

/-- The command line itself is tried first, and no candidate twice. -/
theorem natFallbackArgs_spec (args : Args) :
    (∃ rest, natFallbackArgs args = args :: rest) ∧ (natFallbackArgs args).Nodup := by
  have two : ∀ {other : Args}, other ≠ args → [args, other].Nodup := fun differ => by
    simpa using differ.symm
  unfold natFallbackArgs
  split
  · extract_lets rangeArgs candidates
    have base : (∃ rest, candidates = args :: rest) ∧ candidates.Nodup := by
      unfold candidates
      split
      · next differ => exact ⟨⟨_, rfl⟩, two differ⟩
      · exact ⟨⟨_, rfl⟩, nodup_singleton args⟩
    obtain ⟨⟨rest, first⟩, nodup⟩ := base
    split
    · next more =>
      simp only [Bool.and_eq_true, Bool.not_eq_true', contains_eq_mem, decide_eq_false_iff_not] at more
      exact ⟨⟨_, by rw [first]; rfl⟩, nodup.append (nodup_singleton _) (by simpa using more.2)⟩
    · exact ⟨⟨rest, first⟩, nodup⟩
  · split
    · next more =>
      simp only [Bool.and_eq_true, decide_eq_true_eq] at more
      exact ⟨⟨_, rfl⟩, two more.2⟩
    · exact ⟨⟨_, rfl⟩, nodup_singleton args⟩

/-! ### Attempts -/

/-- How the loop over the attempts ends: the source returns from it or breaks out of it. -/
inductive Ended (Output : Type) where
  | returned (result : Except String Output)
  | fallsBack (err : String)

section
variable {Output : Type} (policy : NBCTLRetryPolicy)
  (command : List Args → Args → Except String Output)
  (sleepWithContext : List Args → Int64 → Except String Unit)

/-- The wait before an attempt with `left` more after it. -/
def waitBefore (ran : List Args) (left : Nat) : Except String Unit :=
  ((backoff wrapping policy (policy.attempts - (left + 1))).filter (0 < ·)).elim (.ok ())
    (sleepWithContext ran)

/-- The attempts at a candidate, with `left` more after this one. What a command or a wait
comes to depends on the commands that ran before. -/
def attemptLoop (candidate : Args) (left : Nat) (ran : List Args) :
    List Args × Ended Output :=
  let now := ran ++ [candidate]
  match command ran candidate with
  | .ok output => (now, .returned (.ok output))
  | .error err =>
    if isNATFallbackableError err then (now, .fallsBack err)
    else if !isRetryableNBCTLCommandError err then (now, .returned (.error err))
    else match left with
      | 0 => (now, .returned (.error err))
      | left + 1 =>
        match waitBefore policy sleepWithContext now left with
        | .error err => (now, .returned (.error err))
        | .ok () => attemptLoop candidate left now

/-- The attempts at a candidate after the first one. -/
def attemptsLeft : Nat := (policy.attempts - 1).toNat

/-- The loop over the candidates. -/
def candidateLoop (lastErr : String) (ran : List Args) :
    List Args → List Args × Except String Output
  | [] => (ran, .error lastErr)
  | candidate :: rest =>
    match attemptLoop policy command sleepWithContext candidate (attemptsLeft policy) ran with
    | (ran, .returned result) => (ran, result)
    | (ran, .fallsBack err) => candidateLoop err ran rest

def executeWithRetry (args : Args) : List Args × Except String Output :=
  candidateLoop policy command sleepWithContext "" [] (natFallbackArgs args)

/-! ### When commands run -/

/-- An error that calls for the same command again. -/
def Retries (err : String) : Prop :=
  isNATFallbackableError err = false ∧ isRetryableNBCTLCommandError err = true

/-- These commands have run, and these candidates remain, the first with `left` attempts after
the next one. A command is repeated after an error that calls for it, if an attempt is left and
the wait is over, and gives way to the next candidate after one that calls for a fallback. -/
inductive Ran (candidates : List Args) : List Args → Nat → List Args → Prop
  | start : Ran candidates [] (attemptsLeft policy) candidates
  | again {ran left args rest err} : Ran candidates ran (left + 1) (args :: rest) →
    command ran args = .error err → Retries err →
    waitBefore policy sleepWithContext (ran ++ [args]) left = .ok () →
    Ran candidates (ran ++ [args]) left (args :: rest)
  | next {ran left args rest err} : Ran candidates ran left (args :: rest) →
    command ran args = .error err → isNATFallbackableError err →
    Ran candidates (ran ++ [args]) (attemptsLeft policy) rest

/-- Where a call ends, and with what: at a success, at an error that is not retryable or came at
the last attempt, at a wait that is cut off, or with no candidate left. -/
inductive Ends : List Args → Nat → List Args → List Args × Except String Output → Prop
  | succeeded {ran left args rest output} : command ran args = .ok output →
    Ends ran left (args :: rest) (ran ++ [args], .ok output)
  | failed {ran left args rest err} : command ran args = .error err →
    isNATFallbackableError err = false → isRetryableNBCTLCommandError err = false ∨ left = 0 →
    Ends ran left (args :: rest) (ran ++ [args], .error err)
  | cancelled {ran left args rest err cause} : command ran args = .error err → Retries err →
    waitBefore policy sleepWithContext (ran ++ [args]) left = .error cause →
    Ends ran (left + 1) (args :: rest) (ran ++ [args], .error cause)
  | exhausted {ran left args err} : command ran args = .error err → isNATFallbackableError err →
    Ends (ran ++ [args]) left [] (ran ++ [args], .error err)

/-- How the attempts at a candidate end after the commands before. -/
def Ended.Fits (ran : List Args) (left : Nat) (args : Args) (rest : List Args) :
    Ended Output → Prop
  | returned result =>
    Ends policy command sleepWithContext ran left (args :: rest) (ran ++ [args], result)
  | fallsBack err => command ran args = .error err ∧ isNATFallbackableError err

variable {policy command sleepWithContext} {candidates : List Args}

theorem attemptLoop_spec {candidate : Args} {rest ran now : List Args} {left : Nat}
    {ended : Ended Output}
    (reached : Ran policy command sleepWithContext candidates ran left (candidate :: rest))
    (loop : attemptLoop policy command sleepWithContext candidate left ran = (now, ended)) :
    ∃ earlier left, now = earlier ++ [candidate] ∧
      Ran policy command sleepWithContext candidates earlier left (candidate :: rest) ∧
      ended.Fits policy command sleepWithContext earlier left candidate rest := by
  fun_induction attemptLoop policy command sleepWithContext candidate left ran with
  | case1 left ran _ output outcome =>
    obtain ⟨rfl, rfl⟩ := Prod.mk.inj loop
    exact ⟨ran, left, rfl, reached, .succeeded outcome⟩
  | case2 left ran _ err outcome falls =>
    obtain ⟨rfl, rfl⟩ := Prod.mk.inj loop
    exact ⟨ran, left, rfl, reached, outcome, falls⟩
  | case3 left ran _ err outcome stays final =>
    obtain ⟨rfl, rfl⟩ := Prod.mk.inj loop
    exact ⟨ran, left, rfl, reached, .failed outcome (by simpa using stays) (.inl (by simpa using final))⟩
  | case4 ran _ err outcome stays _ =>
    obtain ⟨rfl, rfl⟩ := Prod.mk.inj loop
    exact ⟨ran, 0, rfl, reached, .failed outcome (by simpa using stays) (.inr rfl)⟩
  | case5 ran _ err outcome stays retries left cause waits =>
    obtain ⟨rfl, rfl⟩ := Prod.mk.inj loop
    exact ⟨ran, left + 1, rfl, reached,
      .cancelled outcome ⟨by simpa using stays, by simpa using retries⟩ waits⟩
  | case6 ran now err outcome stays retries left waits ih =>
    exact ih (reached.again outcome ⟨by simpa using stays, by simpa using retries⟩ waits) loop

theorem candidateLoop_spec (lastErr : String) {ran remaining : List Args}
    (reached : Ran policy command sleepWithContext candidates ran (attemptsLeft policy) remaining)
    (last : remaining = [] → ∃ earlier args, ran = earlier ++ [args] ∧
      command earlier args = .error lastErr ∧ isNATFallbackableError lastErr) :
    ∃ ran' left remaining', Ran policy command sleepWithContext candidates ran' left remaining' ∧
      Ends policy command sleepWithContext ran' left remaining'
        (candidateLoop policy command sleepWithContext lastErr ran remaining) := by
  fun_induction candidateLoop policy command sleepWithContext lastErr ran remaining with
  | case1 lastErr ran =>
    obtain ⟨earlier, args, rfl, outcome, falls⟩ := last rfl
    exact ⟨_, _, [], reached, .exhausted outcome falls⟩
  | case2 _ ran candidate rest _ result loop =>
    obtain ⟨earlier, left, rfl, reached, ends⟩ := attemptLoop_spec reached loop
    exact ⟨earlier, left, _, reached, ends⟩
  | case3 _ ran candidate rest _ err loop ih =>
    obtain ⟨earlier, left, rfl, reached, outcome, falls⟩ := attemptLoop_spec reached loop
    exact ih (reached.next outcome falls) fun _ => ⟨earlier, candidate, rfl, outcome, falls⟩

/-- The runs of a command so far and those it may still have, before later candidates. -/
theorem Ran.count_le {ran remaining : List Args} {left : Nat}
    (reached : Ran policy command sleepWithContext candidates ran left remaining) (args : Args) :
    ran.count args + (remaining.take 1).count args * (left + 1) +
      (remaining.drop 1).count args * (attemptsLeft policy + 1) ≤
        candidates.count args * (attemptsLeft policy + 1) := by
  induction reached with
  | start =>
    rw [count_nil, Nat.zero_add, ← Nat.add_mul, ← count_append, take_append_drop]
  | @again ran left first rest err _ _ _ _ ih =>
    simp only [take_succ_cons, take_zero, drop_succ_cons, drop_zero, count_append] at ih ⊢
    rw [Nat.mul_succ] at ih
    omega
  | @next ran left first rest err _ _ _ ih =>
    have parts : rest.count args = (rest.take 1).count args + (rest.drop 1).count args := by
      rw [← count_append, take_append_drop]
    simp only [take_succ_cons, take_zero, drop_succ_cons, drop_zero, count_append, parts,
      Nat.add_mul, Nat.mul_succ] at ih ⊢
    omega

/-- The last command of a call that has ended decides about its result, and it was among the
attempts that were left. -/
theorem Ends.last {ran remaining : List Args} {left : Nat} {run : List Args × Except String Output}
    (ends : Ends policy command sleepWithContext ran left remaining run) :
    (∃ earlier last, run.1 = earlier ++ [last] ∧
      ∀ output, run.2 = .ok output ↔ command earlier last = .ok output) ∧
    ∀ args, run.1.count args ≤ ran.count args + (remaining.take 1).count args * (left + 1) := by
  have grows : ∀ (ran rest : List Args) (first args : Args) (left : Nat), (ran ++ [first]).count args ≤
      ran.count args + ((first :: rest).take 1).count args * (left + 1) := by
    intro ran rest first args left
    rw [count_append, take_succ_cons, take_zero, Nat.mul_succ]
    omega
  cases ends with
  | succeeded outcome | failed outcome | cancelled outcome =>
    exact ⟨⟨_, _, rfl, by simp [outcome]⟩, fun _ => grows ..⟩
  | exhausted outcome => exact ⟨⟨_, _, rfl, by simp [outcome]⟩, fun _ => Nat.le_add_right _ _⟩

/-- A call runs the candidates of a command line as the errors before tell it, up to a point where
it may end, and returns what is due there. No command runs more often than the policy has
attempts, and the result is the output of the last one exactly if that succeeded. -/
theorem executeWithRetry_finishes (policy : NBCTLRetryPolicy)
    (command : List Args → Args → Except String Output)
    (sleepWithContext : List Args → Int64 → Except String Unit) (args : Args) :
    let run := executeWithRetry (retryPolicy policy) command sleepWithContext args
    (∃ ran left remaining, Ran (retryPolicy policy) command sleepWithContext (natFallbackArgs args)
        ran left remaining ∧
      Ends (retryPolicy policy) command sleepWithContext ran left remaining run) ∧
    (∀ candidate, run.1.count candidate ≤ (retryPolicy policy).attempts.toNat) ∧
    ∃ earlier last, run.1 = earlier ++ [last] ∧
      ∀ output, run.2 = .ok output ↔ command earlier last = .ok output := by
  intro run
  obtain ⟨⟨rest, first⟩, nodup⟩ := natFallbackArgs_spec args
  have begun : Ran (retryPolicy policy) command sleepWithContext (natFallbackArgs args) [] _ _ :=
    .start
  obtain ⟨ran, left, remaining, reached, ends⟩ := candidateLoop_spec "" begun (by simp [first])
  refine ⟨⟨ran, left, remaining, reached, ends⟩, fun candidate => ?_, ends.last.1⟩
  have positive : (retryPolicy policy).attempts.toNat = attemptsLeft (retryPolicy policy) + 1 := by
    simp only [attemptsLeft, retryPolicy]
    split <;> omega
  have once := Nat.mul_le_mul_right (attemptsLeft (retryPolicy policy) + 1)
    (nodup_iff_count_le_one.mp nodup candidate)
  have bound := reached.count_le candidate
  have last : run.1.count candidate ≤ _ := ends.last.2 candidate
  omega

end

end Netloom.Ovn
