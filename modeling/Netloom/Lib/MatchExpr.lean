import Mathlib.Data.List.SplitBy
import Mathlib.Tactic.Common

/-!
# Match expressions

Texts of comparisons and flags that are joined by `&&` and `||` and grouped by
parentheses, where `&&` binds tighter. A text is cut into tokens, read by
recursive descent and evaluated over an environment that decides flags and
comparisons.
-/
namespace MatchExpr

open List

/-! ### Tokens -/

inductive Relop where
  | eq
  | ne
  | lt
  | le
  | gt
  | ge
  deriving DecidableEq, Repr

def Relop.holds (op : Relop) (left right : Nat) : Bool :=
  match op with
  | eq => left = right
  | ne => left ≠ right
  | lt => left < right
  | le => left ≤ right
  | gt => right < left
  | ge => right ≤ left

def Relop.text : Relop → String
  | eq => "=="
  | ne => "!="
  | lt => "<"
  | le => "<="
  | gt => ">"
  | ge => ">="

inductive Token where
  | opening
  | closing
  | conj
  | disj
  | rel (op : Relop)
  | word (chars : List Char)
  | stray (chars : List Char)
  deriving DecidableEq, Repr

def isSign (c : Char) : Bool := "&|=!<>".toList.contains c

def isBlank (c : Char) : Bool := c = ' ' || c = '\t' || c = '\n' || c = '\r'

def isWordChar (c : Char) : Bool := !(isSign c || isBlank c || c = '(' || c = ')')

/-- Signs stick to signs and letters to letters. -/
def together (left right : Char) : Bool :=
  (isSign left && isSign right) || (isWordChar left && isWordChar right)

def tokenOfSigns (chars : List Char) : Token :=
  if chars = ['&', '&'] then .conj
  else if chars = ['|', '|'] then .disj
  else match [Relop.eq, .ne, .lt, .le, .gt, .ge].find? fun op => op.text.toList = chars with
    | some op => .rel op
    | none => .stray chars

/-- The token of a run of characters; a blank gives none. -/
def tokenOf (chars : List Char) : Option Token :=
  match chars with
  | [] => none
  | c :: _ =>
    if isBlank c then none
    else if c = '(' then some .opening
    else if c = ')' then some .closing
    else if isSign c then some (tokenOfSigns chars)
    else some (.word chars)

def lex (chars : List Char) : List Token := (chars.splitBy together).filterMap tokenOf

theorem lex_append {left right : List Char}
    (apart : ∀ x ∈ left.getLast?, ∀ y ∈ right.head?, together x y = false) :
    lex (left ++ right) = lex left ++ lex right := by
  rw [lex, splitBy_append apart, filterMap_append, lex, lex]

/-- Blanks and parentheses stick to nothing. -/
abbrev Lonely (c : Char) : Prop := isSign c = false ∧ isWordChar c = false

variable {c : Char}

theorem together_of_lonely (lonely : Lonely c) (other : Char) :
    together c other = false ∧ together other c = false := by
  simp [together, lonely.1, lonely.2]

theorem lex_lonely (lonely : Lonely c) (left right : List Char) :
    lex (left ++ c :: right) = lex left ++ lex [c] ++ lex right := by
  have before : lex (left ++ [c]) = lex left ++ lex [c] := by
    refine lex_append fun x _ y member => ?_
    obtain rfl : c = y := by simpa using member
    exact (together_of_lonely lonely x).2
  have after : lex ((left ++ [c]) ++ right) = lex (left ++ [c]) ++ lex right := by
    refine lex_append fun x member y _ => ?_
    obtain rfl : c = x := by simpa using member
    exact (together_of_lonely lonely y).1
  rw [← before, ← after, append_assoc, singleton_append]

theorem lex_blank (left right : List Char) : lex (left ++ ' ' :: right) = lex left ++ lex right := by
  rw [lex_lonely (by decide), show lex [' '] = [] by decide, append_nil]

theorem lex_group (chars : List Char) :
    lex ('(' :: (chars ++ [')'])) = .opening :: (lex chars ++ [.closing]) := by
  have opened := lex_lonely (c := '(') (by decide) [] (chars ++ [')'])
  have closed := lex_lonely (c := ')') (by decide) chars []
  rw [nil_append] at opened
  rw [opened, closed, show lex ['('] = [.opening] by decide, show lex [')'] = [.closing] by decide]
  simp [lex]

/-- A text that is one word. -/
def IsWord (chars : List Char) : Prop := chars ≠ [] ∧ ∀ c ∈ chars, isWordChar c = true

instance (chars : List Char) : Decidable (IsWord chars) :=
  decidable_of_iff (chars ≠ [] ∧ chars.all isWordChar) (by simp [IsWord])

theorem lex_word {chars : List Char} (word : IsWord chars) : lex chars = [.word chars] := by
  obtain ⟨full, letters⟩ := word
  have chain : chars.IsChain fun x y => together x y := by
    refine List.Pairwise.isChain (pairwise_of_forall_mem_list fun x left y right => ?_)
    simp [together, letters x left, letters y right]
  obtain ⟨first, rest, rfl⟩ := exists_cons_of_ne_nil full
  have letter := letters first (by simp)
  simp only [isWordChar, Bool.not_eq_true', Bool.or_eq_false_iff, decide_eq_false_iff_not] at letter
  rw [lex, splitBy_of_isChain full chain]
  simp [tokenOf, letter.1.1.1, letter.1.1.2, letter.1.2, letter.2]

/-! ### Reading -/

inductive Expr where
  | flag (name : List Char)
  | compare (left : List Char) (op : Relop) (right : List Char)
  | conj (left right : Expr)
  | disj (left right : Expr)
  deriving DecidableEq, Repr

inductive Level where
  | operand
  | conj
  | disj

/-- Reads an expression of a level off the front of the tokens. The fuel bounds the
depth of the descent. -/
def parseAt : Nat → Level → List Token → Option (Expr × List Token)
  | 0, _, _ => none
  | _ + 1, .operand, .word left :: .rel op :: .word right :: rest =>
    some (.compare left op right, rest)
  | _ + 1, .operand, .word name :: rest => some (.flag name, rest)
  | fuel + 1, .operand, .opening :: rest =>
    match parseAt fuel .disj rest with
    | some (inner, .closing :: rest) => some (inner, rest)
    | _ => none
  | _ + 1, .operand, _ => none
  | fuel + 1, .conj, tokens =>
    match parseAt fuel .operand tokens with
    | some (left, .conj :: rest) =>
      (parseAt fuel .conj rest).map fun (right, rest) => (.conj left right, rest)
    | result => result
  | fuel + 1, .disj, tokens =>
    match parseAt fuel .conj tokens with
    | some (left, .disj :: rest) =>
      (parseAt fuel .disj rest).map fun (right, rest) => (.disj left right, rest)
    | result => result

/-- The whole list of tokens as one expression. -/
def parse (tokens : List Token) : Option Expr :=
  match parseAt (3 * tokens.length) .disj tokens with
  | some (expr, []) => some expr
  | _ => none

/-- What may follow an expression of a level. -/
def Ends : Level → List Token → Prop
  | .operand, rest => ∀ op, rest.head? ≠ some (.rel op)
  | .conj, rest => (∀ op, rest.head? ≠ some (.rel op)) ∧ rest.head? ≠ some .conj
  | .disj, rest => (∀ op, rest.head? ≠ some (.rel op)) ∧ rest.head? ≠ some .conj ∧
      rest.head? ≠ some .disj

def slack : Level → Nat
  | .operand => 2
  | .conj => 1
  | .disj => 0

/-- The tokens are read as the expression, whatever ends it. -/
def Reads (level : Level) (tokens : List Token) (expr : Expr) : Prop :=
  tokens ≠ [] ∧ ∀ fuel rest, Ends level rest → 3 * tokens.length ≤ fuel + slack level →
    parseAt fuel level (tokens ++ rest) = some (expr, rest)

variable {tokens : List Token} {expr : Expr}

theorem Reads.parse (reads : Reads .disj tokens expr) : parse tokens = some expr := by
  have whole := reads.2 (3 * tokens.length) [] (by simp [Ends]) (by simp [slack])
  rw [append_nil] at whole
  rw [MatchExpr.parse, whole]

theorem reads_flag (name : List Char) : Reads .operand [.word name] (.flag name) := by
  refine ⟨by simp, fun fuel rest ends enough => ?_⟩
  obtain ⟨fuel, rfl⟩ : ∃ n, fuel = n + 1 := ⟨fuel - 1, by simp [slack] at enough; omega⟩
  match rest, ends with
  | [], _ => rfl
  | .rel op :: _, ends => exact absurd rfl (ends op)
  | .opening :: _, _ | .closing :: _, _ | .conj :: _, _ | .disj :: _, _ | .word _ :: _, _
  | .stray _ :: _, _ => rfl

theorem reads_compare (left : List Char) (op : Relop) (right : List Char) :
    Reads .operand [.word left, .rel op, .word right] (.compare left op right) := by
  refine ⟨by simp, fun fuel rest _ enough => ?_⟩
  obtain ⟨fuel, rfl⟩ : ∃ n, fuel = n + 1 := ⟨fuel - 1, by simp [slack] at enough; omega⟩
  rfl

theorem Reads.group (reads : Reads .disj tokens expr) :
    Reads .operand (.opening :: (tokens ++ [.closing])) expr := by
  refine ⟨by simp, fun fuel rest _ enough => ?_⟩
  simp only [length_cons, length_append, slack] at enough
  obtain ⟨fuel, rfl⟩ : ∃ n, fuel = n + 1 := ⟨fuel - 1, by omega⟩
  have inner := reads.2 fuel (.closing :: rest) (by simp [Ends]) (by simp [slack]; omega)
  simp [parseAt, inner]

/-- The two connectives. -/
inductive Join where
  | and
  | or

namespace Join

def text : Join → String
  | and => " && "
  | or => " || "

def token : Join → Token
  | and => .conj
  | or => .disj

def node : Join → Expr → Expr → Expr
  | and => .conj
  | or => .disj

/-- The level of what is joined. -/
def inner : Join → Level
  | and => .operand
  | or => .conj

def outer : Join → Level
  | and => .conj
  | or => .disj

end Join

theorem Join.slack_inner (join : Join) :
    slack join.inner = slack join.outer + 1 ∧ slack join.outer ≤ 1 := by
  cases join <;> decide

theorem Reads.lift (join : Join) (reads : Reads join.inner tokens expr) :
    Reads join.outer tokens expr := by
  refine ⟨reads.1, fun fuel rest ends enough => ?_⟩
  have some := length_pos_iff.mpr reads.1
  have slack := join.slack_inner
  obtain ⟨fuel, rfl⟩ : ∃ n, fuel = n + 1 := ⟨fuel - 1, by omega⟩
  have first := reads.2 fuel rest (by cases join; exacts [ends.1, ⟨ends.1, ends.2.1⟩]) (by omega)
  cases join
  all_goals
    simp only [Join.inner] at first
    simp only [Join.outer, parseAt, first]
    split
    · next left after same =>
      simp only [Option.some.injEq, Prod.mk.injEq] at same
      simp [Ends, Join.outer, same.2] at ends
    · rfl

theorem Reads.join {join : Join} {front back : List Token} {left right : Expr}
    (first : Reads join.inner front left) (next : Reads join.outer back right) :
    Reads join.outer (front ++ join.token :: back) (join.node left right) := by
  refine ⟨by simp, fun fuel rest ends enough => ?_⟩
  have some := length_pos_iff.mpr first.1
  have slack := join.slack_inner
  rw [length_append, length_cons] at enough
  obtain ⟨fuel, rfl⟩ : ∃ n, fuel = n + 1 := ⟨fuel - 1, by omega⟩
  have head := first.2 fuel (join.token :: (back ++ rest))
    (by cases join <;> simp [Ends, Join.inner, Join.token]) (by omega)
  have tail := next.2 fuel rest ends (by omega)
  cases join <;> simp_all [Join.inner, Join.outer, Join.token, Join.node, parseAt]

/-! ### Meaning -/

/-- What decides flags and comparisons; a name or constant outside it has no value. -/
structure Env where
  flag : List Char → Option Bool
  compare : List Char → Relop → List Char → Option Bool

def Expr.eval (env : Env) : Expr → Option Bool
  | flag name => env.flag name
  | compare left op right => env.compare left op right
  | conj left right => do return (← left.eval env) && (← right.eval env)
  | disj left right => do return (← left.eval env) || (← right.eval env)

/-- The value of a text, if it is an expression over the environment. -/
def evaluate (env : Env) (text : String) : Option Bool := do
  let expr ← parse (lex text.toList)
  expr.eval env

/-- The text is an expression of the level with the value. -/
def Means (env : Env) (level : Level) (text : String) (value : Bool) : Prop :=
  ∃ expr, Reads level (lex text.toList) expr ∧ expr.eval env = some value

variable {env : Env} {text : String} {value : Bool}

theorem Means.lift (join : Join) (means : Means env join.inner text value) :
    Means env join.outer text value :=
  means.imp fun _ => And.imp_left (Reads.lift join)

theorem Means.evaluate (means : Means env .disj text value) : evaluate env text = some value := by
  obtain ⟨expr, reads, eval⟩ := means
  simp [MatchExpr.evaluate, reads.parse, eval]

/-- Whether the text is an expression that holds. -/
def holds (env : Env) (text : String) : Bool := evaluate env text == some true

theorem Means.holds_eq (means : Means env .operand text value) : holds env text = value := by
  rw [holds, ((means.lift .and).lift .or).evaluate]
  cases value <;> rfl

/-- An operand means whether it holds. -/
theorem Means.self (means : Means env .operand text value) :
    Means env .operand text (holds env text) := means.holds_eq.symm ▸ means

theorem means_flag (word : IsWord text.toList) (known : env.flag text.toList = some value) :
    Means env .operand text value := by
  refine ⟨.flag text.toList, ?_, known⟩
  rw [lex_word word]
  exact reads_flag _

theorem lex_relop (op : Relop) : lex op.text.toList = [.rel op] := by
  cases op <;> decide

/-- What stands between blanks is cut out of the text. -/
theorem lex_spaced (left middle right : String) :
    lex (left ++ (" " ++ middle ++ " ") ++ right).toList =
      lex left.toList ++ lex middle.toList ++ lex right.toList := by
  have blank : " ".toList = [' '] := by decide
  simp [blank, lex_blank]

theorem means_compare {left right : String} {op : Relop} (leftWord : IsWord left.toList)
    (rightWord : IsWord right.toList)
    (known : env.compare left.toList op right.toList = some value) :
    Means env .operand (left ++ (" " ++ op.text ++ " ") ++ right) value := by
  refine ⟨.compare left.toList op right.toList, ?_, known⟩
  rw [lex_spaced, lex_word leftWord, lex_relop, lex_word rightWord]
  exact reads_compare _ _ _

theorem Means.group (means : Means env .disj text value) :
    Means env .operand ("(" ++ text ++ ")") value := by
  obtain ⟨expr, reads, eval⟩ := means
  refine ⟨expr, ?_, eval⟩
  have tokens : lex ("(" ++ text ++ ")").toList = .opening :: (lex text.toList ++ [.closing]) := by
    rw [← lex_group, String.toList_append, String.toList_append]
    rfl
  rw [tokens]
  exact reads.group

theorem lex_join (join : Join) (left right : String) :
    lex (left ++ join.text ++ right).toList =
      lex left.toList ++ join.token :: lex right.toList := by
  obtain ⟨sign, text, token⟩ : ∃ sign : String, join.text = " " ++ sign ++ " " ∧
      lex sign.toList = [join.token] := by
    cases join
    exacts [⟨"&&", by decide, by decide⟩, ⟨"||", by decide, by decide⟩]
  rw [text, lex_spaced, token, append_assoc, singleton_append]

def Join.op : Join → Bool → Bool → Bool
  | and => (· && ·)
  | or => (· || ·)

theorem Means.join {join : Join} {value' : Bool} {other : String}
    (left : Means env join.inner text value) (right : Means env join.outer other value') :
    Means env join.outer (text ++ join.text ++ other) (join.op value value') := by
  obtain ⟨x, readsLeft, evalLeft⟩ := left
  obtain ⟨y, readsRight, evalRight⟩ := right
  refine ⟨join.node x y, ?_, by cases join <;> simp [Join.node, Join.op, Expr.eval, evalLeft, evalRight]⟩
  rw [lex_join]
  exact readsLeft.join readsRight

/-- Whether all texts hold, or one of them. -/
def Join.total (env : Env) (texts : List String) : Join → Bool
  | and => texts.all (holds env)
  | or => texts.any (holds env)

theorem means_joined (join : Join) (texts : List String) (some : texts ≠ [])
    (means : ∀ text ∈ texts, Means env join.inner text (holds env text)) :
    Means env join.outer (join.text.intercalate texts) (join.total env texts) := by
  induction texts with
  | nil => exact absurd rfl some
  | cons first rest ih =>
    have head := means first (by simp)
    cases rest with
    | nil =>
      have value : join.total env [first] = holds env first := by cases join <;> simp [Join.total]
      simpa [value] using head.lift join
    | cons second rest =>
      have tail := ih (by simp) fun text member => means text (mem_cons_of_mem _ member)
      have value : join.total env (first :: second :: rest) =
          join.op (holds env first) (join.total env (second :: rest)) := by cases join <;> rfl
      rw [String.intercalate_cons_cons, value]
      exact head.join tail

/-- Operands that hold together if the value is true. -/
def Parts (env : Env) (texts : List String) (value : Bool) : Prop :=
  (∀ text ∈ texts, Means env .operand text (holds env text)) ∧ texts.all (holds env) = value

theorem parts_nil : Parts env [] true := ⟨by simp, rfl⟩

theorem Means.parts (means : Means env .operand text value) : Parts env [text] value :=
  ⟨by simpa using means.self, by simp [means.holds_eq]⟩

variable {value' : Bool} {texts texts' : List String}

theorem Parts.append (left : Parts env texts value) (right : Parts env texts' value') :
    Parts env (texts ++ texts') (value && value') := by
  refine ⟨fun text member => ?_, by rw [all_append, left.2, right.2]⟩
  rcases mem_append.mp member with first | second
  · exact left.1 text first
  · exact right.1 text second

/-- The order of the parts does not matter. -/
theorem Parts.perm (parts : Parts env texts value) (perm : texts'.Perm texts) :
    Parts env texts' value := by
  refine ⟨fun text member => parts.1 text (perm.mem_iff.mp member), ?_⟩
  rw [← parts.2, Bool.eq_iff_iff, all_eq_true, all_eq_true]
  exact forall_congr' fun text => by rw [perm.mem_iff]

theorem Parts.means (parts : Parts env texts value) (some : texts ≠ []) :
    Means env .conj (" && ".intercalate texts) value :=
  parts.2 ▸ means_joined .and texts some parts.1

end MatchExpr
