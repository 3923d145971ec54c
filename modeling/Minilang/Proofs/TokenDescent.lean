import Minilang.Proofs.ViablePrefix

namespace Minilang.Descent

-- Reading as a descent that moves one place over a list of tokens: forward, and back again
-- where it has looked one token ahead. What bounds it is only how many calls may stand inside
-- one another, so a descent that never returned would show as one that no bound is enough for.
structure Place where
  tokens : List Token
  pos : Nat

def noToken : Token := ⟨.origin, .number, "", none⟩

namespace Place

def current? (p : Place) : Option Token := p.tokens[p.pos]?

def advance (p : Place) : Place :=
  if p.pos < p.tokens.length then { p with pos := p.pos + 1 } else p

def retreat (p : Place) : Place := if 0 < p.pos then { p with pos := p.pos - 1 } else p

def check (kind : TokenKind) (lexeme : String) (p : Place) : Bool :=
  p.current?.any (·.is kind lexeme)

end Place

inductive Outcome (α : Type) where
  | returned (value : α) (place : Place)
  | failed (error : ParseError) (place : Place)

-- No outcome: the bound on nested calls has been reached.
def Action (α : Type) : Type := Place → Option (Outcome α)

def Action.andThen {α β : Type} (action : Action α) (next : α → Action β) : Action β := fun p =>
  match action p with
  | some (.returned x q) => next x q
  | some (.failed e q) => some (.failed e q)
  | none => none

instance : Monad Action where
  pure x := fun p => some (.returned x p)
  bind := Action.andThen

def current : Action (Option Token) := fun p => some (.returned p.current? p)

def currentToken : Action Token := fun p => some (.returned (p.current?.getD noToken) p)

def advance : Action Unit := fun p => some (.returned () p.advance)

def check (kind : TokenKind) (lexeme : String) : Action Bool :=
  fun p => some (.returned (p.check kind lexeme) p)

def peekIs (kind : TokenKind) (lexeme : String) : Action Bool :=
  fun p => some (.returned (p.advance.check kind lexeme) p.advance.retreat)

def fail {α : Type} (expected : Expectation) : Action α :=
  fun p => some (.failed (.stuckAt p.tokens (p.tokens.drop p.pos) expected) p)

def eat (kind : TokenKind) (lexeme : String) : Action Token := do
  match ← current with
  | none => fail (.lexeme lexeme)
  | some t =>
    if t.is kind lexeme then
      advance
      return t
    else fail (.lexeme lexeme)

inductive Tier where
  | sum
  | product

def Tier.operators : Tier → List String
  | sum => ["+", "-"]
  | product => ["*", "/", "%"]

-- The routines that call one another. Two of them are the rounds of loops: the statements of
-- a block or a program, and the operands behind the first one of a level.
inductive Call where
  | statement
  | guardedBlock (keyword : String)
  | block
  | statements (inBlock : Bool)
  | print
  | assignmentOrExpression (inCondition : Bool)
  | binary (tier : Tier)
  | operands (tier : Tier) (left : Expr)
  | unary
  | term

namespace Call

abbrev Result : Call → Type
  | statement | print => Stmt
  | guardedBlock _ => Token × Expr × List Stmt
  | block | statements _ => List Stmt
  | assignmentOrExpression _ | binary _ | operands _ _ | unary | term => Expr

abbrev additive : Call := .binary .sum

abbrev multiplicative : Call := .binary .product

def isLoop : Call → Bool
  | statements _ | operands _ _ => true
  | _ => false

-- A call that is made before a token has been taken leads to a lower rank.
def rank : Call → Nat
  | statements _ => 6
  | statement => 5
  | assignmentOrExpression _ => 4
  | binary .sum => 3
  | binary .product => 2
  | unary => 1
  | guardedBlock _ | block | print | operands _ _ | term => 0

-- How many calls can stand inside a call with so many tokens left.
def effort (call : Call) (left : Nat) : Nat := 7 * left + call.rank

theorem rank_le (call : Call) : call.rank ≤ 6 := by
  cases call with
  | binary tier => cases tier <;> simp [rank]
  | _ => simp [rank]

theorem effort_shorter (one two : Call) {n m : Nat} (shorter : n < m) :
    one.effort n < two.effort m := by
  have most := one.rank_le
  unfold effort
  omega

end Call

section Routines

variable (self : (call : Call) → Action call.Result)

def guardedStatement (keyword : String) (build : Token → Expr → List Stmt → Stmt) :
    Action Stmt := do
  let (t, guard, body) ← self (.guardedBlock keyword)
  return build t guard body

def statement : Action Stmt := do
  let t ← currentToken
  if t.is .keyword "if" then guardedStatement self "if" .branch
  else if t.is .keyword "while" then guardedStatement self "while" .loop
  else if t.is .keyword "print" then self .print
  else return .expr (← self (.assignmentOrExpression false))

def guardedBlock (keyword : String) : Action (Token × Expr × List Stmt) := do
  let t ← eat .keyword keyword
  let _ ← eat .paren "("
  let guard ← self (.assignmentOrExpression true)
  let _ ← eat .paren ")"
  let body ← self .block
  return (t, guard, body)

def block : Action (List Stmt) := do
  let _ ← eat .brace "\x7b"
  let body ← self (.statements true)
  let _ ← eat .brace "\x7d"
  return body

def stops (inBlock : Bool) (t : Token) : Bool := inBlock && t.is .brace "\x7d"

def statements (inBlock : Bool) : Action (List Stmt) := do
  match ← current with
  | none => return []
  | some t =>
    if stops inBlock t then return []
    else
      let s ← self .statement
      return s :: (← self (.statements inBlock))

def print : Action Stmt := do
  let t ← eat .keyword "print"
  return .print t (← self (.assignmentOrExpression false))

-- Only behind a variable is there something to look ahead for.
def namesTarget (t : Token) : Action Bool :=
  if t.kind == .identifier then peekIs .operator "=" else pure false

def assigned : Action Expr := do
  let t ← currentToken
  if ← namesTarget t then
    advance
    let equals ← currentToken
    advance
    return .assign equals (some ⟨t, t.lexeme⟩) (← self .additive)
  else self .additive

def assignmentOrExpression (inCondition : Bool) : Action Expr := do
  let e ← assigned self
  if inCondition then
    if ← check .semicolon ";" then
      advance
      return e
    else return e
  else
    let _ ← eat .semicolon ";"
    return e

def operand : Tier → Action Expr
  | .sum => self .multiplicative
  | .product => self .unary

def operands (tier : Tier) (left : Expr) : Action Expr := do
  match ← current with
  | none => return left
  | some t =>
    if t.kind == .operator && tier.operators.contains t.lexeme then
      advance
      let right ← operand self tier
      self (.operands tier (.binary t t.lexeme left right))
    else return left

def binary (tier : Tier) : Action Expr := do
  let left ← operand self tier
  self (.operands tier left)

def unary : Action Expr := do
  match ← current with
  | none => self .term
  | some t =>
    if t.is .operator "-" then
      advance
      return .unary t t.lexeme (← self .unary)
    else self .term

def term : Action Expr := do
  match ← current with
  | none => fail .expression
  | some t =>
    if t.is .paren "(" then
      advance
      let e ← self .additive
      let _ ← eat .paren ")"
      return e
    else if t.kind == .number then
      advance
      return .number t t.value
    else if t.kind == .identifier then
      advance
      return .ident t t.lexeme
    else fail .expression

def body : (call : Call) → Action call.Result
  | .statement => statement self
  | .guardedBlock keyword => guardedBlock self keyword
  | .block => block self
  | .statements inBlock => statements self inBlock
  | .print => print self
  | .assignmentOrExpression inCondition => assignmentOrExpression self inCondition
  | .binary tier => binary self tier
  | .operands tier left => operands self tier left
  | .unary => unary self
  | .term => term self

end Routines

def run : Nat → (call : Call) → Action call.Result
  | 0, _ => fun _ => none
  | n + 1, call => body (run n) call

def Tier.operand : Tier → List Token → Reading Expr
  | sum => Parse.multiplicative Parse.additive
  | product => Parse.unary Parse.additive

def Call.reading : (call : Call) → List Token → Reading call.Result
  | statement => Parse.statement
  | guardedBlock keyword => fun ts => (Reading.eat .keyword keyword ts).andThen fun t rest =>
      (Parse.guarded Parse.statement rest).map (t, ·)
  | block => Parse.block Parse.statement
  | statements inBlock => Parse.statements (stops inBlock)
  | print => fun ts => (Reading.eat .keyword "print" ts).andThen fun t rest =>
      (Parse.terminated rest).map (.print t)
  | assignmentOrExpression true => Parse.condition
  | assignmentOrExpression false => Parse.terminated
  | binary .sum => Parse.additive
  | binary .product => Parse.multiplicative Parse.additive
  | operands tier left => fun ts => Parse.chain tier.operators tier.operand ts.length left ts
  | unary => Parse.unary Parse.additive
  | term => Parse.term Parse.additive

section Landing

variable {α β : Type} {tokens ts rest : List Token} {t : Token} {action : Action α}
  {r : Reading α}

def Place.before (tokens rest : List Token) : Place := ⟨tokens, tokens.length - rest.length⟩

def landed (tokens : List Token) : Reading α → Outcome α
  | .ok value rest => .returned value (.before tokens rest)
  | .stuck expected rest => .failed (.stuckAt tokens rest expected) (.before tokens rest)

-- An action in front of some tokens ends as a reading of them does.
def Lands (tokens : List Token) (action : Action α) (ts : List Token) (r : Reading α) : Prop :=
  action (.before tokens ts) = some (landed tokens r)

theorem drop_before (suffix : ts <:+ tokens) : tokens.drop (tokens.length - ts.length) = ts := by
  obtain ⟨front, rfl⟩ := suffix
  simp

theorem current?_before (suffix : ts <:+ tokens) : (Place.before tokens ts).current? = ts.head? := by
  rw [Place.current?, Place.before, ← List.head?_drop, drop_before suffix]

theorem advance_before (suffix : t :: rest <:+ tokens) :
    (Place.before tokens (t :: rest)).advance = .before tokens rest := by
  have long := suffix.length_le
  rw [List.length_cons] at long
  rw [Place.advance, Place.before, List.length_cons, if_pos (by simp; omega)]
  simp only [Place.before, Place.mk.injEq, true_and]
  omega

theorem pure_lands (x : α) : Lands tokens (pure x) ts (.ok x ts) := rfl

theorem fail_lands (suffix : ts <:+ tokens) (expected : Expectation) :
    Lands tokens (fail expected : Action α) ts (.stuck expected ts) := by
  unfold Lands fail Place.before
  simp only [drop_before suffix]
  rfl

theorem Lands.bind {next : α → Action β} {more : α → List Token → Reading β}
    (first : Lands tokens action ts r)
    (second : ∀ x rest, r = .ok x rest → Lands tokens (next x) rest (more x rest)) :
    Lands tokens (action >>= next) ts (r.andThen more) := by
  unfold Lands at first
  show action.andThen next (.before tokens ts) = _
  rw [Action.andThen, first]
  cases r with
  | ok x rest => exact second x rest rfl
  | stuck expected rest => rfl

theorem Lands.after {next : α → Action β} {x : α} {answer : Reading β}
    (first : Lands tokens action ts (.ok x rest)) (later : Lands tokens (next x) rest answer) :
    Lands tokens (action >>= next) ts answer := by
  unfold Lands at first
  show action.andThen next (.before tokens ts) = _
  rw [Action.andThen, first]
  exact later

theorem Lands.ite {c : Prop} [Decidable c] {one two : Action α} {r s : Reading α}
    (yes : c → Lands tokens one ts r) (no : ¬ c → Lands tokens two ts s) :
    Lands tokens (if c then one else two) ts (if c then r else s) := by
  by_cases holds : c
  · rw [if_pos holds, if_pos holds]
    exact yes holds
  · rw [if_neg holds, if_neg holds]
    exact no holds

theorem current_lands (suffix : ts <:+ tokens) : Lands tokens current ts (.ok ts.head? ts) := by
  rw [← current?_before suffix]
  rfl

theorem currentToken_lands (suffix : t :: rest <:+ tokens) :
    Lands tokens currentToken (t :: rest) (.ok t (t :: rest)) := by
  unfold Lands currentToken
  rw [current?_before suffix]
  rfl

theorem currentToken_end : Lands tokens currentToken [] (.ok noToken []) := by
  unfold Lands currentToken
  rw [current?_before List.nil_suffix]
  rfl

theorem check_lands (suffix : ts <:+ tokens) (kind : TokenKind) (lexeme : String) :
    Lands tokens (check kind lexeme) ts (.ok (ts.head?.any (·.is kind lexeme)) ts) := by
  rw [← current?_before suffix]
  rfl

theorem advance_lands (suffix : t :: rest <:+ tokens) :
    Lands tokens advance (t :: rest) (.ok () rest) := by
  unfold Lands advance
  rw [advance_before suffix]
  rfl

theorem retreat_before (suffix : t :: rest <:+ tokens) :
    (Place.before tokens rest).retreat = .before tokens (t :: rest) := by
  have long := suffix.length_le
  rw [List.length_cons] at long
  rw [Place.retreat, Place.before, Place.before, List.length_cons, if_pos (by simp; omega)]
  simp only [Place.mk.injEq, true_and]
  omega

theorem peekIs_lands (suffix : t :: rest <:+ tokens) (kind : TokenKind) (lexeme : String) :
    Lands tokens (peekIs kind lexeme) (t :: rest)
      (.ok (rest.head?.any (·.is kind lexeme)) (t :: rest)) := by
  have behind : rest <:+ tokens := (List.suffix_cons t rest).trans suffix
  unfold Lands peekIs Place.check
  rw [advance_before suffix, retreat_before suffix, current?_before behind]
  rfl

theorem eat_lands (suffix : ts <:+ tokens) (kind : TokenKind) (lexeme : String) :
    Lands tokens (eat kind lexeme) ts (Reading.eat kind lexeme ts) := by
  refine .after (current_lands suffix) ?_
  cases ts with
  | nil => exact fail_lands suffix _
  | cons t rest =>
    exact .ite (fun _ => .after (advance_lands suffix) (pure_lands t)) fun _ => fail_lands suffix _

end Landing

end Minilang.Descent
