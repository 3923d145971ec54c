import Minilang.Parse.Program
import Minilang.Proofs.ExpressionReading

namespace Minilang.Parse

open Reading Grammar

variable {one two : List Token → Reading Stmt} {ts rest : List Token} {t : Token}
  {stop : Token → Bool} {k : Nat}

def Terminated (ts : List Token) (e : Expr) : Prop :=
  ∃ us last, ts = us ++ [last] ∧ AssignmentOrExpression us e ∧ last.is .semicolon ";"

def Condition (ts : List Token) (e : Expr) : Prop :=
  ∃ us os, ts = us ++ os ∧ AssignmentOrExpression us e ∧ OptionalSemicolon os

def Block (ts : List Token) (body : List Stmt) : Prop :=
  ∃ first bs last, ts = first :: bs ++ [last] ∧ first.is .brace "\x7b" ∧
    Statements bs body ∧ last.is .brace "\x7d"

theorem terminated_follows : Follows Terminated terminated := by
  have mark : Follows _ (eat .semicolon ";") := eat_follows (by simp [delimiters])
  intro ts
  refine ((assignmentOrExpression_follows ts).andThen
    fun e us => (mark us).andThen fun _ => ok_follows e).imp ?_
  rintro _ _ ⟨us, _, e, rfl, derived, _, _, last, rfl, ⟨rfl, mark⟩, rfl, rfl⟩
  exact ⟨us, last, by simp, derived, mark⟩

theorem optionalSemicolon_follows (e : Expr) :
    Follows (fun ts x => OptionalSemicolon ts ∧ x = e) (fun rest =>
      match rest with
      | t :: after => if t.is .semicolon ";" then ok e after else ok e rest
      | [] => ok e rest) := by
  intro ts
  cases ts with
  | nil => exact .nil_ok rfl ⟨.absent, rfl⟩
  | cons t rest =>
    by_cases mark : t.is .semicolon ";"
    · refine .take [t] (ok e) (fun _ => by simp [mark]) (ok_follows e _) ?_
      rintro _ _ ⟨rfl, rfl⟩
      exact ⟨.present mark, rfl⟩
    · exact .leave (fun _ => by simp [mark]) ⟨.absent, rfl⟩

theorem condition_follows : Follows Condition condition := by
  intro ts
  refine ((assignmentOrExpression_follows ts).andThen optionalSemicolon_follows).imp ?_
  rintro _ _ ⟨us, os, e, rfl, derived, mark, rfl⟩
  exact ⟨us, os, rfl, derived, mark⟩

theorem statementsUntil_follows (stop : Token → Bool) (each : Follows Statement one) (n : Nat) :
    Follows Statements (statementsUntil stop one n) := by
  induction n with
  | zero =>
    refine fun ts => (ok_follows [] ts).imp ?_
    rintro _ _ ⟨rfl, rfl⟩
    exact .nil
  | succ n ih =>
    intro ts
    cases ts with
    | nil => exact .nil_ok rfl .nil
    | cons t rest =>
      by_cases stops : stop t
      · exact .leave (fun _ => by simp [statementsUntil, stops]) .nil
      · refine .ofHead _ (fun _ => by simp [statementsUntil, stops])
          (((each _).andThen fun s us => (ih us).map (s :: ·)).imp ?_)
        rintro _ _ ⟨us, vs, s, rfl, first, ss, later, rfl⟩
        exact .cons first later

theorem statement_progress (each : Follows Statement one) (read : one ts = ok s rest) :
    rest.length < ts.length :=
  each.progress (fun _ _ => Statement.nonempty) read

theorem statementsUntil_agree (agree : AgreeUpTo k one two) (each : Follows Statement one)
    (n m : Nat) (short : ts.length ≤ k) (first : ts.length ≤ n) (second : ts.length ≤ m) :
    statementsUntil stop one n ts = statementsUntil stop two m ts := by
  induction n generalizing m ts with
  | zero =>
    have empty : ts = [] := by simpa using first
    subst empty
    cases m <;> rfl
  | succ n ih =>
    cases ts with
    | nil => cases m <;> rfl
    | cons t rest =>
      cases m with
      | zero => simp at second
      | succ m =>
        rw [statementsUntil, statementsUntil, ← agree _ short]
        cases read : one (t :: rest) with
        | stuck expected after => simp [Reading.andThen]
        | ok s after =>
          -- A statement takes a token, so the bound of the next round is still enough.
          have progress := statement_progress each read
          simp only [List.length_cons] at progress short first second
          simp only [Reading.andThen]
          rw [ih m (by omega) (by omega) (by omega)]

theorem body_follows (stop : Token → Bool) (each : Follows Statement one) :
    Follows Statements (fun ts => statementsUntil stop one ts.length ts) :=
  .ofBounded (statementsUntil_follows stop each) fun _ _ enough =>
    statementsUntil_agree (fun _ _ => rfl) each _ _ (Nat.le_refl _) enough (Nat.le_refl _)

theorem block_follows (each : Follows Statement one) : Follows Block (block one) := by
  have enter : Follows _ (eat .brace "\x7b") := eat_follows (by simp [delimiters])
  have leave : Follows _ (eat .brace "\x7d") := eat_follows (by simp [delimiters])
  intro ts
  refine ((enter ts).andThen fun _ us => (body_follows (·.is .brace "\x7d") each us).andThen
    fun body vs => (leave vs).andThen fun _ => ok_follows body).imp ?_
  rintro _ _ ⟨_, _, first, rfl, ⟨rfl, enter⟩, bs, _, body, rfl, derived, _, _, last, rfl,
    ⟨rfl, leave⟩, rfl, rfl⟩
  exact ⟨first, bs, last, by simp, enter, derived, leave⟩

theorem guarded_follows (each : Follows Statement one) :
    Follows (fun ts x => Guarded ts x.1 x.2) (guarded one) := by
  have opening : Follows _ (eat .paren "(") := eat_follows (by simp [delimiters])
  have closing : Follows _ (eat .paren ")") := eat_follows (by simp [delimiters])
  intro ts
  refine ((opening ts).andThen fun _ us => (condition_follows us).andThen fun c vs =>
    (closing vs).andThen fun _ ws => (block_follows each ws).map (c, ·)).imp ?_
  rintro _ _ ⟨_, _, left, rfl, ⟨rfl, opening⟩, _, _, c, rfl, ⟨cs, os, rfl, guard, mark⟩, _, _,
    right, rfl, ⟨rfl, closing⟩, body, ⟨first, bs, last, rfl, enter, derived, leave⟩, rfl⟩
  simpa using Guarded.intro opening guard mark closing enter derived leave

theorem expression_statement (derived : Terminated ts e) : Statement ts (.expr e) := by
  obtain ⟨us, last, rfl, inner, mark⟩ := derived
  exact .expression inner mark

theorem statement_awaited : Awaits Statement [] .expression := by
  have start := (terminated_follows []).awaits (show terminated [] = stuck .expression [] from rfl)
  obtain ⟨used, none, awaits⟩ := start
  have empty : used = [] := by simpa using none.symm
  subst empty
  refine ⟨awaits.1, ?_⟩
  intro t fits
  obtain ⟨later, e, derived⟩ := awaits.2 t fits
  exact ⟨later, .expr e, expression_statement derived⟩

-- One round of the reader of statements, with any reader for the statements of a block.
def statementOver (inner : List Token → Reading Stmt) (tokens : List Token) : Reading Stmt :=
  match tokens with
  | t :: rest =>
    if t.is .keyword "if" then (guarded inner rest).map fun (guard, body) => .branch t guard body
    else if t.is .keyword "while" then
      (guarded inner rest).map fun (guard, body) => .loop t guard body
    else if t.is .keyword "print" then (terminated rest).map (.print t)
    else (terminated tokens).map .expr
  | [] => (terminated tokens).map .expr

theorem statementOver_follows (each : Follows Statement one) :
    Follows Statement (statementOver one) := by
  have plain : Follows Statement (fun ts => (terminated ts).map Stmt.expr) := by
    refine fun ts => ((terminated_follows ts).map Stmt.expr).imp ?_
    rintro _ _ ⟨e, derived, rfl⟩
    exact expression_statement derived
  intro ts
  cases ts with
  | nil => exact .nil_stuck rfl statement_awaited
  | cons t rest =>
    by_cases branch : t.is .keyword "if"
    · refine .take [t] _ (fun _ => by simp [statementOver, branch]; rfl)
        ((guarded_follows each rest).map _) ?_
      rintro _ _ ⟨⟨c, body⟩, derived, rfl⟩
      exact .branch branch derived
    · by_cases loop : t.is .keyword "while"
      · refine .take [t] _ (fun _ => by simp [statementOver, branch, loop]; rfl)
          ((guarded_follows each rest).map _) ?_
        rintro _ _ ⟨⟨c, body⟩, derived, rfl⟩
        exact .loop loop derived
      · by_cases print : t.is .keyword "print"
        · refine .take [t] _ (fun _ => by simp [statementOver, branch, loop, print]; rfl)
            ((terminated_follows rest).map _) ?_
          rintro _ _ ⟨e, ⟨us, last, rfl, operand, mark⟩, rfl⟩
          exact .print print operand mark
        · exact .ofHead _ (fun _ => by simp [statementOver, branch, loop, print]) (plain _)

theorem statementWithin_succ (n : Nat) (ts : List Token) :
    statementWithin (n + 1) ts = statementOver (statementWithin n) ts := by
  cases ts <;> rfl

theorem statementWithin_follows (n : Nat) : Follows Statement (statementWithin n) := by
  induction n with
  | zero =>
    intro ts
    cases ts with
    | nil => exact .nil_stuck rfl statement_awaited
    | cons t rest => exact .refuse (fun _ => rfl) statement_awaited
  | succ n ih =>
    rw [funext (statementWithin_succ n)]
    exact statementOver_follows ih

theorem block_agree (agree : AgreeUpTo k one two) (each : Follows Statement one) :
    AgreeUpTo (k + 1) (block one) (block two) := by
  intro ts short
  cases ts with
  | nil => rfl
  | cons t rest =>
    by_cases enter : t.is .brace "\x7b"
    · have shorter : rest.length ≤ k := by simpa using short
      simp only [block, eat, enter, if_true, Reading.andThen]
      rw [statementsUntil_agree agree each _ _ shorter (Nat.le_refl _) (Nat.le_refl _)]
    · simp [block, eat, enter, Reading.andThen]

theorem guarded_agree (agree : AgreeUpTo k one two) (each : Follows Statement one) :
    AgreeUpTo k (guarded one) (guarded two) := by
  intro ts short
  have opening : Follows _ (eat .paren "(") := eat_follows (by simp [delimiters])
  have closing : Follows _ (eat .paren ")") := eat_follows (by simp [delimiters])
  rw [guarded, guarded]
  cases left : eat .paren "(" ts with
  | stuck expected after => rfl
  | ok t inside =>
    simp only [Reading.andThen]
    cases guard : condition inside with
    | stuck expected after => rfl
    | ok c after =>
      simp only
      cases right : eat .paren ")" after with
      | stuck expected after => rfl
      | ok u behind =>
        have one := opening.shrinks left
        have two := condition_follows.shrinks guard
        have three := closing.shrinks right
        simp only
        rw [block_agree agree each behind (by omega)]

theorem statementOver_agree (agree : AgreeUpTo k one two) (each : Follows Statement one) :
    AgreeUpTo (k + 1) (statementOver one) (statementOver two) := by
  intro ts short
  cases ts with
  | nil => rfl
  | cons t rest =>
    rw [statementOver, statementOver, guarded_agree agree each rest (by simpa using short)]

theorem statementWithin_agree (n m : Nat) (more : n ≤ m) :
    AgreeUpTo n (statementWithin n) (statementWithin m) := by
  induction n generalizing m with
  | zero =>
    intro ts short
    have empty : ts = [] := by simpa using short
    subst empty
    cases m <;> rfl
  | succ n ih =>
    cases m with
    | zero => simp at more
    | succ m =>
      intro ts short
      rw [statementWithin_succ, statementWithin_succ]
      exact statementOver_agree (ih m (by omega)) (statementWithin_follows n) ts short

theorem statement_agree (n : Nat) : AgreeUpTo n (statementWithin n) statement :=
  fun ts short => (statementWithin_agree ts.length n short ts (Nat.le_refl _)).symm

theorem statement_follows : Follows Statement statement :=
  .ofBounded statementWithin_follows statement_agree

theorem statement_eq (ts : List Token) : statement ts = statementOver statement ts := by
  have enough := statement_agree (ts.length + 1) ts (Nat.le_succ _)
  rw [← enough, statementWithin_succ]
  exact statementOver_agree (statement_agree ts.length) (statementWithin_follows _) ts (Nat.le_succ _)

def statements (stop : Token → Bool) (tokens : List Token) : Reading (List Stmt) :=
  statementsUntil stop statement tokens.length tokens

theorem statements_follows (stop : Token → Bool) : Follows Statements (statements stop) :=
  body_follows stop statement_follows

theorem statements_cons (continues : stop t = false) :
    statements stop (t :: rest) = (statement (t :: rest)).andThen fun s after =>
      (statements stop after).map (s :: ·) := by
  rw [statements, List.length_cons, statementsUntil]
  simp only [continues, Bool.false_eq_true, if_false]
  cases read : statement (t :: rest) with
  | stuck expected after => rfl
  | ok s after =>
    have progress := statement_progress statement_follows read
    simp only [List.length_cons] at progress
    simp only [Reading.andThen, statements]
    rw [statementsUntil_agree (fun _ _ => rfl) statement_follows rest.length after.length
      (Nat.le_refl _) (by omega) (Nat.le_refl _)]

theorem statements_end (read : statements stop ts = ok body rest) :
    rest = [] ∨ ∃ t after, rest = t :: after ∧ stop t = true := by
  induction bound : ts.length using Nat.strongRecOn generalizing ts body with
  | ind n ih =>
    cases ts with
    | nil =>
      cases read
      exact .inl rfl
    | cons t tail =>
      cases stops : stop t with
      | true =>
        simp only [statements, List.length_cons, statementsUntil, stops, if_true, ok.injEq] at read
        exact .inr ⟨t, tail, read.2.symm, stops⟩
      | false =>
        rw [statements_cons stops] at read
        cases first : statement (t :: tail) with
        | stuck expected after => simp [first, Reading.andThen] at read
        | ok s after =>
          have progress := statement_progress statement_follows first
          cases later : statements stop after with
          | stuck expected left => simp [first, later, Reading.map, Reading.andThen] at read
          | ok ss left =>
            simp only [first, later, Reading.map, Reading.andThen, ok.injEq] at read
            obtain ⟨_, rfl⟩ := read
            exact ih after.length (by omega) later rfl

end Minilang.Parse
