import Minilang.Proofs.StatementReading

namespace Minilang.Parse

open Reading Grammar

variable {operand : List Token → Reading Expr} {ts rest : List Token} {t : Token}
  {ops : List String} {rank low : Level}

-- The other direction: what the grammar derives is read back. A chain takes all it can, so
-- the tokens behind an expression must not go on with it.
def Ends (ops : List String) (rest : List Token) : Prop :=
  ∀ t after, rest = t :: after → ¬(t.kind = .operator ∧ t.lexeme ∈ ops)

def NoOperator (rest : List Token) : Prop := ∀ t after, rest = t :: after → t.kind ≠ .operator

theorem NoOperator.ends (none : NoOperator rest) : Ends ops rest :=
  fun t after split operator => none t after split operator.1

theorem noOperator_cons (mark : t.is kind lexeme) (differs : kind ≠ .operator)
    (rest : List Token) : NoOperator (t :: rest) := by
  rintro _ _ ⟨⟩ operator
  exact differs ((Token.is_iff.mp mark).1.symm.trans operator)

theorem chain_ends (ends : Ends ops rest) (n : Nat) (left : Expr) :
    chain ops operand n left rest = ok left rest := by
  cases rest with
  | nil => cases n <;> rfl
  | cons t after =>
    have stops := ends t after rfl
    cases n with
    | zero => rfl
    | succ n => simp [chain, stops]

theorem chain_operator (operands : Follows (Expression low) operand)
    (kind : t.kind = .operator) (operator : t.lexeme ∈ ops) (left : Expr)
    (read : operand ts = ok right rest) :
    chain ops operand (t :: ts).length left (t :: ts) =
      chain ops operand rest.length (.binary t t.lexeme left right) rest := by
  have shorter := operands.shrinks read
  rw [List.length_cons, chain]
  simp only [kind, operator, beq_self_eq_true,
    Bool.and_self, if_true, read, Reading.andThen, List.contains_eq_mem, decide_true]
  exact chain_agree (fun _ _ => rfl) operands _ _ _ (Nat.le_refl _) shorter (Nat.le_refl _)

theorem sign_ends (operator : t.lexeme ∈ additiveOperators) : Ends ["*", "/", "%"] (t :: rest) := by
  rintro _ _ ⟨⟩ ⟨_, product⟩
  simp only [additiveOperators] at operator
  grind

-- How a derived expression is read at each level. Below a chain the rest does not matter;
-- a chain is left at the point where it may go on behind what was derived.
def ReadAt : Level → List Token → Expr → Prop
  | .term, ts, e => ∀ rest, term additive (ts ++ rest) = ok e rest
  | .unary, ts, e => ∀ rest, unary additive (ts ++ rest) = ok e rest
  | .multiplicative, ts, e => ∀ rest, multiplicative additive (ts ++ rest) =
      chain ["*", "/", "%"] (unary additive) rest.length e rest
  | .additive, ts, e => ∀ rest, Ends ["*", "/", "%"] rest → additive (ts ++ rest) =
      chain ["+", "-"] (multiplicative additive) rest.length e rest

theorem expression_read (derived : Expression rank ts e) : ReadAt rank ts e := by
  have units := unary_follows additive_follows
  have factors := multiplicative_follows additive_follows
  induction derived with
  | number kind =>
    intro rest
    have paren := Token.is_other kind (show _ ≠ TokenKind.paren by decide) "("
    simp [term, paren, kind]
  | ident kind =>
    intro rest
    have paren := Token.is_other kind (show _ ≠ TokenKind.paren by decide) "("
    simp [term, paren, kind]
  | parens opening _ closing ih =>
    intro rest
    have behind := noOperator_cons closing (by decide) rest
    have read := ih _ behind.ends
    rw [chain_ends behind.ends] at read
    simp [term, opening, read, eat, closing, Reading.andThen]
  | ofTerm inner ih =>
    intro rest
    obtain ⟨first, others, rfl, sign⟩ := inner.term_starts
    simpa [unary, sign] using ih rest
  | negation sign _ ih =>
    intro rest
    have lexeme := (Token.is_iff.mp sign).2
    simp [unary, sign, ih rest, Reading.map, Reading.andThen, lexeme]
  | ofUnary _ ih =>
    intro rest
    simp [multiplicative, level, ih rest, Reading.andThen]
  | product _ kind operator _ first second =>
    intro rest
    rw [List.append_assoc, first, List.cons_append]
    exact chain_operator units kind operator _ (second rest)
  | ofProduct _ ih =>
    intro rest ends
    rw [additive_eq, additiveOver, level, ih rest, chain_ends ends]
    rfl
  | sum _ kind operator _ first second =>
    intro rest ends
    have read := second rest
    rw [chain_ends ends] at read
    rw [List.append_assoc, List.cons_append, first _ (sign_ends operator)]
    exact chain_operator factors kind operator _ read

theorem additive_read (derived : Expression .additive ts e) (behind : NoOperator rest) :
    additive (ts ++ rest) = ok e rest := by
  have read : ∀ rest, Ends ["*", "/", "%"] rest → _ := expression_read derived
  rw [read rest behind.ends, chain_ends behind.ends]

theorem assignmentOrExpression_read (derived : AssignmentOrExpression ts e)
    (behind : NoOperator rest) : assignmentOrExpression (ts ++ rest) = ok e rest := by
  cases derived with
  | assignment kind sign value =>
    simp [assignmentOrExpression, kind, sign, additive_read value behind, Reading.map,
      Reading.andThen]
  | expression inner =>
    -- The second token is no equals sign, whether it belongs to the expression or not.
    have second : ∀ name equals after, ts ++ rest = name :: equals :: after →
        equals.is .operator "=" = false := by
      intro name equals after split
      obtain ⟨first, others, rfl, _⟩ := inner.starts
      cases others with
      | nil =>
        have apart := behind equals after (by simpa using congrArg List.tail split)
        simp [Token.is, apart]
      | cons found others =>
        cases split
        exact inner.no_equals _ (by simp)
    have same : assignmentOrExpression (ts ++ rest) = additive (ts ++ rest) := by
      unfold assignmentOrExpression
      split
      · rename_i name equals after same
        simp [second name equals after same]
      · rfl
    rw [same, additive_read inner behind]

theorem terminated_read (derived : AssignmentOrExpression ts e) (mark : t.is .semicolon ";") :
    terminated (ts ++ t :: rest) = ok e rest := by
  have read := assignmentOrExpression_read derived (noOperator_cons mark (by decide) rest)
  simp [terminated, read, eat, mark, Reading.andThen]

theorem condition_read (derived : AssignmentOrExpression ts e) (mark : OptionalSemicolon os)
    (closing : t.is .paren ")") (rest : List Token) :
    condition (ts ++ os ++ t :: rest) = ok e (t :: rest) := by
  cases mark with
  | absent =>
    have read := assignmentOrExpression_read derived (noOperator_cons closing (by decide) rest)
    have other := Token.is_kind closing (show _ ≠ TokenKind.semicolon by decide) ";"
    simp [condition, read, other, Reading.andThen]
  | present mark =>
    have read := assignmentOrExpression_read derived (noOperator_cons mark (by decide) (t :: rest))
    simp [condition, read, mark, Reading.andThen]

def Stops (stop : Token → Bool) (rest : List Token) : Prop :=
  rest = [] ∨ ∃ t after, rest = t :: after ∧ stop t = true

theorem statements_stops (stops : Stops stop rest) : statements stop rest = ok [] rest := by
  obtain rfl | ⟨t, after, rfl, holds⟩ := stops
  · rfl
  · simp [statements, statementsUntil, holds]

theorem statement_plain (starts : StartsExpression t) :
    statement (t :: rest) = (terminated (t :: rest)).map .expr := by
  have other (text : String) : t.is .keyword text = false := by
    obtain number | ident | opening | sign := starts
    · exact Token.is_other number (by decide) _
    · exact Token.is_other ident (by decide) _
    · exact Token.is_kind opening (by decide) _
    · exact Token.is_kind sign (by decide) _
  simp [statement_eq, statementOver, other]

mutual
theorem statement_read : Statement us s → ∀ rest, statement (us ++ rest) = ok s rest
  | .branch keyword guarded, rest => by
    rw [List.cons_append, statement_eq]
    simp [statementOver, keyword, guarded_read guarded rest, Reading.map, Reading.andThen]
  | .loop keyword guarded, rest => by
    have branch := Token.is_text keyword (show _ ≠ "if" by decide)
    rw [List.cons_append, statement_eq]
    simp [statementOver, branch, keyword, guarded_read guarded rest, Reading.map, Reading.andThen]
  | .print keyword operand mark, rest => by
    have branch := Token.is_text keyword (show _ ≠ "if" by decide)
    have loop := Token.is_text keyword (show _ ≠ "while" by decide)
    rw [statement_eq]
    simp [statementOver, branch, loop, keyword, terminated_read operand mark, Reading.map,
      Reading.andThen]
  | .expression inner mark, rest => by
    obtain ⟨first, others, rfl, starts⟩ := inner.starts
    rw [List.append_assoc, List.cons_append, statement_plain starts, ← List.cons_append,
      List.singleton_append, terminated_read inner mark]
    rfl

theorem guarded_read :
    Guarded us c body → ∀ rest, guarded statement (us ++ rest) = ok (c, body) rest
  | .intro opening guard mark closing enter body leave, rest => by
    have inside := condition_read guard mark closing
    have listed := statements_read body (·.is .brace "\x7d") (_ :: rest) (fun _ holds => holds)
      (.inr ⟨_, _, rfl, leave⟩)
    simp only [statements, List.length_append, List.length_cons] at listed
    simp only [List.append_assoc] at inside
    simp [guarded, block, eat, opening, inside, closing, enter, listed, leave, Reading.map,
      Reading.andThen]

theorem statements_read : Statements us body → ∀ stop rest,
    (∀ t, stop t = true → t.is .brace "\x7d") → Stops stop rest →
      statements stop (us ++ rest) = ok body rest
  | .nil, _, _, _, stops => statements_stops stops
  | .cons first later, stop, rest, braces, stops => by
    have head := statement_read first
    have tail := statements_read later stop rest braces stops
    obtain ⟨t, others, rfl, brace⟩ := first.starts
    have continues : stop t = false := by
      cases holds : stop t with
      | false => rfl
      | true => simp [braces t holds] at brace
    rw [List.append_assoc, List.cons_append, statements_cons continues, ← List.cons_append, head]
    simp [Reading.andThen, tail, Reading.map]
end

theorem program_eq (ts : List Token) : program ts =
    match statements (fun _ => false) ts with
    | .ok body _ => .ok body
    | .stuck expected rest => .error (.stuckAt ts rest expected) := rfl

theorem program_ok (read : program ts = .ok body) :
    statements (fun _ => false) ts = ok body [] := by
  rw [program_eq] at read
  split at read
  · rename_i found rest listed
    cases read
    obtain rfl | ⟨t, after, _, stops⟩ := statements_end listed
    · exact listed
    · cases stops
  · cases read

theorem program_derived (read : program ts = .ok body) : Statements ts body := by
  obtain ⟨used, rfl, derived⟩ := (statements_follows _ ts).taken (program_ok read)
  simpa using derived

theorem program_read (derived : Statements ts body) : program ts = .ok body := by
  have listed := statements_read derived (fun _ => false) [] (by simp) (.inl rfl)
  rw [List.append_nil] at listed
  rw [program_eq, listed]

theorem program_exact (ts : List Token) :
    (∀ body, program ts = .ok body ↔ Statements ts body) ∧
      ∀ one two, Statements ts one → Statements ts two → one = two := by
  refine ⟨fun body => ⟨program_derived, program_read⟩, ?_⟩
  intro one two first second
  exact Except.ok.inj ((program_read first).symm.trans (program_read second))

theorem program_exact_differences :
    let a : Token := ⟨.origin, .identifier, "a", none⟩
    let minus : Token := ⟨.origin, .operator, "-", none⟩
    let ts := [a, minus, a, minus, a, ⟨.origin, .semicolon, ";", none⟩]
    let name : Expr := .ident a "a"
    Statements ts [.expr (.binary minus "-" (.binary minus "-" name name) name)] ∧
      ¬Statements ts [.expr (.binary minus "-" name (.binary minus "-" name name))] := by
  intro a minus ts name
  have derived := ((program_exact ts).1 _).mp rfl
  refine ⟨derived, fun other => ?_⟩
  have same := (program_exact ts).2 _ _ derived other
  simp [name] at same

end Minilang.Parse
