import Minilang.Parse.Expression
import Minilang.Proofs.Grammar
import Minilang.Proofs.Reading

namespace Minilang.Parse

open Reading Grammar

variable {inner operand one two : List Token → Reading Expr} {ts rest : List Token} {t : Token}
  {ops : List String} {rank low high : Level} {k : Nat}

theorem expression_awaited : Awaits (Expression rank) [] .expression := by
  refine ⟨⟨⟨.origin, .number, "0", some 0⟩, .inl rfl⟩, ?_⟩
  rintro t (kind | kind)
  · exact ⟨[], _, Expression.raise (.number kind)⟩
  · exact ⟨[], _, Expression.raise (.ident kind)⟩

theorem term_follows (inside : Follows (Expression .additive) inner) :
    Follows (Expression .term) (term inner) := by
  have close : Follows _ (eat .paren ")") := eat_follows (by simp [delimiters])
  intro ts
  cases ts with
  | nil => exact .nil_stuck rfl expression_awaited
  | cons t rest =>
    by_cases opening : t.is .paren "("
    · refine .take [t] _ (fun _ => by simp [term, opening])
        ((inside rest).andThen fun e ts => (close ts).andThen fun _ => ok_follows e) ?_
      rintro _ _ ⟨us, _, e, rfl, derived, _, _, right, rfl, ⟨rfl, closing⟩, rfl, rfl⟩
      simpa using Expression.parens opening derived closing
    · by_cases number : t.kind = .number
      · refine .take [t] _ (fun _ => by simp [term, opening, number]; rfl) (ok_follows _ _) ?_
        rintro _ _ ⟨rfl, rfl⟩
        exact .number number
      · by_cases ident : t.kind = .identifier
        · refine .take [t] _ (fun _ => by simp [term, opening, ident]; rfl) (ok_follows _ _) ?_
          rintro _ _ ⟨rfl, rfl⟩
          exact .ident ident
        · refine .refuse ?_ expression_awaited
          intro rest
          simp [term, opening, number, ident]

theorem unary_follows (inside : Follows (Expression .additive) inner) :
    Follows (Expression .unary) (unary inner) := by
  have terms : Follows (Expression .unary) (term inner) :=
    fun ts => (term_follows inside ts).imp fun _ _ => .ofTerm
  intro ts
  induction ts with
  | nil => exact .nil_stuck rfl expression_awaited
  | cons t rest ih =>
    by_cases sign : t.is .operator "-"
    · refine .take [t] _ (fun _ => by simp [unary, sign]; rfl) (ih.map _) ?_
      rintro us _ ⟨e, derived, rfl⟩
      have lexeme : t.lexeme = "-" := by simp_all [Token.is]
      simpa [lexeme] using Expression.negation sign derived
    · refine .ofHead (term inner) ?_ (terms _)
      intro rest
      simp [unary, sign]

-- What the rest of a chain reads: it goes on from an operand that is already there.
def Continues (high : Level) (left : Expr) (ts : List Token) (e : Expr) : Prop :=
  ∀ ls, Expression high ls left → Expression high (ls ++ ts) e

theorem Continues.stop : Continues high left [] left := by
  intro ls derived
  simpa using derived

structure Chains (ops : List String) (low high : Level) : Prop where
  single : ∀ {ts e}, Expression low ts e → Expression high ts e
  join : ∀ {ls l t rs r}, Expression high ls l → t.kind = .operator → t.lexeme ∈ ops →
    Expression low rs r → Expression high (ls ++ t :: rs) (.binary t t.lexeme l r)

theorem products : Chains ["*", "/", "%"] .unary .multiplicative := ⟨.ofUnary, .product⟩

theorem sums : Chains ["+", "-"] .multiplicative .additive := ⟨.ofProduct, .sum⟩

theorem chain_follows (rules : Chains ops low high) (operands : Follows (Expression low) operand)
    (n : Nat) (left : Expr) : Follows (Continues high left) (chain ops operand n left) := by
  induction n generalizing left with
  | zero =>
    refine fun ts => (ok_follows left ts).imp ?_
    rintro _ _ ⟨rfl, rfl⟩
    exact .stop
  | succ n ih =>
    intro ts
    cases ts with
    | nil => exact .nil_ok rfl .stop
    | cons t rest =>
      by_cases operator : t.kind = .operator ∧ t.lexeme ∈ ops
      · refine .take [t] _ (fun _ => by simp [chain, operator])
          ((operands rest).andThen fun right => ih (.binary t t.lexeme left right)) ?_
        rintro _ e ⟨us, vs, right, rfl, derived, continued⟩ ls first
        simpa using continued _ (rules.join first operator.1 operator.2 derived)
      · refine .leave ?_ .stop
        intro rest
        simp [chain, operator]

-- Bounds. Two readers agree up to a length when they answer alike on all lists so long.
-- Inner readers are called behind a token already taken, which is what lets a bound grow.
def AgreeUpTo {α : Type} (k : Nat) (one two : List Token → Reading α) : Prop :=
  ∀ ts, ts.length ≤ k → one ts = two ts

theorem chain_agree (agree : AgreeUpTo k one two) (operands : Follows D one) (n m : Nat)
    (left : Expr) (short : ts.length ≤ k) (first : ts.length ≤ n) (second : ts.length ≤ m) :
    chain ops one n left ts = chain ops two m left ts := by
  induction n generalizing m left ts with
  | zero =>
    have empty : ts = [] := by simpa using first
    subst empty
    cases m <;> rfl
  | succ n ih =>
    cases ts with
    | nil => cases m <;> rfl
    | cons t rest =>
      cases m with
      | zero => simp at second
      | succ m =>
        simp only [List.length_cons] at short first second
        rw [chain, chain, ← agree rest (by omega)]
        cases read : one rest with
        | stuck expected after => simp [Reading.andThen]
        | ok right after =>
          have shorter := operands.shrinks read
          simp only [Reading.andThen]
          rw [ih m _ (by omega) (by omega) (by omega)]

theorem rest_follows (rules : Chains ops low high) (operands : Follows (Expression low) operand)
    (left : Expr) :
    Follows (Continues high left) (fun ts => chain ops operand ts.length left ts) :=
  .ofBounded (fun n => chain_follows rules operands n left) fun _ _ enough =>
    chain_agree (fun _ _ => rfl) operands _ _ left (Nat.le_refl _) enough (Nat.le_refl _)

theorem level_follows (rules : Chains ops low high) (operands : Follows (Expression low) operand) :
    Follows (Expression high) (level ops operand) := by
  intro ts
  refine ((operands ts).andThen (rest_follows rules operands)).imp ?_
  rintro _ e ⟨us, vs, left, rfl, derived, continued⟩
  exact continued us (rules.single derived)

theorem multiplicative_follows (inside : Follows (Expression .additive) inner) :
    Follows (Expression .multiplicative) (multiplicative inner) :=
  level_follows products (unary_follows inside)

theorem additiveWithin_follows (n : Nat) : Follows (Expression .additive) (additiveWithin n) := by
  induction n with
  | zero =>
    intro ts
    cases ts with
    | nil => exact .nil_stuck rfl expression_awaited
    | cons t rest => exact .refuse (fun _ => rfl) expression_awaited
  | succ n ih => exact level_follows sums (multiplicative_follows ih)

theorem term_agree (agree : AgreeUpTo k one two) : AgreeUpTo (k + 1) (term one) (term two) := by
  intro ts short
  cases ts with
  | nil => rfl
  | cons t rest => rw [term, term, agree rest (by simpa using short)]

theorem unary_agree (agree : AgreeUpTo k one two) : AgreeUpTo (k + 1) (unary one) (unary two) := by
  intro ts short
  induction ts with
  | nil => rfl
  | cons t rest ih =>
    have shorter : rest.length ≤ k + 1 := by simp at short; omega
    rw [unary, unary, ih shorter, term_agree agree _ short]

theorem level_agree (agree : AgreeUpTo k one two) (operands : Follows D one) :
    AgreeUpTo k (level ops one) (level ops two) := by
  intro ts short
  rw [level, level, ← agree ts short]
  cases read : one ts with
  | stuck expected after => rfl
  | ok left after =>
    have shorter := operands.shrinks read
    exact chain_agree agree operands _ _ left (by omega) (Nat.le_refl _) (Nat.le_refl _)

def additiveOver (inner : List Token → Reading Expr) : List Token → Reading Expr :=
  level ["+", "-"] (multiplicative inner)

theorem additiveOver_agree (agree : AgreeUpTo k one two)
    (inside : Follows (Expression .additive) one) :
    AgreeUpTo (k + 1) (additiveOver one) (additiveOver two) :=
  level_agree (level_agree (unary_agree agree) (unary_follows inside))
    (multiplicative_follows inside)

theorem additiveWithin_agree (n m : Nat) (more : n ≤ m) :
    AgreeUpTo n (additiveWithin n) (additiveWithin m) := by
  induction n generalizing m with
  | zero =>
    intro ts short
    have empty : ts = [] := by simpa using short
    subst empty
    cases m <;> rfl
  | succ n ih =>
    cases m with
    | zero => simp at more
    | succ m => exact additiveOver_agree (ih m (by omega)) (additiveWithin_follows n)

theorem additive_agree (n : Nat) : AgreeUpTo n (additiveWithin n) additive :=
  fun ts short => (additiveWithin_agree ts.length n short ts (Nat.le_refl _)).symm

theorem additive_follows : Follows (Expression .additive) additive :=
  .ofBounded additiveWithin_follows additive_agree

theorem additive_variable (kind : t.kind = .identifier) :
    additive [t] = ok (.ident t t.lexeme) [] := by
  have paren : t.is .paren "(" = false := by simp [Token.is, kind]
  have sign : t.is .operator "-" = false := by simp [Token.is, kind]
  simp [additive, additiveWithin, multiplicative, level, unary, term, chain, Reading.andThen,
    kind, paren, sign]

theorem additive_eq (ts : List Token) : additive ts = additiveOver additive ts := by
  have enough := additive_agree (ts.length + 1) ts (Nat.le_succ _)
  rw [← enough]
  exact additiveOver_agree (additive_agree ts.length) (additiveWithin_follows _) ts (Nat.le_succ _)

theorem assignmentOrExpression_follows :
    Follows AssignmentOrExpression assignmentOrExpression := by
  have plain : Follows AssignmentOrExpression additive :=
    fun ts => (additive_follows ts).imp fun _ _ => .expression
  intro ts
  cases ts with
  | nil => exact .nil_stuck rfl (expression_awaited.imp fun _ _ => .expression)
  | cons name rest =>
    by_cases kind : name.kind = .identifier
    · cases rest with
      | nil =>
        have read : assignmentOrExpression [name] = ok (.ident name name.lexeme) [] :=
          additive_variable kind
        refine ⟨fun found => (plain [name]).taken found, fun found => (plain [name]).awaits found, ?_⟩
        intro next left found
        rw [read] at found
        cases found
      | cons equals after =>
        by_cases sign : equals.is .operator "="
        · refine .take [name, equals] _ ?_
            ((additive_follows after).map (.assign equals (some ⟨name, name.lexeme⟩))) ?_
          · intro rest
            simp [assignmentOrExpression, kind, sign]
          · rintro us _ ⟨e, derived, rfl⟩
            exact .assignment kind sign derived
        · have same : ∀ rest, assignmentOrExpression (name :: equals :: rest) =
              additive (name :: equals :: rest) := by
            intro rest
            simp [assignmentOrExpression, sign]
          refine ⟨?_, ?_, ?_⟩
          · intro e left found
            exact (plain _).taken ((same after).symm.trans found)
          · intro expected left found
            exact (plain _).awaits ((same after).symm.trans found)
          · intro next left found
            rw [same] at found
            obtain ⟨used, split, settled⟩ := (plain _).settled found
            refine ⟨used, split, ?_⟩
            intro later
            -- A variable alone is always taken, so the second token is still in its place.
            cases used with
            | nil =>
              cases split
              have none := settled []
              rw [List.nil_append, additive_variable kind] at none
              cases read : additive (name :: equals :: after) <;> simp [read, leaving] at none
            | cons first used =>
              have still : ∃ tail, first :: used ++ next :: later = name :: equals :: tail := by
                cases used <;> cases split <;> exact ⟨_, rfl⟩
              obtain ⟨tail, changed⟩ := still
              rw [changed, same, same, ← changed, settled]
    · refine .ofHead additive ?_ (plain _)
      intro rest
      cases rest <;> simp [assignmentOrExpression, kind]

end Minilang.Parse
