import Minilang.Proofs.Token
import Minilang.Tree.Basic

namespace Minilang.Grammar

-- The grammar over token lists, apart from any reader. The four levels of expressions are
-- one family: a sum is built from products, those from signed terms, and parentheses lead
-- from a term back to a sum. Chains of one level group to the left.
inductive Level where
  | additive
  | multiplicative
  | unary
  | term

def additiveOperators : List String := ["+", "-"]

def multiplicativeOperators : List String := ["*", "/", "%"]

inductive Expression : Level → List Token → Expr → Prop where
  | number (kind : t.kind = .number) : Expression .term [t] (.number t t.value)
  | ident (kind : t.kind = .identifier) : Expression .term [t] (.ident t t.lexeme)
  | parens (opening : left.is .paren "(") (inner : Expression .additive ts e)
      (closing : right.is .paren ")") : Expression .term (left :: ts ++ [right]) e
  | ofTerm (inner : Expression .term ts e) : Expression .unary ts e
  | negation (sign : t.is .operator "-") (operand : Expression .unary ts e) :
      Expression .unary (t :: ts) (.unary t "-" e)
  | ofUnary (inner : Expression .unary ts e) : Expression .multiplicative ts e
  | product (first : Expression .multiplicative ls l) (kind : t.kind = .operator)
      (operator : t.lexeme ∈ multiplicativeOperators) (second : Expression .unary rs r) :
      Expression .multiplicative (ls ++ t :: rs) (.binary t t.lexeme l r)
  | ofProduct (inner : Expression .multiplicative ts e) : Expression .additive ts e
  | sum (first : Expression .additive ls l) (kind : t.kind = .operator)
      (operator : t.lexeme ∈ additiveOperators) (second : Expression .multiplicative rs r) :
      Expression .additive (ls ++ t :: rs) (.binary t t.lexeme l r)

inductive AssignmentOrExpression : List Token → Expr → Prop where
  | assignment (kind : name.kind = .identifier) (sign : equals.is .operator "=")
      (value : Expression .additive ts e) :
      AssignmentOrExpression (name :: equals :: ts) (.assign equals (some ⟨name, name.lexeme⟩) e)
  | expression (inner : Expression .additive ts e) : AssignmentOrExpression ts e

inductive OptionalSemicolon : List Token → Prop where
  | absent : OptionalSemicolon []
  | present (mark : t.is .semicolon ";") : OptionalSemicolon [t]

mutual
inductive Statement : List Token → Stmt → Prop where
  | branch (keyword : t.is .keyword "if") (guarded : Guarded ts c ss) :
      Statement (t :: ts) (.branch t c ss)
  | loop (keyword : t.is .keyword "while") (guarded : Guarded ts c ss) :
      Statement (t :: ts) (.loop t c ss)
  | print (keyword : t.is .keyword "print") (operand : AssignmentOrExpression ts e)
      (mark : last.is .semicolon ";") : Statement (t :: ts ++ [last]) (.print t e)
  | expression (inner : AssignmentOrExpression ts e) (mark : last.is .semicolon ";") :
      Statement (ts ++ [last]) (.expr e)

inductive Guarded : List Token → Expr → List Stmt → Prop where
  | intro (opening : left.is .paren "(") (guard : AssignmentOrExpression cs c)
      (mark : OptionalSemicolon os) (closing : right.is .paren ")")
      (enter : first.is .brace "\x7b") (body : Statements bs ss) (leave : last.is .brace "\x7d") :
      Guarded (left :: cs ++ os ++ right :: first :: bs ++ [last]) c ss

inductive Statements : List Token → List Stmt → Prop where
  | nil : Statements [] []
  | cons (first : Statement ts s) (later : Statements us ss) : Statements (ts ++ us) (s :: ss)
end

theorem Expression.raise (derived : Expression .term ts e) : Expression level ts e := by
  cases level with
  | term => exact derived
  | unary => exact .ofTerm derived
  | multiplicative => exact .ofUnary (.ofTerm derived)
  | additive => exact .ofProduct (.ofUnary (.ofTerm derived))

def StartsExpression (t : Token) : Prop :=
  t.kind = .number ∨ t.kind = .identifier ∨ t.is .paren "(" ∨ t.is .operator "-"

theorem Expression.starts (derived : Expression level ts e) :
    ∃ first rest, ts = first :: rest ∧ StartsExpression first := by
  induction derived with
  | number kind => exact ⟨_, _, rfl, .inl kind⟩
  | ident kind => exact ⟨_, _, rfl, .inr (.inl kind)⟩
  | parens opening => exact ⟨_, _, rfl, .inr (.inr (.inl opening))⟩
  | negation sign => exact ⟨_, _, rfl, .inr (.inr (.inr sign))⟩
  | ofTerm _ ih | ofUnary _ ih | ofProduct _ ih => exact ih
  | product _ _ _ _ ih _ | sum _ _ _ _ ih _ =>
    obtain ⟨first, rest, rfl, starts⟩ := ih
    exact ⟨first, _, rfl, starts⟩

theorem AssignmentOrExpression.starts (derived : AssignmentOrExpression ts e) :
    ∃ first rest, ts = first :: rest ∧ StartsExpression first := by
  cases derived with
  | assignment kind => exact ⟨_, _, rfl, .inr (.inl kind)⟩
  | expression inner => exact inner.starts

theorem Expression.term_starts (derived : Expression .term ts e) :
    ∃ first rest, ts = first :: rest ∧ first.is .operator "-" = false := by
  cases derived with
  | number kind => exact ⟨_, _, rfl, Token.is_other kind (by decide) _⟩
  | ident kind => exact ⟨_, _, rfl, Token.is_other kind (by decide) _⟩
  | parens opening => exact ⟨_, _, rfl, Token.is_kind opening (by decide) _⟩

theorem Expression.no_equals (derived : Expression level ts e) :
    ∀ t ∈ ts, t.is .operator "=" = false := by
  induction derived with
  | number kind => simpa using Token.is_other kind (by decide) _
  | ident kind => simpa using Token.is_other kind (by decide) _
  | parens opening _ closing ih =>
    simp only [List.mem_append, List.mem_cons, List.not_mem_nil, or_false]
    rintro t ((rfl | inside) | rfl)
    · exact Token.is_kind opening (by decide) _
    · exact ih t inside
    · exact Token.is_kind closing (by decide) _
  | negation sign _ ih =>
    have lexeme := (Token.is_iff.mp sign).2
    simpa [Token.is, lexeme] using ih
  | ofTerm _ ih | ofUnary _ ih | ofProduct _ ih => exact ih
  | product _ _ operator _ first second =>
    simp only [List.mem_append, List.mem_cons]
    rintro t (left | rfl | right)
    · exact first t left
    · simp only [multiplicativeOperators] at operator
      grind [Token.is]
    · exact second t right
  | sum _ _ operator _ first second =>
    simp only [List.mem_append, List.mem_cons]
    rintro t (left | rfl | right)
    · exact first t left
    · simp only [additiveOperators] at operator
      grind [Token.is]
    · exact second t right

theorem Statement.nonempty (derived : Statement ts s) : ts ≠ [] := by
  cases derived <;> simp

theorem Statement.starts (derived : Statement ts s) :
    ∃ first rest, ts = first :: rest ∧ first.is .brace "\x7d" = false := by
  cases derived with
  | branch keyword => exact ⟨_, _, rfl, Token.is_kind keyword (by decide) _⟩
  | loop keyword => exact ⟨_, _, rfl, Token.is_kind keyword (by decide) _⟩
  | print keyword => exact ⟨_, _, rfl, Token.is_kind keyword (by decide) _⟩
  | expression inner =>
    obtain ⟨first, rest, rfl, number | ident | opening | sign⟩ := inner.starts
    · exact ⟨_, _, rfl, Token.is_other number (by decide) _⟩
    · exact ⟨_, _, rfl, Token.is_other ident (by decide) _⟩
    · exact ⟨_, _, rfl, Token.is_kind opening (by decide) _⟩
    · exact ⟨_, _, rfl, Token.is_kind sign (by decide) _⟩

end Minilang.Grammar
