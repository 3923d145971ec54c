import Minilang.Proofs.Grammar
import Minilang.Proofs.Lexeme
import Minilang.Proofs.Relabelling

namespace Minilang

def IsName (name : String) : Prop := IsWord name ∧ isKeyword name = false

def binaryOperators : List String := ["+", "-", "*", "/", "%"]

theorem mem_binaryOperators : operator ∈ binaryOperators ↔
    operator ∈ Grammar.additiveOperators ∨ operator ∈ Grammar.multiplicativeOperators :=
  List.mem_append (s := ["+", "-"]) (t := ["*", "/", "%"])

-- Trees as a text can give them. Nothing is missing in them, and an assignment stands only
-- where a statement, a condition or what is printed starts.
def Expr.Plain : Expr → Prop
  | missing => False
  | number _ value => ∃ v, value = some v ∧ 0 ≤ v
  | ident _ name => IsName name
  | unary _ operator operand => operator = "-" ∧ operand.Plain
  | binary _ operator left right => operator ∈ binaryOperators ∧ left.Plain ∧ right.Plain
  | assign _ _ _ => False

def Expr.Readable : Expr → Prop
  | assign _ target value => (∃ found, target = some found ∧ IsName found.name) ∧ value.Plain
  | e => e.Plain

mutual
def Stmt.Readable : Stmt → Prop
  | .expr e => e.Readable
  | .branch _ condition body => condition.Readable ∧ Stmt.AllReadable body
  | .loop _ condition body => condition.Readable ∧ Stmt.AllReadable body
  | .print _ e => e.Readable

def Stmt.AllReadable : List Stmt → Prop
  | [] => True
  | s :: body => s.Readable ∧ Stmt.AllReadable body
end

section Origins

variable {g : Token → Token}

@[simp]
theorem Expr.plain_relabel (e : Expr) : (e.relabel g).Plain ↔ e.Plain := by
  induction e with
  | missing | number | ident | assign => rfl
  | unary origin operator operand ih => simp only [relabel, Plain, ih]
  | binary origin operator left right first second => simp only [relabel, Plain, first, second]

@[simp]
theorem Expr.readable_relabel (e : Expr) : (e.relabel g).Readable ↔ e.Readable := by
  cases e with
  | assign origin target value => cases target <;> simp [relabel, Readable]
  | missing | number | ident | unary | binary => exact plain_relabel _

mutual
@[simp]
theorem Stmt.readable_relabel : ∀ s : Stmt, (s.relabel g).Readable ↔ s.Readable
  | .expr e => by simp [Stmt.relabel, Stmt.Readable]
  | .branch _ c body => by
    simp [Stmt.relabel, Stmt.Readable, Stmt.allReadable_relabel body]
  | .loop _ c body => by
    simp [Stmt.relabel, Stmt.Readable, Stmt.allReadable_relabel body]
  | .print _ e => by simp [Stmt.relabel, Stmt.Readable]

@[simp]
theorem Stmt.allReadable_relabel :
    ∀ body, Stmt.AllReadable (Stmt.relabelAll g body) ↔ Stmt.AllReadable body
  | [] => Iff.rfl
  | s :: body => by
    simp [Stmt.relabelAll, Stmt.AllReadable, Stmt.readable_relabel s, Stmt.allReadable_relabel body]
end

@[simp]
theorem Stmt.allReadable_erase : Stmt.AllReadable (Stmt.eraseAll body) ↔ Stmt.AllReadable body :=
  Stmt.allReadable_relabel body

end Origins

namespace Grammar

theorem Expression.plain (derived : Expression rank ts e) (valid : ∀ t ∈ ts, t.Valid) :
    e.Plain := by
  induction derived with
  | number kind => exact ⟨_, (valid _ (by simp)).number_value kind, Int.natCast_nonneg _⟩
  | ident kind => exact (valid _ (by simp)).identifier kind
  | parens _ _ _ ih => exact ih fun t member => valid t (by simp [member])
  | ofTerm _ ih | ofUnary _ ih | ofProduct _ ih => exact ih valid
  | negation _ _ ih => exact ⟨rfl, ih fun t member => valid t (by simp [member])⟩
  | product _ _ operator _ first second =>
    have left := first fun t member => valid t (by simp [member])
    have right := second fun t member => valid t (by simp [member])
    exact ⟨mem_binaryOperators.mpr (.inr operator), left, right⟩
  | sum _ _ operator _ first second =>
    have left := first fun t member => valid t (by simp [member])
    have right := second fun t member => valid t (by simp [member])
    exact ⟨mem_binaryOperators.mpr (.inl operator), left, right⟩

theorem AssignmentOrExpression.readable (derived : AssignmentOrExpression ts e)
    (valid : ∀ t ∈ ts, t.Valid) : e.Readable := by
  cases derived with
  | assignment kind _ value =>
    have plain := value.plain fun t member => valid t (by simp [member])
    exact ⟨⟨_, rfl, (valid _ (by simp)).identifier kind⟩, plain⟩
  | expression inner =>
    have plain := inner.plain valid
    cases e with
    | assign => exact absurd plain id
    | missing | number | ident | unary | binary => exact plain

mutual
theorem Statement.readable : Statement ts s → (∀ t ∈ ts, t.Valid) → s.Readable
  | .branch _ guarded, valid => guarded.readable fun t member => valid t (by simp [member])
  | .loop _ guarded, valid => guarded.readable fun t member => valid t (by simp [member])
  | .print _ operand _, valid => operand.readable fun t member => valid t (by simp [member])
  | .expression inner _, valid => inner.readable fun t member => valid t (by simp [member])

theorem Guarded.readable :
    Guarded ts c body → (∀ t ∈ ts, t.Valid) → c.Readable ∧ Stmt.AllReadable body
  | .intro _ guard _ _ _ body _, valid =>
    ⟨guard.readable fun t member => valid t (by simp [member]),
      body.readable fun t member => valid t (by simp [member])⟩

theorem Statements.readable : Statements ts body → (∀ t ∈ ts, t.Valid) → Stmt.AllReadable body
  | .nil, _ => trivial
  | .cons first later, valid =>
    ⟨first.readable fun t member => valid t (by simp [member]),
      later.readable fun t member => valid t (by simp [member])⟩
end

end Grammar

end Minilang
