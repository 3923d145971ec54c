import Minilang.Proofs.FaultOrigin
import Minilang.Proofs.Running

namespace Minilang

-- The origin of a node is one of the tokens, and says what the node says.
def Expr.RootedIn (ts : List Token) : Expr → Prop
  | missing => False
  | number origin value => origin ∈ ts ∧ origin.kind = .number ∧ origin.value = value
  | ident origin name => origin ∈ ts ∧ origin.kind = .identifier ∧ origin.lexeme = name
  | unary origin operator _ => origin ∈ ts ∧ origin.kind = .operator ∧ origin.lexeme = operator
  | binary origin operator _ _ => origin ∈ ts ∧ origin.kind = .operator ∧ origin.lexeme = operator
  | assign origin target _ => origin ∈ ts ∧ origin.kind = .operator ∧ origin.lexeme = "=" ∧
      ∃ found, target = some found ∧ found.origin ∈ ts ∧ found.origin.kind = .identifier ∧
        found.origin.lexeme = found.name

theorem Expr.RootedIn.mono {e : Expr} (rooted : e.RootedIn ts) (within : ts ⊆ us) :
    e.RootedIn us := by
  cases e with
  | missing => exact rooted
  | number | ident | unary | binary => exact ⟨within rooted.1, rooted.2⟩
  | assign origin target value =>
    obtain ⟨here, kind, lexeme, found, same, there, named⟩ := rooted
    exact ⟨within here, kind, lexeme, found, same, within there, named⟩

def Expr.AllRooted (ts : List Token) (e : Expr) : Prop := ∀ node ∈ e.nodes, node.RootedIn ts

theorem Expr.AllRooted.mono {e : Expr} (rooted : e.AllRooted ts) (within : ts ⊆ us) :
    e.AllRooted us :=
  fun node member => (rooted node member).mono within

namespace Grammar

theorem Expression.rooted (derived : Expression level ts e) : e.AllRooted ts := by
  induction derived with
  | number kind => simpa [Expr.AllRooted, Expr.nodes, Expr.RootedIn] using kind
  | ident kind => simpa [Expr.AllRooted, Expr.nodes, Expr.RootedIn] using kind
  | parens _ _ _ ih => exact ih.mono (by simp)
  | ofTerm _ ih | ofUnary _ ih | ofProduct _ ih => exact ih
  | negation sign _ ih =>
    exact List.forall_mem_cons.mpr ⟨⟨by simp, Token.is_iff.mp sign⟩, ih.mono (by simp)⟩
  | product _ kind _ _ first second | sum _ kind _ _ first second =>
    refine List.forall_mem_cons.mpr ⟨⟨by simp, kind, rfl⟩, List.forall_mem_append.mpr ⟨?_, ?_⟩⟩
    · exact first.mono (by simp)
    · exact second.mono (by simp)

theorem AssignmentOrExpression.rooted (derived : AssignmentOrExpression ts e) :
    e.AllRooted ts := by
  cases derived with
  | assignment kind sign value =>
    obtain ⟨operator, equals⟩ := Token.is_iff.mp sign
    refine List.forall_mem_cons.mpr ⟨?_, value.rooted.mono (by simp)⟩
    exact ⟨by simp, operator, equals, _, rfl, by simp, kind, rfl⟩
  | expression inner => exact inner.rooted

mutual
theorem Statement.rooted : Statement ts s → ∀ e ∈ s.expressions, e.AllRooted ts
  | .branch _ guarded, e, member => (guarded.rooted e member).mono (by simp)
  | .loop _ guarded, e, member => (guarded.rooted e member).mono (by simp)
  | .print _ operand _, e, member => by
    obtain rfl := List.mem_singleton.mp member
    exact operand.rooted.mono (by simp)
  | .expression inner _, e, member => by
    obtain rfl := List.mem_singleton.mp member
    exact inner.rooted.mono (by simp)

theorem Guarded.rooted :
    Guarded ts c body → ∀ e ∈ c :: Stmt.allExpressions body, e.AllRooted ts
  | .intro _ guard _ _ _ inside _, e, member => by
    obtain rfl | listed := List.mem_cons.mp member
    · exact guard.rooted.mono (by simp)
    · exact (inside.rooted e listed).mono fun t member => by simp [member]

theorem Statements.rooted : Statements ts body → ∀ e ∈ Stmt.allExpressions body, e.AllRooted ts
  | .nil, _, member => by cases member
  | .cons first later, e, member => by
    obtain here | behind := List.mem_append.mp member
    · exact (first.rooted e here).mono (by simp)
    · exact (later.rooted e behind).mono (by simp)
end

end Grammar

end Minilang
