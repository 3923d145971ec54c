import Minilang.Proofs.GrammarExact
import Minilang.Proofs.OriginToken

namespace Minilang

def Expr.origins : Expr → List Token
  | missing => []
  | number origin _ => [origin]
  | ident origin _ => [origin]
  | unary origin _ operand => origin :: operand.origins
  | binary origin _ left right => left.origins ++ origin :: right.origins
  | assign origin target value => (target.map Target.origin).toList ++ origin :: value.origins

mutual
def Stmt.origins : Stmt → List Token
  | .expr e => e.origins
  | .branch origin condition body => origin :: condition.origins ++ Stmt.allOrigins body
  | .loop origin condition body => origin :: condition.origins ++ Stmt.allOrigins body
  | .print origin e => origin :: e.origins

def Stmt.allOrigins : List Stmt → List Token
  | [] => []
  | s :: body => s.origins ++ Stmt.allOrigins body
end

mutual
def Stmt.Headed : Stmt → Prop
  | .expr _ => True
  | .branch origin _ body => origin.is .keyword "if" ∧ Stmt.AllHeaded body
  | .loop origin _ body => origin.is .keyword "while" ∧ Stmt.AllHeaded body
  | .print origin _ => origin.is .keyword "print"

def Stmt.AllHeaded : List Stmt → Prop
  | [] => True
  | s :: body => s.Headed ∧ Stmt.AllHeaded body
end

-- Parentheses, braces and semicolons shape a tree and are not in it.
def TokenKind.isMark : TokenKind → Bool
  | .paren | .brace | .semicolon => true
  | _ => false

def Token.unmarked (ts : List Token) : List Token := ts.filter fun t => !t.kind.isMark

namespace Token

variable {t : Token} {ts us : List Token} {sort : TokenKind}

@[simp]
theorem unmarked_append : unmarked (ts ++ us) = unmarked ts ++ unmarked us :=
  List.filter_append ..

theorem unmarked_keep (kind : t.kind = sort) (plain : sort.isMark = false) :
    unmarked (t :: ts) = t :: unmarked ts := by
  simp [unmarked, kind, plain]

theorem unmarked_drop (kind : t.kind = sort) (mark : sort.isMark = true) :
    unmarked (t :: ts) = unmarked ts := by
  simp [unmarked, kind, mark]

end Token

namespace Grammar

open Token

theorem Expression.origins (derived : Expression level ts e) : e.origins = unmarked ts := by
  induction derived with
  | number kind | ident kind =>
    rw [unmarked_keep kind rfl]
    rfl
  | parens opening _ closing ih =>
    rw [ih, List.cons_append, unmarked_drop (is_iff.mp opening).1 rfl, unmarked_append,
      unmarked_drop (is_iff.mp closing).1 rfl]
    exact (List.append_nil _).symm
  | ofTerm _ ih | ofUnary _ ih | ofProduct _ ih => exact ih
  | negation sign _ ih =>
    rw [Expr.origins, ih, unmarked_keep (is_iff.mp sign).1 rfl]
  | product _ kind _ _ first second | sum _ kind _ _ first second =>
    rw [Expr.origins, first, second, unmarked_append, unmarked_keep kind rfl]

theorem AssignmentOrExpression.origins (derived : AssignmentOrExpression ts e) :
    e.origins = unmarked ts := by
  cases derived with
  | assignment kind sign value =>
    rw [Expr.origins, value.origins, unmarked_keep kind rfl,
      unmarked_keep (is_iff.mp sign).1 rfl]
    rfl
  | expression inner => exact inner.origins

theorem OptionalSemicolon.unmarked (derived : OptionalSemicolon ts) : unmarked ts = [] := by
  cases derived with
  | absent => rfl
  | present mark => exact unmarked_drop (is_iff.mp mark).1 rfl

mutual
theorem Statement.origins : Statement ts s → s.origins = unmarked ts
  | .branch keyword guarded => by
    rw [Stmt.origins, List.cons_append, guarded.origins,
      unmarked_keep (is_iff.mp keyword).1 rfl]
  | .loop keyword guarded => by
    rw [Stmt.origins, List.cons_append, guarded.origins,
      unmarked_keep (is_iff.mp keyword).1 rfl]
  | .print keyword operand mark => by
    rw [Stmt.origins, operand.origins, List.cons_append,
      unmarked_keep (is_iff.mp keyword).1 rfl, unmarked_append,
      unmarked_drop (is_iff.mp mark).1 rfl]
    exact congrArg _ (List.append_nil _).symm
  | .expression inner mark => by
    rw [Stmt.origins, inner.origins, unmarked_append,
      unmarked_drop (is_iff.mp mark).1 rfl]
    exact (List.append_nil _).symm

theorem Guarded.origins :
    Guarded ts c body → c.origins ++ Stmt.allOrigins body = unmarked ts
  | .intro opening guard mark closing enter inside leave => by
    rw [guard.origins, inside.origins, unmarked_append, unmarked_append, List.cons_append,
      unmarked_drop (is_iff.mp opening).1 rfl, unmarked_append, mark.unmarked,
      unmarked_drop (is_iff.mp closing).1 rfl,
      unmarked_drop (is_iff.mp enter).1 rfl,
      unmarked_drop (is_iff.mp leave).1 rfl]
    simp [unmarked]

theorem Statements.origins : Statements ts body → Stmt.allOrigins body = unmarked ts
  | .nil => rfl
  | .cons first later => by
    rw [Stmt.allOrigins, first.origins, later.origins, unmarked_append]
end

mutual
theorem Statement.headed : Statement ts s → s.Headed
  | .branch keyword guarded => ⟨keyword, guarded.headed⟩
  | .loop keyword guarded => ⟨keyword, guarded.headed⟩
  | .print keyword _ _ => keyword
  | .expression _ _ => trivial

theorem Guarded.headed : Guarded ts c body → Stmt.AllHeaded body
  | .intro _ _ _ _ _ inside _ => inside.headed

theorem Statements.headed : Statements ts body → Stmt.AllHeaded body
  | .nil => trivial
  | .cons first later => ⟨first.headed, later.headed⟩
end

end Grammar

-- Every token of an accepted list is the origin of one node, in the order of the source, or
-- a mark; and every node says what its origin says.
theorem Parse.origins_listed (ts : List Token) (body : List Stmt)
    (accepted : program ts = .ok body) :
    Stmt.allOrigins body = Token.unmarked ts ∧
      (∀ e ∈ Stmt.allExpressions body, ∀ node ∈ e.nodes, node.RootedIn ts) ∧
      Stmt.AllHeaded body := by
  have derived := program_derived accepted
  exact ⟨derived.origins, derived.rooted, derived.headed⟩

theorem Parse.origins_listed_loop :
    let token (column : Int) (kind : TokenKind) (lexeme : String) : Token :=
      ⟨⟨0, column⟩, kind, lexeme, none⟩
    let loop := token 0 .keyword "while"
    let a := token 2 .identifier "a"
    let print := token 6 .keyword "print"
    let b := token 8 .identifier "b"
    let minus := token 9 .operator "-"
    let c := token 10 .identifier "c"
    let ts := [loop, token 1 .paren "(", a, token 3 .semicolon ";", token 4 .paren ")",
      token 5 .brace "\x7b", print, token 7 .paren "(", b, minus, c, token 11 .paren ")",
      token 12 .semicolon ";", token 13 .brace "\x7d"]
    let body : List Stmt :=
      [.loop loop (.ident a "a") [.print print (.binary minus "-" (.ident b "b") (.ident c "c"))]]
    program ts = .ok body ∧ Token.unmarked ts = [loop, a, print, b, minus, c] ∧
      Stmt.allOrigins body = Token.unmarked ts ∧
      (∀ e ∈ Stmt.allExpressions body, ∀ node ∈ e.nodes, node.RootedIn ts) ∧
      Stmt.AllHeaded body := by
  intro token loop a print b minus c ts body
  have accepted : program ts = .ok body := by rfl
  exact ⟨accepted, by rfl, origins_listed ts body accepted⟩

end Minilang
