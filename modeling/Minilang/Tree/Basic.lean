import Minilang.Token.Basic

namespace Minilang

-- A tree may be built by hand, so an expression may be missing, a literal may lack its
-- value, an assignment its target, and an operator may be any text. Trees that were read
-- from tokens have none of these gaps.

structure Target where
  origin : Token
  name : String
deriving DecidableEq, Repr

inductive Expr where
  | missing
  | number (origin : Token) (value : Option Int)
  | ident (origin : Token) (name : String)
  | unary (origin : Token) (operator : String) (operand : Expr)
  | binary (origin : Token) (operator : String) (left right : Expr)
  | assign (origin : Token) (target : Option Target) (value : Expr)
deriving DecidableEq, Repr, Inhabited

inductive Stmt where
  | expr (e : Expr)
  | branch (origin : Token) (condition : Expr) (body : List Stmt)
  | loop (origin : Token) (condition : Expr) (body : List Stmt)
  | print (origin : Token) (e : Expr)
deriving Repr, Inhabited

inductive NodeKind where
  | number
  | ident
  | unary
  | binary
  | assign
  | branch
  | loop
  | print
deriving DecidableEq, Repr

namespace NodeKind

def text : NodeKind → String
  | number => "NumberLiteral"
  | ident => "Identifier"
  | unary => "UnaryExpression"
  | binary => "BinaryExpression"
  | assign => "AssignmentExpression"
  | branch => "IfStatement"
  | loop => "WhileStatement"
  | print => "PrintStatement"

end NodeKind

namespace Expr

def node? : Expr → Option (NodeKind × Position)
  | missing => none
  | number origin _ => some (.number, origin.position)
  | ident origin _ => some (.ident, origin.position)
  | unary origin _ _ => some (.unary, origin.position)
  | binary origin _ _ _ => some (.binary, origin.position)
  | assign origin _ _ => some (.assign, origin.position)

end Expr

namespace Stmt

def node? : Stmt → Option (NodeKind × Position)
  | expr e => e.node?
  | branch origin _ _ => some (.branch, origin.position)
  | loop origin _ _ => some (.loop, origin.position)
  | print origin _ => some (.print, origin.position)

end Stmt

end Minilang
