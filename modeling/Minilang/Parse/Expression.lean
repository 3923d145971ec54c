import Minilang.Parse.Reading

namespace Minilang.Parse

open Reading

-- The bounds count tokens: each round of a chain takes one at least, and so does a parenthesis,
-- so a bound of all tokens is used up only where none is left.

def chain (operators : List String) (operand : List Token → Reading Expr) :
    Nat → Expr → List Token → Reading Expr
  | 0, left, tokens => ok left tokens
  | _ + 1, left, [] => ok left []
  | n + 1, left, t :: rest =>
    if t.kind == .operator && operators.contains t.lexeme then
      (operand rest).andThen fun right rest =>
        chain operators operand n (.binary t t.lexeme left right) rest
    else ok left (t :: rest)

def level (operators : List String) (operand : List Token → Reading Expr)
    (tokens : List Token) : Reading Expr :=
  (operand tokens).andThen fun left rest => chain operators operand rest.length left rest

def term (inner : List Token → Reading Expr) : List Token → Reading Expr
  | [] => stuck .expression []
  | t :: rest =>
    if t.is .paren "(" then
      (inner rest).andThen fun e rest => (eat .paren ")" rest).andThen fun _ rest => ok e rest
    else if t.kind == .number then ok (.number t t.value) rest
    else if t.kind == .identifier then ok (.ident t t.lexeme) rest
    else stuck .expression (t :: rest)

def unary (inner : List Token → Reading Expr) : List Token → Reading Expr
  | [] => term inner []
  | t :: rest =>
    if t.is .operator "-" then (unary inner rest).map (.unary t t.lexeme)
    else term inner (t :: rest)

def multiplicative (inner : List Token → Reading Expr) : List Token → Reading Expr :=
  level ["*", "/", "%"] (unary inner)

def additiveWithin : Nat → List Token → Reading Expr
  | 0, tokens => stuck .expression tokens
  | n + 1, tokens => level ["+", "-"] (multiplicative (additiveWithin n)) tokens

def additive (tokens : List Token) : Reading Expr := additiveWithin tokens.length tokens

def assignmentOrExpression (tokens : List Token) : Reading Expr :=
  match tokens with
  | name :: equals :: rest =>
    if name.kind == .identifier && equals.is .operator "=" then
      (additive rest).map (.assign equals (some ⟨name, name.lexeme⟩))
    else additive tokens
  | _ => additive tokens

end Minilang.Parse
