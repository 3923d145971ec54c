import Minilang.Parse.Expression
import Minilang.Token.Scan

namespace Minilang.Parse

open Reading

def terminated (tokens : List Token) : Reading Expr :=
  (assignmentOrExpression tokens).andThen fun e rest =>
    (eat .semicolon ";" rest).andThen fun _ rest => ok e rest

def condition (tokens : List Token) : Reading Expr :=
  (assignmentOrExpression tokens).andThen fun e rest =>
    match rest with
    | t :: after => if t.is .semicolon ";" then ok e after else ok e rest
    | [] => ok e rest

def statementsUntil (stop : Token → Bool) (statement : List Token → Reading Stmt) :
    Nat → List Token → Reading (List Stmt)
  | 0, tokens => ok [] tokens
  | _ + 1, [] => ok [] []
  | n + 1, t :: rest =>
    if stop t then ok [] (t :: rest)
    else (statement (t :: rest)).andThen fun s rest =>
      (statementsUntil stop statement n rest).map (s :: ·)

def block (statement : List Token → Reading Stmt) (tokens : List Token) :
    Reading (List Stmt) :=
  (eat .brace "\x7b" tokens).andThen fun _ rest =>
    (statementsUntil (·.is .brace "\x7d") statement rest.length rest).andThen fun body rest =>
      (eat .brace "\x7d" rest).andThen fun _ rest => ok body rest

def guarded (statement : List Token → Reading Stmt) (tokens : List Token) :
    Reading (Expr × List Stmt) :=
  (eat .paren "(" tokens).andThen fun _ rest =>
    (condition rest).andThen fun guard rest =>
      (eat .paren ")" rest).andThen fun _ rest =>
        (block statement rest).map (guard, ·)

-- As with parentheses, each block takes a token, so the number of tokens bounds how deep
-- blocks can nest.
def statementWithin : Nat → List Token → Reading Stmt
  | 0, tokens => stuck .expression tokens
  | n + 1, tokens =>
    match tokens with
    | t :: rest =>
      if t.is .keyword "if" then
        (guarded (statementWithin n) rest).map fun (guard, body) => .branch t guard body
      else if t.is .keyword "while" then
        (guarded (statementWithin n) rest).map fun (guard, body) => .loop t guard body
      else if t.is .keyword "print" then (terminated rest).map (.print t)
      else (terminated tokens).map .expr
    | [] => (terminated tokens).map .expr

def statement (tokens : List Token) : Reading Stmt := statementWithin tokens.length tokens

def program (tokens : List Token) : Except ParseError (List Stmt) :=
  match statementsUntil (fun _ => false) statement tokens.length tokens with
  | .ok body _ => .ok body
  | .stuck expected rest => .error (.stuckAt tokens rest expected)

end Minilang.Parse
