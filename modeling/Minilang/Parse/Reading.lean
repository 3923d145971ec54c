import Minilang.Tree.Basic

namespace Minilang

inductive Expectation where
  | expression
  | lexeme (text : String)
deriving DecidableEq, Repr

namespace Expectation

def text : Expectation → String
  | expression => "expression"
  | lexeme text => text

def ofText (text : String) : Expectation :=
  if text = "expression" then expression else lexeme text

def description : Expectation → String
  | expression => "expression"
  | lexeme text => Text.quoted text

end Expectation

structure ParseError where
  position : Position
  expected : Expectation
  found : String
  atEnd : Bool
deriving DecidableEq, Repr

namespace ParseError

def endOfInput : String := "end of input"

def detail (e : ParseError) : String :=
  let found := if e.atEnd then endOfInput else Text.quoted e.found
  "expected " ++ e.expected.description ++ " but found " ++ found

def message (e : ParseError) : String :=
  "parse error: " ++ e.detail ++ " at " ++ e.position.text

def stuckAt (tokens rest : List Token) (expected : Expectation) : ParseError :=
  match rest with
  | t :: _ => ⟨t.position, expected, t.lexeme, false⟩
  | [] => ⟨(tokens.getLast?.map (·.position)).getD .origin, expected, endOfInput, true⟩

end ParseError

-- A reading takes tokens from the front of a list. When it succeeds it hands on the
-- tokens it left; when it is stuck it says what it wanted, and before which tokens.
inductive Reading (α : Type) where
  | ok (value : α) (rest : List Token)
  | stuck (expected : Expectation) (rest : List Token)
deriving Repr

namespace Reading

def andThen {α β : Type} (r : Reading α) (next : α → List Token → Reading β) : Reading β :=
  match r with
  | ok value rest => next value rest
  | stuck expected rest => stuck expected rest

def map {α β : Type} (f : α → β) (r : Reading α) : Reading β :=
  r.andThen fun value rest => ok (f value) rest

def rest {α : Type} : Reading α → List Token
  | ok _ rest => rest
  | stuck _ rest => rest

def eat (kind : TokenKind) (lexeme : String) : List Token → Reading Token
  | [] => stuck (.lexeme lexeme) []
  | t :: rest => if t.is kind lexeme then ok t rest else stuck (.lexeme lexeme) (t :: rest)

end Reading

end Minilang
