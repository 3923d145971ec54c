import Minilang.Integer
import Minilang.Run.Fault
import Minilang.Run.Suggestion

namespace Minilang

namespace Fault

def undefinedVariable (origin : Token) (name : String) (s : Store) : Fault :=
  .runtime ⟨origin.position, .undefinedVariable, "undefined variable " ++ Text.quoted name,
    suggestion name s⟩

def zeroDivisor (origin : Token) (message : String) : Fault :=
  .runtime ⟨origin.position, .divisionByZero, message, ""⟩

end Fault

def applyOperator (origin : Token) (operator : String) (a b : Int) : Except Fault Int :=
  if operator = "+" then .ok (a + b)
  else if operator = "-" then .ok (a - b)
  else if operator = "*" then .ok (a * b)
  else if operator = "/" then
    match Integer.quotient? a b with
    | some q => .ok q
    | none => .error (.zeroDivisor origin "division by zero")
  else if operator = "%" then
    match Integer.remainder? a b with
    | some r => .ok r
    | none => .error (.zeroDivisor origin "modulo by zero")
  else .error (.internal (some .binary))

namespace Expr

-- The store comes back also when evaluation fails, with all that was bound up to there.
def eval (mode : UndefinedMode) : Expr → Store → Except Fault Int × Store
  | missing, s => (.error (.internal none), s)
  | number _ value, s => (.ok (value.getD 0), s)
  | ident origin name, s =>
    match s.lookup? name, mode with
    | some value, _ => (.ok value, s)
    | none, .zero => (.ok 0, s)
    | none, .strict => (.error (.undefinedVariable origin name s), s)
  | unary _ operator operand, s =>
    if operator = "-" then
      match eval mode operand s with
      | (.ok value, s) => (.ok (-value), s)
      | (.error fault, s) => (.error fault, s)
    else (.error (.internal (some .unary)), s)
  | binary origin operator left right, s =>
    match eval mode left s with
    | (.error fault, s) => (.error fault, s)
    | (.ok a, s) =>
      match eval mode right s with
      | (.error fault, s) => (.error fault, s)
      | (.ok b, s) => (applyOperator origin operator a b, s)
  | assign _ none _, s => (.error (.internal (some .assign)), s)
  | assign _ (some target) value, s =>
    match eval mode value s with
    | (.error fault, s) => (.error fault, s)
    | (.ok v, s) => (.ok v, s.define target.name v)

end Expr

end Minilang
