import Minilang.Tree.Basic

namespace Minilang

inductive UndefinedMode where
  | strict
  | zero
deriving DecidableEq, Repr, Inhabited

namespace UndefinedMode

def label : UndefinedMode → String
  | strict => "error"
  | zero => "zero"

def ofLabel? (text : String) : Option UndefinedMode :=
  if text = "error" then some strict else if text = "zero" then some zero else none

end UndefinedMode

inductive RuntimeKind where
  | divisionByZero
  | undefinedVariable
  | other (code : Int)
deriving DecidableEq, Repr

namespace RuntimeKind

def ofCode (code : Int) : RuntimeKind :=
  if code = 0 then divisionByZero else if code = 1 then undefinedVariable else other code

def text : RuntimeKind → String
  | divisionByZero => "division by zero"
  | undefinedVariable => "undefined variable"
  | other code => "runtime error kind(" ++ decimal code ++ ")"

end RuntimeKind

structure RuntimeError where
  position : Position
  kind : RuntimeKind
  message : String
  suggestion : String
deriving DecidableEq, Repr

namespace RuntimeError

def hint (e : RuntimeError) : String :=
  if e.suggestion = "" then "" else " (did you mean " ++ Text.quoted e.suggestion ++ "?)"

def detail (e : RuntimeError) : String := e.message ++ e.hint

def fullMessage (e : RuntimeError) : String :=
  "runtime error: " ++ e.message ++ " at " ++ e.position.text ++ e.hint

end RuntimeError

-- A closed output gives its own error.
inductive Fault where
  | runtime (e : RuntimeError)
  | internal (node : Option NodeKind)
  | closedOutput (error : String)
deriving DecidableEq, Repr

end Minilang
