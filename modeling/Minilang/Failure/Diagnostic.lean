import Minilang.Failure.Basic
import Minilang.Text.Blank

namespace Minilang

structure Stage where
  label : String
deriving DecidableEq, Repr

namespace Stage

def lex : Stage := ⟨"lex"⟩

def parse : Stage := ⟨"parse"⟩

def runtime : Stage := ⟨"runtime"⟩

def internal : Stage := ⟨"internal"⟩

def unknown : Stage := ⟨""⟩

end Stage

-- Lines and columns count from one; zero means unknown.
structure Diagnostic where
  stage : Stage
  message : String
  path : String
  line : Int
  column : Int
deriving DecidableEq, Repr

namespace Diagnostic

def location (d : Diagnostic) : String :=
  let path := Text.trim d.path
  if path ≠ "" then
    if 0 < d.line then
      if 0 < d.column then path ++ ":" ++ decimal d.line ++ ":" ++ decimal d.column
      else path ++ ":" ++ decimal d.line
    else path
  else if 0 < d.line then
    if 0 < d.column then "line " ++ decimal d.line ++ ", column " ++ decimal d.column
    else "line " ++ decimal d.line
  else ""

def describe (d : Diagnostic) : String :=
  let message := Text.trim d.message
  let message := if d.stage = .internal then message else d.stage.label ++ " error: " ++ message
  let location := d.location
  if location = "" then message else location ++ ": " ++ message

end Diagnostic

namespace Failure

def stage (f : Failure) : Stage :=
  match f.root with
  | lex _ => .lex
  | parse _ => .parse
  | runtime _ => .runtime
  | internal _ => .internal
  | _ => .unknown

def diagnose (f : Failure) : Option Diagnostic :=
  let placed (stage : Stage) (message : String) (p : Position) : Option Diagnostic :=
    some ⟨stage, message, f.programPath, p.row + 1, p.column + 1⟩
  match f.root with
  | lex e => placed .lex e.detail e.position
  | parse e => placed .parse e.detail e.position
  | runtime e => placed .runtime e.detail e.position
  | internal node => some ⟨.internal, internalMessage node, f.programPath, 0, 0⟩
  | _ => none

def describe (f : Failure) : String :=
  match f.diagnose with
  | some d => d.describe
  | none => f.message

end Failure

end Minilang
