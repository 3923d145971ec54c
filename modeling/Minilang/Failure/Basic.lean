import Minilang.Parse.Reading
import Minilang.Run.Fault
import Minilang.Token.Scan

namespace Minilang

inductive SystemError where
  | notFound
  | notDirectory
  | isDirectory
  | invalidArgument
  | nameTooLong
  | other (text : String)
deriving DecidableEq, Repr

namespace SystemError

def text : SystemError → String
  | notFound => "no such file or directory"
  | notDirectory => "not a directory"
  | isDirectory => "is a directory"
  | invalidArgument => "invalid argument"
  | nameTooLong => "file name too long"
  | other text => text

end SystemError

def validationMessage (issues : List String) : String :=
  if issues.isEmpty then "manifest: invalid configuration"
  else "manifest validation failed:" ++ String.join (issues.map ("\n- " ++ ·))

-- The last two wrap another failure.
inductive Failure where
  | lex (e : LexError)
  | parse (e : ParseError)
  | runtime (e : RuntimeError)
  | internal (node : Option NodeKind)
  | validation (issues : List String)
  | manifestNotFound
  | noMain
  | system (call path : String) (cause : SystemError)
  | plain (text : String)
  | inProgram (path : String) (inner : Failure)
  | context (text : String) (inner : Failure)
deriving DecidableEq, Repr

namespace Failure

def root : Failure → Failure
  | inProgram _ inner => inner.root
  | context _ inner => inner.root
  | leaf => leaf

def chain : Failure → List Failure
  | inProgram path inner => inProgram path inner :: inner.chain
  | context text inner => context text inner :: inner.chain
  | leaf => [leaf]

def internalMessage : Option NodeKind → String
  | none => "interpreter: internal error: nil node"
  | some kind =>
    "interpreter: internal error: unsupported node " ++ kind.text ++ " (*ast." ++ kind.text ++ ")"

def message : Failure → String
  | lex e => e.message
  | parse e => e.message
  | runtime e => e.fullMessage
  | internal node => internalMessage node
  | validation issues => validationMessage issues
  | manifestNotFound => "manifest: minilang.yml not found"
  | noMain => "manifest: no main entry defined"
  | system call path cause => call ++ " " ++ path ++ ": " ++ cause.text
  | plain text => text
  | inProgram path inner => if path = "" then inner.message else path ++ ": " ++ inner.message
  | context text inner => text ++ ": " ++ inner.message

-- What a failure can be asked for holds if any link of its chain is of that kind.

def isLex (f : Failure) : Bool := f.chain.any (· matches .lex _)

def isParse (f : Failure) : Bool := f.chain.any (· matches .parse _)

def isRuntime (f : Failure) : Bool := f.chain.any (· matches .runtime _)

def isManifestNotFound (f : Failure) : Bool := f.chain.any (· matches .manifestNotFound)

def isNoMain (f : Failure) : Bool := f.chain.any (· matches .noMain)

def isNotExist (f : Failure) : Bool := f.chain.any (· matches .system _ _ .notFound)

def programPath : Failure → String
  | inProgram path _ => path
  | context _ inner => inner.programPath
  | _ => ""

def ofFault : Fault → Failure
  | .runtime e => runtime e
  | .internal node => internal node
  | .closedOutput error => context "interpreter: write output" (plain error)

end Failure

end Minilang
