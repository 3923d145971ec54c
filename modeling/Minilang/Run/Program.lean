import Minilang.Failure.Diagnostic
import Minilang.Parse.Program
import Minilang.Run.Execution

namespace Minilang

structure Program where
  path : String
  source : List UInt8
  tokens : List Token
  statements : List Stmt

namespace Parse

def source (bytes : List UInt8) : Except Failure (List Stmt) :=
  match Token.scan bytes with
  | .error e => .error (.lex e)
  | .ok tokens =>
    match program tokens with
    | .error e => .error (.parse e)
    | .ok statements => .ok statements

end Parse

namespace Program

def compile (path : String) (source : List UInt8) : Except Failure Program :=
  match Token.scan source with
  | .error e => .error (.inProgram path (.lex e))
  | .ok tokens =>
    match Parse.program tokens with
    | .error e => .error (.inProgram path (.parse e))
    | .ok statements => .ok ⟨path, source, tokens, statements⟩

end Program

structure Ending where
  machine : Option Machine
  failure : Option Failure

namespace Ending

def traceText (e : Ending) : String :=
  String.join (((e.machine.map Machine.traceLines).getD []).map fun line => "trace: " ++ line ++ "\n")

def outputLines (e : Ending) : List String := (e.machine.map Machine.outputLines).getD []

def output (e : Ending) : String := (e.machine.map Machine.output).getD ""

end Ending

-- There is no ending when a loop needs more rounds than the bound.
def execute (options : RunOptions) (bound : Nat) (sink : Option Sink) :
    Option Program → Option Ending
  | none => some ⟨none, some (.plain "driver: nil program")⟩
  | some program =>
    match execBlock options bound program.statements (.start .empty sink) with
    | .finished m => some ⟨some m, none⟩
    | .failed fault m => some ⟨some m, some (.inProgram program.path (.ofFault fault))⟩
    | .unfinished => none

def runSource (options : RunOptions) (bound : Nat) (sink : Option Sink) (path : String)
    (source : List UInt8) : Option Ending :=
  match Program.compile path source with
  | .error failure => some ⟨none, some failure⟩
  | .ok program => execute options bound sink (some program)

end Minilang
