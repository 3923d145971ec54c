import Minilang.CommandLine.Flags
import Minilang.Manifest.Files
import Minilang.Suite.Report
import Minilang.Tree.Dump

namespace Minilang.CommandLine

structure Outcome where
  code : Nat
  stdout : String := ""
  stderr : String := ""
deriving DecidableEq, Repr

namespace Outcome

def stopped (stderr : String) : Outcome := { code := 1, stderr := stderr }

def warned (warning : String) (o : Outcome) : Outcome := { o with stderr := warning ++ o.stderr }

end Outcome

def version : String := "minilang 0.1.0-dev"

def usage : String :=
  "Usage:\n" ++
  "  minilang run [file.mini] [--undefined=error|zero] [--trace]\n" ++
  "  minilang <file.mini>\n" ++
  "  minilang tokens <file.mini>\n" ++
  "  minilang ast <file.mini>\n" ++
  "  minilang test [-v] [suite.yml ...]\n" ++
  "  minilang version\n"

def runFlags : List Flag := [⟨"undefined", false⟩, ⟨"trace", true⟩]

def runUsage : String :=
  "Usage of run:\n" ++
  "  -trace\n" ++
  "    \tlog each executed statement to stderr\n" ++
  "  -undefined string\n" ++
  "    \thow unassigned variables read: error or zero (default from minilang.yml, else error)\n"

def testFlags : List Flag := [⟨"v", true⟩]

def testUsage : String :=
  "Usage of test:\n" ++
  "  -v\tlist passing cases too\n"

def looksLikePath (argument : String) : Bool :=
  let chars := argument.toList
  chars.contains '/' || chars.contains '\\' || Path.extension argument == ".mini" ||
    chars.head? == some '.'

variable {m : Type → Type} [Monad m]

def loadProgram (files : Files m) (path : String) : m (Except Failure Program) := do
  match ← files.contents path with
  | .ok bytes => return Program.compile path bytes
  | .error cause =>
    return .error (.context ("driver: read " ++ path) (Files.readFailure path cause))

def Outcome.ofEnding (e : Ending) : Outcome where
  code := if e.failure.isSome then 1 else 0
  stdout := e.output
  stderr := e.traceText ++
    (match e.failure with
      | some failure => failure.describe ++ "\n"
      | none => "")

-- There is no outcome when a loop needs more rounds than the bound.
def runFile (files : Files m) (bound : Nat) (options : RunOptions) (path : String) :
    m (Option Outcome) := do
  match ← loadProgram files path with
  | .error failure => return some (.stopped (failure.describe ++ "\n"))
  | .ok program =>
    return (execute options bound none (some program)).map Outcome.ofEnding

-- An empty flag chooses nothing.
def chosenMode (flag : String) (given : UndefinedMode) : Except String UndefinedMode :=
  if flag = "" then .ok given
  else
    match UndefinedMode.ofLabel? (Text.lower flag) with
    | some mode => .ok mode
    | none =>
      .error ("invalid --undefined value " ++ Text.quoted flag ++ " (want " ++
        UndefinedMode.strict.label ++ " or " ++ UndefinedMode.zero.label ++ ")\n")

structure Entry where
  path : String
  mode : UndefinedMode
  warning : String

def namedEntry (files : Files m) (path : String) : m Entry := do
  match ← Manifest.loadNearest files path with
  | .ok manifest => return ⟨path, Manifest.mode (some manifest), ""⟩
  | .error failure =>
    let warning :=
      if failure.isManifestNotFound then ""
      else "warning: unable to load manifest (" ++ failure.message ++ "); using defaults\n"
    return ⟨path, Manifest.mode none, warning⟩

def projectEntry (files : Files m) : m (Except String Entry) := do
  match ← Manifest.loadNearest files "." with
  | .error failure =>
    if failure.isManifestNotFound then
      return .error ("minilang run requires a source file (" ++ manifestName ++ " not found)\n")
    else return .error ("failed to load manifest: " ++ failure.message ++ "\n")
  | .ok manifest =>
    match Manifest.mainPath (some manifest) with
    | .error failure => return .error ("manifest error: " ++ failure.message ++ "\n")
    | .ok path => return .ok ⟨path, Manifest.mode (some manifest), ""⟩

def entry (files : Files m) : List String → m (Except String Entry)
  | [] => projectEntry files
  | [path] => return .ok (← namedEntry files path)
  | _ :: extra => return .error ("unexpected arguments: " ++ " ".intercalate extra ++ "\n")

def run (files : Files m) (bound : Nat) (arguments : List String) : m (Option Outcome) := do
  match Flag.parseAll runFlags arguments with
  | .error e => return some (.stopped (e.message ++ runUsage))
  | .ok (values, positional) =>
    match ← entry files positional with
    | .error message => return some (.stopped message)
    | .ok entry =>
      match chosenMode (Flag.value values "undefined") entry.mode with
      | .error message => return some (.stopped (entry.warning ++ message))
      | .ok mode =>
        let outcome ← runFile files bound ⟨mode, Flag.isSet values "trace"⟩ entry.path
        return outcome.map (·.warned entry.warning)

def needsFile (command : String) : Outcome :=
  .stopped ("usage: minilang " ++ command ++ " <file.mini>\n")

def tokenLine (t : Token) : String :=
  t.position.text ++ " " ++ t.kind.text ++ " " ++ t.lexeme ++ "\n"

def tokens (files : Files m) : List String → m Outcome
  | [path] => do
    match ← files.contents path with
    | .error cause =>
      return .stopped ("failed to read " ++ path ++ ": " ++ (Files.readFailure path cause).message ++ "\n")
    | .ok bytes =>
      match Token.scan bytes with
      | .error e => return .stopped ((Failure.inProgram path (.lex e)).describe ++ "\n")
      | .ok tokens => return { code := 0, stdout := String.join (tokens.map tokenLine) }
  | _ => return needsFile "tokens"

def tree (files : Files m) : List String → m Outcome
  | [path] => do
    match ← loadProgram files path with
    | .error failure => return .stopped (failure.describe ++ "\n")
    | .ok program => return { code := 0, stdout := dump program.statements }
  | _ => return needsFile "ast"

def caseLine (verbose : Bool) (suite : String) (r : CaseResult) : String :=
  if !r.passed then "FAIL " ++ suite ++ "/" ++ r.name ++ ": " ++ r.detail ++ "\n"
  else if verbose then "PASS " ++ suite ++ "/" ++ r.name ++ "\n"
  else ""

def summaryLine (r : Report) : String :=
  let count := decimal r.results.length
  if 0 < r.failed then
    "FAIL " ++ r.suite ++ " (" ++ decimal r.failed ++ " of " ++ count ++ " cases failed)\n"
  else "ok   " ++ r.suite ++ " (" ++ count ++ " cases)\n"

def reportText (verbose : Bool) (r : Report) : String :=
  String.join (r.results.map (caseLine verbose r.suite)) ++ summaryLine r

def Outcome.followedBy (first second : Outcome) : Outcome :=
  ⟨max first.code second.code, first.stdout ++ second.stdout, first.stderr ++ second.stderr⟩

def testSuite (files : Files m) (bound : Nat) (verbose : Bool) (mode : UndefinedMode) (path : String) :
    m (Option Outcome) := do
  match ← Suite.load files path with
  | .error failure => return some (.stopped (failure.message ++ "\n"))
  | .ok suite =>
    return (suite.run bound mode).map fun report =>
      { code := if 0 < report.failed then 1 else 0, stdout := reportText verbose report }

def testSuites (files : Files m) (bound : Nat) (verbose : Bool) (mode : UndefinedMode) :
    List String → m (Option Outcome)
  | [] => return some { code := 0 }
  | path :: rest => do
    match ← testSuite files bound verbose mode path with
    | none => return none
    | some first => return (← testSuites files bound verbose mode rest).map first.followedBy

-- Suites that are named need no project, but a bad project file stops the command all the same.
def suites (files : Files m) (paths : List String) :
    m (Except String (List String × UndefinedMode)) := do
  match ← Manifest.loadNearest files "." with
  | .error failure =>
    if paths.isEmpty || !failure.isManifestNotFound then
      return .error ("failed to load manifest: " ++ failure.message ++ "\n")
    else return .ok (paths, Manifest.mode none)
  | .ok manifest =>
    if !paths.isEmpty then return .ok (paths, Manifest.mode (some manifest))
    else
      match ← Manifest.fixturePaths files (some manifest) with
      | .error failure => return .error ("manifest error: " ++ failure.message ++ "\n")
      | .ok [] =>
        return .error ("no fixture suites found (set fixtures in " ++ manifest.path ++
          " or pass suite files)\n")
      | .ok found => return .ok (found, Manifest.mode (some manifest))

def test (files : Files m) (bound : Nat) (arguments : List String) : m (Option Outcome) := do
  match Flag.parseAll testFlags arguments with
  | .error e => return some (.stopped (e.message ++ testUsage))
  | .ok (values, paths) =>
    match ← suites files paths with
    | .error message => return some (.stopped message)
    | .ok (paths, mode) => testSuites files bound (Flag.isSet values "v") mode paths

def perform (files : Files m) (bound : Nat) (arguments : List String) : m (Option Outcome) := do
  match arguments with
  | [] => return some (.stopped usage)
  | command :: rest =>
    if ["--help", "-h", "help"].contains command then return some { code := 0, stderr := usage }
    else if ["--version", "-V", "version"].contains command then
      return some { code := 0, stdout := version ++ "\n" }
    else if command = "run" then run files bound rest
    else if command = "tokens" then return some (← tokens files rest)
    else if command = "ast" then return some (← tree files rest)
    else if command = "test" then test files bound rest
    else if looksLikePath command then run files bound (command :: rest)
    else return some (.stopped ("unknown command " ++ Text.quoted command ++ "\n" ++ usage))

end Minilang.CommandLine
