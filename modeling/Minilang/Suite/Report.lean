import Minilang.Run.Program
import Minilang.Suite.Basic
import Minilang.Text.Lines
import Minilang.Text.Part

namespace Minilang

structure CaseResult where
  name : String
  passed : Bool
  detail : String
deriving DecidableEq, Repr

namespace CaseResult

def fail (r : CaseResult) (detail : String) : CaseResult :=
  { r with passed := false, detail := detail }

end CaseResult

structure Report where
  suite : String
  results : List CaseResult
deriving DecidableEq, Repr

namespace Report

def failed (r : Report) : Nat := r.results.countP (!·.passed)

def passed (r : Report) : Nat := r.results.length - r.failed

end Report

namespace ExpectedError

def diagnosticDetail (e : ExpectedError) (d : Diagnostic) : String :=
  if e.line ≠ 0 ∧ d.line ≠ e.line then
    "expected error on line " ++ decimal e.line ++ ", got " ++ decimal d.line
  else if e.column ≠ 0 ∧ d.column ≠ e.column then
    "expected error at column " ++ decimal e.column ++ ", got " ++ decimal d.column
  else if e.contains ≠ "" ∧ ¬ Text.holds d.message e.contains then
    "expected error containing " ++ Text.quoted e.contains ++ ", got " ++ Text.quoted d.message
  else ""

def otherStage (e : ExpectedError) (failure : Failure) : String :=
  "expected " ++ e.kind.label ++ " error, got: " ++ failure.describe

def detail (e : ExpectedError) : Option Failure → String
  | none => "expected " ++ e.kind.label ++ " error, run succeeded"
  | some failure =>
    match failure.diagnose with
    | none => e.otherStage failure
    | some d => if d.stage = e.kind then e.diagnosticDetail d else e.otherStage failure

end ExpectedError

namespace Case

def lineDetail : Nat → List String → List String → String
  | number, expected :: moreExpected, got :: moreGot =>
    if got = expected then lineDetail (number + 1) moreExpected moreGot
    else
      "output line " ++ decimal number ++ ": expected " ++ Text.quoted expected ++ ", got " ++
        Text.quoted got
  | _, _, _ => ""

def outputDetail (expected got : List String) : String :=
  if got.length ≠ expected.length then
    "expected " ++ decimal expected.length ++ " output lines " ++ Text.quotedList expected ++
      ", got " ++ decimal got.length ++ " " ++ Text.quotedList got
  else lineDetail 1 expected got

def errorDetail (c : Case) (failure : Option Failure) : String :=
  match c.error, failure with
  | some e, failure => e.detail failure
  | none, some failure => "unexpected error: " ++ failure.describe
  | none, none => ""

-- The output counts unless a failure is expected and no lines are given.
def judge (c : Case) (ending : Ending) : CaseResult :=
  let result : CaseResult := ⟨c.name, true, ""⟩
  let errorDetail := c.errorDetail ending.failure
  if errorDetail ≠ "" then result.fail errorDetail
  else if c.error.isNone || c.stdout.isSome then
    let outputDetail := outputDetail (c.stdout.getD []) (Text.lines ending.output)
    if outputDetail ≠ "" then result.fail outputDetail else result
  else result

def mode (c : Case) (given : UndefinedMode) : UndefinedMode :=
  if c.undefined = "" then given else if c.undefined = "zero" then .zero else .strict

def path (suite : String) (c : Case) : String :=
  if suite = "" then c.name else suite ++ "/" ++ c.name

def run (bound : Nat) (suite : String) (given : UndefinedMode) (c : Case) : Option CaseResult :=
  (runSource { undefined := c.mode given } bound none (c.path suite) (Text.bytesOf c.source)).map
    c.judge

end Case

namespace Suite

def run (bound : Nat) (given : UndefinedMode) (s : Suite) : Option Report :=
  (s.cases.mapM (Case.run bound s.name given)).map fun results => ⟨s.name, results⟩

end Suite

end Minilang
