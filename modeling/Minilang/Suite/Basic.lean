import Minilang.Failure.Diagnostic
import Minilang.Files.Access
import Minilang.Yaml.Decode

namespace Minilang

-- A line or column of zero is not checked, and neither is an empty text.
structure ExpectedError where
  kind : Stage := .unknown
  line : Int := 0
  column : Int := 0
  contains : String := ""
deriving DecidableEq, Repr

structure Case where
  name : String := ""
  source : String := ""
  undefined : String := ""
  stdout : Option (List String) := none
  error : Option ExpectedError := none
deriving DecidableEq, Repr

structure Suite where
  path : String := ""
  name : String := ""
  cases : List Case := []
deriving DecidableEq, Repr

namespace Case

def nameIssues (label : String) (c : Case) (earlier : List String) : List String :=
  if c.name = "" then [label ++ ": name must be provided"]
  else if earlier.contains c.name then [label ++ ": duplicate name " ++ Text.quoted c.name]
  else []

def undefinedIssues (label : String) (c : Case) : List String :=
  if c.undefined = "" || (UndefinedMode.ofLabel? c.undefined).isSome then []
  else
    [label ++ ": undefined must be " ++ Text.quoted UndefinedMode.strict.label ++ " or " ++
      Text.quoted UndefinedMode.zero.label]

def errorIssues (label : String) (c : Case) : List String :=
  match c.error with
  | none => []
  | some e =>
    (if [Stage.lex, .parse, .runtime].contains e.kind then []
      else
        [label ++ ": error kind must be lex, parse or runtime, got " ++ Text.quoted e.kind.label]) ++
      (if e.line < 0 || e.column < 0 then [label ++ ": error position must not be negative"] else [])

end Case

namespace Suite

def caseIssues : Nat → List String → List Case → List String
  | _, _, [] => []
  | index, earlier, c :: rest =>
    let label := "cases[" ++ decimal index ++ "]"
    c.nameIssues label earlier ++ c.undefinedIssues label ++ c.errorIssues label ++
      caseIssues (index + 1) (c.name :: earlier) rest

def issues (s : Suite) : List String :=
  (if s.cases.isEmpty then ["cases must not be empty"] else []) ++ caseIssues 0 [] s.cases

def checked (s : Suite) : Except Failure Suite :=
  if s.issues.isEmpty then .ok s else .error (.validation s.issues)

open Yaml.Decode in
def errorFields : List (RecordField ExpectedError) :=
  [field "kind" (·.kind.label) (fun e value => { e with kind := ⟨value⟩ }) (stringOf "driver.Stage"),
    field "line" (·.line) (fun e value => { e with line := value }) int,
    field "column" (·.column) (fun e value => { e with column := value }) int,
    field "contains" (·.contains) (fun e value => { e with contains := value }) string]

open Yaml.Decode in
def caseFields : List (RecordField Case) :=
  [field "name" (·.name) (fun c value => { c with name := value }) string,
    field "source" (·.source) (fun c value => { c with source := value }) string,
    field "undefined" (·.undefined) (fun c value => { c with undefined := value }) string,
    field "stdout" (·.stdout) (fun c value => { c with stdout := value })
      (list "[]string" "" string),
    field "error" (·.error) (fun c value => { c with error := value })
      (optional "fixtures.ExpectedError" {} errorFields)]

open Yaml.Decode in
def fields : List (RecordField Suite) :=
  [field "name" (·.name) (fun s value => { s with name := value }) string,
    field "cases" (fun s => some s.cases) (fun s value => { s with cases := value.getD [] })
      (list "[]fixtures.Case" {} (record "fixtures.Case" caseFields))]

def ofBytes (bytes : List UInt8) : Except Failure Suite :=
  match Yaml.decode {} (Yaml.Decode.record "fixtures.Suite" fields) bytes with
  | .error e => .error (.context "parse suite" (.plain e.message))
  | .ok none => .error (.plain "suite is empty")
  | .ok (some suite) => suite.checked

def placed (path : String) (s : Suite) : Suite :=
  { s with
    path := path
    name := if s.name = "" then Path.dropEnding (Path.lastName path) (Path.extension path) else s.name }

def load {m : Type → Type} [Monad m] (files : Files m) (path : String) : m (Except Failure Suite) := do
  match ← files.contents path with
  | .ok bytes =>
    match ofBytes bytes with
    | .ok suite => return .ok (suite.placed path)
    | .error failure => return .error (.context ("fixtures: " ++ path) failure)
  | .error .isDirectory =>
    return .error (.context ("fixtures: " ++ path)
      (.context "parse suite" (.plain Yaml.DecodeError.malformed.message)))
  | .error cause =>
    return .error (.context ("fixtures: open " ++ path) (.system "open" path cause))

end Suite

end Minilang
