import Minilang.Failure.Basic
import Minilang.Files.Path
import Minilang.Files.Pattern
import Minilang.Text.Blank
import Minilang.Text.LowerCase

namespace Minilang

def manifestName : String := "minilang.yml"

structure ManifestFields where
  name : String := ""
  main : String := ""
  undefined : String := ""
  fixtures : List String := []
deriving DecidableEq, Repr

structure Manifest where
  path : String
  name : String
  main : String
  undefined : String
  fixtures : List String
  listed : Bool := !fixtures.isEmpty
deriving DecidableEq, Repr

namespace Manifest

-- A list is there if anything was listed, blank or not.
def ofFields (path : String) (raw : ManifestFields) : Manifest where
  path := path
  name := Text.trim raw.name
  main := Text.trim raw.main
  undefined := Text.lower (Text.trim raw.undefined)
  fixtures := (raw.fixtures.map Text.trim).filter (· ≠ "")
  listed := !raw.fixtures.isEmpty

def nameIssues (m : Manifest) : List String :=
  if m.name = "" then ["name must be provided"] else []

def undefinedIssues (m : Manifest) : List String :=
  if m.undefined = "" || (UndefinedMode.ofLabel? m.undefined).isSome then []
  else
    ["undefined must be " ++ Text.quoted UndefinedMode.strict.label ++ " or " ++
      Text.quoted UndefinedMode.zero.label ++ ", got " ++ Text.quoted m.undefined]

def patternIssue (index : Nat) (pattern : String) : Option String :=
  if (Pattern.matches? pattern "").isSome then none
  else some ("fixtures[" ++ decimal index ++ "]: invalid pattern " ++ Text.quoted pattern)

def issues (m : Manifest) : List String :=
  m.nameIssues ++ m.undefinedIssues ++
    m.fixtures.zipIdx.filterMap fun (pattern, index) => patternIssue index pattern

def checked (m : Manifest) : Except Failure Manifest :=
  if m.issues.isEmpty then .ok m else .error (.validation m.issues)

def directory (m : Manifest) : String := Path.parent m.path

def resolve (m : Manifest) (path : String) : String :=
  if Path.isAbsolute path then path else Path.join m.directory path

-- What a program needs of its project can be asked where there is none.
def mainPath : Option Manifest → Except Failure String
  | none => .error .noMain
  | some m => if m.main = "" then .error .noMain else .ok (m.resolve m.main)

def mode : Option Manifest → UndefinedMode
  | none => .strict
  | some m => if m.undefined = "zero" then .zero else .strict

end Manifest

end Minilang
