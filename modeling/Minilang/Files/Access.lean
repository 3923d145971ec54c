import Minilang.Failure.Basic
import Minilang.Files.Path
import Minilang.Files.Pattern

namespace Minilang

inductive FileKind where
  | directory
  | regular
deriving DecidableEq, Repr

-- Nothing else touches files, so real ones and a tree in memory serve alike.
structure Files (m : Type → Type) where
  workingDirectory : String
  kind : String → m (Except SystemError FileKind)
  contents : String → m (Except SystemError (List UInt8))
  -- In any order; none if the directory cannot be listed.
  names : String → m (List String)

namespace Files

def readFailure (path : String) (cause : SystemError) : Failure :=
  .system (if cause = .isDirectory then "read" else "open") path cause

def insertPath (path : String) : List String → List String
  | [] => [path]
  | first :: rest =>
    if path < first then path :: first :: rest
    else if path = first then first :: rest
    else first :: insertPath path rest

def sortedSet (paths : List String) : List String := paths.foldr insertPath []

variable {m : Type → Type} [Monad m]

def matching (directory pattern : String) : List String → Option (List String)
  | [] => some []
  | name :: rest =>
    match Pattern.matches? pattern name with
    | none => none
    | some found =>
      (matching directory pattern rest).map fun more =>
        if found then Path.join directory name :: more else more

def matchingIn (files : Files m) (directory pattern : String) : m (Option (List String)) := do
  match ← files.kind directory with
  | .ok .directory => return matching directory pattern (sortedSet (← files.names directory))
  | _ => return some []

def matchingInAll (files : Files m) (pattern : String) : List String → m (Option (List String))
  | [] => return some []
  | directory :: rest => do
    match ← matchingIn files directory pattern with
    | none => return none
    | some found => return (← matchingInAll files pattern rest).map (found ++ ·)

def patternDirectory (path : String) : String :=
  if path = "" then "."
  else if path = "/" then path
  else String.ofList path.toList.dropLast

-- Each round takes the last piece off the pattern, so the bound counts characters.
def expandWithin (files : Files m) : Nat → String → m (Option (List String))
  | 0, _ => return none
  | n + 1, pattern => do
    let directory := patternDirectory (Path.split pattern).1
    let name := (Path.split pattern).2
    if (Pattern.matches? pattern "").isNone then return none
    else if !Pattern.isGeneral pattern then
      match ← files.kind pattern with
      | .ok _ => return some [pattern]
      | .error _ => return some []
    else if !Pattern.isGeneral directory then matchingIn files directory name
    else
      match ← expandWithin files n directory with
      | none => return none
      | some directories => matchingInAll files name directories

def expand (files : Files m) (pattern : String) : m (Option (List String)) :=
  expandWithin files pattern.length.succ pattern

end Files

end Minilang
