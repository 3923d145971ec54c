import Minilang.Files.Access
import Minilang.Manifest.Decode

namespace Minilang.Manifest

variable {m : Type → Type} [Monad m]

def load (files : Files m) (path : String) : m (Except Failure Manifest) := do
  let place := Path.absolute files.workingDirectory path
  if path = "" then return .error (.plain "manifest: empty path")
  else
    match ← files.contents place with
    | .ok bytes => return ofBytes place bytes
    | .error .isDirectory =>
      return .error
        (.context ("manifest: parse " ++ place) (.plain Yaml.DecodeError.malformed.message))
    | .error cause =>
      return .error (.context ("manifest: open " ++ place) (.system "open" place cause))

-- A directory of that name is passed over; a place that cannot be looked at ends the search.
def findIn (files : Files m) : List String → m (Except Failure String)
  | [] => return .error .manifestNotFound
  | directory :: rest => do
    let place := Path.join directory manifestName
    match ← files.kind place with
    | .ok .regular => return .ok place
    | .ok .directory => findIn files rest
    | .error .notFound => findIn files rest
    | .error cause =>
      return .error (.context ("manifest: stat " ++ place) (.system "stat" place cause))

def searchStart (files : Files m) (start : String) : m String := do
  let place := Path.absolute files.workingDirectory start
  match ← files.kind place with
  | .ok .directory => return place
  | _ => return Path.parent place

def find (files : Files m) (start : String) : m (Except Failure String) := do
  findIn files (Path.ancestors (← searchStart files start))

def loadNearest (files : Files m) (start : String) : m (Except Failure Manifest) := do
  match ← find files start with
  | .error failure => return .error failure
  | .ok path => load files path

-- The paths found so far, in the order of their finding, beside those that were seen.
structure Findings where
  seen : List String
  paths : List String
  recorded : ∀ path, path ∈ seen ↔ path ∈ paths
  distinct : paths.Nodup

namespace Findings

def empty : Findings := ⟨[], [], fun _ => .rfl, .nil⟩

def add (found : Findings) (path : String) : Findings :=
  if known : path ∈ found.seen then found
  else
    { seen := path :: found.seen
      paths := found.paths ++ [path]
      recorded := by
        intro other
        rw [List.mem_cons, List.mem_append, List.mem_singleton, found.recorded]
        exact or_comm
      distinct := by
        rw [found.recorded] at known
        refine List.nodup_append.mpr ⟨found.distinct, List.pairwise_singleton _ _, ?_⟩
        rintro other old _ (_ | ⟨_, ⟨⟩⟩) rfl
        exact known old }

end Findings

def gather (files : Files m) (manifest : Manifest) :
    List String → Findings → m (Except Failure (List String))
  | [], found => return .ok found.paths
  | pattern :: rest, found => do
    match ← files.expand (manifest.resolve pattern) with
    | none =>
      return .error
        (.context ("manifest: fixtures " ++ Text.quoted pattern) (.plain "syntax error in pattern"))
    | some paths => gather files manifest rest (paths.foldl Findings.add found)

def inOrder (one two : String) : Bool := !decide (two < one)

def fixturePaths (files : Files m) : Option Manifest → m (Except Failure (List String))
  | none => return .ok []
  | some manifest => do
    return (← gather files manifest manifest.fixtures .empty).map fun paths =>
      paths.mergeSort inOrder

end Minilang.Manifest
