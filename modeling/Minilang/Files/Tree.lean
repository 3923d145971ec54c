import Minilang.Files.Access

namespace Minilang

inductive FileTree where
  | file (bytes : List UInt8)
  | directory (entries : List (String × FileTree))
deriving Inhabited

namespace FileTree

def kind : FileTree → FileKind
  | file _ => .regular
  | directory _ => .directory

def empty : FileTree := directory []

def entry? (name : String) : FileTree → Option FileTree
  | file _ => none
  | directory entries => entries.lookup name

def setEntry (tree : FileTree) (name : String) (inner : FileTree) : FileTree :=
  match tree with
  | file bytes => file bytes
  | directory entries =>
    if entries.any (·.1 == name) then
      directory (entries.map fun entry => if entry.1 == name then (name, inner) else entry)
    else directory (entries ++ [(name, inner)])

def put (tree : FileTree) (path : List String) (leaf : FileTree) : FileTree :=
  match path with
  | [] => leaf
  | name :: rest => tree.setEntry name (((tree.entry? name).getD empty).put rest leaf)

def makeDirectory (tree : FileTree) (path : List String) : FileTree :=
  match path with
  | [] => tree
  | name :: rest => tree.setEntry name (((tree.entry? name).getD empty).makeDirectory rest)

def longestName : Nat := 255

def longestPath : Nat := 4095

-- Every piece, an empty one too, needs a directory before it; above the root is the root.
def walk : List String → List FileTree → FileTree → Except SystemError FileTree
  | [], _, tree => .ok tree
  | piece :: rest, above, tree =>
    if tree.kind ≠ .directory then .error .notDirectory
    else if piece == "" || piece == "." then walk rest above tree
    else if piece == ".." then
      match above with
      | [] => walk rest [] tree
      | nearest :: further => walk rest further nearest
    else if longestName < piece.utf8ByteSize then .error .nameTooLong
    else
      match tree.entry? piece with
      | none => .error .notFound
      | some inner => walk rest (tree :: above) inner

def at? (root : FileTree) (workingDirectory path : String) : Except SystemError FileTree :=
  if path.toList.contains (Char.ofNat 0) then .error .invalidArgument
  else if path = "" then .error .notFound
  else if longestPath < path.utf8ByteSize then .error .nameTooLong
  else
    let pieces (text : String) : List String := (Path.pieces text.toList).map String.ofList
    if Path.isAbsolute path then walk (pieces path) [] root
    else walk (pieces workingDirectory ++ pieces path) [] root

def namesOf : FileTree → List String
  | file _ => []
  | directory entries => entries.map (·.1)

def files (root : FileTree) (workingDirectory : String) : Files Id where
  workingDirectory := workingDirectory
  kind path := (root.at? workingDirectory path).map kind
  contents path :=
    match root.at? workingDirectory path with
    | .error cause => .error cause
    | .ok (file bytes) => .ok bytes
    | .ok (directory _) => .error .isDirectory
  names path :=
    match root.at? workingDirectory path with
    | .ok tree => tree.namesOf
    | .error _ => []

end FileTree

end Minilang
