namespace Minilang.Path

-- These functions are about the text of a path alone; none looks at files.

def isAbsolute (path : String) : Bool := path.toList.head? == some '/'

def pieces : List Char → List (List Char)
  | [] => [[]]
  | c :: rest =>
    if c == '/' then [] :: pieces rest
    else
      match pieces rest with
      | piece :: more => (c :: piece) :: more
      | [] => [[c]]

def dot : List Char := ['.']

def dotDot : List Char := ['.', '.']

def keepPiece (rooted : Bool) (kept : List (List Char)) (piece : List Char) : List (List Char) :=
  if piece.isEmpty || piece == dot then kept
  else if piece == dotDot then
    match kept with
    | last :: before => if last == dotDot then dotDot :: kept else before
    | [] => if rooted then [] else [dotDot]
  else piece :: kept

def slash (parts : List (List Char)) : List Char := List.intercalate ['/'] parts

def clean (path : String) : String :=
  let rooted := isAbsolute path
  let kept := (pieces path.toList).foldl (keepPiece rooted) []
  let text := slash kept.reverse
  if rooted then String.ofList ('/' :: text)
  else if text.isEmpty then "."
  else String.ofList text

def join (base path : String) : String :=
  if base = "" then (if path = "" then "" else clean path) else clean (base ++ "/" ++ path)

def split (path : String) : String × String :=
  let chars := path.toList
  let name := (chars.reverse.takeWhile (· != '/')).reverse
  (String.ofList (chars.take (chars.length - name.length)), String.ofList name)

def parent (path : String) : String := clean (split path).1

def lastName (path : String) : String :=
  if path = "" then "."
  else
    let chars := (path.toList.reverse.dropWhile (· == '/')).reverse
    if chars.isEmpty then "/" else (split (String.ofList chars)).2

def extension (path : String) : String :=
  let name := (split path).2.toList.reverse
  if name.contains '.' then String.ofList ((name.takeWhile (· != '.')) ++ ['.']).reverse else ""

def absolute (workingDirectory path : String) : String :=
  if isAbsolute path then clean path else join workingDirectory path

-- A parent that differs from its directory is shorter, so the bound counts characters.
def ancestorsWithin : Nat → String → List String
  | 0, directory => [directory]
  | n + 1, directory =>
    let above := parent directory
    if above = directory then [directory] else directory :: ancestorsWithin n above

def ancestors (directory : String) : List String :=
  ancestorsWithin directory.length.succ directory

def dropEnding (text ending : String) : String :=
  let chars := text.toList
  let tail := ending.toList
  if chars.drop (chars.length - tail.length) == tail then
    String.ofList (chars.take (chars.length - tail.length))
  else text

end Minilang.Path
