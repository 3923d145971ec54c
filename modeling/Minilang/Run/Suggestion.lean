import Minilang.Store

namespace Minilang

def fillRow (a : Char) : List Char → Nat → Nat → List Nat → List Nat
  | b :: bs, diagonal, left, up :: above =>
    let here := min (min (up + 1) (left + 1)) (diagonal + if a == b then 0 else 1)
    here :: fillRow a bs up here above
  | _, _, _, _ => []

def nextRow (word : List Char) (row : List Nat) (a : Char) : List Nat :=
  match row with
  | [] => []
  | corner :: above => (corner + 1) :: fillRow a word corner (corner + 1) above

def editDistance (a b : String) : Nat :=
  (a.toList.foldl (nextRow b.toList) (List.range (b.toList.length + 1))).getLastD 0

def editLimit (name : String) : Nat := max 1 (name.utf8ByteSize / 2)

-- A candidate replaces the best one so far only when it is strictly closer, so among the
-- closest the first in order stays.
def closer (name : String) (best : String × Nat) (candidate : String) : String × Nat :=
  if candidate = name then best
  else
    let distance := editDistance name candidate
    if distance < best.2 then (candidate, distance) else best

def suggestion (name : String) (s : Store) : String :=
  (s.names.foldl (closer name) ("", editLimit name + 1)).1

end Minilang
