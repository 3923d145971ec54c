import Minilang.Token.Alphabet

namespace Minilang

structure Cursor where
  passed : List UInt8
  ahead : List UInt8
  row : Nat
  column : Nat
  rowEnds : List Nat
deriving DecidableEq, Repr

namespace Cursor

open Alphabet

def rowEndsFrom (column : Nat) : List UInt8 → List Nat
  | [] => []
  | b :: rest =>
    if b == newline then column :: rowEndsFrom 0 rest else rowEndsFrom (column + 1) rest

def start (source : List UInt8) : Cursor := ⟨[], source, 0, 0, rowEndsFrom 0 source⟩

def source (c : Cursor) : List UInt8 := c.passed.reverse ++ c.ahead

def offset (c : Cursor) : Nat := c.passed.length

def done (c : Cursor) : Bool := c.ahead.isEmpty

def current? (c : Cursor) : Option UInt8 := c.ahead.head?

def advance? (c : Cursor) : Option Cursor :=
  match c.ahead with
  | [] => none
  | b :: rest =>
    if b == newline then
      some { c with passed := b :: c.passed, ahead := rest, row := c.row + 1, column := 0 }
    else some { c with passed := b :: c.passed, ahead := rest, column := c.column + 1 }

-- Back over a newline the column is that of the row it closed, which only the table knows.
def retreat? (c : Cursor) : Option Cursor :=
  match c.passed with
  | [] => some c
  | b :: before =>
    let back := { c with passed := before, ahead := b :: c.ahead }
    if 0 < c.column then some { back with column := c.column - 1 }
    else if 0 < c.row then
      c.rowEnds[c.row - 1]?.map fun column => { back with row := c.row - 1, column := column }
    else some back

def advanceWhile (inClass : UInt8 → Bool) (c : Cursor) : Cursor :=
  (c.ahead.takeWhile inClass).foldl (fun here _ => here.advance?.getD here) c

-- An empty run reads nothing and steps back, except at the start, where the first byte is read.
def readWhile (inClass : UInt8 → Bool) (c : Cursor) : Option (List UInt8 × Cursor) :=
  (c.advanceWhile inClass).retreat?.bind fun last =>
    if last.offset < c.source.length then
      some ((c.source.take (last.offset + 1)).drop c.offset, last)
    else none

end Cursor

end Minilang
