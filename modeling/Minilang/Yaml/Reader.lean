import Minilang.Text.Utf8

namespace Minilang.Yaml

def isAllowed (c : Char) : Bool :=
  let code := c.toNat
  code == 0x09 || code == 0x0a || code == 0x0d || (0x20 ≤ code && code ≤ 0x7e) || code == 0x85 ||
    (0xa0 ≤ code && code ≤ 0xd7ff) || (0xe000 ≤ code && code ≤ 0xfffd) || 0x10000 ≤ code

def unit16 (bigEndian : Bool) (a b : UInt8) : Nat :=
  if bigEndian then a.toNat * 256 + b.toNat else b.toNat * 256 + a.toNat

def decode16 (bigEndian : Bool) : List UInt8 → Option (List Char)
  | [] => some []
  | [_] => none
  | a :: b :: rest =>
    let unit := unit16 bigEndian a b
    if 0xdc00 ≤ unit && unit ≤ 0xdfff then none
    else if 0xd800 ≤ unit && unit ≤ 0xdbff then
      match rest with
      | c :: d :: rest =>
        let low := unit16 bigEndian c d
        if 0xdc00 ≤ low && low ≤ 0xdfff then
          (decode16 bigEndian rest).map
            (Char.ofNat (0x10000 + (unit - 0xd800) * 0x400 + (low - 0xdc00)) :: ·)
        else none
      | _ => none
    else (decode16 bigEndian rest).map (Char.ofNat unit :: ·)

-- All of a file is checked, also what stands behind its first document.
def characters (bytes : List UInt8) : Option (List Char) :=
  let chars := match bytes with
    | 0xff :: 0xfe :: rest => decode16 false rest
    | 0xfe :: 0xff :: rest => decode16 true rest
    | 0xef :: 0xbb :: 0xbf :: rest => Text.decode? rest
    | _ => Text.decode? bytes
  chars.filter (·.all isAllowed)

def isBreak (c : Char) : Bool :=
  c == '\n' || c == '\r' || c.toNat == 0x85 || c.toNat == 0x2028 || c.toNat == 0x2029

def isBlank (c : Char) : Bool := c == ' ' || c == '\t'

def isNameChar (c : Char) : Bool := c.isAlphanum || c == '_' || c == '-'

def isBreakOrEnd (c : Option Char) : Bool := c.all isBreak

def isBlankOrEnd (c : Option Char) : Bool := c.all fun c => isBlank c || isBreak c

-- `newlines` counts the breaks since the last character that is neither blank nor a break.
structure Reader where
  rest : List Char
  index : Nat
  line : Nat
  column : Nat
  newlines : Nat

namespace Reader

def start (chars : List Char) : Reader := ⟨chars, 0, 0, 0, 0⟩

def peek (r : Reader) (ahead : Nat) : Option Char := r.rest[ahead]?

def next (r : Reader) : Option Char := r.rest.head?

def nextIs (r : Reader) (c : Char) : Bool := r.next == some c

def skip (r : Reader) : Reader :=
  match r.rest with
  | [] => r
  | c :: rest =>
    ⟨rest, r.index + 1, r.line, r.column + 1, if isBlank c then r.newlines else 0⟩

def skipMany (r : Reader) (count : Nat) : Reader := (List.range count).foldl (fun r _ => r.skip) r

def takeWhile (r : Reader) (inRun : Char → Bool) : List Char × Reader :=
  let run := r.rest.takeWhile inRun
  (run, r.skipMany run.length)

def skipWhile (r : Reader) (inRun : Char → Bool) : Reader := (r.takeWhile inRun).2

def takeBreak (r : Reader) : List Char × Reader :=
  match r.rest with
  | '\r' :: '\n' :: rest => (['\n'], ⟨rest, r.index + 2, r.line + 1, 0, r.newlines + 1⟩)
  | c :: rest =>
    if isBreak c then
      let text := if c.toNat == 0x2028 || c.toNat == 0x2029 then [c] else ['\n']
      (text, ⟨rest, r.index + 1, r.line + 1, 0, r.newlines + 1⟩)
    else ([], r)
  | [] => ([], r)

def skipBreak (r : Reader) : Reader := r.takeBreak.2

def atMarker (r : Reader) (mark : Char) : Bool :=
  r.column == 0 && r.rest.take 3 == [mark, mark, mark] && isBlankOrEnd (r.peek 3)

def atDocumentMarker (r : Reader) : Bool := r.atMarker '-' || r.atMarker '.'

end Reader

end Minilang.Yaml
