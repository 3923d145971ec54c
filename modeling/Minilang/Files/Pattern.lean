import Minilang.Text.Utf8

namespace Minilang.Pattern

-- Patterns and names are compared as bytes of UTF-8. No star or question mark stands for a slash.

abbrev Bytes := List UInt8

def byte (c : Char) : UInt8 := UInt8.ofNat c.toNat

def chunkEnd : Bool → Bytes → Bytes × Bytes
  | _, [] => ([], [])
  | inBrackets, b :: rest =>
    if b == byte '\\' then
      match rest with
      | [] => ([b], [])
      | c :: rest =>
        let (chunk, after) := chunkEnd inBrackets rest
        (b :: c :: chunk, after)
    else if b == byte '*' && !inBrackets then ([], b :: rest)
    else
      let inBrackets := if b == byte '[' then true else if b == byte ']' then false else inBrackets
      let (chunk, after) := chunkEnd inBrackets rest
      (b :: chunk, after)

def firstChunk (pattern : Bytes) : Bool × Bytes × Bytes :=
  let (chunk, rest) := chunkEnd false (pattern.dropWhile (· == byte '*'))
  (pattern.head? == some (byte '*'), chunk, rest)

def rangeEnd (chunk : Bytes) : Option (Nat × Bytes) :=
  match chunk with
  | [] => none
  | b :: rest =>
    if b == byte '-' || b == byte ']' then none
    else
      let chunk := if b == byte '\\' then rest else b :: rest
      let (code, width) := Text.decodeFirst chunk
      let rest := chunk.drop width
      if rest.isEmpty || (code == Text.replacement && width ≤ 1) then none else some (code, rest)

def ranges (code : Nat) : Nat → Bool → Bool → Bytes → Option (Bool × Bytes)
  | 0, _, _, _ => none
  | n + 1, first, found, chunk =>
    if !first && chunk.head? == some (byte ']') then some (found, chunk.tail)
    else
      match rangeEnd chunk with
      | none => none
      | some (low, rest) =>
        let high := if rest.head? == some (byte '-') then rangeEnd rest.tail else some (low, rest)
        match high with
        | none => none
        | some (high, rest) => ranges code n false (found || (low ≤ code && code ≤ high)) rest

inductive Match where
  | fails
  | leaves (rest : Bytes)
deriving DecidableEq, Repr

-- After a mismatch the chunk is still read to its end, since a malformed one is a fault even so.
def matchChunk : Nat → Bytes → Match → Option Match
  | 0, _, state => some state
  | _ + 1, [], state => some state
  | n + 1, b :: chunk, state =>
    let state := if state == .leaves [] then .fails else state
    if b == byte '[' then
      let (negated, chunk) := match chunk with
        | c :: rest => if c == byte '^' then (true, rest) else (false, chunk)
        | [] => (false, chunk)
      let (code, width) := match state with
        | .leaves name => Text.decodeFirst name
        | .fails => (0, 0)
      match ranges code chunk.length.succ true false chunk with
      | none => none
      | some (found, chunk) =>
        matchChunk n chunk (match state with
          | .leaves name => if found == negated then .fails else .leaves (name.drop width)
          | .fails => .fails)
    else if b == byte '?' then
      matchChunk n chunk (match state with
        | .leaves name =>
          if name.head? == some (byte '/') then .fails
          else .leaves (name.drop (Text.decodeFirst name).2)
        | .fails => .fails)
    else
      let literal := if b == byte '\\' then chunk.head? else some b
      let chunk := if b == byte '\\' then chunk.tail else chunk
      match literal with
      | none => none
      | some literal =>
        matchChunk n chunk (match state with
          | .leaves name => if name.head? == some literal then .leaves name.tail else .fails
          | .fails => .fails)

def chunkMatch (chunk name : Bytes) : Option Match :=
  matchChunk chunk.length chunk (.leaves name)

def afterStar (chunk : Bytes) (last : Bool) : Bytes → Option Match
  | [] => some .fails
  | b :: name =>
    if b == byte '/' then some .fails
    else
      match chunkMatch chunk name with
      | none => none
      | some (.leaves rest) =>
        if last && !rest.isEmpty then afterStar chunk last name else some (.leaves rest)
      | some .fails => afterStar chunk last name

-- The bound counts bytes of the pattern: each round takes a chunk or stars.
def matchFrom : Nat → Bytes → Bytes → Option Bool
  | 0, _, name => some name.isEmpty
  | n + 1, pattern, name =>
    if pattern.isEmpty then some name.isEmpty
    else
      let (star, chunk, rest) := firstChunk pattern
      if star && chunk.isEmpty then some (!name.contains (byte '/'))
      else
        match chunkMatch chunk name with
        | none => none
        | some here =>
          let taken := match here with
            | .leaves left => left.isEmpty || !rest.isEmpty
            | .fails => false
          if taken then
            match here with
            | .leaves left => matchFrom n rest left
            | .fails => some false
          else if star then
            match afterStar chunk rest.isEmpty name with
            | none => none
            | some (.leaves left) => matchFrom n rest left
            | some .fails => some false
          else some false

def matches? (pattern name : String) : Option Bool :=
  let bytes := Text.bytesOf pattern
  matchFrom bytes.length.succ bytes (Text.bytesOf name)

def isGeneral (pattern : String) : Bool :=
  pattern.toList.any fun c => c == '*' || c == '?' || c == '[' || c == '\\'

end Minilang.Pattern
