import Minilang.Yaml.ScalarText

namespace Minilang.Yaml

-- Block collections are opened and closed by tokens of their own, made from the indentation.
inductive Sign where
  | streamEnd
  | version (major minor : Nat)
  | tagHandle (handle expansion : String)
  | documentStart
  | documentEnd
  | blockSequenceStart
  | blockMappingStart
  | blockEnd
  | flowSequenceStart
  | flowSequenceEnd
  | flowMappingStart
  | flowMappingEnd
  | blockEntry
  | flowEntry
  | key
  | value
  | reference (name : String)
  | anchor (name : String)
  | tag (handle suffix : String)
  | scalar (text : String) (plain : Bool)
deriving DecidableEq, Repr

structure Token where
  line : Nat
  sign : Sign
deriving DecidableEq, Repr

structure PendingKey where
  required : Bool
  number : Nat
  index : Nat
  line : Nat
  column : Nat

structure Scanner where
  reader : Reader
  indent : Int
  outer : List Int
  flowLevel : Nat
  pending : Option PendingKey
  outerPending : List (Option PendingKey)
  keyAllowed : Bool
  tokens : Array Token

namespace Scanner

def start (chars : List Char) : Scanner := ⟨.start chars, -1, [], 0, none, [], true, #[]⟩

def inFlow (s : Scanner) : Bool := s.flowLevel != 0

def push (s : Scanner) (line : Nat) (sign : Sign) : Scanner :=
  { s with tokens := s.tokens.push ⟨line, sign⟩ }

def insertAt (s : Scanner) (number line : Nat) (sign : Sign) : Scanner :=
  { s with tokens := s.tokens.take number ++ #[⟨line, sign⟩] ++ s.tokens.drop number }

def dropKey (s : Scanner) : Option Scanner :=
  match s.pending with
  | some key => if key.required then none else some { s with pending := none }
  | none => some s

def saveKey (s : Scanner) : Option Scanner :=
  if s.keyAllowed then
    s.dropKey.map fun s =>
      { s with pending := some ⟨!s.inFlow && s.indent == s.reader.column, s.tokens.size,
          s.reader.index, s.reader.line, s.reader.column⟩ }
  else some s

-- A key stays on its line and within 1024 characters; a required one that does not fails.
def liveKey (s : Scanner) : Option (Option PendingKey) :=
  match s.pending with
  | none => some none
  | some key =>
    if key.line < s.reader.line || key.index + 1024 < s.reader.index then
      if key.required then none else some none
    else some (some key)

def openBlock (s : Scanner) (column : Nat) (number : Option Nat) (line : Nat) (sign : Sign) :
    Scanner :=
  if !s.inFlow && s.indent < column then
    let s := { s with outer := s.indent :: s.outer, indent := column }
    match number with
    | some number => s.insertAt number line sign
    | none => s.push line sign
  else s

def closeFrom (column : Int) : List Int → Scanner → Scanner
  | [], s => s
  | parent :: outer, s =>
    if column < s.indent then
      closeFrom column outer
        { s.push s.reader.line .blockEnd with indent := parent, outer := outer }
    else s

def closeBlocks (s : Scanner) (column : Int) : Scanner :=
  if s.inFlow then s else closeFrom column s.outer s

def blankLinesToComment : Nat → List Char → Option Nat
  | 0, _ => none
  | n + 1, c :: rest =>
    if c == '#' then some 0
    else if isBlank c || c == '\n' || c == '\r' then (blankLinesToComment n rest).map (· + 1)
    else none
  | _, [] => none

def skipAny (r : Reader) : Reader := if r.next.any isBreak then r.skipBreak else r.skip

def skipAnyUntil (index : Nat) : Nat → Reader → Reader
  | 0, r => r
  | n + 1, r => if r.index < index then skipAnyUntil index n (skipAny r) else r

def skipComments : Nat → Reader → Reader
  | 0, r => r
  | n + 1, r =>
    let r := r.skipWhile (fun c => !isBreak c)
    match blankLinesToComment 512 r.rest with
    | some gap => skipComments n (skipAnyUntil (r.index + gap) gap r)
    | none => r

-- A tab is no indentation, so where a key may start it is not skipped.
def toNextToken : Nat → Scanner → Scanner
  | 0, s => s
  | n + 1, s =>
    let r := s.reader
    let r := if r.column == 0 && r.next.any (·.toNat == 0xfeff) then r.skip else r
    let tabs := s.inFlow || !s.keyAllowed
    let r := r.skipWhile (fun c => c == ' ' || (tabs && c == '\t'))
    let r := if r.nextIs '#' then skipComments r.rest.length r else r
    if r.next.any isBreak then
      toNextToken n { s with reader := r.skipBreak, keyAllowed := s.keyAllowed || !s.inFlow }
    else { s with reader := r }

def lineComment (s : Scanner) : Scanner :=
  let r := s.reader
  let blanks := r.rest.takeWhile isBlank
  if r.newlines == 0 && blanks.length < 512 && r.peek blanks.length == some '#' then
    { s with reader := (r.skipMany blanks.length).skipWhile (fun c => !isBreak c) }
  else s

def takeSign (s : Scanner) (sign : Sign) : Scanner :=
  { s.push s.reader.line sign with reader := s.reader.skip }

def streamEnd (s : Scanner) : Option Scanner :=
  ((s.closeBlocks (-1)).dropKey).map fun s =>
    { s with keyAllowed := false }.push s.reader.line .streamEnd

def documentMarker (s : Scanner) (sign : Sign) : Option Scanner :=
  ((s.closeBlocks (-1)).dropKey).map fun s =>
    { s.push s.reader.line sign with reader := s.reader.skipMany 3, keyAllowed := false }

def flowStart (s : Scanner) (sign : Sign) : Option Scanner :=
  if 10000 ≤ s.flowLevel then none
  else s.saveKey.map fun s =>
    { s.takeSign sign with
      flowLevel := s.flowLevel + 1, outerPending := s.pending :: s.outerPending, pending := none,
      keyAllowed := true }

def flowEnd (s : Scanner) (sign : Sign) : Option Scanner :=
  s.dropKey.map fun s =>
    let s := match s.outerPending with
      | pending :: outer =>
        { s with flowLevel := s.flowLevel - 1, pending := pending, outerPending := outer }
      | [] => s
    { s.takeSign sign with keyAllowed := false }

def flowEntry (s : Scanner) : Option Scanner :=
  s.dropKey.map fun s => { s.takeSign .flowEntry with keyAllowed := true }

def blockEntry (s : Scanner) : Option Scanner :=
  if !s.inFlow && !s.keyAllowed then none
  else
    (s.openBlock s.reader.column none s.reader.line .blockSequenceStart).dropKey.map fun s =>
      { s.takeSign .blockEntry with keyAllowed := true }

def keyMark (s : Scanner) : Option Scanner :=
  if !s.inFlow && !s.keyAllowed then none
  else
    (s.openBlock s.reader.column none s.reader.line .blockMappingStart).dropKey.map fun s =>
      { s.takeSign .key with keyAllowed := !s.inFlow }

-- The sign of a key is put before the token where the key starts.
def valueMark (s : Scanner) : Option Scanner :=
  match s.liveKey with
  | none => none
  | some (some key) =>
    let s := s.insertAt key.number key.line .key
    let s := s.openBlock key.column (some key.number) key.line .blockMappingStart
    some { s.takeSign .value with pending := none, keyAllowed := false }
  | some none =>
    let s := { s with pending := none }
    if s.inFlow then some { s.takeSign .value with keyAllowed := false }
    else if s.keyAllowed then
      let s := s.openBlock s.reader.column none s.reader.line .blockMappingStart
      some { s.takeSign .value with keyAllowed := true }
    else none

def endsAnchor (c : Option Char) : Bool :=
  isBlankOrEnd c || c.any fun c =>
    c == '?' || c == ':' || c == ',' || c == ']' || c == '\x7d' || c == '%' || c == '@' || c == '\x60'

def anchorOrReference (s : Scanner) (sign : String → Sign) : Option Scanner :=
  match s.saveKey with
  | none => none
  | some s =>
    let (name, r) := s.reader.skip.takeWhile isNameChar
    if name.isEmpty || !endsAnchor r.next then none
    else
      some { s.push s.reader.line (sign (String.ofList name)) with reader := r, keyAllowed := false }

def isTagChar (c : Char) : Bool :=
  isNameChar c || ";/?:@&=+$,.!~*'()[]%".toList.contains c

def tagText : Nat → List UInt8 → Reader → Option (List UInt8 × Reader)
  | 0, text, r => some (text, r)
  | n + 1, text, r =>
    match r.rest with
    | [] => some (text, r)
    | c :: after =>
      if !isTagChar c then some (text, r)
      else if c == '%' then
        if after.length < 2 then none
        else
          match hexNumber? (after.take 2) with
          | none => none
          | some code => tagText n (text ++ [UInt8.ofNat code]) (r.skipMany 3)
      else tagText n (text ++ Text.bytesOf c.toString) r.skip

def tagSuffix (r : Reader) : Option (String × Reader) :=
  match tagText r.rest.length [] r with
  | none => none
  | some (bytes, r) => (Text.decode? bytes).map fun chars => (String.ofList chars, r)

def tagParts (r : Reader) : Option (String × String × Reader) :=
  if r.peek 1 == some '<' then
    match tagSuffix r.skip.skip with
    | some (suffix, after) =>
      if suffix != "" && after.nextIs '>' then some ("", suffix, after.skip) else none
    | none => none
  else
    let (name, afterName) := r.skip.takeWhile isNameChar
    if afterName.nextIs '!' then
      match tagSuffix afterName.skip with
      | some (suffix, after) =>
        if suffix != "" then some ("!" ++ String.ofList name ++ "!", suffix, after) else none
      | none => none
    else
      match tagSuffix afterName with
      | some (rest, after) =>
        let suffix := String.ofList name ++ rest
        if suffix == "" then some ("", "!", after) else some ("!", suffix, after)
      | none => none

def tag (s : Scanner) : Option Scanner :=
  match s.saveKey with
  | none => none
  | some s =>
    match tagParts s.reader with
    | none => none
    | some (handle, suffix, r) =>
      if isBlankOrEnd r.next then
        some { s.push s.reader.line (.tag handle suffix) with reader := r, keyAllowed := false }
      else none

def versionNumber (r : Reader) : Option (Nat × Reader) :=
  let (digits, r) := r.takeWhile (·.isDigit)
  if digits.isEmpty || 2 < digits.length then none
  else some (digits.foldl (fun n c => n * 10 + (c.toNat - 48)) 0, r)

def versionSign (r : Reader) : Option (Sign × Reader) :=
  match versionNumber (r.skipWhile isBlank) with
  | none => none
  | some (major, r) =>
    if r.nextIs '.' then
      (versionNumber r.skip).map fun (minor, r) => (.version major minor, r)
    else none

def tagHandleSign (r : Reader) : Option (Sign × Reader) :=
  let r := r.skipWhile isBlank
  if !r.nextIs '!' then none
  else
    let (name, r) := r.skip.takeWhile isNameChar
    let closed := r.nextIs '!'
    if !closed && !name.isEmpty then none
    else
      let handle := "!" ++ String.ofList name ++ (if closed then "!" else "")
      let r := if closed then r.skip else r
      if !r.next.any isBlank then none
      else
        match tagSuffix (r.skipWhile isBlank) with
        | none => none
        | some (expansion, r) =>
          if expansion != "" && isBlankOrEnd r.next then some (.tagHandle handle expansion, r)
          else none

def directive (s : Scanner) : Option Scanner :=
  match (s.closeBlocks (-1)).dropKey with
  | none => none
  | some s =>
    let (name, r) := s.reader.skip.takeWhile isNameChar
    let sign :=
      if !isBlankOrEnd r.next then none
      else if name == "YAML".toList then versionSign r
      else if name == "TAG".toList then tagHandleSign r
      else none
    match sign with
    | none => none
    | some (sign, r) =>
      (endOfLine r).map fun r =>
        { s.push s.reader.line sign with reader := r, keyAllowed := false }

def blockScalar (s : Scanner) (literal : Bool) : Option Scanner :=
  match s.dropKey with
  | none => none
  | some s =>
    (blockText literal s.indent s.reader.skip).map fun (text, r) =>
      { s.push s.reader.line (.scalar (String.ofList text) false) with
        reader := r, keyAllowed := true }

def quotedScalar (s : Scanner) (single : Bool) : Option Scanner :=
  match s.saveKey with
  | none => none
  | some s =>
    (quotedText single s.reader.rest.length [] s.reader.skip).map fun (text, r) =>
      { s.push s.reader.line (.scalar (String.ofList text) false) with
        reader := r, keyAllowed := false }

def plainScalar (s : Scanner) : Option Scanner :=
  match s.saveKey with
  | none => none
  | some s =>
    (plainText s.inFlow (s.indent + 1) s.reader.rest.length [] .empty s.reader).map
      fun (text, broken, r) =>
        { s.push s.reader.line (.scalar (String.ofList text) true) with
          reader := r, keyAllowed := broken }

def startsPlain (inFlow : Bool) (c : Char) (after : Option Char) : Bool :=
  if c == '-' then !after.any isBlank
  else if c == '?' || c == ':' then !inFlow && !isBlankOrEnd after
  else !(isBlank c || isBreak c || ",[]\x7b\x7d#&*!|>'\"%@\x60".toList.contains c)

def content (s : Scanner) (c : Char) : Option Scanner :=
  let after := s.reader.peek 1
  if c == '[' then s.flowStart .flowSequenceStart
  else if c == '\x7b' then s.flowStart .flowMappingStart
  else if c == ']' then s.flowEnd .flowSequenceEnd
  else if c == '\x7d' then s.flowEnd .flowMappingEnd
  else if c == ',' then s.flowEntry
  else if c == '-' && isBlankOrEnd after then s.blockEntry
  else if c == '?' && (s.inFlow || isBlankOrEnd after) then s.keyMark
  else if c == ':' && (s.inFlow || isBlankOrEnd after) then s.valueMark
  else if c == '*' then s.anchorOrReference .reference
  else if c == '&' then s.anchorOrReference .anchor
  else if c == '!' then s.tag
  else if c == '|' && !s.inFlow then s.blockScalar true
  else if c == '>' && !s.inFlow then s.blockScalar false
  else if c == '\'' then s.quotedScalar true
  else if c == '"' then s.quotedScalar false
  else if startsPlain s.inFlow c after then s.plainScalar
  else none

def step (s : Scanner) : Option (Bool × Scanner) :=
  let s := toNextToken s.reader.rest.length.succ s
  let s := s.closeBlocks s.reader.column
  match s.reader.next with
  | none => s.streamEnd.map (true, ·)
  | some c =>
    if s.reader.column == 0 && c == '%' then s.directive.map (false, ·)
    else if s.reader.atMarker '-' then (s.documentMarker .documentStart).map (false, ·)
    else if s.reader.atMarker '.' then (s.documentMarker .documentEnd).map (false, ·)
    else
      ((s.content c).filter (·.outer.length ≤ 10000)).map fun s =>
        (false, if s.tokens.back?.any (·.sign == .blockEntry) then s else s.lineComment)

def run : Nat → Scanner → Array Token × Bool
  | 0, s => (s.tokens, false)
  | n + 1, s =>
    match s.step with
    | none => (s.tokens, false)
    | some (true, s) => (s.tokens, true)
    | some (false, s) => run n s

end Scanner

def scan (chars : List Char) : Array Token × Bool :=
  (Scanner.start chars).run (chars.length + 1)

end Minilang.Yaml
