import Minilang.Yaml.Reader

namespace Minilang.Yaml

-- The bounds of the loops below count characters: each round takes at least one.

structure Gap where
  blanks : List Char
  firstBreak : List Char
  laterBreaks : List Char
  broken : Bool

namespace Gap

def empty : Gap := ⟨[], [], [], false⟩

-- A single line break is folded into a space, and of several the first is dropped.
def text (g : Gap) : List Char :=
  if g.broken then
    if g.firstBreak == ['\n'] then
      if g.laterBreaks.isEmpty then [' '] else g.laterBreaks
    else g.firstBreak ++ g.laterBreaks
  else g.blanks

def read (margin : Int) : Nat → Gap → Reader → Option (Gap × Reader)
  | 0, g, r => some (g, r)
  | n + 1, g, r =>
    match r.next with
    | none => some (g, r)
    | some c =>
      if isBlank c then
        if g.broken then
          if c == '\t' && (r.column : Int) < margin then none else read margin n g r.skip
        else read margin n { g with blanks := g.blanks ++ [c] } r.skip
      else if isBreak c then
        let (lineBreak, r) := r.takeBreak
        if g.broken then read margin n { g with laterBreaks := g.laterBreaks ++ lineBreak } r
        else read margin n { g with blanks := [], firstBreak := lineBreak, broken := true } r
      else some (g, r)

end Gap

def isFlowIndicator (c : Char) : Bool :=
  c == ',' || c == '?' || c == '[' || c == ']' || c == '\x7b' || c == '\x7d'

def plainRun (inFlow : Bool) : List Char → List Char
  | [] => []
  | c :: rest =>
    if isBlank c || isBreak c then []
    else if c == ':' && isBlankOrEnd rest.head? then []
    else if inFlow && isFlowIndicator c then []
    else c :: plainRun inFlow rest

def plainText (inFlow : Bool) (margin : Int) :
    Nat → List Char → Gap → Reader → Option (List Char × Bool × Reader)
  | 0, text, gap, r => some (text, gap.broken, r)
  | n + 1, text, gap, r =>
    if r.atDocumentMarker || r.nextIs '#' then some (text, gap.broken, r)
    else
      let run := plainRun inFlow r.rest
      let text := if run.isEmpty then text else text ++ gap.text ++ run
      let gap := if run.isEmpty then gap else .empty
      let r := r.skipMany run.length
      if r.rest.isEmpty || !isBlankOrEnd r.next then some (text, gap.broken, r)
      else
        match gap.read margin r.rest.length r with
        | none => none
        | some (gap, r) =>
          if !inFlow && (r.column : Int) < margin then some (text, gap.broken, r)
          else plainText inFlow margin n text gap r

def simpleEscape (c : Char) : Option Char :=
  match c with
  | '0' => some (Char.ofNat 0)
  | 'a' => some (Char.ofNat 7)
  | 'b' => some (Char.ofNat 8)
  | 't' => some '\t'
  | '\t' => some '\t'
  | 'n' => some '\n'
  | 'v' => some (Char.ofNat 11)
  | 'f' => some (Char.ofNat 12)
  | 'r' => some '\r'
  | 'e' => some (Char.ofNat 27)
  | ' ' => some ' '
  | '"' => some '"'
  | '\'' => some '\''
  | '\\' => some '\\'
  | 'N' => some (Char.ofNat 0x85)
  | '_' => some (Char.ofNat 0xa0)
  | 'L' => some (Char.ofNat 0x2028)
  | 'P' => some (Char.ofNat 0x2029)
  | _ => none

def codeWidth (c : Char) : Option Nat :=
  match c with
  | 'x' => some 2
  | 'u' => some 4
  | 'U' => some 8
  | _ => none

def hexValue? (c : Char) : Option Nat :=
  if '0' ≤ c && c ≤ '9' then some (c.toNat - 48)
  else if 'a' ≤ c && c ≤ 'f' then some (c.toNat - 87)
  else if 'A' ≤ c && c ≤ 'F' then some (c.toNat - 55)
  else none

def hexNumber? (digits : List Char) : Option Nat :=
  digits.foldlM (fun value c => (hexValue? c).map (value * 16 + ·)) 0

def escape? : List Char → Option (Char × Nat)
  | [] => none
  | c :: rest =>
    match simpleEscape c, codeWidth c with
    | some plain, _ => some (plain, 1)
    | none, none => none
    | none, some width =>
      if rest.length < width then none
      else
        match hexNumber? (rest.take width) with
        | none => none
        | some code =>
          if code ≤ 0x10ffff && !(0xd800 ≤ code && code ≤ 0xdfff) then
            some (Char.ofNat code, width + 1)
          else none

def quotedRun (single : Bool) : Nat → List Char → Reader → Option (List Char × Bool × Reader)
  | 0, text, r => some (text, false, r)
  | n + 1, text, r =>
    match r.rest with
    | [] => some (text, false, r)
    | c :: after =>
      if isBlank c || isBreak c then some (text, false, r)
      else if single then
        if c == '\'' then
          if after.head? == some '\'' then quotedRun single n (text ++ [c]) r.skip.skip
          else some (text, false, r)
        else quotedRun single n (text ++ [c]) r.skip
      else if c == '"' then some (text, false, r)
      else if c == '\\' then
        if after.head?.any isBreak then some (text, true, r.skip.skipBreak)
        else
          match escape? after with
          | none => none
          | some (plain, length) => quotedRun single n (text ++ [plain]) (r.skip.skipMany length)
      else quotedRun single n (text ++ [c]) r.skip

def quotedText (single : Bool) : Nat → List Char → Reader → Option (List Char × Reader)
  | 0, _, _ => none
  | n + 1, text, r =>
    if r.atDocumentMarker || r.rest.isEmpty then none
    else
      match quotedRun single r.rest.length text r with
      | none => none
      | some (text, broken, r) =>
        if r.nextIs (if single then '\'' else '"') then some (text, r.skip)
        else
          match Gap.read (-1) r.rest.length { Gap.empty with broken := broken } r with
          | none => none
          | some (gap, r) => quotedText single n (text ++ gap.text) r

inductive Chomping where
  | strip
  | clip
  | keep
deriving DecidableEq

def blockHeader (r : Reader) : Option (Chomping × Nat × Reader) :=
  let chomping (r : Reader) : Chomping × Reader :=
    if r.nextIs '+' then (.keep, r.skip) else if r.nextIs '-' then (.strip, r.skip) else (.clip, r)
  let digit (r : Reader) : Option (Nat × Reader) :=
    match r.next with
    | some c => if c.isDigit then (if c == '0' then none else some (c.toNat - 48, r.skip))
      else some (0, r)
    | none => some (0, r)
  if r.nextIs '+' || r.nextIs '-' then
    let (mark, r) := chomping r
    (digit r).map fun (width, r) => (mark, width, r)
  else
    match digit r with
    | none => none
    | some (0, r) => some (.clip, 0, r)
    | some (width, r) =>
      let (mark, r) := chomping r
      some (mark, width, r)

def endOfLine (r : Reader) : Option Reader :=
  let r := r.skipWhile isBlank
  let r := if r.nextIs '#' then r.skipWhile (fun c => !isBreak c) else r
  if isBreakOrEnd r.next then some r.skipBreak else none

-- An indentation of zero is not known yet; the widest one seen comes back with the breaks.
def blockBreaks (indent : Nat) : Nat → Nat → List Char → Reader → Option (Nat × List Char × Reader)
  | 0, widest, breaks, r => some (widest, breaks, r)
  | n + 1, widest, breaks, r =>
    let spaces := (r.rest.takeWhile (· == ' ')).length
    let r := r.skipMany (if indent == 0 then spaces else min spaces (indent - r.column))
    let widest := max widest r.column
    if (indent == 0 || r.column < indent) && r.nextIs '\t' then none
    else if r.next.any isBreak then
      let (lineBreak, r) := r.takeBreak
      blockBreaks indent n widest (breaks ++ lineBreak) r
    else some (widest, breaks, r)

def blockLines (literal : Bool) (chomping : Chomping) (indent : Nat) :
    Nat → List Char → List Char → List Char → Bool → Reader → Option (List Char × Reader)
  | 0, _, _, _, _, _ => none
  | n + 1, text, lastBreak, breaks, afterBlank, r =>
    if r.column == indent && !r.rest.isEmpty then
      let blank := r.next.any isBlank
      let joint :=
        if !literal && !afterBlank && !blank && lastBreak == ['\n'] then
          if breaks.isEmpty then [' '] else []
        else lastBreak
      let (line, r) := r.takeWhile (fun c => !isBreak c)
      let (lineBreak, r) := r.takeBreak
      match blockBreaks indent r.rest.length.succ 0 [] r with
      | none => none
      | some (_, later, r) =>
        blockLines literal chomping indent n (text ++ joint ++ breaks ++ line) lineBreak later blank r
    else
      match chomping with
      | .strip => some (text, r)
      | .clip => some (text ++ lastBreak, r)
      | .keep => some (text ++ lastBreak ++ breaks, r)

def blockText (literal : Bool) (parent : Int) (r : Reader) : Option (List Char × Reader) :=
  match blockHeader r with
  | none => none
  | some (chomping, width, r) =>
    match endOfLine r with
    | none => none
    | some r =>
      let given := if width == 0 then 0 else (max parent 0).toNat + width
      match blockBreaks given r.rest.length.succ 0 [] r with
      | none => none
      | some (widest, breaks, r) =>
        let indent := if given == 0 then max widest (max (parent + 1) 1).toNat else given
        blockLines literal chomping indent r.rest.length.succ [] [] breaks false r

end Minilang.Yaml
