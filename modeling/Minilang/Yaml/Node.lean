import Minilang.Yaml.Scalar
import Minilang.Yaml.Token

namespace Minilang.Yaml

inductive Node where
  | scalar (line : Nat) (tag : String) (text : String)
  | sequence (line : Nat) (tag : String) (items : List Node)
  | mapping (line : Nat) (tag : String) (entries : List (Node × Node))
  | reference (line : Nat) (name : String) (number : Nat) (anchor : Nat)
deriving Repr, Inhabited

namespace Node

def line : Node → Nat
  | scalar line _ _ => line
  | sequence line _ _ => line
  | mapping line _ _ => line
  | reference line _ _ _ => line

def tag : Node → String
  | scalar _ tag _ => tag
  | sequence _ tag _ => tag
  | mapping _ tag _ => tag
  | reference _ _ _ _ => ""

def text : Node → String
  | scalar _ _ text => text
  | reference _ name _ _ => name
  | _ => ""

def sameKey : Node → Node → Bool
  | scalar _ _ a, scalar _ _ b => a == b
  | sequence _ _ _, sequence _ _ _ => true
  | mapping _ _ _, mapping _ _ _ => true
  | reference _ a _ _, reference _ b _ _ => a == b
  | _, _ => false

def empty (line : Nat) : Node := scalar line nullTag ""

def givenTag (tag : String) : Option String :=
  if tag == "" || tag == "!" then none else some (shortTag tag)

def ofScalar (line : Nat) (tag text : String) (plain : Bool) : Node :=
  let untagged :=
    if !plain then stringTag else if text == "<<" then mergeTag else (plainScalar true text).tag
  scalar line ((givenTag tag).getD untagged) text

end Node

structure Document where
  root : Node
  anchored : List (Nat × Node)
  depth : Nat

structure Builder where
  tokens : List Token
  handles : List (String × String)
  anchors : List (String × Nat)
  anchored : List (Nat × Node)
  references : Nat

abbrev Build : Type → Type := StateT Builder Option

namespace Build

def peek : Build Token := fun b => b.tokens.head?.map (·, b)

def skip : Build Unit := modify fun b => { b with tokens := b.tokens.tail }

def nextIs (signs : List Sign) : Build Bool := do return signs.contains (← peek).sign

structure Properties where
  line : Nat
  anchor : Option String
  tag : String

def expandTag (handle suffix : String) : Build String := do
  if handle == "" then return suffix
  match (← get).handles.lookup handle with
  | some expansion => return expansion ++ suffix
  | none => failure

def properties : Build Properties := do
  let first ← peek
  match first.sign with
  | .anchor name =>
    skip
    match (← peek).sign with
    | .tag handle suffix =>
      skip
      return ⟨first.line, some name, ← expandTag handle suffix⟩
    | _ => return ⟨first.line, some name, ""⟩
  | .tag handle suffix =>
    skip
    match (← peek).sign with
    | .anchor name =>
      skip
      return ⟨first.line, some name, ← expandTag handle suffix⟩
    | _ => return ⟨first.line, none, ← expandTag handle suffix⟩
  | _ => return ⟨first.line, none, ""⟩

-- An anchor names its node from the node's start on, so a node may refer to itself.
def anchoring (anchor : Option String) (node : Build Node) : Build Node :=
  match anchor with
  | none => node
  | some name => do
    let number := (← get).anchors.length
    modify fun b => { b with anchors := (name, number) :: b.anchors }
    let n ← node
    modify fun b => { b with anchored := (number, n) :: b.anchored }
    return n

def referenceTo (line : Nat) (name : String) : Build Node := do
  let b ← get
  match b.anchors.lookup name with
  | none => failure
  | some anchor =>
    set { b with references := b.references + 1 }
    return .reference (line + 1) name b.references anchor

def unlessNext (signs : List Sign) (line : Nat) (node : Build Node) : Build Node := do
  if ← nextIs signs then return .empty (line + 1) else node

-- In the collections below the bound counts tokens: each round takes at least one.

def blockItems (indented : Bool) (node : Build Node) : Nat → Build (List Node)
  | 0 => failure
  | n + 1 => do
    let t ← peek
    match t.sign with
    | .blockEntry =>
      skip
      let stops := if indented then [.blockEntry, .blockEnd] else [.blockEntry, .key, .value, .blockEnd]
      let item ← unlessNext stops t.line node
      return item :: (← blockItems indented node n)
    | .blockEnd =>
      if indented then skip
      return []
    | _ => if indented then failure else return []

def blockPairs (node : Build Node) : Nat → Build (List (Node × Node))
  | 0 => failure
  | n + 1 => do
    let t ← peek
    match t.sign with
    | .key =>
      skip
      let key ← unlessNext [.key, .value, .blockEnd] t.line node
      let mark ← peek
      let value ←
        if mark.sign == .value then do
          skip
          unlessNext [.key, .value, .blockEnd] mark.line node
        else pure (.empty (mark.line + 1))
      return (key, value) :: (← blockPairs node n)
    | .blockEnd =>
      skip
      return []
    | _ => failure

def comma (first : Bool) (closing : Sign) : Build Unit := do
  if first || (← nextIs [closing]) then return ()
  else if ← nextIs [.flowEntry] then skip
  else failure

def flowValue (closing : Sign) (node : Build Node) : Build Node := do
  if ← nextIs [.value] then skip; unlessNext [.flowEntry, closing] (← peek).line node
  else return .empty ((← peek).line + 1)

def singlePair (node : Build Node) : Build (Node × Node) := do
  let t ← peek
  let key ←
    if ← nextIs [.value, .flowEntry, .flowSequenceEnd] then do
      skip
      pure (.empty (t.line + 1))
    else node
  return (key, ← flowValue .flowSequenceEnd node)

def flowItems (node : Build Node) : Nat → Bool → Build (List Node)
  | 0, _ => failure
  | n + 1, first => do
    comma first .flowSequenceEnd
    let t ← peek
    match t.sign with
    | .flowSequenceEnd =>
      skip
      return []
    | .key =>
      skip
      let pair ← singlePair node
      return .mapping (t.line + 1) mappingTag [pair] :: (← flowItems node n false)
    | _ =>
      let item ← node
      return item :: (← flowItems node n false)

def flowPairs (node : Build Node) : Nat → Bool → Build (List (Node × Node))
  | 0, _ => failure
  | n + 1, first => do
    comma first .flowMappingEnd
    let t ← peek
    match t.sign with
    | .flowMappingEnd =>
      skip
      return []
    | .key =>
      skip
      let key ← unlessNext [.value, .flowEntry, .flowMappingEnd] (← peek).line node
      let value ← flowValue .flowMappingEnd node
      return (key, value) :: (← flowPairs node n false)
    | _ =>
      let key ← node
      let value := .empty ((← peek).line + 1)
      return (key, value) :: (← flowPairs node n false)

def node : Nat → Bool → Bool → Build Node
  | 0, _, _ => failure
  | n + 1, block, unindented => do
    let t ← peek
    match t.sign with
    | .reference name =>
      skip
      referenceTo t.line name
    | _ =>
      let p ← properties
      let line := p.line + 1
      let tag := (Node.givenTag p.tag).getD
      let bare : Build Node :=
        if p.anchor.isSome || p.tag != "" then return .ofScalar line p.tag "" true else failure
      anchoring p.anchor do
        let count := (← get).tokens.length + 1
        match (← peek).sign with
        | .scalar text plain =>
          skip
          return .ofScalar line p.tag text plain
        | .flowSequenceStart =>
          skip
          return .sequence line (tag sequenceTag) (← flowItems (node n false false) count true)
        | .flowMappingStart =>
          skip
          return .mapping line (tag mappingTag) (← flowPairs (node n false false) count true)
        | .blockEntry =>
          if unindented then
            return .sequence line (tag sequenceTag) (← blockItems false (node n true false) count)
          else bare
        | .blockSequenceStart =>
          if block then
            skip
            return .sequence line (tag sequenceTag) (← blockItems true (node n true false) count)
          else bare
        | .blockMappingStart =>
          if block then
            skip
            return .mapping line (tag mappingTag) (← blockPairs (node n true true) count)
          else bare
        | _ => bare

def directives : Nat → Bool → Build Unit
  | 0, _ => failure
  | n + 1, versioned => do
    match (← peek).sign with
    | .version major minor =>
      if versioned || major != 1 || minor != 1 then failure
      skip
      directives n true
    | .tagHandle handle expansion =>
      if (← get).handles.any (·.1 == handle) then failure
      skip
      modify fun b => { b with handles := (handle, expansion) :: b.handles }
      directives n versioned
    | _ => return ()

def defaultHandles : List (String × String) := [("!", "!"), ("!!", standardTags)]

def completeHandles : Build Unit :=
  modify fun b => { b with handles := b.handles ++ defaultHandles }

def root : Build (Option Node) := do
  let count := (← get).tokens.length + 1
  let first ← peek
  match first.sign with
  | .streamEnd => return none
  | .version _ _ | .tagHandle _ _ | .documentStart =>
    directives count false
    completeHandles
    let start ← peek
    if start.sign != .documentStart then failure
    skip
    let t ← peek
    match t.sign with
    | .version _ _ | .tagHandle _ _ | .documentStart | .documentEnd | .streamEnd =>
      return some (.empty (t.line + 1))
    | _ => return some (← node count true false)
  | _ =>
    completeHandles
    return some (← node count true false)

end Build

namespace Document

-- Where the tokens stop at a fault, the fault is seen from two tokens before it.
def ofTokens? (tokens : List Token) (complete : Bool) : Option (Option Document) :=
  match Build.root.run ⟨tokens, [], [], [], 0⟩ with
  | none => none
  | some (root, b) =>
    if complete || 2 < b.tokens.length then
      some (root.map fun root => ⟨root, b.anchored, (b.references + 1) * (tokens.length + 2)⟩)
    else none

def read? (bytes : List UInt8) : Option (Option Document) :=
  match characters bytes with
  | none => none
  | some chars =>
    let (tokens, complete) := scan chars
    ofTokens? tokens.toList complete

end Document

end Minilang.Yaml
