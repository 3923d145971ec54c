import Minilang.Yaml.Node
import Minilang.Text.Quoted
import Minilang.Token.Basic

namespace Minilang.Yaml

inductive DecodeError where
  | malformed
  | refused (message : String)
  | mismatched (complaints : List String)
deriving DecidableEq, Repr

namespace DecodeError

def message : DecodeError → String
  | malformed => "yaml: <syntax>"
  | refused message => message
  | mismatched complaints => "yaml: unmarshal errors:" ++ String.join (complaints.map ("\n  " ++ ·))

end DecodeError

structure Decoding where
  complaints : Array String := #[]
  following : List Nat := []
  visits : Nat := 0
  visitsFollowing : Nat := 0

abbrev Decode : Type → Type := ReaderT Document (StateT Decoding (Except DecodeError))

-- A decoder gives none when the value stays as it is.
abbrev Decoder (α : Type) : Type := α → Node → Decode (Option α)

namespace Decode

def complain (line : Nat) (text : String) : Decode Unit :=
  modify fun d => { d with complaints := d.complaints.push ("line " ++ decimal line ++ ": " ++ text) }

-- References may make a small document large. Up to 400,000 nodes 99 in 100 of them may come
-- from references; from there the share falls evenly to 10 in 100 at 4,000,000.
def tooManyReferences (d : Decoding) : Bool :=
  let beyond := min (d.visits - 400000) 3600000
  100 < d.visitsFollowing && 1000 < d.visits &&
    d.visits * (99 * 3600000 - 89 * beyond) < d.visitsFollowing * 100 * 3600000

def visit : Decode Unit := do
  modify fun d => { d with
    visits := d.visits + 1
    visitsFollowing := d.visitsFollowing + (if d.following.isEmpty then 0 else 1) }
  if tooManyReferences (← get) then throw .malformed

def target (node : Node) : Decode Node := do
  match node with
  | .reference _ _ _ anchor =>
    match (← read).anchored.lookup anchor with
    | some target => return target
    | none => throw .malformed
  | _ => return node

def entering {α : Type} (node : Node) (inner : Node → Decode α) : Decode α := do
  visit
  match node with
  | .reference _ _ number _ =>
    if (← get).following.contains number then throw .malformed
    modify fun d => { d with following := number :: d.following }
    visit
    let value ← inner (← target node)
    modify fun d => { d with following := d.following.tail }
    return value
  | _ => inner node

def shown (text : String) : String :=
  let bytes := Text.bytesOf text
  if 10 < bytes.length then Text.decodeLossy (bytes.take 7) ++ "..." else text

def mismatch (typeName : String) (node : Node) : Decode Unit :=
  let text :=
    if node.tag == sequenceTag || node.tag == mappingTag then ""
    else " \x60" ++ shown node.text ++ "\x60"
  complain node.line ("cannot unmarshal " ++ node.tag ++ text ++ " into " ++ typeName)

def duplicates : List (Node × Node) → List (Node × Node)
  | [] => []
  | (key, _) :: rest =>
    ((rest.filter fun entry => key.sameKey entry.1).map fun entry => (key, entry.1)) ++ duplicates rest

def distinctKeys (entries : List (Node × Node)) : Decode Bool := do
  let found := duplicates entries
  found.forM fun (first, later) =>
    complain later.line ("mapping key " ++ Text.quoted later.text ++ " already defined at line " ++
      decimal first.line)
  return found.isEmpty

-- Bytes in base 64 that are no UTF-8 come out as replacement characters.
def meaning (tag text : String) : Decode (String × Scalar) := do
  match resolve tag text with
  | none => throw .malformed
  | some (tag, value) =>
    if tag == binaryTag then
      match Text.base64? text with
      | some bytes => return (tag, .text (Text.decodeLossy bytes))
      | none => throw .malformed
    else return (tag, value)

def scalarOf {α : Type} (typeName : String) (convert : String → Scalar → Option α) : Decoder α :=
  fun _ node => do
    match node with
    | .scalar _ tag text =>
      let (_, value) ← meaning tag text
      if value = .null then return none
      let source := match value with
        | .text plain => plain
        | _ => text
      match convert source value with
      | some value => return some value
      | none =>
        mismatch typeName node
        return none
    | .mapping _ _ entries =>
      if ← distinctKeys entries then mismatch typeName node
      return none
    | _ =>
      mismatch typeName node
      return none

def stringOf (typeName : String) : Decoder String := scalarOf typeName fun text _ => some text

def string : Decoder String := stringOf "string"

-- What lies below 64 bits, and two to the 63, becomes the least integer.
def cutToWord (whole : Int) : Option Int :=
  if int64Limit < whole then none
  else if inInt64 whole then some whole
  else some (-int64Limit)

def int : Decoder Int := scalarOf "int" fun _ value =>
  match value with
  | .int value => if inInt64 value then some value else none
  | .float whole => whole.bind cutToWord
  | .negativeInfinity => some (-int64Limit)
  | _ => none

def items {α : Type} (start : α) (item : Decoder α) : List Node → Decode (List α)
  | [] => return []
  | node :: rest => do
    match ← entering node (item start) with
    | some value => return value :: (← items start item rest)
    | none => items start item rest

def list {α : Type} (typeName : String) (start : α) (item : Decoder α) : Decoder (Option (List α)) :=
  fun _ node => do
    match node with
    | .sequence _ _ nodes => return some (some (← items start item nodes))
    | .scalar _ tag text =>
      let (_, value) ← meaning tag text
      if value = .null then return some none
      mismatch typeName node
      return none
    | .mapping _ _ entries =>
      if ← distinctKeys entries then mismatch typeName node
      return none
    | _ =>
      mismatch typeName node
      return none

structure RecordField (ρ : Type) where
  name : String
  assign : ρ → Node → Decode ρ

def field {ρ α : Type} (name : String) (get : ρ → α) (set : ρ → α → ρ) (decoder : Decoder α) :
    RecordField ρ :=
  ⟨name, fun record node => do
    match ← entering node (decoder (get record)) with
    | some value => return set record value
    | none => return record⟩

def isMergeKey : Node → Bool
  | .scalar _ tag text => text == "<<" && tag == mergeTag
  | _ => false

def textKeys : List (Node × Node) → Decode (List String)
  | [] => return []
  | (key, _) :: rest => do
    let text ← entering key fun key => do
      match key with
      | .scalar _ tag text =>
        match ← meaning tag text with
        | (_, .text text) => return [text]
        | _ => return []
      | _ => return []
    return text ++ (← textKeys rest)

structure Entries (ρ : Type) where
  record : ρ
  done : List String
  taken : Option (List String)

def entry {ρ : Type} (typeName : String) (fields : List (RecordField ρ)) (state : Entries ρ)
    (key value : Node) : Decode (Entries ρ) := do
  match ← entering key (string "") with
  | none => return state
  | some name =>
    if state.taken.any (·.contains name) then return state
    let state := { state with taken := state.taken.map (name :: ·) }
    match fields.find? (·.name == name) with
    | none =>
      complain key.line ("field " ++ name ++ " not found in type " ++ typeName)
      return state
    | some field =>
      if state.done.contains name then
        complain key.line ("field " ++ name ++ " already set in type " ++ typeName)
        return state
      return { state with record := ← field.assign state.record value, done := name :: state.done }

def entries {ρ : Type} (typeName : String) (fields : List (RecordField ρ)) :
    List (Node × Node) → Entries ρ → Decode (Entries ρ)
  | [], state => return state
  | (key, value) :: rest, state => do
    if isMergeKey key then entries typeName fields rest state
    else entries typeName fields rest (← entry typeName fields state key value)

def mergedNodes : Node → List Node
  | .sequence _ _ nodes => nodes
  | node => [node]

-- A merged entry never replaces one that the mapping has itself or one merged before.
def fill {ρ : Type} (typeName : String) (fields : List (RecordField ρ)) :
    Nat → ρ → Option (List String) → List (Node × Node) → Decode (ρ × Option (List String))
  | 0, _, _, _ => throw .malformed
  | n + 1, record, taken, pairs => do
    let state ← entries typeName fields pairs ⟨record, [], taken⟩
    match (pairs.filter (isMergeKey ·.1)).getLast? with
    | none => return (state.record, state.taken)
    | some (_, source) =>
      let blocked ← match state.taken with
        | some names => pure names
        | none => textKeys pairs
      let merge (state : ρ × List String) (node : Node) : Decode (ρ × List String) := do
        match ← target node with
        | .mapping _ _ _ =>
          entering node fun inner => do
            match inner with
            | .mapping _ _ pairs =>
              if ← distinctKeys pairs then
                let (record, names) ← fill typeName fields n state.1 (some state.2) pairs
                return (record, names.getD state.2)
              else return state
            | _ => throw .malformed
        | _ => throw .malformed
      let (record, names) ← (mergedNodes source).foldlM merge (state.record, blocked)
      return (record, if state.taken.isSome then some names else none)

def record {ρ : Type} (typeName : String) (fields : List (RecordField ρ)) : Decoder ρ :=
  fun start node => do
    match node with
    | .mapping _ _ pairs =>
      if ← distinctKeys pairs then
        let (value, _) ← fill typeName fields (← read).depth start none pairs
        return some value
      else return none
    | .scalar _ tag text =>
      let (_, value) ← meaning tag text
      if value ≠ .null then mismatch typeName node
      return none
    | _ =>
      mismatch typeName node
      return none

def optional {ρ : Type} (typeName : String) (start : ρ) (fields : List (RecordField ρ)) :
    Decoder (Option ρ) :=
  fun _ node => do
    match node with
    | .scalar _ tag text =>
      let (_, value) ← meaning tag text
      if value ≠ .null then mismatch typeName node
      return some none
    | _ =>
      if node.tag == nullTag then
        mismatch ("*" ++ typeName) node
        return none
      return some (some ((← record typeName fields start node).getD start))

def alone {α : Type} (node : Node) (decoder : Node → Decode α) : Decode (α × List String) := do
  match (entering node decoder (← read)).run {} with
  | .ok (value, d) => return (value, d.complaints.toList)
  | .error e => throw e

end Decode

def decode {α : Type} (start : α) (decoder : Decoder α) (bytes : List UInt8) :
    Except DecodeError (Option α) :=
  match Document.read? bytes with
  | none => .error .malformed
  | some none => .ok none
  | some (some document) =>
    match (Decode.entering document.root (decoder start) document).run { visits := 1 } with
    | .error e => .error e
    | .ok (value, d) =>
      if d.complaints.isEmpty then .ok (some (value.getD start))
      else .error (.mismatched d.complaints.toList)

end Minilang.Yaml
