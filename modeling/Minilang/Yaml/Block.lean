import Minilang.Yaml.Written

namespace Minilang.Yaml

inductive Block where
  | leaf (written : String)
  | list (items : List Block)
  | record (fields : List (String × Block))
deriving Repr, Inhabited

structure Line where
  indent : Nat
  text : String
deriving DecidableEq, Repr

namespace Line

def render (l : Line) : String := "".pushn ' ' l.indent ++ l.text ++ "\n"

end Line

namespace Block

def dashed : List Line → List Line
  | [] => []
  | first :: rest => ⟨first.indent - 2, "- " ++ first.text⟩ :: rest

def inline? : Block → Option String
  | leaf written => some written
  | list [] => some "[]"
  | _ => none

mutual

def lines (indent : Nat) : Block → List Line
  | leaf written => [⟨indent, written⟩]
  | list [] => [⟨indent, "[]"⟩]
  | list (first :: rest) => itemLines indent (first :: rest)
  | record fields => fieldLines indent fields

def itemLines (indent : Nat) : List Block → List Line
  | [] => []
  | item :: rest => dashed (lines (indent + 2) item) ++ itemLines indent rest

def fieldLines (indent : Nat) : List (String × Block) → List Line
  | [] => []
  | (name, value) :: rest =>
    (match value.inline? with
      | some text => [⟨indent, name ++ ": " ++ text⟩]
      | none => ⟨indent, name ++ ":"⟩ :: lines (indent + 2) value) ++ fieldLines indent rest

end

def render (b : Block) : String := String.join ((b.lines 0).map Line.render)

end Block

end Minilang.Yaml
