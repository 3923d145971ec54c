import Minilang.Tree.Basic
import Minilang.Yaml.Block

namespace Minilang

open Yaml (Block)

namespace Dump

def missing : Block := .leaf "null"

def text (value : String) : Block := .leaf (Yaml.written value)

def node (kind : NodeKind) (fields : List (String × Block)) : Block :=
  .record (("type", .leaf kind.text) :: fields)

def ident (name : String) : Block := node .ident [("name", text name)]

end Dump

namespace Expr

def block : Expr → Block
  | missing => Dump.missing
  | number _ value => Dump.node .number [("value", .leaf (decimal (value.getD 0)))]
  | ident _ name => Dump.ident name
  | unary _ operator operand =>
    Dump.node .unary [("operator", Dump.text operator), ("operand", operand.block)]
  | binary _ operator left right =>
    Dump.node .binary
      [("operator", Dump.text operator), ("left", left.block), ("right", right.block)]
  | assign _ target value =>
    Dump.node .assign
      [("target", match target with
        | some target => Dump.ident target.name
        | none => Dump.missing),
        ("value", value.block)]

end Expr

mutual

def Stmt.block : Stmt → Block
  | .expr e => e.block
  | .branch _ condition body =>
    Dump.node .branch [("condition", condition.block), ("body", .list (blocks body))]
  | .loop _ condition body =>
    Dump.node .loop [("condition", condition.block), ("body", .list (blocks body))]
  | .print _ e => Dump.node .print [("expression", e.block)]

def blocks : List Stmt → List Block
  | [] => []
  | s :: rest => s.block :: blocks rest

end

def dump (program : List Stmt) : String := (Yaml.Block.list (blocks program)).render

end Minilang
