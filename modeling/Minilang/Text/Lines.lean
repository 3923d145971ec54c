namespace Minilang.Text

def splitFrom (read : List Char) : List Char → List String
  | [] => [String.ofList read.reverse]
  | c :: rest =>
    if c == '\n' then String.ofList read.reverse :: splitFrom [] rest
    else splitFrom (c :: read) rest

def lines (text : String) : List String :=
  let chars := text.toList
  let chars := if chars.getLast? == some '\n' then chars.dropLast else chars
  if chars.isEmpty then [] else splitFrom [] chars

end Minilang.Text
