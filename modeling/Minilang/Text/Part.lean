namespace Minilang.Text

def holdsPart (part : List Char) : List Char → Bool
  | [] => part.isEmpty
  | c :: rest => part.isPrefixOf (c :: rest) || holdsPart part rest

def holds (text part : String) : Bool := holdsPart part.toList text.toList

end Minilang.Text
