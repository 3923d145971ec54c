import Minilang.Text.Quoted

namespace Minilang

def decimal (value : Int) : String := toString value

-- Rows and columns are stored from zero and written from one; columns count bytes.
structure Position where
  row : Int
  column : Int
deriving DecidableEq, Repr, Inhabited

namespace Position

def origin : Position := ⟨0, 0⟩

def text (p : Position) : String := decimal (p.row + 1) ++ ":" ++ decimal (p.column + 1)

def right (p : Position) (bytes : Nat) : Position := ⟨p.row, p.column + bytes⟩

def nextRow (p : Position) : Position := ⟨p.row + 1, 0⟩

end Position

-- A token list may be built by hand, so a kind outside the language's own keeps its code.
inductive TokenKind where
  | number
  | operator
  | paren
  | brace
  | identifier
  | keyword
  | semicolon
  | other (code : Int)
deriving DecidableEq, Repr, Inhabited

namespace TokenKind

def ofCode (code : Int) : TokenKind :=
  if code = 0 then number
  else if code = 1 then operator
  else if code = 2 then paren
  else if code = 3 then brace
  else if code = 4 then identifier
  else if code = 5 then keyword
  else if code = 6 then semicolon
  else other code

def text : TokenKind → String
  | number => "number"
  | operator => "operator"
  | paren => "paren"
  | brace => "brace"
  | identifier => "identifier"
  | keyword => "keyword"
  | semicolon => "semicolon"
  | other code => "kind(" ++ decimal code ++ ")"

end TokenKind

structure Token where
  position : Position
  kind : TokenKind
  lexeme : String
  value : Option Int
deriving DecidableEq, Repr, Inhabited

namespace Token

def is (t : Token) (kind : TokenKind) (lexeme : String) : Bool :=
  t.kind == kind && t.lexeme == lexeme

def text (t : Token) : String :=
  t.position.text ++ " " ++ t.kind.text ++ " " ++ Text.quoted t.lexeme

end Token

def isKeyword (word : String) : Bool := word == "if" || word == "while" || word == "print"

end Minilang
