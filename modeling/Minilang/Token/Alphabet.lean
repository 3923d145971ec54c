namespace Minilang.Alphabet

-- The bytes of the language. A word byte may be a minus sign, but a word never starts
-- with one: reading looks for operators first.
def isDigit (b : UInt8) : Bool := 48 ≤ b && b ≤ 57

def isOperator (b : UInt8) : Bool :=
  b == 42 || b == 47 || b == 43 || b == 45 || b == 61 || b == 37

def isParen (b : UInt8) : Bool := b == 40 || b == 41

def isBrace (b : UInt8) : Bool := b == 123 || b == 125

def isWord (b : UInt8) : Bool :=
  (97 ≤ b && b ≤ 122) || (65 ≤ b && b ≤ 90) || b == 95 || b == 45

def newline : UInt8 := 10

def semicolon : UInt8 := 59

def isSpace (b : UInt8) : Bool := b == 32 || b == 9 || b == 13 || b == 11 || b == 12

def contains (b : UInt8) : Bool :=
  isDigit b || isOperator b || isParen b || isBrace b || isWord b || b == newline ||
    b == semicolon || isSpace b

end Minilang.Alphabet
