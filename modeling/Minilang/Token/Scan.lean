import Minilang.Token.Alphabet
import Minilang.Token.Basic

namespace Minilang

structure LexError where
  position : Position
  char : Int
deriving DecidableEq, Repr

namespace LexError

def detail (e : LexError) : String := "unexpected character " ++ Text.quotedCode e.char

def message (e : LexError) : String :=
  "lex error: " ++ e.detail ++ " at " ++ e.position.text

end LexError

def lexemeOf (bytes : List UInt8) : String :=
  String.ofList (bytes.map fun b => Char.ofNat b.toNat)

def digitsValue (digits : List UInt8) : Nat :=
  digits.foldl (fun value b => value * 10 + (b.toNat - 48)) 0

namespace Token

open Alphabet

def number (p : Position) (digits : List UInt8) : Token :=
  ⟨p, .number, lexemeOf digits, some (digitsValue digits)⟩

def word (p : Position) (letters : List UInt8) : Token :=
  let lexeme := lexemeOf letters
  ⟨p, if isKeyword lexeme then .keyword else .identifier, lexeme, none⟩

def single (p : Position) (kind : TokenKind) (b : UInt8) : Token :=
  ⟨p, kind, lexemeOf [b], none⟩

-- Each round takes at least one byte, so a bound of the number of bytes never cuts the
-- reading short: it is used up only when no byte is left.
def scanFrom : Nat → Position → List UInt8 → Except LexError (List Token)
  | 0, _, _ => .ok []
  | _ + 1, _, [] => .ok []
  | n + 1, p, b :: bs =>
    if isDigit b then
      let run := (b :: bs).takeWhile isDigit
      (scanFrom n (p.right run.length) ((b :: bs).dropWhile isDigit)).map (number p run :: ·)
    else if isOperator b then
      (scanFrom n (p.right 1) bs).map (single p .operator b :: ·)
    else if isParen b then
      (scanFrom n (p.right 1) bs).map (single p .paren b :: ·)
    else if isBrace b then
      (scanFrom n (p.right 1) bs).map (single p .brace b :: ·)
    else if isWord b then
      let run := (b :: bs).takeWhile isWord
      (scanFrom n (p.right run.length) ((b :: bs).dropWhile isWord)).map (word p run :: ·)
    else if b == newline then
      scanFrom n p.nextRow bs
    else if b == semicolon then
      (scanFrom n (p.right 1) bs).map (single p .semicolon b :: ·)
    else if isSpace b then
      let run := (b :: bs).takeWhile isSpace
      scanFrom n (p.right run.length) ((b :: bs).dropWhile isSpace)
    else
      .error ⟨p, (Text.decodeFirst (b :: bs)).1⟩

def scan (source : List UInt8) : Except LexError (List Token) :=
  scanFrom source.length .origin source

end Token

end Minilang
