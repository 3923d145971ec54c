import Minilang.Text.Printable
import Minilang.Text.Utf8

namespace Minilang.Text

def hexDigit (n : Nat) : Char :=
  if n < 10 then Char.ofNat (48 + n) else Char.ofNat (87 + n)

def hexDigits : Nat → Nat → List Char
  | 0, _ => []
  | width + 1, n => hexDigits width (n / 16) ++ [hexDigit (n % 16)]

def shortEscape (code : Nat) : Option Char :=
  match code with
  | 7 => some 'a'
  | 8 => some 'b'
  | 9 => some 't'
  | 10 => some 'n'
  | 11 => some 'v'
  | 12 => some 'f'
  | 13 => some 'r'
  | _ => none

def quoteChar (mark : Char) (c : Char) : List Char :=
  let code := c.toNat
  if c == mark || c == '\\' then ['\\', c]
  else if isPrintable code then [c]
  else match shortEscape code with
    | some letter => ['\\', letter]
    | none =>
      if code < 32 || code == 127 then '\\' :: 'x' :: hexDigits 2 code
      else if code < 0x10000 then '\\' :: 'u' :: hexDigits 4 code
      else '\\' :: 'U' :: hexDigits 8 code

def quoted (text : String) : String :=
  String.ofList ('"' :: text.toList.flatMap (quoteChar '"') ++ ['"'])

def isValidCode (code : Int) : Bool :=
  (0 ≤ code && code < 0xd800) || (0xdfff < code && code ≤ 0x10ffff)

def quotedCode (code : Int) : String :=
  let c := Char.ofNat (if isValidCode code then code.toNat else replacement)
  String.ofList ('\'' :: quoteChar '\'' c ++ ['\''])

def quotedList (texts : List String) : String :=
  "[" ++ " ".intercalate (texts.map quoted) ++ "]"

end Minilang.Text
