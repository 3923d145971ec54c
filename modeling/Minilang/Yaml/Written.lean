import Minilang.Text.Quoted
import Minilang.Yaml.Scalar

namespace Minilang.Yaml

def isOldBool (text : String) : Bool :=
  ["y", "Y", "yes", "Yes", "YES", "on", "On", "ON",
    "n", "N", "no", "No", "NO", "off", "Off", "OFF"].contains text

def isShown (c : Char) : Bool :=
  let code := c.toNat
  code == 0x0a || (0x20 ≤ code && code ≤ 0x7e) ||
    (0xa0 ≤ code && code ≤ 0xfffd && code != 0xfeff)

-- An indicator at the start of a plain text, or inside it, would make it something else.

def startsAsIndicator (c : Char) (rest : List Char) : Bool :=
  "#,[]\x7b\x7d&*!|>'\"%@\x60".toList.contains c ||
    ((c == '?' || c == ':' || c == '-') && rest.head?.all isBlank)

def holdsIndicator : Char → List Char → Bool
  | _, [] => false
  | before, c :: rest =>
    (c == ':' && rest.head?.all isBlank) || (c == '#' && (isBlank before || isBreak before)) ||
      holdsIndicator c rest

def fitsPlain : List Char → Bool
  | [] => true
  | c :: rest =>
    !startsAsIndicator c rest && !holdsIndicator c rest && c != ' ' &&
      (c :: rest).getLast? != some ' ' && (c :: rest).take 3 != ['-', '-', '-'] &&
      (c :: rest).take 3 != ['.', '.', '.']

def singleQuoted (text : List Char) : String :=
  String.ofList ('\'' :: text.flatMap (fun c => if c == '\'' then [c, c] else [c]) ++ ['\''])

def escapeLetter (c : Char) : Option Char :=
  match c.toNat with
  | 0x00 => some '0'
  | 0x07 => some 'a'
  | 0x08 => some 'b'
  | 0x09 => some 't'
  | 0x0a => some 'n'
  | 0x0b => some 'v'
  | 0x0c => some 'f'
  | 0x0d => some 'r'
  | 0x1b => some 'e'
  | 0x22 => some '"'
  | 0x5c => some '\\'
  | 0x85 => some 'N'
  | 0xa0 => some '_'
  | 0x2028 => some 'L'
  | 0x2029 => some 'P'
  | _ => none

def escaped (c : Char) : List Char :=
  if isShown c && !isBreak c && c != '"' && c != '\\' then [c]
  else
    match escapeLetter c with
    | some letter => ['\\', letter]
    | none =>
      let code := c.toNat
      let (mark, width) := if code ≤ 0xff then ('x', 2) else if code ≤ 0xffff then ('u', 4) else ('U', 8)
      '\\' :: mark :: (Text.hexDigits width code).map Char.toUpper

def doubleQuoted (text : List Char) : String :=
  String.ofList ('"' :: text.flatMap escaped ++ ['"'])

def written (text : String) : String :=
  let chars := text.toList
  if (plainScalar true text).tag != stringTag || isOldBool text || chars.contains '\n' then
    doubleQuoted chars
  else if chars.any (fun c => !isShown c || isBreak c) then doubleQuoted chars
  else if fitsPlain chars then text
  else singleQuoted chars

end Minilang.Yaml
