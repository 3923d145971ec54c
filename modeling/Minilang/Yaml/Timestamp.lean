import Minilang.Yaml.Number

namespace Minilang.Yaml

def daysInMonth (year month : Nat) : Nat :=
  if month == 2 then
    if year % 4 == 0 && (year % 100 != 0 || year % 400 == 0) then 29 else 28
  else if month == 4 || month == 6 || month == 9 || month == 11 then 30
  else 31

def clockField : List Char → Option (Nat × List Char)
  | a :: b :: rest =>
    if !a.isDigit then none
    else if b.isDigit then some ((a.toNat - 48) * 10 + (b.toNat - 48), rest)
    else some (a.toNat - 48, b :: rest)
  | [a] => if a.isDigit then some (a.toNat - 48, []) else none
  | [] => none

def expectChar (c : Char) : List Char → Option (List Char)
  | d :: rest => if c == d then some rest else none
  | [] => none

def date? (text : List Char) : Option (List Char) := do
  let year ← inBase? 10 (text.takeWhile (·.isDigit))
  if (text.takeWhile (·.isDigit)).length != 4 then none
  let rest ← expectChar '-' (text.drop 4)
  let (month, rest) ← clockField rest
  let rest ← expectChar '-' rest
  let (day, rest) ← clockField rest
  if 1 ≤ month && month ≤ 12 && 1 ≤ day && day ≤ daysInMonth year month then some rest else none

def clock? (text : List Char) : Option (List Char) := do
  let (hour, rest) ← clockField text
  let rest ← expectChar ':' rest
  let (minute, rest) ← clockField rest
  let rest ← expectChar ':' rest
  let (second, rest) ← clockField rest
  if hour < 24 && minute < 60 && second < 60 then
    match rest with
    | mark :: digit :: more =>
      if (mark == '.' || mark == ',') && digit.isDigit then some (more.dropWhile (·.isDigit))
      else some rest
    | _ => some rest
  else none

def isZone : List Char → Bool
  | ['Z'] => true
  | [sign, a, b, ':', c, d] =>
    (sign == '+' || sign == '-') && (inBase? 10 [a, b]).any (· ≤ 24) && (inBase? 10 [c, d]).any (· ≤ 60)
  | _ => false

def isTimestamp (text : List Char) : Bool :=
  match date? text with
  | none => false
  | some [] => true
  | some (c :: rest) =>
    if c == 'T' || c == 't' then (clock? rest).any isZone
    else c == ' ' && clock? (rest.dropWhile (· == ' ')) == some []

end Minilang.Yaml
