import Minilang.Yaml.ScalarText

namespace Minilang.Yaml

def digit? (base : Nat) (c : Char) : Option Nat := (hexValue? c).filter (· < base)

def digits? (base : Nat) (digits : List Char) : Option Nat :=
  digits.foldlM (fun value c => (digit? base c).map (value * base + ·)) 0

def unsigned? : List Char → Option Nat
  | [] => none
  | '0' :: letter :: first :: rest =>
    if letter == 'b' || letter == 'B' then digits? 2 (first :: rest)
    else if letter == 'o' || letter == 'O' then digits? 8 (first :: rest)
    else if letter == 'x' || letter == 'X' then digits? 16 (first :: rest)
    else digits? 8 (letter :: first :: rest)
  | '0' :: rest => digits? 8 rest
  | text => digits? 10 text

def int64Limit : Int := Nat.pow 2 63

def inInt64 (value : Int) : Bool := -int64Limit ≤ value && value < int64Limit

def withSign? (read : List Char → Option Nat) (text : List Char) : Option Int :=
  match text with
  | '-' :: rest => (read rest).map fun n => -(n : Int)
  | '+' :: rest => (read rest).map fun n => (n : Int)
  | _ => (read text).map fun n => (n : Int)

def word? (read : List Char → Option Nat) (text : List Char) : Option Int :=
  match (withSign? read text).filter inInt64 with
  | some value => some value
  | none => ((read text).filter (· < Nat.pow 2 64)).map fun n => (n : Int)

def inBase? (base : Nat) (digits : List Char) : Option Nat :=
  if digits.isEmpty then none else digits? base digits

def lettered? (letter : Char) (base : Nat) : List Char → Option Int
  | '0' :: c :: rest => if c == letter then word? (inBase? base) rest else none
  | '-' :: '0' :: c :: rest =>
    if c == letter then (withSign? (inBase? base) ('-' :: rest)).filter inInt64 else none
  | _ => none

def integer? (text : List Char) : Option Int :=
  word? unsigned? text

def lateInteger? (text : List Char) : Option Int :=
  (lettered? 'b' 2 text).orElse fun _ => lettered? 'o' 8 text

structure Decimal where
  negative : Bool
  mantissa : Nat
  exponent : Int
deriving DecidableEq, Repr

def exponent? : List Char → Option Int
  | [] => some 0
  | c :: rest => if c == 'e' || c == 'E' then withSign? (inBase? 10) rest else none

def decimal? (text : List Char) : Option Decimal :=
  let (negative, text) := match text with
    | '-' :: rest => (true, rest)
    | '+' :: rest => (false, rest)
    | _ => (false, text)
  let whole := text.takeWhile (·.isDigit)
  let (fraction, rest) := match text.dropWhile (·.isDigit) with
    | '.' :: rest => (rest.takeWhile Char.isDigit, rest.dropWhile Char.isDigit)
    | rest => ([], rest)
  if whole.isEmpty && fraction.isEmpty then none
  else
    match digits? 10 (whole ++ fraction), exponent? rest with
    | some mantissa, some exponent => some ⟨negative, mantissa, exponent - fraction.length⟩
    | _, _ => none

def underscoresDivideDigits : Char → List Char → Bool
  | _, [] => true
  | before, c :: rest =>
    (c != '_' || (before.isDigit && rest.head?.any (·.isDigit))) && underscoresDivideDigits c rest

def roundedQuotient (a b : Nat) : Nat :=
  let q := a / b
  let r := a % b
  if 2 * r < b then q else if b < 2 * r then q + 1 else q + q % 2

def floorLog2 (a b : Nat) : Int :=
  let e : Int := (a.log2 : Int) - b.log2
  if a <<< (-e).toNat < b <<< e.toNat then e - 1 else e

def wholeOfDouble (a b : Nat) : Option Nat :=
  if a = 0 then some 0
  else
    let scale := floorLog2 a b - 52
    if scale < -53 then some 0
    else
      let digits := roundedQuotient (a <<< (-scale).toNat) (b <<< scale.toNat)
      let whole := (digits <<< scale.toNat) >>> (-scale).toNat
      if whole < Nat.pow 2 1024 then some whole else none

-- No double reaches ten to the 400, and one below its inverse is zero, so larger exponents
-- need no computing.
def Decimal.whole? (d : Decimal) : Option Int :=
  let size : Int := (toString d.mantissa).length + d.exponent
  let magnitude :=
    if d.mantissa = 0 || size < -400 then some 0
    else if 400 < size then none
    else wholeOfDouble (d.mantissa * Nat.pow 10 d.exponent.toNat)
        (Nat.pow 10 (-d.exponent).toNat)
  magnitude.map fun n => if d.negative then -(n : Int) else (n : Int)

end Minilang.Yaml
