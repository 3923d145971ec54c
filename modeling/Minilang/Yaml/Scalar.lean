import Minilang.Text.Base64
import Minilang.Yaml.Timestamp

namespace Minilang.Yaml

def nullTag : String := "!!null"

def boolTag : String := "!!bool"

def intTag : String := "!!int"

def floatTag : String := "!!float"

def timestampTag : String := "!!timestamp"

def stringTag : String := "!!str"

def binaryTag : String := "!!binary"

def sequenceTag : String := "!!seq"

def mappingTag : String := "!!map"

def mergeTag : String := "!!merge"

def standardTags : String := "tag:yaml.org,2002:"

def shortTag (tag : String) : String :=
  if tag.startsWith standardTags then "!!" ++ String.ofList (tag.toList.drop standardTags.length)
  else tag

-- Of a number with a fraction only its whole part is kept, none where it has no finite one.
inductive Scalar where
  | null
  | bool (value : Bool)
  | int (value : Int)
  | float (whole : Option Int)
  | negativeInfinity
  | timestamp
  | text (value : String)
deriving DecidableEq, Repr

namespace Scalar

def tag : Scalar → String
  | null => nullTag
  | bool _ => boolTag
  | int _ => intTag
  | float _ => floatTag
  | negativeInfinity => floatTag
  | timestamp => timestampTag
  | text _ => stringTag

end Scalar

def scalarWord (text : String) : Option Scalar :=
  if ["true", "True", "TRUE"].contains text then some (.bool true)
  else if ["false", "False", "FALSE"].contains text then some (.bool false)
  else if ["", "~", "null", "Null", "NULL"].contains text then some .null
  else if [".nan", ".NaN", ".NAN"].contains text then some (.float none)
  else if [".inf", ".Inf", ".INF", "+.inf", "+.Inf", "+.INF"].contains text then some (.float none)
  else if ["-.inf", "-.Inf", "-.INF"].contains text then some .negativeInfinity
  else none

def floatScalar? (text : List Char) : Option Scalar :=
  ((decimal? text).bind Decimal.whole?).map fun whole => .float (some whole)

def numberScalar? (text : List Char) : Option Scalar :=
  let plain := text.filter (· != '_')
  match integer? plain with
  | some value => some (.int value)
  | none =>
    match floatScalar? plain with
    | some value => some value
    | none => (lateInteger? plain).map .int

def plainScalar (timestamps : Bool) (text : String) : Scalar :=
  match scalarWord text, text.toList with
  | some value, _ => value
  | none, [] => .null
  | none, c :: rest =>
    if c == '.' then
      if underscoresDivideDigits c rest then
        (floatScalar? ((c :: rest).filter (· != '_'))).getD (.text text)
      else .text text
    else if c == '+' || c == '-' || c.isDigit then
      if timestamps && isTimestamp (c :: rest) then .timestamp
      else (numberScalar? (c :: rest)).getD (.text text)
    else .text text

def Scalar.asFloat : Scalar → Option Scalar
  | .int value =>
    if inInt64 value then
      (wholeOfDouble value.natAbs 1).map fun whole =>
        .float (some (if value < 0 then -(whole : Int) else whole))
    else none
  | _ => none

def resolve (tag text : String) : Option (String × Scalar) :=
  if tag == stringTag then some (stringTag, .text text)
  else if tag == "" then
    let value := plainScalar true text
    some (value.tag, value)
  else if [boolTag, intTag, floatTag, nullTag, timestampTag].contains tag then
    let value := plainScalar (tag == timestampTag) text
    if value.tag == tag then some (tag, value)
    else if tag == floatTag then value.asFloat.map fun value => (floatTag, value)
    else none
  else some (tag, .text text)

end Minilang.Yaml
