import Minilang.Text.Quoted

namespace Minilang

structure Flag where
  name : String
  isSwitch : Bool
deriving DecidableEq, Repr

inductive FlagError where
  | help
  | malformed (argument : String)
  | unknown (name : String)
  | needsValue (name : String)
  | notBoolean (name value : String)
deriving DecidableEq, Repr

namespace FlagError

def message : FlagError → String
  | help => ""
  | malformed argument => "bad flag syntax: " ++ argument ++ "\n"
  | unknown name => "flag provided but not defined: -" ++ name ++ "\n"
  | needsValue name => "flag needs an argument: -" ++ name ++ "\n"
  | notBoolean name value =>
    "invalid boolean value " ++ Text.quoted value ++ " for -" ++ name ++ ": parse error\n"

end FlagError

abbrev FlagValues := List (String × String)

namespace Flag

def boolean? (text : String) : Option Bool :=
  if ["1", "t", "T", "TRUE", "true", "True"].contains text then some true
  else if ["0", "f", "F", "FALSE", "false", "False"].contains text then some false
  else none

inductive Reading where
  | positional
  | terminator
  | malformed
  | flag (name : String) (value : Option String)
deriving DecidableEq, Repr

def named (body : List Char) : Reading :=
  match body with
  | [] => .malformed
  | first :: rest =>
    if first == '-' || first == '=' then .malformed
    else
      let name := String.ofList (first :: rest.takeWhile (· != '='))
      match rest.dropWhile (· != '=') with
      | [] => .flag name none
      | _ :: value => .flag name (some (String.ofList value))

def read (argument : String) : Reading :=
  match argument.toList with
  | '-' :: '-' :: [] => .terminator
  | '-' :: '-' :: body => named body
  | '-' :: first :: body => named (first :: body)
  | _ => .positional

-- Stops before the first argument that is no flag, or behind a terminator.
def parse (known : List Flag) (values : FlagValues) :
    List String → Except FlagError (FlagValues × List String)
  | [] => .ok (values, [])
  | argument :: rest =>
    match read argument with
    | .positional => .ok (values, argument :: rest)
    | .terminator => .ok (values, rest)
    | .malformed => .error (.malformed argument)
    | .flag name value =>
      match known.find? (·.name == name) with
      | none => .error (if name == "help" || name == "h" then .help else .unknown name)
      | some flag =>
        if flag.isSwitch then
          let text := value.getD "true"
          if (boolean? text).isSome then parse known ((name, text) :: values) rest
          else .error (.notBoolean name text)
        else
          match value with
          | some value => parse known ((name, value) :: values) rest
          | none =>
            match rest with
            | [] => .error (.needsValue name)
            | next :: after => parse known ((name, next) :: values) after

-- Each round but the last takes an argument, so the number of arguments bounds the rounds.
def parseWithin (known : List Flag) :
    Nat → FlagValues → List String → Except FlagError (FlagValues × List String)
  | 0, values, _ => .ok (values, [])
  | n + 1, values, arguments =>
    match parse known values arguments with
    | .error e => .error e
    | .ok (values, []) => .ok (values, [])
    | .ok (values, first :: rest) =>
      (parseWithin known n values rest).map fun (values, others) => (values, first :: others)

def parseAll (known : List Flag) (arguments : List String) :
    Except FlagError (FlagValues × List String) :=
  parseWithin known arguments.length.succ [] arguments

def isSet (values : FlagValues) (name : String) : Bool :=
  ((values.lookup name).bind boolean?).getD false

def value (values : FlagValues) (name : String) : String := (values.lookup name).getD ""

end Flag

end Minilang
