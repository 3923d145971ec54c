import Minilang.CommandLine.Basic

namespace Minilang

def errorNumber (code : UInt32) : UInt32 := if code < 0x80000000 then code else -code

def refusal (e : IO.Error) : SystemError :=
  match e with
  | .noFileOrDirectory _ _ _ => .notFound
  | .inappropriateType _ code _ =>
    if errorNumber code == 21 then .isDirectory else .notDirectory
  | .invalidArgument _ code _ =>
    if errorNumber code == 36 then .nameTooLong else .invalidArgument
  | .permissionDenied _ _ _ => .other "permission denied"
  | other => .other (toString other)

def attempt {α : Type} (action : IO α) : IO (Except SystemError α) := do
  try
    return .ok (← action)
  catch e => return .error (refusal e)

def realFiles : IO (Files IO) := do
  let here ← IO.currentDir
  let kind (path : String) : IO (Except SystemError FileKind) := do
    if path = "" then return .error .notFound
    attempt do
      match (← (here / path).metadata).type with
      | .dir => return .directory
      | _ => return .regular
  return {
    workingDirectory := here.toString
    kind := kind
    contents := fun path => do
      match ← kind path with
      | .error cause => return .error cause
      | .ok .directory => return .error .isDirectory
      | .ok .regular => attempt do return (← IO.FS.readBinFile (here / path)).toList
    names := fun path => do
      match ← attempt (here / path).readDir with
      | .ok entries => return entries.toList.map (·.fileName)
      | .error _ => return [] }

def loopBound : Nat := Nat.pow 2 62

end Minilang

def main (arguments : List String) : IO UInt32 := do
  let files ← Minilang.realFiles
  match ← Minilang.CommandLine.perform files Minilang.loopBound arguments with
  | none => return 1
  | some outcome =>
    IO.eprint outcome.stderr
    IO.print outcome.stdout
    return outcome.code.toUInt32
