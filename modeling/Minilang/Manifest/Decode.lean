import Minilang.Manifest.Basic
import Minilang.Yaml.Decode

namespace Minilang.Manifest

open Yaml Yaml.Decode

def patternItems : List Node → Decode (Option (List String))
  | [] => return some []
  | node :: rest => do
    let (value, complaints) ← alone node (string "")
    if complaints.isEmpty then
      let text := Text.trim (value.getD "")
      match ← patternItems rest with
      | some items => return some (if text = "" then items else text :: items)
      | none => return none
    else
      modify fun d => { d with complaints := d.complaints ++ complaints.toArray }
      return none

def patterns : Decoder (List String) :=
  fun _ node => do
    if node.tag == nullTag then
      return (← list "driver.stringList" "" string none node).map (·.getD [])
    match node with
    | .scalar _ _ text =>
      let text := Text.trim text
      return some (if text = "" then [] else [text])
    | .sequence _ _ nodes => patternItems nodes
    | _ =>
      throw (.refused
        ("manifest: expected string or sequence for list but found " ++ node.tag))

def fields : List (RecordField ManifestFields) :=
  [field "name" (·.name) (fun raw value => { raw with name := value }) string,
    field "main" (·.main) (fun raw value => { raw with main := value }) string,
    field "undefined" (·.undefined) (fun raw value => { raw with undefined := value }) string,
    field "fixtures" (·.fixtures) (fun raw value => { raw with fixtures := value }) patterns]

def ofBytes (path : String) (bytes : List UInt8) : Except Failure Manifest :=
  match decode {} (record "driver.manifestFile" fields) bytes with
  | .error e => .error (.context ("manifest: parse " ++ path) (.plain e.message))
  | .ok none => .error (.plain ("manifest: " ++ path ++ " is empty"))
  | .ok (some raw) => (ofFields path raw).checked

end Minilang.Manifest
