import NpcScript.Json.Reader
import NpcScript.Machine
import NpcScript.Path
import NpcScript.Symbol

/-!
# Configuration

A configuration file says how scripts are run, which constants they may use besides the standard
ones, and which extension the files of their texts have. Whatever it does not say has a value of its
own.
-/

namespace NpcScript

/-- How scripts are found, compiled and run. -/
structure Config where
  machine : Machine := {}
  /-- Named constants, in the order of their names. -/
  constants : List (String × Int32) := []
  scriptExtension : String := "txt"

/-- Why there is no configuration. -/
inductive ConfigError where
  | unreadable (path : Path)
  | malformed (path : Path)
  deriving DecidableEq, Inhabited

/-- The wording of a failure to configure. -/
def ConfigError.message : ConfigError → String
  | unreadable path => "Failed to read config file " ++ path.text
  | malformed path => "Failed to parse config file " ++ path.text

namespace Config

open Json

/-- Reads how scripts are run. -/
def machineOfValue? (value : Value) : Option Machine := do
  let fields ← Fields.ofValue? ["instruction_ceiling", "record_calls"] 0 value
  let standard : Machine := {}
  return {
    ceiling := ← fields.getD? "instruction_ceiling" Value.count? standard.ceiling
    recordsCalls := ← fields.getD? "record_calls" Value.bool? standard.recordsCalls }

/-- Of entries with the same name that stand side by side, the last. -/
def lastOfEach : List (String × Int32) → List (String × Int32)
  | [] => []
  | [entry] => [entry]
  | entry :: next :: rest =>
      if entry.1 = next.1 then lastOfEach (next :: rest) else entry :: lastOfEach (next :: rest)

/-- Reads constants. A name that is given again has the value that is given last. -/
def constantsOfValue? : Value → Option (List (String × Int32))
  | .object members => do
      let entries ← members.mapM fun (name, value) => do
        return (← Piece.decode? name, ← value.int32?)
      return lastOfEach (entries.mergeSort fun a b => a.1 ≤ b.1)
  | _ => none

/-- Reads a configuration. -/
def ofValue? (value : Value) : Option Config := do
  let fields ← Fields.ofValue? ["vm", "constants", "script_extension"] 0 value
  let standard : Config := {}
  return {
    machine := ← fields.getD? "vm" machineOfValue? standard.machine
    constants := ← fields.getD? "constants" constantsOfValue? standard.constants
    scriptExtension :=
      ← fields.getD? "script_extension" Value.text? standard.scriptExtension }

/-- Reads a configuration file. -/
def ofFile (path : Path) : Content → Except ConfigError Config
  | .error _ => .error (.unreadable path)
  | .ok bytes =>
      match (Value.ofBytes? bytes).bind ofValue? with
      | some config => .ok config
      | none => .error (.malformed path)

/-- The names that scripts may use. -/
def symbols (config : Config) : SymbolTable :=
  SymbolTable.standard.defineConstants config.constants

/-- The constants whose names have another meaning already, which they keep. -/
def shadowing (config : Config) : List String :=
  (config.constants.map (·.1)).filter fun name => (SymbolTable.standard.resolve? name).isSome

/-- The wording of the warning about such a constant. -/
def shadowingMessage : String := "constant shadows a built-in name and was ignored"

end Config
end NpcScript
