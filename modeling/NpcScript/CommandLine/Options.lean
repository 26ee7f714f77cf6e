import NpcScript.Path

/-!
# Options of the command line

The command line names one script and says what to do with it. An option that takes a value has it
behind an equals sign or as the next argument. Nothing may be given twice, and behind `--` every
argument is the name of a script.
-/

namespace NpcScript.CommandLine

/-- What to do with a script. -/
structure Options where
  file : Path
  /-- Show the tokens of the script and do nothing else. -/
  tokens : Bool
  /-- Show tokens without colors. -/
  noColor : Bool
  /-- Show of a token only what a reader needs. -/
  pretty : Bool
  /-- Show the listing of the compiled script. -/
  listing : Bool
  /-- Try the script out for that many ticks. -/
  ticks : Option Nat
  /-- Try it out with that many entities. -/
  entities : Nat
  /-- Where to store the compiled script. -/
  emit : Option Path
  config : Option Path
  deriving Inhabited

/-- What is asked for. -/
inductive Request where
  | help
  | work (options : Options)
  deriving Inhabited

/-- What the arguments read so far have set. -/
structure Given where
  file : Option Path := none
  tokens : Bool := false
  noColor : Bool := false
  pretty : Bool := false
  listing : Bool := false
  ticks : Option Nat := none
  entities : Option Nat := none
  emit : Option Path := none
  config : Option Path := none

/-- Sets what has not been set before. -/
def once (old : Option α) (new : Option α) : Option (Option α) :=
  if old.isSome || new.isNone then none else some new

/-- The path of an argument, which must not be empty. -/
def path? (text : String) : Option Path :=
  if text = "" then none else some ⟨text⟩

/-- The number that decimal digits stand for. -/
def digits? (cs : List Char) : Option Nat :=
  if cs.isEmpty || !cs.all Char.isDigit then none
  else some (cs.foldl (fun n c => 10 * n + (c.toNat - '0'.toNat)) 0)

/-- The number of an argument, which may have a sign and must fit into 32 bits without one. -/
def number? (text : String) : Option Nat := do
  let n ← match text.toList with
    | '+' :: cs => digits? cs
    | '-' :: cs => (digits? cs).filter (· = 0)
    | cs => digits? cs
  if n < UInt32.size then some n else none

namespace Given

/-- Sets the script. -/
def setFile? (given : Given) (text : String) : Option Given := do
  return { given with file := ← once given.file (path? text) }

/-- Whether an option takes a value. -/
def takesValue (name : String) : Bool := ["run", "entities", "emit", "config"].contains name

/-- Sets an option that takes a value. -/
def setValue? (given : Given) (name value : String) : Option Given :=
  match name with
  | "run" => do return { given with ticks := ← once given.ticks (number? value) }
  | "entities" => do return { given with entities := ← once given.entities (number? value) }
  | "emit" => do return { given with emit := ← once given.emit (path? value) }
  | "config" => do return { given with config := ← once given.config (path? value) }
  | _ => none

/-- Sets an option that takes no value. -/
def setFlag? (given : Given) (name : String) : Option Given :=
  match name with
  | "tokens" => if given.tokens then none else some { given with tokens := true }
  | "no-color" => if given.noColor then none else some { given with noColor := true }
  | "pretty" => if given.pretty then none else some { given with pretty := true }
  | "bc" => if given.listing then none else some { given with listing := true }
  | _ => none

/-- What the arguments come to. There has to be a script, and the options that say how tokens are
shown make sense only if tokens are. -/
def finish? (given : Given) : Option Request :=
  match given.file with
  | none => none
  | some file =>
      if (given.noColor || given.pretty) && !given.tokens then none
      else
        some (.work {
          file := file
          tokens := given.tokens
          noColor := given.noColor
          pretty := given.pretty
          listing := given.listing
          ticks := given.ticks
          entities := given.entities.getD 1
          emit := given.emit
          config := given.config })

end Given

/-- The form of an argument. -/
inductive Argument where
  | plain (text : String)
  /-- Two dashes alone. -/
  | separator
  /-- A name behind two dashes, perhaps with a value. -/
  | long (name : String) (value : Option String)
  /-- Letters behind one dash. -/
  | short (letters : List Char)
  deriving Inhabited

/-- Recognises the form of an argument. A dash alone is plain. -/
def Argument.ofString (text : String) : Argument :=
  match text.toList with
  | ['-', '-'] => .separator
  | '-' :: '-' :: cs =>
      .long (String.ofList (cs.takeWhile (· ≠ '=')))
        ((cs.dropWhile (· ≠ '=')).tail?.map String.ofList)
  | ['-'] => .plain text
  | '-' :: letters => .short letters
  | _ => .plain text

/-- Reads arguments, all of which name scripts. -/
def readFiles (given : Given) : List String → Option Request
  | [] => given.finish?
  | text :: rest => (given.setFile? text).bind fun given => readFiles given rest

/-- Reads arguments. -/
def readArguments (given : Given) : List String → Option Request
  | [] => given.finish?
  | text :: rest =>
      match Argument.ofString text with
      | .separator => readFiles given rest
      | .plain text => (given.setFile? text).bind fun given => readArguments given rest
      | .short letters => if letters.head? = some 'h' then some .help else none
      | .long name (some value) =>
          (given.setValue? name value).bind fun given => readArguments given rest
      | .long name none =>
          if name = "help" then some .help
          else if Given.takesValue name then
            match rest with
            | [] => none
            | value :: rest =>
                match Argument.ofString value with
                | .plain value =>
                    (given.setValue? name value).bind fun given => readArguments given rest
                | _ => none
          else (given.setFlag? name).bind fun given => readArguments given rest

/-- What arguments ask for, if they make sense. -/
def Request.ofArguments? (arguments : List String) : Option Request :=
  readArguments {} arguments

/-- How the command line is used. -/
def usage : String :=
  "Usage: npcscript [OPTIONS] <FILE>\n"

/-- The help text. -/
def help : String :=
  "Compile, inspect and run NPC AI scripts\n\n" ++ usage ++ "\n" ++
  "Arguments:\n" ++
  "  <FILE>  Script source, or a persisted `.aic` script\n\n" ++
  "Options:\n" ++
  "      --tokens               Show tokens only\n" ++
  "      --no-color             Plain token listing without ANSI colors\n" ++
  "      --pretty               Compact token listing\n" ++
  "      --bc                   Print the disassembled bytecode\n" ++
  "      --run <TICKS>          Run the script in a sandbox world for this many ticks\n" ++
  "      --entities <ENTITIES>  Number of sandbox entities running the script [default: 1]\n" ++
  "      --emit <OUT>           Write the compiled script in persisted form\n" ++
  "      --config <FILE>        JSON configuration file\n" ++
  "  -h, --help                 Print help\n"

end NpcScript.CommandLine
