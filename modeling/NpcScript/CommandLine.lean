import NpcScript.CommandLine.Options
import NpcScript.Config
import NpcScript.Library
import NpcScript.Script.Listing
import NpcScript.Simulation
import NpcScript.Token.Listing

/-!
# The command line

The command line compiles a script, or reads a stored one, and shows, stores or tries it out as its
options say. It reads and writes files and prints through a host, so that what it does can be
followed on files in memory as well as on those of a disk.
-/

namespace NpcScript.CommandLine

/-- How the command line reaches its surroundings. -/
structure Host (m : Type → Type) where
  read : Path → m Content
  /-- Writes a file, and tells whether it could. -/
  write : Path → List UInt8 → m Bool
  print : String → m Unit

/-- Why the command line cannot do what it is asked for. -/
inductive Failure where
  | config (cause : ConfigError)
  | wrongExtension (expected : String) (file : Path)
  | unreadable (file : Path) (cause : ReadError)
  | unloadable (file : Path) (cause : LoadError)
  | unwritable (file : Path)
  deriving DecidableEq, Inhabited

namespace Failure

/-- The wording of a failure. -/
def message : Failure → String
  | config cause => cause.message
  | wrongExtension expected file =>
      "expected a ." ++ expected ++ " or ." ++ Script.storedExtension ++ " file, got " ++ file.text
  | unreadable file _ => "Failed to read '" ++ file.text ++ "'"
  | unloadable file _ => "Failed to load '" ++ file.text ++ "'"
  | unwritable file => "Failed to write '" ++ file.text ++ "'"

/-- What has led to a failure, where there is more to say about it. -/
def cause? : Failure → Option String
  | unreadable _ cause => some cause.message
  | unloadable _ cause => some cause.message
  | _ => none

end Failure

/-- How the command line ends. -/
inductive Exit where
  | success
  | failure (cause : Failure)
  /-- The arguments make no sense. -/
  | misuse
  deriving DecidableEq, Inhabited

/-- The exit code of an end. -/
def Exit.code : Exit → UInt8
  | success => 0
  | failure _ => 1
  | misuse => 2

/-- Whether a file may be a script, by its extension. -/
def isScript (config : Config) (file : Path) : Bool :=
  file.extension? = some config.scriptExtension || file.extension? = some Script.storedExtension

section

variable {m : Type → Type} [Monad m] (host : Host m)

/-- Reads the configuration, if there is one. -/
def configure (options : Options) : ExceptT Failure m Config := do
  match options.config with
  | none => return {}
  | some path =>
      match Config.ofFile path (← host.read path) with
      | .ok config => return config
      | .error cause => throw (.config cause)

/-- Shows the tokens of a script. -/
def showTokens (options : Options) (symbols : SymbolTable) : ExceptT Failure m Unit := do
  match (← host.read options.file).text with
  | .error cause => throw (.unreadable options.file cause)
  | .ok source =>
      let style : Token.Listing.Style := ⟨!options.noColor, !options.pretty⟩
      host.print (Token.Listing.render style (Lexer.tokens symbols source))

/-- Loads a script, and shows, stores and tries it out, in this order, as far as it is asked for. -/
def process (options : Options) (config : Config) : ExceptT Failure m Unit := do
  match Script.ofFile config.symbols options.file (← host.read options.file) with
  | .error cause => throw (.unloadable options.file cause)
  | .ok script =>
      if options.listing then
        host.print (Script.Listing.render script)
      if let some out := options.emit then
        unless ← host.write out script.toBytes do
          throw (.unwritable out)
      if let some ticks := options.ticks then
        host.print (Simulation.report config.machine script ticks options.entities)

/-- Does what the options say. -/
def work (options : Options) : ExceptT Failure m Unit := do
  let config ← configure host options
  if !isScript config options.file then
    throw (.wrongExtension config.scriptExtension options.file)
  if options.tokens then
    showTokens host options config.symbols
  else
    process host options config

/-- Runs the command line. -/
def run (arguments : List String) : m Exit := do
  match Request.ofArguments? arguments with
  | none => return .misuse
  | some .help =>
      host.print help
      return .success
  | some (.work options) =>
      match ← (work host options).run with
      | .ok () => return .success
      | .error cause => return .failure cause

end

end NpcScript.CommandLine
