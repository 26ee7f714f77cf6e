import NpcScript.CommandLine

/-!
# The program

The command line on the files of a disk.
-/

namespace NpcScript.Main

/-- Why a file could not be read. -/
def readError : IO.Error → ReadError
  | .inappropriateType _ code _ => if code = 21 then .isDirectory else .notDirectory
  | _ => .notFound

/-- Reads a file. -/
def read (path : Path) : IO Content := do
  try
    return .ok (← IO.FS.readBinFile path.text).data.toList
  catch e =>
    return .error (readError e)

/-- Writes a file. -/
def write (path : Path) (bytes : List UInt8) : IO Bool := do
  try
    IO.FS.writeBinFile path.text ⟨bytes.toArray⟩
    return true
  catch _ =>
    return false

/-- The files of the disk, and the standard output. -/
def host : CommandLine.Host IO := ⟨read, write, fun text => IO.print text⟩

/-- Says on the standard error why the program has failed. -/
def explain : CommandLine.Exit → IO Unit
  | .success => return
  | .misuse => IO.eprint CommandLine.usage
  | .failure failure => do
      IO.eprintln ("Error: " ++ failure.message)
      if let some cause := failure.cause? then
        IO.eprintln ("\nCaused by:\n    " ++ cause)

end NpcScript.Main

def main (arguments : List String) : IO UInt32 := do
  let exit ← NpcScript.CommandLine.run NpcScript.Main.host arguments
  NpcScript.Main.explain exit
  return exit.code.toUInt32
