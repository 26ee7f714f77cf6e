import NpcScript.Compile
import NpcScript.Path
import NpcScript.Script.Bytes

/-!
# The script library

The library loads scripts from files and hands out the same script again when the same path is
loaded again, whatever has become of the file. A script that cannot be loaded is replaced by one
that does nothing, so that the entity that should run it can still live.
-/

namespace NpcScript

/-- Why a file holds no script. -/
inductive LoadError where
  | unreadable (path : Path) (cause : ReadError)
  | faulty (diagnostics : Diagnostics)
  | unfit (path : Path) (cause : PersistError)
  deriving DecidableEq, Inhabited

/-- The wording of a failure to load. -/
def LoadError.message : LoadError → String
  | unreadable path cause => "failed to read " ++ path.text ++ ": " ++ cause.message
  | faulty diagnostics => diagnostics.message
  | unfit path cause => path.text ++ ": " ++ Script.persistMessage cause

namespace Script

/-- The extension of files that hold stored scripts. -/
def storedExtension : String := "aic"

/-- The script that a file holds, as bytes or as a text by its extension. A script is named after
its file, but its faults are shown with the whole path. -/
def ofFile (symbols : SymbolTable) (path : Path) (content : Content) : Except LoadError Script :=
  if path.extension? = some storedExtension then
    match content with
    | .error cause => .error (.unreadable path cause)
    | .ok bytes => (ofBytes bytes).mapError (.unfit path)
  else
    match content.text with
    | .error cause => .error (.unreadable path cause)
    | .ok source =>
        (compileSource path.scriptName source symbols).mapError fun diagnostics =>
          .faulty { diagnostics with script := path.text }

end Script

/-- A script that has been handed out, perhaps to many. Two are the same one exactly if their
numbers are equal. -/
structure SharedScript where
  number : Nat
  script : Script
  deriving DecidableEq, Inhabited

/-- What a library has to say about a file that it loads. -/
inductive LibraryNote where
  | missingEnd (path : Path)
  | replaced (path : Path) (cause : LoadError)
  deriving DecidableEq, Inhabited

namespace LibraryNote

/-- The file that a note is about. -/
def path : LibraryNote → Path
  | missingEnd path => path
  | replaced path _ => path

/-- The wording of a note. -/
def message : LibraryNote → String
  | missingEnd _ => "script does not end with End"
  | replaced _ cause => cause.message ++ "; using the no-op script"

end LibraryNote

/-- The scripts that have been loaded. -/
structure Library where
  symbols : SymbolTable
  /-- The scripts by the components of the paths that they were loaded by. -/
  cache : List (List String × SharedScript)
  /-- The number of the script that is made next. -/
  next : Nat
  deriving Inhabited

namespace Library

/-- The script that stands in for all that cannot be loaded. -/
def noop : SharedScript := ⟨0, Script.noop "<noop>"⟩

/-- A library that has loaded nothing yet. -/
def empty (symbols : SymbolTable) : Library := ⟨symbols, [], noop.number + 1⟩

/-- The number of paths that have been loaded. -/
def size (library : Library) : Nat := library.cache.length

/-- Keeps a script for a path. -/
def keep (library : Library) (path : Path) (shared : SharedScript) : Library :=
  { library with cache := (path.components, shared) :: library.cache }

/-- Loads the script of a path whose file holds the given content, which matters only when the path
has not been loaded before. -/
def load (library : Library) (path : Path) (content : Content) :
    SharedScript × List LibraryNote × Library :=
  match library.cache.lookup path.components with
  | some shared => (shared, [], library)
  | none =>
      match Script.ofFile library.symbols path content with
      | .ok script =>
          let shared : SharedScript := ⟨library.next, script⟩
          let notes :=
            if script.flags.contains .missingEnd then [LibraryNote.missingEnd path] else []
          (shared, notes, { library with next := library.next + 1 }.keep path shared)
      | .error cause => (noop, [.replaced path cause], library.keep path noop)

/-- Forgets all scripts, so that every path is read anew. -/
def clear (library : Library) : Library := { library with cache := [] }

end Library
end NpcScript
