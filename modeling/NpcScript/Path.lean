/-!
# Paths

A path names a file by the segments on the way to it. Two paths that differ only in repeated
slashes, in a slash at the end, or in segments `.` behind the first one, name the same file in the
same way; a path keeps its own writing, for it is shown as it was given.
-/

namespace NpcScript

/-- A path, as it was given. -/
structure Path where
  text : String
  deriving DecidableEq, Inhabited

/-- Why a file cannot be read as a text, or not at all. -/
inductive ReadError where
  | notFound
  | isDirectory
  | notDirectory
  | notText
  deriving DecidableEq, Inhabited

/-- The wording of a failure to read. -/
def ReadError.message : ReadError → String
  | notFound => "No such file or directory (os error 2)"
  | isDirectory => "Is a directory (os error 21)"
  | notDirectory => "Not a directory (os error 20)"
  | notText => "stream did not contain valid UTF-8"

/-- What comes of reading a file. -/
abbrev Content := Except ReadError (List UInt8)

/-- The text that a file holds. -/
def Content.text : Content → Except ReadError String
  | .error cause => .error cause
  | .ok bytes =>
      match String.fromUTF8? ⟨bytes.toArray⟩ with
      | some text => .ok text
      | none => .error .notText

namespace Path

/-- What stands between the slashes of a path. -/
def segments (path : Path) : List String :=
  (path.text.toList.splitOn '/').map String.ofList

/-- A segment that leads somewhere. -/
def isStep (segment : String) : Bool := segment ≠ "" && segment ≠ "."

/-- What tells one path from another: the root if the path begins there, else its first segment, and
the segments behind it that lead somewhere. -/
def components (path : Path) : List String :=
  match path.segments with
  | [] => []
  | first :: rest =>
      let steps := rest.filter isStep
      if first ≠ "" then first :: steps
      else if rest.isEmpty then []
      else "/" :: steps

/-- The name of the file that a path leads to. -/
def fileName? (path : Path) : Option String :=
  match path.components.getLast? with
  | some name => if ["/", ".", ".."].contains name then none else some name
  | none => none

/-- What stands behind the last point of a name, if something stands before that point. -/
def ending? (name : String) : Option String :=
  let ending := (name.toList.reverse.takeWhile (· ≠ '.')).reverse
  if ending.length + 1 < name.length then some (String.ofList ending) else none

/-- The extension of the name of the file that a path leads to. -/
def extension? (path : Path) : Option String := path.fileName?.bind ending?

/-- The name that a script has by the path of its file. -/
def scriptName (path : Path) : String := path.fileName?.getD path.text

end Path
end NpcScript
