/-!
# Writing JSON

Arrays and objects are put together from the texts of their parts, without blanks.
-/

namespace NpcScript.Json

/-- An array of the given items. -/
def writeArray (items : List String) : String :=
  "[" ++ ",".intercalate items ++ "]"

/-- A text in which nothing has to be escaped. -/
def writePlain (s : String) : String :=
  "\"" ++ s ++ "\""

/-- An object of the given members, whose names are plain. -/
def writeObject (members : List (String × String)) : String :=
  "\x7b" ++ ",".intercalate (members.map fun (name, value) => writePlain name ++ ":" ++ value) ++
    "\x7d"

/-- The given value, or null. -/
def writeOption (write : α → String) : Option α → String
  | some value => write value
  | none => "null"

end NpcScript.Json
