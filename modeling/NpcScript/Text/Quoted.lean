import NpcScript.Text
import NpcScript.Text.Invisible

/-!
# Quoted text

A text between double quotes, in which every character can be told from its neighbours: quotes,
backslashes and invisible characters are written with a backslash.
-/

namespace NpcScript.Text

/-- A character as it stands within a quoted text. -/
def quotedChar (c : Char) : String :=
  if c = '"' then "\\\""
  else if c = '\\' then "\\\\"
  else if c = '\t' then "\\t"
  else if c = '\r' then "\\r"
  else if c = '\n' then "\\n"
  else if c.toNat = 0 then "\\0"
  else if isInvisible c then "\\u\x7b" ++ hex 1 c.toNat ++ "\x7d"
  else c.toString

/-- A text between double quotes. -/
def quote (s : String) : String :=
  "\"" ++ String.join (s.toList.map quotedChar) ++ "\""

end NpcScript.Text
