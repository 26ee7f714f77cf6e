import NpcScript.Alert
import NpcScript.Text
import NpcScript.Text.Blank

/-!
# Alerts as flags

A set of alerts is written as the names of its flags with bars between them. A reader may also put
hexadecimal numbers among the names, each for all flags whose bits it has.
-/

namespace NpcScript.Alerts

/-- The written form of a set. -/
def flags (alerts : Alerts) : String :=
  " | ".intercalate (alerts.kinds.map AlertKind.flagName)

/-- The word that hexadecimal digits stand for. -/
def hexDigits? (digits : List Char) : Option UInt32 :=
  let value := digits.foldlM (fun n c => do
    let n := n * 16 + (← Text.hexDigit? c)
    if n < UInt32.size then some n else none) 0
  if digits.isEmpty then none else value.map Nat.toUInt32

/-- The word that a hexadecimal number stands for, which may begin with a plus sign. -/
def hexNumber? : List Char → Option UInt32
  | '+' :: digits => hexDigits? digits
  | digits => hexDigits? digits

/-- The set that one flag stands for. -/
def ofFlag? : List Char → Option Alerts
  | '0' :: 'x' :: number => (hexNumber? number).map Alerts.mk
  | name => (AlertKind.all.find? (·.flagName == String.ofList name)).map single

/-- The set with a written form. Blanks around flags do not count. -/
def ofFlags? (text : String) : Option Alerts :=
  if (Text.trim text.toList).isEmpty then some empty
  else do
    let sets ← (text.toList.splitOn '|').mapM fun flag => ofFlag? (Text.trim flag)
    return sets.foldl union empty

end NpcScript.Alerts
