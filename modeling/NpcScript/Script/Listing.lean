import NpcScript.Builtin.Basic
import NpcScript.Idsz
import NpcScript.Script.Basic
import NpcScript.Variable

/-!
# Script listings

A listing shows a compiled script word by word, with the labels above the words that they name.
-/

namespace NpcScript.Script.Listing

/-- The rule above and below the head of a listing. -/
def rule : String := "".pushn '═' 40

/-- A label as it is shown. -/
def label (label : Nat) : String := "L" ++ toString label

/-- The labels that name each offset of a script, up to the end of the script. -/
def marks (script : Script) : Array (List Nat) :=
  script.labels.toList.zipIdx.foldr
    (fun (target, label) marks => marks.modify target.toNat (label :: ·))
    (Array.replicate (script.words.size + 1) [])

/-- Labels in a row. -/
def labels (labels : List Nat) : String :=
  " ".intercalate (labels.map label)

/-- The names of the flags that a script has. -/
def flagNames (flags : Flags) : String :=
  " | ".intercalate ((Flags.named.filter fun (flag, _) => flags.contains flag).map (·.2))

/-- A label with the place that it names. -/
def target (script : Script) (label : UInt32) : String :=
  "L" ++ toString label.toNat ++
    match script.labelOffset? label with
    | some offset => " (→ " ++ Text.decimal 4 offset ++ ")"
    | none => " (undefined)"

/-- The name of the variable in a slot. -/
def variableName (slot : UInt8) : String :=
  match Variable.ofSlot? slot with
  | some v => v.name
  | none => "<slot " ++ toString slot.toNat ++ ">"

/-- The name of the built-in with an index. -/
def builtinName (index : UInt16) : String :=
  match Builtin.ofIndex? index with
  | some builtin => builtin.name
  | none => "<builtin " ++ toString index.toNat ++ ">"

/-- Whether a number is large enough to be taken for a four-letter tag. -/
def isTagLike (value : Int32) : Bool := 0x8000 ≤ value && value < 0x100000

/-- An operand, with its letters if it may be a four-letter tag. -/
def operand : Operand → String
  | .var slot => variableName slot
  | .constant value =>
      toString value ++
        if isTagLike value then " ; " ++ (Idsz.mk value.toUInt32).render else ""

/-- An instruction. -/
def instruction (script : Script) : Instruction → String
  | .call builtin none => "CALL        " ++ builtinName builtin
  | .call builtin (some label) =>
      "CALL        " ++ Text.padRight 20 (builtinName builtin) ++ " ; else " ++
        target script label
  | .jump label => "JUMP        " ++ target script label
  | .assign slot terms =>
      "SET         " ++ Text.padRight 20 (variableName slot) ++ " ; " ++ toString terms.toNat ++
        " operands"
  | .term op value =>
      "  " ++ Text.padRight 2 op.symbol ++ "        " ++ operand value

/-- A word. -/
def word (script : Script) (word : UInt32) : String :=
  match Instruction.decode word with
  | .ok decoded => instruction script decoded
  | .error error => "??          0x" ++ Text.hex 8 word.toNat ++ " ; " ++ error.message

/-- The lines of one word, below the labels that name it. -/
def wordLines (script : Script) (marked : List Nat) (offset : Nat) (word : UInt32) : String :=
  (if marked.isEmpty then ""
    else "      ┌────────────────────────────── " ++ labels marked ++ "\n") ++
    Text.decimal 4 offset ++ " " ++ (if marked.isEmpty then "  " else "► ") ++
    Listing.word script word ++ "\n"

/-- The labels that name the end of the script. -/
def endLine (marked : List Nat) : String :=
  if marked.isEmpty then ""
  else "      └────────────────────────────── " ++ labels marked ++ " (end)\n"

/-- The lines above the words. -/
def head (script : Script) : String :=
  rule ++ "\n " ++ script.name ++ "\n " ++ toString script.words.size ++ " words, " ++
    toString script.labels.size ++ " labels, " ++ toString script.builtinsUsed.toNat ++
    " built-ins\n" ++
    (if script.flags = .empty then "" else " flags: " ++ flagNames script.flags ++ "\n") ++
    rule ++ "\n"

/-- The listing of a script. -/
def render (script : Script) : String :=
  let marks := marks script
  head script ++
    String.join (script.words.toList.zipIdx.map fun (word, offset) =>
      wordLines script (marks.getD offset []) offset word) ++
    endLine (marks.getD script.words.size [])

end NpcScript.Script.Listing
