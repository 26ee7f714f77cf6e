import NpcScript.Instruction

/-!
# Compiled scripts

A compiled script is a sequence of instruction words and a table of labels, each of which names a
place among the words. It is shared by all entities that run it and never changes.
-/

namespace NpcScript

namespace Script

/-- What is remarkable about a script: a set of bits, of which two have a meaning. -/
structure Flags where
  bits : UInt8
  deriving DecidableEq, Inhabited

namespace Flags

/-- Nothing is remarkable. -/
def empty : Flags := ⟨0⟩

/-- The script stands in for one that could not be loaded. -/
def noopFallback : Flags := ⟨1⟩

/-- The last line at the outermost level does not call `End`. -/
def missingEnd : Flags := ⟨2⟩

/-- Whether all bits of `b` are in `a`. -/
def contains (a b : Flags) : Bool := a.bits &&& b.bits == b.bits

/-- The flags with a meaning, with their names. -/
def named : List (Flags × String) :=
  [(noopFallback, "NOOP_FALLBACK"), (missingEnd, "MISSING_END")]

end Flags
end Script

/-- A compiled script. -/
structure Script where
  name : String
  words : Array UInt32
  /-- The offset of the word that each label names. The offset behind the last word ends the
  run. -/
  labels : Array UInt32
  /-- How many different built-ins the script calls. -/
  builtinsUsed : UInt16
  flags : Script.Flags
  deriving DecidableEq, Inhabited

namespace Script

/-- The script that does nothing, for entities whose own script could not be loaded. -/
def noop (name : String) : Script := ⟨name, #[], #[], 0, .noopFallback⟩

/-- Whether the script stands in for another one. -/
def isNoop (script : Script) : Bool := script.flags.contains .noopFallback

/-- Whether there is nothing to run. -/
def isEmpty (script : Script) : Bool := script.words.isEmpty

/-- The offset that a label names. -/
def labelOffset? (script : Script) (label : UInt32) : Option Nat :=
  (script.labels[label.toNat]?).map (·.toNat)

end Script
end NpcScript
