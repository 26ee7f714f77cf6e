/-!
# Folding operators

An assignment folds its operands from left to right into a working value. Each operator has a code,
which is what an instruction word holds, and a symbol, which is what a script holds.
-/

namespace NpcScript

/-- The operators of an assignment, in the order of their codes. -/
inductive Operator where
  | add
  | sub
  | and
  | mul
  | div
  | mod
  | shiftLeft
  | shiftRight
  deriving DecidableEq, Inhabited

namespace Operator

/-- All operators, in the order of their codes. -/
def all : List Operator :=
  [.add, .sub, .and, .mul, .div, .mod, .shiftLeft, .shiftRight]

/-- The number that stands for the operator in an instruction word. -/
def code (op : Operator) : UInt32 := op.ctorIdx.toUInt32

/-- The operator with the given code. -/
def ofCode? (code : UInt32) : Option Operator := all[code.toNat]?

/-- The operator as it is written in a script. -/
def symbol : Operator → String
  | .add => "+"
  | .sub => "-"
  | .and => "&"
  | .mul => "*"
  | .div => "/"
  | .mod => "%"
  | .shiftLeft => "<<"
  | .shiftRight => ">>"

/-- The operator with the given symbol. -/
def ofSymbol? (symbol : String) : Option Operator :=
  all.find? (·.symbol == symbol)

/-- Folds an operand into the accumulator. Arithmetic wraps at 32 bits, a zero divisor leaves the
accumulator as it is, and shift amounts count modulo 32. -/
def apply (op : Operator) (acc operand : Int32) : Int32 :=
  match op with
  | .add => acc + operand
  | .sub => acc - operand
  | .and => acc &&& operand
  | .mul => acc * operand
  | .div => if operand = 0 then acc else acc / operand
  | .mod => if operand = 0 then acc else acc % operand
  | .shiftLeft => acc <<< operand
  | .shiftRight => acc >>> operand

end Operator
end NpcScript
