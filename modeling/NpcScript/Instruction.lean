import NpcScript.Operator
import NpcScript.Text

/-!
# Instruction words

A compiled script is a sequence of 32-bit words, each of which holds one instruction. The top four
bits are a tag; the other fields depend on it:

* call: the index of a built-in in bits 0 to 11, one more than the label of the block that the
  call owns in bits 12 to 27, zero there for a call without a block;
* jump: a label in bits 0 to 27;
* assignment: a variable slot in bits 0 to 7, the number of its terms in bits 8 to 15;
* variable term: a slot in bits 0 to 7, an operator code in bits 24 to 27;
* constant term: a signed number in bits 0 to 23, an operator code in bits 24 to 27.

`Instruction.encode` writes a word and `Instruction.decode` reads one.
-/

namespace NpcScript

/-- What a term of an assignment contributes: the value of a variable or a number. -/
inductive Operand where
  | var (slot : UInt8)
  | constant (value : Int32)
  deriving DecidableEq, Inhabited

/-- One decoded instruction word. -/
inductive Instruction where
  /-- Dispatch a built-in. When it is skipped, control goes to the label, if there is one. -/
  | call (builtin : UInt16) (label : Option UInt32)
  /-- Control goes to the label. -/
  | jump (label : UInt32)
  /-- The next `terms` words are folded from zero, and the result is stored in the slot. -/
  | assign (slot : UInt8) (terms : UInt8)
  /-- One step of the fold of the assignment before it. -/
  | term (operator : Operator) (operand : Operand)
  deriving DecidableEq, Inhabited

/-- Why a word holds no instruction. -/
inductive DecodeError where
  | unknownTag (word tag : UInt32)
  | unknownOperator (word code : UInt32)
  deriving DecidableEq, Inhabited

namespace DecodeError

/-- The wording of a decoding error. -/
def message : DecodeError → String
  | unknownTag word tag =>
      "unknown tag 0x" ++ Text.hex 1 tag.toNat ++ " in word 0x" ++ Text.hex 8 word.toNat
  | unknownOperator word code =>
      "unknown operator " ++ toString code.toNat ++ " in word 0x" ++ Text.hex 8 word.toNat

end DecodeError

namespace Instruction

/-- The highest built-in index that a call can hold. -/
def maxBuiltin : UInt16 := 0x0FFF

/-- The highest label that a call can hold. -/
def maxCallLabel : UInt32 := 0xFFFE

/-- The highest label that a jump can hold. -/
def maxJumpLabel : UInt32 := 0x0FFFFFFF

/-- The least number that a constant term can hold. -/
def minConstant : Int32 := -0x800000

/-- The greatest number that a constant term can hold. -/
def maxConstant : Int32 := 0x7FFFFF

/-- The label field of a call: one more than the label, and zero for none. -/
def labelField : Option UInt32 → UInt32
  | none => 0
  | some label => (label + 1) &&& 0xFFFF

/-- Packs an instruction into a word; each field keeps only the bits that it has room for. -/
def encode : Instruction → UInt32
  | call builtin label =>
      (0x10000000 : UInt32) ||| (labelField label <<< 12) ||| (builtin &&& maxBuiltin).toUInt32
  | jump label => (0x20000000 : UInt32) ||| (label &&& maxJumpLabel)
  | assign slot terms => (0x30000000 : UInt32) ||| (terms.toUInt32 <<< 8) ||| slot.toUInt32
  | term operator (.var slot) =>
      (0x40000000 : UInt32) ||| (operator.code <<< 24) ||| slot.toUInt32
  | term operator (.constant value) =>
      (0x50000000 : UInt32) ||| (operator.code <<< 24) ||| (value.toUInt32 &&& 0x00FFFFFF)

/-- The operator field of a term. -/
def decodeOperator (word : UInt32) : Except DecodeError Operator :=
  let code := (word >>> 24) &&& 0xF
  match Operator.ofCode? code with
  | some operator => .ok operator
  | none => .error (.unknownOperator word code)

/-- The label that a call's label field stands for. -/
def decodeLabel (field : UInt32) : Option UInt32 :=
  if field = 0 then none else some (field - 1)

/-- The low 24 bits of a word as a signed number. -/
def decodeConstant (word : UInt32) : Int32 :=
  (word <<< 8).toInt32 >>> 8

/-- Reads the instruction in a word; bits outside the fields are ignored. -/
def decode (word : UInt32) : Except DecodeError Instruction :=
  let tag := word >>> 28
  if tag = 1 then
    .ok (call (word &&& 0xFFF).toUInt16 (decodeLabel ((word >>> 12) &&& 0xFFFF)))
  else if tag = 2 then
    .ok (jump (word &&& maxJumpLabel))
  else if tag = 3 then
    .ok (assign (word &&& 0xFF).toUInt8 ((word >>> 8) &&& 0xFF).toUInt8)
  else if tag = 4 then
    (decodeOperator word).map fun operator => term operator (.var (word &&& 0xFF).toUInt8)
  else if tag = 5 then
    (decodeOperator word).map fun operator => term operator (.constant (decodeConstant word))
  else
    .error (.unknownTag word tag)

/-- Terms belong to the assignment before them and are never carried out on their own. -/
def isTerm : Instruction → Bool
  | term _ _ => true
  | _ => false

end Instruction
end NpcScript
