import NpcScript.Operator

/-!
# Tokens

A token is one lexeme of a script: what it is, where it stands and how it is written. A lexeme that
makes no sense is a token too, of kind `unknown`, which carries the reason.
-/

namespace NpcScript

/-- Why a lexeme makes no sense. -/
inductive LexError where
  | unexpectedCharacter
  | malformedIdsz
  | unterminatedIdsz
  | numberOverflow
  | emptyReference
  deriving DecidableEq, Inhabited

namespace LexError

/-- The wording of a lexical error. -/
def message : LexError → String
  | unexpectedCharacter => "unexpected character"
  | malformedIdsz => "IDSZ literal must be exactly 4 characters"
  | unterminatedIdsz => "unterminated IDSZ literal"
  | numberOverflow => "numeric literal does not fit in 32 bits"
  | emptyReference => "reference is missing a name after '@'"

end LexError

/-- A place in a script: its line and column, both counted from one. -/
structure Location where
  line : Nat
  column : Nat
  deriving DecidableEq, Inhabited

/-- A place as it is shown. -/
def Location.render (place : Location) : String :=
  toString place.line ++ ":" ++ toString place.column

/-- What a lexeme is, together with the value that it has. -/
inductive TokenKind where
  /-- The name of a built-in operation, with its index. -/
  | function (index : Int32)
  /-- The name of a variable, with its slot. -/
  | var (slot : Int32)
  /-- The name of a constant. -/
  | constant (value : Int32)
  /-- A name without a meaning. -/
  | name
  /-- A four-letter tag. -/
  | idsz (value : Int32)
  /-- A numeral. -/
  | number (value : Int32)
  /-- A reference to a kind of alert, with the number of its bit. -/
  | reference (bit : Int32)
  /-- The sign between the target and the operands of an assignment. -/
  | assign
  | operator (operator : Operator)
  /-- A lexeme that makes no sense. -/
  | unknown (cause : LexError)
  deriving DecidableEq, Inhabited

namespace TokenKind

/-- The number that a token carries; zero where it carries none. -/
def value : TokenKind → Int32
  | function value | var value | constant value | idsz value | number value
  | reference value => value
  | name | assign | operator _ | unknown _ => 0

/-- What kind of lexeme it is, in words. -/
def description : TokenKind → String
  | function _ => "function"
  | var _ => "variable"
  | constant _ => "constant"
  | name => "name"
  | idsz _ => "idsz"
  | number _ => "numeric literal"
  | reference _ => "reference"
  | assign => "assign"
  | operator .add => "plus"
  | operator .sub => "minus"
  | operator .and => "and"
  | operator .mul => "multiply"
  | operator .div => "divide"
  | operator .mod => "modulus"
  | operator .shiftLeft => "shift left"
  | operator .shiftRight => "shift right"
  | unknown _ => "unknown"

/-- Why the lexeme makes no sense, if it does not. -/
def error? : TokenKind → Option LexError
  | unknown cause => some cause
  | _ => none

/-- The operators and the sign of assignment. -/
def isOperator : TokenKind → Bool
  | assign | operator _ => true
  | _ => false

/-- What may stand as an operand of an assignment. -/
def isOperand : TokenKind → Bool
  | constant _ | var _ | number _ | idsz _ | reference _ => true
  | _ => false

end TokenKind

/-- One lexeme of a script. -/
structure Token where
  kind : TokenKind
  /-- Where its first character stands. -/
  location : Location
  /-- The level of indentation of its line. -/
  indent : Nat
  /-- How it is written. -/
  lexeme : String
  deriving DecidableEq, Inhabited

/-- The deepest level of indentation that is told apart. -/
def maxIndent : Nat := 255

end NpcScript
