import NpcScript.Token.Basic

/-!
# Diagnostics

What may be wrong with a script. A script is rejected as a whole with every fault that it has, in
the order of its lines.
-/

namespace NpcScript

/-- What may be wrong with the blocks of a script. -/
inductive BlockFault where
  /-- A predicate, or an `Else`, without a block. -/
  | missing (name : String)
  /-- A line more than one level deeper than the one that could own it. -/
  | tooDeep (level allowed : Nat)
  /-- An `Else` behind the block of another one. -/
  | secondElse
  /-- An `Else` that no block precedes. -/
  | strayElse
  deriving DecidableEq, Inhabited

/-- The wording of a fault in the blocks of a script. -/
def BlockFault.message : BlockFault → String
  | missing name => "'" ++ name ++ "' must be followed by an indented block"
  | tooDeep level allowed =>
      "unexpected indentation (level " ++ toString level ++ ", expected at most " ++
        toString allowed ++ ")"
  | secondElse => "'Else' cannot follow another 'Else' block"
  | strayElse => "'Else' must directly follow the end of an indented block"

/-- What may be wrong with the operands of an assignment. -/
inductive ExpressionFault where
  | missingValue
  | innerAssign
  | missingOperator (lexeme : String)
  | missingOperand (operator : Operator)
  | notAnOperand (lexeme : String)
  deriving DecidableEq, Inhabited

/-- The wording of a fault in the operands of an assignment. -/
def ExpressionFault.message : ExpressionFault → String
  | missingValue => "missing value after '='"
  | innerAssign => "'=' inside an expression"
  | missingOperator lexeme => "expected an operator before '" ++ lexeme ++ "'"
  | missingOperand operator => "expected an operand after '" ++ operator.symbol ++ "'"
  | notAnOperand lexeme => "'" ++ lexeme ++ "' cannot be used as an operand"

/-- What a script may have too many of. -/
inductive ScriptLimit where
  | blocks
  | operands
  deriving DecidableEq, Inhabited

/-- The wording of an exceeded limit. -/
def ScriptLimit.message : ScriptLimit → String
  | blocks => "too many blocks"
  | operands => "expression has more than 255 operands"

/-- What may be wrong with a script. -/
inductive CompileFault where
  | unknownIdentifier (name : String)
  | malformedIdsz (lexeme : String) (cause : LexError)
  | invalidToken (lexeme : String) (cause : LexError)
  | unbalancedBlock (fault : BlockFault)
  /-- Operands behind a built-in, none of which takes any. -/
  | operandCount (name : String) (found : Nat)
  | readOnlyVariable (name : String)
  | constantOutOfRange (value : Int32)
  | malformedExpression (fault : ExpressionFault)
  | malformedStatement (lexeme : String)
  | tooLarge (limit : ScriptLimit)
  deriving DecidableEq, Inhabited

/-- The wording of a fault. -/
def CompileFault.message : CompileFault → String
  | unknownIdentifier name => "unknown identifier '" ++ name ++ "'"
  | malformedIdsz lexeme cause =>
      "malformed IDSZ literal '" ++ lexeme ++ "': " ++ cause.message
  | invalidToken lexeme cause => "invalid token '" ++ lexeme ++ "': " ++ cause.message
  | unbalancedBlock fault => "unbalanced block: " ++ fault.message
  | operandCount name found => "'" ++ name ++ "' takes 0 operands, found " ++ toString found
  | readOnlyVariable name => "cannot assign to read-only variable '" ++ name ++ "'"
  | constantOutOfRange value => "constant " ++ toString value ++ " does not fit in 24 bits"
  | malformedExpression fault => "malformed expression: " ++ fault.message
  | malformedStatement lexeme => "malformed statement starting with '" ++ lexeme ++ "'"
  | tooLarge limit => "script too large: " ++ limit.message

/-- A fault with its place in the script. -/
structure CompileError where
  fault : CompileFault
  location : Location
  deriving DecidableEq, Inhabited

/-- The faults of a script. -/
structure Diagnostics where
  /-- The name of the script. -/
  script : String
  errors : List CompileError
  deriving DecidableEq, Inhabited

/-- All faults of a script, one on each line below a line that counts them. -/
def Diagnostics.message (d : Diagnostics) : String :=
  d.script ++ ": " ++ toString d.errors.length ++ " error(s)" ++
    String.join (d.errors.map fun e =>
      "\n  " ++ d.script ++ ":" ++ e.location.render ++ ": " ++ e.fault.message)

end NpcScript
