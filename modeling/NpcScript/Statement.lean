import NpcScript.Builtin.Basic
import NpcScript.Diagnostic
import NpcScript.Instruction
import NpcScript.Variable

/-!
# Statements

A script is a sequence of lines, and each line with tokens is one statement: the call of a
built-in, an `Else`, or an assignment. A line that makes no statement is rejected with its faults.
-/

namespace NpcScript

/-- The tokens of one line; there is at least one. -/
structure Line where
  first : Token
  others : List Token
  deriving DecidableEq, Inhabited

namespace Line

/-- All tokens of a line. -/
def tokens (line : Line) : List Token := line.first :: line.others

/-- The level of indentation of a line. -/
def indent (line : Line) : Nat := line.first.indent

/-- A line, unless there is no token on it. -/
def ofTokens? : List Token → Option Line
  | [] => none
  | first :: others => some ⟨first, others⟩

/-- Groups the tokens of a script into lines. -/
def group (tokens : List Token) : List Line :=
  (tokens.splitBy fun a b => a.location.line == b.location.line).filterMap ofTokens?

end Line

/-- One step in the fold of an assignment. -/
structure Term where
  operator : Operator
  operand : Operand
  deriving DecidableEq, Inhabited

/-- What a line says. -/
inductive Statement where
  | call (builtin : Builtin)
  /-- An `Else`, which owns a block of its own. -/
  | otherwise
  | assign (target : Variable) (terms : List Term)
  deriving DecidableEq, Inhabited

/-- Why a line makes no statement. -/
structure Rejection where
  errors : List CompileError
  /-- Whether a block below the line is taken to belong to it, so that the block is no further
  fault. -/
  ownsBlock : Bool
  deriving DecidableEq, Inhabited

namespace Statement

/-- The most operands that an assignment may have. -/
def maxTerms : Nat := 255

/-- The fault of a token that can stand in no line. -/
def tokenError? (token : Token) : Option CompileError :=
  match token.kind with
  | .unknown cause =>
      let fault := match cause with
        | .malformedIdsz | .unterminatedIdsz => CompileFault.malformedIdsz token.lexeme cause
        | _ => .invalidToken token.lexeme cause
      some ⟨fault, token.location⟩
  | .name => some ⟨.unknownIdentifier token.lexeme, token.location⟩
  | _ => none

/-- A number as an index, if it is not negative. -/
def index? (n : Int32) : Option Nat :=
  if n < 0 then none else some n.toInt.toNat

/-- The built-in that a number stands for. -/
def builtin? (n : Int32) : Option Builtin :=
  (index? n).bind (Builtin.table[·]?)

/-- The slot that a number stands for, whether or not there is a variable in it. -/
def slot? (n : Int32) : Option UInt8 :=
  (index? n).bind fun i => if i < 256 then some i.toUInt8 else none

/-- A rejection for one fault, with no claim to a block. -/
def reject (fault : CompileFault) (location : Location) : Except Rejection α :=
  .error ⟨[⟨fault, location⟩], false⟩

/-- The operand that a token stands for. A number has to fit in the field of its word. -/
def operand (token : Token) : Except CompileError Operand :=
  match token.kind with
  | .var slot =>
      match slot? slot with
      | some slot => .ok (.var slot)
      | none => .error ⟨.unknownIdentifier token.lexeme, token.location⟩
  | kind =>
      if Instruction.minConstant ≤ kind.value ∧ kind.value ≤ Instruction.maxConstant then
        .ok (.constant kind.value)
      else
        .error ⟨.constantOutOfRange kind.value, token.location⟩

/-- Reads `[op] operand (op operand)*`, behind the terms already read and the faults already
found, both last first. The first operand may stand without an operator and is then added. An
operand with a fault is left out, and reading goes on; any other fault ends it. -/
def terms : List Token → List Term → List CompileError → Except (List CompileError) (List Term)
  | [], done, errors => if errors.isEmpty then .ok done.reverse else .error errors.reverse
  | token :: rest, done, errors =>
      let fail (fault : ExpressionFault) (location : Location) :=
        .error ((⟨.malformedExpression fault, location⟩ :: errors).reverse)
      match token.kind, rest with
      | .assign, _ => fail .innerAssign token.location
      | .operator op, [] => fail (.missingOperand op) token.location
      | .operator op, next :: rest =>
          if next.kind.isOperand then
            match operand next with
            | .ok operand => terms rest (⟨op, operand⟩ :: done) errors
            | .error error => terms rest done (error :: errors)
          else
            fail (.notAnOperand next.lexeme) next.location
      | kind, rest =>
          if !done.isEmpty then
            fail (.missingOperator token.lexeme) token.location
          else if kind.isOperand then
            match operand token with
            | .ok operand => terms rest [⟨.add, operand⟩] errors
            | .error error => terms rest done (error :: errors)
          else
            fail (.notAnOperand token.lexeme) token.location

/-- The operands behind the sign of an assignment. -/
def expression (assign : Token) (tokens : List Token) : Except Rejection (List Term) :=
  if tokens.isEmpty then
    reject (.malformedExpression .missingValue) assign.location
  else
    match terms tokens [] [] with
    | .error errors => .error ⟨errors, false⟩
    | .ok terms =>
        if terms.length ≤ maxTerms then .ok terms
        else reject (.tooLarge .operands) assign.location

/-- Reads a line that begins with a built-in. -/
def ofCall (first : Token) (index : Int32) (others : List Token) : Except Rejection Statement :=
  match builtin? index with
  | none => reject (.unknownIdentifier first.lexeme) first.location
  | some builtin =>
      match others with
      | extra :: _ =>
          .error ⟨[⟨.operandCount builtin.name others.length, extra.location⟩], true⟩
      | [] => if builtin.kind = .flow then .ok .otherwise else .ok (.call builtin)

/-- Reads a line that begins with a variable. -/
def ofAssignment (first : Token) (slot : Int32) (others : List Token) :
    Except Rejection Statement :=
  match (slot? slot).bind Variable.ofSlot? with
  | none => reject (.unknownIdentifier first.lexeme) first.location
  | some target =>
      match others with
      | sign :: rest =>
          if sign.kind ≠ .assign then
            reject (.malformedStatement first.lexeme) first.location
          else if !target.isWritable then
            reject (.readOnlyVariable first.lexeme) first.location
          else
            (expression sign rest).map (.assign target)
      | [] => reject (.malformedStatement first.lexeme) first.location

/-- Reads a line. -/
def ofLine (line : Line) : Except Rejection Statement :=
  let errors := line.tokens.filterMap tokenError?
  if errors.isEmpty then
    match line.first.kind with
    | .function index => ofCall line.first index line.others
    | .var slot => ofAssignment line.first slot line.others
    | _ => reject (.malformedStatement line.first.lexeme) line.first.location
  else
    .error ⟨errors, match line.first.kind with
      | .function _ | .name => true
      | _ => false⟩

end Statement
end NpcScript
