import NpcScript.Block
import NpcScript.Script.Basic
import NpcScript.Token.Lexer

/-!
# Compilation

A script whose outline has no faults is laid out as instruction words. A call that owns a block
carries the label of the place behind the block, where control goes when the call is skipped. An
`Else` is a jump over its own block, and the label of the block before it names the word behind the
jump.
-/

namespace NpcScript

/-- Instruction words under construction, with their labels. -/
structure Code where
  words : Array UInt32
  labels : Array UInt32
  deriving DecidableEq, Inhabited

namespace Code

/-- No words. -/
def empty : Code := ⟨#[], #[]⟩

/-- Appends an instruction. -/
def push (code : Code) (instruction : Instruction) : Code :=
  { code with words := code.words.push instruction.encode }

/-- Appends a label, whose place is not known yet. -/
def reserve (code : Code) : Code :=
  { code with labels := code.labels.push 0 }

/-- The label that is reserved next. -/
def nextLabel (code : Code) : Nat := code.labels.size

/-- Lets a label name the place behind the last word. -/
def mark (code : Code) (label : Nat) : Code :=
  { code with labels := code.labels.setIfInBounds label code.words.size.toUInt32 }

/-- Appends an assignment and its terms. -/
def assign (code : Code) (target : Variable) (terms : List Term) : Code :=
  terms.foldl (fun code term => code.push (.term term.operator term.operand))
    (code.push (.assign target.slot terms.length.toUInt8))

/-- Appends the words of a block. -/
def append (code : Code) : Block → Code
  | .done => code
  | .assign target terms rest => (code.assign target terms).append rest
  | .call builtin rest => (code.push (.call builtin.index none)).append rest
  | .guarded builtin body rest =>
      let label := code.nextLabel
      let code := code.reserve.push (.call builtin.index (some label.toUInt32))
      let code := code.append body
      (code.mark label).append rest
  | .branch builtin body alternative rest =>
      let label := code.nextLabel
      let code := code.reserve.push (.call builtin.index (some label.toUInt32))
      let code := code.append body
      let past := code.nextLabel
      let code := code.reserve.push (.jump past.toUInt32)
      let code := (code.mark label).append alternative
      (code.mark past).append rest

end Code

namespace Script

/-- The different built-ins that clauses call. -/
def calledBuiltins (clauses : List Clause) : List Builtin :=
  (clauses.filterMap fun clause =>
    match clause.statement with
    | .call builtin => some builtin
    | _ => none).eraseDups

/-- Whether the last clause at the outermost level calls `End`. -/
def endsWithEnd (clauses : List Clause) : Bool :=
  ((clauses.filter (·.level = 0)).getLast?).map (·.statement) = some (.call .endScript)

/-- Lays out the clauses of a script. -/
def ofClauses (name : String) (clauses : List Clause) : Script :=
  let code := Code.empty.append (Block.ofClauses clauses)
  { name := name
    words := code.words
    labels := code.labels
    builtinsUsed := (calledBuiltins clauses).length.toUInt16
    flags := if endsWithEnd clauses then .empty else .missingEnd }

/-- Compiles the tokens of a script. -/
def compile (name : String) (tokens : List Token) : Except Diagnostics Script :=
  let lines := Line.group tokens
  let faults := Outline.faults lines
  if faults.isEmpty then .ok (ofClauses name (lines.filterMap Clause.ofLine?))
  else .error ⟨name, faults⟩

/-- Compiles the text of a script. -/
def compileSource (name source : String) (symbols : SymbolTable) : Except Diagnostics Script :=
  compile name (Lexer.tokens symbols source)

end Script
end NpcScript
