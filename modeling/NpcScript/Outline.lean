import NpcScript.Statement

/-!
# Block structure

Blocks are marked by indentation alone. A call owns the lines below it that are one level deeper,
and so does an `Else`, which follows the block of a call. A predicate and an `Else` must own a
block. An outline walks over the lines of a script, keeps track of the blocks that are open, and
gathers the faults of lines and blocks.
-/

namespace NpcScript

/-- What a block belongs to. -/
inductive BlockRole where
  /-- To a call. -/
  | main
  /-- To an `Else`. -/
  | alternative
  deriving DecidableEq, Inhabited

/-- What the most recent line is, if it may own the block below it. -/
inductive OpenerRole where
  | call (builtin : Builtin)
  | otherwise
  /-- A line with a fault. -/
  | rejected
  deriving DecidableEq, Inhabited

/-- The most recent line, if it may own the block below it. -/
structure Opener where
  indent : Nat
  location : Location
  name : String
  role : OpenerRole
  deriving DecidableEq, Inhabited

namespace Opener

/-- Predicates and `Else` must own a block. -/
def requiresBlock (opener : Opener) : Bool :=
  match opener.role with
  | .call builtin => builtin.kind = .predicate
  | .otherwise => true
  | .rejected => false

/-- The level of the lines that a line of the given level owns. -/
def ownedLevel (indent : Nat) : Nat := min maxIndent (indent + 1)

end Opener

/-- The state of the walk over the lines of a script. -/
structure Outline where
  /-- The blocks that are open, the innermost first. -/
  blocks : List BlockRole
  opener : Option Opener
  /-- How many blocks have been given a label. -/
  labels : Nat
  /-- The faults found so far, the last first. -/
  errors : List CompileError
  deriving DecidableEq, Inhabited

namespace Outline

/-- No line has been read. -/
def empty : Outline := ⟨[], none, 0, []⟩

/-- The number of open blocks. -/
def depth (o : Outline) : Nat := o.blocks.length

/-- Notes a fault. -/
def error (o : Outline) (fault : CompileFault) (location : Location) : Outline :=
  { o with errors := ⟨fault, location⟩ :: o.errors }

/-- The number of blocks whose labels a call can hold. -/
def maxLabels : Nat := Instruction.maxCallLabel.toNat + 1

/-- Gives a block its label. -/
def reserveLabel (o : Outline) (location : Location) : Outline :=
  let o := if o.labels = maxLabels then o.error (.tooLarge .blocks) location else o
  { o with labels := o.labels + 1 }

/-- Opens the block of a line. The label of an `Else` is given out on its own line, before its
block. -/
def openBlock (o : Outline) (opener : Opener) : Outline :=
  match opener.role with
  | .otherwise => { o with blocks := .alternative :: o.blocks }
  | _ =>
      let o := o.reserveLabel opener.location
      { o with blocks := .main :: o.blocks }

/-- Decides what becomes of the most recent line when a line of the given level follows it. -/
def settle (o : Outline) (indent : Nat) : Outline :=
  match o.opener with
  | none => o
  | some opener =>
      let o := { o with opener := none }
      if indent = Opener.ownedLevel opener.indent then o.openBlock opener
      else if opener.requiresBlock then
        o.error (.unbalancedBlock (.missing opener.name)) opener.location
      else o

/-- Closes the blocks deeper than a level. -/
def close (o : Outline) (level : Nat) : Outline :=
  { o with blocks := o.blocks.drop (o.depth - level) }

/-- The outermost of the blocks deeper than a level. -/
def closing? (o : Outline) (level : Nat) : Option BlockRole :=
  (o.blocks.take (o.depth - level)).getLast?

/-- Makes the line the one that may own the block below it. -/
def await (o : Outline) (line : Line) (name : String) (role : OpenerRole) : Outline :=
  { o with opener := some ⟨line.indent, line.first.location, name, role⟩ }

/-- Reads an `Else`, which has to end a block of a call. -/
def otherwise (o : Outline) (line : Line) (closed : Option BlockRole) : Outline :=
  match closed with
  | some .main =>
      (o.reserveLabel line.first.location).await line line.first.lexeme .otherwise
  | some .alternative =>
      (o.error (.unbalancedBlock .secondElse) line.first.location).await line
        line.first.lexeme .rejected
  | none =>
      (o.error (.unbalancedBlock .strayElse) line.first.location).await line
        line.first.lexeme .rejected

/-- Reads the statement of a line that ended the given block. -/
def statement (o : Outline) (line : Line) (closed : Option BlockRole) : Outline :=
  match Statement.ofLine line with
  | .ok (.call builtin) => o.await line builtin.name (.call builtin)
  | .ok .otherwise => o.otherwise line closed
  | .ok (.assign _ _) => o
  | .error rejection =>
      let o := { o with errors := rejection.errors.reverse ++ o.errors }
      if rejection.ownsBlock then o.await line line.first.lexeme .rejected else o

/-- Reads a line. -/
def line (o : Outline) (line : Line) : Outline :=
  let o := o.settle line.indent
  if line.indent > o.depth then
    o.error (.unbalancedBlock (.tooDeep line.indent o.depth)) line.first.location
  else
    (o.close line.indent).statement line (o.closing? line.indent)

/-- Ends the script, so that nothing can follow the most recent line. -/
def finish (o : Outline) : Outline :=
  match o.opener with
  | some opener =>
      if opener.requiresBlock then
        o.error (.unbalancedBlock (.missing opener.name)) opener.location
      else o
  | none => o

/-- The faults of a script, in the order in which its lines show them. -/
def faults (lines : List Line) : List CompileError :=
  (lines.foldl line empty).finish.errors.reverse

end Outline
end NpcScript
