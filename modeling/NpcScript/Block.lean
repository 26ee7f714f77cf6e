import NpcScript.Outline

/-!
# Blocks

The lines of a script form a tree. A block is a sequence of statements at one level, in which a
call may own a deeper block, and behind that an `Else` may own another one.
-/

namespace NpcScript

/-- A statement with the level of its line. -/
structure Clause where
  level : Nat
  statement : Statement
  deriving DecidableEq, Inhabited

namespace Clause

/-- The clause of a line, unless the line is rejected. -/
def ofLine? (line : Line) : Option Clause :=
  match Statement.ofLine line with
  | .ok statement => some ⟨line.indent, statement⟩
  | .error _ => none

end Clause

/-- A sequence of statements at one level. -/
inductive Block where
  /-- The end of the block. -/
  | done
  | assign (target : Variable) (terms : List Term) (rest : Block)
  /-- A call that owns no block. -/
  | call (builtin : Builtin) (rest : Block)
  /-- A call that owns a block. -/
  | guarded (builtin : Builtin) (body rest : Block)
  /-- A call that owns a block and is followed by an `Else`, which owns another one. -/
  | branch (builtin : Builtin) (body alternative rest : Block)
  deriving DecidableEq, Inhabited

namespace Block

/-- The lines at one level that follow some line: the block of the `Else` that comes first, if one
does, and the statements behind it. -/
structure Tail where
  alternative : Option Block
  rest : Block
  deriving Inhabited

/-- Nothing follows. -/
def Tail.none : Tail := ⟨.none, .done⟩

/-- The blocks that begin behind some line, gathered from the end of the script. -/
structure Below where
  /-- The level of the next line. -/
  next : Option Nat
  /-- What follows at each level, up to the next shallower line; the outermost level first. -/
  tails : List Tail
  deriving Inhabited

namespace Below

/-- Nothing follows. -/
def empty : Below := ⟨none, []⟩

/-- What follows at a level. -/
def tail (below : Below) (level : Nat) : Tail :=
  below.tails.getD level Tail.none

/-- Whether a line of the given level owns the lines below it. -/
def isOwned (below : Below) (level : Nat) : Bool :=
  below.next = some (Opener.ownedLevel level)

/-- Puts what begins with a line of the given level in the place of all that it takes up: what
follows at its level and below. -/
def put (below : Below) (level : Nat) (tail : Tail) : Below where
  next := some level
  tails := below.tails.take level ++
    List.replicate (level - below.tails.length) Tail.none ++ [tail]

/-- Puts a clause in front. -/
def cons (clause : Clause) (below : Below) : Below :=
  let level := clause.level
  let tail := below.tail level
  let body := (below.tail (level + 1)).rest
  below.put level <|
    match clause.statement with
    | .assign target terms => ⟨none, .assign target terms tail.rest⟩
    | .otherwise => ⟨some body, tail.rest⟩
    | .call builtin =>
        if below.isOwned level then
          match tail.alternative with
          | some alternative => ⟨none, .branch builtin body alternative tail.rest⟩
          | none => ⟨none, .guarded builtin body tail.rest⟩
        else ⟨none, .call builtin tail.rest⟩

end Below

/-- The outermost block of a script. -/
def ofClauses (clauses : List Clause) : Block :=
  ((clauses.foldr Below.cons Below.empty).tail 0).rest

end Block
end NpcScript
