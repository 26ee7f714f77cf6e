import NpcScript.Proofs.Block.Entries

/-! # No assignment is lost

The block of an accepted script says what its lines say, so it has the terms of
its lines, in the same order (`NpcScript.Block.assigned_ofClauses`).
-/

namespace NpcScript

/-- The terms of an assignment. -/
@[simp]
def Statement.assigned : Statement → List Term
  | .assign _ terms => terms
  | .call _ | .otherwise => []

namespace Block

/-- The terms of all assignments in a block, in the order of their lines. -/
@[simp]
def assigned : Block → List Term
  | .done => []
  | .assign _ terms rest => terms ++ rest.assigned
  | .call _ rest => rest.assigned
  | .guarded _ body rest => body.assigned ++ rest.assigned
  | .branch _ body alternative rest => body.assigned ++ (alternative.assigned ++ rest.assigned)

private theorem assigned_eq (block : Block) :
    block.assigned = block.entries.flatMap (·.statement.assigned) := by
  induction block with
  | done => rfl
  | assign target terms rest ih => simp [ih]
  | call b rest ih => simp [ih]
  | guarded b body rest ihBody ihRest => simp [ihBody, ihRest]
  | branch b body alternative rest ihBody ihElse ihRest => simp [ihBody, ihElse, ihRest]

/-- **The block of an accepted script** has the terms of all its lines. -/
theorem assigned_ofClauses {lines : List Line} (accepts : Outline.empty.Accepts lines) :
    (ofClauses (lines.filterMap Clause.ofLine?)).assigned =
      (lines.filterMap Clause.ofLine?).flatMap (·.statement.assigned) := by
  rw [assigned_eq, entries_ofClauses accepts, ← List.flatMap_map,
    Clause.map_statement_entries, List.flatMap_map]

end Block
end NpcScript
