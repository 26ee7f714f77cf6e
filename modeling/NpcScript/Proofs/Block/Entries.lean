import NpcScript.Proofs.Block.Nesting

/-! # No line is lost

A line takes the place of all that follows at its level and below, so a block
that no line owns would be dropped. In an accepted script there is none: the
next line is at most one level deeper, an `Else` follows the block of a call,
and a deeper line stands behind the line that owns it. So the block of an
accepted script says what its lines say, in the same order, and a line owns a
block there if the next line is on the level that it owns
(`NpcScript.Block.entries_ofClauses`).
-/

namespace NpcScript

/-- What a line says, and whether it owns a block. -/
structure Entry where
  statement : Statement
  owns : Bool
  deriving DecidableEq, Inhabited

namespace Block

/-- What a block says, line by line. -/
@[simp]
def entries : Block → List Entry
  | .done => []
  | .assign target terms rest => ⟨.assign target terms, false⟩ :: rest.entries
  | .call b rest => ⟨.call b, false⟩ :: rest.entries
  | .guarded b body rest => ⟨.call b, true⟩ :: (body.entries ++ rest.entries)
  | .branch b body alternative rest =>
      ⟨.call b, true⟩ ::
        (body.entries ++ ⟨.otherwise, true⟩ :: (alternative.entries ++ rest.entries))

/-- What the lines say that follow at a level. -/
@[simp]
def Tail.entries (tail : Tail) : List Entry :=
  (tail.alternative.map fun block => ⟨.otherwise, true⟩ :: block.entries).getD [] ++
    tail.rest.entries

@[simp]
theorem Tail.alternative_none : Tail.none.alternative = .none := rfl

@[simp]
theorem Tail.rest_none : Tail.none.rest = .done := rfl

namespace Below

variable {below : Below} {level : Nat}

/-- Whether a clause in front of all that follows owns a block. -/
def owns (below : Below) (clause : Clause) : Bool :=
  match clause.statement with
  | .assign _ _ => false
  | .otherwise => true
  | .call _ => below.isOwned clause.level

/-- What all blocks gathered so far say. Deeper lines come first. -/
def entries (below : Below) : List Entry := below.tails.reverse.flatMap Tail.entries

/-- Nothing follows at a level that is deeper than all that follows. -/
theorem tail_of_length_le (few : below.tails.length ≤ level) : below.tail level = Tail.none := by
  rw [tail, List.getD_eq_getElem?_getD, List.getElem?_eq_none few]
  rfl

/-- If no more than two levels are left from a level on, what they say is what the two say. -/
theorem entries_eq (few : below.tails.length ≤ level + 2) :
    below.entries = (below.tail (level + 1)).entries ++ (below.tail level).entries ++
      (below.tails.take level).reverse.flatMap Tail.entries := by
  have deepest : (below.tails.drop level).reverse.flatMap Tail.entries =
      (below.tail (level + 1)).entries ++ (below.tail level).entries := by
    have here : below.tail level = (below.tails.drop level).getD 0 Tail.none := by
      simp [Below.tail]
    have deeper : below.tail (level + 1) = (below.tails.drop level).getD 1 Tail.none := by
      simp [Below.tail]
    have short : (below.tails.drop level).length ≤ 2 := by
      rw [List.length_drop]
      omega
    rw [here, deeper]
    match below.tails.drop level, short with
    | [], _ => rfl
    | [tail], _ => simp
    | [first, second], _ => simp
  rw [← deepest, entries, ← List.flatMap_append, ← List.reverse_append, List.take_append_drop]

private theorem entries_put (below : Below) (level : Nat) (tail : Tail) :
    (below.put level tail).entries =
      tail.entries ++ (below.tails.take level).reverse.flatMap Tail.entries := by
  have nothing (n : Nat) : (List.replicate n Tail.none).flatMap Tail.entries = [] := by simp
  simp [entries, put, nothing]

end Below

end Block

/-- What clauses say, one by one, and which of them own a block. -/
def Clause.entries : List Clause → List Entry
  | [] => []
  | clause :: clauses =>
      ⟨clause.statement, (clauses.foldr Block.Below.cons Block.Below.empty).owns clause⟩ ::
        Clause.entries clauses

/-- The entries of clauses say what the clauses say, in their order. -/
theorem Clause.map_statement_entries (clauses : List Clause) :
    (Clause.entries clauses).map (·.statement) = clauses.map (·.statement) := by
  induction clauses with
  | nil => rfl
  | cons clause clauses ih => rw [Clause.entries, List.map_cons, List.map_cons, ih]

namespace Block

/-! ## Accepted scripts -/

open Outline

variable {o : Outline} {lines : List Line} {level : Nat}

/-- If the next line is not deeper than a level, nothing that follows is. -/
theorem Below.length_tails (accepts : o.Accepts lines)
    (shallow : ∀ next ∈ lines.head?, next.indent ≤ level) :
    (Below.ofLines lines).tails.length ≤ level + 1 := by
  cases lines with
  | nil => exact Nat.zero_le _
  | cons next rest =>
      obtain ⟨_, st, reading, _⟩ := accepts.cons
      rw [Below.ofLines_cons reading, Below.cons, put]
      dsimp only
      rw [List.length_append, length_put_front, List.length_singleton]
      exact Nat.succ_le_succ (shallow next rfl)

/-- A line in front adds what it says and drops nothing. -/
theorem Below.entries_cons {l : Line} {st : Statement} {front : List BlockRole}
    (length : front.length = l.indent) (accepts : o.Accepts lines)
    (nested : (o.facing lines).nesting = front ++ own l st lines) :
    ((Below.ofLines lines).cons ⟨l.indent, st⟩).entries =
      ⟨st, (Below.ofLines lines).owns ⟨l.indent, st⟩⟩ :: (Below.ofLines lines).entries := by
  have few := length_tails accepts (next_of_nested length accepts nested)
  have below := alternative_eq_none accepts (not_main_below length nested)
  -- a line that opens no block drops what is deeper and the `Else` at its level: there is none
  have quiet (nothing : own l st lines = []) :
      (Below.ofLines lines).tail (l.indent + 1) = Tail.none ∧
        ((Below.ofLines lines).tail l.indent).alternative = none := by
    obtain ⟨shallow, notMain⟩ := quiet_of_own_nil length accepts nested nothing
    exact ⟨tail_of_length_le (length_tails accepts shallow), alternative_eq_none accepts notMain⟩
  rw [Below.cons, entries_put, entries_eq few]
  cases st with
  | assign target terms =>
      obtain ⟨nothing, here⟩ := quiet (by cases lines <;> rfl)
      simp [owns, nothing, here]
  | otherwise =>
      have here := alternative_eq_none accepts (not_main_of_otherwise length nested)
      simp [owns, below, here]
  | call b =>
      simp only [owns]
      split
      · rename_i isOwned
        rw [isOwned]
        split
        · rename_i alternative here
          simp [below, here]
        · rename_i here
          simp [below, here]
      · rename_i notOwned
        obtain ⟨nothing, here⟩ := quiet (own_call_eq_nil accepts notOwned)
        simp [notOwned, nothing, here]

private theorem Below.entries_ofLines (accepts : o.Accepts lines) :
    (Below.ofLines lines).entries = Clause.entries (lines.filterMap Clause.ofLine?) := by
  induction lines generalizing o with
  | nil => rfl
  | cons l lines ih =>
      obtain ⟨fits, st, reading, _, acceptsRest⟩ := accepts.cons
      rw [Below.ofLines_cons reading, List.filterMap_cons_some (ofLine?_of_reading reading),
        Clause.entries, ← ih acceptsRest]
      exact entries_cons (length_take_nesting fits) acceptsRest (nesting_facing_after o l st lines)

/-- **The block of an accepted script** says what its lines say. -/
theorem entries_ofClauses (accepts : Outline.empty.Accepts lines) :
    (ofClauses (lines.filterMap Clause.ofLine?)).entries =
      Clause.entries (lines.filterMap Clause.ofLine?) := by
  have shallow := head_fits accepts
  rw [nesting_facing_empty, List.length_nil] at shallow
  have few := Below.length_tails accepts shallow
  have first : ((Below.ofLines lines).tail 0).alternative = none :=
    alternative_eq_none accepts (by rw [nesting_facing_empty]; simp)
  change ((Below.ofLines lines).tail 0).rest.entries = _
  rw [← Below.entries_ofLines accepts, Below.entries_eq (Nat.le_succ_of_le few),
    Below.tail_of_length_le few]
  simp [first]

end Block
end NpcScript
