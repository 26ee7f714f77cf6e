import NpcScript.Proofs.Block.Entries

/-! # Blocks one behind the other

The lines of a script that stand behind those of another one, and begin at the
outermost level, make no difference to the blocks of the first one but that they
follow at its end: where they begin, nothing is owned, and all that follows is at
the outermost level (`NpcScript.Block.ofClauses_append`).
-/

namespace NpcScript.Block

/-- A block with further statements at its end. -/
def followedBy : Block → Block → Block
  | .done, next => next
  | .assign target terms rest, next => .assign target terms (rest.followedBy next)
  | .call b rest, next => .call b (rest.followedBy next)
  | .guarded b body rest, next => .guarded b body (rest.followedBy next)
  | .branch b body alternative rest, next => .branch b body alternative (rest.followedBy next)

namespace Below

/-- What follows is the same, except that there are further statements at the end of the outermost
block. -/
structure Extends (longer shorter : Below) (next : Block) : Prop where
  outer : longer.tail 0 = ⟨(shorter.tail 0).alternative, (shorter.tail 0).rest.followedBy next⟩
  deeper : ∀ level, longer.tail (level + 1) = shorter.tail (level + 1)
  owned : ∀ level, longer.isOwned level = shorter.isOwned level

variable {longer shorter : Below} {next : Block}

private theorem tail_put_congr {other : Nat} (same : longer.tail other = shorter.tail other)
    (level : Nat) (tail : Tail) :
    (longer.put level tail).tail other = (shorter.put level tail).tail other := by
  rcases Nat.lt_trichotomy other level with shallower | here | beyond
  · rw [tail_put_of_lt _ _ shallower, tail_put_of_lt _ _ shallower, same]
  · rw [here, tail_put_self, tail_put_self]
  · rw [tail_put_of_gt _ _ beyond, tail_put_of_gt _ _ beyond]

/-- A clause in front keeps what follows the same. -/
theorem Extends.cons (same : longer.Extends shorter next) (clause : Clause) :
    (longer.cons clause).Extends (shorter.cons clause) next := by
  obtain ⟨level, statement⟩ := clause
  unfold Below.cons
  cases level with
  | zero =>
      refine ⟨?_, fun level => ?_, fun _ => rfl⟩
      · simp only [tail_put_self, same.outer, same.deeper, same.owned]
        cases statement with
        | assign target terms | otherwise => rfl
        | call b =>
            dsimp only
            split
            · split <;> rfl
            · rfl
      · rw [tail_put_of_gt _ _ (Nat.succ_pos level), tail_put_of_gt _ _ (Nat.succ_pos level)]
  | succ here =>
      refine ⟨?_, fun level => ?_, fun _ => rfl⟩
      · simp only [tail_put_of_lt _ _ (Nat.succ_pos here), same.outer]
      · simp only [same.deeper, same.owned]
        exact tail_put_congr (same.deeper level) _ _

private theorem Extends.foldr (same : longer.Extends shorter next) (clauses : List Clause) :
    (clauses.foldr Below.cons longer).Extends (clauses.foldr Below.cons shorter) next := by
  induction clauses with
  | nil => exact same
  | cons clause clauses ih => exact ih.cons clause

open Outline

/-- The lines of an accepted script follow as statements at the outermost level. -/
theorem extends_ofLines {lines : List Line} (accepts : Outline.empty.Accepts lines) :
    (ofLines lines).Extends empty ((ofLines lines).tail 0).rest := by
  have shallow := head_fits accepts
  rw [nesting_facing_empty, List.length_nil] at shallow
  have few := length_tails accepts shallow
  refine ⟨?_, fun level => ?_, fun level => ?_⟩
  · have first : ((ofLines lines).tail 0).alternative = none :=
      alternative_eq_none accepts (by rw [nesting_facing_empty]; simp)
    generalize (ofLines lines).tail 0 = tail at first
    obtain ⟨alternative, rest⟩ := tail
    obtain rfl : alternative = none := first
    rfl
  · rw [tail_of_length_le (few.trans (Nat.succ_le_succ (Nat.zero_le level)))]
    rfl
  · have apart : ¬(ofLines lines).isOwned level := by
      rw [isOwned_iff accepts]
      rintro ⟨first, rest, rfl, owned⟩
      have outer := shallow first rfl
      rw [owned, Opener.ownedLevel, maxIndent] at outer
      omega
    rw [Bool.eq_false_iff.mpr apart]
    rfl

end Below

/-- **The block of lines behind other lines** follows theirs. -/
theorem ofClauses_append (clauses : List Clause) {lines : List Line}
    (accepts : Outline.empty.Accepts lines) :
    ofClauses (clauses ++ lines.filterMap Clause.ofLine?) =
      (ofClauses clauses).followedBy (ofClauses (lines.filterMap Clause.ofLine?)) := by
  have same := (Below.extends_ofLines accepts).foldr clauses
  rw [ofClauses, List.foldr_append]
  exact congrArg Tail.rest same.outer

end NpcScript.Block
