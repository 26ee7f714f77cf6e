import NpcScript.Proofs.Block.Entries

/-! # How many labels blocks need

A call that owns a block needs a label, and so does an `Else`. The outline of an
accepted script gives out exactly those (`NpcScript.Block.labels_ofClauses`), and
it has a fault where they are more than calls can hold
(`NpcScript.Block.ofClauses_labels`).
-/

namespace NpcScript

namespace Block

/-- The number of labels that a block needs. -/
def labels : Block → Nat
  | .done => 0
  | .assign _ _ rest | .call _ rest => rest.labels
  | .guarded _ body rest => body.labels + rest.labels + 1
  | .branch _ body alternative rest => body.labels + alternative.labels + rest.labels + 2

/-- A block needs a label for every line that owns a block. -/
theorem labels_eq (block : Block) : block.labels = block.entries.countP (·.owns) := by
  induction block with
  | done => rfl
  | assign target terms rest ih => simpa [labels] using ih
  | call b rest ih => simpa [labels] using ih
  | guarded b body rest ihBody ihRest => simp [labels, ihBody, ihRest]
  | branch b body alternative rest ihBody ihElse ihRest =>
      simp only [labels, ihBody, ihElse, ihRest, entries, List.countP_cons, List.countP_append,
        ↓reduceIte]
      omega

end Block

open Block

namespace Outline

variable {o : Outline} {lines : List Line}

private theorem labels_facing_after {l : Line} {st : Statement} (quiet : o.opener = none)
    (accepts : (o.after l st).Accepts lines) :
    ((o.after l st).facing lines).labels =
      o.labels + if (Below.ofLines lines).owns ⟨l.indent, st⟩ then 1 else 0 := by
  cases lines with
  | nil =>
      cases st with
      | otherwise =>
          obtain ⟨_, _, impossible, _⟩ := accepts.owned_of_otherwise
          cases impossible
      | call b | assign target terms => rfl
  | cons next rest =>
      rw [facing, labels_settle_after quiet]
      congr 1
      cases st with
      | otherwise | assign target terms => rfl
      | call b =>
          have owned := Below.isOwned_iff accepts l.indent
          unfold taken Below.owns
          dsimp only
          split
          · rename_i level
            rw [if_pos (owned.mpr ⟨next, rest, rfl, level⟩)]
          · rename_i apart
            rw [if_neg]
            intro isOwned
            obtain ⟨_, _, same, level⟩ := owned.mp isOwned
            cases same
            exact apart level

/-- The outline gives out a label for every line that owns a block. -/
theorem Accepts.labels_foldl (accepts : o.Accepts lines) :
    (lines.foldl line o).labels = (o.facing lines).labels +
      (Clause.entries (lines.filterMap Clause.ofLine?)).countP (·.owns) := by
  induction lines generalizing o with
  | nil => rfl
  | cons l lines ih =>
      obtain ⟨_, st, reading, _, same⟩ :=
        Clean.of_line (Accepts.clean (o := o.line l) accepts)
      have acceptsRest : (o.line l).Accepts lines := accepts
      have quiet : ((o.settle l.indent).close l.indent).opener = none := opener_settle o l.indent
      rw [List.foldl_cons, ih acceptsRest, same,
        labels_facing_after quiet (by rwa [same] at acceptsRest),
        List.filterMap_cons_some (ofLine?_of_reading reading), Clause.entries, List.countP_cons,
        facing]
      exact (Nat.add_right_comm _ _ _).trans (Nat.add_assoc _ _ _)

/-- A walk without faults gives out no more labels than calls can hold. -/
theorem Accepts.labels_le (accepts : o.Accepts lines) (few : o.labels ≤ maxLabels) :
    (lines.foldl line o).labels ≤ maxLabels := by
  induction lines generalizing o with
  | nil => exact few
  | cons l lines ih =>
      have clean : (o.line l).Clean := Accepts.clean (o := o.line l) accepts
      obtain ⟨_, st, _, _, same⟩ := clean.of_line
      have fewClosed : ((o.settle l.indent).close l.indent).labels ≤ maxLabels :=
        clean.settle_of_line.labels_settle few
      refine ih (o := o.line l) accepts ?_
      rw [same] at clean ⊢
      exact clean.labels_after fewClosed

end Outline

namespace Block

variable {lines : List Line}

/-- **The labels of an accepted script** are those that its outline gives out. -/
theorem labels_ofClauses (accepts : Outline.empty.Accepts lines) :
    (ofClauses (lines.filterMap Clause.ofLine?)).labels =
      (lines.foldl Outline.line Outline.empty).labels := by
  have fresh : (Outline.empty.facing lines).labels = 0 := by cases lines <;> rfl
  rw [labels_eq, entries_ofClauses accepts, accepts.labels_foldl, fresh, Nat.zero_add]

/-- The block of an accepted script needs no more labels than calls can hold. -/
theorem ofClauses_labels (accepts : Outline.empty.Accepts lines) :
    (ofClauses (lines.filterMap Clause.ofLine?)).labels ≤ Outline.maxLabels := by
  rw [labels_ofClauses accepts]
  exact accepts.labels_le (Nat.zero_le _)

end Block
end NpcScript
