import NpcScript.Proofs.Outline.Accepted

/-! # Walks one behind the other

A walk that has been brought to its end leaves nothing behind but the number of
its labels: the first line of the next one closes all blocks and, since it is not
indented, is not taken for the block of the line before it. From there on both
walks go on alike, except that more labels have been given out
(`NpcScript.Outline.line_shift`), and no fault comes of that as long as they are
no more than calls can hold. So the lines of two walks without faults make one
walk without faults (`NpcScript.Outline.Accepts.append`).
-/

namespace NpcScript.Outline

variable {o : Outline} {l : Line} {lines front back : List Line} {opener : Opener}
variable {location : Location} {closed : Option BlockRole} {count indent : Nat}

/-- The outline with a number of labels given out before. -/
def shift (count : Nat) (o : Outline) : Outline :=
  { o with labels := o.labels + count }

@[simp]
theorem depth_shift (count : Nat) (o : Outline) : (o.shift count).depth = o.depth := rfl

/-! ## Labels are never taken back -/

private theorem labels_openBlock_le (o : Outline) (opener : Opener) :
    o.labels ≤ (o.openBlock opener).labels := by
  unfold openBlock
  split
  · exact Nat.le_refl _
  · dsimp only
    rw [labels_reserveLabel]
    exact Nat.le_succ _

private theorem labels_settle_le (o : Outline) (indent : Nat) :
    o.labels ≤ (o.settle indent).labels := by
  unfold settle
  split
  · exact Nat.le_refl _
  · dsimp only
    split
    · exact labels_openBlock_le { o with opener := none } _
    · split <;> exact Nat.le_refl _

private theorem labels_statement_le (o : Outline) (l : Line) (closed : Option BlockRole) :
    o.labels ≤ (o.statement l closed).labels := by
  unfold statement
  split
  · exact Nat.le_refl _
  · unfold otherwise
    split
    · exact Nat.le_trans (Nat.le_succ _) (labels_reserveLabel o _).ge
    · exact Nat.le_refl _
    · exact Nat.le_refl _
  · exact Nat.le_refl _
  · dsimp only
    split <;> exact Nat.le_refl _

private theorem labels_settle_le_line (o : Outline) (l : Line) :
    (o.settle l.indent).labels ≤ (o.line l).labels := by
  unfold line
  dsimp only
  split
  · exact Nat.le_refl _
  · exact labels_statement_le ((o.settle l.indent).close l.indent) l _

private theorem labels_le_foldl (o : Outline) (lines : List Line) :
    o.labels ≤ (lines.foldl line o).labels := by
  induction lines generalizing o with
  | nil => exact Nat.le_refl _
  | cons l lines ih =>
      exact ((labels_settle_le o l.indent).trans (labels_settle_le_line o l)).trans (ih (o.line l))

/-! ## Labels given out before -/

private theorem reserveLabel_shift (few : (o.reserveLabel location).labels + count ≤ maxLabels) :
    (o.shift count).reserveLabel location = (o.reserveLabel location).shift count := by
  rw [labels_reserveLabel] at few
  have room : o.labels ≠ maxLabels := by omega
  have roomShifted : (o.shift count).labels ≠ maxLabels := by
    change o.labels + count ≠ maxLabels
    omega
  unfold reserveLabel
  rw [if_neg room, if_neg roomShifted]
  simp [shift, Nat.add_right_comm]

private theorem openBlock_shift (few : (o.openBlock opener).labels + count ≤ maxLabels) :
    (o.shift count).openBlock opener = (o.openBlock opener).shift count := by
  unfold openBlock at few ⊢
  cases role : opener.role with
  | otherwise => rfl
  | call _ | rejected =>
      simp only [role] at few ⊢
      rw [reserveLabel_shift few]
      rfl

private theorem settle_shift (few : (o.settle indent).labels + count ≤ maxLabels) :
    (o.shift count).settle indent = (o.settle indent).shift count := by
  obtain ⟨blocks, opener, labels, errors⟩ := o
  unfold settle at few ⊢
  cases opener with
  | none => rfl
  | some opener =>
      dsimp only [shift] at few ⊢
      by_cases owned : indent = Opener.ownedLevel opener.indent
      · rw [if_pos owned] at few ⊢
        rw [if_pos owned]
        exact openBlock_shift few
      · rw [if_neg owned, if_neg owned]
        split <;> rfl

private theorem statement_shift (few : (o.statement l closed).labels + count ≤ maxLabels) :
    (o.shift count).statement l closed = (o.statement l closed).shift count := by
  unfold statement at few ⊢
  cases reading : Statement.ofLine l with
  | error rejection =>
      dsimp only
      split <;> rfl
  | ok st =>
      cases st with
      | call _ | assign _ _ => rfl
      | otherwise =>
          simp only [reading] at few ⊢
          unfold otherwise at few ⊢
          split
          · rw [reserveLabel_shift few]
            rfl
          · rfl
          · rfl

/-- A line is read alike behind labels given out before. -/
theorem line_shift (few : (o.line l).labels + count ≤ maxLabels) :
    (o.shift count).line l = (o.line l).shift count := by
  have settled : (o.settle l.indent).labels + count ≤ maxLabels :=
    (Nat.add_le_add_right (labels_settle_le_line o l) count).trans few
  unfold line at few ⊢
  rw [settle_shift settled]
  dsimp only at few ⊢
  rw [depth_shift]
  by_cases deep : l.indent > (o.settle l.indent).depth
  · rw [if_pos deep, if_pos deep]
    rfl
  · rw [if_neg deep] at few ⊢
    rw [if_neg deep]
    exact statement_shift (o := (o.settle l.indent).close l.indent) few

private theorem foldl_line_shift (few : (lines.foldl line o).labels + count ≤ maxLabels) :
    lines.foldl line (o.shift count) = (lines.foldl line o).shift count := by
  induction lines generalizing o with
  | nil => rfl
  | cons l lines ih =>
      have fewLine : (o.line l).labels + count ≤ maxLabels :=
        (Nat.add_le_add_right (labels_le_foldl (o.line l) lines) count).trans few
      rw [List.foldl_cons, line_shift fewLine, ih few, List.foldl_cons]

private theorem finish_shift (count : Nat) (o : Outline) :
    (o.shift count).finish = o.finish.shift count := by
  obtain ⟨blocks, opener, labels, errors⟩ := o
  unfold finish
  cases opener with
  | none => rfl
  | some opener =>
      dsimp only [shift]
      split <;> rfl

private theorem accepts_shift (accepts : o.Accepts lines)
    (few : (lines.foldl line o).labels + count ≤ maxLabels) : (o.shift count).Accepts lines := by
  rw [Accepts, foldl_line_shift few, finish_shift]
  exact accepts

/-! ## The seam -/

/-- A line that is not indented leaves nothing of a walk that has been brought to its end but the
number of its labels. -/
theorem settle_close_of_finished (finished : o.finish.Clean) :
    (o.settle 0).close 0 = empty.shift o.labels := by
  obtain ⟨clean, free⟩ := finished.of_finish
  obtain ⟨blocks, opener, labels, errors⟩ := o
  obtain rfl : errors = [] := clean
  have closes (opener : Option Opener) : (⟨blocks, opener, labels, []⟩ : Outline).close 0 =
      ⟨[], opener, labels, []⟩ := by
    simp [close, depth]
  unfold settle
  cases opener with
  | none => simp [closes, shift, empty]
  | some opener =>
      have outer : 0 ≠ Opener.ownedLevel opener.indent := by
        rw [Opener.ownedLevel, maxIndent]
        omega
      dsimp only
      rw [if_neg outer, if_neg (by simp [free opener rfl]), closes]
      simp [shift, empty]

/-- Only an `Else` looks at the block that ends in front of it. -/
theorem statement_closed (notElse : Statement.ofLine l ≠ .ok .otherwise)
    (other : Option BlockRole) : o.statement l closed = o.statement l other := by
  unfold statement
  cases reading : Statement.ofLine l with
  | error rejection => rfl
  | ok st =>
      cases st with
      | call _ | assign _ _ => rfl
      | otherwise => exact absurd reading notElse

/-- The first line of a walk without faults is read alike behind a walk that has been brought to
its end. -/
theorem line_of_finished (finished : o.finish.Clean) (clean : (empty.line l).Clean)
    (few : (empty.line l).labels + o.labels ≤ maxLabels) :
    o.line l = (empty.line l).shift o.labels := by
  obtain ⟨fits, st, reading, main, _⟩ := clean.of_line
  have outer : l.indent = 0 := Nat.le_zero.mp fits
  have notElse : Statement.ofLine l ≠ .ok .otherwise := by
    intro otherwise
    cases reading.symm.trans otherwise
    have opened := main rfl
    rw [closing?_eq] at opened
    cases opened
  have first (o : Outline) : o.line l = ((o.settle 0).close 0).statement l none := by
    unfold line
    rw [outer, if_neg (Nat.not_lt_zero _)]
    exact statement_closed notElse _
  rw [first empty] at few ⊢
  rw [first o, settle_close_of_finished finished]
  exact statement_shift (o := empty) few

/-- **Two walks without faults** make one, as long as calls can hold the labels of both. -/
theorem Accepts.append (acceptsFront : empty.Accepts front) (acceptsBack : empty.Accepts back)
    (few : (front.foldl line empty).labels + (back.foldl line empty).labels ≤ maxLabels) :
    empty.Accepts (front ++ back) := by
  rw [Accepts, List.foldl_append]
  cases back with
  | nil => exact acceptsFront
  | cons l rest =>
      have clean : (empty.line l).Clean := Accepts.clean (o := empty.line l) acceptsBack
      rw [List.foldl_cons, Nat.add_comm] at few
      have fewLine := (Nat.add_le_add_right (labels_le_foldl (empty.line l) rest) _).trans few
      rw [List.foldl_cons, line_of_finished acceptsFront clean fewLine]
      exact accepts_shift (o := empty.line l) acceptsBack few

end NpcScript.Outline
