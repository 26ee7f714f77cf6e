import Mathlib.Data.List.TakeDrop
import NpcScript.Proofs.Source.Meaning

/-! # Stretches of lines

What follows at a level is a stretch of lines: those from the next line that is
not deeper up to the next shallower one. A line owns the stretch one level
deeper, and the stretch at its own level follows its block
(`NpcScript.Source.ofLines_stretch`).
-/

namespace NpcScript.Source

variable {level : Nat} {l : Line} {lines : List Line}

/-- The lines at a level and below it, from the first one that is not deeper on. -/
def stretch (level : Nat) (lines : List Line) : List Line :=
  (lines.dropWhile (level < ·.indent)).takeWhile (level ≤ ·.indent)

/-- A shallower line ends a stretch before it begins. -/
theorem stretch_cons_of_lt (shallower : l.indent < level) : stretch level (l :: lines) = [] := by
  rw [stretch, List.dropWhile_cons_of_neg (by simp; omega),
    List.takeWhile_cons_of_neg (by simpa using shallower)]

/-- A deeper line in front of a stretch does not belong to it. -/
theorem stretch_cons_of_gt (deeper : level < l.indent) :
    stretch level (l :: lines) = stretch level lines := by
  rw [stretch, List.dropWhile_cons_of_pos (by simpa using deeper)]
  rfl

private theorem stretch_cons_self :
    stretch l.indent (l :: lines) = l :: lines.takeWhile (l.indent ≤ ·.indent) := by
  rw [stretch, List.dropWhile_cons_of_neg (by simp), List.takeWhile_cons_of_pos (by simp)]

/-- A stretch begins with the next line if that is not deeper. -/
theorem stretch_eq_takeWhile (fits : ∀ next ∈ lines.head?, next.indent ≤ level) :
    stretch level lines = lines.takeWhile (level ≤ ·.indent) := by
  cases lines with
  | nil => rfl
  | cons next rest =>
      have shallow : next.indent ≤ level := fits next rfl
      rw [stretch, List.dropWhile_cons_of_neg (by simpa using shallow)]

/-- Nothing is deeper before the next line if that is not. -/
theorem stretch_succ_eq_nil (fits : ∀ next ∈ lines.head?, next.indent ≤ level) :
    stretch (level + 1) lines = [] := by
  cases lines with
  | nil => rfl
  | cons next rest => exact stretch_cons_of_lt (Nat.lt_succ_of_le (fits next rfl))

private theorem takeWhile_deeper (lines : List Line) (level : Nat) :
    (lines.takeWhile (level ≤ ·.indent)).takeWhile (level < ·.indent) =
      lines.takeWhile (level + 1 ≤ ·.indent) := by
  induction lines with
  | nil => rfl
  | cons line lines ih =>
      by_cases deeper : level < line.indent
      · rw [List.takeWhile_cons_of_pos (by simp; omega),
          List.takeWhile_cons_of_pos (by simpa using deeper),
          List.takeWhile_cons_of_pos (by simp; omega), ih]
      · rw [List.takeWhile_cons_of_neg (p := fun line : Line => level + 1 ≤ line.indent)
          (by simp; omega)]
        by_cases inside : level ≤ line.indent
        · rw [List.takeWhile_cons_of_pos (by simpa using inside),
            List.takeWhile_cons_of_neg (by simpa using deeper)]
        · rw [List.takeWhile_cons_of_neg (by simpa using inside), List.takeWhile_nil]

private theorem dropWhile_deeper (lines : List Line) (level : Nat) :
    (lines.takeWhile (level ≤ ·.indent)).dropWhile (level < ·.indent) = stretch level lines := by
  induction lines with
  | nil => rfl
  | cons line lines ih =>
      rcases Nat.lt_trichotomy level line.indent with deeper | same | shallower
      · rw [stretch_cons_of_gt deeper, ← ih, List.takeWhile_cons_of_pos (by simp; omega),
          List.dropWhile_cons_of_pos (by simpa using deeper)]
      · subst same
        rw [stretch_cons_self, List.takeWhile_cons_of_pos (by simp),
          List.dropWhile_cons_of_neg (by simp)]
      · rw [stretch_cons_of_lt shallower,
          List.takeWhile_cons_of_neg (by simpa using shallower), List.dropWhile_nil]

/-- A line owns the stretch one level deeper, and the stretch at its own level follows that. -/
theorem ofLines_stretch (fits : ∀ next ∈ lines.head?, next.indent ≤ l.indent + 1) :
    Forest.ofLines (stretch l.indent (l :: lines)) =
      .line l (Forest.ofLines (stretch (l.indent + 1) lines))
        (Forest.ofLines (stretch l.indent lines)) := by
  rw [stretch_cons_self, Forest.ofLines, takeWhile_deeper, dropWhile_deeper,
    stretch_eq_takeWhile fits]

end NpcScript.Source
