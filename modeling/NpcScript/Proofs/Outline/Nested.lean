import NpcScript.Proofs.Block.Nesting

/-! # Where the blocks of an accepted script stand

A line is read in front of the lines behind it and behind those already read.
Every open block of a call goes back to the line of that call, and all lines
since then are deeper (`NpcScript.Outline.Tracks`). So an `Else` stands at the
end of the block of a call at its own level
(`NpcScript.Outline.Accepts.ends_block`), and a deeper line stands right below
the line that owns it (`NpcScript.Outline.Accepts.owned_of_deeper`).
-/

namespace NpcScript

/-- What must own a block: a predicate and an `Else`. -/
def Statement.RequiresBlock : Statement → Prop
  | .call b => b.kind = .predicate
  | .otherwise => True
  | .assign _ _ => False

namespace Outline

open Block

variable {o : Outline} {l next : Line} {st : Statement} {lines past front back : List Line}

/-- Behind the first lines of an accepted script the walk goes on without faults. -/
theorem Accepts.of_append (accepts : o.Accepts (front ++ back)) :
    (front.foldl line o).Accepts back := by
  rw [Accepts, List.foldl_append] at accepts
  exact accepts

/-- **A line that requires a block owns the next line.** -/
theorem Accepts.owned_of_requiresBlock (accepts : o.Accepts (front ++ l :: back))
    (reading : Statement.ofLine l = .ok st) (requires : st.RequiresBlock) :
    ∃ next rest, back = next :: rest ∧ next.indent = Opener.ownedLevel l.indent := by
  obtain ⟨_, _, same, _, acceptsBack⟩ := accepts.of_append.cons
  cases reading.symm.trans same
  cases st with
  | assign target terms => exact requires.elim
  | call b =>
      have predicate : b.kind = .predicate := requires
      exact acceptsBack.owned_of_requires rfl (by simpa [Opener.requiresBlock] using predicate)
  | otherwise => exact acceptsBack.owned_of_otherwise

/-- **A line that is deeper than the one before it** is owned by that one. -/
theorem Accepts.owned_of_deeper (accepts : o.Accepts (front ++ l :: next :: back))
    (reading : Statement.ofLine l = .ok st) (deeper : l.indent < next.indent) :
    next.indent = l.indent + 1 ∧ ∀ target terms, st ≠ .assign target terms := by
  obtain ⟨_, _, same, _, acceptsNext⟩ := accepts.of_append.cons
  cases reading.symm.trans same
  have fits := head_fits acceptsNext next rfl
  -- at most one block is opened, so the level of the next line is at most one deeper
  rw [nesting_facing_after, List.length_append, List.length_take] at fits
  have short := own_length l st (next :: back)
  refine ⟨by omega, ?_⟩
  rintro target terms rfl
  have nothing : own l (.assign target terms) (next :: back) = [] := rfl
  rw [nothing, List.length_nil] at fits
  omega

/-! ## The lines behind an open block -/

/-- A line that calls a built-in, and deeper lines behind it. -/
structure Heads (head : Line) (body : List Line) : Prop where
  calls : ∃ b, Statement.ofLine head = .ok (.call b)
  deeper : ∀ inner ∈ body, head.indent < inner.indent

/-- Every open block of a call goes back to a line among those read, and owns the next line or
the ones read since then. -/
def Tracks (o : Outline) (past lines : List Line) : Prop :=
  ∀ level, (o.facing lines).nesting[level]? = some .main →
    ∃ before head body, past = before ++ head :: body ∧ Heads head body ∧ head.indent = level ∧
      (body = [] → ∀ next ∈ lines.head?, next.indent = Opener.ownedLevel level)

private theorem tracks_empty (lines : List Line) : empty.Tracks [] lines := by
  intro level main
  rw [nesting_facing_empty] at main
  cases main

/-- A line that opens the block of a call calls a built-in and owns the next line. -/
theorem own_eq_main (opens : own l st lines = [.main]) :
    (∃ b, st = .call b) ∧ ∀ next ∈ lines.head?, next.indent = Opener.ownedLevel l.indent := by
  cases lines with
  | nil => cases opens
  | cons next rest =>
      cases st with
      | assign target terms => cases opens
      | call b =>
          simp only [own, opened] at opens
          split at opens
          · refine ⟨⟨b, rfl⟩, ?_⟩
            rintro _ ⟨⟩
            assumption
          · cases opens
      | otherwise =>
          simp only [own, opened] at opens
          split at opens <;> cases opens

/-- Reading a line keeps the blocks tracked. -/
theorem Tracks.after_line (tracks : o.Tracks past (l :: lines))
    (reading : Statement.ofLine l = .ok st) (fits : l.indent ≤ (o.settle l.indent).depth) :
    (((o.settle l.indent).close l.indent).after l st).Tracks (past ++ [l]) lines := by
  intro level main
  by_cases outer : level < l.indent
  · -- a block that the line is inside of
    rw [nesting_facing_after_of_lt fits outer] at main
    obtain ⟨before, head, body, rfl, heads, rfl, _⟩ := tracks level main
    refine ⟨before, head, body ++ [l], by simp, ⟨heads.calls, ?_⟩, rfl, by simp⟩
    intro inner member
    rcases List.mem_append.mp member with behind | this
    · exact heads.deeper inner behind
    · cases List.mem_singleton.mp this
      exact outer
  · -- the block of the line itself
    have length : ((o.settle l.indent).nesting.take l.indent).length = l.indent :=
      length_take_nesting fits
    rw [nesting_facing_after, List.getElem?_append_right (by rw [length]; omega), length] at main
    have short := own_length l st lines
    obtain ⟨inside, _⟩ := List.getElem?_eq_some_iff.mp main
    obtain rfl : level = l.indent := by omega
    have opens : own l st lines = [.main] := by
      obtain ⟨role, only⟩ := List.length_eq_one_iff.mp (Nat.le_antisymm short (by omega))
      rw [only] at main ⊢
      simpa using main
    obtain ⟨⟨b, rfl⟩, owned⟩ := own_eq_main opens
    exact ⟨past, l, [], rfl, ⟨⟨b, reading⟩, by simp⟩, rfl, fun _ => owned⟩

/-- An `Else` stands behind the block of a call at its level, among the lines read before. -/
theorem Tracks.ends_block (tracks : o.Tracks past (front ++ l :: back))
    (accepts : o.Accepts (front ++ l :: back)) (reading : Statement.ofLine l = .ok .otherwise) :
    ∃ before head body, past ++ front = before ++ head :: body ∧ Heads head body ∧
      head.indent = l.indent ∧ (body = [] → l.indent = Opener.ownedLevel l.indent) := by
  induction front generalizing o past with
  | nil =>
      obtain ⟨_, _, same, main, _⟩ := accepts.cons
      cases reading.symm.trans same
      have inside := main rfl
      rw [closing?_eq] at inside
      obtain ⟨before, head, body, rfl, heads, level, owned⟩ := tracks l.indent inside
      exact ⟨before, head, body, by simp, heads, level, fun nothing => owned nothing l rfl⟩
  | cons first front ih =>
      obtain ⟨fits, st, readingFirst, _, acceptsRest⟩ := accepts.cons
      have found := ih (tracks.after_line readingFirst fits) acceptsRest
      rwa [List.append_assoc] at found

/-- **An `Else` ends the block of a call at its level.** Only at the deepest level may that block
be empty. -/
theorem Accepts.ends_block (accepts : empty.Accepts (front ++ l :: back))
    (reading : Statement.ofLine l = .ok .otherwise) :
    ∃ before head body, front = before ++ head :: body ∧ Heads head body ∧
      head.indent = l.indent ∧ (body = [] → l.indent = Opener.ownedLevel l.indent) :=
  (tracks_empty _).ends_block accepts reading

end Outline
end NpcScript
