import NpcScript.Outline
import NpcScript.Proofs.Statement.Faults

/-! # Walks without faults

Faults are never taken back, so in a walk without faults no line has one. The
first line of such a walk makes a statement, stands no deeper than the open
blocks allow, and ends the block of a call if it is an `Else`; the lines behind
it make a walk without faults again (`NpcScript.Outline.Accepts.cons`).
-/

namespace NpcScript.Outline

variable {o : Outline} {l : Line} {lines : List Line} {indent : Nat}

/-- No fault has been found. -/
def Clean (o : Outline) : Prop := o.errors = []

/-- The walk over the lines finds no fault. -/
def Accepts (o : Outline) (lines : List Line) : Prop :=
  (lines.foldl line o).finish.Clean

/-- The walk behind a line that makes a statement. -/
def after (o : Outline) (l : Line) : Statement → Outline
  | .call b => o.await l b.name (.call b)
  | .otherwise => (o.reserveLabel l.first.location).await l l.first.lexeme .otherwise
  | .assign _ _ => o

private theorem not_clean_error (fault : CompileFault) (location : Location) :
    ¬(o.error fault location).Clean := by
  simp [Clean, error]

private theorem Clean.of_reserveLabel {location : Location}
    (clean : (o.reserveLabel location).Clean) : o.Clean ∧ o.labels ≠ maxLabels := by
  unfold reserveLabel at clean
  split at clean
  · exact absurd clean (not_clean_error _ _)
  · exact ⟨clean, ‹_›⟩

private theorem Clean.of_openBlock {opener : Opener} (clean : (o.openBlock opener).Clean) :
    o.Clean := by
  unfold openBlock at clean
  split at clean
  · exact clean
  · exact (Clean.of_reserveLabel (o := o) clean).1

private theorem Clean.of_settle (clean : (o.settle indent).Clean) : o.Clean := by
  unfold settle at clean
  split at clean
  · exact clean
  · dsimp only at clean
    split at clean
    · exact clean.of_openBlock
    · split at clean
      · exact absurd clean (not_clean_error _ _)
      · exact clean

private theorem Clean.of_otherwise {closed : Option BlockRole}
    (clean : (o.otherwise l closed).Clean) :
    closed = some .main ∧ o.otherwise l closed = o.after l .otherwise := by
  cases closed with
  | none => exact absurd clean (not_clean_error _ _)
  | some role =>
      cases role with
      | main => exact ⟨rfl, rfl⟩
      | alternative => exact absurd clean (not_clean_error _ _)

private theorem Clean.of_statement {closed : Option BlockRole}
    (clean : (o.statement l closed).Clean) :
    ∃ st, Statement.ofLine l = .ok st ∧ (st = .otherwise → closed = some .main) ∧
      o.statement l closed = o.after l st := by
  cases reading : Statement.ofLine l with
  | error rejection =>
      refine absurd ?_ (Statement.found_of_ofLine_error reading).nonempty
      simp only [statement, reading] at clean
      split at clean <;> simp_all [Clean, await]
  | ok st =>
      simp only [statement, reading] at clean ⊢
      cases st with
      | otherwise =>
          obtain ⟨main, same⟩ := Clean.of_otherwise clean
          exact ⟨_, rfl, fun _ => main, same⟩
      | call b => exact ⟨_, rfl, by simp, rfl⟩
      | assign target terms => exact ⟨_, rfl, by simp, rfl⟩

private theorem Clean.of_after {st : Statement} (clean : (o.after l st).Clean) : o.Clean := by
  cases st with
  | otherwise => exact (Clean.of_reserveLabel (o := o) clean).1
  | call _ | assign _ _ => exact clean

/-- A line without a fault makes a statement, stands no deeper than the open blocks allow, and
ends the block of a call if it is an `Else`. -/
theorem Clean.of_line (clean : (o.line l).Clean) :
    l.indent ≤ (o.settle l.indent).depth ∧
      ∃ st, Statement.ofLine l = .ok st ∧
        (st = .otherwise → (o.settle l.indent).closing? l.indent = some .main) ∧
        o.line l = ((o.settle l.indent).close l.indent).after l st := by
  unfold line at clean ⊢
  dsimp only at clean ⊢
  split at clean
  · exact absurd clean (not_clean_error _ _)
  · rename_i fits
    rw [if_neg fits]
    exact ⟨Nat.le_of_not_gt fits, Clean.of_statement clean⟩

/-- A walk without faults behind a line has none where it settles in front of the line. -/
theorem Clean.settle_of_line (clean : (o.line l).Clean) : (o.settle l.indent).Clean := by
  obtain ⟨_, st, _, _, same⟩ := clean.of_line
  rw [same] at clean
  exact Clean.of_after (o := (o.settle l.indent).close l.indent) clean

/-- At the end of a walk without faults no line still requires a block. -/
theorem Clean.of_finish (clean : o.finish.Clean) :
    o.Clean ∧ ∀ opener, o.opener = some opener → opener.requiresBlock = false := by
  unfold finish at clean
  split at clean
  · rename_i opener known
    split at clean
    · exact absurd clean (not_clean_error _ _)
    · rename_i free
      refine ⟨clean, ?_⟩
      intro other same
      rw [known] at same
      cases same
      simpa using free
  · rename_i known
    exact ⟨clean, fun other same => by rw [known] at same; cases same⟩

/-- A walk that goes on without faults has had none so far. -/
theorem Accepts.clean (accepts : o.Accepts lines) : o.Clean := by
  induction lines generalizing o with
  | nil => exact (Clean.of_finish accepts).1
  | cons l lines ih => exact (ih (o := o.line l) accepts).settle_of_line.of_settle

/-- **The first line of a walk without faults.** -/
theorem Accepts.cons (accepts : o.Accepts (l :: lines)) :
    l.indent ≤ (o.settle l.indent).depth ∧
      ∃ st, Statement.ofLine l = .ok st ∧
        (st = .otherwise → (o.settle l.indent).closing? l.indent = some .main) ∧
        (((o.settle l.indent).close l.indent).after l st).Accepts lines := by
  have clean : (o.line l).Clean := Accepts.clean (o := o.line l) accepts
  obtain ⟨fits, st, reading, main, same⟩ := clean.of_line
  refine ⟨fits, st, reading, main, ?_⟩
  rw [← same]
  exact accepts

/-- Every line of a walk without faults makes a statement. -/
theorem Accepts.readable (accepts : o.Accepts lines) :
    ∀ line ∈ lines, ∃ st, Statement.ofLine line = .ok st := by
  induction lines generalizing o with
  | nil => simp
  | cons head lines ih =>
      obtain ⟨_, st, reading, _, acceptsRest⟩ := accepts.cons
      exact List.forall_mem_cons.mpr ⟨⟨st, reading⟩, ih acceptsRest⟩

/-! ## Open blocks and labels -/

/-- The walk in front of the next line, if there is one. -/
def facing (o : Outline) : List Line → Outline
  | [] => o
  | next :: _ => o.settle next.indent

/-- The blocks that are open, the outermost first. -/
def nesting (o : Outline) : List BlockRole := o.blocks.reverse

/-- In front of the first line no block is open. -/
theorem nesting_facing_empty (lines : List Line) : (empty.facing lines).nesting = [] := by
  cases lines <;> rfl

/-- The block that a line of the given level opens when a line of level `next` follows it. -/
def opened (level next : Nat) : Statement → List BlockRole
  | .call _ => if next = Opener.ownedLevel level then [.main] else []
  | .otherwise => if next = Opener.ownedLevel level then [.alternative] else []
  | .assign _ _ => []

/-- How many labels a line of the given level takes when a line of level `next` follows it. -/
def taken (level next : Nat) : Statement → Nat
  | .call _ => if next = Opener.ownedLevel level then 1 else 0
  | .otherwise => 1
  | .assign _ _ => 0

/-- The block that a line of a level closes is the open one at the level. -/
theorem closing?_eq (o : Outline) (level : Nat) : o.closing? level = o.nesting[level]? := by
  unfold closing? nesting depth
  by_cases inside : level < o.blocks.length
  · rw [List.getLast?_eq_getElem?, List.getElem?_reverse inside, List.length_take,
      List.getElem?_take_of_lt (by omega)]
    congr 1
    omega
  · have outside : o.blocks.length - level = 0 := by omega
    rw [outside, List.getElem?_eq_none (by simpa using inside)]
    rfl

/-- A line of a level closes the blocks from its level on. -/
theorem nesting_close (o : Outline) (level : Nat) :
    (o.close level).nesting = o.nesting.take level :=
  List.take_reverse.symm

/-- A walk that has settled awaits no block. -/
theorem opener_settle (o : Outline) (indent : Nat) : (o.settle indent).opener = none := by
  unfold settle
  split
  · assumption
  · dsimp only
    split
    · unfold openBlock reserveLabel
      split
      · rfl
      · dsimp only
        split <;> rfl
    · split <;> rfl

/-- A label opens no block. -/
theorem blocks_reserveLabel (o : Outline) (location : Location) :
    (o.reserveLabel location).blocks = o.blocks := by
  unfold reserveLabel
  dsimp only
  split <;> rfl

/-- Every label that is asked for is given out. -/
theorem labels_reserveLabel (o : Outline) (location : Location) :
    (o.reserveLabel location).labels = o.labels + 1 := by
  unfold reserveLabel
  dsimp only
  split <;> rfl

/-- Behind a line its block is open if the next line is in it, besides those open before. -/
theorem nesting_settle_after (quiet : o.opener = none) (l : Line) (st : Statement) (next : Nat) :
    ((o.after l st).settle next).nesting = o.nesting ++ opened l.indent next st := by
  cases st with
  | assign target terms => simp [after, settle, quiet, opened]
  | call b =>
      simp only [after, settle, await, opened, nesting]
      split
      · simp [openBlock, blocks_reserveLabel]
      · split <;> simp [error]
  | otherwise =>
      simp only [after, settle, await, opened, nesting]
      split
      · simp [openBlock, blocks_reserveLabel]
      · split <;> simp [error, blocks_reserveLabel]

/-- Behind a line its labels are taken besides those taken before. -/
theorem labels_settle_after (quiet : o.opener = none) (l : Line) (st : Statement) (next : Nat) :
    ((o.after l st).settle next).labels = o.labels + taken l.indent next st := by
  cases st with
  | assign target terms => simp [after, settle, quiet, taken]
  | call b =>
      simp only [after, settle, await, taken]
      split
      · simp [openBlock, labels_reserveLabel]
      · split <;> simp [error]
  | otherwise =>
      simp only [after, settle, await, taken]
      split
      · simp [openBlock, labels_reserveLabel]
      · split <;> simp [error, labels_reserveLabel]

/-- A line that requires a block owns the next line. -/
theorem Accepts.owned_of_requires {opener : Opener} (awaits : o.opener = some opener)
    (requires : opener.requiresBlock) (accepts : o.Accepts lines) :
    ∃ next rest, lines = next :: rest ∧ next.indent = Opener.ownedLevel opener.indent := by
  cases lines with
  | nil =>
      have free := (Clean.of_finish accepts).2 opener awaits
      rw [requires] at free
      cases free
  | cons next rest =>
      refine ⟨next, rest, rfl, ?_⟩
      by_contra apart
      have clean : (o.line next).Clean := Accepts.clean accepts
      have settled := clean.settle_of_line
      unfold settle at settled
      simp only [awaits, if_neg apart, if_pos requires] at settled
      exact not_clean_error _ _ settled

/-- An `Else` owns a block. -/
theorem Accepts.owned_of_otherwise (accepts : (o.after l .otherwise).Accepts lines) :
    ∃ next rest, lines = next :: rest ∧ next.indent = Opener.ownedLevel l.indent :=
  accepts.owned_of_requires rfl rfl

/-- A clean walk has given out no more labels than calls can hold. -/
theorem Clean.labels_reserveLabel {location : Location} (clean : (o.reserveLabel location).Clean)
    (few : o.labels ≤ maxLabels) : (o.reserveLabel location).labels ≤ maxLabels := by
  obtain ⟨_, room⟩ := clean.of_reserveLabel
  rw [Outline.labels_reserveLabel]
  exact Nat.lt_of_le_of_ne few room

private theorem Clean.labels_openBlock {opener : Opener} (clean : (o.openBlock opener).Clean)
    (few : o.labels ≤ maxLabels) : (o.openBlock opener).labels ≤ maxLabels := by
  unfold openBlock at clean ⊢
  cases role : opener.role with
  | otherwise => simpa only [role] using few
  | call _ | rejected =>
      simp only [role] at clean ⊢
      exact Clean.labels_reserveLabel (o := o) clean few

/-- A clean walk that settles has given out no more labels than calls can hold. -/
theorem Clean.labels_settle (clean : (o.settle indent).Clean) (few : o.labels ≤ maxLabels) :
    (o.settle indent).labels ≤ maxLabels := by
  unfold settle at clean ⊢
  cases known : o.opener with
  | none => simpa only [known] using few
  | some opener =>
      simp only [known] at clean ⊢
      by_cases owned : indent = Opener.ownedLevel opener.indent
      · rw [if_pos owned] at clean ⊢
        exact clean.labels_openBlock few
      · rw [if_neg owned] at clean ⊢
        split <;> exact few

/-- So has a clean walk behind a line. -/
theorem Clean.labels_after {st : Statement} (clean : (o.after l st).Clean)
    (few : o.labels ≤ maxLabels) : (o.after l st).labels ≤ maxLabels := by
  cases st with
  | otherwise => exact Clean.labels_reserveLabel (o := o) clean few
  | call _ | assign _ _ => exact few

end NpcScript.Outline
