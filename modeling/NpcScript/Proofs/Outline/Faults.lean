import NpcScript.Proofs.Outline.Accepted

/-! # Where the faults of a script are

Faults are never taken back. A line adds faults at its own tokens, and one at the
line before it if that should have owned it
(`NpcScript.Outline.adds_settle`, `NpcScript.Outline.adds_line`). So the faults
of a script stand in the order of its lines, each at one of its tokens, and every
line with a token that can stand in no line has one of its own
(`NpcScript.Outline.Told.after_lines`).
-/

namespace NpcScript

/-- The number of a line. -/
def Line.number (line : Line) : Nat := line.first.location.line

/-- All tokens of a line carry its number. -/
def Line.Straight (line : Line) : Prop :=
  ∀ token ∈ line.tokens, token.location.line = line.number

private theorem Line.Straight.line_eq {line : Line} (straight : line.Straight) {location : Location}
    (holds : line.Holds location) : location.line = line.number := by
  obtain ⟨token, member, rfl⟩ := holds
  exact straight token member

namespace Outline

/-- The second outline has the faults of the first one and further ones, which are at given
places. -/
def Adds (place : Location → Prop) (before after : Outline) : Prop :=
  ∃ own, after.errors = own ++ before.errors ∧ ∀ error ∈ own, place error.location

/-- The place of the most recent line, if it may own the block below it. -/
def Awaits (o : Outline) (location : Location) : Prop :=
  ∃ opener ∈ o.opener, opener.location = location

variable {o first second third : Outline} {l : Line} {place : Location → Prop}

section Adds

private theorem Adds.of_eq (same : second.errors = first.errors) : Adds place first second :=
  ⟨[], same, by simp⟩

/-- What is added in two steps is added. -/
theorem Adds.trans (left : Adds place first second) (right : Adds place second third) :
    Adds place first third := by
  obtain ⟨own, same, here⟩ := left
  obtain ⟨more, sameMore, hereMore⟩ := right
  refine ⟨more ++ own, by rw [sameMore, same, List.append_assoc], ?_⟩
  exact List.forall_mem_append.mpr ⟨hereMore, here⟩

private theorem Adds.mem (adds : Adds place first second) {error : CompileError}
    (member : error ∈ first.errors) : error ∈ second.errors := by
  obtain ⟨own, same, _⟩ := adds
  rw [same]
  exact List.mem_append_right _ member

/-- What holds of the places of the faults found before and of the further ones. -/
theorem Adds.forall (adds : Adds place first second) {holds : Location → Prop}
    (earlier : ∀ error ∈ first.errors, holds error.location)
    (here : ∀ location, place location → holds location) :
    ∀ error ∈ second.errors, holds error.location := by
  obtain ⟨own, same, placed⟩ := adds
  rw [same]
  exact List.forall_mem_append.mpr ⟨fun error member => here _ (placed error member), earlier⟩

private theorem adds_error (o : Outline) (fault : CompileFault) {location : Location}
    (here : place location) : Adds place o (o.error fault location) :=
  ⟨[⟨fault, location⟩], rfl, by simpa using here⟩

private theorem adds_reserveLabel (o : Outline) {location : Location} (here : place location) :
    Adds place o (o.reserveLabel location) := by
  unfold reserveLabel
  split
  · exact adds_error o _ here
  · exact .of_eq rfl

private theorem adds_openBlock (o : Outline) {opener : Opener} (here : place opener.location) :
    Adds place o (o.openBlock opener) := by
  unfold openBlock
  split
  · exact .of_eq rfl
  · exact adds_reserveLabel o here

/-- When a line follows, a fault may be found at the line before it. -/
theorem adds_settle (o : Outline) (indent : Nat) : Adds o.Awaits o (o.settle indent) := by
  unfold settle
  cases known : o.opener with
  | none => exact .of_eq rfl
  | some opener =>
      have here : o.Awaits opener.location := ⟨opener, known, rfl⟩
      dsimp only
      split
      · exact adds_openBlock _ here
      · split
        · exact adds_error _ _ here
        · exact .of_eq rfl

/-- At the end of a script, a fault may be found at its last line. -/
theorem adds_finish (o : Outline) : Adds o.Awaits o o.finish := by
  unfold finish
  cases known : o.opener with
  | none => exact .of_eq rfl
  | some opener =>
      have here : o.Awaits opener.location := ⟨opener, known, rfl⟩
      dsimp only
      split
      · exact adds_error _ _ here
      · exact .of_eq rfl

end Adds

/-! ## What a line adds -/

private theorem adds_otherwise (o : Outline) (l : Line) (closed : Option BlockRole) :
    Adds l.Holds o (o.otherwise l closed) := by
  unfold otherwise
  split
  · exact adds_reserveLabel o l.holds_first
  · exact adds_error o _ l.holds_first
  · exact adds_error o _ l.holds_first

private theorem adds_statement (o : Outline) (l : Line) (closed : Option BlockRole) :
    Adds l.Holds o (o.statement l closed) := by
  unfold statement
  cases reading : Statement.ofLine l with
  | ok st =>
      cases st with
      | call _ | assign _ _ => exact .of_eq rfl
      | otherwise => exact adds_otherwise o l closed
  | error rejection =>
      have here : ∀ error ∈ rejection.errors.reverse, l.Holds error.location := by
        simpa using (Statement.found_of_ofLine_error reading).placed
      dsimp only
      split
      · exact ⟨_, rfl, here⟩
      · exact ⟨_, rfl, here⟩

/-- A line adds faults at its own tokens. -/
theorem adds_line (o : Outline) (l : Line) : Adds l.Holds (o.settle l.indent) (o.line l) := by
  unfold line
  dsimp only
  split
  · exact adds_error _ _ l.holds_first
  · exact adds_statement ((o.settle l.indent).close l.indent) l _

private theorem eq_of_awaits_await {name : String} {role : OpenerRole} {location : Location}
    (awaits : (o.await l name role).Awaits location) : location = l.first.location := by
  obtain ⟨opener, ⟨⟩, rfl⟩ := awaits
  rfl

private theorem not_awaits (quiet : o.opener = none) {location : Location} :
    ¬o.Awaits location := by
  rintro ⟨opener, known, _⟩
  rw [quiet] at known
  cases known

private theorem eq_of_awaits_statement {closed : Option BlockRole} (quiet : o.opener = none)
    {location : Location} (awaits : (o.statement l closed).Awaits location) :
    location = l.first.location := by
  unfold statement at awaits
  split at awaits
  · exact eq_of_awaits_await awaits
  · unfold otherwise at awaits
    split at awaits <;> exact eq_of_awaits_await awaits
  · exact absurd awaits (not_awaits quiet)
  · dsimp only at awaits
    split at awaits
    · exact eq_of_awaits_await awaits
    · exact absurd awaits (not_awaits quiet)

/-- Behind a line, only the line itself may own the block below it. -/
theorem eq_of_awaits_line {location : Location} (awaits : (o.line l).Awaits location) :
    location = l.first.location := by
  have quiet : (o.settle l.indent).opener = none := opener_settle o l.indent
  unfold line at awaits
  dsimp only at awaits
  split at awaits
  · exact absurd awaits (not_awaits quiet)
  · exact eq_of_awaits_statement (o := (o.settle l.indent).close l.indent) quiet awaits

/-- A line with a token that can stand in no line has a fault, whatever stands around it. -/
theorem exists_error_of_faulty (o : Outline) (faulty : ∃ token ∈ l.tokens, token.Faulty) :
    ∃ error ∈ (o.line l).errors, l.Holds error.location := by
  obtain ⟨rejection, reading⟩ := Statement.ofLine_of_faulty faulty
  have found := Statement.found_of_ofLine_error reading
  obtain ⟨error, member⟩ := List.exists_mem_of_ne_nil _ found.nonempty
  have holds := found.placed error member
  unfold line
  dsimp only
  split
  · exact ⟨_, List.mem_cons_self, l.holds_first⟩
  · have noted : error ∈ rejection.errors.reverse := List.mem_reverse.mpr member
    simp only [statement, reading]
    split <;> exact ⟨error, List.mem_append_left _ noted, holds⟩

/-! ## Faults in the order of the lines -/

/-- The faults found so far stand in the order of their lines, none of them further down than a
given line. -/
structure Sorted (o : Outline) (number : Nat) : Prop where
  ordered : o.errors.Pairwise fun later earlier => earlier.location.line ≤ later.location.line
  bounded : ∀ error ∈ o.errors, error.location.line ≤ number

/-- Faults on the line that is reached keep the order. -/
theorem Adds.sorted {number : Nat} (adds : Adds place first second) (sorted : first.Sorted number)
    (here : ∀ location, place location → location.line = number) : second.Sorted number := by
  refine ⟨?_, adds.forall sorted.bounded fun location placed => (here location placed).le⟩
  obtain ⟨own, same, placed⟩ := adds
  have level : ∀ error ∈ own, error.location.line = number :=
    fun error member => here _ (placed error member)
  rw [same, List.pairwise_append]
  refine ⟨List.pairwise_of_forall_mem_list fun later memberLater earlier memberEarlier => ?_,
    sorted.ordered, fun later memberLater earlier memberEarlier => ?_⟩
  · rw [level later memberLater, level earlier memberEarlier]
  · rw [level later memberLater]
    exact sorted.bounded earlier memberEarlier

/-- What the faults tell of the lines read so far, up to the line of a given number. -/
structure Told (o : Outline) (past : List Line) (number : Nat) : Prop where
  sorted : o.Sorted number
  placed : ∀ error ∈ o.errors, ∃ line ∈ past, line.Holds error.location
  awaited : ∀ location, o.Awaits location →
    location.line = number ∧ ∃ line ∈ past, line.Holds location
  complete : ∀ line ∈ past, (∃ token ∈ line.tokens, token.Faulty) →
    ∃ error ∈ o.errors, error.location.line = line.number

/-- In front of the first line there is nothing to tell. -/
theorem told_empty : empty.Told [] 0 where
  sorted := ⟨.nil, by simp [empty]⟩
  placed := by simp [empty]
  awaited := by rintro _ ⟨_, ⟨⟩, _⟩
  complete := by simp

/-- **What reading a line preserves.** -/
theorem Told.after_line {past : List Line} {number : Nat} (told : o.Told past number)
    (straight : l.Straight) (later : number ≤ l.number) :
    (o.line l).Told (past ++ [l]) l.number where
  sorted := by
    have settled : (o.settle l.indent).Sorted number :=
      (adds_settle o l.indent).sorted told.sorted fun location awaits => (told.awaited _ awaits).1
    have reached : (o.settle l.indent).Sorted l.number :=
      ⟨settled.ordered, fun error member => (settled.bounded error member).trans later⟩
    exact (adds_line o l).sorted reached fun location holds => straight.line_eq holds
  placed := by
    let held (location : Location) : Prop := ∃ line ∈ past ++ [l], line.Holds location
    have further {location : Location} : (∃ line ∈ past, line.Holds location) → held location := by
      rintro ⟨line, inPast, holds⟩
      exact ⟨line, List.mem_append_left _ inPast, holds⟩
    have settled : ∀ error ∈ (o.settle l.indent).errors, held error.location :=
      (adds_settle o l.indent).forall (fun error member => further (told.placed error member))
        fun location awaits => further (told.awaited location awaits).2
    exact (adds_line o l).forall settled fun location holds => ⟨l, by simp, holds⟩
  awaited location awaits := by
    obtain rfl := eq_of_awaits_line awaits
    exact ⟨rfl, l, by simp, l.holds_first⟩
  complete := by
    intro line member faulty
    rcases List.mem_append.mp member with inPast | here
    · obtain ⟨error, found, number⟩ := told.complete line inPast faulty
      exact ⟨error, (adds_line o l).mem ((adds_settle o l.indent).mem found), number⟩
    · obtain rfl := List.mem_singleton.mp here
      obtain ⟨error, found, holds⟩ := exists_error_of_faulty o faulty
      exact ⟨error, found, straight.line_eq holds⟩

/-- **What reading lines one below the other preserves.** -/
theorem Told.after_lines {past lines : List Line} {number : Nat} (told : o.Told past number)
    (straight : ∀ line ∈ lines, line.Straight) (later : ∀ line ∈ lines, number ≤ line.number)
    (below : lines.Pairwise fun upper lower => upper.number ≤ lower.number) :
    ∃ number, (lines.foldl line o).Told (past ++ lines) number := by
  induction lines generalizing o past number with
  | nil => exact ⟨number, by simpa using told⟩
  | cons l lines ih =>
      obtain ⟨belowHead, belowRest⟩ := List.pairwise_cons.mp below
      have read := told.after_line (straight l (by simp)) (later l (by simp))
      obtain ⟨last, toldLast⟩ := ih read (fun line member => straight line (by simp [member]))
        belowHead belowRest
      exact ⟨last, by simpa using toldLast⟩

/-- The end of a script is told at its last line. -/
theorem Told.after_finish {past : List Line} {number : Nat} (told : o.Told past number) :
    o.finish.Sorted number ∧ (∀ error ∈ o.finish.errors, ∃ line ∈ past, line.Holds error.location) ∧
      ∀ line ∈ past, (∃ token ∈ line.tokens, token.Faulty) →
        ∃ error ∈ o.finish.errors, error.location.line = line.number := by
  have finished := adds_finish o
  refine ⟨finished.sorted told.sorted fun location awaits => (told.awaited location awaits).1,
    finished.forall told.placed fun location awaits => (told.awaited location awaits).2, ?_⟩
  intro line member faulty
  obtain ⟨error, found, number⟩ := told.complete line member faulty
  exact ⟨error, finished.mem found, number⟩

end Outline
end NpcScript
