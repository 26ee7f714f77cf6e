import Mathlib.Data.List.TakeWhile
import NpcScript.Block
import NpcScript.Proofs.Outline.Accepted
import NpcScript.Proofs.Source.Stretch

/-! # Blocks nest as the lines do

The block of a script is gathered from the last line to the first one, with a
record of what follows at each level. For an accepted script each of those
records belongs to a stretch of lines: those from the next line that is not
deeper than the level up to the next shallower one
(`NpcScript.Block.tails_fit`). At the outermost level this is the whole
script, so its block has the shape of its forest
(`NpcScript.Block.ofClauses_becomes`).
-/

namespace NpcScript

/-- The forest of an accepted stretch of lines, which does not begin with an `Else`, has the shape
of a block. -/
inductive Forest.Becomes : Forest → Block → Prop where
  | empty : Forest.empty.Becomes .done
  | assign {head : Line} {rest : Forest} {target : Variable} {terms : List Term} {next : Block}
      (said : head.Says (.assign target terms)) (behind : rest.Becomes next) :
      (Forest.line head .empty rest).Becomes (.assign target terms next)
  | call {head : Line} {rest : Forest} {b : Builtin} {next : Block}
      (said : head.Says (.call b)) (behind : rest.Becomes next) :
      (Forest.line head .empty rest).Becomes (.call b next)
  | guarded {head : Line} {block rest : Forest} {b : Builtin} {body next : Block}
      (said : head.Says (.call b)) (below : block.Becomes body) (behind : rest.Becomes next) :
      (Forest.line head block rest).Becomes (.guarded b body next)
  | branch {head other : Line} {block second rest : Forest} {b : Builtin}
      {body alternative next : Block} (said : head.Says (.call b))
      (saidElse : other.Says .otherwise) (below : block.Becomes body)
      (belowElse : second.Becomes alternative) (behind : rest.Becomes next) :
      (Forest.line head block (.line other second rest)).Becomes
        (.branch b body alternative next)

namespace Block

/-- What follows at a level belongs to the forest of a stretch of lines. -/
inductive Tail.Fits : Tail → Forest → Prop where
  | plain {forest : Forest} {rest : Block} (behind : forest.Becomes rest) :
      Tail.Fits ⟨.none, rest⟩ forest
  | otherwise {head : Line} {block behindElse : Forest} {alternative rest : Block}
      (reading : Statement.ofLine head = .ok .otherwise) (said : head.Says .otherwise)
      (below : block.Becomes alternative)
      (behind : behindElse.Becomes rest) :
      Tail.Fits ⟨some alternative, rest⟩ (.line head block behindElse)

namespace Below

/-- The clauses of lines, gathered from the last one to the first. -/
def ofLines (lines : List Line) : Below :=
  (lines.filterMap Clause.ofLine?).foldr cons empty

variable (below : Below) (tail : Tail) {level other : Nat}

/-- In front of what is put at a level stands one tail for each level above it. -/
theorem length_put_front (below : Below) (level : Nat) :
    (below.tails.take level ++
      List.replicate (level - below.tails.length) Tail.none).length = level := by
  rw [List.length_append, List.length_take, List.length_replicate]
  omega

/-- What is put at a level changes nothing at the levels above it. -/
theorem tail_put_of_lt (shallower : other < level) :
    (below.put level tail).tail other = below.tail other := by
  unfold put Below.tail
  dsimp only
  rw [List.getD_eq_getElem?_getD, List.getD_eq_getElem?_getD,
    List.getElem?_append_left (by rw [length_put_front]; exact shallower)]
  by_cases present : other < below.tails.length
  · rw [List.getElem?_append_left (by rw [List.length_take]; omega),
      List.getElem?_take_of_lt shallower]
  · rw [List.getElem?_append_right (by rw [List.length_take]; omega), List.length_take,
      List.getElem?_replicate_of_lt (by omega), List.getElem?_eq_none (by omega)]
    rfl

/-- What is put at a level stands there. -/
theorem tail_put_self (level : Nat) : (below.put level tail).tail level = tail := by
  unfold put Below.tail
  dsimp only
  rw [List.getD_eq_getElem?_getD,
    List.getElem?_append_right (by rw [length_put_front]), length_put_front]
  simp

/-- What is put at a level drops what is deeper. -/
theorem tail_put_of_gt (deeper : level < other) :
    (below.put level tail).tail other = Tail.none := by
  unfold put Below.tail
  dsimp only
  rw [List.getD_eq_getElem?_getD, List.getElem?_eq_none]
  · rfl
  · rw [List.length_append, length_put_front, List.length_singleton]
    exact deeper

end Below

/-! ## Accepted scripts -/

open Source Outline

variable {o : Outline} {lines : List Line} {level : Nat}

/-- A line that makes a statement makes a clause of it at its own level. -/
theorem ofLine?_of_reading {l : Line} {st : Statement} (reading : Statement.ofLine l = .ok st) :
    Clause.ofLine? l = some ⟨l.indent, st⟩ := by
  rw [Clause.ofLine?, reading]

/-- The clause of a line is put in front of those of the lines below it. -/
theorem Below.ofLines_cons {l : Line} {st : Statement} (reading : Statement.ofLine l = .ok st) :
    Below.ofLines (l :: lines) = (Below.ofLines lines).cons ⟨l.indent, st⟩ := by
  simp [Below.ofLines, ofLine?_of_reading reading]

/-- The level of the next line. -/
theorem Below.next_ofLines (accepts : o.Accepts lines) :
    (Below.ofLines lines).next = lines.head?.map (·.indent) := by
  cases lines with
  | nil => rfl
  | cons l lines =>
      obtain ⟨_, st, reading, _⟩ := accepts.cons
      rw [Below.ofLines_cons reading]
      rfl

/-- The next line of an accepted script is at most one level deeper than the line before it. -/
theorem head_fits (accepts : o.Accepts lines) :
    ∀ next ∈ lines.head?, next.indent ≤ (o.facing lines).nesting.length := by
  intro next member
  cases lines with
  | nil => cases member
  | cons l lines =>
      cases member
      simpa [facing, nesting, depth] using accepts.cons.1

/-- The block that a line opens when the given lines follow it. -/
def own (l : Line) (st : Statement) : List Line → List BlockRole
  | [] => []
  | next :: _ => opened l.indent next.indent st

/-- A line opens one block at most. -/
theorem own_length (l : Line) (st : Statement) (lines : List Line) :
    (own l st lines).length ≤ 1 := by
  unfold own opened
  split
  · simp
  · split
    · split <;> simp
    · split <;> simp
    · simp

/-- Behind a line, the blocks that it does not end are still open, and at most its own is opened. -/
theorem nesting_facing_after (o : Outline) (l : Line) (st : Statement) (lines : List Line) :
    ((((o.settle l.indent).close l.indent).after l st).facing lines).nesting =
      (o.settle l.indent).nesting.take l.indent ++ own l st lines := by
  have quiet : ((o.settle l.indent).close l.indent).opener = none := opener_settle o l.indent
  rw [← nesting_close]
  cases lines with
  | nil =>
      rw [own, List.append_nil]
      cases st with
      | call b | assign target terms => rfl
      | otherwise => exact congrArg List.reverse (blocks_reserveLabel _ _)
  | cons next rest => exact nesting_settle_after quiet l st next.indent

/-- The blocks up to an open one. -/
theorem length_take_nesting (fits : level ≤ o.depth) : (o.nesting.take level).length = level :=
  List.length_take_of_le (by simpa [nesting, depth] using fits)

/-- The blocks that a line is inside of stay open behind it. -/
theorem nesting_facing_after_of_lt {l : Line} (fits : l.indent ≤ (o.settle l.indent).depth)
    (outer : level < l.indent) (st : Statement) (lines : List Line) :
    ((((o.settle l.indent).close l.indent).after l st).facing lines).nesting[level]? =
      (o.settle l.indent).nesting[level]? := by
  rw [nesting_facing_after, List.getElem?_append_left (by rwa [length_take_nesting fits]),
    List.getElem?_take_of_lt outer]

/-- **An `Else` ends the block of a call.** -/
theorem main_of_alternative (accepts : o.Accepts lines)
    (present : ((Below.ofLines lines).tail level).alternative ≠ none) :
    (o.facing lines).nesting[level]? = some .main := by
  induction lines generalizing o with
  | nil => exact absurd rfl present
  | cons l lines ih =>
      obtain ⟨fits, st, reading, main, acceptsRest⟩ := accepts.cons
      rw [Below.ofLines_cons reading, Below.cons] at present
      rcases Nat.lt_trichotomy level l.indent with deeper | same | shallower
      · rw [Below.tail_put_of_lt _ _ deeper] at present
        rw [facing, ← nesting_facing_after_of_lt fits deeper st lines]
        exact ih acceptsRest present
      · subst same
        rw [facing, ← closing?_eq]
        rw [Below.tail_put_self] at present
        cases st with
        | otherwise => exact main rfl
        | assign target terms => exact absurd rfl present
        | call b =>
            dsimp only at present
            split at present
            · split at present <;> exact absurd rfl present
            · exact absurd rfl present
      · rw [Below.tail_put_of_gt _ _ shallower] at present
        exact absurd rfl present

/-- Where no block of a call ends, no block of an `Else` follows. -/
theorem alternative_eq_none (accepts : o.Accepts lines)
    (notMain : (o.facing lines).nesting[level]? ≠ some .main) :
    ((Below.ofLines lines).tail level).alternative = none :=
  Decidable.not_not.mp fun present => notMain (main_of_alternative accepts present)

private theorem plain_of_not_main (accepts : o.Accepts lines) {forest : Forest}
    (fits : ((Below.ofLines lines).tail level).Fits forest)
    (notMain : (o.facing lines).nesting[level]? ≠ some .main) :
    forest.Becomes ((Below.ofLines lines).tail level).rest := by
  have nothing := alternative_eq_none accepts notMain
  generalize (Below.ofLines lines).tail level = tail at fits nothing ⊢
  cases fits with
  | plain behind => exact behind
  | otherwise => cases nothing

/-- A line owns what follows exactly if the next line is one level deeper. -/
theorem Below.isOwned_iff (accepts : o.Accepts lines) (level : Nat) :
    (Below.ofLines lines).isOwned level ↔
      ∃ next rest, lines = next :: rest ∧ next.indent = Opener.ownedLevel level := by
  rw [Below.isOwned, next_ofLines accepts]
  cases lines <;> simp

/-! ## Behind a line -/

section Behind

variable {l : Line} {st : Statement} {b : Builtin} {front : List BlockRole}

/-- A call that owns nothing of what follows opens no block. -/
theorem own_call_eq_nil (accepts : o.Accepts lines)
    (notOwned : ¬(Below.ofLines lines).isOwned l.indent) : own l (.call b) lines = [] := by
  cases lines with
  | nil => rfl
  | cons next others =>
      rw [own, opened, if_neg]
      exact fun level => notOwned
        ((Below.isOwned_iff accepts _).mpr ⟨next, others, rfl, level⟩)

variable (length : front.length = l.indent)
include length

/-- The next line is at most one level deeper. -/
theorem next_of_nested (accepts : o.Accepts lines)
    (nested : (o.facing lines).nesting = front ++ own l st lines) :
    ∀ next ∈ lines.head?, next.indent ≤ l.indent + 1 := by
  intro next member
  have fits := head_fits accepts next member
  rw [nested, List.length_append, length] at fits
  exact Nat.le_trans fits (Nat.add_le_add_left (own_length l st lines) _)

/-- No block of a call ends below the block of the line. -/
theorem not_main_below (nested : (o.facing lines).nesting = front ++ own l st lines) :
    (o.facing lines).nesting[l.indent + 1]? ≠ some .main := by
  have short := own_length l st lines
  rw [nested, List.getElem?_eq_none (by rw [List.length_append]; omega)]
  simp

/-- Behind a line that opens no block stand no deeper line and no `Else` of its own. -/
theorem quiet_of_own_nil (accepts : o.Accepts lines)
    (nested : (o.facing lines).nesting = front ++ own l st lines) (nothing : own l st lines = []) :
    (∀ next ∈ lines.head?, next.indent ≤ l.indent) ∧
      (o.facing lines).nesting[l.indent]? ≠ some .main := by
  rw [nothing, List.append_nil] at nested
  refine ⟨?_, ?_⟩
  · intro next member
    have fits := head_fits accepts next member
    rwa [nested, length] at fits
  · rw [nested, List.getElem?_eq_none (Nat.le_of_eq length)]
    simp

/-- The block of an `Else` is not followed by another one. -/
theorem not_main_of_otherwise
    (nested : (o.facing lines).nesting = front ++ own l .otherwise lines) :
    (o.facing lines).nesting[l.indent]? ≠ some .main := by
  rw [nested, List.getElem?_append_right (Nat.le_of_eq length), length, Nat.sub_self]
  cases lines with
  | nil => simp [own]
  | cons next others =>
      rw [own, opened]
      split <;> simp

/-- What follows a line at its own level, from what follows at each level behind it. -/
theorem cons_fits (accepts : o.Accepts lines) (said : l.Says st)
    (reading : Statement.ofLine l = .ok st)
    (nested : (o.facing lines).nesting = front ++ own l st lines)
    (behind : ∀ level,
      ((Below.ofLines lines).tail level).Fits (Forest.ofLines (stretch level lines))) :
    (((Below.ofLines lines).cons ⟨l.indent, st⟩).tail l.indent).Fits
      (Forest.ofLines (stretch l.indent (l :: lines))) := by
  have body := plain_of_not_main accepts (behind _) (not_main_below length nested)
  rw [ofLines_stretch (next_of_nested length accepts nested), Below.cons]
  dsimp only
  rw [Below.tail_put_self]
  cases st with
  | assign target terms =>
      obtain ⟨shallow, notMain⟩ := quiet_of_own_nil length accepts nested (by cases lines <;> rfl)
      rw [stretch_succ_eq_nil shallow, Forest.ofLines]
      exact .plain (.assign said (plain_of_not_main accepts (behind _) notMain))
  | otherwise =>
      have rest := plain_of_not_main accepts (behind _) (not_main_of_otherwise length nested)
      exact .otherwise reading said body rest
  | call b =>
      dsimp only
      split
      · cases following : (Below.ofLines lines).tail l.indent with
        | mk alternative rest =>
            have here := behind l.indent
            rw [following] at here
            generalize Forest.ofLines (stretch l.indent lines) = forest at here
            cases here with
            | plain rest => exact .plain (.guarded said body rest)
            | otherwise _ saidElse below rest =>
                exact .plain (.branch said saidElse body below rest)
      · rename_i notOwned
        obtain ⟨shallow, notMain⟩ :=
          quiet_of_own_nil length accepts nested (own_call_eq_nil accepts notOwned)
        rw [stretch_succ_eq_nil shallow, Forest.ofLines]
        exact .plain (.call said (plain_of_not_main accepts (behind _) notMain))

end Behind

/-- What follows at a level behind a line belongs to the stretch at that level. -/
theorem tails_fit (known : ∀ line ∈ lines, ∀ token ∈ line.tokens, token.Known)
    (accepts : o.Accepts lines) (level : Nat) :
    ((Below.ofLines lines).tail level).Fits (Forest.ofLines (stretch level lines)) := by
  induction lines generalizing o level with
  | nil => exact .plain (by rw [stretch]; exact Forest.ofLines.eq_1 ▸ .empty)
  | cons l lines ih =>
      obtain ⟨fits, st, reading, _, acceptsRest⟩ := accepts.cons
      replace ih := ih (fun line member => known line (by simp [member])) acceptsRest
      rw [Below.ofLines_cons reading]
      rcases Nat.lt_trichotomy level l.indent with deeper | same | shallower
      · rw [Below.cons, Below.tail_put_of_lt _ _ deeper, stretch_cons_of_gt deeper]
        exact ih level
      · subst same
        exact cons_fits (length_take_nesting fits) acceptsRest
          (Line.said_of_ofLine (known l (by simp)) reading) reading
          (nesting_facing_after o l st lines) ih
      · rw [Below.cons, Below.tail_put_of_gt _ _ shallower, stretch_cons_of_lt shallower]
        exact .plain (Forest.ofLines.eq_1 ▸ .empty)

/-- **The block of an accepted script** has the shape of the forest of its lines. -/
theorem ofClauses_becomes (known : ∀ line ∈ lines, ∀ token ∈ line.tokens, token.Known)
    (accepts : Outline.empty.Accepts lines) :
    (Forest.ofLines lines).Becomes (ofClauses (lines.filterMap Clause.ofLine?)) := by
  have firstFits := head_fits accepts
  rw [nesting_facing_empty, List.length_nil] at firstFits
  have whole : stretch 0 lines = lines := by
    rw [stretch_eq_takeWhile firstFits]
    exact List.takeWhile_eq_self_iff.mpr (by simp)
  have becomes := plain_of_not_main accepts (tails_fit known accepts 0)
    (by rw [nesting_facing_empty]; simp)
  rw [whole] at becomes
  exact becomes

end Block
end NpcScript
