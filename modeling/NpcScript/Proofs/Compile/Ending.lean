import Mathlib.Data.List.TakeWhile
import NpcScript.Proofs.Compile.Correctness

/-! # Scripts that end with `End`

A compiled script is marked unless the last of its lines at the outermost level
calls `End` (`NpcScript.Script.endsWithEnd_iff`). Every run that has not been
ended before gets to that line: the lines at the outermost level are carried out
one after the other, and those behind the last of them belong to its block. So a
script that is not marked is halted, whatever its predicates find
(`NpcScript.Script.missingEnd_of_compileSource`).
-/

namespace NpcScript

namespace Source

/-- The last of the lines at the outermost level calls `End`. -/
def EndsWithEnd (lines : List Line) : Prop :=
  ∃ front last back, lines = front ++ last :: back ∧ last.indent = 0 ∧
    last.Says (.call .endScript) ∧ ∀ line ∈ back, line.indent ≠ 0

variable {head : Line} {lines : List Line}

/-- The line that ends a script is its first one, or it stands behind the block of that. -/
theorem EndsWithEnd.of_cons (ends : EndsWithEnd (head :: lines)) :
    head.Says (.call .endScript) ∨ EndsWithEnd (lines.dropWhile (head.indent < ·.indent)) := by
  obtain ⟨front, last, back, split, outermost, said, deeper⟩ := ends
  cases front with
  | nil =>
      cases split
      exact .inl said
  | cons first front =>
      rw [List.cons_append] at split
      obtain ⟨rfl, rfl⟩ := List.cons_eq_cons.mp split
      refine .inr ⟨front.dropWhile (head.indent < ·.indent), last, back, ?_, outermost, said,
        deeper⟩
      have stops : (last :: back).dropWhile (head.indent < ·.indent) = last :: back :=
        List.dropWhile_cons_of_neg (by simp [outermost])
      rw [List.dropWhile_append, stops]
      split
      · rename_i nothing
        rw [List.isEmpty_iff.mp nothing, List.nil_append]
      · rfl

end Source

open Source

/-! ## Such lines halt -/

/-- A forest halts if all that stands behind its first block halts. -/
theorem Forest.halts_of_rest {head : Line} {block rest : Forest}
    (halts : ∀ skipped scene, (rest.run skipped scene).1 = true) (skipped : Bool)
    (scene : Scene) : ((Forest.line head block rest).run skipped scene).1 = true := by
  have andThen (result : Bool × Scene) :
      (Scene.andThen result (rest.run false)).1 = true := by
    rcases result with ⟨_ | _, after⟩
    · exact halts false after
    · rfl
  unfold Forest.run
  split
  · split
    · exact halts false scene
    · split
      · split
        · exact andThen _
        · exact halts false scene
      · rcases scene.call _ with ⟨_ | _ | _, after⟩
        · exact andThen _
        · exact halts true after
        · rfl
  · split
    · exact halts false _
    · exact halts false scene
  · exact halts false scene

/-- **Lines that end with `End` halt.** -/
theorem Source.EndsWithEnd.halts {lines : List Line} (ends : EndsWithEnd lines) (skipped : Bool)
    (scene : Scene) : ((Forest.ofLines lines).run skipped scene).1 = true := by
  induction lines using Forest.ofLines.induct generalizing skipped scene with
  | case1 =>
      obtain ⟨_ | _, _, _, impossible, _⟩ := ends <;> cases impossible
  | case2 head lines _ ihBehind =>
      rw [Forest.ofLines]
      rcases ends.of_cons with said | behind
      · rw [said.run_call]
        rfl
      · exact Forest.halts_of_rest (ihBehind behind) skipped scene

namespace Script

variable {name source : String} {symbols : SymbolTable} {script : Script} {lines : List Line}

/-! ## The mark -/

/-- The last clause at the outermost level is that of the last line there. -/
theorem endsWithEnd_filterMap (lines : List Line) :
    endsWithEnd (lines.filterMap Clause.ofLine?) ↔
      ∃ front last back, lines = front ++ last :: back ∧
        Clause.ofLine? last = some ⟨0, .call .endScript⟩ ∧
        ∀ line ∈ back, ∀ clause, Clause.ofLine? line = some clause → clause.level ≠ 0 := by
  have outermost {line : Line} {clause : Clause} :
      (Clause.ofLine? line).filter (·.level = 0) = some clause ↔
        Clause.ofLine? line = some clause ∧ clause.level = 0 := by
    simp
  have deeper {line : Line} : (Clause.ofLine? line).filter (·.level = 0) = none ↔
      ∀ clause, Clause.ofLine? line = some clause → clause.level ≠ 0 := by
    simp
  rw [endsWithEnd, decide_eq_true_iff, List.filter_filterMap, List.getLast?_filterMap,
    Option.map_eq_some_iff]
  constructor
  · rintro ⟨⟨level, _⟩, found, rfl⟩
    obtain ⟨back, last, front, split, here, behind⟩ := List.findSome?_eq_some_iff.mp found
    obtain ⟨reading, rfl⟩ := outermost.mp here
    refine ⟨front.reverse, last, back.reverse, ?_, reading, ?_⟩
    · rw [← List.reverse_reverse lines, split]
      simp
    · intro line member
      exact deeper.mp (behind line (List.mem_reverse.mp member))
  · rintro ⟨front, last, back, rfl, reading, behind⟩
    refine ⟨⟨0, .call .endScript⟩, List.findSome?_eq_some_iff.mpr ?_, rfl⟩
    refine ⟨back.reverse, last, front.reverse, by simp, outermost.mpr ⟨reading, rfl⟩, ?_⟩
    intro line member
    exact deeper.mpr (behind line (List.mem_reverse.mp member))

/-- **What the mark of a script says**, for lines that are accepted. -/
theorem endsWithEnd_iff (known : ∀ line ∈ lines, ∀ token ∈ line.tokens, token.Known)
    (accepts : Outline.empty.Accepts lines) :
    endsWithEnd (lines.filterMap Clause.ofLine?) ↔ EndsWithEnd lines := by
  have readable := accepts.readable
  rw [endsWithEnd_filterMap]
  refine exists_congr fun front => exists_congr fun last => exists_congr fun back => ?_
  refine and_congr_right fun split => ?_
  subst split
  obtain ⟨st, reading⟩ := readable last (by simp)
  have said : last.Says st := Line.said_of_ofLine (known last (by simp)) reading
  have ends : st = .call .endScript ↔ last.Says (.call .endScript) := by
    constructor
    · rintro rfl
      exact said
    · intro saidEnd
      exact saidEnd.unique (by simp) said
  have deeper : (∀ line ∈ back, ∀ clause, Clause.ofLine? line = some clause → clause.level ≠ 0) ↔
      ∀ line ∈ back, line.indent ≠ 0 := by
    refine forall₂_congr fun line member => ?_
    obtain ⟨st, reading⟩ := readable line (by simp [member])
    simp [Block.ofLine?_of_reading reading]
  rw [Block.ofLine?_of_reading reading, deeper, ← ends, ← and_assoc]
  simp

/-! ## Runs -/

/-- An accepted script is halted if its lines halt. -/
theorem run_ofClauses_halted (known : ∀ line ∈ lines, ∀ token ∈ line.tokens, token.Known)
    (accepts : Outline.empty.Accepts lines)
    (small : (ofClauses name (lines.filterMap Clause.ofLine?)).words.size < UInt32.size)
    {machine : Machine}
    (ceiling : (ofClauses name (lines.filterMap Clause.ofLine?)).words.size ≤ machine.ceiling)
    (halts : ∀ scene, ((Forest.ofLines lines).run false scene).1 = true) (s : RunState) :
    (machine.run (ofClauses name (lines.filterMap Clause.ofLine?)) s).1 = .halted := by
  have laid := laysOut_ofClauses known accepts small
  have becomes := Block.ofClauses_becomes known accepts
  let start : Scene := ⟨(Machine.started s).mind, s.world, []⟩
  have mirrors : (Machine.started s).Mirrors machine s.journal start 0 :=
    ⟨rfl, rfl, by simp [start, Machine.started], rfl⟩
  have performs := laid.simulates _ start mirrors
  obtain ⟨last, offset, _, ran⟩ := Machine.run_of_performs performs ceiling
  rw [Machine.run_eq, ran, ← becomes.run_eq false, if_pos (halts start)]

/-- **Scripts that are not marked are halted.** A script is not marked as lacking an `End` exactly
if there are lines at the outermost level and the last of them calls `End`. Every run of a script
that is not marked which may carry out as many instructions as there are words is halted. -/
theorem missingEnd_of_compileSource (compiled : compileSource name source symbols = .ok script) :
    (script.flags.contains .missingEnd = false ↔
      EndsWithEnd (Line.group (Lexer.tokens symbols source))) ∧
      (script.flags.contains .missingEnd = false → script.words.size < UInt32.size →
        ∀ (machine : Machine) (s : RunState), script.words.size ≤ machine.ceiling →
          (machine.run script s).1 = .halted) := by
  have mark : script.flags.contains .missingEnd = false ↔
      EndsWithEnd (Line.group (Lexer.tokens symbols source)) := by
    obtain ⟨accepts, rfl⟩ := compileSource_eq_ok compiled
    rw [← endsWithEnd_iff (fun _ => Line.known_of_mem_group) accepts]
    unfold ofClauses
    dsimp only
    generalize endsWithEnd _ = ends
    cases ends <;> decide
  refine ⟨mark, ?_⟩
  intro unmarked small machine s ceiling
  have halts := (mark.mp unmarked).halts false
  obtain ⟨accepts, rfl⟩ := compileSource_eq_ok compiled
  exact run_ofClauses_halted (fun _ => Line.known_of_mem_group) accepts small ceiling halts s

/-- A script with an `End` in a block, another one that owns a block, and no way around both. -/
def endingText : String := "IfSpawned\n  End\nElse\n  tmpx = 1\nEnd\n  tmpx = 2"

/-- Both ways end with an `End`, so no flag is set and every run of the script is halted. -/
theorem missingEnd_of_compileSource_ending :
    ∃ script, compileSource "ending" endingText .standard = .ok script ∧
      script.flags.contains .missingEnd = false ∧
      EndsWithEnd (Line.group (Lexer.tokens .standard endingText)) ∧
      script.words.size < UInt32.size ∧
      ∀ (machine : Machine) (s : RunState), script.words.size ≤ machine.ceiling →
        (machine.run script s).1 = .halted := by
  have shape : (compileSource "ending" endingText .standard).toOption.map
      (fun script => (script.flags.contains .missingEnd, script.words.size)) =
        some (false, 8) := by
    decide +kernel
  obtain ⟨script, compiled, seen⟩ := exists_ok_of_toOption shape
  obtain ⟨unmarked, eight⟩ := Prod.mk.inj seen
  have small : script.words.size < UInt32.size := by rw [eight]; decide
  obtain ⟨mark, halts⟩ := missingEnd_of_compileSource compiled
  exact ⟨script, compiled, unmarked, mark.mp unmarked, small, halts unmarked small⟩

end Script
end NpcScript
