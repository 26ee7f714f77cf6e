import NpcScript.Proofs.Compile.Simulation
import NpcScript.Proofs.Token.Known

/-! # Compilation preserves meaning

The compiled script of a text does what the lines of the text mean
(`NpcScript.Script.run_compileSource`): it dispatches the same operations with
the same replies, ends in the same way, and leaves the same mind and the same
world behind. The proof goes by way of the block of the script. The outline has
no faults, so the block has the shape of the forest of the lines; the code lays
the block out; and a laid out block runs as the block does.
-/

namespace NpcScript

/-- A run that does what a block makes of its scene up to the end of the script ends as the block
does. -/
theorem Machine.run_of_performs {machine : Machine} {script : Script} {start : Journal}
    {s : RunState} {result : Bool × Scene}
    (performs : machine.Performs script start s result script.words.size script.words.size)
    (ceiling : script.words.size ≤ machine.ceiling) :
    ∃ (last : RunState) (offset : Nat), last.Mirrors machine start result.2 offset ∧
      machine.runFrom script machine.ceiling s =
        if result.1 then (.halted, last.finish .terminated)
        else (.completed, last.finish .idle) := by
  rcases result with ⟨_ | _, scene⟩
  · obtain ⟨n, last, few, reaches, mirrors⟩ := performs
    refine ⟨last, _, mirrors, ?_⟩
    obtain ⟨left, enough⟩ := Nat.exists_eq_add_of_le (Nat.le_trans few ceiling)
    rw [enough, reaches.runFrom, runFrom_of_size_le (Nat.le_of_eq mirrors.counter.symm)]
    rfl
  · obtain ⟨n, last, offset, few, halts, mirrors⟩ := performs
    refine ⟨last, offset, mirrors, ?_⟩
    obtain ⟨left, enough⟩ := Nat.exists_eq_add_of_le
      (Nat.le_trans (Nat.succ_le_of_lt few) ceiling)
    rw [enough, halts.runFrom]
    rfl

namespace Script

/-- An accepted script is laid out from its first word to its last one. -/
theorem laysOut_ofClauses {name : String} {lines : List Line}
    (known : ∀ line ∈ lines, ∀ token ∈ line.tokens, token.Known)
    (accepts : Outline.empty.Accepts lines)
    (small : (ofClauses name (lines.filterMap Clause.ofLine?)).words.size < UInt32.size) :
    let script := ofClauses name (lines.filterMap Clause.ofLine?)
    script.LaysOut (Block.ofClauses (lines.filterMap Clause.ofLine?)) 0 script.words.size := by
  have fits := (Block.ofClauses_becomes known accepts).fits
  have few : Code.empty.labels.size + (Block.ofClauses (lines.filterMap Clause.ofLine?)).labels ≤
      Outline.maxLabels :=
    Nat.le_trans (Nat.le_of_eq (Nat.zero_add _)) (Block.ofClauses_labels accepts)
  exact Code.laysOut_append small _ Code.empty fits few
    ⟨⟨#[], by simp [ofClauses]⟩, fun _ _ _ => rfl⟩

/-- A result of which something is known is there. -/
theorem exists_ok_of_toOption {ε α β : Type} {result : Except ε α} {view : α → β} {b : β}
    (seen : result.toOption.map view = some b) : ∃ a, result = .ok a ∧ view a = b := by
  cases result with
  | error _ => cases seen
  | ok a => exact ⟨a, rfl, Option.some.inj seen⟩

/-- Tokens that compile have an outline without faults, and are laid out clause by clause. -/
theorem compile_eq_ok {name : String} {tokens : List Token} {script : Script}
    (compiled : compile name tokens = .ok script) :
    let lines := Line.group tokens
    Outline.empty.Accepts lines ∧ script = ofClauses name (lines.filterMap Clause.ofLine?) := by
  unfold compile at compiled
  dsimp only at compiled
  split at compiled
  · rename_i clean
    cases compiled
    refine ⟨?_, rfl⟩
    simpa [Outline.faults, Outline.Accepts, Outline.Clean] using clean
  · cases compiled

/-- Tokens whose outline has no faults compile. -/
theorem compile_of_accepts {name : String} {tokens : List Token}
    (accepts : Outline.empty.Accepts (Line.group tokens)) :
    compile name tokens = .ok (ofClauses name ((Line.group tokens).filterMap Clause.ofLine?)) := by
  have clean : (Outline.faults (Line.group tokens)).isEmpty := by
    rw [Outline.faults, List.isEmpty_reverse]
    exact List.isEmpty_iff.mpr accepts
  unfold compile
  exact if_pos clean

/-- A text that compiles has an outline without faults, and is laid out clause by clause. -/
theorem compileSource_eq_ok {name source : String} {symbols : SymbolTable} {script : Script}
    (compiled : compileSource name source symbols = .ok script) :
    let lines := Line.group (Lexer.tokens symbols source)
    Outline.empty.Accepts lines ∧ script = ofClauses name (lines.filterMap Clause.ofLine?) :=
  compile_eq_ok compiled

/-- **Compilation preserves meaning.** The script of a text runs as the lines of the text mean:
with the same outcome, the same mind, the same world and the same calls. Nothing is reported. A
label holds its offset in a word, so the offsets of the script have to be words. -/
theorem run_compileSource {name source : String} {symbols : SymbolTable} {script : Script}
    (compiled : compileSource name source symbols = .ok script)
    (small : script.words.size < UInt32.size) {machine : Machine}
    (ceiling : script.words.size ≤ machine.ceiling) (journal : Journal) (mind : Mind)
    (world : World) :
    let ran := machine.run script ⟨journal, mind, world⟩
    let meant := Source.run (Line.group (Lexer.tokens symbols source)) mind world
    ran.1 = meant.1 ∧ ran.2.mind = meant.2.mind ∧ ran.2.world = meant.2.world ∧
      ran.2.journal.calls =
        (if machine.recordsCalls then journal.calls ++ meant.2.calls.toArray
          else journal.calls) ∧
      ran.2.journal.reported = journal.reported := by
  obtain ⟨accepts, rfl⟩ := compileSource_eq_ok compiled
  have known : ∀ line ∈ Line.group (Lexer.tokens symbols source),
      ∀ token ∈ line.tokens, token.Known := fun line grouped token member =>
    Lexer.tokens_known symbols source token (Line.mem_of_mem_group grouped member)
  have laid := laysOut_ofClauses known accepts small
  have becomes := Block.ofClauses_becomes known accepts
  generalize Line.group (Lexer.tokens symbols source) = lines at *
  let start : Scene := ⟨{ mind with counter := 0, phase := .running }, world, []⟩
  have mirrors : RunState.Mirrors machine journal ⟨journal, start.mind, world⟩ start 0 :=
    ⟨rfl, rfl, by simp [start], rfl⟩
  obtain ⟨last, offset, mirrorsLast, ran⟩ :=
    Machine.run_of_performs (laid.simulates _ start mirrors) ceiling
  have meant := becomes.run_eq false start
  unfold Machine.run Source.run
  dsimp only
  change machine.runFrom _ _ ⟨journal, start.mind, world⟩ = _ at ran
  rw [ran, meant]
  generalize (Block.ofClauses _).run start = result at *
  obtain ⟨halted, scene⟩ := result
  cases halted with
  | false | true =>
      refine ⟨rfl, ?_, mirrorsLast.world, mirrorsLast.calls, mirrorsLast.reported⟩
      change (RunState.finish last _).mind = _
      rw [RunState.finish, mirrorsLast.mind]
      rfl

/-- A guard that picks one of two assignments, with a constant of its own. -/
def guardText : String := "IfSpawned\n  tmpx = FIVE\nElse\n  tmpx = 7 + tmpx\nEnd"

/-- The guarded assignment is carried out by the script as it is by the lines. -/
theorem run_compileSource_guard :
    let symbols := SymbolTable.standard.defineConstant "FIVE" 5
    let machine : Machine := ⟨8, true⟩
    let mind := Mind.spawned ⟨0⟩
    ∃ script, compileSource "guard" guardText symbols = .ok script ∧
      script.words.size < UInt32.size ∧ script.words.size ≤ machine.ceiling ∧
      (let ran := machine.run script ⟨.empty, mind, .empty⟩
       let meant := Source.run (Line.group (Lexer.tokens symbols guardText)) mind .empty
       ran.1 = meant.1 ∧ ran.2.mind = meant.2.mind ∧ ran.2.world = meant.2.world ∧
         ran.2.journal.calls = (#[] : Array CallRecord) ++ meant.2.calls.toArray ∧
         ran.2.journal.reported = []) := by
  have size : (compileSource "guard" guardText
      (SymbolTable.standard.defineConstant "FIVE" 5)).toOption.map (·.words.size) = some 8 := by
    decide +kernel
  intro symbols machine mind
  cases compiled : compileSource "guard" guardText symbols with
  | error diagnostics =>
      rw [compiled] at size
      cases size
  | ok script =>
      rw [compiled] at size
      have eight : script.words.size = 8 := Option.some.inj size
      have small : script.words.size < UInt32.size := by rw [eight]; decide
      have ceiling : script.words.size ≤ machine.ceiling := Nat.le_of_eq eight
      exact ⟨script, rfl, small, ceiling,
        run_compileSource compiled small ceiling .empty mind .empty⟩

end Script
end NpcScript
