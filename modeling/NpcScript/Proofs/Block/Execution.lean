import NpcScript.Proofs.Block.Nesting

/-! # Carrying blocks out

A block is carried out statement by statement: a call that proceeds is followed
by the block that it owns, and a call that is skipped by the block of its
`Else`, if it has one. That is what the forest of an accepted script does
(`NpcScript.Forest.Becomes.run_eq`).
-/

namespace NpcScript

/-- Carries out an assignment of terms. -/
def Scene.assignTerms (scene : Scene) (target : Variable) (terms : List Term) : Scene :=
  (terms.foldl Scene.foldTerm scene.begin).store target

/-- Carries out a block, and tells whether the run ends there. -/
def Block.run : Block → Scene → Bool × Scene
  | .done, scene => (false, scene)
  | .assign target terms rest, scene => rest.run (scene.assignTerms target terms)
  | .call b rest, scene =>
      match scene.call b with
      | (.halt, scene) => (true, scene)
      | (_, scene) => rest.run scene
  | .guarded b body rest, scene =>
      match scene.call b with
      | (.proceed, scene) => Scene.andThen (body.run scene) rest.run
      | (.skip, scene) => rest.run scene
      | (.halt, scene) => (true, scene)
  | .branch b body alternative rest, scene =>
      match scene.call b with
      | (.proceed, scene) => Scene.andThen (body.run scene) rest.run
      | (.skip, scene) => Scene.andThen (alternative.run scene) rest.run
      | (.halt, scene) => (true, scene)

/-- The terms of every assignment fit their words, and their number fits its field. -/
def Block.Fits : Block → Prop
  | .done => True
  | .assign target terms rest =>
      target.isWritable ∧ terms.length ≤ Statement.maxTerms ∧ (∀ term ∈ terms, term.Fits) ∧
        rest.Fits
  | .call _ rest => rest.Fits
  | .guarded _ body rest => body.Fits ∧ rest.Fits
  | .branch _ body alternative rest => body.Fits ∧ alternative.Fits ∧ rest.Fits

namespace Line.Says

variable {head : Line} {block rest : Forest}

private theorem run_assign {target : Variable} {terms : List Term}
    (said : head.Says (.assign target terms)) (skipped : Bool) (scene : Scene) :
    (Forest.line head block rest).run skipped scene =
      rest.run false (scene.assignTerms target terms) := by
  cases said with
  | assign slot target terms kind known writable few fits folds =>
      simp only [Forest.run, kind, known, Scene.assign, Scene.assignTerms, folds]

/-- The signal of a call decides whether its block is run, is passed over or ends the run. -/
theorem run_call {b : Builtin} (said : head.Says (.call b)) (skipped : Bool) (scene : Scene) :
    (Forest.line head block rest).run skipped scene =
      (match scene.call b with
        | (.proceed, scene) => Scene.andThen (block.run false scene) (rest.run false)
        | (.skip, scene) => rest.run true scene
        | (.halt, scene) => (true, scene)) := by
  cases said with
  | call index b kind known notElse =>
      rcases called : scene.call b with ⟨signal, after⟩
      cases signal <;> simp only [Forest.run, kind, known, if_neg notElse, called]

private theorem run_otherwise (said : head.Says .otherwise) (skipped : Bool) (scene : Scene) :
    (Forest.line head block rest).run skipped scene =
      if skipped then Scene.andThen (block.run false scene) (rest.run false)
      else rest.run false scene := by
  cases said with
  | otherwise index kind known => simp only [Forest.run, kind, known, if_true]

end Line.Says

namespace Forest.Becomes

variable {forest : Forest} {block : Block}

/-- **A block does what its forest does.** A forest that becomes a block does not begin with an
`Else`, so it does not matter what came before it. -/
theorem run_eq (becomes : forest.Becomes block) (skipped : Bool) (scene : Scene) :
    forest.run skipped scene = block.run scene := by
  induction becomes generalizing skipped scene with
  | empty => rfl
  | assign said behind ihBehind =>
      rw [said.run_assign, Block.run]
      exact ihBehind false _
  | call said behind ihBehind =>
      rw [said.run_call, Block.run]
      rcases scene.call _ with ⟨signal, after⟩
      cases signal with
      | proceed => exact ihBehind false after
      | skip => exact ihBehind true after
      | halt => rfl
  | guarded said below behind ihBelow ihBehind =>
      rw [said.run_call, Block.run]
      rcases scene.call _ with ⟨signal, after⟩
      cases signal with
      | proceed =>
          dsimp only
          rw [ihBelow, funext fun scene => ihBehind false scene]
      | skip => exact ihBehind true after
      | halt => rfl
  | branch said saidElse below belowElse behind ihBelow ihElse ihBehind =>
      rw [said.run_call, Block.run]
      have rest := funext fun scene => ihBehind false scene
      rcases scene.call _ with ⟨signal, after⟩
      cases signal with
      | proceed =>
          dsimp only
          rw [ihBelow]
          congr 1
          funext scene
          rw [saidElse.run_otherwise]
          exact ihBehind false scene
      | skip =>
          dsimp only
          rw [saidElse.run_otherwise, if_pos rfl, ihElse, rest]
      | halt => rfl

/-- What is said on accepted lines fits its words. -/
theorem fits (becomes : forest.Becomes block) : block.Fits := by
  induction becomes with
  | empty => trivial
  | assign said behind ih =>
      cases said with
      | assign slot target terms kind known writable few fits folds =>
          exact ⟨writable, few, fits, ih⟩
  | call said behind ih => exact ih
  | guarded said below behind ihBelow ihBehind => exact ⟨ihBelow, ihBehind⟩
  | branch said saidElse below belowElse behind ihBelow ihElse ihBehind =>
      exact ⟨ihBelow, ihElse, ihBehind⟩

end Forest.Becomes
end NpcScript
