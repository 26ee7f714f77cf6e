import NpcScript.Machine
import NpcScript.Statement

/-! # What the lines of a script mean

The lines of a script form a forest: the block of a line is the longest run of
deeper lines right behind it. A forest is carried out line by line on a scene,
without instruction words, labels or jumps. A call that proceeds is followed by
its block, and the block of an `Else` is carried out exactly when the call right
before it was skipped.
-/

namespace NpcScript

/-- The lines of a script with the blocks below them. -/
inductive Forest where
  | empty
  /-- A line, the block below it, and the lines behind that block. -/
  | line (head : Line) (block rest : Forest)
  deriving Inhabited

/-- Arranges lines by their levels. The block of a line is the longest run of deeper lines right
behind it. -/
def Forest.ofLines : List Line → Forest
  | [] => .empty
  | head :: lines =>
      .line head (ofLines (lines.takeWhile (head.indent < ·.indent)))
        (ofLines (lines.dropWhile (head.indent < ·.indent)))
termination_by lines => lines.length
decreasing_by
  · exact Nat.lt_succ_of_le (List.takeWhile_sublist _).length_le
  · exact Nat.lt_succ_of_le (List.dropWhile_sublist _).length_le

/-- What the lines of a script work on, and the calls that they have made. -/
structure Scene where
  mind : Mind
  world : World
  calls : List CallRecord
  deriving Inhabited

namespace Scene

/-- The value of an operand. Only a random number leaves a trace in the world. -/
def read (scene : Scene) : TokenKind → Int32 × World
  | .var slot =>
      match (Statement.slot? slot).bind Variable.ofSlot? with
      | some v => scene.mind.read scene.world v
      | none => (0, scene.world)
  | kind => (kind.value, scene.world)

/-- Folds a value into the working value. -/
def fold (scene : Scene) (op : Operator) (value : Int32) : Scene :=
  { scene with
    mind := { scene.mind with operand := value, working := op.apply scene.mind.working value } }

/-- Folds operands from left to right, each by the operator in front of it. An operand without an
operator is added. -/
def foldTokens : Operator → List Token → Scene → Scene
  | _, [], scene => scene
  | op, token :: rest, scene =>
      match token.kind with
      | .operator op => foldTokens op rest scene
      | kind =>
          let (value, world) := scene.read kind
          foldTokens .add rest ({ scene with world := world }.fold op value)

/-- Begins an expression, at zero. -/
def begin (scene : Scene) : Scene :=
  { scene with mind := { scene.mind with working := 0 } }

/-- Stores the working value. -/
def store (scene : Scene) (target : Variable) : Scene :=
  { scene with mind := scene.mind.write target scene.mind.working }

/-- Carries out an assignment of operands. -/
def assign (scene : Scene) (target : Variable) (operands : List Token) : Scene :=
  (foldTokens .add operands scene.begin).store target

/-- Carries out a call. -/
def call (scene : Scene) (b : Builtin) : Signal × Scene :=
  let reply := b.perform scene.mind scene.world
  (reply.signal,
    ⟨reply.mind, reply.world, scene.calls ++ [⟨scene.mind.entity, b, reply.signal⟩]⟩)

/-- Goes on with what follows unless the run has ended. -/
def andThen (result : Bool × Scene) (next : Scene → Bool × Scene) : Bool × Scene :=
  match result with
  | (true, scene) => (true, scene)
  | (false, scene) => next scene

end Scene

/-- Carries out lines, and tells whether the run ends there. The block of an `Else` is carried out
if the line before it was a call that was skipped. -/
def Forest.run : Forest → (skipped : Bool) → Scene → Bool × Scene
  | .empty, _, scene => (false, scene)
  | .line head block rest, skipped, scene =>
      match head.first.kind with
      | .function index =>
          match Statement.builtin? index with
          | none => rest.run false scene
          | some b =>
              if b = .elseBlock then
                if skipped then Scene.andThen (block.run false scene) (rest.run false)
                else rest.run false scene
              else
                match scene.call b with
                | (.proceed, scene) => Scene.andThen (block.run false scene) (rest.run false)
                | (.skip, scene) => rest.run true scene
                | (.halt, scene) => (true, scene)
      | .var slot =>
          match (Statement.slot? slot).bind Variable.ofSlot? with
          | some target => rest.run false (scene.assign target head.others.tail)
          | none => rest.run false scene
      | _ => rest.run false scene

namespace Source

/-- Ends a run. -/
def finish (scene : Scene) (phase : Phase) : Scene :=
  { scene with mind := { scene.mind with phase := phase, counter := 0 } }

/-- Carries out the lines of a script for an entity. -/
def run (lines : List Line) (mind : Mind) (world : World) : Outcome × Scene :=
  let start : Scene := ⟨{ mind with counter := 0, phase := .running }, world, []⟩
  match (Forest.ofLines lines).run false start with
  | (true, scene) => (.halted, finish scene .terminated)
  | (false, scene) => (.completed, finish scene .idle)

end Source
end NpcScript
