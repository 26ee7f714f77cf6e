import NpcScript.Proofs.Builtin.Effects
import NpcScript.Proofs.Builtin.Frame

/-! # How operations reply

A test leaves everything as it is and keeps its result
(`NpcScript.Builtin.tested_perform`). Any other operation is refused before it has
changed anything, or it is carried out and leaves the result of the last test
alone (`NpcScript.Builtin.acts_perform`). Hence nothing that is skipped has an
effect (`NpcScript.Builtin.perform_of_skipped`), and the table of operations has
the frame that its kinds promise (`NpcScript.Builtin.perform_kind`).
-/

namespace NpcScript
namespace Builtin

variable {mind : Mind} {world : World}

/-- A reply to a test: nothing has changed but the result that the mind keeps, and the signal says
what the result is. -/
structure Tested (mind : Mind) (world : World) (reply : Reply) : Prop where
  world : reply.world = world
  mind : reply.mind = { mind with lastCondition := reply.mind.lastCondition }
  proceed_iff : reply.signal = .proceed ↔ reply.mind.lastCondition = true
  skip_iff : reply.signal = .skip ↔ reply.mind.lastCondition = false
  ongoing : reply.signal ≠ .halt

/-- A reply of an operation that is no test. -/
inductive Acts (mind : Mind) (world : World) : Reply → Prop
  | refused : Acts mind world (skip mind world)
  | carriedOut {mind' : Mind} {world' : World}
      (condition : mind'.lastCondition = mind.lastCondition) :
      Acts mind world (proceed mind' world')
  | ended {mind' : Mind} {world' : World}
      (condition : mind'.lastCondition = mind.lastCondition) :
      Acts mind world ⟨.halt, mind', world'⟩

private theorem tested_check (condition : Bool) :
    Tested mind world (check mind world condition) := by
  cases condition <;> exact ⟨rfl, rfl, by simp [check], by simp [check], by simp [check]⟩

private theorem acts_attempt (change : Option World) :
    Acts mind world (attempt mind world change) := by
  cases change with
  | none => exact .refused
  | some changed => exact .carriedOut rfl

private theorem acts_retarget (candidate : Option Handle) :
    Acts mind world (retarget mind world candidate) := by
  unfold retarget
  split
  · exact .carriedOut rfl
  · exact .refused

private theorem tested_perform (b : Builtin) (test : b.kind = .predicate) :
    Tested mind world (b.perform mind world) := by
  cases b <;> first | (cases test; done) | exact tested_check _

private theorem acts_perform (b : Builtin) (acts : b.kind ≠ .predicate) :
    Acts mind world (b.perform mind world) := by
  -- What is neither a search for a target nor a change of the world is always carried out.
  cases b <;> first
    | exact absurd rfl acts
    | exact .carriedOut rfl
    | exact .ended rfl
    | exact acts_attempt _
    | exact acts_retarget _
    | skip
  case setAlertBit | clearAlertBit | setOwnerToTarget | spawnCharacter =>
    simp only [perform]
    split
    · exact .carriedOut rfl
    · exact .refused
  case addWaypoint =>
    simp only [perform]
    split
    · exact .refused
    · exact .carriedOut rfl
  case poofTarget =>
    simp only [perform]
    split
    · split
      · exact .ended rfl
      · exact .carriedOut rfl
    · exact .refused

/-- **What is skipped has no effect.** An operation that skips the block it owns leaves the world as
it is, and the mind as well but for the result of the last test. -/
theorem perform_of_skipped (b : Builtin) (mind : Mind) (world : World)
    (skipped : (b.perform mind world).signal = .skip) :
    (b.perform mind world).world = world ∧
      ∃ condition, (b.perform mind world).mind = { mind with lastCondition := condition } := by
  by_cases test : b.kind = .predicate
  · have tested : Tested mind world (b.perform mind world) := tested_perform b test
    exact ⟨tested.world, _, tested.mind⟩
  · have acts : Acts mind world (b.perform mind world) := acts_perform b test
    generalize b.perform mind world = reply at acts skipped ⊢
    cases acts with
    | refused => exact ⟨rfl, mind.lastCondition, rfl⟩
    | carriedOut condition => cases skipped
    | ended condition => cases skipped

/-- A mind with as many waypoints as it can queue. -/
def fullMind : Mind := { Mind.blank ⟨0⟩ with waypoints := List.replicate Mind.maxWaypoints (3, 4) }

/-- A further waypoint is refused. -/
theorem perform_of_skipped_full :
    (Builtin.addWaypoint.perform fullMind .empty).signal = .skip ∧
      (Builtin.addWaypoint.perform fullMind .empty).world = .empty ∧
      ∃ condition, (Builtin.addWaypoint.perform fullMind .empty).mind =
        { fullMind with lastCondition := condition } :=
  ⟨rfl, perform_of_skipped .addWaypoint fullMind .empty rfl⟩

/-- **The frame of the table of operations.** A predicate changes nothing but the result of the last
test, which its signal shows; a verb leaves that result alone, and so does a word that only shapes
the script; and none of them changes what the entity is, or the registers of the run. -/
theorem perform_kind (b : Builtin) (mind : Mind) (world : World) :
    (b.kind = .predicate → Tested mind world (b.perform mind world)) ∧
      (b.kind = .verb ∨ b.kind = .flow →
        (b.perform mind world).mind.lastCondition = mind.lastCondition) ∧
      (b.perform mind world).mind.entity = mind.entity ∧
      (b.perform mind world).mind.registers = mind.registers := by
  refine ⟨tested_perform b, ?_, perform_entity b, perform_registers mind world b⟩
  intro other
  have noTest : b.kind ≠ .predicate := by
    rcases other with verb | flow
    · simp [verb]
    · simp [flow]
  have acts : Acts mind world (b.perform mind world) := acts_perform b noTest
  generalize b.perform mind world = reply at acts ⊢
  cases acts with
  | refused => rfl
  | carriedOut condition => exact condition
  | ended condition => exact condition

/-- A predicate sets the last condition, and a verb keeps it. -/
theorem perform_kind_spawned :
    Tested (.spawned ⟨0⟩) .empty (Builtin.ifSpawned.perform (.spawned ⟨0⟩) .empty) ∧
      (Builtin.goPoof.perform (.spawned ⟨0⟩) .empty).mind.lastCondition = false :=
  ⟨(perform_kind .ifSpawned (.spawned ⟨0⟩) .empty).1 rfl,
    (perform_kind .goPoof (.spawned ⟨0⟩) .empty).2.1 (.inl rfl)⟩

end Builtin
end NpcScript
