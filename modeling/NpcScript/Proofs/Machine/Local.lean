import NpcScript.Proofs.Machine.Paired

/-! # Local scripts

A script is local if its operations make no use of the world and its terms read
only what the mind holds. Two runs of a local script from one mind are twins: they
go the same way word by word, whatever their worlds are and whatever their
journals hold, defects included, and they leave their worlds as they are
(`NpcScript.Machine.run_twins`).
-/

namespace NpcScript

/-- A variable whose value is a matter of the mind alone. -/
def Variable.isInward : Variable → Bool
  | .tmpX | .tmpY | .tmpDistance | .tmpTurn | .tmpArgument | .selfCounter | .selfOrder |
  .selfState | .selfContent | .selfIndex | .xyDistance => true
  | _ => false

private theorem Mind.read_of_isInward (mind : Mind) (world world' : World) {v : Variable}
    (inward : v.isInward) : (mind.read world v).1 = (mind.read world' v).1 ∧
      (mind.read world v).2 = world := by
  cases v <;> first | (cases inward; done) | exact ⟨rfl, rfl⟩

namespace Builtin

/-- An operation that makes no use of the world: it leaves every world as it is, and does the same
to the mind in all of them. -/
structure Inward (b : Builtin) : Prop where
  world : ∀ mind world, (b.perform mind world).world = world
  signal : ∀ mind world world', (b.perform mind world).signal = (b.perform mind world').signal
  mind : ∀ mind world world', (b.perform mind world).mind = (b.perform mind world').mind

/-- The operations that work on alerts, bits, states, numbers, stored places and waypoints, that
look at the target without asking whether it is there, and that only shape the script. -/
def isInward : Builtin → Bool
  | .elseBlock | .endScript | .stop | .doNothing | .setAlertBit | .clearAlertBit | .testAlertBit |
  .setAlert | .clearAlert | .testAlert | .setBit | .clearBit | .testBit | .setBits | .clearBits |
  .testBits | .ifSpawned | .ifAttacked | .ifBumped | .ifOrdered | .ifCalledForHelp | .ifKilled |
  .ifTargetKilled | .ifAtWaypoint | .ifAtLastWaypoint | .ifHealed | .ifGrabbed | .ifDropped |
  .ifUsed | .ifScoredAHit | .ifBored | .ifBlocked | .ifHitGround | .ifLevelUp | .ifInWater |
  .ifCrushed | .ifLeaderKilled | .ifChanged | .setState | .getState | .ifStateIs |
  .ifStateIsNot | .ifStateIsOdd | .ifStateIs0 | .ifStateIs1 | .ifStateIs2 | .ifStateIs3 |
  .setContent | .getContent | .ifContentIs | .ifXIsLessThanY | .ifYIsLessThanX |
  .ifXIsEqualToY | .ifXIsMoreThanY | .setXY | .getXY | .addXY | .clearWaypoints |
  .addWaypoint | .setOldTarget | .setTargetToSelf | .ifTargetIsSelf | .ifTargetIsOldTarget |
  .ifDistanceIsMoreThanTurn | .setDamageType | .debugMessage => true
  | _ => false

/-- These operations make no use of the world. -/
theorem inward_of_isInward {b : Builtin} (inward : b.isInward) : b.Inward := by
  cases b <;> first
    | (cases inward; done)
    | exact ⟨fun _ _ => rfl, fun _ _ _ => rfl, fun _ _ _ => rfl⟩
    | skip
  case setAlertBit | clearAlertBit | addWaypoint =>
    constructor <;> intros <;> simp only [perform] <;> split <;> rfl

end Builtin

/-- A script whose calls make no use of the world and whose terms read only what the mind holds. It
may be malformed in any way. -/
structure Script.Local (script : Script) : Prop where
  calls : ∀ word ∈ script.words, ∀ index label, Instruction.decode word = .ok (.call index label) →
    ∀ b, Builtin.ofIndex? index = some b → b.Inward
  reads : ∀ word ∈ script.words, ∀ op slot,
    Instruction.decode word = .ok (.term op (.var slot)) →
      ∀ v, Variable.ofSlot? slot = some v → v.isInward

namespace Script

/-- Whether all that a script calls and reads is known to keep to the mind. -/
def isLocal (script : Script) : Bool :=
  script.words.all fun word =>
    match Instruction.decode word with
    | .ok (.call index _) => (Builtin.ofIndex? index).all Builtin.isInward
    | .ok (.term _ (.var slot)) => (Variable.ofSlot? slot).all Variable.isInward
    | _ => true

/-- The test for local scripts is correct. -/
theorem local_of_isLocal {script : Script} (accepts : script.isLocal) : script.Local := by
  have each := Array.all_eq_true_iff_forall_mem.mp accepts
  constructor
  · intro word inside index label decoded b known
    have inward := each word inside
    rw [decoded] at inward
    dsimp only at inward
    rw [known] at inward
    exact Builtin.inward_of_isInward inward
  · intro word inside op slot decoded v known
    have inward := each word inside
    rw [decoded] at inward
    dsimp only at inward
    rw [known] at inward
    exact inward

end Script

/-- Two runs with the same mind, each in a world of its own. -/
structure RunState.Twins (world world' : World) (s s' : RunState) : Prop where
  mind : s'.mind = s.mind
  left : s.world = world
  right : s'.world = world'

/-- Twins stay twins in every run of a local script: both read the same values out of the mind, each
in front of its own world. -/
def Machine.twins {script : Script} (isLocal : script.Local) (world world' : World) :
    Machine.Pairing script where
  rel := RunState.Twins world world'
  counter twins := by rw [twins.mind]
  journals _ _ twins := ⟨twins.mind, twins.left, twins.right⟩
  goto offset twins := ⟨by simp only [RunState.goto, twins.mind], twins.left, twins.right⟩
  finish phase twins := ⟨by simp only [RunState.finish, twins.mind], twins.left, twins.right⟩
  zero twins := ⟨by simp only [twins.mind], twins.left, twins.right⟩
  fold op value twins := ⟨by simp only [RunState.fold, twins.mind], twins.left, twins.right⟩
  write v value twins := ⟨by simp only [twins.mind], twins.left, twins.right⟩
  reads {s s'} word _ _ v twins inside decoded known := by
    have inward := isLocal.reads word inside _ _ decoded v known
    have here := s.mind.read_of_isInward s.world s'.world inward
    have there := s.mind.read_of_isInward s'.world s.world inward
    rw [twins.mind]
    exact ⟨here.1.symm, rfl, here.2.trans twins.left, there.2.trans twins.right⟩
  calls {s s'} word _ _ b twins inside decoded known := by
    have inward := isLocal.calls word inside _ _ decoded b known
    rw [twins.mind]
    refine ⟨inward.signal _ _ _, inward.mind _ _ _, ?_, ?_⟩
    · exact (inward.world _ _).trans twins.left
    · exact (inward.world _ _).trans twins.right

/-- **Runs of a local script.** They depend on the mind that they begin with and on the ceiling, and
on nothing else, and they change nothing but the mind. -/
theorem Machine.run_twins {world world' : World} {s s' : RunState} {script : Script}
    (isLocal : script.Local) {machine machine' : Machine}
    (ceiling : machine'.ceiling = machine.ceiling) (twins : RunState.Twins world world' s s') :
    (machine'.run script s').1 = (machine.run script s).1 ∧
      RunState.Twins world world' (machine.run script s).2 (machine'.run script s').2 := by
  have begun : RunState.Twins world world' (started s) (started s') :=
    ⟨by simp only [started, twins.mind], twins.left, twins.right⟩
  exact (Machine.twins isLocal world world').run ceiling begun

end NpcScript
