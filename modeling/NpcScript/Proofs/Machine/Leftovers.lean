import NpcScript.Proofs.Builtin.Effects
import NpcScript.Proofs.Builtin.Frame
import NpcScript.Proofs.Machine.Paired

/-! # Nothing is left over from earlier runs

A run leaves something behind in the journal and in the registers of the mind, and
a predicate leaves its result. No operation looks at any of it
(`NpcScript.Builtin.perform_condition`), every run begins at the first word, and
every expression begins with zero. So runs that differ in such leftovers alone end
alike, and then differ in them alone (`NpcScript.Machine.run_leftovers`): a run
that was suspended is begun anew without a trace of the first one, and recording
calls changes nothing.
-/

namespace NpcScript

namespace Builtin

/-- Two replies that differ at most in what the mind keeps of the last predicate. -/
structure Agrees (reply reply' : Reply) : Prop where
  signal : reply'.signal = reply.signal
  world : reply'.world = reply.world
  mind : ∃ condition, reply'.mind = { reply.mind with lastCondition := condition }

variable (mind : Mind) (world : World) (condition : Bool)

private theorem liveTarget?_condition :
    Mind.liveTarget? { mind with lastCondition := condition } world = mind.liveTarget? world := rfl

private theorem agrees_attempt (change : Option World) :
    Agrees (attempt mind world change)
      (attempt { mind with lastCondition := condition } world change) := by
  cases change <;> exact ⟨rfl, rfl, condition, rfl⟩

private theorem agrees_retarget (candidate : Option Handle) :
    Agrees (retarget mind world candidate)
      (retarget { mind with lastCondition := condition } world candidate) := by
  unfold retarget
  split <;> exact ⟨rfl, rfl, condition, rfl⟩

/-- No operation looks at what the last predicate found. -/
theorem perform_condition (b : Builtin) :
    Agrees (b.perform mind world) (b.perform { mind with lastCondition := condition } world) := by
  cases b
  case setAlertBit | clearAlertBit =>
    simp only [perform]
    cases AlertKind.ofBit? mind.vars.argument <;> exact ⟨rfl, rfl, condition, rfl⟩
  case addWaypoint =>
    simp only [perform]
    split <;> exact ⟨rfl, rfl, condition, rfl⟩
  case setOwnerToTarget =>
    simp only [perform, liveTarget?_condition]
    cases mind.liveTarget? world <;> exact ⟨rfl, rfl, condition, rfl⟩
  case spawnCharacter =>
    simp only [perform]
    cases world.spawn mind.entity mind.vars.x mind.vars.y mind.vars.turn <;>
      exact ⟨rfl, rfl, condition, rfl⟩
  case poofTarget =>
    simp only [perform, liveTarget?_condition]
    cases (mind.liveTarget? world).bind world.remove <;> exact ⟨rfl, rfl, condition, rfl⟩
  case setTargetToNearbyEnemy | setTargetToNearestEnemy | setTargetToNearestFriend |
      setTargetToNearestLifeform | setTargetToWideEnemy | setTargetToWhoeverAttacked |
      setTargetToWhoeverBumped | setTargetToWhoeverCalledForHelp | setTargetToOldTarget |
      setTargetToOwner | setTargetToChild | setTargetToNearestBlahID =>
    exact agrees_retarget mind world condition _
  case damageTarget | healTarget | killTarget | teleportTarget | giveMoneyToTarget |
      giveExperienceToTarget | healSelf | teleport | run | walk | sneak | spawnParticle | doAction |
      callForHelp | issueOrder | orderTarget | joinTargetTeam =>
    exact agrees_attempt mind world condition _
  -- A predicate puts its own result there, and other verbs leave it as it is.
  all_goals exact ⟨rfl, rfl, _, rfl⟩

/-- An operation replies the same whatever there is in the registers and of the last predicate, and
leaves the registers as they are. -/
theorem perform_leftovers (registers : Registers) (b : Builtin) :
    Agrees
      { b.perform mind world with mind := (b.perform mind world).mind.withRegisters registers }
      (b.perform { mind.withRegisters registers with lastCondition := condition } world) := by
  have frame := perform_frame mind world registers #[] b
  rw [World.posting_empty, Reply.framed, World.posting_empty] at frame
  have agrees := perform_condition (mind.withRegisters registers) world condition b
  rwa [frame] at agrees

end Builtin

/-- Two states of runs that differ at most in the registers of expressions, in what the mind keeps
of the last predicate, and in the journal. -/
structure RunState.Alike (s s' : RunState) : Prop where
  world : s'.world = s.world
  mind : ∃ working operand condition, s'.mind =
    { s.mind with working := working, operand := operand, lastCondition := condition }

namespace Machine

open RunState (Alike)

private theorem alike_fold {s s' : RunState} (op : Operator) (value : Int32) (alike : Alike s s') :
    Alike (s.fold op value) (s'.fold op value) := by
  obtain ⟨working, operand, condition, mind⟩ := alike.mind
  refine ⟨alike.world, op.apply s'.mind.working value, value, condition, ?_⟩
  simp only [RunState.fold, mind]

private theorem alike_write {s s' : RunState} (v : Variable) (value : Int32) (alike : Alike s s') :
    Alike { s with mind := s.mind.write v value } { s' with mind := s'.mind.write v value } := by
  obtain ⟨working, operand, condition, mind⟩ := alike.mind
  refine ⟨alike.world, working, operand, condition, ?_⟩
  simp only [mind]
  cases v <;> rfl

/-- No variable shows what is in the registers or what the last predicate found. -/
theorem alike_read {s s' : RunState} (v : Variable) (alike : Alike s s') :
    s'.mind.read s'.world v = s.mind.read s.world v := by
  obtain ⟨working, operand, condition, mind⟩ := alike.mind
  rw [mind, alike.world]
  rfl

private theorem alike_perform {s s' : RunState} (b : Builtin) (alike : Alike s s') :
    (b.perform s'.mind s'.world).signal = (b.perform s.mind s.world).signal ∧
      Alike
        { s with mind := (b.perform s.mind s.world).mind
                 world := (b.perform s.mind s.world).world }
        { s' with mind := (b.perform s'.mind s'.world).mind
                  world := (b.perform s'.mind s'.world).world } := by
  obtain ⟨working, operand, condition, mind⟩ := alike.mind
  have agrees := Builtin.perform_leftovers s.mind s.world condition
    { s.mind.registers with working := working, operand := operand } b
  have registers := Builtin.perform_registers s.mind s.world b
  change Builtin.Agrees _ (b.perform
    { s.mind with working := working, operand := operand, lastCondition := condition } _) at agrees
  rw [← mind, ← alike.world] at agrees
  obtain ⟨found, mind'⟩ := agrees.mind
  refine ⟨by rw [agrees.signal, alike.world], by rw [agrees.world, alike.world], ?_⟩
  refine ⟨working, operand, found, mind'.trans ?_⟩
  rw [alike.world, ← registers]
  rfl

/-- Alike states stay alike. -/
def leftovers (script : Script) : Pairing script where
  rel := Alike
  counter alike := by
    obtain ⟨_, _, _, mind⟩ := alike.mind
    rw [mind]
  journals _ _ alike := ⟨alike.world, alike.mind⟩
  goto offset alike := by
    obtain ⟨working, operand, condition, mind⟩ := alike.mind
    exact ⟨alike.world, working, operand, condition, by simp only [RunState.goto, mind]⟩
  finish phase alike := by
    obtain ⟨working, operand, condition, mind⟩ := alike.mind
    exact ⟨alike.world, working, operand, condition, by simp only [RunState.finish, mind]⟩
  zero alike := by
    obtain ⟨_, operand, condition, mind⟩ := alike.mind
    exact ⟨alike.world, 0, operand, condition, by simp only [mind]⟩
  fold := alike_fold
  write := alike_write
  reads alike _ _ _ := by
    rw [alike_read _ alike]
    exact ⟨rfl, rfl, alike.mind⟩
  calls alike _ _ _ := alike_perform _ alike

/-- **Nothing is left over.** Two runs of a script in one world may begin with different registers,
with a different result of the last predicate and with different journals, and the one may record
calls and the other not. They end in the same way, with the same world, and with minds that differ
at most in the registers of expressions and in the result of the last predicate. -/
theorem run_leftovers (script : Script) (ceiling : Nat) (records records' : Bool)
    (journal journal' : Journal) (mind : Mind) (registers : Registers) (condition : Bool)
    (world : World) :
    let ran := run ⟨ceiling, records⟩ script ⟨journal, mind, world⟩
    let ran' := run ⟨ceiling, records'⟩ script
      ⟨journal', { mind.withRegisters registers with lastCondition := condition }, world⟩
    ran'.1 = ran.1 ∧ ran'.2.world = ran.2.world ∧
      ∃ working operand condition, ran'.2.mind =
        { ran.2.mind with
          working := working, operand := operand, lastCondition := condition } := by
  intro ran ran'
  have begun : Alike (started ⟨journal, mind, world⟩)
      (started
        ⟨journal', { mind.withRegisters registers with lastCondition := condition }, world⟩) :=
    ⟨rfl, registers.working, registers.operand, condition, rfl⟩
  have same : (Machine.mk ceiling records').ceiling = (Machine.mk ceiling records).ceiling := rfl
  obtain ⟨outcome, ended⟩ := (leftovers script).run same begun
  exact ⟨outcome, ended.world, ended.mind⟩

end Machine
end NpcScript
