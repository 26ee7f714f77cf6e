import NpcScript.Proofs.Builtin.Effects
import NpcScript.Proofs.Machine.Ceiling

/-! # What a run leaves behind

A property of mind and world that does not speak of registers, temporaries and
random numbers and that every operation keeps is kept by every run
(`NpcScript.Machine.Kept.run`). So a run changes neither the entity of a mind nor
the bound on its waypoints, and it always leaves a mind that rests: at the first
word, not running, with no more waypoints than fit
(`NpcScript.Machine.run_rested`).
-/

namespace NpcScript

/-- A mind between two runs. -/
structure Mind.Rested (mind : Mind) : Prop where
  counter : mind.counter = 0
  phase : mind.phase ≠ .running
  waypoints : mind.waypoints.length ≤ Mind.maxWaypoints

/-- The mind of a spawned entity is at rest. -/
theorem Mind.Rested.spawned (h : Handle) : (Mind.spawned h).Rested where
  counter := rfl
  phase := nofun
  waypoints := Nat.zero_le _

namespace Builtin

variable {mind : Mind} {world : World}

private theorem waypoints_retarget (candidate : Option Handle) :
    (retarget mind world candidate).mind.waypoints = mind.waypoints := by
  unfold retarget
  split <;> rfl

/-- No operation queues more waypoints than fit. -/
theorem perform_waypoints (b : Builtin) (few : mind.waypoints.length ≤ Mind.maxWaypoints) :
    (b.perform mind world).mind.waypoints.length ≤ Mind.maxWaypoints := by
  -- Most operations leave the waypoints as they are.
  cases b <;> first | exact few | skip
  case clearWaypoints => exact Nat.zero_le _
  case addWaypoint =>
    simp only [perform]
    split
    · exact few
    · rename_i room
      change (mind.waypoints ++ [(mind.vars.x, mind.vars.y)]).length ≤ Mind.maxWaypoints
      rw [List.length_append, List.length_singleton]
      omega
  case setAlertBit | clearAlertBit | setOwnerToTarget | spawnCharacter | poofTarget =>
    simp only [perform]
    split <;> exact few
  case setTargetToNearbyEnemy | setTargetToNearestEnemy | setTargetToNearestFriend |
      setTargetToNearestLifeform | setTargetToWideEnemy | setTargetToWhoeverAttacked |
      setTargetToWhoeverBumped | setTargetToWhoeverCalledForHelp | setTargetToOldTarget |
      setTargetToOwner | setTargetToChild | setTargetToNearestBlahID =>
    exact (waypoints_retarget _).symm ▸ few
  all_goals exact (mind_attempt _).symm ▸ few

end Builtin

namespace Machine

variable {machine : Machine} {script : Script}

/-- A property of mind and world that instructions keep: operations do, and it does not speak of
what all other instructions change. -/
structure Kept (P : Mind → World → Prop) : Prop where
  aside : ∀ {mind world} registers vars seed, P mind world →
    P { mind.withRegisters registers with vars := vars } { world with seed := seed }
  acts : ∀ d : Dispatch, P d.mind d.world → P d.reply.mind d.reply.world

namespace Kept

variable {P : Mind → World → Prop} (kept : Kept P)

include kept

private theorem of_aside {s s' : RunState} (aside : RunState.Aside s s')
    (holds : P s.mind s.world) : P s'.mind s'.world := by
  obtain ⟨registers, vars, mind⟩ := aside.mind
  obtain ⟨seed, world⟩ := aside.world
  rw [mind, world]
  exact kept.aside registers vars seed holds

private theorem step (s : RunState) (word : UInt32) (holds : P s.mind s.world) :
    P (s.step machine script word).2.mind (s.step machine script word).2.world := by
  cases dispatched : s.dispatched? word with
  | none => exact kept.of_aside (RunState.step_of_none machine script dispatched) holds
  | some d =>
      obtain ⟨mind, world, after, afterMind, afterWorld, _, aside⟩ :=
        RunState.step_of_some machine script dispatched
      apply kept.of_aside aside
      rw [afterMind, afterWorld]
      apply kept.acts
      rw [mind, world]
      exact holds

/-- **What operations keep, a run keeps.** -/
theorem run (machine : Machine) (script : Script) (s : RunState) (holds : P s.mind s.world) :
    P (machine.run script s).2.mind (machine.run script s).2.world := by
  have begun : P (started s).mind (started s).world :=
    kept.aside { s.mind.registers with counter := 0, phase := .running } s.mind.vars s.world.seed
      holds
  have each (s : RunState) (word : UInt32) (holds : P s.mind s.world)
      (_ : script.words[s.mind.counter]? = some word) :
      P (s.step machine script word).2.mind (s.step machine script word).2.world :=
    kept.step s word holds
  obtain ⟨last, phase, holdsLast, ends⟩ :=
    runFrom_keeps (P := fun s => P s.mind s.world) each machine.ceiling begun
  rw [run_eq, ends]
  exact kept.aside { last.mind.registers with phase := phase, counter := 0 } last.mind.vars
    last.world.seed holdsLast

end Kept

/-- A run is for the same entity at its end as at its start. -/
theorem run_entity (machine : Machine) (script : Script) (s : RunState) :
    (machine.run script s).2.mind.entity = s.mind.entity := by
  have kept : Kept fun mind _ => mind.entity = s.mind.entity :=
    { aside := fun _ _ _ same => same
      acts := fun d same => (Builtin.perform_entity d.builtin).trans same }
  exact kept.run machine script s rfl

private theorem run_waypoints (machine : Machine) (script : Script) (s : RunState)
    (few : s.mind.waypoints.length ≤ Mind.maxWaypoints) :
    (machine.run script s).2.mind.waypoints.length ≤ Mind.maxWaypoints := by
  have kept : Kept fun mind _ => mind.waypoints.length ≤ Mind.maxWaypoints :=
    { aside := fun _ _ _ few => few
      acts := fun d few => Builtin.perform_waypoints d.builtin few }
  exact kept.run machine script s few

/-- **A run leaves a mind that rests.** -/
theorem run_rested (machine : Machine) (script : Script) (s : RunState)
    (few : s.mind.waypoints.length ≤ Mind.maxWaypoints) :
    (machine.run script s).2.mind.Rested := by
  obtain ⟨_, outcome, last, ends⟩ := exists_ends machine script machine.ceiling (started s)
  have whole : machine.run script s = (outcome, last.finish outcome.phase) := ends.runFrom
  have waypoints := machine.run_waypoints script s few
  rw [whole] at waypoints ⊢
  refine ⟨rfl, ?_, waypoints⟩
  cases outcome <;> exact nofun

end Machine
end NpcScript
