import NpcScript.Builtin.Perform

/-! # What no operation looks at

An operation neither reads nor writes the registers of the run that called it,
and of the alerts posted so far it only appends to the list. Both are one law
(`NpcScript.Builtin.perform_frame`): carrying an operation out commutes with
setting the registers and with putting earlier posts in front.
-/

namespace NpcScript

/-- The part of a mind that belongs to the run of its script. -/
structure Registers where
  counter : Nat
  phase : Phase
  working : Int32
  operand : Int32

namespace Mind

/-- The registers of a mind. -/
def registers (mind : Mind) : Registers :=
  ⟨mind.counter, mind.phase, mind.working, mind.operand⟩

/-- The mind with other registers. -/
def withRegisters (mind : Mind) (registers : Registers) : Mind :=
  { mind with
    counter := registers.counter
    phase := registers.phase
    working := registers.working
    operand := registers.operand }

variable (mind : Mind) (registers : Registers)

@[simp]
theorem withRegisters_registers : mind.withRegisters mind.registers = mind := rfl

@[simp]
theorem withRegisters_entity : (mind.withRegisters registers).entity = mind.entity := rfl

@[simp]
theorem withRegisters_vars : (mind.withRegisters registers).vars = mind.vars := rfl

end Mind

namespace World

/-- The world with alerts that were posted earlier. -/
def posting (world : World) (earlier : Array (Handle × Post)) : World :=
  { world with posted := earlier ++ world.posted }

variable (world : World) (earlier : Array (Handle × Post)) (h : Handle)

@[simp]
theorem posting_empty : world.posting #[] = world := by
  simp [posting]

@[simp]
theorem entity?_posting : (world.posting earlier).entity? h = world.entity? h := rfl

@[simp]
theorem contains_posting : (world.posting earlier).contains h = world.contains h := rfl

private theorem change_posting (f : Entity → Entity) (event : WorldEvent) :
    (world.posting earlier).change h f event =
      (world.change h f event).map (·.posting earlier) := by
  simp only [change, entity?_posting, Option.map_map]
  rfl

private theorem remove_posting :
    (world.posting earlier).remove h = (world.remove h).map (·.posting earlier) := by
  rw [remove, remove, contains_posting]
  split <;> rfl

private theorem spawn_posting (x y turn : Int32) :
    (world.posting earlier).spawn h x y turn =
      (world.spawn h x y turn).map fun (child, world) => (child, world.posting earlier) := by
  simp only [spawn, entity?_posting, Option.map_map]
  rfl

private theorem spawnParticle_posting (particle x y : Int32) :
    (world.posting earlier).spawnParticle h particle x y =
      (world.spawnParticle h particle x y).map (·.posting earlier) := by
  rw [spawnParticle, spawnParticle, contains_posting]
  split <;> rfl

private theorem doAction_posting (action : Int32) :
    (world.posting earlier).doAction h action =
      (world.doAction h action).map (·.posting earlier) := by
  rw [doAction, doAction, contains_posting]
  split <;> rfl

private theorem post_posting (post : Post) :
    (world.posting earlier).post h post = (world.post h post).posting earlier := by
  simp [World.post, posting]

end World

/-- A reply with other registers and with earlier posts. -/
def Reply.framed (reply : Reply) (registers : Registers) (earlier : Array (Handle × Post)) :
    Reply :=
  ⟨reply.signal, reply.mind.withRegisters registers, reply.world.posting earlier⟩

namespace Builtin

private theorem postAll_posting (world : World) (earlier : Array (Handle × Post))
    (posts : List (Handle × Post)) :
    postAll (world.posting earlier) posts = (postAll world posts).posting earlier := by
  induction posts generalizing world with
  | nil => rfl
  | cons post posts ih =>
      obtain ⟨target, post⟩ := post
      change postAll ((world.posting earlier).post target post) posts = _
      rw [World.post_posting, ih]
      rfl

variable (mind : Mind) (world : World) (registers : Registers) (earlier : Array (Handle × Post))

private theorem liveTarget?_framed :
    (mind.withRegisters registers).liveTarget? (world.posting earlier) = mind.liveTarget? world :=
  rfl

private theorem attempt_frame {change framed : Option World}
    (same : framed = change.map (·.posting earlier)) :
    attempt (mind.withRegisters registers) (world.posting earlier) framed =
      (attempt mind world change).framed registers earlier := by
  subst same
  cases change <;> rfl

private theorem onTarget_frame {change framed : Handle → Option World}
    (same : ∀ target, framed target = (change target).map (·.posting earlier)) :
    onTarget (mind.withRegisters registers) (world.posting earlier) framed =
      (onTarget mind world change).framed registers earlier := by
  apply attempt_frame
  rw [liveTarget?_framed]
  cases mind.liveTarget? world with
  | none => rfl
  | some target => exact same target

private theorem retarget_frame (candidate : Option Handle) :
    retarget (mind.withRegisters registers) (world.posting earlier) candidate =
      (retarget mind world candidate).framed registers earlier := by
  have same : (world.posting earlier).contains = world.contains := rfl
  rw [retarget, retarget, same]
  cases candidate.filter world.contains <;> rfl

/-- **The frame of an operation.** It commutes with setting the registers and with putting
earlier posts in front. -/
theorem perform_frame (b : Builtin) :
    b.perform (mind.withRegisters registers) (world.posting earlier) =
      (b.perform mind world).framed registers earlier := by
  -- Most operations only build records, and the two sides are the same record.
  cases b <;> try rfl
  case setAlertBit | clearAlertBit =>
    simp only [perform, Mind.withRegisters_vars]
    cases AlertKind.ofBit? mind.vars.argument <;> rfl
  case addWaypoint =>
    simp only [perform]
    change (if Mind.maxWaypoints ≤ mind.waypoints.length then _ else _) = _
    split <;> rfl
  case setTargetToNearbyEnemy | setTargetToNearestEnemy | setTargetToNearestFriend |
      setTargetToNearestLifeform | setTargetToWideEnemy | setTargetToWhoeverAttacked |
      setTargetToWhoeverBumped | setTargetToWhoeverCalledForHelp | setTargetToOldTarget |
      setTargetToOwner | setTargetToChild | setTargetToNearestBlahID =>
    exact retarget_frame mind world registers earlier _
  case setOwnerToTarget =>
    simp only [perform, liveTarget?_framed]
    cases mind.liveTarget? world <;> rfl
  case damageTarget | healTarget | killTarget | teleportTarget | giveMoneyToTarget |
      giveExperienceToTarget =>
    exact onTarget_frame mind world registers earlier fun _ => World.change_posting ..
  case healSelf | teleport | run | walk | sneak =>
    exact attempt_frame mind world registers earlier (World.change_posting ..)
  case spawnCharacter =>
    simp only [perform, World.spawn_posting, Mind.withRegisters_entity, Mind.withRegisters_vars]
    cases world.spawn mind.entity mind.vars.x mind.vars.y mind.vars.turn <;> rfl
  case spawnParticle =>
    exact attempt_frame mind world registers earlier (World.spawnParticle_posting ..)
  case doAction => exact attempt_frame mind world registers earlier (World.doAction_posting ..)
  case callForHelp | issueOrder =>
    refine attempt_frame mind world registers earlier ?_
    change (teammates? mind world).map _ = _
    rw [Option.map_map]
    congr 1
    funext members
    exact postAll_posting ..
  case orderTarget =>
    apply onTarget_frame
    intro target
    rw [World.post_posting]
    rfl
  case joinTargetTeam =>
    refine attempt_frame mind world registers earlier ?_
    change ((mind.liveTarget? world).bind (teamOf? world)).bind _ = _
    cases (mind.liveTarget? world).bind (teamOf? world) with
    | none => rfl
    | some team => exact World.change_posting ..
  case goPoof =>
    simp only [perform]
    change Reply.mk .halt _ (((world.posting earlier).remove mind.entity).getD _) = _
    rw [World.remove_posting]
    cases world.remove mind.entity <;> rfl
  case poofTarget =>
    simp only [perform, liveTarget?_framed]
    cases mind.liveTarget? world with
    | none => rfl
    | some target =>
        simp only [Option.bind_some, World.remove_posting]
        cases world.remove target <;> rfl

/-- An operation leaves the registers as they are. -/
theorem perform_registers (b : Builtin) :
    (b.perform mind world).mind.registers = mind.registers := by
  have frame := perform_frame mind world mind.registers #[] b
  rw [Mind.withRegisters_registers, World.posting_empty] at frame
  rw [frame]
  rfl

/-- An operation does the same wherever it is called from. -/
theorem perform_counter (b : Builtin) (offset : Nat) :
    b.perform { mind with counter := offset } world =
      { b.perform mind world with
        mind := { (b.perform mind world).mind with counter := offset } } := by
  have frame := perform_frame mind world { mind.registers with counter := offset } #[] b
  rw [World.posting_empty] at frame
  change b.perform { mind with counter := offset } world = _ at frame
  rw [frame]
  have same := perform_registers mind world b
  generalize b.perform mind world = reply at same
  simp only [Reply.framed, World.posting_empty, Mind.withRegisters, ← same]
  rfl

end Builtin
end NpcScript
