import NpcScript.Builtin.Perform

/-! # What operations do to alerts and to the mail

Four operations set or clear alerts of the entity itself, and three post alerts
to others. All other operations leave the alerts of the mind and the posts in
the world as they are (`NpcScript.Builtin.perform_alerts`,
`NpcScript.Builtin.perform_posted`).
-/

namespace NpcScript

namespace World

variable {world changed : World} {h : Handle}

private theorem posted_change {f : Entity → Entity} {event : WorldEvent}
    (changes : changed ∈ world.change h f event) : changed.posted = world.posted := by
  obtain ⟨e, _, rfl⟩ := Option.map_eq_some_iff.mp changes
  rfl

private theorem posted_remove (changes : changed ∈ world.remove h) :
    changed.posted = world.posted := by
  unfold remove at changes
  split at changes
  · cases changes
    rfl
  · cases changes

private theorem posted_spawnParticle {particle x y : Int32}
    (changes : changed ∈ world.spawnParticle h particle x y) : changed.posted = world.posted := by
  unfold spawnParticle at changes
  split at changes
  · cases changes
    rfl
  · cases changes

private theorem posted_doAction {action : Int32} (changes : changed ∈ world.doAction h action) :
    changed.posted = world.posted := by
  unfold doAction at changes
  split at changes
  · cases changes
    rfl
  · cases changes

private theorem posted_spawn {x y turn : Int32} {child : Handle}
    (changes : world.spawn h x y turn = some (child, changed)) :
    changed.posted = world.posted := by
  obtain ⟨e, _, same⟩ := Option.map_eq_some_iff.mp changes
  cases same
  rfl

end World

namespace Builtin

variable {mind : Mind} {world : World}

/-- A reply that leaves the entity, its alerts and the posts as they are. -/
structure Inert (mind : Mind) (world : World) (reply : Reply) : Prop where
  entity : reply.mind.entity = mind.entity
  alerts : reply.mind.alerts = mind.alerts
  raised : reply.mind.raised = mind.raised
  posted : reply.world.posted = world.posted

private theorem inert_attempt {change : Option World}
    (silent : ∀ changed ∈ change, changed.posted = world.posted) :
    Inert mind world (attempt mind world change) := by
  cases change with
  | none => exact ⟨rfl, rfl, rfl, rfl⟩
  | some changed => exact ⟨rfl, rfl, rfl, silent changed rfl⟩

private theorem inert_onTarget {change : Handle → Option World}
    (silent : ∀ target, ∀ changed ∈ change target, changed.posted = world.posted) :
    Inert mind world (onTarget mind world change) := by
  apply inert_attempt
  intro changed changes
  obtain ⟨target, _, changes⟩ := Option.bind_eq_some_iff.mp changes
  exact silent target changed changes

private theorem inert_retarget (candidate : Option Handle) :
    Inert mind world (retarget mind world candidate) := by
  unfold retarget
  split <;> exact ⟨rfl, rfl, rfl, rfl⟩

/-- The operations that set or clear alerts of the entity itself. -/
def setsAlerts : Builtin → Bool
  | .setAlertBit | .clearAlertBit | .setAlert | .clearAlert => true
  | _ => false

/-- The operations that post alerts to others. -/
def postsAlerts : Builtin → Bool
  | .callForHelp | .issueOrder | .orderTarget => true
  | _ => false

/-- All other operations leave alerts and posts as they are. -/
theorem perform_inert (b : Builtin) (keeps : b.setsAlerts = false)
    (silent : b.postsAlerts = false) : Inert mind world (b.perform mind world) := by
  -- Most operations only build records, and both sides are the same field.
  cases b <;> first | exact ⟨rfl, rfl, rfl, rfl⟩ | skip
  case setAlertBit | clearAlertBit | setAlert | clearAlert => cases keeps
  case callForHelp | issueOrder | orderTarget => cases silent
  case addWaypoint =>
    simp only [perform]
    split <;> exact ⟨rfl, rfl, rfl, rfl⟩
  case setOwnerToTarget =>
    simp only [perform]
    split <;> exact ⟨rfl, rfl, rfl, rfl⟩
  case setTargetToNearbyEnemy | setTargetToNearestEnemy | setTargetToNearestFriend |
      setTargetToNearestLifeform | setTargetToWideEnemy | setTargetToWhoeverAttacked |
      setTargetToWhoeverBumped | setTargetToWhoeverCalledForHelp | setTargetToOldTarget |
      setTargetToOwner | setTargetToChild | setTargetToNearestBlahID =>
    exact inert_retarget _
  case damageTarget | healTarget | killTarget | teleportTarget | giveMoneyToTarget |
      giveExperienceToTarget =>
    exact inert_onTarget fun _ _ => World.posted_change
  case healSelf | teleport | run | walk | sneak =>
    exact inert_attempt fun _ => World.posted_change
  case spawnParticle => exact inert_attempt fun _ => World.posted_spawnParticle
  case doAction => exact inert_attempt fun _ => World.posted_doAction
  case spawnCharacter =>
    simp only [perform]
    split
    · rename_i spawned
      exact ⟨rfl, rfl, rfl, World.posted_spawn spawned⟩
    · exact ⟨rfl, rfl, rfl, rfl⟩
  case joinTargetTeam =>
    apply inert_attempt
    intro changed changes
    obtain ⟨team, _, changes⟩ := Option.bind_eq_some_iff.mp changes
    exact World.posted_change changes
  case goPoof =>
    refine ⟨rfl, rfl, rfl, ?_⟩
    simp only [perform]
    cases removed : world.remove mind.entity with
    | none => rfl
    | some changed => exact World.posted_remove removed
  case poofTarget =>
    simp only [perform]
    split
    · rename_i removed
      obtain ⟨target, _, changes⟩ := Option.bind_eq_some_iff.mp removed
      exact ⟨rfl, rfl, rfl, World.posted_remove changes⟩
    · exact ⟨rfl, rfl, rfl, rfl⟩

/-- An attempt to change the world leaves the mind alone. -/
theorem mind_attempt (change : Option World) : (attempt mind world change).mind = mind := by
  cases change <;> rfl

/-- An operation that posts alerts leaves the mind as it is. -/
theorem mind_perform (b : Builtin) (posts : b.postsAlerts) :
    (b.perform mind world).mind = mind := by
  cases b <;> first | exact mind_attempt _ | cases posts

/-- An operation that sets alerts works on the alerts of the mind alone. -/
theorem world_perform (b : Builtin) (sets : b.setsAlerts) :
    (b.perform mind world).world = world ∧ (b.perform mind world).mind.entity = mind.entity := by
  cases b <;> first | exact ⟨rfl, rfl⟩ | cases sets
  case setAlertBit | clearAlertBit =>
    simp only [perform]
    split <;> exact ⟨rfl, rfl⟩

/-- No operation changes what the entity is. -/
theorem perform_entity (b : Builtin) : (b.perform mind world).mind.entity = mind.entity := by
  cases keeps : b.setsAlerts with
  | true => exact (world_perform b keeps).2
  | false =>
      cases silent : b.postsAlerts with
      | true => rw [mind_perform b silent]
      | false => exact (perform_inert b keeps silent).entity

/-- All operations but four leave the alerts of the mind as they are. -/
theorem perform_alerts (b : Builtin) (keeps : b.setsAlerts = false) :
    (b.perform mind world).mind.alerts = mind.alerts ∧
      (b.perform mind world).mind.raised = mind.raised := by
  cases silent : b.postsAlerts with
  | true =>
      rw [mind_perform b silent]
      exact ⟨rfl, rfl⟩
  | false =>
      have inert : Inert mind world (b.perform mind world) := perform_inert b keeps silent
      exact ⟨inert.alerts, inert.raised⟩

/-- All operations but three leave the posts in the world as they are. -/
theorem perform_posted (b : Builtin) (silent : b.postsAlerts = false) :
    (b.perform mind world).world.posted = world.posted := by
  cases keeps : b.setsAlerts with
  | true => rw [(world_perform b keeps).1]
  | false => exact (perform_inert b keeps silent).posted

end Builtin
end NpcScript
