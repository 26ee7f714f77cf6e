import NpcScript.Proofs.Builtin.Effects

/-! # Who leaves the world

An entity leaves the world only by being removed. All changes of the world but
one keep every entity in it, and all operations but two keep every entity in
their world: one of the two removes the entity itself, the other one its target
(`NpcScript.Builtin.perform_contains`). An operation that removes the entity
itself ends the run, so behind any other one the entity is still there
(`NpcScript.Builtin.perform_contains_self`).
-/

namespace NpcScript

namespace World

variable {world changed : World} {h other : Handle}

private theorem index_lt_of_contains (here : world.contains h) :
    h.index.toNat < world.entities.size := by
  apply Nat.lt_of_not_le
  intro outside
  rw [contains, entity?, Array.getElem?_eq_none outside] at here
  cases here

/-- What is put in one place changes no other place. -/
theorem entity?_put_of_ne (apart : h ≠ other) (slot : Option Entity) :
    (world.put other slot).entity? h = world.entity? h := by
  have places : other.index.toNat ≠ h.index.toNat := by
    intro same
    have handles : other.index = h.index := UInt32.toNat.inj same
    exact apart (by cases h; cases other; exact congrArg Handle.mk handles.symm)
  unfold entity? put
  rw [Array.getElem?_setIfInBounds_ne places]

private theorem contains_put_of_ne (apart : h ≠ other) (slot : Option Entity) :
    (world.put other slot).contains h = world.contains h := by
  rw [contains, entity?_put_of_ne apart, contains]

/-- What is put in a place stands there. -/
theorem entity?_put_self (here : world.contains h) (slot : Option Entity) :
    (world.put h slot).entity? h = slot := by
  unfold entity? put
  rw [Array.getElem?_setIfInBounds_self_of_lt (index_lt_of_contains here)]
  rfl

/-- Whatever is written into the place of an entity, all others stay. -/
theorem contains_put_some (here : world.contains h) (e : Entity) :
    (world.put other (some e)).contains h := by
  by_cases same : h = other
  · subst same
    rw [contains, entity?_put_self here]
    rfl
  · rw [contains_put_of_ne same]
    exact here

private theorem contains_change {f : Entity → Entity} {event : WorldEvent} (here : world.contains h)
    (changes : changed ∈ world.change other f event) : changed.contains h := by
  obtain ⟨e, _, rfl⟩ := Option.map_eq_some_iff.mp changes
  exact contains_put_some here (f e)

private theorem contains_spawnParticle {particle x y : Int32}
    (changes : changed ∈ world.spawnParticle other particle x y) :
    changed.contains h = world.contains h := by
  unfold spawnParticle at changes
  split at changes
  · cases changes
    rfl
  · cases changes

private theorem contains_doAction {action : Int32}
    (changes : changed ∈ world.doAction other action) : changed.contains h = world.contains h := by
  unfold doAction at changes
  split at changes
  · cases changes
    rfl
  · cases changes

private theorem contains_add (here : world.contains h) (e : Entity) :
    (world.add e).2.contains h := by
  have inside := index_lt_of_contains here
  unfold contains entity? add
  rw [Array.getElem?_push_lt inside, ← Array.getElem?_eq_getElem inside]
  exact here

private theorem contains_spawn {x y turn : Int32} {child : Handle} (here : world.contains h)
    (changes : world.spawn other x y turn = some (child, changed)) : changed.contains h := by
  obtain ⟨e, _, same⟩ := Option.map_eq_some_iff.mp changes
  cases same
  exact contains_add here _

/-- Removing an entity leaves all others where they are. -/
theorem contains_remove_of_ne (apart : h ≠ other) (changes : changed ∈ world.remove other) :
    changed.contains h = world.contains h := by
  unfold remove at changes
  split at changes
  · cases changes
    exact contains_put_of_ne apart none
  · cases changes

end World

namespace Builtin

variable {mind : Mind} {world : World} {h : Handle}

private theorem contains_postAll (posts : List (Handle × Post)) :
    (postAll world posts).contains h = world.contains h := by
  induction posts generalizing world with
  | nil => rfl
  | cons post posts ih => exact ih

private theorem contains_attempt {change : Option World} (here : world.contains h)
    (keeps : ∀ changed ∈ change, changed.contains h) :
    (attempt mind world change).world.contains h := by
  cases change with
  | none => exact here
  | some changed => exact keeps changed rfl

private theorem contains_onTarget {change : Handle → Option World} (here : world.contains h)
    (keeps : ∀ target, ∀ changed ∈ change target, changed.contains h) :
    (onTarget mind world change).world.contains h := by
  apply contains_attempt here
  intro changed changes
  obtain ⟨target, _, changes⟩ := Option.bind_eq_some_iff.mp changes
  exact keeps target changed changes

private theorem world_retarget (candidate : Option Handle) :
    (retarget mind world candidate).world = world := by
  unfold retarget
  split <;> rfl

/-- The entity that an operation would remove. -/
def removes? (b : Builtin) (mind : Mind) : Option Handle :=
  match b with
  | .goPoof => some mind.entity
  | .poofTarget => mind.target
  | _ => none

/-- **Who leaves the world.** All entities stay but the one that the operation removes. -/
theorem perform_contains (b : Builtin) (here : world.contains h)
    (spared : b.removes? mind ≠ some h) :
    (b.perform mind world).world.contains h := by
  -- Most operations leave the world as it is.
  cases b <;> first | exact here | skip
  case setAlertBit | clearAlertBit | addWaypoint | setOwnerToTarget =>
    simp only [perform]
    split <;> exact here
  case setTargetToNearbyEnemy | setTargetToNearestEnemy | setTargetToNearestFriend |
      setTargetToNearestLifeform | setTargetToWideEnemy | setTargetToWhoeverAttacked |
      setTargetToWhoeverBumped | setTargetToWhoeverCalledForHelp | setTargetToOldTarget |
      setTargetToOwner | setTargetToChild | setTargetToNearestBlahID =>
    exact (world_retarget _).symm ▸ here
  case damageTarget | healTarget | killTarget | teleportTarget | giveMoneyToTarget |
      giveExperienceToTarget =>
    exact contains_onTarget here fun _ _ => World.contains_change here
  case healSelf | teleport | run | walk | sneak =>
    exact contains_attempt here fun _ => World.contains_change here
  case spawnParticle =>
    exact contains_attempt here fun _ changes => (World.contains_spawnParticle changes).trans here
  case doAction =>
    exact contains_attempt here fun _ changes => (World.contains_doAction changes).trans here
  case spawnCharacter =>
    simp only [perform]
    split
    · rename_i spawned
      exact World.contains_spawn here spawned
    · exact here
  case callForHelp | issueOrder =>
    apply contains_attempt here
    intro changed changes
    obtain ⟨members, _, rfl⟩ := Option.map_eq_some_iff.mp changes
    exact (contains_postAll _).trans here
  case orderTarget =>
    apply contains_onTarget here
    intro target changed changes
    cases changes
    exact here
  case joinTargetTeam =>
    apply contains_attempt here
    intro changed changes
    obtain ⟨team, _, changes⟩ := Option.bind_eq_some_iff.mp changes
    exact World.contains_change here changes
  case goPoof =>
    have apart : h ≠ mind.entity := fun same => spared (congrArg some same.symm)
    simp only [perform]
    cases removed : world.remove mind.entity with
    | none => exact here
    | some changed => exact (World.contains_remove_of_ne apart removed).trans here
  case poofTarget =>
    simp only [perform]
    split
    · rename_i removed
      obtain ⟨target, live, changes⟩ := Option.bind_eq_some_iff.mp removed
      obtain ⟨aimed, _⟩ := Option.filter_eq_some_iff.mp live
      have apart : h ≠ target := fun same => spared (same ▸ aimed)
      exact (World.contains_remove_of_ne apart changes).trans here
    · exact here

/-- An operation that does not end the run leaves the entity that it is carried out for. -/
theorem perform_contains_self (b : Builtin) (here : world.contains mind.entity)
    (ongoing : (b.perform mind world).signal ≠ .halt) :
    (b.perform mind world).world.contains mind.entity := by
  by_cases spared : b.removes? mind = some mind.entity
  · cases b <;> first | (cases spared; done) | skip
    case goPoof => exact absurd rfl ongoing
    case poofTarget =>
      have aimed : mind.target = some mind.entity := spared
      simp only [perform] at ongoing ⊢
      split at ongoing
      · rw [if_pos aimed] at ongoing
        exact absurd rfl ongoing
      · exact here
  · exact perform_contains b here spared

end Builtin
end NpcScript
