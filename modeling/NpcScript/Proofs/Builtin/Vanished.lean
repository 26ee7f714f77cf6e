import NpcScript.Builtin.Perform

/-! # Targets that are gone

A target may leave the world while a mind still holds its handle. The verbs that
work on the target are then skipped and change nothing, what the variables tell of
the target is zero, and the predicates that ask about it fail, all but one
(`NpcScript.Builtin.perform_vanished`). The exception compares the target with the
one before it and does not ask whether either of them is still there
(`NpcScript.Builtin.oldTarget_vanished`).
-/

namespace NpcScript

/-- The variables that tell something of the target. -/
def Variable.isOfTarget : Variable → Bool
  | .targetX | .targetY | .targetZ | .targetTurn | .targetDistance | .targetLife |
  .targetMaxLife | .targetMana | .targetTeam | .targetLevel | .targetMoney | .targetExp |
  .targetStr | .targetDex | .targetInt | .targetWis => true
  | _ => false

namespace Builtin

/-- The predicates that ask about the target. -/
def asksTarget : Builtin → Bool
  | .ifTargetIsSelf | .ifTargetIsOldTarget | .ifTargetIsAlive | .ifTargetIsOnOtherTeam |
  .ifTargetIsOnSameTeam | .ifTargetHasID | .ifTargetHasItemID | .ifTargetIsHurt |
  .ifTargetIsAPlayer => true
  | _ => false

/-- The verbs that work on the target. -/
def worksOnTarget : Builtin → Bool
  | .damageTarget | .healTarget | .killTarget | .teleportTarget | .orderTarget |
  .giveMoneyToTarget | .giveExperienceToTarget | .joinTargetTeam | .poofTarget |
  .setOwnerToTarget => true
  | _ => false

section

variable {mind : Mind} {world : World} {target : Handle}
variable (aimed : mind.target = some target) (gone : world.contains target = false)

include aimed

/-- The one comparison that is made without a look at the world. -/
theorem perform_ifTargetIsOldTarget :
    Builtin.ifTargetIsOldTarget.perform mind world =
      check mind world (mind.oldTarget = some target) := by
  simp [perform, aimed, eq_comm]

include gone

private theorem liveTarget?_of_gone : mind.liveTarget? world = none := by
  simp [Mind.liveTarget?, aimed, gone]

private theorem onTarget_of_gone (change : Handle → Option World) :
    onTarget mind world change = skip mind world := by
  rw [onTarget, liveTarget?_of_gone aimed gone]
  rfl

private theorem targetTeamIs_of_gone (p : Int32 → Int32 → Bool) :
    targetTeamIs mind world p = false := by
  rw [targetTeamIs, liveTarget?_of_gone aimed gone]

private theorem perform_of_worksOnTarget {b : Builtin} (works : b.worksOnTarget) :
    b.perform mind world = skip mind world := by
  have absent := liveTarget?_of_gone aimed gone
  cases b <;> first
    | (cases works; done)
    | exact onTarget_of_gone aimed gone _
    | skip
  case setOwnerToTarget | joinTargetTeam | poofTarget =>
    simp only [perform, absent, Option.bind_none, attempt]

/-- The other predicates look the target up, or compare it with the entity itself, which is not
gone. -/
theorem perform_of_asksTarget {b : Builtin} (here : world.contains mind.entity)
    (asks : b.asksTarget) (looks : b ≠ .ifTargetIsOldTarget) :
    b.perform mind world = check mind world false := by
  have absent := liveTarget?_of_gone aimed gone
  cases b <;> first | (cases asks; done) | skip
  case ifTargetIsOldTarget => exact absurd rfl looks
  case ifTargetIsSelf =>
    have other : target ≠ mind.entity := by
      rintro rfl
      rw [gone] at here
      cases here
    simp [perform, aimed, other]
  case ifTargetIsOnOtherTeam | ifTargetIsOnSameTeam =>
    simp only [perform, targetTeamIs_of_gone aimed gone]
  case ifTargetIsAlive | ifTargetHasID | ifTargetHasItemID | ifTargetIsHurt | ifTargetIsAPlayer =>
    simp only [perform, targetIsHurt, absent]
    rfl

private theorem read_of_isOfTarget {v : Variable} (tells : v.isOfTarget) :
    mind.read world v = (0, world) := by
  have absent := liveTarget?_of_gone aimed gone
  cases v <;> first
    | (cases tells; done)
    | (simp only [Mind.read, Mind.value, absent]; rfl)

end

/-- **Targets that are gone.** As long as the entity itself is in the world, a target that is not
makes the verbs that work on it do nothing, its variables read zero, and the predicates about it
fail, except that the comparison with the old target holds if the old target is the same handle. -/
theorem perform_vanished (mind : Mind) (world : World) (target : Handle)
    (here : world.contains mind.entity) (aimed : mind.target = some target)
    (gone : world.contains target = false) :
    (∀ b : Builtin, b.asksTarget → b ≠ .ifTargetIsOldTarget →
      b.perform mind world = ⟨.skip, { mind with lastCondition := false }, world⟩) ∧
    (Builtin.ifTargetIsOldTarget.perform mind world =
      if mind.oldTarget = some target then
        ⟨.proceed, { mind with lastCondition := true }, world⟩
      else ⟨.skip, { mind with lastCondition := false }, world⟩) ∧
    (∀ b : Builtin, b.worksOnTarget → b.perform mind world = ⟨.skip, mind, world⟩) ∧
    ∀ v : Variable, v.isOfTarget → mind.read world v = (0, world) := by
  refine ⟨fun b asks looks => perform_of_asksTarget aimed gone here asks looks, ?_,
    fun b works => perform_of_worksOnTarget aimed gone works,
    fun v tells => read_of_isOfTarget aimed gone tells⟩
  rw [perform_ifTargetIsOldTarget aimed]
  by_cases same : mind.oldTarget = some target <;> simp [check, same]

/-- A world from which the second of two entities has been removed. -/
def bereftWorld : World :=
  (((World.empty.add (.placed 0 0)).2.add (.placed 3 4)).2.remove ⟨1⟩).getD .empty

/-- The mind of the first entity, whose target and whose old target the second one is. -/
def bereftMind : Mind := { Mind.blank ⟨0⟩ with target := some ⟨1⟩, oldTarget := some ⟨1⟩ }

/-- A predicate and a verb about the removed target are skipped, and its distance reads as zero. -/
theorem perform_vanished_bereft :
    bereftWorld.contains bereftMind.entity ∧ bereftMind.target = some ⟨1⟩ ∧
      bereftWorld.contains ⟨1⟩ = false ∧
      Builtin.ifTargetIsAlive.perform bereftMind bereftWorld =
        ⟨.skip, { bereftMind with lastCondition := false }, bereftWorld⟩ ∧
      Builtin.damageTarget.perform bereftMind bereftWorld = ⟨.skip, bereftMind, bereftWorld⟩ ∧
      bereftMind.read bereftWorld .targetDistance = (0, bereftWorld) :=
  have vanished := perform_vanished bereftMind bereftWorld ⟨1⟩ rfl rfl rfl
  ⟨rfl, rfl, rfl, vanished.1 .ifTargetIsAlive rfl nofun, vanished.2.2.1 .damageTarget rfl,
    vanished.2.2.2 .targetDistance rfl⟩

/-- The comparison with the old target holds of a target that is gone. -/
theorem oldTarget_vanished :
    bereftWorld.contains bereftMind.entity ∧ bereftMind.target = some ⟨1⟩ ∧
      bereftWorld.contains ⟨1⟩ = false ∧
      (Builtin.ifTargetIsOldTarget.perform bereftMind bereftWorld).signal = .proceed ∧
      (Builtin.ifTargetIsOldTarget.perform bereftMind bereftWorld).mind.lastCondition = true :=
  ⟨rfl, rfl, rfl, rfl, rfl⟩

end Builtin
end NpcScript
