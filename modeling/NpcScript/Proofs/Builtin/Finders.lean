import NpcScript.Builtin.Perform
import NpcScript.Proofs.World.Nearest

/-! # Finders of targets and the distance of the target

A finder takes the nearest entity along the axes, and the distance of the target
that a script reads is that along a straight line. So an enemy that is off the
axes may be nearer by what the script reads than the one that was found, and one
that reads as near may not be found at all (`NpcScript.Builtin.nearer_enemy_missed`).
By how much the two differ is bounded, and for enemies in line with an axis they
agree (`NpcScript.Builtin.perform_enemyFinders`).
-/

namespace NpcScript

/-- A living entity of another team. -/
def World.Enemy (world : World) (me : Entity) (h : Handle) (c : Entity) : Prop :=
  world.entity? h = some c ∧ 0 < c.life ∧ c.team ≠ me.team

/-- The same mind with another target. -/
def Mind.aimedAt (mind : Mind) (target : Handle) : Mind := { mind with target := some target }

/-- The distance of the target as a script reads it. -/
def Mind.targetDistance (mind : Mind) (world : World) : Int32 :=
  (mind.read world .targetDistance).1

variable {mind : Mind} {world : World} {me c : Entity} {h : Handle}

private theorem Mind.targetDistance_of_entity (here : world.entity? mind.entity = some me)
    (aimed : mind.target = some h) (there : world.entity? h = some c) :
    mind.targetDistance world = World.distance (World.place me) (World.place c) := by
  have live : mind.liveTarget? world = some h := by
    simp [Mind.liveTarget?, aimed, World.contains, there]
  simp [Mind.targetDistance, Mind.read, Mind.value, live, Mind.distanceTo, Mind.placeOf,
    Mind.attributeOf, World.attribute?, here, there, World.place, Attribute.of]

section

variable (here : world.entity? mind.entity = some me)

include here

/-- The finders look for enemies within a range. -/
theorem World.eligible_enemy_iff {range : Option Int32} :
    world.Eligible { relation := .enemy, maxDistance := range } mind.entity me h c ↔
      world.Enemy me h c ∧ ∀ limit ∈ range, (reach me c : Int) ≤ limit.toInt := by
  constructor
  · rintro ⟨-, there, sought⟩
    exact ⟨⟨there, sought.alive rfl, sought.related⟩, sought.near⟩
  · rintro ⟨⟨there, living, foreign⟩, near⟩
    refine ⟨?_, there, foreign, fun _ => living, near, by simp, by simp⟩
    rintro rfl
    rw [here] at there
    cases there
    exact foreign rfl

namespace Builtin

variable (numbered : world.entities.size ≤ UInt32.size)

include numbered

/-- A finder takes the nearest entity that is looked for as the target, or does nothing if there is
none. -/
theorem retargetNearest_cases (criteria : Criteria) :
    (∃ target c, world.Eligible criteria mind.entity me target c ∧
      (∀ h d, world.Eligible criteria mind.entity me h d →
        World.gridDistance me c ≤ World.gridDistance me d) ∧
      retargetNearest mind world criteria = proceed (mind.setTarget target) world) ∨
    (∀ h c, ¬ world.Eligible criteria mind.entity me h c) ∧
      retargetNearest mind world criteria = skip mind world := by
  unfold retargetNearest
  cases found : world.findNearest? mind.entity criteria with
  | none => exact .inr ⟨(World.findNearest?_eq_none_iff numbered here).mp found, rfl⟩
  | some target =>
      obtain ⟨c, eligible, least⟩ := (World.findNearest?_eq_some_iff numbered here).mp found
      refine .inl ⟨target, c, eligible, fun h d other => ?_, ?_⟩
      · rw [Int32.le_iff_toInt_le, World.toInt_gridDistance, World.toInt_gridDistance]
        rcases Prod.Lex.toLex_le_toLex.mp (least h d other) with nearer | ⟨same, -⟩
        · exact_mod_cast nearer.le
        · exact_mod_cast same.le
      · have present : world.contains target := by simp [World.contains, eligible.2.1]
        rw [retarget, Option.filter_some_pos present]

/-- What a finder of enemies does, by the distances along the axes. -/
theorem retargetNearest_enemy (range : Option Int32) :
    (∃ target c, world.Enemy me target c ∧ (∀ limit ∈ range, World.gridDistance me c ≤ limit) ∧
      (∀ h d, world.Enemy me h d → World.gridDistance me c ≤ World.gridDistance me d) ∧
      retargetNearest mind world { relation := .enemy, maxDistance := range } =
        proceed (mind.setTarget target) world) ∨
    (∀ h c, world.Enemy me h c → ∃ limit ∈ range, limit < World.gridDistance me c) ∧
      retargetNearest mind world { relation := .enemy, maxDistance := range } =
        skip mind world := by
  rcases retargetNearest_cases here numbered { relation := .enemy, maxDistance := range } with
    ⟨target, c, eligible, least, done⟩ | ⟨nobody, done⟩
  · obtain ⟨enemy, near⟩ := (World.eligible_enemy_iff here).mp eligible
    refine .inl ⟨target, c, enemy, fun limit bounded => ?_, fun h d other => ?_, done⟩
    · rw [Int32.le_iff_toInt_le, World.toInt_gridDistance]
      exact near limit bounded
    by_cases within : ∀ limit ∈ range, (World.reach me d : Int) ≤ limit.toInt
    · exact least h d ((World.eligible_enemy_iff here).mpr ⟨other, within⟩)
    · push Not at within
      obtain ⟨limit, bounded, beyond⟩ := within
      rw [Int32.le_iff_toInt_le, World.toInt_gridDistance, World.toInt_gridDistance]
      exact (near limit bounded).trans beyond.le
  · refine .inr ⟨fun h c enemy => ?_, done⟩
    by_contra within
    refine nobody h c ((World.eligible_enemy_iff here).mpr ⟨enemy, fun limit bounded => ?_⟩)
    by_contra beyond
    refine within ⟨limit, bounded, ?_⟩
    rw [Int32.lt_iff_toInt_lt, World.toInt_gridDistance]
    exact not_le.mp beyond

end Builtin

end

namespace Builtin

/-- An entity out of the range of the finders along the axes is not close along a straight line,
either. -/
theorem lt_distance_of_nearbyRange_lt (beyond : nearbyRange < World.gridDistance me c) :
    271 < World.distance (World.place me) (World.place c) := by
  have square := World.gridDistance_sq_lt (a := me) (b := c)
  have least := World.distance_nonneg (World.place me) (World.place c)
  have far : 384 < (World.gridDistance me c).toInt := Int32.lt_iff_toInt_lt.mp beyond
  have limit : (271 : Int32).toInt = 271 := rfl
  rw [Int32.lt_iff_toInt_lt, limit]
  by_contra close
  nlinarith

section

variable (here : world.entity? mind.entity = some me)
variable (numbered : world.entities.size ≤ UInt32.size)

include here numbered

private theorem perform_setTargetToNearestEnemy :
    let reply := Builtin.setTargetToNearestEnemy.perform mind world
    (reply.signal = .proceed ↔ ∃ h c, world.Enemy me h c) ∧
    ∀ h c, world.Enemy me h c →
      (World.Aligned me c → reply.mind.targetDistance reply.world ≤
        (reply.mind.aimedAt h).targetDistance reply.world) ∧
      (reply.mind.targetDistance reply.world).toInt ^ 2 <
        2 * (((reply.mind.aimedAt h).targetDistance reply.world).toInt + 1) ^ 2 := by
  intro reply
  rcases retargetNearest_enemy here numbered none with
    ⟨target, c, enemy, -, least, done⟩ | ⟨nobody, done⟩
  · have took : reply = proceed (mind.setTarget target) world := done
    rw [took]
    refine ⟨⟨fun _ => ⟨target, c, enemy⟩, fun _ => rfl⟩, fun h d other => ?_⟩
    have chosen : (mind.setTarget target).targetDistance world =
        World.distance (World.place me) (World.place c) :=
      Mind.targetDistance_of_entity here rfl enemy.1
    have rival : ((mind.setTarget target).aimedAt h).targetDistance world =
        World.distance (World.place me) (World.place d) :=
      Mind.targetDistance_of_entity here rfl other.1
    simp only [proceed]
    rw [chosen, rival]
    exact World.distance_of_gridDistance_le (least h d other)
  · have nobody (h : Handle) (c : Entity) : ¬ world.Enemy me h c := by
      intro enemy
      obtain ⟨_, ⟨⟩, -⟩ := nobody h c enemy
    have skipped : reply = skip mind world := done
    rw [skipped]
    exact ⟨⟨nofun, fun ⟨h, c, enemy⟩ => absurd enemy (nobody h c)⟩,
      fun h c enemy => absurd enemy (nobody h c)⟩

private theorem perform_setTargetToNearbyEnemy :
    let reply := Builtin.setTargetToNearbyEnemy.perform mind world
    (reply.signal = .skip ↔
      ∀ h c, world.Enemy me h c → nearbyRange < World.gridDistance me c) ∧
    (reply.signal = .skip → ∀ h c, world.Enemy me h c →
      (World.Aligned me c →
        nearbyRange < (reply.mind.aimedAt h).targetDistance reply.world) ∧
      271 < (reply.mind.aimedAt h).targetDistance reply.world) := by
  intro reply
  rcases retargetNearest_enemy here numbered (some nearbyRange) with
    ⟨target, c, enemy, near, -, done⟩ | ⟨beyond, done⟩
  · have took : reply = proceed (mind.setTarget target) world := done
    rw [took]
    refine ⟨⟨nofun, fun beyond => ?_⟩, nofun⟩
    exact absurd (beyond target c enemy) (Int32.not_lt.mpr (near _ rfl))
  · have skipped : reply = skip mind world := done
    have beyond (h : Handle) (c : Entity) (enemy : world.Enemy me h c) :
        nearbyRange < World.gridDistance me c := by
      obtain ⟨_, ⟨⟩, less⟩ := beyond h c enemy
      exact less
    rw [skipped]
    refine ⟨⟨fun _ => beyond, fun _ => rfl⟩, fun _ h c enemy => ?_⟩
    have reading : (mind.aimedAt h).targetDistance world =
        World.distance (World.place me) (World.place c) :=
      Mind.targetDistance_of_entity here rfl enemy.1
    simp only [skip]
    rw [reading]
    refine ⟨fun aligned => ?_, lt_distance_of_nearbyRange_lt (beyond h c enemy)⟩
    rw [World.distance_of_aligned aligned]
    exact beyond h c enemy

end

/-- **Finders of enemies.** The finder of the nearest enemy succeeds if there is an enemy. No enemy
in line with an axis reads as nearer than the one that it takes, and the square of the reading of
any enemy is, up to rounding, at least half of the square of that of the one that it takes. The
finder of near enemies is skipped if all enemies are out of its range along the axes. Then no enemy
in line with an axis reads as within the range, and no enemy at all as within 271. -/
theorem perform_enemyFinders (mind : Mind) (world : World) (me : Entity)
    (numbered : world.entities.size ≤ UInt32.size)
    (here : world.entity? mind.entity = some me) :
    (let reply := Builtin.setTargetToNearestEnemy.perform mind world
     (reply.signal = .proceed ↔ ∃ h c, world.Enemy me h c) ∧
      ∀ h c, world.Enemy me h c →
        (World.Aligned me c → reply.mind.targetDistance reply.world ≤
          (reply.mind.aimedAt h).targetDistance reply.world) ∧
        (reply.mind.targetDistance reply.world).toInt ^ 2 <
          2 * (((reply.mind.aimedAt h).targetDistance reply.world).toInt + 1) ^ 2) ∧
    (let reply := Builtin.setTargetToNearbyEnemy.perform mind world
     (reply.signal = .skip ↔
        ∀ h c, world.Enemy me h c → nearbyRange < World.gridDistance me c) ∧
      (reply.signal = .skip → ∀ h c, world.Enemy me h c →
        (World.Aligned me c →
          nearbyRange < (reply.mind.aimedAt h).targetDistance reply.world) ∧
        271 < (reply.mind.aimedAt h).targetDistance reply.world)) :=
  ⟨perform_setTargetToNearestEnemy here numbered, perform_setTargetToNearbyEnemy here numbered⟩

/-- An entity with two enemies, one in line with it and one off the axes. -/
def ambush : World :=
  { World.empty with entities := #[some { Entity.placed 0 0 with team := 6 },
      some { Entity.placed 390 0 with team := 4 }, some { Entity.placed 200 200 with team := 4 }] }

/-- Of the two enemies one is found by the nearest finder. The other one is too far away for the
finder of nearby enemies. -/
theorem perform_enemyFinders_ambush :
    ambush.entities.size ≤ UInt32.size ∧
      ambush.entity? (Mind.blank ⟨0⟩).entity = some { Entity.placed 0 0 with team := 6 } ∧
      (Builtin.setTargetToNearestEnemy.perform (Mind.blank ⟨0⟩) ambush).signal = .proceed ∧
      (Builtin.setTargetToNearbyEnemy.perform (Mind.blank ⟨0⟩) ambush).signal = .skip ∧
      271 < ((Mind.blank ⟨0⟩).aimedAt ⟨2⟩).targetDistance ambush :=
  have numbered : ambush.entities.size ≤ UInt32.size := by decide
  have here : ambush.entity? ⟨0⟩ = some { Entity.placed 0 0 with team := 6 } := rfl
  have enemy : ambush.Enemy { Entity.placed 0 0 with team := 6 } ⟨2⟩
      { Entity.placed 200 200 with team := 4 } := ⟨rfl, by decide, by decide⟩
  have skipped : (Builtin.setTargetToNearbyEnemy.perform (Mind.blank ⟨0⟩) ambush).signal = .skip :=
    by decide
  have finders := perform_enemyFinders (Mind.blank ⟨0⟩) ambush _ numbered here
  ⟨numbered, here, finders.1.1.mpr ⟨_, _, enemy⟩, skipped, (finders.2.2 skipped _ _ enemy).2⟩

/-- The enemy off the axes reads as nearer than the one that the finder takes, and as within the
range in which nothing is found. -/
theorem nearer_enemy_missed :
    let mind := Mind.blank ⟨0⟩
    let nearest := Builtin.setTargetToNearestEnemy.perform mind ambush
    let nearby := Builtin.setTargetToNearbyEnemy.perform mind ambush
    ambush.Enemy { Entity.placed 0 0 with team := 6 } ⟨2⟩
      { Entity.placed 200 200 with team := 4 } ∧
    (nearest.signal = .proceed ∧ nearest.mind.target = some ⟨1⟩ ∧
      (nearest.mind.aimedAt ⟨2⟩).targetDistance nearest.world <
        nearest.mind.targetDistance nearest.world) ∧
    nearby.signal = .skip ∧
      (nearby.mind.aimedAt ⟨2⟩).targetDistance nearby.world ≤ nearbyRange := by
  refine ⟨⟨rfl, by decide, by decide⟩, ⟨by decide, by decide, ?_⟩, by decide, ?_⟩
  · decide +kernel
  · decide +kernel

end Builtin
end NpcScript
