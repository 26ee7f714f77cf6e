import NpcScript.Builtin.Basic
import NpcScript.Mind.Variables

/-!
# What built-in operations do

An operation works on the mind of an entity and on the world, and tells how the script goes on. A
predicate whose test fails, and a verb that cannot do its work, are skipped, together with the block
that they own.
-/

namespace NpcScript

/-- How a script goes on behind an operation. -/
inductive Signal where
  | proceed
  /-- The block that the call owns is passed over. -/
  | skip
  /-- The run of the script ends. -/
  | halt
  deriving DecidableEq, Inhabited

/-- What an operation leaves behind. -/
structure Reply where
  signal : Signal
  mind : Mind
  world : World
  deriving Inhabited

/-- What a script shows of itself. -/
structure DebugNote where
  entity : Handle
  state : Int32
  content : Int32
  argument : Int32
  x : Int32
  y : Int32
  deriving DecidableEq, Inhabited

namespace Builtin

/-- How far the finders of near targets look. -/
def nearbyRange : Int32 := 384

/-- How far the finders of targets in a wide circle look. -/
def wideRange : Int32 := 768

/-- The operation has done its work. -/
def proceed (mind : Mind) (world : World) : Reply := ⟨.proceed, mind, world⟩

/-- The operation cannot do its work. -/
def skip (mind : Mind) (world : World) : Reply := ⟨.skip, mind, world⟩

/-- A test, whose result the mind keeps. -/
def check (mind : Mind) (world : World) (condition : Bool) : Reply :=
  ⟨if condition then .proceed else .skip, { mind with lastCondition := condition }, world⟩

/-- A change of the world, which may be impossible. -/
def attempt (mind : Mind) (world : World) : Option World → Reply
  | some changed => proceed mind changed
  | none => skip mind world

/-- A change of the world that concerns the target. -/
def onTarget (mind : Mind) (world : World) (change : Handle → Option World) : Reply :=
  attempt mind world ((mind.liveTarget? world).bind change)

/-- A new target, unless the world does not have it. -/
def retarget (mind : Mind) (world : World) (candidate : Option Handle) : Reply :=
  match candidate.filter world.contains with
  | some target => proceed (mind.setTarget target) world
  | none => skip mind world

/-- The nearest entity that fits the criteria as the new target. -/
def retargetNearest (mind : Mind) (world : World) (criteria : Criteria) : Reply :=
  retarget mind world (world.findNearest? mind.entity criteria)

/-- The number with one bit, whose place counts modulo 32. -/
def bitMask (place : Int32) : Int32 := (1 : Int32) <<< place

/-- The stored place that the argument selects, by its low four bits. -/
def storedSlot (mind : Mind) : Fin 16 := Fin.ofNat 16 mind.vars.argument.toUInt32.toNat

/-- The tag that the argument stands for. -/
def argumentTag (mind : Mind) : Idsz := ⟨mind.vars.argument.toUInt32⟩

/-- The alerts that the argument stands for. -/
def argumentAlerts (mind : Mind) : Alerts := ⟨mind.vars.argument.toUInt32⟩

/-- The team of an entity. -/
def teamOf? (world : World) (h : Handle) : Option Int32 := world.attribute? h .team

/-- The other members of the team of an entity, in the order of their handles. -/
def teammates? (mind : Mind) (world : World) : Option (List Handle) :=
  (teamOf? world mind.entity).map fun team =>
    (world.teamMembers team).filter (· ≠ mind.entity)

/-- Posts one alert to each of the receivers. -/
def postAll (world : World) (posts : List (Handle × Post)) : World :=
  posts.foldl (fun world (target, post) => world.post target post) world

/-- An order with the argument as its value. -/
def orderPost (mind : Mind) (rank : Nat) : Post :=
  ⟨.ordered, some mind.entity, some ⟨mind.vars.argument, rank.toUInt32.toInt32⟩⟩

/-- The delay that the argument stands for; a negative one stands for none. -/
def argumentDelay? (mind : Mind) : Option Nat :=
  if mind.vars.argument < 0 then none else some mind.vars.argument.toInt.toNat

/-- Compares the teams of the target and of the entity itself. -/
def targetTeamIs (mind : Mind) (world : World) (p : Int32 → Int32 → Bool) : Bool :=
  match mind.liveTarget? world, teamOf? world mind.entity with
  | some target, some mine => (teamOf? world target).any (p mine)
  | _, _ => false

/-- Whether the target is alive, but has less life than it could have. -/
def targetIsHurt (mind : Mind) (world : World) : Bool :=
  ((mind.liveTarget? world).bind world.entity?).any fun e => 0 < e.life && e.life < e.maxLife

/-- The operation carried out. -/
def perform (b : Builtin) (mind : Mind) (world : World) : Reply :=
  let vars := mind.vars
  let withVars (vars : Temporaries) := proceed { mind with vars := vars } world
  let alerted (kind : AlertKind) := check mind world (mind.alerts.has kind)
  match b with
  | .elseBlock | .doNothing | .debugMessage => proceed mind world
  | .endScript | .stop => ⟨.halt, mind, world⟩
  | .setAlertBit =>
      match AlertKind.ofBit? vars.argument with
      | some kind => proceed (mind.raiseAlert kind) world
      | none => skip mind world
  | .clearAlertBit =>
      match AlertKind.ofBit? vars.argument with
      | some kind => proceed { mind with alerts := mind.alerts.lower kind } world
      | none => skip mind world
  | .testAlertBit => check mind world ((AlertKind.ofBit? vars.argument).any mind.alerts.has)
  | .setAlert => proceed { mind with alerts := mind.alerts.union (argumentAlerts mind) } world
  | .clearAlert => proceed { mind with alerts := mind.alerts.diff (argumentAlerts mind) } world
  | .testAlert =>
      let mask := argumentAlerts mind
      check mind world (mask ≠ .empty && mind.alerts.inter mask = mask)
  | .setBit => withVars { vars with x := vars.x ||| bitMask vars.y }
  | .clearBit => withVars { vars with x := vars.x &&& ~~~bitMask vars.y }
  | .testBit => check mind world (vars.x &&& bitMask vars.y ≠ 0)
  | .setBits => withVars { vars with x := vars.x ||| vars.y }
  | .clearBits => withVars { vars with x := vars.x &&& ~~~vars.y }
  | .testBits => check mind world (vars.x &&& vars.y = vars.y)
  | .ifSpawned => alerted .spawned
  | .ifAttacked => alerted .attacked
  | .ifBumped => alerted .bumped
  | .ifOrdered => alerted .ordered
  | .ifCalledForHelp => alerted .calledForHelp
  | .ifKilled => alerted .killed
  | .ifTargetKilled => alerted .targetKilled
  | .ifAtWaypoint => alerted .atWaypoint
  | .ifAtLastWaypoint => alerted .atLastWaypoint
  | .ifHealed => alerted .healed
  | .ifGrabbed => alerted .grabbed
  | .ifDropped => alerted .dropped
  | .ifUsed => alerted .used
  | .ifScoredAHit => alerted .scoredAHit
  | .ifBored => alerted .bored
  | .ifBlocked => alerted .blocked
  | .ifHitGround => alerted .hitGround
  | .ifLevelUp => alerted .levelUp
  | .ifInWater => alerted .inWater
  | .ifCrushed => alerted .crushed
  | .ifLeaderKilled => alerted .leaderKilled
  | .ifChanged => alerted .changed
  | .setTime =>
      let deadline := (argumentDelay? mind).map fun delay =>
        saturateUnsigned (world.clock.toNat + delay)
      proceed { mind with timer := deadline } world
  | .ifTimeOut => check mind world (mind.timedOut world.clock)
  | .setState => proceed { mind with state := vars.argument } world
  | .getState => withVars { vars with argument := mind.state }
  | .ifStateIs => check mind world (mind.state = vars.argument)
  | .ifStateIsNot => check mind world (mind.state ≠ vars.argument)
  | .ifStateIsOdd => check mind world (mind.state &&& 1 = 1)
  | .ifStateIs0 => check mind world (mind.state = 0)
  | .ifStateIs1 => check mind world (mind.state = 1)
  | .ifStateIs2 => check mind world (mind.state = 2)
  | .ifStateIs3 => check mind world (mind.state = 3)
  | .setContent => proceed { mind with content := vars.argument } world
  | .getContent => withVars { vars with argument := mind.content }
  | .ifContentIs => check mind world (mind.content = vars.argument)
  | .ifXIsLessThanY => check mind world (vars.x < vars.y)
  | .ifYIsLessThanX => check mind world (vars.y < vars.x)
  | .ifXIsEqualToY => check mind world (vars.x = vars.y)
  | .ifXIsMoreThanY => check mind world (vars.y < vars.x)
  | .setXY =>
      let stored := mind.storedXY.set (storedSlot mind) (vars.x, vars.y)
      proceed { mind with storedXY := stored } world
  | .getXY =>
      let (x, y) := mind.storedXY[storedSlot mind]
      withVars { vars with x := x, y := y }
  | .addXY =>
      let (x, y) := mind.storedXY[storedSlot mind]
      let stored := mind.storedXY.set (storedSlot mind) (x + vars.x, y + vars.y)
      proceed { mind with storedXY := stored } world
  | .clearWaypoints => proceed { mind with waypoints := [] } world
  | .addWaypoint =>
      if Mind.maxWaypoints ≤ mind.waypoints.length then skip mind world
      else proceed { mind with waypoints := mind.waypoints ++ [(vars.x, vars.y)] } world
  | .setTargetToNearbyEnemy =>
      retargetNearest mind world { relation := .enemy, maxDistance := some nearbyRange }
  | .setTargetToNearestEnemy => retargetNearest mind world { relation := .enemy }
  | .setTargetToNearestFriend => retargetNearest mind world { relation := .friend }
  | .setTargetToNearestLifeform => retargetNearest mind world { relation := .any }
  | .setTargetToWideEnemy =>
      retargetNearest mind world { relation := .enemy, maxDistance := some wideRange }
  | .setTargetToWhoeverAttacked => retarget mind world mind.attacker
  | .setTargetToWhoeverBumped => retarget mind world mind.bumper
  | .setTargetToWhoeverCalledForHelp => retarget mind world mind.helper
  | .setTargetToOldTarget => retarget mind world mind.oldTarget
  | .setOldTarget => proceed { mind with oldTarget := mind.target } world
  | .setTargetToSelf => proceed (mind.setTarget mind.entity) world
  | .setTargetToOwner => retarget mind world mind.owner
  | .setOwnerToTarget =>
      match mind.liveTarget? world with
      | some target => proceed { mind with owner := some target } world
      | none => skip mind world
  | .setTargetToChild => retarget mind world mind.child
  | .setTargetToNearestBlahID =>
      retargetNearest mind world { relation := .any, tag := some (argumentTag mind) }
  | .ifTargetIsSelf => check mind world (mind.target = some mind.entity)
  | .ifTargetIsOldTarget => check mind world (mind.target.isSome && mind.target = mind.oldTarget)
  | .ifTargetIsAlive =>
      check mind world (((mind.liveTarget? world).bind (world.attribute? · .life)).any (0 < ·))
  | .ifTargetIsOnOtherTeam =>
      check mind world (targetTeamIs mind world fun mine theirs => theirs ≠ mine)
  | .ifTargetIsOnSameTeam =>
      check mind world (targetTeamIs mind world fun mine theirs => theirs = mine)
  | .ifTargetHasID =>
      check mind world ((mind.liveTarget? world).any fun target =>
        world.hasTag target (argumentTag mind) .self)
  | .ifTargetHasItemID =>
      check mind world ((mind.liveTarget? world).any fun target =>
        world.hasTag target (argumentTag mind) .inventory)
  | .ifTargetIsHurt => check mind world (targetIsHurt mind world)
  | .ifTargetIsAPlayer =>
      check mind world
        (((mind.liveTarget? world).bind (world.attribute? · .isPlayer)).any (· ≠ 0))
  | .ifDistanceIsMoreThanTurn => check mind world (vars.turn < vars.distance)
  | .setDamageType => proceed { mind with damageKind := vars.argument } world
  | .damageTarget =>
      onTarget mind world fun target =>
        world.applyDamage target vars.argument mind.damageKind mind.entity
  | .healTarget => onTarget mind world fun target => world.heal target vars.argument
  | .healSelf => attempt mind world (world.heal mind.entity vars.argument)
  | .killTarget => onTarget mind world fun target => world.kill target mind.entity
  | .teleport => attempt mind world (world.teleport mind.entity vars.x vars.y)
  | .teleportTarget => onTarget mind world fun target => world.teleport target vars.x vars.y
  | .spawnCharacter =>
      match world.spawn mind.entity vars.x vars.y vars.turn with
      | some (child, world) => proceed { mind with child := some child } world
      | none => skip mind world
  | .spawnParticle =>
      attempt mind world (world.spawnParticle mind.entity vars.argument vars.x vars.y)
  | .playSound => proceed mind (world.playSound mind.entity vars.argument)
  | .sendMessage => proceed mind (world.sendMessage mind.entity vars.argument false)
  | .sendMessageNear => proceed mind (world.sendMessage mind.entity vars.argument true)
  | .callForHelp =>
      attempt mind world <| (teammates? mind world).map fun members =>
        postAll world (members.map fun member =>
          (member, ⟨.calledForHelp, some mind.entity, none⟩))
  | .issueOrder =>
      attempt mind world <| (teammates? mind world).map fun members =>
        postAll world (members.zipIdx.map fun (member, rank) => (member, orderPost mind rank))
  | .orderTarget =>
      onTarget mind world fun target => some (world.post target (orderPost mind 0))
  | .giveMoneyToTarget =>
      onTarget mind world fun target => world.give target .money vars.argument
  | .giveExperienceToTarget =>
      onTarget mind world fun target => world.give target .experience vars.argument
  | .joinTargetTeam =>
      attempt mind world <|
        ((mind.liveTarget? world).bind (teamOf? world)).bind (world.joinTeam mind.entity)
  | .goPoof => ⟨.halt, mind, (world.remove mind.entity).getD world⟩
  | .poofTarget =>
      match (mind.liveTarget? world).bind world.remove with
      | some changed =>
          ⟨if mind.target = some mind.entity then .halt else .proceed, mind, changed⟩
      | none => skip mind world
  | .run => attempt mind world (world.setMovement mind.entity .run)
  | .walk => attempt mind world (world.setMovement mind.entity .walk)
  | .sneak => attempt mind world (world.setMovement mind.entity .sneak)
  | .doAction => attempt mind world (world.doAction mind.entity vars.argument)

/-- What an operation shows of the script, if that is what it is for. -/
def debugNote? (b : Builtin) (mind : Mind) : Option DebugNote :=
  if b = .debugMessage then
    some ⟨mind.entity, mind.state, mind.content, mind.vars.argument, mind.vars.x, mind.vars.y⟩
  else none

end Builtin
end NpcScript
