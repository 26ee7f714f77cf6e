/-!
# Built-in operations

Every verb and predicate that a script can call. An instruction names an operation by its index in
the list below, so the order is part of the compiled form.
-/

namespace NpcScript

/-- The built-in operations, in the order of their indices. -/
inductive Builtin where
  | elseBlock
  | endScript
  | stop
  | doNothing
  | setAlertBit
  | clearAlertBit
  | testAlertBit
  | setAlert
  | clearAlert
  | testAlert
  | setBit
  | clearBit
  | testBit
  | setBits
  | clearBits
  | testBits
  | ifSpawned
  | ifAttacked
  | ifBumped
  | ifOrdered
  | ifCalledForHelp
  | ifKilled
  | ifTargetKilled
  | ifAtWaypoint
  | ifAtLastWaypoint
  | ifHealed
  | ifGrabbed
  | ifDropped
  | ifUsed
  | ifScoredAHit
  | ifBored
  | ifBlocked
  | ifHitGround
  | ifLevelUp
  | ifInWater
  | ifCrushed
  | ifLeaderKilled
  | ifChanged
  | setTime
  | ifTimeOut
  | setState
  | getState
  | ifStateIs
  | ifStateIsNot
  | ifStateIsOdd
  | ifStateIs0
  | ifStateIs1
  | ifStateIs2
  | ifStateIs3
  | setContent
  | getContent
  | ifContentIs
  | ifXIsLessThanY
  | ifYIsLessThanX
  | ifXIsEqualToY
  | ifXIsMoreThanY
  | setXY
  | getXY
  | addXY
  | clearWaypoints
  | addWaypoint
  | setTargetToNearbyEnemy
  | setTargetToNearestEnemy
  | setTargetToNearestFriend
  | setTargetToNearestLifeform
  | setTargetToWideEnemy
  | setTargetToWhoeverAttacked
  | setTargetToWhoeverBumped
  | setTargetToWhoeverCalledForHelp
  | setTargetToOldTarget
  | setOldTarget
  | setTargetToSelf
  | setTargetToOwner
  | setOwnerToTarget
  | setTargetToChild
  | setTargetToNearestBlahID
  | ifTargetIsSelf
  | ifTargetIsOldTarget
  | ifTargetIsAlive
  | ifTargetIsOnOtherTeam
  | ifTargetIsOnSameTeam
  | ifTargetHasID
  | ifTargetHasItemID
  | ifTargetIsHurt
  | ifTargetIsAPlayer
  | ifDistanceIsMoreThanTurn
  | setDamageType
  | damageTarget
  | healTarget
  | healSelf
  | killTarget
  | teleport
  | teleportTarget
  | spawnCharacter
  | spawnParticle
  | playSound
  | sendMessage
  | sendMessageNear
  | callForHelp
  | issueOrder
  | orderTarget
  | giveMoneyToTarget
  | giveExperienceToTarget
  | joinTargetTeam
  | goPoof
  | poofTarget
  | run
  | walk
  | sneak
  | doAction
  | debugMessage
  deriving DecidableEq, Inhabited

namespace Builtin

/-- What a call of an operation is for. -/
inductive Kind where
  /-- A test, which owns the block below its line. -/
  | predicate
  /-- An action. -/
  | verb
  /-- A word that only shapes the script. -/
  | flow
  deriving DecidableEq, Inhabited

/-- All operations, in the order of their indices. -/
def all : List Builtin :=
  [.elseBlock, .endScript, .stop, .doNothing, .setAlertBit, .clearAlertBit, .testAlertBit,
   .setAlert, .clearAlert, .testAlert, .setBit, .clearBit, .testBit, .setBits, .clearBits,
   .testBits, .ifSpawned, .ifAttacked, .ifBumped, .ifOrdered, .ifCalledForHelp, .ifKilled,
   .ifTargetKilled, .ifAtWaypoint, .ifAtLastWaypoint, .ifHealed, .ifGrabbed, .ifDropped,
   .ifUsed, .ifScoredAHit, .ifBored, .ifBlocked, .ifHitGround, .ifLevelUp, .ifInWater,
   .ifCrushed, .ifLeaderKilled, .ifChanged, .setTime, .ifTimeOut, .setState, .getState,
   .ifStateIs, .ifStateIsNot, .ifStateIsOdd, .ifStateIs0, .ifStateIs1, .ifStateIs2, .ifStateIs3,
   .setContent, .getContent, .ifContentIs, .ifXIsLessThanY, .ifYIsLessThanX, .ifXIsEqualToY,
   .ifXIsMoreThanY, .setXY, .getXY, .addXY, .clearWaypoints, .addWaypoint,
   .setTargetToNearbyEnemy, .setTargetToNearestEnemy, .setTargetToNearestFriend,
   .setTargetToNearestLifeform, .setTargetToWideEnemy, .setTargetToWhoeverAttacked,
   .setTargetToWhoeverBumped, .setTargetToWhoeverCalledForHelp, .setTargetToOldTarget,
   .setOldTarget, .setTargetToSelf, .setTargetToOwner, .setOwnerToTarget, .setTargetToChild,
   .setTargetToNearestBlahID, .ifTargetIsSelf, .ifTargetIsOldTarget, .ifTargetIsAlive,
   .ifTargetIsOnOtherTeam, .ifTargetIsOnSameTeam, .ifTargetHasID, .ifTargetHasItemID,
   .ifTargetIsHurt, .ifTargetIsAPlayer, .ifDistanceIsMoreThanTurn, .setDamageType,
   .damageTarget, .healTarget, .healSelf, .killTarget, .teleport, .teleportTarget,
   .spawnCharacter, .spawnParticle, .playSound, .sendMessage, .sendMessageNear, .callForHelp,
   .issueOrder, .orderTarget, .giveMoneyToTarget, .giveExperienceToTarget, .joinTargetTeam,
   .goPoof, .poofTarget, .run, .walk, .sneak, .doAction, .debugMessage]

/-- The number of operations. -/
def count : Nat := all.length

/-- The index of an operation. -/
def index (b : Builtin) : UInt16 := b.ctorIdx.toUInt16

/-- The operations, for access by index. -/
def table : Array Builtin := all.toArray

/-- The operation with the given index. -/
def ofIndex? (index : UInt16) : Option Builtin := table[index.toNat]?

/-- The name of an operation in scripts and listings. -/
def name : Builtin → String
  | .elseBlock => "Else"
  | .endScript => "End"
  | .stop => "Stop"
  | .doNothing => "DoNothing"
  | .setAlertBit => "SetAlertBit"
  | .clearAlertBit => "ClearAlertBit"
  | .testAlertBit => "TestAlertBit"
  | .setAlert => "SetAlert"
  | .clearAlert => "ClearAlert"
  | .testAlert => "TestAlert"
  | .setBit => "SetBit"
  | .clearBit => "ClearBit"
  | .testBit => "TestBit"
  | .setBits => "SetBits"
  | .clearBits => "ClearBits"
  | .testBits => "TestBits"
  | .ifSpawned => "IfSpawned"
  | .ifAttacked => "IfAttacked"
  | .ifBumped => "IfBumped"
  | .ifOrdered => "IfOrdered"
  | .ifCalledForHelp => "IfCalledForHelp"
  | .ifKilled => "IfKilled"
  | .ifTargetKilled => "IfTargetKilled"
  | .ifAtWaypoint => "IfAtWaypoint"
  | .ifAtLastWaypoint => "IfAtLastWaypoint"
  | .ifHealed => "IfHealed"
  | .ifGrabbed => "IfGrabbed"
  | .ifDropped => "IfDropped"
  | .ifUsed => "IfUsed"
  | .ifScoredAHit => "IfScoredAHit"
  | .ifBored => "IfBored"
  | .ifBlocked => "IfBlocked"
  | .ifHitGround => "IfHitGround"
  | .ifLevelUp => "IfLevelUp"
  | .ifInWater => "IfInWater"
  | .ifCrushed => "IfCrushed"
  | .ifLeaderKilled => "IfLeaderKilled"
  | .ifChanged => "IfChanged"
  | .setTime => "SetTime"
  | .ifTimeOut => "IfTimeOut"
  | .setState => "SetState"
  | .getState => "GetState"
  | .ifStateIs => "IfStateIs"
  | .ifStateIsNot => "IfStateIsNot"
  | .ifStateIsOdd => "IfStateIsOdd"
  | .ifStateIs0 => "IfStateIs0"
  | .ifStateIs1 => "IfStateIs1"
  | .ifStateIs2 => "IfStateIs2"
  | .ifStateIs3 => "IfStateIs3"
  | .setContent => "SetContent"
  | .getContent => "GetContent"
  | .ifContentIs => "IfContentIs"
  | .ifXIsLessThanY => "IfXIsLessThanY"
  | .ifYIsLessThanX => "IfYIsLessThanX"
  | .ifXIsEqualToY => "IfXIsEqualToY"
  | .ifXIsMoreThanY => "IfXIsMoreThanY"
  | .setXY => "SetXY"
  | .getXY => "GetXY"
  | .addXY => "AddXY"
  | .clearWaypoints => "ClearWaypoints"
  | .addWaypoint => "AddWaypoint"
  | .setTargetToNearbyEnemy => "SetTargetToNearbyEnemy"
  | .setTargetToNearestEnemy => "SetTargetToNearestEnemy"
  | .setTargetToNearestFriend => "SetTargetToNearestFriend"
  | .setTargetToNearestLifeform => "SetTargetToNearestLifeform"
  | .setTargetToWideEnemy => "SetTargetToWideEnemy"
  | .setTargetToWhoeverAttacked => "SetTargetToWhoeverAttacked"
  | .setTargetToWhoeverBumped => "SetTargetToWhoeverBumped"
  | .setTargetToWhoeverCalledForHelp => "SetTargetToWhoeverCalledForHelp"
  | .setTargetToOldTarget => "SetTargetToOldTarget"
  | .setOldTarget => "SetOldTarget"
  | .setTargetToSelf => "SetTargetToSelf"
  | .setTargetToOwner => "SetTargetToOwner"
  | .setOwnerToTarget => "SetOwnerToTarget"
  | .setTargetToChild => "SetTargetToChild"
  | .setTargetToNearestBlahID => "SetTargetToNearestBlahID"
  | .ifTargetIsSelf => "IfTargetIsSelf"
  | .ifTargetIsOldTarget => "IfTargetIsOldTarget"
  | .ifTargetIsAlive => "IfTargetIsAlive"
  | .ifTargetIsOnOtherTeam => "IfTargetIsOnOtherTeam"
  | .ifTargetIsOnSameTeam => "IfTargetIsOnSameTeam"
  | .ifTargetHasID => "IfTargetHasID"
  | .ifTargetHasItemID => "IfTargetHasItemID"
  | .ifTargetIsHurt => "IfTargetIsHurt"
  | .ifTargetIsAPlayer => "IfTargetIsAPlayer"
  | .ifDistanceIsMoreThanTurn => "IfDistanceIsMoreThanTurn"
  | .setDamageType => "SetDamageType"
  | .damageTarget => "DamageTarget"
  | .healTarget => "HealTarget"
  | .healSelf => "HealSelf"
  | .killTarget => "KillTarget"
  | .teleport => "Teleport"
  | .teleportTarget => "TeleportTarget"
  | .spawnCharacter => "SpawnCharacter"
  | .spawnParticle => "SpawnParticle"
  | .playSound => "PlaySound"
  | .sendMessage => "SendMessage"
  | .sendMessageNear => "SendMessageNear"
  | .callForHelp => "CallForHelp"
  | .issueOrder => "IssueOrder"
  | .orderTarget => "OrderTarget"
  | .giveMoneyToTarget => "GiveMoneyToTarget"
  | .giveExperienceToTarget => "GiveExperienceToTarget"
  | .joinTargetTeam => "JoinTargetTeam"
  | .goPoof => "GoPoof"
  | .poofTarget => "PoofTarget"
  | .run => "Run"
  | .walk => "Walk"
  | .sneak => "Sneak"
  | .doAction => "DoAction"
  | .debugMessage => "DebugMessage"

/-- The operation with the given name; names are case sensitive. -/
def ofName? (name : String) : Option Builtin :=
  all.find? (·.name == name)

/-- The kind of an operation. -/
def kind : Builtin → Kind
  | .elseBlock => .flow
  | .testAlertBit | .testAlert | .testBit | .testBits | .ifSpawned | .ifAttacked | .ifBumped |
  .ifOrdered | .ifCalledForHelp | .ifKilled | .ifTargetKilled | .ifAtWaypoint |
  .ifAtLastWaypoint | .ifHealed | .ifGrabbed | .ifDropped | .ifUsed | .ifScoredAHit | .ifBored |
  .ifBlocked | .ifHitGround | .ifLevelUp | .ifInWater | .ifCrushed | .ifLeaderKilled |
  .ifChanged | .ifTimeOut | .ifStateIs | .ifStateIsNot | .ifStateIsOdd | .ifStateIs0 |
  .ifStateIs1 | .ifStateIs2 | .ifStateIs3 | .ifContentIs | .ifXIsLessThanY | .ifYIsLessThanX |
  .ifXIsEqualToY | .ifXIsMoreThanY | .ifTargetIsSelf | .ifTargetIsOldTarget | .ifTargetIsAlive |
  .ifTargetIsOnOtherTeam | .ifTargetIsOnSameTeam | .ifTargetHasID | .ifTargetHasItemID |
  .ifTargetIsHurt | .ifTargetIsAPlayer | .ifDistanceIsMoreThanTurn => .predicate
  | _ => .verb

end Builtin
end NpcScript
