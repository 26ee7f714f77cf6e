/-!
# Alerts

An alert tells a script that something has happened to its entity. There are thirty-two kinds, and
a set of alerts is a 32-bit word with one bit for each kind.
-/

namespace NpcScript

/-- The kinds of alert, in the order of their bits. -/
inductive AlertKind where
  | spawned
  | hitVulnerable
  | atWaypoint
  | atLastWaypoint
  | attacked
  | bumped
  | ordered
  | calledForHelp
  | killed
  | targetKilled
  | dropped
  | grabbed
  | reaffirmed
  | leaderKilled
  | used
  | cleanedUp
  | scoredAHit
  | healed
  | disaffirmed
  | changed
  | inWater
  | bored
  | tooMuchBaggage
  | levelUp
  | confused
  | hitGround
  | notDropped
  | blocked
  | thrown
  | crushed
  | notPutAway
  | takenOut
  deriving DecidableEq, Inhabited

namespace AlertKind

/-- All kinds, in the order of their bits. -/
def all : List AlertKind :=
  [.spawned, .hitVulnerable, .atWaypoint, .atLastWaypoint, .attacked, .bumped, .ordered,
   .calledForHelp, .killed, .targetKilled, .dropped, .grabbed, .reaffirmed, .leaderKilled,
   .used, .cleanedUp, .scoredAHit, .healed, .disaffirmed, .changed, .inWater, .bored,
   .tooMuchBaggage, .levelUp, .confused, .hitGround, .notDropped, .blocked, .thrown, .crushed,
   .notPutAway, .takenOut]

/-- The number of the bit that stands for the kind. -/
def bit (kind : AlertKind) : Nat := kind.ctorIdx

/-- The kind whose bit has the given number. -/
def ofBit? (bit : Int32) : Option AlertKind :=
  if bit < 0 then none else all[bit.toInt.toNat]?

/-- The name of the kind, as in the reference `@Attacked`. -/
def name : AlertKind → String
  | .spawned => "Spawned"
  | .hitVulnerable => "HitVulnerable"
  | .atWaypoint => "AtWaypoint"
  | .atLastWaypoint => "AtLastWaypoint"
  | .attacked => "Attacked"
  | .bumped => "Bumped"
  | .ordered => "Ordered"
  | .calledForHelp => "CalledForHelp"
  | .killed => "Killed"
  | .targetKilled => "TargetKilled"
  | .dropped => "Dropped"
  | .grabbed => "Grabbed"
  | .reaffirmed => "Reaffirmed"
  | .leaderKilled => "LeaderKilled"
  | .used => "Used"
  | .cleanedUp => "CleanedUp"
  | .scoredAHit => "ScoredAHit"
  | .healed => "Healed"
  | .disaffirmed => "Disaffirmed"
  | .changed => "Changed"
  | .inWater => "InWater"
  | .bored => "Bored"
  | .tooMuchBaggage => "TooMuchBaggage"
  | .levelUp => "LevelUp"
  | .confused => "Confused"
  | .hitGround => "HitGround"
  | .notDropped => "NotDropped"
  | .blocked => "Blocked"
  | .thrown => "Thrown"
  | .crushed => "Crushed"
  | .notPutAway => "NotPutAway"
  | .takenOut => "TakenOut"

/-- The kind with the given name; names are case sensitive. -/
def ofName? (name : String) : Option AlertKind :=
  all.find? (·.name == name)

/-- The name that a stored set of alerts has for the kind. -/
def flagName : AlertKind → String
  | .spawned => "SPAWNED"
  | .hitVulnerable => "HIT_VULNERABLE"
  | .atWaypoint => "AT_WAYPOINT"
  | .atLastWaypoint => "AT_LAST_WAYPOINT"
  | .attacked => "ATTACKED"
  | .bumped => "BUMPED"
  | .ordered => "ORDERED"
  | .calledForHelp => "CALLED_FOR_HELP"
  | .killed => "KILLED"
  | .targetKilled => "TARGET_KILLED"
  | .dropped => "DROPPED"
  | .grabbed => "GRABBED"
  | .reaffirmed => "REAFFIRMED"
  | .leaderKilled => "LEADER_KILLED"
  | .used => "USED"
  | .cleanedUp => "CLEANED_UP"
  | .scoredAHit => "SCORED_A_HIT"
  | .healed => "HEALED"
  | .disaffirmed => "DISAFFIRMED"
  | .changed => "CHANGED"
  | .inWater => "IN_WATER"
  | .bored => "BORED"
  | .tooMuchBaggage => "TOO_MUCH_BAGGAGE"
  | .levelUp => "LEVEL_UP"
  | .confused => "CONFUSED"
  | .hitGround => "HIT_GROUND"
  | .notDropped => "NOT_DROPPED"
  | .blocked => "BLOCKED"
  | .thrown => "THROWN"
  | .crushed => "CRUSHED"
  | .notPutAway => "NOT_PUT_AWAY"
  | .takenOut => "TAKEN_OUT"

end AlertKind

/-- A set of alerts. -/
structure Alerts where
  bits : UInt32
  deriving DecidableEq, Inhabited

namespace Alerts

/-- No alert. -/
def empty : Alerts := ⟨0⟩

/-- The set that holds one kind. -/
def single (kind : AlertKind) : Alerts := ⟨1 <<< kind.bit.toUInt32⟩

/-- The alerts of either set. -/
def union (a b : Alerts) : Alerts := ⟨a.bits ||| b.bits⟩

/-- The alerts of both sets. -/
def inter (a b : Alerts) : Alerts := ⟨a.bits &&& b.bits⟩

/-- The alerts of the first set that are not in the second. -/
def diff (a b : Alerts) : Alerts := ⟨a.bits &&& ~~~b.bits⟩

/-- Whether the set holds the kind. -/
def has (alerts : Alerts) (kind : AlertKind) : Bool :=
  alerts.bits &&& (single kind).bits != 0

/-- The set with the kind added. -/
def raise (alerts : Alerts) (kind : AlertKind) : Alerts := alerts.union (single kind)

/-- The set with the kind taken out. -/
def lower (alerts : Alerts) (kind : AlertKind) : Alerts := alerts.diff (single kind)

/-- The kinds in the set, in the order of their bits. -/
def kinds (alerts : Alerts) : List AlertKind := AlertKind.all.filter alerts.has

/-- The set of the listed kinds. -/
def ofKinds (kinds : List AlertKind) : Alerts := kinds.foldl raise empty

end Alerts
end NpcScript
