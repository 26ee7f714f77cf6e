import NpcScript.World.Basic

/-!
# Minds

The mind of an entity is what its script works on: the temporaries, the alerts that are pending, and
what the entity remembers from one tick to the next.
-/

namespace NpcScript

/-- What the run of a script is doing. -/
inductive Phase where
  | idle
  | running
  /-- The run used up its instructions; the next one begins at the top. -/
  | suspended
  /-- The script ended the run. -/
  | terminated
  deriving DecidableEq, Inhabited

/-- The variables that a script may assign. -/
structure Temporaries where
  x : Int32
  y : Int32
  distance : Int32
  turn : Int32
  argument : Int32
  deriving DecidableEq, Inhabited

/-- The state of one entity's script. -/
structure Mind where
  entity : Handle
  /-- The offset of the instruction to be carried out next. -/
  counter : Nat
  phase : Phase
  /-- The value of the expression being folded, or of the last one. -/
  working : Int32
  /-- The last operand that was folded. -/
  operand : Int32
  vars : Temporaries
  /-- What the last predicate found. -/
  lastCondition : Bool
  /-- The alerts that are pending. -/
  alerts : Alerts
  /-- The alerts that the script itself has raised in its run. -/
  raised : Alerts
  /-- When the time that the script has set is up. -/
  timer : Option UInt32
  state : Int32
  content : Int32
  damageKind : Int32
  target : Option Handle
  oldTarget : Option Handle
  owner : Option Handle
  child : Option Handle
  attacker : Option Handle
  bumper : Option Handle
  helper : Option Handle
  order : Order
  waypoints : List (Int32 × Int32)
  storedXY : Vector (Int32 × Int32) 16
  deriving DecidableEq

namespace Mind

/-- How many waypoints can be queued. -/
def maxWaypoints : Nat := 8

/-- A mind in which nothing has happened yet. -/
def blank (entity : Handle) : Mind where
  entity := entity
  counter := 0
  phase := .idle
  working := 0
  operand := 0
  vars := ⟨0, 0, 0, 0, 0⟩
  lastCondition := false
  alerts := .empty
  raised := .empty
  timer := none
  state := 0
  content := 0
  damageKind := 0
  target := none
  oldTarget := none
  owner := none
  child := none
  attacker := none
  bumper := none
  helper := none
  order := ⟨0, 0⟩
  waypoints := []
  storedXY := Vector.replicate 16 (0, 0)

/-- The mind of an entity that has just been spawned: it is alerted to that, and its target is the
entity itself. -/
def spawned (entity : Handle) : Mind :=
  { blank entity with alerts := Alerts.empty.raise .spawned, target := some entity }

instance : Inhabited Mind := ⟨blank default⟩

/-- Makes an entity the target, and remembers the target before it. -/
def setTarget (mind : Mind) (target : Handle) : Mind :=
  { mind with
    target := some target
    oldTarget := if mind.target = some target then mind.oldTarget else mind.target }

/-- Whether the time that the script has set is up. -/
def timedOut (mind : Mind) (clock : UInt32) : Bool :=
  mind.timer.any (· ≤ clock)

/-- The waypoint that the entity goes to. -/
def nextWaypoint? (mind : Mind) : Option (Int32 × Int32) := mind.waypoints.head?

/-- Drops the waypoint that has been reached, and raises an alert when no other is left. -/
def advanceWaypoint (mind : Mind) : Mind :=
  let rest := mind.waypoints.tail
  { mind with
    waypoints := rest
    alerts := if rest.isEmpty then mind.alerts.raise .atLastWaypoint else mind.alerts }

/-- Raises an alert from within the script, so that it outlasts the run. -/
def raiseAlert (mind : Mind) (kind : AlertKind) : Mind :=
  { mind with alerts := mind.alerts.raise kind, raised := mind.raised.raise kind }

/-- The alerts that a run has used up: those pending at its start that it has not raised again. -/
def consumedAlerts (mind : Mind) (observed : Alerts) : Alerts :=
  observed.diff mind.raised

/-- Takes in an alert that has been posted, with what it says about its source. -/
def deliver (mind : Mind) (post : Post) : Mind :=
  let mind := { mind with alerts := mind.alerts.raise post.alert }
  match post.alert with
  | .attacked => { mind with attacker := post.source.or mind.attacker }
  | .bumped => { mind with bumper := post.source.or mind.bumper }
  | .calledForHelp => { mind with helper := post.source.or mind.helper }
  | .ordered => { mind with order := post.order.getD mind.order }
  | .atWaypoint => mind.advanceWaypoint
  | _ => mind

end Mind
end NpcScript
