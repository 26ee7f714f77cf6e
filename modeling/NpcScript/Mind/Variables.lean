import NpcScript.Mind.Basic
import NpcScript.Variable
import NpcScript.World.Search

/-!
# Reading and writing variables

What the variables of a script stand for. What belongs to a missing entity reads as zero.
-/

namespace NpcScript.Mind

/-- The target, if the world still has it. -/
def liveTarget? (mind : Mind) (world : World) : Option Handle :=
  mind.target.filter world.contains

/-- The owner, if the world still has it. -/
def liveOwner? (mind : Mind) (world : World) : Option Handle :=
  mind.owner.filter world.contains

/-- An attribute of an entity, zero if there is none. -/
def attributeOf (world : World) (h : Option Handle) (key : Attribute) : Int32 :=
  (h.bind (world.attribute? · key)).getD 0

/-- The place of an entity. -/
def placeOf (world : World) (h : Option Handle) : Int32 × Int32 :=
  (attributeOf world h .x, attributeOf world h .y)

/-- The distance from one entity to another one, zero if there is no other one. -/
def distanceTo (world : World) (me other : Option Handle) : Int32 :=
  match other with
  | some _ => World.distance (placeOf world me) (placeOf world other)
  | none => 0

/-- How long it takes until the time that a script has set is up. -/
def timeLeft (mind : Mind) (clock : UInt32) : Int32 :=
  match mind.timer with
  | some deadline => saturate ((deadline.toNat - clock.toNat : Nat) : Int)
  | none => 0

/-- The value of a variable. -/
def value (mind : Mind) (world : World) (v : Variable) : Int32 :=
  let me := some mind.entity
  let target := mind.liveTarget? world
  let owner := mind.liveOwner? world
  match v with
  | .tmpX => mind.vars.x
  | .tmpY => mind.vars.y
  | .tmpDistance => mind.vars.distance
  | .tmpTurn => mind.vars.turn
  | .tmpArgument => mind.vars.argument
  | .rand => world.random
  | .selfX => attributeOf world me .x
  | .selfY => attributeOf world me .y
  | .selfZ => attributeOf world me .z
  | .selfTurn => attributeOf world me .turn
  | .selfCounter => mind.order.rank
  | .selfOrder => mind.order.value
  | .selfLife => attributeOf world me .life
  | .selfMana => attributeOf world me .mana
  | .selfState => mind.state
  | .selfContent => mind.content
  | .selfMoney => attributeOf world me .money
  | .selfLevel => attributeOf world me .level
  | .selfIndex => mind.entity.index.toInt32
  | .selfTeam => attributeOf world me .team
  | .targetX => attributeOf world target .x
  | .targetY => attributeOf world target .y
  | .targetZ => attributeOf world target .z
  | .targetTurn => attributeOf world target .turn
  | .targetDistance => distanceTo world me target
  | .targetLife => attributeOf world target .life
  | .targetMaxLife => attributeOf world target .maxLife
  | .targetMana => attributeOf world target .mana
  | .targetTeam => attributeOf world target .team
  | .targetLevel => attributeOf world target .level
  | .targetMoney => attributeOf world target .money
  | .targetExp => attributeOf world target .experience
  | .targetStr => attributeOf world target .strength
  | .targetDex => attributeOf world target .dexterity
  | .targetInt => attributeOf world target .intelligence
  | .targetWis => attributeOf world target .wisdom
  | .gotoX =>
      match mind.nextWaypoint? with
      | some (x, _) => x
      | none => attributeOf world me .x
  | .gotoY =>
      match mind.nextWaypoint? with
      | some (_, y) => y
      | none => attributeOf world me .y
  | .gotoDistance =>
      match mind.nextWaypoint? with
      | some place => World.distance (placeOf world me) place
      | none => 0
  | .ownerX => attributeOf world owner .x
  | .ownerY => attributeOf world owner .y
  | .ownerDistance => distanceTo world me owner
  | .xyDistance => World.distance (0, 0) (mind.vars.x, mind.vars.y)
  | .timer => mind.timeLeft world.clock

/-- Reads a variable. Only a random number leaves a trace in the world. -/
def read (mind : Mind) (world : World) (v : Variable) : Int32 × World :=
  (mind.value world v, if v = .rand then world.drawn else world)

/-- Assigns a variable, if it is one of the temporaries. -/
def write (mind : Mind) (v : Variable) (value : Int32) : Mind :=
  match v with
  | .tmpX => { mind with vars := { mind.vars with x := value } }
  | .tmpY => { mind with vars := { mind.vars with y := value } }
  | .tmpDistance => { mind with vars := { mind.vars with distance := value } }
  | .tmpTurn => { mind with vars := { mind.vars with turn := value } }
  | .tmpArgument => { mind with vars := { mind.vars with argument := value } }
  | _ => mind

end NpcScript.Mind
