import NpcScript.Alert
import NpcScript.Idsz
import NpcScript.Saturating

/-!
# The world

The world holds the entities that scripts act on, a clock, and the seed of its random numbers. An
entity is known by its handle, which is never given to another one, even after the entity is
removed. Every change to an entity is recorded as an event, and an alert that one entity raises on
another is posted, to be delivered later.
-/

namespace NpcScript

/-- The handle of an entity. -/
structure Handle where
  index : UInt32
  deriving DecidableEq, Inhabited

/-- A handle as it is shown. -/
def Handle.render (h : Handle) : String := "#" ++ toString h.index.toNat

/-- How an entity moves. -/
inductive Movement where
  | run
  | walk
  | sneak
  deriving DecidableEq, Inhabited

/-- What may be given to an entity. -/
inductive Resource where
  | money
  | experience
  deriving DecidableEq, Inhabited

/-- An inhabitant of the world. -/
structure Entity where
  x : Int32
  y : Int32
  z : Int32
  turn : Int32
  life : Int32
  maxLife : Int32
  mana : Int32
  team : Int32
  money : Int32
  level : Int32
  experience : Int32
  isPlayer : Bool
  /-- The tags of what the entity is. -/
  tags : List Idsz
  /-- The tags of what the entity carries. -/
  inventory : List Idsz
  movement : Option Movement
  deriving DecidableEq, Inhabited

namespace Entity

/-- The team of entities that belong to none. -/
def neutralTeam : Int32 := 13

/-- A new entity at a place. -/
def placed (x y : Int32) : Entity where
  x := x
  y := y
  z := 0
  turn := 0
  life := 100
  maxLife := 100
  mana := 0
  team := neutralTeam
  money := 0
  level := 1
  experience := 0
  isPlayer := false
  tags := []
  inventory := []
  movement := none

/-- The entity with the given life, and room for that much. -/
def withLife (e : Entity) (life : Int32) : Entity :=
  { e with life := life, maxLife := if e.maxLife < life then life else e.maxLife }

end Entity

/-- An order to an entity. -/
structure Order where
  value : Int32
  /-- The place of the receiver among all who are given the same order. -/
  rank : Int32
  deriving DecidableEq, Inhabited

/-- An alert addressed to an entity. -/
structure Post where
  alert : AlertKind
  source : Option Handle
  order : Option Order
  deriving DecidableEq, Inhabited

/-- What has happened in the world. -/
inductive WorldEvent where
  | damage (target : Handle) (amount kind : Int32) (source : Handle)
  | heal (target : Handle) (amount : Int32)
  | kill (target source : Handle)
  | teleport (entity : Handle) (x y : Int32)
  | spawn (spawner child : Handle)
  | remove (entity : Handle)
  | message (sender : Handle) (message : Int32) (nearbyOnly : Bool)
  | sound (sender : Handle) (sound : Int32)
  | particle (sender : Handle) (particle x y : Int32)
  | move (entity : Handle) (movement : Movement)
  | action (entity : Handle) (action : Int32)
  | give (target : Handle) (resource : Resource) (amount : Int32)
  | joinTeam (entity : Handle) (team : Int32)
  deriving DecidableEq, Inhabited

/-- The world that scripts act on. -/
structure World where
  /-- The entities by handle; a removed one leaves its place empty. -/
  entities : Array (Option Entity)
  clock : UInt32
  seed : UInt32
  /-- What has happened, in order. -/
  events : Array WorldEvent
  /-- The alerts that have been posted, in order. -/
  posted : Array (Handle × Post)
  deriving Inhabited

namespace World

/-- The seed of a world that is given none. -/
def defaultSeed : UInt32 := 0x2545F491

/-- A world without entities. -/
def withSeed (seed : UInt32) : World := ⟨#[], 0, seed, #[], #[]⟩

/-- A world without entities, with the default seed. -/
def empty : World := withSeed defaultSeed

/-- The entity with the given handle, unless it has been removed. -/
def entity? (world : World) (h : Handle) : Option Entity :=
  (world.entities[h.index.toNat]?).join

/-- Whether the handle still stands for an entity. -/
def contains (world : World) (h : Handle) : Bool := (world.entity? h).isSome

/-- The entities whose place satisfies a condition, in the order of their handles. -/
def handlesWhere (world : World) (p : Entity → Bool) : List Handle :=
  world.entities.toList.zipIdx.filterMap fun (slot, index) =>
    if slot.any p then some ⟨index.toUInt32⟩ else none

/-- The handles of all entities. -/
def handles (world : World) : List Handle := world.handlesWhere fun _ => true

/-- The members of a team, in the order of their handles. -/
def teamMembers (world : World) (team : Int32) : List Handle :=
  world.handlesWhere fun e => e.team = team

/-- Adds an entity, and gives its handle. -/
def add (world : World) (e : Entity) : Handle × World :=
  (⟨world.entities.size.toUInt32⟩, { world with entities := world.entities.push (some e) })

/-- Writes the place of a handle. -/
def put (world : World) (h : Handle) (slot : Option Entity) : World :=
  { world with entities := world.entities.setIfInBounds h.index.toNat slot }

/-- Records an event. -/
def record (world : World) (event : WorldEvent) : World :=
  { world with events := world.events.push event }

/-- Takes the events out of the world. -/
def takeEvents (world : World) : List WorldEvent × World :=
  (world.events.toList, { world with events := #[] })

/-- Takes the posted alerts out of the world. -/
def takePosted (world : World) : List (Handle × Post) × World :=
  (world.posted.toList, { world with posted := #[] })

/-- Moves the clock on by one tick. -/
def advanceClock (world : World) : World := { world with clock := world.clock + 1 }

/-- The seed that follows a seed: three shifts, each folded in by exclusive or. -/
def nextSeed (seed : UInt32) : UInt32 :=
  let seed := seed ^^^ (seed <<< 13)
  let seed := seed ^^^ (seed >>> 17)
  seed ^^^ (seed <<< 5)

/-- The next random number, of sixteen bits. -/
def random (world : World) : Int32 := (nextSeed world.seed &&& 0xFFFF).toInt32

/-- The world after its next random number has been drawn. -/
def drawn (world : World) : World := { world with seed := nextSeed world.seed }

/-! ### Changes

A change that cannot happen, because the entity is gone, gives nothing. -/

/-- Changes an entity and records an event. -/
def change (world : World) (h : Handle) (f : Entity → Entity) (event : WorldEvent) :
    Option World :=
  (world.entity? h).map fun e => (world.put h (some (f e))).record event

/-- Takes life from an entity; a negative amount takes none. -/
def applyDamage (world : World) (target : Handle) (amount kind : Int32) (source : Handle) :
    Option World :=
  world.change target
    (fun e => { e with life := saturate (e.life.toInt - max amount.toInt 0) })
    (.damage target amount kind source)

/-- Gives an entity life, up to what it has room for; a negative amount gives none. -/
def heal (world : World) (target : Handle) (amount : Int32) : Option World :=
  world.change target
    (fun e => { e with life := saturate (min (e.life.toInt + max amount.toInt 0) e.maxLife.toInt) })
    (.heal target amount)

/-- Takes all life from an entity. -/
def kill (world : World) (target source : Handle) : Option World :=
  world.change target (fun e => { e with life := 0 }) (.kill target source)

/-- Moves an entity to a place. -/
def teleport (world : World) (h : Handle) (x y : Int32) : Option World :=
  world.change h (fun e => { e with x := x, y := y }) (.teleport h x y)

/-- Adds a child of an entity, on the same team. -/
def spawn (world : World) (spawner : Handle) (x y turn : Int32) : Option (Handle × World) :=
  (world.entity? spawner).map fun e =>
    let (child, world) := world.add { Entity.placed x y with team := e.team, turn := turn }
    (child, world.record (.spawn spawner child))

/-- Removes an entity. -/
def remove (world : World) (h : Handle) : Option World :=
  if world.contains h then some ((world.put h none).record (.remove h)) else none

/-- Posts an alert. -/
def post (world : World) (target : Handle) (post : Post) : World :=
  { world with posted := world.posted.push (target, post) }

/-- Sends a message, also from an entity that is gone. -/
def sendMessage (world : World) (sender : Handle) (message : Int32) (nearbyOnly : Bool) : World :=
  world.record (.message sender message nearbyOnly)

/-- Plays a sound, also from an entity that is gone. -/
def playSound (world : World) (sender : Handle) (sound : Int32) : World :=
  world.record (.sound sender sound)

/-- Shows a particle. -/
def spawnParticle (world : World) (sender : Handle) (particle x y : Int32) : Option World :=
  if world.contains sender then some (world.record (.particle sender particle x y)) else none

/-- Lets an entity move in a manner. -/
def setMovement (world : World) (h : Handle) (movement : Movement) : Option World :=
  world.change h (fun e => { e with movement := some movement }) (.move h movement)

/-- Lets an entity act. -/
def doAction (world : World) (h : Handle) (action : Int32) : Option World :=
  if world.contains h then some (world.record (.action h action)) else none

/-- Gives a resource to an entity. -/
def give (world : World) (target : Handle) (resource : Resource) (amount : Int32) : Option World :=
  world.change target
    (fun e => match resource with
      | .money => { e with money := saturate (e.money.toInt + amount.toInt) }
      | .experience => { e with experience := saturate (e.experience.toInt + amount.toInt) })
    (.give target resource amount)

/-- Moves an entity to a team. -/
def joinTeam (world : World) (h : Handle) (team : Int32) : Option World :=
  world.change h (fun e => { e with team := team }) (.joinTeam h team)

end World
end NpcScript
