import NpcScript.World.Basic

/-!
# Looking at the world

What scripts can find out about entities: their attributes, their tags, how far apart they are, and
which one that fits some criteria is nearest.
-/

namespace NpcScript

/-- A number that can be read from an entity. -/
inductive Attribute where
  | x
  | y
  | z
  | turn
  | life
  | maxLife
  | mana
  | team
  | money
  | level
  | experience
  | strength
  | dexterity
  | intelligence
  | wisdom
  | isPlayer
  deriving DecidableEq, Inhabited

namespace Attribute

/-- All attributes. -/
def all : List Attribute :=
  [.x, .y, .z, .turn, .life, .maxLife, .mana, .team, .money, .level, .experience, .strength,
   .dexterity, .intelligence, .wisdom, .isPlayer]

/-- What every entity has of strength, dexterity, intelligence and wisdom. -/
def ability : Int32 := 10

/-- The attribute of an entity. -/
def of (e : Entity) : Attribute → Int32
  | x => e.x
  | y => e.y
  | z => e.z
  | turn => e.turn
  | life => e.life
  | maxLife => e.maxLife
  | mana => e.mana
  | team => e.team
  | money => e.money
  | level => e.level
  | experience => e.experience
  | strength | dexterity | intelligence | wisdom => ability
  | isPlayer => if e.isPlayer then 1 else 0

end Attribute

/-- How an entity stands to the one that looks for it. -/
inductive Relation where
  | enemy
  | friend
  | any
  deriving DecidableEq, Inhabited

/-- What is looked for. -/
structure Criteria where
  relation : Relation
  maxDistance : Option Int32 := none
  minDistance : Option Int32 := none
  /-- A tag of what the entity is or carries. -/
  tag : Option Idsz := none
  aliveOnly : Bool := true
  deriving DecidableEq, Inhabited

/-- Where to look for a tag. -/
inductive TagPlace where
  /-- Among the tags of what the entity is. -/
  | self
  /-- Among the tags of what the entity carries. -/
  | inventory
  deriving DecidableEq, Inhabited

namespace World

/-- An attribute of the entity with the given handle. -/
def attribute? (world : World) (h : Handle) (key : Attribute) : Option Int32 :=
  (world.entity? h).map fun e => key.of e

/-- Whether an entity has a tag. -/
def hasTag (world : World) (h : Handle) (tag : Idsz) (place : TagPlace) : Bool :=
  (world.entity? h).any fun e =>
    match place with
    | .self => e.tags.contains tag
    | .inventory => e.inventory.contains tag

/-- The distance by which entities are looked for: along the axes, and at most the greatest signed
number. -/
def gridDistance (a b : Entity) : Int32 :=
  saturate ((a.x.toInt - b.x.toInt).natAbs + (a.y.toInt - b.y.toInt).natAbs : Nat)

/-- The distance that scripts read: along a straight line, rounded down, and at most the greatest
signed number. The sum of the squares stops at the greatest 64-bit number. -/
def distance (a b : Int32 × Int32) : Int32 :=
  let dx := (a.1.toInt - b.1.toInt).natAbs
  let dy := (a.2.toInt - b.2.toInt).natAbs
  saturate (floorSqrt (min (dx * dx + dy * dy) 0xFFFFFFFFFFFFFFFF))

/-- Whether a candidate fits what an entity looks for. -/
def fits (criteria : Criteria) (origin candidate : Entity) : Bool :=
  let related := match criteria.relation with
    | .enemy => candidate.team != origin.team
    | .friend => candidate.team == origin.team
    | .any => true
  let distance := gridDistance origin candidate
  related && (!criteria.aliveOnly || 0 < candidate.life) &&
    criteria.maxDistance.all (distance ≤ ·) && criteria.minDistance.all (· ≤ distance) &&
    criteria.tag.all fun tag => candidate.tags.contains tag || candidate.inventory.contains tag

/-- The entities that fit what another one looks for, with their distances, in the order of their
handles. -/
def candidates (world : World) (criteria : Criteria) (origin : Handle) (e : Entity) :
    List (Int32 × Handle) :=
  world.entities.toList.zipIdx.filterMap fun (slot, index) =>
    if index = origin.index.toNat then none
    else (slot.filter (fits criteria e)).map fun c => (gridDistance e c, ⟨index.toUInt32⟩)

/-- The nearer of two entities, and the first one if they are equally far. -/
def nearer (a b : Int32 × Handle) : Int32 × Handle :=
  if b.1 < a.1 then b else a

/-- The nearest entity that fits what another one looks for. -/
def findNearest? (world : World) (origin : Handle) (criteria : Criteria) : Option Handle :=
  match world.entity? origin with
  | none => none
  | some e =>
      match world.candidates criteria origin e with
      | [] => none
      | first :: rest => some (rest.foldl nearer first).2

end World
end NpcScript
