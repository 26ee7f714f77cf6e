/-!
# Script variables

Scripts read the state of their entity and its surroundings through a fixed set of variables, and
they write five of them. An instruction names a variable by its slot, so the order of the list
below is part of the compiled form.
-/

namespace NpcScript

/-- The variables, in the order of their slots. -/
inductive Variable where
  | tmpX
  | tmpY
  | tmpDistance
  | tmpTurn
  | tmpArgument
  | rand
  | selfX
  | selfY
  | selfZ
  | selfTurn
  | selfCounter
  | selfOrder
  | selfLife
  | selfMana
  | selfState
  | selfContent
  | selfMoney
  | selfLevel
  | selfIndex
  | selfTeam
  | targetX
  | targetY
  | targetZ
  | targetTurn
  | targetDistance
  | targetLife
  | targetMaxLife
  | targetMana
  | targetTeam
  | targetLevel
  | targetMoney
  | targetExp
  | targetStr
  | targetDex
  | targetInt
  | targetWis
  | gotoX
  | gotoY
  | gotoDistance
  | ownerX
  | ownerY
  | ownerDistance
  | xyDistance
  | timer
  deriving DecidableEq, Inhabited

namespace Variable

/-- All variables, in the order of their slots. -/
def all : List Variable :=
  [.tmpX, .tmpY, .tmpDistance, .tmpTurn, .tmpArgument, .rand, .selfX, .selfY, .selfZ, .selfTurn,
   .selfCounter, .selfOrder, .selfLife, .selfMana, .selfState, .selfContent, .selfMoney,
   .selfLevel, .selfIndex, .selfTeam, .targetX, .targetY, .targetZ, .targetTurn,
   .targetDistance, .targetLife, .targetMaxLife, .targetMana, .targetTeam, .targetLevel,
   .targetMoney, .targetExp, .targetStr, .targetDex, .targetInt, .targetWis, .gotoX, .gotoY,
   .gotoDistance, .ownerX, .ownerY, .ownerDistance, .xyDistance, .timer]

/-- The slot of a variable. -/
def slot (v : Variable) : UInt8 := v.ctorIdx.toUInt8

/-- The variable in the given slot. -/
def ofSlot? (slot : UInt8) : Option Variable := all[slot.toNat]?

/-- The name that scripts and listings have for the variable. -/
def name : Variable → String
  | .tmpX => "tmpx"
  | .tmpY => "tmpy"
  | .tmpDistance => "tmpdist"
  | .tmpTurn => "tmpturn"
  | .tmpArgument => "tmpargument"
  | .rand => "rand"
  | .selfX => "selfx"
  | .selfY => "selfy"
  | .selfZ => "selfz"
  | .selfTurn => "selfturn"
  | .selfCounter => "selfcounter"
  | .selfOrder => "selforder"
  | .selfLife => "selflife"
  | .selfMana => "selfmana"
  | .selfState => "selfstate"
  | .selfContent => "selfcontent"
  | .selfMoney => "selfmoney"
  | .selfLevel => "selflevel"
  | .selfIndex => "selfindex"
  | .selfTeam => "selfteam"
  | .targetX => "targetx"
  | .targetY => "targety"
  | .targetZ => "targetz"
  | .targetTurn => "targetturn"
  | .targetDistance => "targetdistance"
  | .targetLife => "targetlife"
  | .targetMaxLife => "targetmaxlife"
  | .targetMana => "targetmana"
  | .targetTeam => "targetteam"
  | .targetLevel => "targetlevel"
  | .targetMoney => "targetmoney"
  | .targetExp => "targetexp"
  | .targetStr => "targetstr"
  | .targetDex => "targetdex"
  | .targetInt => "targetint"
  | .targetWis => "targetwis"
  | .gotoX => "gotox"
  | .gotoY => "gotoy"
  | .gotoDistance => "gotodistance"
  | .ownerX => "ownerx"
  | .ownerY => "ownery"
  | .ownerDistance => "ownerdistance"
  | .xyDistance => "xydistance"
  | .timer => "timer"

/-- Further names that scripts may use for the variable. -/
def aliases : Variable → List String
  | .tmpDistance => ["tmpdistance"]
  | _ => []

/-- Every name of a variable with the variable that it stands for. -/
def sourceNames : List (String × Variable) :=
  all.flatMap fun v => (v.name :: v.aliases).map fun name => (name, v)

/-- Only the five temporaries may be assigned. -/
def isWritable : Variable → Bool
  | .tmpX | .tmpY | .tmpDistance | .tmpTurn | .tmpArgument => true
  | _ => false

end Variable
end NpcScript
