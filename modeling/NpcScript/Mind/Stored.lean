import NpcScript.Alert.Flags
import NpcScript.Json.Reader
import NpcScript.Json.Writer
import NpcScript.Mind.Basic

/-!
# Stored minds

A mind is stored as a JSON record, and can be read back from it. What the script has raised in its
last run is not stored, since it matters only while the script runs.
-/

namespace NpcScript

/-- The name that a stored mind has for what the run of its script is doing. -/
def Phase.name : Phase → String
  | .idle => "Idle"
  | .running => "Running"
  | .suspended => "Suspended"
  | .terminated => "Terminated"

/-- All phases. -/
def Phase.all : List Phase := [.idle, .running, .suspended, .terminated]

/-- The phase with the given name. -/
def Phase.ofName? (name : String) : Option Phase := all.find? (·.name == name)

namespace Mind

open Json

/-- The names of the fields, in their order. -/
def fieldNames : List String := [
  "entity", "program_counter", "vm_state", "working_value", "indexed_operand", "vars",
  "last_condition", "alerts", "timer", "state", "content", "damage_kind", "target", "old_target",
  "owner", "child", "attacker", "bumper", "helper", "order", "waypoints", "stored_xy"]

/-- The written form of a handle that may be missing. -/
def storeHandle (h : Option Handle) : String :=
  writeOption (fun h => toString h.index) h

/-- The written form of a mind. -/
def store (mind : Mind) : String :=
  writeObject [
    ("entity", toString mind.entity.index),
    ("program_counter", toString mind.counter),
    ("vm_state", writePlain mind.phase.name),
    ("working_value", toString mind.working),
    ("indexed_operand", toString mind.operand),
    ("vars", writeObject [
      ("x", toString mind.vars.x),
      ("y", toString mind.vars.y),
      ("distance", toString mind.vars.distance),
      ("turn", toString mind.vars.turn),
      ("argument", toString mind.vars.argument)]),
    ("last_condition", toString mind.lastCondition),
    ("alerts", writePlain mind.alerts.flags),
    ("timer", writeOption toString mind.timer),
    ("state", toString mind.state),
    ("content", toString mind.content),
    ("damage_kind", toString mind.damageKind),
    ("target", storeHandle mind.target),
    ("old_target", storeHandle mind.oldTarget),
    ("owner", storeHandle mind.owner),
    ("child", storeHandle mind.child),
    ("attacker", storeHandle mind.attacker),
    ("bumper", storeHandle mind.bumper),
    ("helper", storeHandle mind.helper),
    ("order", writeObject [
      ("value", toString mind.order.value),
      ("rank", toString mind.order.rank)]),
    ("waypoints", writeArray (mind.waypoints.map fun (x, y) =>
      writeObject [("x", toString x), ("y", toString y)])),
    ("stored_xy", writeArray (mind.storedXY.toList.map fun (x, y) =>
      writeArray [toString x, toString y]))]

/-- Reads a handle. -/
def handleOfValue? (value : Value) : Option Handle := value.word?.map Handle.mk

/-- Reads a phase: its name, or an object with its name and null. -/
def phaseOfValue? : Value → Option Phase
  | .text name => (Piece.decode? name).bind Phase.ofName?
  | .object [(name, .null)] => (Piece.decode? name).bind Phase.ofName?
  | _ => none

/-- Reads the variables that a script may assign. -/
def temporariesOfValue? (value : Value) : Option Temporaries := do
  let fields ← Fields.ofValue? ["x", "y", "distance", "turn", "argument"] 0 value
  return {
    x := ← fields.get? "x" Value.int32?
    y := ← fields.get? "y" Value.int32?
    distance := ← fields.get? "distance" Value.int32?
    turn := ← fields.get? "turn" Value.int32?
    argument := ← fields.get? "argument" Value.int32? }

/-- Reads an order. -/
def orderOfValue? (value : Value) : Option Order := do
  let fields ← Fields.ofValue? ["value", "rank"] 0 value
  return ⟨← fields.get? "value" Value.int32?, ← fields.get? "rank" Value.int32?⟩

/-- Reads a waypoint. -/
def waypointOfValue? (value : Value) : Option (Int32 × Int32) := do
  let fields ← Fields.ofValue? ["x", "y"] 0 value
  return (← fields.get? "x" Value.int32?, ← fields.get? "y" Value.int32?)

/-- Reads a pair of coordinates. -/
def pairOfValue? : Value → Option (Int32 × Int32)
  | .array [x, y] => do return (← x.int32?, ← y.int32?)
  | _ => none

/-- Reads sixteen pairs of coordinates. -/
def pairsOfValue? (value : Value) : Option (Vector (Int32 × Int32) 16) := do
  let pairs ← value.list? pairOfValue?
  if h : pairs.toArray.size = 16 then some ⟨pairs.toArray, h⟩ else none

/-- Reads a mind. A record that is written as an array has to have all fields. -/
def ofValue? (value : Value) : Option Mind := do
  let fields ← Fields.ofValue? fieldNames fieldNames.length value
  return {
    entity := ← fields.get? "entity" handleOfValue?
    counter := ← fields.get? "program_counter" Value.count?
    phase := ← fields.get? "vm_state" phaseOfValue?
    working := ← fields.get? "working_value" Value.int32?
    operand := ← fields.get? "indexed_operand" Value.int32?
    vars := ← fields.get? "vars" temporariesOfValue?
    lastCondition := ← fields.get? "last_condition" Value.bool?
    alerts := ← fields.get? "alerts" fun value => value.text?.bind Alerts.ofFlags?
    raised := .empty
    timer := ← fields.getOption? "timer" Value.word?
    state := ← fields.get? "state" Value.int32?
    content := ← fields.get? "content" Value.int32?
    damageKind := ← fields.get? "damage_kind" Value.int32?
    target := ← fields.getOption? "target" handleOfValue?
    oldTarget := ← fields.getOption? "old_target" handleOfValue?
    owner := ← fields.getOption? "owner" handleOfValue?
    child := ← fields.getOption? "child" handleOfValue?
    attacker := ← fields.getOption? "attacker" handleOfValue?
    bumper := ← fields.getOption? "bumper" handleOfValue?
    helper := ← fields.getOption? "helper" handleOfValue?
    order := ← fields.get? "order" orderOfValue?
    waypoints := ← fields.get? "waypoints" fun value => value.list? waypointOfValue?
    storedXY := ← fields.get? "stored_xy" pairsOfValue? }

/-- Reads the written form of a mind. -/
def restore? (text : String) : Option Mind :=
  (Value.ofBytes? text.toUTF8.data.toList).bind ofValue?

end Mind
end NpcScript
