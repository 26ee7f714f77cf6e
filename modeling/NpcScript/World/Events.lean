import NpcScript.World.Basic

/-!
# Events as they are shown

An event is shown by its name and by its circumstances, each with a name of its own.
-/

namespace NpcScript

/-- The name of a way to move. -/
def Movement.name : Movement → String
  | run => "Run"
  | walk => "Walk"
  | sneak => "Sneak"

/-- The name of what is given. -/
def Resource.name : Resource → String
  | money => "Money"
  | experience => "Experience"

/-- One circumstance of an event. -/
inductive Circumstance where
  | handle (h : Handle)
  | number (n : Int32)
  | truth (b : Bool)
  | word (name : String)
  deriving DecidableEq, Inhabited

/-- A circumstance as it is shown. -/
def Circumstance.render : Circumstance → String
  | handle h => "EntityRef(" ++ toString h.index ++ ")"
  | number n => toString n
  | truth b => toString b
  | word name => name

namespace WorldEvent

/-- The name of an event. -/
def name : WorldEvent → String
  | damage .. => "Damage"
  | heal .. => "Heal"
  | kill .. => "Kill"
  | teleport .. => "Teleport"
  | spawn .. => "Spawn"
  | remove .. => "Remove"
  | message .. => "Message"
  | sound .. => "Sound"
  | particle .. => "Particle"
  | move .. => "Move"
  | action .. => "Action"
  | give .. => "Give"
  | joinTeam .. => "JoinTeam"

/-- The circumstances of an event, with their names. -/
def circumstances : WorldEvent → List (String × Circumstance)
  | damage target amount kind source =>
      [("target", .handle target), ("amount", .number amount), ("kind", .number kind),
        ("source", .handle source)]
  | heal target amount => [("target", .handle target), ("amount", .number amount)]
  | kill target source => [("target", .handle target), ("source", .handle source)]
  | teleport entity x y => [("entity", .handle entity), ("x", .number x), ("y", .number y)]
  | spawn spawner child => [("spawner", .handle spawner), ("child", .handle child)]
  | remove entity => [("entity", .handle entity)]
  | message sender n nearbyOnly =>
      [("from", .handle sender), ("message", .number n), ("nearby_only", .truth nearbyOnly)]
  | sound sender n => [("from", .handle sender), ("sound", .number n)]
  | particle sender n x y =>
      [("from", .handle sender), ("particle", .number n), ("x", .number x), ("y", .number y)]
  | move entity movement => [("entity", .handle entity), ("movement", .word movement.name)]
  | action entity n => [("entity", .handle entity), ("action", .number n)]
  | give target resource amount =>
      [("target", .handle target), ("resource", .word resource.name), ("amount", .number amount)]
  | joinTeam entity team => [("entity", .handle entity), ("team", .number team)]

/-- An event as it is shown. -/
def render (event : WorldEvent) : String :=
  event.name ++ " \x7b " ++
    ", ".intercalate (event.circumstances.map fun (name, c) => name ++ ": " ++ c.render) ++ " \x7d"

end WorldEvent
end NpcScript
