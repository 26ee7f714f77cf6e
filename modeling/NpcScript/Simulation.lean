import NpcScript.Director
import NpcScript.Text
import NpcScript.World.Events

/-!
# Trying a script out

Some entities are put side by side into an empty world, all with the same script, and the director
runs them for a number of ticks. Every call and every event is reported, tick by tick.
-/

namespace NpcScript

/-- The name of a signal. -/
def Signal.name : Signal → String
  | proceed => "Continue"
  | skip => "Skip"
  | halt => "Halt"

namespace Simulation

/-- A world with its director. -/
structure Stage where
  world : World
  director : Director
  deriving Inhabited

/-- How far entities stand from each other. -/
def spacing : Nat := 128

/-- Puts an entity with a script into the world. -/
def join (script : Script) (stage : Stage) (place : Nat) : Stage :=
  let (h, world) := stage.world.add (Entity.placed (saturate (spacing * place)) 0)
  ⟨world, stage.director.spawn h script⟩

/-- The stage with as many entities as given. -/
def stage (machine : Machine) (script : Script) (entities : Nat) : Stage :=
  (List.range entities).foldl (join script)
    ⟨World.empty, Director.empty { machine with recordsCalls := true }⟩

/-- The line about a tick. -/
def tickLine (tick : Nat) (report : TickReport) : String :=
  "── tick " ++ toString tick ++ " ── ran " ++ toString report.ran ++ " (halted " ++
    toString report.halted ++ ", suspended " ++ toString report.suspended ++ "), delivered " ++
    toString report.delivered ++ ", removed " ++ toString report.removed ++ "\n"

/-- The line about a call. -/
def callLine (call : CallRecord) : String :=
  "  " ++ Text.padRight 4 call.entity.render ++ " " ++ Text.padRight 24 call.builtin.name ++ " " ++
    call.signal.name ++ "\n"

/-- The line about an event. -/
def eventLine (event : WorldEvent) : String := "  event " ++ event.render ++ "\n"

/-- Runs a tick: its report, and the stage behind it. -/
def tick (number : Nat) (stage : Stage) : String × Stage :=
  let (report, director, world) := stage.director.tick stage.world
  let (calls, journal) := director.journal.takeCalls
  let (events, world) := world.takeEvents
  (tickLine number report ++ String.join (calls.map callLine) ++
      String.join (events.map eventLine),
    ⟨world.advanceClock, { director with journal := journal }⟩)

/-- Runs the given number of ticks, or fewer if no entity is left, behind those that are already
reported. -/
def run (done : String) (number : Nat) : (ticks : Nat) → Stage → String
  | 0, _ => done
  | ticks + 1, stage =>
      let (report, stage) := tick number stage
      let done := done ++ report
      if stage.director.actors.isEmpty then done else run done (number + 1) ticks stage

/-- The report of trying a script out. -/
def report (machine : Machine) (script : Script) (ticks entities : Nat) : String :=
  run "" 0 ticks (stage machine script entities)

end Simulation
end NpcScript
