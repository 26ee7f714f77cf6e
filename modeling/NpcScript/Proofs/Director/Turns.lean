import NpcScript.Director
import NpcScript.Proofs.Machine.Dispatches

/-! # The turns of a tick

A tick gives each actor that is in the world at its start one turn, in order.
What happened before an actor's turn reaches its run only through the journal
and the world: the mind that it starts with is its own
(`NpcScript.Director.tick_actors`).
-/

namespace NpcScript

namespace Director

/-- An actor in front of its turn, with what the tick has done so far. -/
structure Turn where
  before : Progress
  actor : Actor

namespace Turn

/-- Whether the script of the actor is run. Otherwise its entity is gone. -/
def runs (t : Turn) : Bool := t.before.world.contains t.actor.entity

/-- The state in which the script of the actor is run. Nothing has been raised by it yet. -/
def start (t : Turn) : RunState :=
  ⟨t.before.journal, { t.actor.mind with raised := .empty }, t.before.world⟩

/-- How the run ends. -/
def ran (machine : Machine) (t : Turn) : Outcome × RunState := machine.run t.actor.script t.start

/-- The operations that the run dispatches. -/
def dispatches (machine : Machine) (t : Turn) : List Dispatch :=
  if t.runs then machine.dispatches t.actor.script t.start else []

/-- The actor behind its turn. -/
def after (machine : Machine) (t : Turn) : Actor :=
  if t.runs then
    let mind := (t.ran machine).2.mind
    { t.actor with
      mind := { mind with alerts := mind.alerts.diff (mind.consumedAlerts t.actor.mind.alerts) } }
  else t.actor

/-- The world behind the turn. -/
def worldAfter (machine : Machine) (t : Turn) : World :=
  if t.runs then (t.ran machine).2.world else t.before.world

/-- What a turn makes of the world is the world behind the turn. -/
theorem turn_world (machine : Machine) (t : Turn) :
    (turn machine t.before t.actor).world = t.worldAfter machine := by
  unfold turn worldAfter runs
  by_cases runs : t.before.world.contains t.actor.entity = true
  · rw [if_pos runs, if_pos runs]
    rfl
  · rw [if_neg runs, if_neg runs]

private theorem turn_done (machine : Machine) (t : Turn) :
    (turn machine t.before t.actor).done = t.after machine :: t.before.done := by
  unfold turn after runs
  by_cases runs : t.before.world.contains t.actor.entity = true
  · rw [if_pos runs, if_pos runs]
    rfl
  · rw [if_neg runs, if_neg runs]

end Turn

/-- The turns of actors, one after the other. -/
def turnsFrom (machine : Machine) : Progress → List Actor → List Turn
  | _, [] => []
  | p, actor :: rest => ⟨p, actor⟩ :: turnsFrom machine (turn machine p actor) rest

/-- The actors that take part in a tick: those that are in the world, with their mail. -/
def starting (d : Director) (world : World) : List Actor :=
  present world (deliverAll d.actors d.mailbox).1

/-- The turns of a tick. The scripts post into an empty list. -/
def turns (d : Director) (world : World) : List Turn :=
  turnsFrom d.machine ⟨d.journal, { world with posted := #[] }, .empty, []⟩ (d.starting world)

private theorem turnsFrom_actors (machine : Machine) (p : Progress) (actors : List Actor) :
    (turnsFrom machine p actors).map Turn.actor = actors := by
  induction actors generalizing p with
  | nil => rfl
  | cons actor rest ih => rw [turnsFrom, List.map_cons, ih]

/-- Every turn of a tick is the turn of an actor that took part in it. -/
theorem turns_actors (d : Director) (world : World) :
    (d.turns world).map Turn.actor = d.starting world :=
  turnsFrom_actors ..

/-- The actors that a tick is done with are those behind their turns. -/
theorem foldl_turn_done (machine : Machine) (p : Progress) (actors : List Actor) :
    (actors.foldl (turn machine) p).done.reverse =
      p.done.reverse ++ (turnsFrom machine p actors).map (Turn.after machine) := by
  induction actors generalizing p with
  | nil => simp [turnsFrom]
  | cons actor rest ih =>
      have done := Turn.turn_done machine ⟨p, actor⟩
      dsimp only at done
      rw [List.foldl_cons, ih, done, turnsFrom, List.map_cons]
      simp

/-- **The actors behind a tick** are those whose entities are still there, as their turns left
them. -/
theorem tick_actors (d : Director) (world : World) :
    (d.tick world).2.1.actors =
      present (d.tick world).2.2 ((d.turns world).map (Turn.after d.machine)) := by
  have done := foldl_turn_done d.machine ⟨d.journal, { world with posted := #[] }, .empty, []⟩
    (d.starting world)
  exact congrArg (present _) done

end Director
end NpcScript
