import NpcScript.Machine

/-!
# The director

The director runs the script of every entity once in each tick, in the order in which the entities
were spawned. An alert that a script raises on another entity goes into a mailbox, which is emptied
at the beginning of the next tick, so no script sees within a tick what another one has sent it.
-/

namespace NpcScript

/-- An entity with the script that it runs. -/
structure Actor where
  mind : Mind
  script : Script
  deriving Inhabited

/-- The entity that an actor is. -/
def Actor.entity (actor : Actor) : Handle := actor.mind.entity

/-- What happened in a tick. -/
structure TickReport where
  completed : Nat
  halted : Nat
  suspended : Nat
  /-- How many alerts from the mailbox reached an actor. -/
  delivered : Nat
  /-- How many actors were dropped because their entity is gone. -/
  removed : Nat
  deriving DecidableEq, Inhabited

namespace TickReport

/-- Nothing has happened yet. -/
def empty : TickReport := ⟨0, 0, 0, 0, 0⟩

/-- How many scripts have been run. -/
def ran (report : TickReport) : Nat := report.completed + report.halted + report.suspended

/-- Counts a run. -/
def count (report : TickReport) : Outcome → TickReport
  | .completed => { report with completed := report.completed + 1 }
  | .halted => { report with halted := report.halted + 1 }
  | .suspended => { report with suspended := report.suspended + 1 }

end TickReport

/-- The actors and the alerts that wait for them. -/
structure Director where
  machine : Machine
  journal : Journal
  /-- The actors, in the order in which they were spawned. -/
  actors : List Actor
  /-- The alerts to be delivered at the beginning of the next tick. -/
  mailbox : List (Handle × Post)
  deriving Inhabited

namespace Director

/-- No actors. -/
def empty (machine : Machine) : Director := ⟨machine, .empty, [], []⟩

/-- Changes the first actor that is the given entity; gives nothing if there is none. -/
def update? (h : Handle) (f : Actor → Actor) : List Actor → Option (List Actor)
  | [] => none
  | actor :: rest =>
      if actor.entity = h then some (f actor :: rest)
      else (update? h f rest).map (actor :: ·)

/-- The mind of an actor. -/
def mind? (d : Director) (h : Handle) : Option Mind :=
  (d.actors.find? (·.entity = h)).map (·.mind)

/-- Changes the mind of an actor, if there is one. -/
def updateMind (d : Director) (h : Handle) (f : Mind → Mind) : Director :=
  match update? h (fun actor => { actor with mind := f actor.mind }) d.actors with
  | some actors => { d with actors := actors }
  | none => d

/-- Begins to run a script for an entity. An actor that the entity already is starts anew in its
place. -/
def spawn (d : Director) (h : Handle) (script : Script) : Director :=
  let actor : Actor := ⟨Mind.spawned h, script⟩
  match update? h (fun _ => actor) d.actors with
  | some actors => { d with actors := actors }
  | none => { d with actors := d.actors ++ [actor] }

/-- Drops an actor and the alerts that wait for it, and tells whether there was one. -/
def despawn (d : Director) (h : Handle) : Bool × Director :=
  (d.actors.any (·.entity = h),
    { d with
      mailbox := d.mailbox.filter (·.1 ≠ h)
      actors := d.actors.eraseP (·.entity = h) })

/-- Puts an alert into the mailbox. -/
def postAlert (d : Director) (h : Handle) (post : Post) : Director :=
  { d with mailbox := d.mailbox ++ [(h, post)] }

/-- Delivers one alert, and counts it among those before if it reaches an actor. -/
def deliverNext (state : List Actor × Nat) (post : Handle × Post) : List Actor × Nat :=
  match update? post.1 (fun actor => { actor with mind := actor.mind.deliver post.2 }) state.1 with
  | some actors => (actors, state.2 + 1)
  | none => state

/-- Delivers the alerts of the mailbox in order, and counts those that reach an actor. -/
def deliverAll (actors : List Actor) (mailbox : List (Handle × Post)) : List Actor × Nat :=
  mailbox.foldl deliverNext (actors, 0)

/-- The actors whose entities are in the world. -/
def present (world : World) (actors : List Actor) : List Actor :=
  actors.filter fun actor => world.contains actor.entity

/-- What a tick has done so far. -/
structure Progress where
  journal : Journal
  world : World
  report : TickReport
  /-- The actors whose turn is over, the last first. -/
  done : List Actor
  deriving Inhabited

/-- Gives an actor its turn. Afterwards the alerts that were pending at its start are gone, except
those that the script raised again. An actor whose entity is gone takes no turn. -/
def turn (machine : Machine) (p : Progress) (actor : Actor) : Progress :=
  if p.world.contains actor.entity then
    let observed := actor.mind.alerts
    let mind := { actor.mind with raised := Alerts.empty }
    let (outcome, s) := machine.run actor.script ⟨p.journal, mind, p.world⟩
    let mind := { s.mind with alerts := s.mind.alerts.diff (s.mind.consumedAlerts observed) }
    { journal := s.journal
      world := s.world
      report := p.report.count outcome
      done := { actor with mind := mind } :: p.done }
  else
    { p with done := actor :: p.done }

/-- Runs every actor once. What the scripts post goes into the mailbox; what was posted to the world
before stays there. -/
def tick (d : Director) (world : World) : TickReport × Director × World :=
  let (actors, delivered) := deliverAll d.actors d.mailbox
  let starting := present world actors
  let p := starting.foldl (turn d.machine)
    ⟨d.journal, { world with posted := #[] }, .empty, []⟩
  let ran := p.done.reverse
  let remaining := present p.world ran
  let removed := (actors.length - starting.length) + (ran.length - remaining.length)
  ({ p.report with delivered := delivered, removed := removed },
    { d with journal := p.journal, actors := remaining, mailbox := p.world.posted.toList },
    { p.world with posted := world.posted })

end Director
end NpcScript
