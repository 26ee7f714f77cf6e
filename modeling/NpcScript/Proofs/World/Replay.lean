import NpcScript.Proofs.Builtin.Presence

/-! # Replaying a world from its events

A call of the world either leaves the table of entities alone and tells nothing,
or it records one event that tells which call it was
(`NpcScript.World.leaves_apply`). One event tells too little: that of a spawned
entity names the entity, but not where it was placed and which way it was turned.
With these placements the events of a run give its table back
(`NpcScript.World.exists_replay`); the events alone determine which entities there
are, and all about them except where those stand that have been spawned meanwhile,
and which way they turn (`NpcScript.World.entities_of_events`).
-/

namespace NpcScript

/-- The entity without its place in the plane and its turn. -/
def Entity.unplaced (e : Entity) : Entity := { e with x := 0, y := 0, turn := 0 }

namespace World

/-- Where a spawned entity is placed, and which way it turns. -/
structure Placement where
  x : Int32
  y : Int32
  turn : Int32
  deriving DecidableEq, Inhabited

/-- What may be asked of a world. -/
inductive Call where
  | clock
  | contains (h : Handle)
  | random
  | findNearest (origin : Handle) (criteria : Criteria)
  | attributeOf (h : Handle) (key : Attribute)
  | hasTag (h : Handle) (tag : Idsz) (place : TagPlace)
  | teamMembers (team : Int32)
  | applyDamage (target : Handle) (amount kind : Int32) (source : Handle)
  | heal (target : Handle) (amount : Int32) (source : Handle)
  | kill (target source : Handle)
  | teleport (h : Handle) (x y : Int32)
  | spawn (spawner : Handle) (x y turn : Int32)
  | remove (h : Handle)
  | post (target : Handle) (post : Post)
  | sendMessage (sender : Handle) (message : Int32) (nearbyOnly : Bool)
  | playSound (sender : Handle) (sound : Int32)
  | spawnParticle (sender : Handle) (particle x y : Int32)
  | setMovement (h : Handle) (movement : Movement)
  | doAction (h : Handle) (action : Int32)
  | give (target : Handle) (resource : Resource) (amount : Int32) (source : Handle)
  | joinTeam (h : Handle) (team : Int32)

/-- The world behind a call. A call that cannot be met leaves the world as it is. -/
def apply (world : World) : Call → World
  | .clock | .contains _ | .findNearest _ _ | .attributeOf _ _ | .hasTag _ _ _ | .teamMembers _ =>
      world
  | .random => world.drawn
  | .applyDamage target amount kind source =>
      (world.applyDamage target amount kind source).getD world
  | .heal target amount _ => (world.heal target amount).getD world
  | .kill target source => (world.kill target source).getD world
  | .teleport h x y => (world.teleport h x y).getD world
  | .spawn spawner x y turn => ((world.spawn spawner x y turn).map Prod.snd).getD world
  | .remove h => (world.remove h).getD world
  | .post target post => world.post target post
  | .sendMessage sender message nearbyOnly => world.sendMessage sender message nearbyOnly
  | .playSound sender sound => world.playSound sender sound
  | .spawnParticle sender particle x y => (world.spawnParticle sender particle x y).getD world
  | .setMovement h movement => (world.setMovement h movement).getD world
  | .doAction h action => (world.doAction h action).getD world
  | .give target resource amount _ => (world.give target resource amount).getD world
  | .joinTeam h team => (world.joinTeam h team).getD world

/-- The world behind a sequence of calls. -/
def after (world : World) (calls : List Call) : World := calls.foldl apply world

/-- The placement that a call gives to an entity, if it spawns one. -/
def placement? (world : World) : Call → Option Placement
  | .spawn spawner x y turn => if world.contains spawner then some ⟨x, y, turn⟩ else none
  | _ => none

/-- The placements of the entities that a sequence of calls spawns, in order. -/
def placements (world : World) : List Call → List Placement
  | [] => []
  | call :: calls => (world.placement? call).toList ++ (world.apply call).placements calls

end World

namespace WorldEvent

/-- Whether an entity has been spawned. -/
def isSpawn : WorldEvent → Bool
  | spawn _ _ => true
  | _ => false

/-- The call that an event tells of. Of a spawned entity it does not tell the placement. -/
def call (placement : World.Placement) : WorldEvent → World.Call
  | damage target amount kind source => .applyDamage target amount kind source
  | heal target amount => .heal target amount target
  | kill target source => .kill target source
  | teleport h x y => .teleport h x y
  | spawn spawner _ => .spawn spawner placement.x placement.y placement.turn
  | remove h => .remove h
  | message sender n nearbyOnly => .sendMessage sender n nearbyOnly
  | sound sender n => .playSound sender n
  | particle sender n x y => .spawnParticle sender n x y
  | move h movement => .setMovement h movement
  | action h n => .doAction h n
  | give target resource amount => .give target resource amount target
  | joinTeam h team => .joinTeam h team

private theorem call_of_not_isSpawn {event : WorldEvent} (other : event.isSpawn = false)
    (placement placement' : World.Placement) : event.call placement = event.call placement' := by
  cases event <;> first | rfl | cases other

end WorldEvent

namespace World

/-- The world behind the calls that a list of events tells of, with the placements of the spawned
entities. -/
def replay (world : World) : List WorldEvent → List Placement → World
  | [], _ => world
  | event :: events, placements =>
      (world.apply (event.call (placements.headD default))).replay events
        (if event.isSpawn then placements.tail else placements)

/-! ## What a call tells -/

/-- What a call leaves behind: nothing in the table and no event, or one event that tells of it. -/
inductive Leaves (world : World) (call : Call) : Prop where
  | silent (events : (world.apply call).events = world.events)
      (entities : (world.apply call).entities = world.entities)
      (placed : world.placement? call = none)
  | told (event : WorldEvent) (events : (world.apply call).events = world.events.push event)
      (placed : (world.placement? call).isSome = event.isSpawn)
      (again : world.apply (event.call ((world.placement? call).getD default)) = world.apply call)

variable {world changed other : World} {call : Call} {h : Handle}

private theorem events_change {f : Entity → Entity} {event : WorldEvent}
    (changes : changed ∈ world.change h f event) : changed.events = world.events.push event := by
  obtain ⟨e, _, rfl⟩ := Option.map_eq_some_iff.mp changes
  rfl

private theorem events_guarded {c : Bool} {event : WorldEvent} {written : World}
    (same : written.events = world.events)
    (changes : changed ∈ if c then some (written.record event) else none) :
    changed.events = world.events.push event := by
  cases c with
  | true =>
      cases changes
      rw [record, same]
  | false => cases changes

/-- A call that may be impossible, and that otherwise records an event that tells of it. -/
theorem leaves_attempt {attempted : Option World} {event : WorldEvent}
    (applies : world.apply call = attempted.getD world)
    (records : ∀ changed ∈ attempted, changed.events = world.events.push event)
    (placed : world.placement? call = none) (tells : event.isSpawn = false)
    (again : world.apply (event.call default) = world.apply call) : Leaves world call := by
  cases attempted with
  | none => exact .silent (by rw [applies]; rfl) (by rw [applies]; rfl) placed
  | some changed =>
      refine .told event ?_ ?_ ?_
      · rw [applies]
        exact records changed rfl
      · rw [placed, tells]
        rfl
      · rw [placed]
        exact again

/-- **What a call tells.** No call changes the table in silence, and what it records tells which
call it was. -/
theorem leaves_apply (world : World) (call : Call) : Leaves world call := by
  cases call with
  | clock | contains | random | findNearest | attributeOf | hasTag | teamMembers | post =>
      exact .silent rfl rfl rfl
  | applyDamage | heal | kill | teleport | setMovement | give | joinTeam =>
      exact leaves_attempt rfl (fun _ => events_change) rfl rfl rfl
  | remove | spawnParticle | doAction =>
      exact leaves_attempt rfl (fun _ => events_guarded rfl) rfl rfl rfl
  | sendMessage | playSound => exact .told _ rfl rfl rfl
  | spawn spawner x y turn =>
      -- The new entity takes its team from the spawner, so the event need not tell the team.
      cases found : world.entity? spawner with
      | none =>
          have gone : world.contains spawner = false := by rw [contains, found]; rfl
          have same : world.apply (.spawn spawner x y turn) = world := by
            simp [apply, spawn, found]
          exact .silent (by rw [same]) (by rw [same]) (by simp [placement?, gone])
      | some e =>
          have here : world.contains spawner = true := by rw [contains, found]; rfl
          refine .told (.spawn spawner (world.add e).1) ?_ ?_ ?_
          · simp only [apply, spawn, found]
            rfl
          · simp [placement?, here, WorldEvent.isSpawn]
          · simp [placement?, here, WorldEvent.call]

/-! ## Worlds with the same entities -/

/-- Two worlds with the same entities. They agree on all about the entities that `exact` holds of,
and may differ in where the others stand and which way they turn. -/
structure Alike (exact : Handle → Prop) (world other : World) : Prop where
  size : other.entities.size = world.entities.size
  unplaced : ∀ h, (other.entity? h).map Entity.unplaced = (world.entity? h).map Entity.unplaced
  same : ∀ h, exact h → other.entity? h = world.entity? h

variable {exact : Handle → Prop}

/-- A world is like itself. -/
theorem Alike.refl (world : World) : Alike exact world world :=
  ⟨rfl, fun _ => rfl, fun _ _ => rfl⟩

private theorem entity?_congr (entities : changed.entities = world.entities) (h : Handle) :
    changed.entity? h = world.entity? h := by
  rw [entity?, entity?, entities]

private theorem entity?_change (h k : Handle) (f : Entity → Entity) (event : WorldEvent) :
    ((world.change h f event).getD world).entity? k =
      if k = h then (world.entity? h).map f else world.entity? k := by
  cases found : world.entity? h with
  | none =>
      simp only [change, found, Option.map_none, Option.getD_none]
      split
      · rename_i same
        rw [same, found]
      · rfl
  | some e =>
      have here : world.contains h := by rw [contains, found]; rfl
      simp only [change, found, Option.map_some, Option.getD_some]
      change (world.put h (some (f e))).entity? k = _
      split
      · rename_i same
        rw [same, entity?_put_self here]
      · rename_i apart
        exact entity?_put_of_ne apart _

private theorem entity?_remove (h k : Handle) :
    ((world.remove h).getD world).entity? k = if k = h then none else world.entity? k := by
  unfold remove
  split
  · rename_i here
    change (world.put h none).entity? k = _
    split
    · rename_i same
      rw [same, entity?_put_self here]
    · rename_i apart
      exact entity?_put_of_ne apart _
  · rename_i gone
    split
    · rename_i same
      rw [same]
      exact Option.not_isSome_iff_eq_none.mp gone
    · rfl

private theorem entity?_add (e : Entity) (k : Handle) :
    (world.add e).2.entity? k =
      if k.index.toNat = world.entities.size then some e else world.entity? k := by
  unfold entity? add
  rw [Array.getElem?_push]
  split <;> rfl

private theorem size_change (h : Handle) (f : Entity → Entity) (event : WorldEvent) :
    ((world.change h f event).getD world).entities.size = world.entities.size := by
  unfold change
  cases world.entity? h with
  | none => rfl
  | some e => exact Array.size_setIfInBounds

private theorem size_remove (h : Handle) :
    ((world.remove h).getD world).entities.size = world.entities.size := by
  unfold remove
  split
  · exact Array.size_setIfInBounds
  · rfl

namespace Alike

variable (alike : Alike exact world other)

include alike

/-- What else belongs to a world has no part in it. -/
theorem congr {world' other' : World} (left : world'.entities = world.entities)
    (right : other'.entities = other.entities) : Alike exact world' other' where
  size := by rw [left, right, alike.size]
  unplaced h := by rw [entity?_congr left, entity?_congr right, alike.unplaced]
  same h exactly := by rw [entity?_congr left, entity?_congr right, alike.same h exactly]

/-- A change that does not look at where the entity stands. -/
theorem change {f : Entity → Entity}
    (blind : ∀ e : Entity, (f e.unplaced).unplaced = (f e).unplaced) (h : Handle)
    (event : WorldEvent) :
    Alike exact ((world.change h f event).getD world) ((other.change h f event).getD other) where
  size := by rw [size_change, size_change, alike.size]
  unplaced k := by
    have through (slot : Option Entity) : (slot.map f).map Entity.unplaced =
        ((slot.map Entity.unplaced).map f).map Entity.unplaced := by
      cases slot with
      | none => rfl
      | some e => exact congrArg some (blind e).symm
    rw [entity?_change, entity?_change]
    split
    · rw [through, alike.unplaced, ← through]
    · exact alike.unplaced k
  same k exactly := by
    rw [entity?_change, entity?_change]
    split
    · rename_i same
      rw [← same, alike.same k exactly]
    · exact alike.same k exactly

private theorem remove (h : Handle) :
    Alike exact ((world.remove h).getD world) ((other.remove h).getD other) where
  size := by rw [size_remove, size_remove, alike.size]
  unplaced k := by
    rw [entity?_remove, entity?_remove]
    split
    · rfl
    · exact alike.unplaced k
  same k exactly := by
    rw [entity?_remove, entity?_remove]
    split
    · rfl
    · exact alike.same k exactly

private theorem add (e e' : Entity) (unplaced : e'.unplaced = e.unplaced)
    (new : e' = e ∨ ∀ h, exact h → h.index.toNat < world.entities.size) :
    Alike exact (world.add e).2 (other.add e').2 where
  size := by simp [World.add, alike.size]
  unplaced k := by
    rw [entity?_add, entity?_add, alike.size]
    split
    · exact congrArg some unplaced
    · exact alike.unplaced k
  same k exactly := by
    rw [entity?_add, entity?_add, alike.size]
    split
    · rename_i last
      rcases new with rfl | old
      · rfl
      · exact absurd last (Nat.ne_of_lt (old k exactly))
    · exact alike.same k exactly

/-- The one call that an event may tell of in two ways. -/
theorem spawn (spawner : Handle) {placement placement' : Placement}
    (new : placement' = placement ∨ ∀ h, exact h → h.index.toNat < world.entities.size) :
    Alike exact
      (world.apply (.spawn spawner placement.x placement.y placement.turn))
      (other.apply (.spawn spawner placement'.x placement'.y placement'.turn)) := by
  have slots := alike.unplaced spawner
  simp only [World.apply, World.spawn]
  cases found : world.entity? spawner with
  | none =>
      have missing : other.entity? spawner = none := by simpa [found] using slots
      rw [missing]
      exact alike
  | some e =>
      rw [found] at slots
      obtain ⟨e', found', same⟩ := Option.map_eq_some_iff.mp slots
      have team : e'.unplaced.team = e.unplaced.team := congrArg Entity.team same
      change e'.team = e.team at team
      rw [found']
      refine congr (alike.add
        { Entity.placed placement.x placement.y with team := e.team, turn := placement.turn }
        { Entity.placed placement'.x placement'.y with team := e'.team, turn := placement'.turn }
        ?_ ?_) rfl rfl
      · rw [team]
        rfl
      · exact new.imp_left fun equal => by rw [equal, team]

/-- **One event.** Worlds with the same entities still have the same entities behind the calls that
an event tells of. -/
theorem apply_call (event : WorldEvent) {placement placement' : Placement}
    (new : placement' = placement ∨ ∀ h, exact h → h.index.toNat < world.entities.size) :
    Alike exact (world.apply (event.call placement)) (other.apply (event.call placement')) := by
  cases event with
  | damage | heal | kill | teleport | move | joinTeam =>
      exact alike.change (fun _ => rfl) _ _
  | give target resource amount =>
      refine alike.change (fun _ => ?_) _ _
      cases resource <;> rfl
  | spawn spawner child => exact alike.spawn spawner new
  | remove h => exact alike.remove h
  | message | sound => exact alike.congr rfl rfl
  | particle | action =>
      refine alike.congr ?_ ?_ <;> simp only [WorldEvent.call, apply, spawnParticle, doAction] <;>
        split <;> rfl

end Alike

/-! ## Replaying -/

private theorem size_le_apply (world : World) (call : Call) :
    world.entities.size ≤ (world.apply call).entities.size := by
  cases call with
  | clock | contains | random | findNearest | attributeOf | hasTag | teamMembers | post |
      sendMessage | playSound => exact Nat.le_refl _
  | applyDamage | heal | kill | teleport | setMovement | give | joinTeam =>
      exact Nat.le_of_eq (size_change ..).symm
  | remove h => exact Nat.le_of_eq (size_remove h).symm
  | spawnParticle | doAction =>
      simp only [apply, spawnParticle, doAction]
      split <;> exact Nat.le_refl _
  | spawn spawner x y turn =>
      simp only [apply, spawn]
      cases world.entity? spawner with
      | none => exact Nat.le_refl _
      | some e =>
          change _ ≤ (world.entities.push _).size
          rw [Array.size_push]
          exact Nat.le_succ _

/-- Worlds with the same entities still have the same entities behind the same events. -/
theorem Alike.replay (alike : Alike exact world other) (events : List WorldEvent)
    {placements placements' : List Placement}
    (new : placements' = placements ∨ ∀ h, exact h → h.index.toNat < world.entities.size) :
    Alike exact (world.replay events placements) (other.replay events placements') := by
  induction events generalizing world other placements placements' with
  | nil => exact alike
  | cons event events ih =>
      unfold World.replay
      apply ih
      · exact alike.apply_call event (new.imp_left fun equal => by rw [equal])
      · refine new.imp (fun equal => by rw [equal]) fun old h exactly => ?_
        exact Nat.lt_of_lt_of_le (old h exactly) (size_le_apply world _)

/-- **Replaying a run.** The events that a sequence of calls records, with the placements of the
entities that it spawns, give back the entities that it leaves. -/
theorem exists_replay {start : World} (alike : Alike exact world start) (calls : List Call) :
    ∃ events : List WorldEvent, (world.after calls).events.toList = world.events.toList ++ events ∧
      Alike exact (world.after calls) (start.replay events (world.placements calls)) := by
  -- Along the calls the replayed world lags behind at the silent ones, which leave the table alone,
  -- and follows at the others, by the call that their event tells of.
  induction calls generalizing world start with
  | nil => exact ⟨[], (List.append_nil _).symm, alike⟩
  | cons call calls ih =>
      change ∃ events, ((world.apply call).after calls).events.toList = _ ∧
        Alike exact ((world.apply call).after calls) _
      rw [placements]
      cases world.leaves_apply call with
      | silent same entities placed =>
          obtain ⟨events, recorded, replayed⟩ := ih (alike.congr entities rfl)
          rw [placed]
          exact ⟨events, by rw [recorded, same], replayed⟩
      | told event pushed placed again =>
          have next : Alike exact
              (world.apply (event.call ((world.placement? call).getD default)))
              (start.apply (event.call ((world.placement? call).getD default))) :=
            alike.apply_call event (.inl rfl)
          rw [again] at next
          obtain ⟨events, recorded, replayed⟩ := ih next
          refine ⟨event :: events, by rw [recorded, pushed]; simp, ?_⟩
          unfold replay
          cases spawned : world.placement? call with
          | some placement =>
              have tells : event.isSpawn = true := by rw [← placed, spawned]; rfl
              rw [spawned] at replayed
              simpa [tells] using replayed
          | none =>
              have tells : event.isSpawn = false := by rw [← placed, spawned]; rfl
              rw [spawned, event.call_of_not_isSpawn tells _
                (((world.apply call).placements calls).headD default)] at replayed
              simpa [tells] using replayed

/-- **What the events determine.** Two runs from one world that record the same events leave the
same entities, which agree in all but where they stand and which way they turn. They agree in that
as well if they were in the world from the start, or if both runs have placed the entities that
they spawned alike. -/
theorem entities_of_events (world : World) (calls calls' : List Call)
    (same : (world.after calls').events = (world.after calls).events) :
    (∀ h, ((world.after calls').entity? h).map Entity.unplaced =
      ((world.after calls).entity? h).map Entity.unplaced) ∧
    (∀ h, h.index.toNat < world.entities.size →
      (world.after calls').entity? h = (world.after calls).entity? h) ∧
    (world.placements calls' = world.placements calls →
      ∀ h, (world.after calls').entity? h = (world.after calls).entity? h) := by
  -- Both runs are replayed from one list of events, each with its own placements.
  have start : Alike (fun _ => True) world world := .refl world
  obtain ⟨events, recorded, replayed⟩ := exists_replay start calls
  obtain ⟨events', recorded', replayed'⟩ := exists_replay start calls'
  rw [same, recorded] at recorded'
  cases List.append_cancel_left recorded'
  have left h := replayed.same h trivial
  have right h := replayed'.same h trivial
  have between : Alike (fun h => h.index.toNat < world.entities.size)
      (world.replay events (world.placements calls))
      (world.replay events (world.placements calls')) :=
    (Alike.refl world).replay events (.inr fun _ inside => inside)
  refine ⟨fun h => ?_, fun h old => ?_, fun placed h => ?_⟩
  · rw [← left, ← right, between.unplaced]
  · rw [← left, ← right, between.same h old]
  · rw [← left, ← right, placed]

/-- The world of one entity. -/
def soloWorld : World := (World.empty.add (.placed 0 0)).2

/-- A run that spawns an entity, moves it away and hurts it. -/
def plainRun : List Call :=
  [.spawn ⟨0⟩ 5 7 90, .teleport ⟨1⟩ 2 2, .applyDamage ⟨1⟩ 30 0 ⟨0⟩]

/-- A run that spawns the entity elsewhere, and that does some more things that leave no trace. -/
def busyRun : List Call :=
  [.random, .spawn ⟨0⟩ 1 2 3, .kill ⟨9⟩ ⟨0⟩, .teleport ⟨1⟩ 2 2,
    .post ⟨0⟩ ⟨.bored, none, none⟩, .applyDamage ⟨1⟩ 30 0 ⟨0⟩]

/-- Both runs record the same events, so the entities differ at most in where the spawned one
stands. -/
theorem entities_of_events_busy :
    (soloWorld.after busyRun).events = (soloWorld.after plainRun).events ∧
      ((soloWorld.after busyRun).entity? ⟨1⟩).map Entity.unplaced =
        ((soloWorld.after plainRun).entity? ⟨1⟩).map Entity.unplaced ∧
      (soloWorld.after busyRun).entity? ⟨0⟩ = (soloWorld.after plainRun).entity? ⟨0⟩ :=
  have same : (soloWorld.after busyRun).events = (soloWorld.after plainRun).events := rfl
  have determined := entities_of_events soloWorld plainRun busyRun same
  ⟨same, determined.1 ⟨1⟩, determined.2.1 ⟨0⟩ (by decide)⟩

/-- The events do not tell where a spawned entity stands. -/
theorem placement_untold :
    (soloWorld.after [.spawn ⟨0⟩ 5 7 90]).events = (soloWorld.after [.spawn ⟨0⟩ 1 2 3]).events ∧
      (soloWorld.after [.spawn ⟨0⟩ 5 7 90]).entity? ⟨1⟩ ≠
        (soloWorld.after [.spawn ⟨0⟩ 1 2 3]).entity? ⟨1⟩ :=
  ⟨rfl, by decide⟩

end World
end NpcScript
