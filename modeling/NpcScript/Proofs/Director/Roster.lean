import Mathlib.Data.List.Nodup
import NpcScript.Proofs.Director.History
import NpcScript.Proofs.Director.Presence
import NpcScript.Proofs.Machine.Rested

/-! # Who is on the roster

No entity is twice among the actors of a director, and the actors stand in the
order in which they were spawned: spawning an actor again leaves it where it is,
all other operations only take actors away, and no two actors are spawned by one
operation. Between the operations every mind rests. A tick drops exactly those
actors that it reports as removed, so all that it leaves are in the world
(`NpcScript.Simulation.Stage.after_roster`).
-/

namespace NpcScript

namespace Director

/-! ## Spawning and despawning -/

private theorem map_entity_update? {h : Handle} {f : Actor → Actor}
    (keeps : ∀ actor, (f actor).entity = h) {actors updated : List Actor}
    (changed : update? h f actors = some updated) :
    updated.map Actor.entity = actors.map Actor.entity := by
  induction actors generalizing updated with
  | nil => cases changed
  | cons actor rest ih =>
      rw [update?] at changed
      split at changed
      · rename_i mine
        cases changed
        rw [List.map_cons, List.map_cons, keeps, mine]
      · obtain ⟨rest', changedRest, rfl⟩ := Option.map_eq_some_iff.mp changed
        rw [List.map_cons, List.map_cons, ih changedRest]

private theorem mem_update? {h : Handle} {f : Actor → Actor} {actors updated : List Actor}
    {actor : Actor} (changed : update? h f actors = some updated) (member : actor ∈ updated) :
    actor ∈ actors ∨ ∃ before ∈ actors, actor = f before := by
  induction actors generalizing updated with
  | nil => cases changed
  | cons first rest ih =>
      rw [update?] at changed
      split at changed
      · cases changed
        rcases List.mem_cons.mp member with rfl | later
        · exact .inr ⟨first, by simp, rfl⟩
        · exact .inl (List.mem_cons_of_mem _ later)
      · obtain ⟨rest', changedRest, rfl⟩ := Option.map_eq_some_iff.mp changed
        rcases List.mem_cons.mp member with rfl | later
        · exact .inl (by simp)
        · rcases ih changedRest later with inside | ⟨before, inside, rfl⟩
          · exact .inl (List.mem_cons_of_mem _ inside)
          · exact .inr ⟨before, List.mem_cons_of_mem _ inside, rfl⟩

/-- Only an entity that nobody acts for is not updated. -/
theorem update?_eq_none_iff {h : Handle} {f : Actor → Actor} {actors : List Actor} :
    update? h f actors = none ↔ h ∉ actors.map Actor.entity := by
  rw [← Option.not_isSome_iff_eq_none, isSome_update?, List.any_eq_true, List.mem_map]
  simp

/-- Spawning leaves the roster as it is, or puts a new entity behind it. -/
theorem roster_spawn (d : Director) (h : Handle) (script : Script) :
    (d.spawn h script).roster = if h ∈ d.roster then d.roster else d.roster ++ [h] := by
  unfold spawn roster
  dsimp only
  cases changed : update? h (fun _ => ⟨Mind.spawned h, script⟩) d.actors with
  | none =>
      rw [if_neg (update?_eq_none_iff.mp changed), List.map_append]
      rfl
  | some updated =>
      have member : h ∈ d.actors.map Actor.entity := by
        by_contra absent
        rw [update?_eq_none_iff.mpr absent] at changed
        cases changed
      rw [if_pos member]
      have keeps (_ : Actor) : (⟨Mind.spawned h, script⟩ : Actor).entity = h := rfl
      exact map_entity_update? keeps changed

/-- Whoever acts behind a spawn has acted before or is the one that is spawned. -/
theorem mem_spawn {d : Director} {h : Handle} {script : Script} {actor : Actor}
    (member : actor ∈ (d.spawn h script).actors) :
    actor ∈ d.actors ∨ actor = ⟨Mind.spawned h, script⟩ := by
  unfold spawn at member
  dsimp only at member
  split at member
  · rename_i changed
    rcases mem_update? changed member with inside | ⟨before, _, rfl⟩
    · exact .inl inside
    · exact .inr rfl
  · exact (List.mem_append.mp member).imp_right List.mem_singleton.mp

private theorem roster_despawn (d : Director) (h : Handle) :
    (d.despawn h).2.roster.Sublist d.roster :=
  List.eraseP_sublist.map _

/-! ## The roster behind a tick -/

/-- An actor has the entity behind its turn that it has before. -/
theorem Turn.after_entity (machine : Machine) (t : Turn) :
    (t.after machine).entity = t.actor.entity := by
  unfold after
  split
  · exact machine.run_entity t.actor.script t.start
  · rfl

private theorem map_entity_present (world : World) (actors : List Actor) :
    (present world actors).map Actor.entity = (actors.map Actor.entity).filter world.contains := by
  rw [List.filter_map]
  rfl

private theorem map_entity_received (mailbox : List (Handle × Post)) (actors : List Actor) :
    (received mailbox actors).map Actor.entity = actors.map Actor.entity := by
  have roles := congrArg (List.map Prod.fst) (map_role_received mailbox actors)
  rw [List.map_map, List.map_map] at roles
  exact roles

private theorem length_received (mailbox : List (Handle × Post)) (actors : List Actor) :
    (received mailbox actors).length = actors.length := by
  rw [← List.length_map Actor.entity, map_entity_received, List.length_map]

private theorem length_turns (d : Director) (world : World) :
    (d.turns world).length = (d.starting world).length := by
  rw [← turns_actors, List.length_map]

/-- An actor that is there behind a tick has had a turn in it. -/
theorem exists_turn_of_mem {d : Director} {world : World} {actor : Actor}
    (member : actor ∈ (d.tick world).2.1.actors) :
    ∃ t : Turn, t.actor ∈ d.starting world ∧ t.after d.machine = actor := by
  rw [tick_actors] at member
  obtain ⟨t, taken, after⟩ := List.mem_map.mp (List.mem_filter.mp member).1
  refine ⟨t, ?_, after⟩
  rw [← turns_actors]
  exact List.mem_map_of_mem taken

/-- A tick leaves those who are in the world both at its start and at its end. -/
theorem roster_tick (d : Director) (world : World) :
    (d.tick world).2.1.roster =
      (d.roster.filter world.contains).filter (d.tick world).2.2.contains := by
  have turns : (d.turns world).map (Actor.entity ∘ Turn.after d.machine) =
      (d.turns world).map (Actor.entity ∘ Turn.actor) :=
    List.map_congr_left fun t _ => t.after_entity d.machine
  rw [roster, tick_actors, map_entity_present, List.map_map, turns, ← List.map_map, turns_actors,
    starting_eq, map_entity_present, map_entity_received]
  rfl

/-- A tick counts the actors that it drops. -/
theorem length_tick (d : Director) (world : World) :
    d.actors.length = (d.tick world).2.1.actors.length + (d.tick world).1.removed := by
  have received : (deliverAll d.actors d.mailbox).1.length = d.actors.length := by
    rw [deliverAll_eq]
    exact length_received _ _
  have starting : (d.starting world).length ≤ (deliverAll d.actors d.mailbox).1.length :=
    List.length_filter_le _ _
  have turns := d.length_turns world
  have remaining : (d.tick world).2.1.actors.length ≤ (d.turns world).length := by
    rw [tick_actors]
    exact Nat.le_trans (List.length_filter_le _ _) (Nat.le_of_eq (List.length_map _))
  have removed : (d.tick world).1.removed =
      ((deliverAll d.actors d.mailbox).1.length - (d.starting world).length) +
        ((d.turns world).length - (d.tick world).2.1.actors.length) := by
    have ran := congrArg List.length (foldl_turn_done d.machine
      ⟨d.journal, { world with posted := #[] }, .empty, []⟩ (d.starting world))
    rw [List.reverse_nil, List.nil_append, List.length_map] at ran
    change _ = (d.turns world).length at ran
    rw [← ran]
    rfl
  omega

/-- A tick runs no more scripts than there are actors. -/
theorem ran_tick_le (d : Director) (world : World) :
    (d.tick world).1.ran ≤ d.actors.length := by
  calc (d.tick world).1.ran = (d.turns world).countP Turn.runs := d.ran_tick world
    _ ≤ (d.turns world).length := List.countP_le_length
    _ = (present world (received d.mailbox d.actors)).length := by rw [length_turns, starting_eq]
    _ ≤ (received d.mailbox d.actors).length := List.length_filter_le _ _
    _ = d.actors.length := length_received _ _

/-! ## Minds rest -/

private theorem deliver_rested {mind : Mind} (rested : mind.Rested) (post : Post) :
    (mind.deliver post).Rested := by
  obtain ⟨counter, phase, waypoints⟩ := rested
  have fewer : mind.waypoints.tail.length ≤ Mind.maxWaypoints := by
    rw [List.length_tail]
    omega
  unfold Mind.deliver
  dsimp only
  split <;> first | exact ⟨counter, phase, waypoints⟩ | exact ⟨counter, phase, fewer⟩

private theorem foldl_deliver_rested (posts : List Post) {mind : Mind} (rested : mind.Rested) :
    (posts.foldl Mind.deliver mind).Rested := by
  induction posts generalizing mind with
  | nil => exact rested
  | cons post posts ih => exact ih (deliver_rested rested post)

private theorem rested_received {actors : List Actor} (rested : ∀ actor ∈ actors, actor.mind.Rested)
    (mailbox : List (Handle × Post)) : ∀ actor ∈ received mailbox actors, actor.mind.Rested := by
  induction actors generalizing mailbox with
  | nil => simp [received]
  | cons first rest ih =>
      intro actor member
      rw [received] at member
      rcases List.mem_cons.mp member with rfl | later
      · exact foldl_deliver_rested _ (rested first (by simp))
      · exact ih (fun other inside => rested other (List.mem_cons_of_mem _ inside)) _ actor later

private theorem Turn.after_rested (machine : Machine) (t : Turn) (rested : t.actor.mind.Rested) :
    (t.after machine).mind.Rested := by
  unfold after
  split
  · have left := machine.run_rested t.actor.script t.start rested.waypoints
    exact ⟨left.counter, left.phase, left.waypoints⟩
  · exact rested

private theorem rested_tick {d : Director} (rested : ∀ actor ∈ d.actors, actor.mind.Rested)
    (world : World) : ∀ actor ∈ (d.tick world).2.1.actors, actor.mind.Rested := by
  intro actor member
  obtain ⟨t, starts, rfl⟩ := exists_turn_of_mem member
  rw [starting_eq] at starts
  exact t.after_rested d.machine
    (rested_received rested d.mailbox t.actor (List.mem_filter.mp starts).1)

end Director

namespace Simulation.Stage

variable {start : Stage} {history : List Operation} {h : Handle} {k : Nat}

/-- An operation spawns an entity behind the others on the roster, or it adds nobody. -/
theorem roster_apply (stage : Stage) (op : Operation) :
    (∃ h, (∃ script, op = .spawn h script) ∧ h ∉ stage.director.roster ∧
        (stage.apply op).director.roster = stage.director.roster ++ [h]) ∨
      (stage.apply op).director.roster.Sublist stage.director.roster := by
  cases op with
  | spawn h script =>
      have spawned := stage.director.roster_spawn h script
      by_cases member : h ∈ stage.director.roster
      · rw [if_pos member] at spawned
        right
        rw [apply, spawned]
      · rw [if_neg member] at spawned
        exact .inl ⟨h, ⟨script, rfl⟩, member, spawned⟩
  | despawn h => exact .inr (stage.director.roster_despawn h)
  | post h post => exact .inr (List.Sublist.refl _)
  | tick =>
      right
      rw [apply, Director.roster_tick]
      exact List.filter_sublist.trans List.filter_sublist
  | change world => exact .inr (List.Sublist.refl _)

/-- Nobody gets on the roster twice. -/
theorem nodup_roster (vacant : start.director.roster = []) (history : List Operation) :
    (start.after history).director.roster.Nodup := by
  induction history using List.reverseRecOn with
  | nil =>
      rw [after_nil, vacant]
      exact List.nodup_nil
  | append_singleton history op ih =>
      rw [after_snoc]
      rcases roster_apply (start.after history) op with ⟨h, _, absent, added⟩ | fewer
      · rw [added]
        rw [← List.concat_eq_append]
        exact (List.nodup_concat _ h).mpr ⟨absent, ih⟩
      · exact ih.sublist fewer

/-- Every actor was spawned at some time, and the roster stands in the order of these times. -/
theorem roster_ordered (vacant : start.director.roster = []) (history : List Operation) :
    (∀ h ∈ (start.after history).director.roster, ∃ k, start.FirstSpawn history h k) ∧
      (start.after history).director.roster.Pairwise fun a b =>
        ∀ i j, start.FirstSpawn history a i → start.FirstSpawn history b j → i < j := by
  induction history using List.reverseRecOn with
  | nil => simp [vacant]
  | append_singleton history op ih =>
      obtain ⟨spawned, ordered⟩ := ih
      -- Those who were on the roster before keep their times, and so their order.
      have known : ∀ h ∈ (start.after history).director.roster,
          h ∈ ((start.after history).apply op).director.roster →
            ∃ k, start.FirstSpawn (history ++ [op]) h k := fun h was stays => by
        obtain ⟨k, first⟩ := spawned h was
        exact ⟨k, first.snoc stays⟩
      have before : (start.after history).director.roster.Pairwise fun a b =>
          ∀ i j, start.FirstSpawn (history ++ [op]) a i →
            start.FirstSpawn (history ++ [op]) b j → i < j :=
        ordered.imp_of_mem fun left right earlier i j first second =>
          earlier i j (first.of_snoc left) (second.of_snoc right)
      rw [after_snoc]
      rcases roster_apply (start.after history) op with ⟨h, called, absent, added⟩ | fewer
      · have newcomer : start.FirstSpawn (history ++ [op]) h history.length :=
          .newcomer called absent (by rw [added]; simp)
        rw [added]
        constructor
        · intro other member
          rcases List.mem_append.mp member with was | last
          · exact known other was (by rw [added]; exact member)
          · rw [List.mem_singleton.mp last]
            exact ⟨_, newcomer⟩
        · refine List.pairwise_append.mpr ⟨before, List.pairwise_singleton _ _, ?_⟩
          intro a was b last i j first second
          rw [List.mem_singleton.mp last] at second
          have early := (first.of_snoc was).lt
          have late := second.le_of_absent absent
          omega
      · constructor
        · intro other member
          exact known other (fewer.subset member) member
        · exact before.sublist fewer

private theorem rested_after (history : List Operation)
    (rested : ∀ actor ∈ start.director.actors, actor.mind.Rested) :
    ∀ actor ∈ (start.after history).director.actors, actor.mind.Rested := by
  induction history generalizing start with
  | nil => exact rested
  | cons op history ih =>
      rw [after_cons]
      apply ih
      cases op with
      | spawn h script =>
          intro actor member
          rcases Director.mem_spawn member with was | rfl
          · exact rested actor was
          · exact .spawned h
      | despawn h =>
          intro actor member
          exact rested actor (List.eraseP_sublist.subset member)
      | post h post => exact rested
      | tick => exact Director.rested_tick rested start.world
      | change world => exact rested

/-- **Who is on the roster.** Behind every history of a director that began without actors, no
entity is twice among the actors, they stand in the order in which they were first spawned since
they were last removed, and their minds rest. The tick that comes next reports all that it drops,
runs no more scripts than there are actors, and leaves only actors that are in the world. -/
theorem after_roster (machine : Machine) (journal : Journal) (world : World)
    (history : List Operation) :
    let start := vacant machine journal world
    let stage := start.after history
    let ticked := stage.director.tick stage.world
    stage.director.roster.Nodup ∧
      (∀ h ∈ stage.director.roster, ∃ k, start.FirstSpawn history h k) ∧
      (stage.director.roster.Pairwise fun a b =>
        ∀ i j, start.FirstSpawn history a i → start.FirstSpawn history b j → i < j) ∧
      (∀ actor ∈ stage.director.actors, actor.mind.counter = 0 ∧ actor.mind.phase ≠ .running ∧
        actor.mind.waypoints.length ≤ Mind.maxWaypoints) ∧
      stage.director.actors.length = ticked.2.1.actors.length + ticked.1.removed ∧
      ticked.1.ran ≤ stage.director.actors.length ∧
      ∀ actor ∈ ticked.2.1.actors, ticked.2.2.contains actor.entity := by
  intro start stage ticked
  obtain ⟨spawned, ordered⟩ := roster_ordered (vacant_roster machine journal world) history
  refine ⟨nodup_roster rfl history, spawned, ordered, ?_, stage.director.length_tick stage.world,
    stage.director.ran_tick_le stage.world, ?_⟩
  · intro actor member
    have begun : ∀ actor ∈ start.director.actors, actor.mind.Rested := by simp [start, vacant]
    have rested := rested_after history begun actor member
    exact ⟨rested.counter, rested.phase, rested.waypoints⟩
  · intro actor member
    have remaining := Director.tick_actors stage.director stage.world
    rw [remaining] at member
    exact (List.mem_filter.mp member).2

end Simulation.Stage
end NpcScript
