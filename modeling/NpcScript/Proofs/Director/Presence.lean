import NpcScript.Proofs.Builtin.Presence
import NpcScript.Proofs.Director.Mail

/-! # No instruction for an entity that is gone

A script runs only while its entity is in the world. The director asks before
each turn, and an operation that removes the entity of the script ends the run,
so every instruction finds its entity there. Each actor that is in the world when
the tick begins has one turn, in the order of the actors, and the script is run
in it exactly if the entity is still there (`NpcScript.Director.tick_present`).
-/

namespace NpcScript

namespace RunState

variable {machine : Machine} {script : Script} {s next : RunState} {word : UInt32}

/-- A step aside keeps the entity of the mind. -/
theorem Aside.entity (aside : Aside s next) : next.mind.entity = s.mind.entity := by
  obtain ⟨_, _, mind⟩ := aside.mind
  rw [mind]
  rfl

/-- A step aside keeps who is in the world. -/
theorem Aside.contains (aside : Aside s next) (h : Handle) :
    next.world.contains h = s.world.contains h := by
  obtain ⟨_, world⟩ := aside.world
  rw [world]
  rfl

/-- Where a run goes on behind an operation, the operation has not ended it. -/
theorem signal_ne_halt {d : Dispatch} (dispatched : s.dispatched? word = some d)
    (ongoing : s.step machine script word = (false, next)) : d.reply.signal ≠ .halt := by
  unfold dispatched? at dispatched
  unfold step at ongoing
  cases decoded : Instruction.decode word with
  | error cause => simp [decoded] at dispatched
  | ok instruction =>
      rw [decoded] at dispatched ongoing
      cases instruction with
      | call index label =>
          obtain ⟨b, known, rfl⟩ := Option.map_eq_some_iff.mp dispatched
          simp only [execute, known] at ongoing
          intro halts
          change (b.perform s.mind s.world).signal = .halt at halts
          simp only [dispatch, follow, halts, Prod.mk.injEq, Bool.true_eq_false, false_and]
            at ongoing
      | jump label | assign slot terms | term op operand => cases dispatched

/-- **One instruction.** If the run goes on behind it, the entity is still there. -/
theorem present_step (here : s.world.contains s.mind.entity)
    (ongoing : s.step machine script word = (false, next)) :
    next.mind.entity = s.mind.entity ∧ next.world.contains s.mind.entity := by
  cases dispatched : s.dispatched? word with
  | none =>
      have aside := step_of_none machine script dispatched
      rw [ongoing] at aside
      exact ⟨aside.entity, (aside.contains _).trans here⟩
  | some d =>
      obtain ⟨mind, world, after, afterMind, afterWorld, _, aside⟩ :=
        step_of_some machine script dispatched
      rw [ongoing] at aside
      rw [← mind, ← world] at here
      have stays : d.reply.world.contains d.mind.entity :=
        Builtin.perform_contains_self d.builtin here (signal_ne_halt dispatched ongoing)
      have entity : d.reply.mind.entity = d.mind.entity := Builtin.perform_entity d.builtin
      rw [← mind]
      constructor
      · rw [aside.entity, afterMind, entity]
      · rw [aside.contains, afterWorld]
        exact stays

end RunState

/-- Wherever a run gets to, the entity that it runs for is still in the world. -/
theorem Machine.Reaches.present {machine : Machine} {script : Script} {n : Nat} {s s' : RunState}
    (reaches : machine.Reaches script n s s') (here : s.world.contains s.mind.entity) :
    s'.mind.entity = s.mind.entity ∧ s'.world.contains s.mind.entity := by
  induction reaches with
  | refl => exact ⟨rfl, here⟩
  | step fetched ongoing _ ih =>
      obtain ⟨entity, stays⟩ := RunState.present_step here ongoing
      rw [← entity] at stays ⊢
      exact ih stays

/-- Which entity an actor is, and which script it runs. -/
def Actor.role (actor : Actor) : Handle × Script := (actor.entity, actor.script)

namespace TickReport

private theorem ran_count (report : TickReport) (outcome : Outcome) :
    (report.count outcome).ran = report.ran + 1 := by
  cases outcome <;> simp only [count, ran] <;> omega

end TickReport

namespace Director

/-- A mind keeps its entity when it takes in its mail. -/
theorem foldl_deliver_entity (posts : List Post) (mind : Mind) :
    (posts.foldl Mind.deliver mind).entity = mind.entity := by
  induction posts generalizing mind with
  | nil => rfl
  | cons post posts ih => rw [List.foldl_cons, ih, deliver_entity]

/-- The mail changes neither who the actors are nor what they run. -/
theorem map_role_received (mailbox : List (Handle × Post)) (actors : List Actor) :
    (received mailbox actors).map Actor.role = actors.map Actor.role := by
  induction actors generalizing mailbox with
  | nil => rfl
  | cons actor rest ih =>
      rw [received, List.map_cons, List.map_cons, ih]
      congr 1
      exact Prod.ext (foldl_deliver_entity _ _) rfl

private theorem map_role_present (world : World) (actors : List Actor) :
    (present world actors).map Actor.role =
      (actors.map Actor.role).filter fun role => world.contains role.1 := by
  rw [List.filter_map]
  rfl

namespace Turn

variable (machine : Machine) (t : Turn)

private theorem ran_turn_of_contains (here : t.before.world.contains t.actor.entity) :
    (turn machine t.before t.actor).report.ran = t.before.report.ran + 1 := by
  rw [turn, if_pos here]
  exact TickReport.ran_count _ _

/-- A turn of an actor whose entity is gone is over at once. -/
theorem turn_of_gone (gone : ¬ t.before.world.contains t.actor.entity) :
    turn machine t.before t.actor = { t.before with done := t.actor :: t.before.done } := by
  rw [turn, if_neg gone]

end Turn

/-- Whatever is dispatched in a turn is dispatched for the actor's entity, which is still there. -/
theorem Turn.present_of_mem {machine : Machine} {t : Turn} {call : Dispatch}
    (member : call ∈ t.dispatches machine) :
    call.mind.entity = t.actor.entity ∧ call.world.contains t.actor.entity := by
  unfold dispatches at member
  split at member
  · rename_i runs
    obtain ⟨n, here, word, reaches, dispatched⟩ := Machine.exists_reaches_of_mem member
    obtain ⟨mind, world, _⟩ := RunState.step_of_some machine t.actor.script dispatched
    rw [mind, world]
    exact reaches.present runs
  · cases member

/-- The runs of a tick are the turns whose entity is there. -/
theorem foldl_turn_ran (machine : Machine) (p : Progress) (actors : List Actor) :
    (actors.foldl (turn machine) p).report.ran =
      p.report.ran + (turnsFrom machine p actors).countP Turn.runs := by
  induction actors generalizing p with
  | nil => rfl
  | cons actor rest ih =>
      rw [List.foldl_cons, ih, turnsFrom, List.countP_cons]
      by_cases here : Turn.runs ⟨p, actor⟩ = true
      · have ran := Turn.ran_turn_of_contains machine ⟨p, actor⟩ here
        dsimp only at ran
        rw [ran, if_pos here]
        omega
      · have unchanged := Turn.turn_of_gone machine ⟨p, actor⟩ here
        dsimp only at unchanged
        rw [unchanged, if_neg here]
        rfl

/-- The report of a tick counts the turns in which a script was run. -/
theorem ran_tick (d : Director) (world : World) :
    (d.tick world).1.ran = (d.turns world).countP Turn.runs :=
  (foldl_turn_ran d.machine ⟨d.journal, { world with posted := #[] }, .empty, []⟩
    (d.starting world)).trans (Nat.zero_add _)

/-- The actors of a tick have their mail first and are then looked for in the world. -/
theorem starting_eq (d : Director) (world : World) :
    d.starting world = present world (received d.mailbox d.actors) := by
  rw [starting, deliverAll_eq]

/-- **No instruction for an entity that is gone.** An actor that is in the world when the tick
begins has one turn, in the order of the actors; any other one has none. The script is run in a
turn exactly if the entity is in the world then; otherwise the turn changes nothing. And wherever
a run gets to, it is for that entity, which is still there. -/
theorem tick_present (d : Director) (world : World) :
    (d.turns world).map (fun t => t.actor.role) =
        (d.actors.map Actor.role).filter (fun role => world.contains role.1) ∧
      (d.tick world).1.ran =
        (d.turns world).countP (fun t => t.before.world.contains t.actor.entity) ∧
      ∀ t ∈ d.turns world,
        if t.before.world.contains t.actor.entity then
          (turn d.machine t.before t.actor).report.ran = t.before.report.ran + 1 ∧
            ∀ n s, d.machine.Reaches t.actor.script n (Machine.started t.start) s →
              s.mind.entity = t.actor.entity ∧ s.world.contains t.actor.entity
        else
          turn d.machine t.before t.actor = { t.before with done := t.actor :: t.before.done } := by
  refine ⟨?_, d.ran_tick world, ?_⟩
  · change (d.turns world).map (Actor.role ∘ Turn.actor) = _
    rw [← List.map_map, turns_actors, starting_eq, map_role_present, map_role_received]
  · intro t _
    split
    · rename_i here
      refine ⟨t.ran_turn_of_contains d.machine here, ?_⟩
      intro n s reaches
      exact reaches.present here
    · rename_i gone
      exact t.turn_of_gone d.machine gone

end Director
end NpcScript
