import NpcScript.Proofs.Director.Roster
import NpcScript.Proofs.Machine.Local

/-! # Isolation

What a stage holds for one entity is the world, the actor that the entity is, and
the mail that waits for it. Where all scripts are local, an operation that
concerns the entity changes this by what it is, and any other operation leaves it
alone. So an actor is at all times what it would be if it had been the only one
(`NpcScript.Simulation.Stage.after_isolated`).
-/

namespace NpcScript
namespace Director

/-! ## Ticks of local scripts -/

/-- An actor behind a turn of its own, in an empty world and with nothing in the journal. -/
def ranAlone (machine : Machine) (actor : Actor) : Actor :=
  let mind := (machine.run actor.script
    ⟨.empty, { actor.mind with raised := .empty }, .empty⟩).2.mind
  { actor with
    mind := { mind with alerts := mind.alerts.diff (mind.consumedAlerts actor.mind.alerts) } }

section

variable (machine : Machine)

private theorem Turn.after_role (t : Turn) : (t.after machine).role = t.actor.role := by
  refine Prod.ext (t.after_entity machine) ?_
  change (t.after machine).script = t.actor.script
  unfold after
  split <;> rfl

private theorem ranAlone_entity (actor : Actor) : (ranAlone machine actor).entity = actor.entity :=
  machine.run_entity actor.script _

/-- A run of a local script leaves the actor as if it had been alone, and the world as it is. -/
theorem Turn.after_of_local {t : Turn} (isLocal : t.actor.script.Local) (runs : t.runs) :
    t.after machine = ranAlone machine t.actor ∧ t.worldAfter machine = t.before.world := by
  have twins : RunState.Twins t.before.world .empty t.start
      ⟨.empty, { t.actor.mind with raised := .empty }, .empty⟩ := ⟨rfl, rfl, rfl⟩
  obtain ⟨_, ends⟩ := Machine.run_twins isLocal (Eq.refl machine.ceiling) twins
  constructor
  · rw [after, if_pos runs, ranAlone, ends.mind]
    rfl
  · rw [worldAfter, if_pos runs]
    exact ends.left

private theorem foldl_turn_of_local (p : Progress) (actors : List Actor)
    (isLocal : ∀ actor ∈ actors, actor.script.Local)
    (here : ∀ actor ∈ actors, p.world.contains actor.entity) :
    (actors.foldl (turn machine) p).world = p.world ∧
      (turnsFrom machine p actors).map (Turn.after machine) = actors.map (ranAlone machine) := by
  induction actors generalizing p with
  | nil => exact ⟨rfl, rfl⟩
  | cons actor rest ih =>
      have runs : (Turn.mk p actor).runs := here actor (by simp)
      obtain ⟨after, unchanged⟩ := Turn.after_of_local machine (isLocal actor (by simp)) runs
      rw [← Turn.turn_world] at unchanged
      dsimp only at unchanged
      obtain ⟨world, others⟩ := ih (turn machine p actor)
        (fun other member => isLocal other (List.mem_cons_of_mem _ member))
        (fun other member => unchanged ▸ here other (List.mem_cons_of_mem _ member))
      rw [List.foldl_cons, turnsFrom, List.map_cons, List.map_cons]
      exact ⟨world.trans unchanged, congrArg₂ _ after others⟩

end

private theorem role_starting {d : Director} {world : World} {actor : Actor}
    (member : actor ∈ d.starting world) : actor.role ∈ d.actors.map Actor.role := by
  rw [starting_eq] at member
  rw [← map_role_received d.mailbox]
  exact List.mem_map_of_mem (List.mem_filter.mp member).1

/-- A tick of local scripts leaves the world as it is and no mail, and each actor as if it had been
alone. -/
theorem tick_of_local (d : Director) (world : World)
    (isLocal : ∀ actor ∈ d.actors, actor.script.Local) :
    (d.tick world).2.2 = world ∧ (d.tick world).2.1.mailbox = [] ∧
      (d.tick world).2.1.actors = (d.starting world).map (ranAlone d.machine) := by
  have starts : ∀ actor ∈ d.starting world, actor.script.Local := fun actor member => by
    obtain ⟨before, was, same⟩ := List.mem_map.mp (role_starting member)
    have script : before.script = actor.script := congrArg Prod.snd same
    exact script ▸ isLocal before was
  obtain ⟨unchanged, after⟩ := foldl_turn_of_local d.machine
    ⟨d.journal, { world with posted := #[] }, .empty, []⟩ (d.starting world) starts
    fun actor member => (List.mem_filter.mp member).2
  -- Nobody has written to the world, and so nothing was posted to the list made for the tick.
  have same : (d.tick world).2.2 = world := by
    change { ((d.starting world).foldl (turn d.machine)
      ⟨d.journal, { world with posted := #[] }, .empty, []⟩).world with posted := world.posted } = _
    rw [unchanged]
  have mail : (d.tick world).2.1.mailbox = [] := by
    change ((d.starting world).foldl (turn d.machine)
      ⟨d.journal, { world with posted := #[] }, .empty, []⟩).world.posted.toList = _
    rw [unchanged]
  refine ⟨same, mail, ?_⟩
  rw [tick_actors, same]
  change present world ((turnsFrom _ _ _).map _) = _
  rw [after]
  apply List.filter_eq_self.mpr
  intro actor member
  obtain ⟨start, starts, rfl⟩ := List.mem_map.mp member
  rw [ranAlone_entity]
  exact (List.mem_filter.mp starts).2

/-! ## The actor of an entity -/

/-- The actor that an entity is. -/
def actor? (d : Director) (h : Handle) : Option Actor := d.actors.find? (·.entity = h)

private theorem find?_update? {h : Handle} {f : Actor → Actor} {actors updated : List Actor}
    (keeps : ∀ actor, (f actor).entity = h) (changed : update? h f actors = some updated)
    (other : Handle) :
    updated.find? (·.entity = other) =
      if h = other then (actors.find? (·.entity = other)).map f
      else actors.find? (·.entity = other) := by
  induction actors generalizing updated with
  | nil => cases changed
  | cons actor rest ih =>
      rw [update?] at changed
      split at changed
      · rename_i mine
        cases changed
        by_cases same : h = other
        · simp [same, ← same ▸ mine, keeps]
        · simp [same, mine, keeps]
      · rename_i others
        obtain ⟨rest', changedRest, rfl⟩ := Option.map_eq_some_iff.mp changed
        rw [List.find?_cons, List.find?_cons, ih changedRest]
        by_cases same : h = other
        · simp [same, same ▸ others]
        · simp only [if_neg same]

private theorem spawn_mailbox (d : Director) (h : Handle) (script : Script) :
    (d.spawn h script).mailbox = d.mailbox := by
  unfold spawn
  dsimp only
  split <;> rfl

private theorem actor?_spawn (d : Director) (h other : Handle) (script : Script) :
    (d.spawn h script).actor? other =
      if h = other then some ⟨Mind.spawned h, script⟩ else d.actor? other := by
  unfold spawn actor?
  dsimp only
  have reaches := isSome_update? h (fun _ => ⟨Mind.spawned h, script⟩) d.actors
  cases changed : update? h (fun _ => ⟨Mind.spawned h, script⟩) d.actors with
  | some updated =>
      have keeps (_ : Actor) : (⟨Mind.spawned h, script⟩ : Actor).entity = h := rfl
      rw [changed, ← List.isSome_find?] at reaches
      dsimp only
      rw [find?_update? keeps changed]
      split
      · rename_i same
        subst same
        obtain ⟨actor, found⟩ := Option.isSome_iff_exists.mp reaches.symm
        rw [found]
        rfl
      · rfl
  | none =>
      have absent := update?_eq_none_iff.mp changed
      have here : (⟨Mind.spawned h, script⟩ : Actor).entity = h := rfl
      dsimp only
      rw [List.find?_append, List.find?_singleton, here]
      by_cases same : h = other
      · have none : d.actors.find? (·.entity = other) = none := by
          rw [List.find?_eq_none]
          intro actor member mine
          exact absent (List.mem_map.mpr ⟨actor, member, (of_decide_eq_true mine).trans same.symm⟩)
        simp [same, none]
      · simp [same]

private theorem actor?_despawn {d : Director} (distinct : d.roster.Nodup) (h other : Handle) :
    (d.despawn h).2.actor? other = if h = other then none else d.actor? other := by
  obtain ⟨machine, journal, actors, mailbox⟩ := d
  unfold despawn actor?
  unfold roster at distinct
  dsimp only at distinct ⊢
  induction actors with
  | nil => simp
  | cons actor rest ih =>
      rw [List.map_cons, List.nodup_cons] at distinct
      obtain ⟨new, distinctRest⟩ := distinct
      by_cases mine : actor.entity = h
      -- No other actor of the entity stands behind the one that is dropped.
      · rw [List.eraseP_cons_of_pos (by simpa using mine)]
        split
        · rename_i same
          rw [List.find?_eq_none]
          intro later member its
          exact new (mine.trans same ▸ of_decide_eq_true its ▸ List.mem_map_of_mem member)
        · rename_i apart
          rw [List.find?_cons_of_neg (by simpa [mine] using apart)]
      · rw [List.eraseP_cons_of_neg (by simpa using mine), List.find?_cons, List.find?_cons,
          ih distinctRest]
        by_cases same : h = other
        · simp [same, same ▸ mine]
        · simp [same]

/-- An actor with mail that it takes in. -/
def takeAll (mail : List Post) (actor : Actor) : Actor :=
  { actor with mind := mail.foldl Mind.deliver actor.mind }

/-- An actor that starts into a tick is in the world and has taken in its mail. -/
theorem find?_starting {d : Director} (distinct : d.roster.Nodup) (world : World) (h : Handle) :
    (d.starting world).find? (·.entity = h) =
      ((d.actor? h).filter fun _ => world.contains h).map (takeAll (addressed h d.mailbox)) := by
  have its (actor : Actor) : (takeAll (addressed actor.entity d.mailbox) actor).entity =
      actor.entity := foldl_deliver_entity _ _
  rw [starting_eq, received_of_nodup distinct, present, List.find?_filter]
  change (d.actors.map fun actor => takeAll (addressed actor.entity d.mailbox) actor).find? _ = _
  rw [List.find?_map, actor?]
  unfold Function.comp
  simp only [its]
  cases here : world.contains h with
  | true =>
      have same : (fun actor : Actor => decide (world.contains actor.entity = true ∧
          decide (actor.entity = h) = true)) = fun actor => decide (actor.entity = h) := by
        funext actor
        by_cases mine : actor.entity = h
        · simp [mine, here]
        · simp [mine]
      rw [same]
      cases found : d.actors.find? (·.entity = h) with
      | none => rfl
      | some actor =>
          have mine : actor.entity = h := by simpa using List.find?_some found
          rw [Option.map_some, mine]
          rfl
  | false =>
      have gone : d.actors.find? (fun actor => decide (world.contains actor.entity = true ∧
          decide (actor.entity = h) = true)) = none := by
        rw [List.find?_eq_none]
        rintro actor _ both
        simp only [decide_eq_true_eq] at both
        rw [both.2, here] at both
        cases both.1
      rw [gone]
      simp

end Director

/-! ## What a stage holds for one entity -/

namespace Simulation

/-- Whether the entity is in the world, the actor that it is, and the mail that waits for it. -/
structure Outlook where
  present : Bool
  actor? : Option Actor
  mail : List Post

/-- Whether an operation names an entity, or none. -/
def Operation.concerns (h : Handle) : Operation → Bool
  | .spawn other _ | .despawn other | .post other _ => other = h
  | .tick | .change _ => true

/-- What an operation that concerns an entity does to it. -/
def Outlook.apply (machine : Machine) (h : Handle) (o : Outlook) : Operation → Outlook
  | .spawn _ script => { o with actor? := some ⟨Mind.spawned h, script⟩ }
  | .despawn _ => { o with actor? := none, mail := [] }
  | .post _ post => { o with mail := o.mail ++ [post] }
  | .tick =>
      { o with
        actor? := (o.actor?.filter fun _ => o.present).map fun actor =>
          Director.ranAlone machine (Director.takeAll o.mail actor)
        mail := [] }
  | .change world => { o with present := world.contains h }

namespace Stage

open Director (addressed addressed_filter)

/-- What the stage holds for an entity. -/
def outlook (stage : Stage) (h : Handle) : Outlook :=
  ⟨stage.world.contains h, stage.director.actor? h, addressed h stage.director.mailbox⟩

variable {stage : Stage} {op : Operation} {h : Handle}

private theorem apply_machine (stage : Stage) (op : Operation) :
    (stage.apply op).director.machine = stage.director.machine := by
  cases op with
  | spawn h script =>
      unfold apply Director.spawn
      dsimp only
      split <;> rfl
  | despawn h => rfl
  | post h post => rfl
  | tick => rfl
  | change world => rfl

/-- An operation on another entity leaves alone what the stage holds for this one. -/
theorem outlook_apply_of_not_concerns (distinct : stage.director.roster.Nodup)
    (others : op.concerns h = false) : (stage.apply op).outlook h = stage.outlook h := by
  cases op with
  | spawn other script =>
      have apart : other ≠ h := of_decide_eq_false others
      simp only [apply, outlook, Director.actor?_spawn, if_neg apart, Director.spawn_mailbox]
  | despawn other =>
      have apart : other ≠ h := of_decide_eq_false others
      simp only [apply, outlook, Director.actor?_despawn distinct, if_neg apart]
      congr 1
      exact addressed_filter apart.symm _
  | post other post =>
      have apart : other ≠ h := of_decide_eq_false others
      simp only [apply, outlook, Director.postAlert]
      congr 1
      simp [addressed, apart]
  | tick => cases others
  | change world => cases others

/-- An operation on an entity changes what the stage holds for it by what that is. -/
theorem outlook_apply_of_concerns (distinct : stage.director.roster.Nodup)
    (isLocal : ∀ actor ∈ stage.director.actors, actor.script.Local)
    (concerns : op.concerns h = true) :
    (stage.apply op).outlook h = (stage.outlook h).apply stage.director.machine h op := by
  cases op with
  | spawn other script =>
      have same : other = h := of_decide_eq_true concerns
      subst same
      simp only [apply, outlook, Director.actor?_spawn, Director.spawn_mailbox, Outlook.apply,
        if_true]
  | despawn other =>
      have same : other = h := of_decide_eq_true concerns
      subst same
      simp only [apply, outlook, Director.actor?_despawn distinct, Outlook.apply, if_true]
      congr 1
      simp [Director.despawn, addressed]
  | post other post =>
      have same : other = h := of_decide_eq_true concerns
      subst same
      simp only [apply, outlook, Director.postAlert, Outlook.apply]
      congr 1
      simp [addressed]
  | tick =>
      -- The others have their turns too, but none of them changes anything but its own mind.
      obtain ⟨world, mail, actors⟩ := stage.director.tick_of_local stage.world isLocal
      simp only [apply, outlook, Outlook.apply, world, mail, Director.actor?, actors,
        List.find?_map]
      unfold Function.comp
      simp only [Director.ranAlone_entity]
      rw [Director.find?_starting distinct, Option.map_map]
      rfl
  | change world => rfl

private theorem role_apply {actor : Actor} (member : actor ∈ (stage.apply op).director.actors) :
    actor.role ∈ stage.director.actors.map Actor.role ∨ op = .spawn actor.entity actor.script := by
  cases op with
  | spawn h script =>
      rcases Director.mem_spawn member with was | rfl
      · exact .inl (List.mem_map_of_mem was)
      · exact .inr rfl
  | despawn h => exact .inl (List.mem_map_of_mem (List.eraseP_sublist.subset member))
  | post h post => exact .inl (List.mem_map_of_mem member)
  | tick =>
      obtain ⟨t, starts, rfl⟩ := Director.exists_turn_of_mem member
      rw [Director.Turn.after_role]
      exact .inl (Director.role_starting starts)
  | change world => exact .inl (List.mem_map_of_mem member)

/-- Every actor runs a script that it was spawned with. -/
theorem spawned_of_mem {start : Stage} (vacant : start.director.roster = [])
    {history : List Operation} {actor : Actor}
    (member : actor ∈ (start.after history).director.actors) :
    .spawn actor.entity actor.script ∈ history := by
  induction history using List.reverseRecOn generalizing actor with
  | nil =>
      have none : start.director.actors = [] := List.map_eq_nil_iff.mp vacant
      rw [after_nil, none] at member
      cases member
  | append_singleton history op ih =>
      rw [after_snoc] at member
      rcases role_apply member with was | last
      · obtain ⟨before, there, same⟩ := List.mem_map.mp was
        obtain ⟨entity, script⟩ := Prod.mk.inj same
        rw [← entity, ← script]
        exact List.mem_append_left _ (ih there)
      · rw [last]
        simp

private theorem after_machine (stage : Stage) (history : List Operation) :
    (stage.after history).director.machine = stage.director.machine := by
  induction history generalizing stage with
  | nil => rfl
  | cons op history ih => rw [after_cons, ih, apply_machine]

/-- Behind a history of local scripts, a stage holds for an entity what the operations that concern
the entity make of what it held at first. -/
theorem outlook_after {start : Stage} (vacant : start.director.roster = [])
    (history : List Operation) (isLocal : ∀ h script, .spawn h script ∈ history → script.Local)
    (h : Handle) :
    (start.after history).outlook h =
      (history.filter (·.concerns h)).foldl (Outlook.apply start.director.machine h)
        (start.outlook h) := by
  induction history using List.reverseRecOn with
  | nil => rfl
  | append_singleton history op ih =>
      have before := ih fun g script spawned => isLocal g script (List.mem_append_left _ spawned)
      have distinct := nodup_roster vacant history
      rw [after_snoc, List.filter_append, List.foldl_append, ← before]
      cases concerns : op.concerns h with
      | true =>
          have locals : ∀ actor ∈ (start.after history).director.actors, actor.script.Local := by
            intro actor member
            exact isLocal _ _ (List.mem_append_left _ (spawned_of_mem vacant member))
          rw [outlook_apply_of_concerns distinct locals concerns, after_machine]
          simp [concerns]
      | false =>
          rw [outlook_apply_of_not_concerns distinct concerns]
          simp [concerns]

end Stage

/-! ## Alone among others -/

/-- An actor whose entity is in the world throughout and that is not despawned does not get lost. -/
theorem Outlook.isSome_foldl {machine : Machine} {h : Handle} {o : Outlook}
    {history : List Operation} (here : o.present)
    (stays : ∀ world, .change world ∈ history → world.contains h)
    (kept : ∀ other, .despawn other ∉ history)
    (spawned : o.actor?.isSome ∨ ∃ other script, .spawn other script ∈ history) :
    (history.foldl (Outlook.apply machine h) o).actor?.isSome := by
  induction history generalizing o with
  | nil => simpa using spawned
  | cons op history ih =>
      rw [List.foldl_cons]
      apply ih
      · cases op with
        | change world => exact stays world (by simp)
        | spawn | despawn | post | tick => exact here
      · intro world change
        exact stays world (List.mem_cons_of_mem _ change)
      · intro other despawned
        exact kept other (List.mem_cons_of_mem _ despawned)
      · cases op with
        | spawn other script => exact .inl rfl
        | despawn other => exact absurd (by simp) (kept other)
        | tick => simpa [apply, here] using spawned
        | post | change => simpa [apply] using spawned

namespace Stage

/-- **Local scripts do not tell whether they are alone.** Behind a history in which all scripts are
local, the mind of an actor is the one behind those operations of the history that concern it, in
which nobody else acts, also in another world if the entity is in both or in none, and whatever the
journals hold. So it is the same behind every such history with the same operations on it. It is
there if the actor has been spawned and not despawned, and the entity has always been in the
world. -/
theorem after_isolated (machine : Machine) (journal journal' : Journal) (world world' : World)
    (history : List Operation) (isLocal : ∀ g script, .spawn g script ∈ history → script.Local)
    (h : Handle) (present : world'.contains h = world.contains h) :
    let together := (vacant machine journal world).after history
    let alone := (vacant machine journal' world').after (history.filter (·.concerns h))
    together.director.mind? h = alone.director.mind? h ∧
      (∀ actor ∈ alone.director.actors, actor.entity = h) ∧
      (∀ history', (∀ g script, .spawn g script ∈ history' → script.Local) →
        history'.filter (·.concerns h) = history.filter (·.concerns h) →
          ((vacant machine journal' world').after history').director.mind? h =
            together.director.mind? h) ∧
      ((∃ script, .spawn h script ∈ history) → .despawn h ∉ history → world.contains h →
        (∀ later, .change later ∈ history → later.contains h) →
          (together.director.mind? h).isSome) := by
  intro together alone
  have starts : (vacant machine journal' world').outlook h =
      (vacant machine journal world).outlook h := by
    unfold outlook vacant
    rw [present]
    rfl
  have held := outlook_after (vacant_roster machine journal world) history isLocal h
  -- The outlook behind any history with the same operations on the entity is the same.
  have same : ∀ history', (∀ g script, .spawn g script ∈ history' → script.Local) →
      history'.filter (·.concerns h) = history.filter (·.concerns h) →
        ((vacant machine journal' world').after history').director.mind? h =
          together.director.mind? h := fun history' isLocal' part => by
    have held' := outlook_after (vacant_roster machine journal' world') history' isLocal' h
    rw [part, starts] at held'
    exact congrArg (fun o => o.actor?.map Actor.mind) (held'.trans held.symm)
  refine ⟨(same _ ?_ ?_).symm, ?_, same, ?_⟩
  · intro g script spawned
    exact isLocal g script (List.mem_filter.mp spawned).1
  · rw [List.filter_filter]
    simp only [Bool.and_self]
  · intro actor member
    have concerns := (List.mem_filter.mp (spawned_of_mem rfl member)).2
    exact of_decide_eq_true concerns
  · rintro ⟨script, spawned⟩ kept here stays
    have there : ((vacant machine journal world).after history).outlook h |>.actor?.isSome := by
      rw [held]
      apply Outlook.isSome_foldl here
      · intro later change
        exact stays later (List.mem_filter.mp change).1
      · intro other despawned
        obtain ⟨member, concerns⟩ := List.mem_filter.mp despawned
        have mine : other = h := of_decide_eq_true concerns
        exact kept (mine ▸ member)
      · exact .inr ⟨h, script, List.mem_filter.mpr ⟨spawned, decide_eq_true rfl⟩⟩
    change (Option.map _ _).isSome
    rw [Option.isSome_map]
    exact there

/-- A script that adds up the orders that it gets, behind a word that is no instruction. -/
def orderingScript : Script :=
  ⟨"ordering", #[0, 0x30000200, 0x40000000, 0x4000000B], #[], 0, .empty⟩

/-- Two actors share a script and get orders of their own. One of them, alone in a smaller world,
has the same mind. -/
theorem after_isolated_orders :
    let order (value : Int32) : Post := ⟨.ordered, none, some ⟨value, 0⟩⟩
    let small := (World.empty.add (Entity.placed 0 0)).2
    let large := (small.add (Entity.placed 128 0)).2
    let history : List Operation :=
      [.spawn ⟨1⟩ orderingScript, .spawn ⟨0⟩ orderingScript, .post ⟨0⟩ (order 2), .tick,
        .post ⟨1⟩ (order 7), .post ⟨0⟩ (order 3), .tick]
    let together := (vacant ⟨16, true⟩ .empty large).after history
    let alone := (vacant ⟨16, true⟩ .empty small).after
      [.spawn ⟨0⟩ orderingScript, .post ⟨0⟩ (order 2), .tick, .post ⟨0⟩ (order 3), .tick]
    (∀ g script, .spawn g script ∈ history → script.Local) ∧
      small.contains ⟨0⟩ = large.contains ⟨0⟩ ∧
      together.director.mind? ⟨0⟩ = alone.director.mind? ⟨0⟩ ∧
      (alone.director.mind? ⟨0⟩).map (·.vars.x) = some 5 := by
  intro order small large history together alone
  have isLocal : ∀ g script, .spawn g script ∈ history → script.Local := by
    intro g script spawned
    have shared : script = orderingScript := by
      simp only [history, List.mem_cons, List.not_mem_nil, Operation.spawn.injEq, reduceCtorEq,
        or_false] at spawned
      exact spawned.elim And.right And.right
    rw [shared]
    exact Script.local_of_isLocal (by decide +kernel)
  have present : small.contains ⟨0⟩ = large.contains ⟨0⟩ := by decide
  obtain ⟨same, _⟩ :=
    after_isolated ⟨16, true⟩ .empty .empty large small history isLocal ⟨0⟩ present
  exact ⟨isLocal, present, same, by decide +kernel⟩

end Stage
end Simulation
end NpcScript
