import NpcScript.Proofs.Builtin.Effects
import NpcScript.Proofs.Director.Turns

/-! # The mail of a tick

The mail of a tick is delivered before any script runs: the first actor of an
entity takes in all that is addressed to it, in order, and the rest is dropped.
What the scripts of the tick post is the mail of the next one, run by run and
post by post (`NpcScript.Director.tick_mail`).
-/

namespace NpcScript

/-- The alerts that an operation posts to others. -/
def Dispatch.posts (d : Dispatch) : List (Handle × Post) :=
  match d.builtin with
  | .callForHelp =>
      ((Builtin.teammates? d.mind d.world).getD []).map fun member =>
        (member, ⟨.calledForHelp, some d.mind.entity, none⟩)
  | .issueOrder =>
      ((Builtin.teammates? d.mind d.world).getD []).zipIdx.map fun (member, rank) =>
        (member, Builtin.orderPost d.mind rank)
  | .orderTarget =>
      (d.mind.liveTarget? d.world).toList.map fun target =>
        (target, Builtin.orderPost d.mind 0)
  | _ => []

namespace Dispatch

private theorem posted_postAll (world : World) (posts : List (Handle × Post)) :
    (Builtin.postAll world posts).posted = world.posted ++ posts.toArray := by
  unfold Builtin.postAll
  induction posts generalizing world with
  | nil => simp
  | cons post posts ih =>
      rw [List.foldl_cons, ih]
      simp [World.post]

private theorem posts_of_silent (d : Dispatch) (silent : d.builtin.postsAlerts = false) :
    d.posts = [] := by
  obtain ⟨b, mind, world⟩ := d
  change b.postsAlerts = false at silent
  cases b <;> first | rfl | cases silent

/-- An operation appends what it posts. -/
theorem posted_reply (d : Dispatch) : d.reply.world.posted = d.world.posted ++ d.posts.toArray := by
  by_cases silent : d.builtin.postsAlerts = false
  · rw [posts_of_silent d silent, reply, Builtin.perform_posted _ silent, Array.append_empty]
  · obtain ⟨b, mind, world⟩ := d
    cases b <;> first | exact absurd rfl silent | skip
    case callForHelp | issueOrder =>
      unfold reply posts
      simp only [Builtin.perform]
      cases Builtin.teammates? mind world with
      | none => simp [Builtin.attempt, Builtin.skip]
      | some members => exact posted_postAll world _
    case orderTarget =>
      unfold reply posts
      simp only [Builtin.perform, Builtin.onTarget]
      cases mind.liveTarget? world with
      | none => simp [Builtin.attempt, Builtin.skip]
      | some target => simp [Builtin.attempt, Builtin.proceed, World.post]

end Dispatch

/-- The posts in the world, to which operations append what they post. -/
def mailView : Machine.View (Array (Handle × Post)) where
  look _ world := world.posted
  act posted d := posted ++ d.posts.toArray
  aside _ _ _ _ _ := rfl
  acts := Dispatch.posted_reply

/-- A run appends what its operations post. -/
theorem Machine.run_posted (machine : Machine) (script : Script) (s : RunState) :
    (machine.run script s).2.world.posted =
      s.world.posted ++ ((machine.dispatches script s).flatMap Dispatch.posts).toArray := by
  have appends (dispatches : List Dispatch) (posted : Array (Handle × Post)) :
      dispatches.foldl mailView.act posted =
        posted ++ (dispatches.flatMap Dispatch.posts).toArray := by
    induction dispatches generalizing posted with
    | nil => simp
    | cons d dispatches ih =>
        rw [List.foldl_cons, ih]
        simp [mailView]
  have view := machine.run_view mailView script s
  rw [appends] at view
  exact view

namespace Director

/-! ## Delivery -/

/-- The mail that is addressed to an entity. -/
def addressed (h : Handle) (mailbox : List (Handle × Post)) : List Post :=
  (mailbox.filter (·.1 = h)).map (·.2)

/-- The actors with their mail. The first actor of an entity takes in all posts that are addressed
to the entity, in the order of the mailbox. -/
def received : List (Handle × Post) → List Actor → List Actor
  | _, [] => []
  | mailbox, actor :: rest =>
      { actor with mind := (addressed actor.entity mailbox).foldl Mind.deliver actor.mind } ::
        received (mailbox.filter (·.1 ≠ actor.entity)) rest

/-- A mind keeps its entity when it takes in a post. -/
theorem deliver_entity (mind : Mind) (post : Post) : (mind.deliver post).entity = mind.entity := by
  unfold Mind.deliver
  dsimp only
  split <;> rfl

/-- Gives an actor a post. -/
def take (post : Post) (actor : Actor) : Actor :=
  { actor with mind := actor.mind.deliver post }

private theorem take_entity (post : Post) (actor : Actor) :
    (take post actor).entity = actor.entity :=
  deliver_entity actor.mind post

private theorem received_nil (actors : List Actor) : received [] actors = actors := by
  induction actors with
  | nil => rfl
  | cons actor rest ih =>
      rw [received, List.filter_nil, ih]
      rfl

/-- The first post of the mailbox goes to the first actor of its entity, if there is one. -/
theorem received_cons (h : Handle) (post : Post) (mailbox : List (Handle × Post))
    (actors : List Actor) :
    received ((h, post) :: mailbox) actors =
      received mailbox ((update? h (take post) actors).getD actors) := by
  induction actors generalizing mailbox with
  | nil => rfl
  | cons actor rest ih =>
      by_cases mine : actor.entity = h
      · subst mine
        rw [update?, if_pos rfl, Option.getD_some, received, received, take_entity]
        simp [addressed, take]
      · have others : ((h, post) :: mailbox).filter (·.1 ≠ actor.entity) =
            (h, post) :: mailbox.filter (·.1 ≠ actor.entity) :=
          List.filter_cons_of_pos (by simpa using Ne.symm mine)
        have none : addressed actor.entity ((h, post) :: mailbox) =
            addressed actor.entity mailbox := by
          unfold addressed
          rw [List.filter_cons_of_neg (by simpa using Ne.symm mine)]
        rw [update?, if_neg mine, received, others, ih, none]
        cases update? h (take post) rest <;> rfl

/-- Taking out the mail of another entity leaves that of an entity alone. -/
theorem addressed_filter {h other : Handle} (apart : h ≠ other) (mailbox : List (Handle × Post)) :
    addressed h (mailbox.filter (·.1 ≠ other)) = addressed h mailbox := by
  unfold addressed
  rw [List.filter_filter]
  congr 2
  funext post
  by_cases mine : post.1 = h
  · simp [mine, apart]
  · simp [mine]

/-- Where no two actors are for the same entity, each actor takes in what is addressed to it. -/
theorem received_of_nodup {actors : List Actor} (distinct : (actors.map Actor.entity).Nodup)
    (mailbox : List (Handle × Post)) :
    received mailbox actors = actors.map fun actor =>
      { actor with mind := (addressed actor.entity mailbox).foldl Mind.deliver actor.mind } := by
  induction actors generalizing mailbox with
  | nil => rfl
  | cons actor rest ih =>
      rw [List.map_cons, List.nodup_cons] at distinct
      obtain ⟨new, distinctRest⟩ := distinct
      rw [received, ih distinctRest, List.map_cons]
      congr 1
      apply List.map_congr_left
      intro other member
      have apart : other.entity ≠ actor.entity := by
        intro same
        exact new (same ▸ List.mem_map_of_mem member)
      rw [addressed_filter apart]

/-- An actor is updated exactly if one of the entity is there. -/
theorem isSome_update? (h : Handle) (f : Actor → Actor) (actors : List Actor) :
    (update? h f actors).isSome = actors.any (·.entity = h) := by
  induction actors with
  | nil => rfl
  | cons actor rest ih =>
      rw [update?, List.any_cons, ← ih]
      by_cases mine : actor.entity = h
      · simp [mine]
      · simp [mine]

private theorem any_update? {h : Handle} {post : Post} {actors updated : List Actor}
    (changed : update? h (take post) actors = some updated) (other : Handle) :
    updated.any (·.entity = other) = actors.any (·.entity = other) := by
  induction actors generalizing updated with
  | nil => cases changed
  | cons actor rest ih =>
      rw [update?] at changed
      split at changed
      · cases changed
        rw [List.any_cons, List.any_cons, take_entity]
      · obtain ⟨rest', changedRest, rfl⟩ := Option.map_eq_some_iff.mp changed
        rw [List.any_cons, List.any_cons, ih changedRest]

/-- The posts that reach an actor. -/
def arriving (actors : List Actor) (mailbox : List (Handle × Post)) : List (Handle × Post) :=
  mailbox.filter fun post => actors.any (·.entity = post.1)

private theorem deliverNext_of_some {h : Handle} {post : Post} {actors updated : List Actor}
    (count : Nat) (changed : update? h (take post) actors = some updated) :
    deliverNext (actors, count) (h, post) = (updated, count + 1) := by
  change update? h (fun actor => { actor with mind := actor.mind.deliver post }) actors = _
    at changed
  simp only [deliverNext, changed]

private theorem deliverNext_of_none {h : Handle} {post : Post} {actors : List Actor} (count : Nat)
    (unchanged : update? h (take post) actors = none) :
    deliverNext (actors, count) (h, post) = (actors, count) := by
  change update? h (fun actor => { actor with mind := actor.mind.deliver post }) actors = _
    at unchanged
  simp only [deliverNext, unchanged]

private theorem foldl_deliverNext (actors : List Actor) (count : Nat)
    (mailbox : List (Handle × Post)) :
    mailbox.foldl deliverNext (actors, count) =
      (received mailbox actors, count + (arriving actors mailbox).length) := by
  induction mailbox generalizing actors count with
  | nil => simp [received_nil, arriving]
  | cons post mailbox ih =>
      obtain ⟨h, post⟩ := post
      have reaches := isSome_update? h (take post) actors
      rw [List.foldl_cons, received_cons]
      cases changed : update? h (take post) actors with
      | none =>
          rw [changed] at reaches
          rw [deliverNext_of_none count changed, ih, arriving, arriving,
            List.filter_cons_of_neg (by rw [← reaches]; simp)]
          rfl
      | some updated =>
          rw [changed] at reaches
          have same : arriving updated mailbox = arriving actors mailbox := by
            unfold arriving
            congr 1
            funext other
            exact any_update? changed other.1
          have counted : (arriving actors ((h, post) :: mailbox)).length =
              (arriving actors mailbox).length + 1 := by
            rw [arriving, List.filter_cons_of_pos (by rw [← reaches]; simp), List.length_cons,
              arriving]
          rw [deliverNext_of_some count changed, ih, same, counted, Option.getD_some]
          congr 1
          omega

/-- **Delivery.** Each post is taken in once, by the first actor of its entity, or dropped. -/
theorem deliverAll_eq (actors : List Actor) (mailbox : List (Handle × Post)) :
    deliverAll actors mailbox = (received mailbox actors, (arriving actors mailbox).length) := by
  rw [deliverAll, foldl_deliverNext, Nat.zero_add]

/-! ## Posting -/

/-- What a turn posts to other entities. -/
def Turn.posts (machine : Machine) (t : Turn) : List (Handle × Post) :=
  (t.dispatches machine).flatMap Dispatch.posts

private theorem Turn.posted_worldAfter (machine : Machine) (t : Turn) :
    (t.worldAfter machine).posted = t.before.world.posted ++ (t.posts machine).toArray := by
  unfold worldAfter posts dispatches
  by_cases runs : t.runs
  · rw [if_pos runs, if_pos runs]
    exact machine.run_posted t.actor.script t.start
  · rw [if_neg runs, if_neg runs]
    simp

private theorem foldl_turn_posted (machine : Machine) (p : Progress) (actors : List Actor) :
    (actors.foldl (turn machine) p).world.posted =
      p.world.posted ++ ((turnsFrom machine p actors).flatMap (Turn.posts machine)).toArray := by
  induction actors generalizing p with
  | nil => simp [turnsFrom]
  | cons actor rest ih =>
      have world := Turn.turn_world machine ⟨p, actor⟩
      have posted := Turn.posted_worldAfter machine ⟨p, actor⟩
      dsimp only at world
      rw [List.foldl_cons, ih, world, posted, turnsFrom, List.flatMap_cons]
      simp

/-- What is posted in the turns of a tick is the next mail. -/
theorem mailbox_tick (d : Director) (world : World) :
    (d.tick world).2.1.mailbox = (d.turns world).flatMap (Turn.posts d.machine) := by
  have posted := foldl_turn_posted d.machine ⟨d.journal, { world with posted := #[] }, .empty, []⟩
    (d.starting world)
  have mail := congrArg Array.toList posted
  rw [Array.empty_append] at mail
  exact mail

/-- **The mail of a tick.** Every post of the mailbox is taken in once, by the first actor of its
entity, in order and before any script runs, or it is dropped. A script starts with the mind that
its actor has behind the delivery, whatever was run before. The next mailbox is what the scripts
posted, in order, and the posts of the world itself are left alone. -/
theorem tick_mail (d : Director) (world : World) :
    (d.turns world).map Turn.actor = present world (received d.mailbox d.actors) ∧
      (∀ t ∈ d.turns world, t.start.mind = { t.actor.mind with raised := .empty }) ∧
      (d.tick world).1.delivered = (arriving d.actors d.mailbox).length ∧
      (d.tick world).2.1.actors =
        present (d.tick world).2.2 ((d.turns world).map (Turn.after d.machine)) ∧
      (d.tick world).2.1.mailbox = (d.turns world).flatMap (Turn.posts d.machine) ∧
      (d.tick world).2.2.posted = world.posted := by
  have delivery := deliverAll_eq d.actors d.mailbox
  refine ⟨?_, fun t _ => rfl, ?_, tick_actors d world, mailbox_tick d world, rfl⟩
  · rw [turns_actors, starting, delivery]
  · exact congrArg Prod.snd delivery

end Director
end NpcScript
