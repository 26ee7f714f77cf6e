import NpcScript.Proofs.Director.Presence
import NpcScript.Proofs.World.Handles

/-! # Orders

An order goes to the other members of the team, one post for each of them in the
order of their handles, and the place of a post among these is the rank that it
gives. Of the posts that an actor takes in, the last one that gives an order
decides, and it gives value and rank together
(`NpcScript.Director.tick_orders`).
-/

namespace NpcScript

/-- Another entity of the same team. -/
def World.Teammate (world : World) (h other : Handle) : Prop :=
  other ≠ h ∧ ∃ me e, world.entity? h = some me ∧ world.entity? other = some e ∧ e.team = me.team

/-- The order that a post gives to whoever takes it in. -/
def Post.given? (post : Post) : Option Order :=
  if post.alert = .ordered then post.order else none

/-! ## Taking in orders -/

namespace Mind

private theorem deliver_order (mind : Mind) (post : Post) :
    (mind.deliver post).order = post.given?.getD mind.order := by
  obtain ⟨alert, source, order⟩ := post
  cases alert <;> rfl

/-- **The last order decides**, as a whole. -/
theorem foldl_deliver_order (mind : Mind) (posts : List Post) :
    (posts.foldl Mind.deliver mind).order =
      (posts.filterMap Post.given?).getLast?.getD mind.order := by
  induction posts generalizing mind with
  | nil => rfl
  | cons post posts ih =>
      rw [List.foldl_cons, ih, deliver_order]
      cases given : post.given? with
      | none => rw [List.filterMap_cons_none given, Option.getD_none]
      | some order =>
          rw [List.filterMap_cons_some given, List.getLast?_cons, Option.getD_some,
            Option.getD_some]

end Mind

/-! ## Giving orders -/

namespace Dispatch

variable {call : Dispatch}

/-- The receivers of an order, in order. -/
theorem receivers_issueOrder (issues : call.builtin = .issueOrder) :
    call.posts.map Prod.fst = (Builtin.teammates? call.mind call.world).getD [] := by
  obtain ⟨b, mind, world⟩ := call
  subst issues
  simp only [posts]
  rw [List.map_map]
  exact List.zipIdx_map_fst 0 _

/-- The posts of an order are ranked from zero on. -/
theorem posts_getElem?_issueOrder (issues : call.builtin = .issueOrder) {rank : Nat}
    {receiver : Handle} {post : Post} (found : call.posts[rank]? = some (receiver, post)) :
    post = Builtin.orderPost call.mind rank := by
  obtain ⟨b, mind, world⟩ := call
  subst issues
  simp only [posts, List.getElem?_map, List.getElem?_zipIdx, Option.map_map] at found
  obtain ⟨_, _, same⟩ := Option.map_eq_some_iff.mp found
  cases same
  rw [Nat.zero_add]

variable {mind : Mind} {world : World} (numbered : world.entities.size ≤ UInt32.size)

include numbered

private theorem mem_teammates_iff {other : Handle} :
    other ∈ (Builtin.teammates? mind world).getD [] ↔ world.Teammate mind.entity other := by
  unfold Builtin.teammates? Builtin.teamOf? World.attribute? World.Teammate
  cases world.entity? mind.entity with
  | none => simp
  | some me =>
      simp only [Option.map_some, Option.getD_some, World.teamMembers, List.mem_filter,
        World.mem_handlesWhere_iff numbered, decide_eq_true_eq]
      constructor
      · rintro ⟨⟨e, found, same⟩, apart⟩
        exact ⟨apart, me, e, rfl, found, same⟩
      · rintro ⟨apart, _, e, ⟨⟩, found, same⟩
        exact ⟨⟨e, found, same⟩, apart⟩

private theorem pairwise_teammates :
    ((Builtin.teammates? mind world).getD []).Pairwise fun a b => a.index < b.index := by
  cases teammates : Builtin.teammates? mind world with
  | none => exact .nil
  | some members =>
      obtain ⟨team, _, rfl⟩ := Option.map_eq_some_iff.mp teammates
      exact (World.pairwise_handlesWhere numbered).filter _

end Dispatch

namespace Director

/-- **Delivery to an actor**: it takes in what is addressed to its entity, in order. -/
theorem find?_received (h : Handle) (mailbox : List (Handle × Post)) (actors : List Actor) :
    (received mailbox actors).find? (·.entity = h) =
      (actors.find? (·.entity = h)).map fun actor =>
        { actor with mind := (addressed h mailbox).foldl Mind.deliver actor.mind } := by
  induction actors generalizing mailbox with
  | nil => rfl
  | cons actor rest ih =>
      have entity : Actor.entity
          { actor with mind := (addressed actor.entity mailbox).foldl Mind.deliver actor.mind } =
            actor.entity := foldl_deliver_entity _ _
      rw [received, List.find?_cons, List.find?_cons, entity]
      by_cases mine : actor.entity = h
      · subst mine
        simp only [decide_true, Option.map_some]
      · simp only [mine, decide_false]
        rw [ih, addressed_filter (Ne.symm mine)]

/-- **Orders reach every teammate once.** The scripts of a tick fill the next mailbox, call by call.
A call that issues an order posts it to the other members of the team that are in the world then,
once to each and in the order of their handles. The posts all carry the argument as the value, and
their places among them, counted from zero, as the ranks. Whatever posts an actor takes in, the
last one that gives an order decides, value and rank together; without one the order stays as it
is. At the beginning of a tick the first actor of an entity takes in what is addressed to the
entity, in order, and that is the mind that its script runs with. -/
theorem tick_orders (d : Director) (world : World) :
    (d.tick world).2.1.mailbox =
        (d.turns world).flatMap (fun t => (t.dispatches d.machine).flatMap Dispatch.posts) ∧
      (∀ t ∈ d.turns world, ∀ call ∈ t.dispatches d.machine, call.builtin = .issueOrder →
        call.reply.world.posted = call.world.posted ++ call.posts.toArray ∧
          (∀ (rank : Nat) receiver post, call.posts[rank]? = some (receiver, post) →
            post.alert = .ordered ∧ post.source = some t.actor.entity ∧
              ∃ order, post.order = some order ∧ order.value = call.mind.vars.argument ∧
                (rank < 0x80000000 → order.rank.toInt = (rank : Int))) ∧
          (call.world.entities.size ≤ UInt32.size →
            (call.posts.map Prod.fst).Pairwise (fun a b => a.index < b.index) ∧
              ∀ other, other ∈ call.posts.map Prod.fst ↔
                call.world.Teammate t.actor.entity other)) ∧
      (∀ (posts : List Post) (mind : Mind), (posts.foldl Mind.deliver mind).order =
        (posts.filterMap Post.given?).getLast?.getD mind.order) ∧
      (∀ h, (deliverAll d.actors d.mailbox).1.find? (·.entity = h) =
        (d.actors.find? (·.entity = h)).map fun actor =>
          { actor with mind := (addressed h d.mailbox).foldl Mind.deliver actor.mind }) ∧
      ∀ t ∈ d.turns world, t.actor ∈ (deliverAll d.actors d.mailbox).1 ∧
        t.start.mind = { t.actor.mind with raised := .empty } := by
  refine ⟨d.mailbox_tick world, ?_, fun posts mind => mind.foldl_deliver_order posts, ?_, ?_⟩
  · intro t _ call member issues
    have entity := (Turn.present_of_mem member).1
    refine ⟨call.posted_reply, ?_, ?_⟩
    · intro rank receiver post found
      rw [Dispatch.posts_getElem?_issueOrder issues found]
      refine ⟨rfl, congrArg some entity, _, rfl, rfl, fun small => ?_⟩
      exact Int32.toInt_ofNat_of_lt (Nat.lt_of_lt_of_le small (by decide))
    · intro numbered
      rw [Dispatch.receivers_issueOrder issues, ← entity]
      exact ⟨Dispatch.pairwise_teammates numbered, fun _ => Dispatch.mem_teammates_iff numbered⟩
  · intro h
    rw [deliverAll_eq]
    exact find?_received h d.mailbox d.actors
  · intro t member
    have starts : t.actor ∈ d.starting world := by
      rw [← turns_actors]
      exact List.mem_map_of_mem member
    exact ⟨(List.mem_filter.mp starts).1, rfl⟩

/-- A script that issues an order with the value 7. -/
def commandScript : Script :=
  ⟨"command", #[0x30000104, 0x50000007, 0x10000063], #[], 1, .empty⟩

/-- A world of five places. The entity of the second one is gone, and the one of the fourth belongs
to another team than the others. -/
def squadWorld : World :=
  let member (team : Int32) : Entity := { Entity.placed 0 0 with team := team }
  { World.empty with
    entities := #[some (member 1), none, some (member 1), some (member 2), some (member 1)] }

/-- The third entity runs the script. Two orders wait for it, and behind them an alert that gives
none. -/
def squad : Director :=
  let order (value rank : Int32) : Handle × Post := (⟨2⟩, ⟨.ordered, none, some ⟨value, rank⟩⟩)
  { (Director.empty {}).spawn ⟨2⟩ commandScript with
    mailbox := [order 3 4, order 5 6, (⟨2⟩, ⟨.ordered, none, none⟩), (⟨0⟩, ⟨.bumped, none, none⟩)] }

/-- The only turn of a tick. -/
def squadTurn : Turn :=
  let mind := (addressed ⟨2⟩ squad.mailbox).foldl Mind.deliver (Mind.spawned ⟨2⟩)
  ⟨⟨.empty, { squadWorld with posted := #[] }, .empty, []⟩, ⟨mind, commandScript⟩⟩

/-- The only call in that turn. -/
def squadCall : Dispatch :=
  let mind := squadTurn.start.mind
  { builtin := .issueOrder
    mind := { mind with
      counter := 2
      phase := .running
      working := 7
      operand := 7
      vars := { mind.vars with argument := 7 } }
    world := squadTurn.start.world }

/-- The commander of the squad gives an order to both of its mates, in the order of their handles.
-/
theorem tick_orders_squad :
    squadTurn ∈ squad.turns squadWorld ∧ squadCall ∈ squadTurn.dispatches squad.machine ∧
      squadCall.builtin = .issueOrder ∧ squadCall.world.entities.size ≤ UInt32.size ∧
      (∀ other, other ∈ squadCall.posts.map Prod.fst ↔
        squadCall.world.Teammate squadTurn.actor.entity other) ∧
      squadCall.posts.map Prod.fst = [⟨0⟩, ⟨4⟩] ∧ squadTurn.actor.mind.order = ⟨5, 6⟩ := by
  have turns : squad.turns squadWorld = [squadTurn] := rfl
  have dispatches : squadTurn.dispatches squad.machine = [squadCall] := rfl
  have takesTurn : squadTurn ∈ squad.turns squadWorld := by simp [turns]
  have calls : squadCall ∈ squadTurn.dispatches squad.machine := by simp [dispatches]
  have numbered : squadCall.world.entities.size ≤ UInt32.size := by decide
  obtain ⟨_, orders, last, _⟩ := tick_orders squad squadWorld
  obtain ⟨_, _, receivers⟩ := orders squadTurn takesTurn squadCall calls rfl
  refine ⟨takesTurn, calls, rfl, numbered, (receivers numbered).2, by decide +kernel, ?_⟩
  exact (last _ _).trans (by decide +kernel)

end Director
end NpcScript
