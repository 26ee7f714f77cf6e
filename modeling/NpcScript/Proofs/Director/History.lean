import NpcScript.Simulation

/-! # Histories of a director

A history is a sequence of operations on a director and its world: entities are
spawned and despawned, alerts are posted from outside, ticks pass, and between
them anything at all may happen to the world. A stage goes through a history one
operation after the other (`NpcScript.Simulation.Stage.after`). A history tells of
each actor when it was spawned first since it was last removed
(`NpcScript.Simulation.Stage.FirstSpawn`).
-/

namespace NpcScript

/-- The entities of the actors, in order. -/
def Director.roster (d : Director) : List Handle := d.actors.map Actor.entity

namespace Simulation

/-- What may happen to a director and its world. -/
inductive Operation where
  | spawn (h : Handle) (script : Script)
  | despawn (h : Handle)
  | post (h : Handle) (post : Post)
  | tick
  /-- Whatever else happens to the world: it is another one afterwards. -/
  | change (world : World)

/-- A stage on which nobody acts yet. -/
def Stage.vacant (machine : Machine) (journal : Journal) (world : World) : Stage :=
  ⟨world, ⟨machine, journal, [], []⟩⟩

/-- Nobody is on the roster of a vacant stage. -/
theorem Stage.vacant_roster (machine : Machine) (journal : Journal) (world : World) :
    (vacant machine journal world).director.roster = [] := rfl

namespace Stage

/-- The stage behind an operation. -/
def apply (stage : Stage) : Operation → Stage
  | .spawn h script => { stage with director := stage.director.spawn h script }
  | .despawn h => { stage with director := (stage.director.despawn h).2 }
  | .post h post => { stage with director := stage.director.postAlert h post }
  | .tick =>
      let (_, director, world) := stage.director.tick stage.world
      ⟨world, director⟩
  | .change world => { stage with world := world }

/-- The stage behind a history. -/
def after (stage : Stage) (history : List Operation) : Stage := history.foldl apply stage

variable (stage : Stage) (history : List Operation) (op : Operation)

@[simp]
theorem after_nil : stage.after [] = stage := rfl

@[simp]
theorem after_cons : stage.after (op :: history) = (stage.apply op).after history := rfl

@[simp]
theorem after_snoc : stage.after (history ++ [op]) = (stage.after history).apply op := by
  rw [after, List.foldl_append]
  rfl

end Stage

/-! ## The first time an entity was spawned -/

namespace Stage

variable {start : Stage} {history : List Operation} {op : Operation} {h : Handle} {k : Nat}

/-- A history spawns an entity in one place for the first time since it was last removed: before
that place there is no such actor, and behind it there always is one. -/
structure FirstSpawn (start : Stage) (history : List Operation) (h : Handle) (k : Nat) :
    Prop where
  spawned : ∃ script, history[k]? = some (.spawn h script)
  absent : h ∉ (start.after (history.take k)).director.roster
  since : ∀ j, k < j → j ≤ history.length → h ∈ (start.after (history.take j)).director.roster

/-- A first spawn is one of the operations. -/
theorem FirstSpawn.lt (first : start.FirstSpawn history h k) : k < history.length := by
  obtain ⟨script, here⟩ := first.spawned
  exact (List.getElem?_eq_some_iff.mp here).1

/-- One that was not on the roster and is spawned by the last operation has been spawned first by
that. -/
theorem FirstSpawn.newcomer (called : ∃ script, op = .spawn h script)
    (absent : h ∉ (start.after history).director.roster)
    (added : h ∈ ((start.after history).apply op).director.roster) :
    start.FirstSpawn (history ++ [op]) h history.length := by
  obtain ⟨script, rfl⟩ := called
  refine ⟨⟨script, ?_⟩, ?_, ?_⟩
  · rw [List.getElem?_append_right (Nat.le_refl _), Nat.sub_self]
    rfl
  · rw [List.take_left]
    exact absent
  · intro j later within
    rw [List.take_of_length_le (by rw [List.length_append, List.length_singleton]; omega),
      after_snoc]
    exact added

/-- One that was not on the roster has not been spawned first before the last operation. -/
theorem FirstSpawn.le_of_absent (first : start.FirstSpawn (history ++ [op]) h k)
    (absent : h ∉ (start.after history).director.roster) : history.length ≤ k := by
  apply Nat.le_of_not_lt
  intro inside
  have was := first.since history.length inside (by rw [List.length_append]; omega)
  rw [List.take_left] at was
  exact absent was

/-- An entity that is on the roster behind an operation as it was before has been spawned first in
the same place. -/
theorem FirstSpawn.snoc (first : start.FirstSpawn history h k)
    (stays : h ∈ ((start.after history).apply op).director.roster) :
    start.FirstSpawn (history ++ [op]) h k := by
  have inside := first.lt
  refine ⟨?_, ?_, ?_⟩
  · rw [List.getElem?_append_left inside]
    exact first.spawned
  · rw [List.take_append_of_le_length (Nat.le_of_lt inside)]
    exact first.absent
  · intro j later within
    rcases Nat.lt_or_ge history.length j with whole | part
    · rw [List.take_of_length_le (by rw [List.length_append, List.length_singleton]; omega),
        after_snoc]
      exact stays
    · rw [List.take_append_of_le_length part]
      exact first.since j later part

/-- One that was on the roster has been spawned first before the last operation. -/
theorem FirstSpawn.of_snoc (first : start.FirstSpawn (history ++ [op]) h k)
    (was : h ∈ (start.after history).director.roster) : start.FirstSpawn history h k := by
  have inside : k < history.length := by
    rcases Nat.lt_or_ge k history.length with inside | outside
    · exact inside
    · have bound := first.lt
      rw [List.length_append, List.length_singleton] at bound
      have last : k = history.length := by omega
      have absent := first.absent
      rw [last, List.take_left] at absent
      exact absurd was absent
  obtain ⟨spawned, absent, since⟩ := first
  rw [List.getElem?_append_left inside] at spawned
  rw [List.take_append_of_le_length (Nat.le_of_lt inside)] at absent
  refine ⟨spawned, absent, ?_⟩
  intro j later within
  have there := since j later (by rw [List.length_append]; omega)
  rw [List.take_append_of_le_length within] at there
  exact there

end Stage
end Simulation
end NpcScript
