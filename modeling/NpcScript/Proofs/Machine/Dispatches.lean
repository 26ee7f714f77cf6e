import NpcScript.Proofs.Builtin.Frame
import NpcScript.Proofs.Machine.Expressions
import NpcScript.Proofs.Machine.Reach

/-! # What a run dispatches

A run works on its mind and on the world through the operations that it
dispatches; every other instruction moves the registers, the temporaries and the
state of the random numbers alone. So whatever the operations do to some view of
mind and world, the run does one after the other
(`NpcScript.Machine.runFrom_view`).
-/

namespace NpcScript

/-- An operation that a run dispatches, with what it works on. -/
structure Dispatch where
  builtin : Builtin
  mind : Mind
  world : World

/-- What the operation does. -/
def Dispatch.reply (d : Dispatch) : Reply := d.builtin.perform d.mind d.world

/-- The entry of a dispatch among the recorded calls. -/
def Dispatch.record (d : Dispatch) : CallRecord := ⟨d.mind.entity, d.builtin, d.reply.signal⟩

namespace RunState

variable {s : RunState} {word : UInt32}

/-- The operation that is dispatched when a word is carried out. -/
def dispatched? (s : RunState) (word : UInt32) : Option Dispatch :=
  match Instruction.decode word with
  | .ok (.call index _) => (Builtin.ofIndex? index).map fun b => ⟨b, s.mind, s.world⟩
  | _ => none

/-- Two states that differ in nothing that outlasts an instruction which dispatches nothing. -/
structure Aside (s s' : RunState) : Prop where
  mind : ∃ registers vars, s'.mind = { s.mind.withRegisters registers with vars := vars }
  world : ∃ seed, s'.world = { s.world with seed := seed }
  calls : s'.journal.calls = s.journal.calls

namespace Aside

variable {first second third : RunState}

private theorem of_folded (folded : Folded first second) : Aside first second := by
  obtain ⟨working, operand, mind⟩ := folded.mind
  exact ⟨⟨{ first.mind.registers with working := working, operand := operand }, first.mind.vars,
    mind⟩, folded.world, folded.calls⟩

/-- A state is beside itself. -/
theorem refl (s : RunState) : Aside s s := of_folded (.refl s)

/-- Steps aside make a step aside. -/
theorem trans (left : Aside first second) (right : Aside second third) : Aside first third := by
  obtain ⟨_, _, leftMind⟩ := left.mind
  obtain ⟨registers, vars, rightMind⟩ := right.mind
  obtain ⟨_, leftWorld⟩ := left.world
  obtain ⟨seed, rightWorld⟩ := right.world
  refine ⟨⟨registers, vars, ?_⟩, ⟨seed, ?_⟩, right.calls.trans left.calls⟩
  · rw [rightMind, leftMind]
    rfl
  · rw [rightWorld, leftWorld]

private theorem goto (s : RunState) (offset : Nat) : Aside s (s.goto offset) :=
  ⟨⟨{ s.mind.registers with counter := offset }, s.mind.vars, rfl⟩, ⟨s.world.seed, rfl⟩, rfl⟩

private theorem report (s : RunState) (script : Script) (offset : Nat) (defect : Defect) :
    Aside s (s.report script offset defect) := of_folded (.report s script offset defect)

private theorem jump (s : RunState) (script : Script) (offset : Nat) (label : UInt32) :
    Aside s (s.jump script offset label) := by
  unfold RunState.jump
  split
  · exact goto s _
  · exact (report s script offset _).trans (goto _ _)

private theorem store (s : RunState) (script : Script) (offset : Nat) (slot : UInt8) :
    Aside s (s.store script offset slot) := by
  unfold RunState.store
  split
  · rename_i v _
    split
    · refine ⟨⟨s.mind.registers, (s.mind.write v s.mind.working).vars, ?_⟩,
        ⟨s.world.seed, rfl⟩, rfl⟩
      cases v <;> rfl
    · exact report s script offset _
  · exact report s script offset _

private theorem assign (s : RunState) (script : Script) (offset : Nat) (slot terms : UInt8) :
    Aside s (s.assign script offset slot terms) := by
  have folded := of_folded ((Folded.zero s).trans (.foldTerms script terms.toNat (offset + 1) _))
  unfold RunState.assign
  dsimp only
  split
  · rename_i next after same
    rw [same] at folded
    exact (folded.trans (store after script offset slot)).trans (goto _ _)
  · rename_i missing next after _ same
    rw [same] at folded
    exact (folded.trans (report after script offset _)).trans (goto _ _)

private theorem follow (s : RunState) (script : Script) (offset : Nat) (label : Option UInt32)
    (signal : Signal) : Aside s (s.follow script offset label signal).2 := by
  unfold RunState.follow
  split
  · exact goto s _
  · split
    · exact jump s script offset _
    · exact goto s _
  · exact refl s

end Aside

/-- A word that dispatches nothing moves registers, temporaries and random numbers alone. -/
theorem step_of_none (machine : Machine) (script : Script) (none : s.dispatched? word = none) :
    Aside s (s.step machine script word).2 := by
  unfold dispatched? at none
  unfold step
  cases decoded : Instruction.decode word with
  | error cause => exact (Aside.report s script _ _).trans (Aside.goto _ _)
  | ok instruction =>
      rw [decoded] at none
      cases instruction with
      | call index label =>
          have unknown : Builtin.ofIndex? index = .none := Option.map_eq_none_iff.mp none
          simp only [execute, unknown]
          exact (Aside.report s script _ _).trans (Aside.goto _ _)
      | jump label => exact Aside.jump s script _ label
      | assign slot terms => exact Aside.assign s script _ slot terms
      | term op operand => exact (Aside.report s script _ _).trans (Aside.goto _ _)

/-- A word that dispatches an operation leaves what the operation leaves, apart from the
registers. -/
theorem step_of_some (machine : Machine) (script : Script) {d : Dispatch}
    (some : s.dispatched? word = some d) :
    d.mind = s.mind ∧ d.world = s.world ∧ ∃ after : RunState,
      after.mind = d.reply.mind ∧ after.world = d.reply.world ∧
      after.journal.calls =
        (if machine.recordsCalls then s.journal.calls.push d.record else s.journal.calls) ∧
      Aside after (s.step machine script word).2 := by
  unfold dispatched? at some
  cases decoded : Instruction.decode word with
  | error cause => simp [decoded] at some
  | ok instruction =>
      rw [decoded] at some
      cases instruction with
      | call index label =>
          obtain ⟨b, known, rfl⟩ := Option.map_eq_some_iff.mp some
          refine ⟨rfl, rfl, (s.dispatch machine b).2, rfl, rfl, rfl, ?_⟩
          simp only [step, decoded, execute, known]
          exact Aside.follow _ script _ label _
      | jump label | assign slot terms | term op operand => cases some

end RunState

namespace Machine

variable {machine : Machine} {script : Script} {s : RunState}

/-- The operations that a run dispatches from a state on, in order. -/
def dispatchesFrom (machine : Machine) (script : Script) : (left : Nat) → RunState → List Dispatch
  | 0, _ => []
  | left + 1, s =>
      match script.words[s.mind.counter]? with
      | none => []
      | some word =>
          (s.dispatched? word).toList ++
            match s.step machine script word with
            | (true, _) => []
            | (false, s) => dispatchesFrom machine script left s

/-- The operations that a run dispatches. -/
def dispatches (machine : Machine) (script : Script) (s : RunState) : List Dispatch :=
  machine.dispatchesFrom script machine.ceiling (started s)

/-- What a run dispatches is dispatched in a state that it reaches. -/
theorem exists_reaches_of_mem {left : Nat} {d : Dispatch}
    (member : d ∈ machine.dispatchesFrom script left s) :
    ∃ n here word, machine.Reaches script n s here ∧ here.dispatched? word = some d := by
  induction left generalizing s with
  | zero => cases member
  | succ left ih =>
      rw [dispatchesFrom] at member
      cases fetched : script.words[s.mind.counter]? with
      | none => simp [fetched] at member
      | some word =>
          rw [fetched] at member
          dsimp only at member
          rcases List.mem_append.mp member with here | later
          · exact ⟨0, s, word, .refl s, Option.mem_toList.mp here⟩
          · rcases carried : s.step machine script word with ⟨_ | _, next⟩
            · rw [carried] at later
              obtain ⟨n, here, word, reaches, dispatched⟩ := ih later
              exact ⟨n + 1, here, word, .step fetched carried reaches, dispatched⟩
            · rw [carried] at later
              cases later

/-- A view of mind and world that follows what operations do and sees nothing else change. -/
structure View (α : Type) where
  look : Mind → World → α
  act : α → Dispatch → α
  aside : ∀ mind world registers vars seed,
    look { mind.withRegisters registers with vars := vars } { world with seed := seed } =
      look mind world
  acts : ∀ d : Dispatch, look d.reply.mind d.reply.world = act (look d.mind d.world) d

namespace View

variable {α : Type} (view : View α)

private theorem look_aside {s s' : RunState} (aside : RunState.Aside s s') :
    view.look s'.mind s'.world = view.look s.mind s.world := by
  obtain ⟨registers, vars, mind⟩ := aside.mind
  obtain ⟨seed, world⟩ := aside.world
  rw [mind, world, view.aside]

private theorem look_step (machine : Machine) (script : Script) (s : RunState) (word : UInt32) :
    view.look (s.step machine script word).2.mind (s.step machine script word).2.world =
      (s.dispatched? word).toList.foldl view.act (view.look s.mind s.world) := by
  cases dispatched : s.dispatched? word with
  | none => exact view.look_aside (RunState.step_of_none machine script dispatched)
  | some d =>
      obtain ⟨mind, world, after, afterMind, afterWorld, _, aside⟩ :=
        RunState.step_of_some machine script dispatched
      rw [view.look_aside aside, afterMind, afterWorld, view.acts, mind, world]
      rfl

end View

/-- **A run does to a view what its operations do**, one after the other. -/
theorem runFrom_view {α : Type} (view : View α) (left : Nat) (s : RunState) :
    view.look (machine.runFrom script left s).2.mind (machine.runFrom script left s).2.world =
      (machine.dispatchesFrom script left s).foldl view.act (view.look s.mind s.world) := by
  have finish (s : RunState) (phase : Phase) :
      view.look (s.finish phase).mind (s.finish phase).world = view.look s.mind s.world :=
    view.look_aside ⟨⟨{ s.mind.registers with phase := phase, counter := 0 }, s.mind.vars, rfl⟩,
      ⟨s.world.seed, rfl⟩, rfl⟩
  induction left generalizing s with
  | zero =>
      rw [runFrom, dispatchesFrom]
      split <;> exact finish s _
  | succ left ih =>
      rw [runFrom, dispatchesFrom]
      cases fetched : script.words[s.mind.counter]? with
      | none => exact finish s _
      | some word =>
          have carried := view.look_step machine script s word
          dsimp only
          rw [List.foldl_append, ← carried]
          rcases s.step machine script word with ⟨_ | _, next⟩
          · exact ih next
          · exact finish next _

/-- What is seen of a run is what is seen of its operations, one after the other. -/
theorem run_view {α : Type} (view : View α) (machine : Machine) (script : Script) (s : RunState) :
    view.look (machine.run script s).2.mind (machine.run script s).2.world =
      (machine.dispatches script s).foldl view.act (view.look s.mind s.world) := by
  have begun : view.look (started s).mind (started s).world = view.look s.mind s.world :=
    view.look_aside ⟨⟨{ s.mind.registers with counter := 0, phase := .running }, s.mind.vars, rfl⟩,
      ⟨s.world.seed, rfl⟩, rfl⟩
  rw [run_eq, runFrom_view, begun]
  rfl

/-- The recorded calls with those of further dispatches behind them. -/
def recorded (machine : Machine) (calls : Array CallRecord) (dispatches : List Dispatch) :
    Array CallRecord :=
  if machine.recordsCalls then calls ++ (dispatches.map Dispatch.record).toArray else calls

private theorem recorded_nil (machine : Machine) (calls : Array CallRecord) :
    machine.recorded calls [] = calls := by
  unfold recorded
  split <;> simp

private theorem recorded_append (machine : Machine) (calls : Array CallRecord)
    (front back : List Dispatch) :
    machine.recorded calls (front ++ back) =
      machine.recorded (machine.recorded calls front) back := by
  unfold recorded
  split <;> simp

private theorem calls_step (machine : Machine) (script : Script) (s : RunState) (word : UInt32) :
    (s.step machine script word).2.journal.calls =
      machine.recorded s.journal.calls (s.dispatched? word).toList := by
  cases dispatched : s.dispatched? word with
  | none =>
      rw [(RunState.step_of_none machine script dispatched).calls, Option.toList_none, recorded_nil]
  | some d =>
      obtain ⟨_, _, after, _, _, calls, aside⟩ :=
        RunState.step_of_some machine script dispatched
      rw [aside.calls, calls, Option.toList_some, recorded]
      split <;> simp

/-- The calls that a run records are those of the operations that it dispatches. -/
theorem runFrom_calls (left : Nat) (s : RunState) :
    (machine.runFrom script left s).2.journal.calls =
      machine.recorded s.journal.calls (machine.dispatchesFrom script left s) := by
  induction left generalizing s with
  | zero =>
      rw [runFrom, dispatchesFrom, recorded_nil]
      split <;> rfl
  | succ left ih =>
      rw [runFrom, dispatchesFrom]
      cases fetched : script.words[s.mind.counter]? with
      | none => exact (recorded_nil machine _).symm
      | some word =>
          have carried := calls_step machine script s word
          dsimp only
          rw [recorded_append, ← carried]
          rcases s.step machine script word with ⟨_ | _, next⟩
          · exact ih next
          · exact (recorded_nil machine _).symm

/-- A run adds the calls that it dispatches to the record. -/
theorem run_calls (machine : Machine) (script : Script) (s : RunState) :
    (machine.run script s).2.journal.calls =
      machine.recorded s.journal.calls (machine.dispatches script s) := by
  rw [run_eq, runFrom_calls]
  rfl

end Machine
end NpcScript
