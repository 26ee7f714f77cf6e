import NpcScript.Machine

/-! # How runs go on

A run goes from one state to the next by carrying out the instruction at its
counter, until it halts, leaves the words of its script, or has used up its
instructions. `NpcScript.Machine.Reaches` counts the instructions that a run
carries out on the way from one state to another.
-/

namespace NpcScript.Machine

variable {machine : Machine} {script : Script} {s s' s'' : RunState} {m n : Nat}

/-- A run goes from one state to another in the given number of instructions. -/
inductive Reaches (machine : Machine) (script : Script) : Nat → RunState → RunState → Prop where
  | refl (s : RunState) : Reaches machine script 0 s s
  | step {word : UInt32} {n : Nat} {s next last : RunState}
      (fetched : script.words[s.mind.counter]? = some word)
      (ongoing : s.step machine script word = (false, next))
      (behind : Reaches machine script n next last) : Reaches machine script (n + 1) s last

/-- A run goes from one state to another in the given number of instructions and one more, which
ends it. -/
def Halts (machine : Machine) (script : Script) (n : Nat) (s last : RunState) : Prop :=
  ∃ before word, machine.Reaches script n s before ∧
    script.words[before.mind.counter]? = some word ∧
    before.step machine script word = (true, last)

/-- A step that goes on is a run of one instruction. -/
theorem Reaches.single {word : UInt32} (fetched : script.words[s.mind.counter]? = some word)
    (ongoing : s.step machine script word = (false, s')) : machine.Reaches script 1 s s' :=
  .step fetched ongoing (.refl s')

/-- A run goes on behind a run. -/
theorem Reaches.trans (left : machine.Reaches script m s s')
    (right : machine.Reaches script n s' s'') : machine.Reaches script (m + n) s s'' := by
  induction left with
  | refl => rwa [Nat.zero_add]
  | step fetched ongoing _ ih =>
      rw [Nat.add_right_comm]
      exact .step fetched ongoing (ih right)

/-- A run that is ended behind a run is ended after the instructions of both. -/
theorem Reaches.halts (left : machine.Reaches script m s s')
    (right : machine.Halts script n s' s'') : machine.Halts script (m + n) s s'' := by
  obtain ⟨before, word, reaches, fetched, halting⟩ := right
  exact ⟨before, word, left.trans reaches, fetched, halting⟩

/-- A run goes on from every state that it reaches. -/
theorem Reaches.runFrom (reaches : machine.Reaches script n s s') (left : Nat) :
    machine.runFrom script (n + left) s = machine.runFrom script left s' := by
  induction reaches with
  | refl => rw [Nat.zero_add]
  | step fetched ongoing _ ih =>
      rw [Nat.add_right_comm, Machine.runFrom, fetched]
      simp only [ongoing]
      exact ih

/-- A run that is halted ends so, however many steps are left to it. -/
theorem Halts.runFrom (halts : machine.Halts script n s s') (left : Nat) :
    machine.runFrom script (n + 1 + left) s = (.halted, s'.finish .terminated) := by
  obtain ⟨before, word, reaches, fetched, halting⟩ := halts
  rw [Nat.add_assoc, reaches.runFrom, Nat.add_comm 1 left, Machine.runFrom, fetched]
  simp only [halting]

/-- A run ends behind the last word. -/
theorem runFrom_of_size_le (outside : script.words.size ≤ s.mind.counter) (left : Nat) :
    machine.runFrom script left s = (.completed, s.finish .idle) := by
  cases left with
  | zero => rw [Machine.runFrom, if_neg (Nat.not_lt.mpr outside)]
  | succ left => rw [Machine.runFrom, Array.getElem?_eq_none outside]

/-! ## Whole runs -/

/-- The state in which a run begins. -/
def started (s : RunState) : RunState :=
  { s with mind := { s.mind with counter := 0, phase := .running } }

/-- A run begins with its first instruction, and has the steps that the ceiling gives. -/
theorem run_eq (machine : Machine) (script : Script) (s : RunState) :
    machine.run script s = machine.runFrom script machine.ceiling (started s) := rfl

/-- What every step keeps, a run keeps up to its end. -/
theorem runFrom_keeps {P : RunState → Prop}
    (step : ∀ s word, P s → script.words[s.mind.counter]? = some word →
      P (s.step machine script word).2) (left : Nat) (holds : P s) :
    ∃ last phase, P last ∧ (machine.runFrom script left s).2 = last.finish phase := by
  induction left generalizing s with
  | zero =>
      rw [Machine.runFrom]
      split
      · exact ⟨s, _, holds, rfl⟩
      · exact ⟨s, _, holds, rfl⟩
  | succ left ih =>
      rw [Machine.runFrom]
      cases fetched : script.words[s.mind.counter]? with
      | none => exact ⟨s, _, holds, rfl⟩
      | some word =>
          have after := step s word holds fetched
          dsimp only
          rcases carried : s.step machine script word with ⟨_ | _, next⟩
          · rw [carried] at after
            exact ih after
          · rw [carried] at after
            exact ⟨next, _, after, rfl⟩

/-- What every step keeps holds in every state that is reached. -/
theorem Reaches.keeps {P : RunState → Prop}
    (step : ∀ s word, P s → script.words[s.mind.counter]? = some word →
      P (s.step machine script word).2)
    (reaches : machine.Reaches script n s s') (holds : P s) : P s' := by
  induction reaches with
  | refl => exact holds
  | step fetched ongoing _ ih =>
      have after := step _ _ holds fetched
      rw [ongoing] at after
      exact ih after

/-- Runs a script in one state after the other, and keeps the journal. -/
def runs (machine : Machine) (script : Script) (journal : Journal)
    (states : List (Mind × World)) : Journal :=
  states.foldl
    (fun journal (mind, world) => (machine.run script ⟨journal, mind, world⟩).2.journal) journal

end NpcScript.Machine
