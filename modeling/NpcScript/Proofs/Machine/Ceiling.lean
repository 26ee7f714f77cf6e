import NpcScript.Proofs.Machine.Dispatches
import NpcScript.Proofs.Machine.Forward

/-! # The ceiling only cuts runs short

A run comes to its end in one of three ways: inside its script with all its
instructions used up, behind the last word, or at an instruction that halts it
(`NpcScript.Machine.Ends`). How it gets there does not depend on how many more
instructions it might have carried out. So a run with a higher ceiling ends as
the one with the lower ceiling, unless that one is suspended, and then it goes on
from there (`NpcScript.Machine.run_of_ceiling_le`).
-/

namespace NpcScript

/-- The state that a run leaves its script in. -/
def Outcome.phase : Outcome → Phase
  | .completed => .idle
  | .halted => .terminated
  | .suspended => .suspended

namespace Machine

variable {machine : Machine} {script : Script} {s last : RunState} {n left executed : Nat}
variable {outcome : Outcome}

/-- How a run that may carry out so many instructions ends, and how many it has carried out. -/
inductive Ends (machine : Machine) (script : Script) (left : Nat) (s : RunState) :
    (executed : Nat) → Outcome → RunState → Prop where
  | suspended {last : RunState} (reaches : machine.Reaches script left s last)
      (inside : last.mind.counter < script.words.size) :
      Ends machine script left s left .suspended last
  | completed {n : Nat} {last : RunState} (few : n ≤ left)
      (reaches : machine.Reaches script n s last)
      (outside : script.words.size ≤ last.mind.counter) :
      Ends machine script left s n .completed last
  | halted {n : Nat} {last : RunState} (few : n + 1 ≤ left)
      (halts : machine.Halts script n s last) :
      Ends machine script left s (n + 1) .halted last

/-- Every run ends in one of these ways. -/
theorem exists_ends (machine : Machine) (script : Script) (left : Nat) (s : RunState) :
    ∃ executed outcome last, machine.Ends script left s executed outcome last := by
  induction left generalizing s with
  | zero =>
      rcases Nat.lt_or_ge s.mind.counter script.words.size with inside | outside
      · exact ⟨_, _, _, .suspended (.refl s) inside⟩
      · exact ⟨_, _, _, .completed (Nat.le_refl 0) (.refl s) outside⟩
  | succ left ih =>
      cases fetched : script.words[s.mind.counter]? with
      | none =>
          have outside := Array.getElem?_eq_none_iff.mp fetched
          exact ⟨_, _, _, .completed (Nat.zero_le _) (.refl s) outside⟩
      | some word =>
          rcases carried : s.step machine script word with ⟨_ | _, next⟩
          · obtain ⟨executed, outcome, last, ends⟩ := ih next
            cases ends with
            | suspended reaches inside =>
                exact ⟨_, _, _, .suspended (.step fetched carried reaches) inside⟩
            | completed few reaches outside =>
                exact ⟨_, _, _, .completed (Nat.succ_le_succ few) (.step fetched carried reaches)
                  outside⟩
            | halted few halts =>
                obtain ⟨before, word', reaches, here, halting⟩ := halts
                exact ⟨_, _, _, .halted (Nat.succ_le_succ few)
                  ⟨before, word', .step fetched carried reaches, here, halting⟩⟩
          · exact ⟨_, _, _, .halted (Nat.succ_pos left)
              ⟨s, word, .refl s, fetched, carried⟩⟩

/-- A run with more instructions to carry out goes on if it was suspended, and ends just so if it
was not. -/
theorem Ends.runFrom_add (ends : machine.Ends script left s executed outcome last) (more : Nat) :
    machine.runFrom script (left + more) s =
      if outcome = .suspended then machine.runFrom script more last
      else (outcome, last.finish outcome.phase) := by
  cases ends with
  | suspended reaches inside => exact reaches.runFrom more
  | completed few reaches outside =>
      obtain ⟨rest, rfl⟩ := Nat.exists_eq_add_of_le few
      rw [Nat.add_assoc, reaches.runFrom, runFrom_of_size_le outside]
      rfl
  | halted few halts =>
      obtain ⟨rest, rfl⟩ := Nat.exists_eq_add_of_le few
      rw [Nat.add_assoc, halts.runFrom]
      rfl

/-- A run that ends within its steps has the outcome it ends with. -/
theorem Ends.runFrom (ends : machine.Ends script left s executed outcome last) :
    machine.runFrom script left s = (outcome, last.finish outcome.phase) := by
  have whole := ends.runFrom_add 0
  rw [Nat.add_zero] at whole
  cases ends with
  | suspended reaches inside => rw [whole, if_pos rfl, Machine.runFrom, if_pos inside]; rfl
  | completed | halted => exact whole

/-! ## The number of instructions -/

private theorem offsetsFrom_of_size_le (outside : script.words.size ≤ s.mind.counter) (left : Nat) :
    machine.offsetsFrom script left s = [] := by
  cases left with
  | zero => rfl
  | succ left => rw [offsetsFrom, Array.getElem?_eq_none outside]

private theorem Reaches.length_offsetsFrom (reaches : machine.Reaches script n s last)
    (left : Nat) :
    (machine.offsetsFrom script (n + left) s).length =
      n + (machine.offsetsFrom script left last).length := by
  induction reaches with
  | refl => rw [Nat.zero_add, Nat.zero_add]
  | step fetched ongoing _ ih =>
      rw [Nat.add_right_comm, offsetsFrom, fetched]
      simp only [ongoing, List.length_cons, ih]
      omega

/-- The instructions that a run has carried out at its end are those at its offsets. -/
theorem Ends.length_offsetsFrom (ends : machine.Ends script left s executed outcome last) :
    (machine.offsetsFrom script left s).length = executed ∧ executed ≤ left := by
  cases ends with
  | suspended reaches inside => exact ⟨reaches.length_offsetsFrom 0, Nat.le_refl _⟩
  | completed few reaches outside =>
      refine ⟨?_, few⟩
      obtain ⟨rest, rfl⟩ := Nat.exists_eq_add_of_le few
      rw [reaches.length_offsetsFrom, offsetsFrom_of_size_le outside, List.length_nil, Nat.add_zero]
  | halted few halts =>
      refine ⟨?_, few⟩
      obtain ⟨rest, rfl⟩ := Nat.exists_eq_add_of_le few
      obtain ⟨before, word, reaches, fetched, halting⟩ := halts
      rw [Nat.add_assoc, reaches.length_offsetsFrom, Nat.add_comm 1, offsetsFrom, fetched]
      simp only [halting, List.length_singleton]

/-! ## Two ceilings -/

/-- A run records its calls behind those that are there. -/
theorem calls_prefix_runFrom (machine : Machine) (script : Script) (left : Nat) (s : RunState) :
    s.journal.calls.toList <+: (machine.runFrom script left s).2.journal.calls.toList := by
  rw [runFrom_calls, recorded]
  split
  · rw [Array.toList_append]
    exact List.prefix_append _ _
  · exact List.prefix_rfl

/-- The ceiling counts for nothing but the number of instructions to carry out. -/
theorem runFrom_of_ceiling (records : Bool) (low high left : Nat) (s : RunState) :
    runFrom ⟨high, records⟩ script left s = runFrom ⟨low, records⟩ script left s := by
  induction left generalizing s with
  | zero => rfl
  | succ left ih =>
      have carried (word : UInt32) :
          s.step ⟨high, records⟩ script word = s.step ⟨low, records⟩ script word := rfl
      simp only [runFrom, carried, ih]

/-- **The ceiling only cuts runs short.** A run that is not suspended ends in the same way with any
higher ceiling. One that is suspended has carried out as many instructions as its ceiling allows,
still stands inside its script, and has recorded the first of the calls that it records with a
higher ceiling. In any case no more instructions are carried out than the ceiling allows, the next
run begins at the first word, and the phase tells how this one ended. -/
theorem run_of_ceiling_le (script : Script) (s : RunState) (records : Bool) {low high : Nat}
    (le : low ≤ high) :
    let machine : Machine := ⟨low, records⟩
    let short := machine.run script s
    let long := Machine.run ⟨high, records⟩ script s
    let executed := (machine.offsets script s).length
    (short.1 ≠ .suspended → long = short) ∧
      (short.1 = .suspended → executed = low ∧
        (∃ last, machine.Reaches script low (started s) last ∧
          last.mind.counter < script.words.size ∧ short.2 = last.finish .suspended) ∧
        short.2.journal.calls.toList <+: long.2.journal.calls.toList) ∧
      executed ≤ low ∧ short.2.mind.counter = 0 ∧ short.2.mind.phase = short.1.phase := by
  intro machine short long executed
  obtain ⟨count, outcome, last, ends⟩ := exists_ends machine script low (started s)
  have shortEnds : short = (outcome, last.finish outcome.phase) := ends.runFrom
  obtain ⟨counted, few⟩ := ends.length_offsetsFrom
  obtain ⟨more, rfl⟩ := Nat.exists_eq_add_of_le le
  have longEnds : long = if outcome = .suspended then machine.runFrom script more last
      else (outcome, last.finish outcome.phase) := by
    rw [← ends.runFrom_add more]
    exact runFrom_of_ceiling records low (low + more) (low + more) (started s)
  refine ⟨?_, ?_, ?_, ?_, ?_⟩
  · rw [shortEnds]
    intro notSuspended
    rw [longEnds, if_neg notSuspended]
  · rw [shortEnds]
    rintro rfl
    rw [longEnds, if_pos rfl]
    have recorded := calls_prefix_runFrom machine script more last
    cases ends with
    | suspended reaches inside => exact ⟨counted, ⟨last, reaches, inside, rfl⟩, recorded⟩
  · exact Nat.le_trans (Nat.le_of_eq counted) few
  · rw [shortEnds]
    rfl
  · rw [shortEnds]
    rfl

/-- A call and a jump back to it, which never come to an end by themselves. -/
def endlessScript : Script := ⟨"endless", #[0x10000007, 0x20000000], #[0], 1, .empty⟩

/-- With three steps the endless script is suspended at its beginning, and five steps only record
further calls. -/
theorem run_of_ceiling_le_endless :
    let s : RunState := ⟨.empty, .spawned ⟨0⟩, .empty⟩
    let machine : Machine := ⟨3, true⟩
    let short := machine.run endlessScript s
    let long := Machine.run ⟨5, true⟩ endlessScript s
    3 ≤ 5 ∧ short.1 = .suspended ∧ (machine.offsets endlessScript s).length = 3 ∧
      (∃ last, machine.Reaches endlessScript 3 (started s) last ∧
        last.mind.counter < endlessScript.words.size ∧ short.2 = last.finish .suspended) ∧
      short.2.journal.calls.toList <+: long.2.journal.calls.toList ∧
      short.2.mind.counter = 0 ∧ short.2.mind.phase = .suspended := by
  intro s machine short long
  have le : 3 ≤ 5 := by decide
  have suspended : short.1 = .suspended := by decide +kernel
  obtain ⟨_, whenSuspended, _, counter, phase⟩ := run_of_ceiling_le endlessScript s true le
  obtain ⟨executed, stands, recorded⟩ := whenSuspended suspended
  rw [suspended] at phase
  exact ⟨le, suspended, executed, stands, recorded, counter, phase⟩

end Machine
end NpcScript
