import Mathlib.Data.List.Perm.Subperm
import NpcScript.Proofs.Machine.Safety

/-! # Runs that only go forward

An offset is onward if there is a fit instruction, everywhere that it leads lies
further behind, and all of that is onward too; the end of the script is onward.
The offsets of a run are those of the states that it reaches
(`NpcScript.Machine.offsetsFrom_getElem?_iff`). A run from an onward offset never
comes back (`NpcScript.Machine.offsetsFrom_forward`), so it needs no more
instructions than there are words (`NpcScript.Machine.runFrom_ne_suspended`).
-/

namespace NpcScript

/-- From an offset, every way through the script leads forward to its end. -/
inductive Script.Onward (script : Script) : Nat → Prop where
  | last : Onward script script.words.size
  | step {offset : Nat} {instruction : Instruction} (head : script.Has offset instruction)
      (fit : script.Fit offset instruction)
      (later : ∀ target, script.Leads offset instruction target → offset < target)
      (behind : ∀ target, script.Leads offset instruction target → Onward script target) :
      Onward script offset

variable {machine : Machine} {script : Script} {s next : RunState}

/-- A step from an onward offset reports nothing and leads to an onward offset, which is a later
one if the run goes on. -/
theorem RunState.step_onward {word : UInt32} {ended : Bool}
    (onward : script.Onward s.mind.counter)
    (fetched : script.words[s.mind.counter]? = some word)
    (carried : s.step machine script word = (ended, next)) :
    s.journal.Quiet next.journal ∧ script.Onward next.mind.counter ∧
      (ended = false → s.mind.counter < next.mind.counter) := by
  generalize here : s.mind.counter = offset at onward
  cases onward with
  | last =>
      obtain ⟨inside, _⟩ := Array.getElem?_eq_some_iff.mp fetched
      omega
  | step head fit later behind =>
      subst here
      have stays := Script.Onward.step head fit later behind
      obtain ⟨same, fetched', decoded⟩ := head
      rw [fetched] at fetched'
      cases fetched'
      obtain ⟨quiet, leads⟩ := execute_fit s machine fit
      simp only [step, decoded] at carried
      simp only [carried] at quiet leads
      cases ended with
      | true => exact ⟨quiet, by rwa [leads], by simp⟩
      | false => exact ⟨quiet, behind _ leads, fun _ => later _ leads⟩

namespace Machine

/-- The offsets of the instructions that a run carries out from a state on, in order. -/
def offsetsFrom (machine : Machine) (script : Script) : (left : Nat) → RunState → List Nat
  | 0, _ => []
  | left + 1, s =>
      match script.words[s.mind.counter]? with
      | none => []
      | some word =>
          s.mind.counter ::
            match s.step machine script word with
            | (true, _) => []
            | (false, s) => offsetsFrom machine script left s

/-- The offsets of the instructions that a run carries out. -/
def offsets (machine : Machine) (script : Script) (s : RunState) : List Nat :=
  machine.offsetsFrom script machine.ceiling (started s)

/-- The offset in a given place is where the run stands after so many instructions. -/
theorem offsetsFrom_getElem?_iff {left n offset : Nat} :
    (machine.offsetsFrom script left s)[n]? = some offset ↔
      n < left ∧ offset < script.words.size ∧
        ∃ here, machine.Reaches script n s here ∧ here.mind.counter = offset := by
  induction left generalizing s n with
  | zero => simp [offsetsFrom]
  | succ left ih =>
      rw [offsetsFrom]
      cases fetched : script.words[s.mind.counter]? with
      | none =>
          have outside := Array.getElem?_eq_none_iff.mp fetched
          constructor
          · simp
          · rintro ⟨_, inside, here, reaches, rfl⟩
            cases reaches with
            | refl => omega
            | step fetched' => cases fetched.symm.trans fetched'
      | some word =>
          obtain ⟨inside, _⟩ := Array.getElem?_eq_some_iff.mp fetched
          cases n with
          | zero =>
              constructor
              · rintro ⟨⟩
                exact ⟨Nat.succ_pos left, inside, s, .refl s, rfl⟩
              · rintro ⟨_, _, here, reaches, rfl⟩
                cases reaches
                rfl
          | succ n =>
              dsimp only
              rw [List.getElem?_cons_succ]
              rcases carried : s.step machine script word with ⟨_ | _, next⟩
              · rw [ih, Nat.succ_lt_succ_iff]
                refine and_congr_right fun _ => and_congr_right fun _ => exists_congr fun here => ?_
                refine and_congr_left fun _ => ⟨.step fetched carried, ?_⟩
                intro reaches
                cases reaches with
                | step fetched' ongoing behind =>
                    cases fetched.symm.trans fetched'
                    cases carried.symm.trans ongoing
                    exact behind
              · constructor
                · simp
                · rintro ⟨_, _, here, reaches, rfl⟩
                  cases reaches with
                  | step fetched' ongoing behind =>
                      cases fetched.symm.trans fetched'
                      cases carried.symm.trans ongoing

/-- **A run from an onward offset never comes back.** -/
theorem offsetsFrom_forward (machine : Machine) (left : Nat)
    (onward : script.Onward s.mind.counter) :
    (machine.offsetsFrom script left s).Pairwise (· < ·) ∧
      ∀ offset ∈ machine.offsetsFrom script left s,
        s.mind.counter ≤ offset ∧ offset < script.words.size := by
  induction left generalizing s with
  | zero => simp [offsetsFrom]
  | succ left ih =>
      rw [offsetsFrom]
      cases fetched : script.words[s.mind.counter]? with
      | none => simp
      | some word =>
          obtain ⟨inside, _⟩ := Array.getElem?_eq_some_iff.mp fetched
          dsimp only
          rcases carried : s.step machine script word with ⟨_ | _, next⟩
          · obtain ⟨_, behind, later⟩ := RunState.step_onward onward fetched carried
            replace later := later rfl
            obtain ⟨increasing, within⟩ := ih behind
            refine ⟨List.pairwise_cons.mpr ⟨?_, increasing⟩, ?_⟩
            · intro offset member
              exact Nat.lt_of_lt_of_le later (within offset member).1
            · rintro offset (_ | ⟨_, member⟩)
              · exact ⟨Nat.le_refl _, inside⟩
              · have := within offset member
                exact ⟨Nat.le_of_lt (Nat.lt_of_lt_of_le later this.1), this.2⟩
          · simpa using inside

/-- Increasing offsets within a script are no more than its words. -/
theorem length_le_of_forward {offsets : List Nat} {size : Nat}
    (increasing : offsets.Pairwise (· < ·)) (within : ∀ offset ∈ offsets, offset < size) :
    offsets.length ≤ size := by
  have distinct : offsets.Nodup := increasing.imp Nat.ne_of_lt
  have among : offsets ⊆ List.range size := fun offset member =>
    List.mem_range.mpr (within offset member)
  simpa using (distinct.subperm among).length_le

/-- A run that only leads onward reports no defect. -/
theorem runFrom_quiet (left : Nat) (onward : script.Onward s.mind.counter) :
    s.journal.Quiet (machine.runFrom script left s).2.journal := by
  have keeps (before : RunState) (word : UInt32)
      (holds : s.journal.Quiet before.journal ∧ script.Onward before.mind.counter)
      (fetched : script.words[before.mind.counter]? = some word) :
      s.journal.Quiet (before.step machine script word).2.journal ∧
        script.Onward (before.step machine script word).2.mind.counter := by
    obtain ⟨quiet, behind, _⟩ := RunState.step_onward holds.2 fetched rfl
    exact ⟨holds.1.trans quiet, behind⟩
  obtain ⟨last, phase, ⟨quiet, _⟩, ends⟩ := runFrom_keeps keeps left ⟨.refl s.journal, onward⟩
  rw [ends]
  exact quiet

/-- A run from an onward offset ends by itself if it may carry out as many instructions as there
are words left. -/
theorem runFrom_ne_suspended (left : Nat) (onward : script.Onward s.mind.counter)
    (enough : script.words.size ≤ s.mind.counter + left) :
    (machine.runFrom script left s).1 ≠ .suspended := by
  induction left generalizing s with
  | zero =>
      rw [runFrom_of_size_le enough]
      simp
  | succ left ih =>
      rw [runFrom]
      cases fetched : script.words[s.mind.counter]? with
      | none => simp
      | some word =>
          dsimp only
          rcases carried : s.step machine script word with ⟨_ | _, next⟩
          · obtain ⟨_, behind, later⟩ := RunState.step_onward onward fetched carried
            replace later := later rfl
            exact ih behind (by omega)
          · simp

end Machine
end NpcScript
