import NpcScript.Proofs.Builtin.Frame
import NpcScript.Proofs.Machine.Reach
import NpcScript.Proofs.Script.Verify

/-! # Verified scripts are safe

A run of a sound script stays at boundaries: wherever it is, there is an
instruction that is fit to be carried out, or the script ends there. Carrying
out a fit instruction reports nothing and leads to a boundary again, whatever
the operations that are dispatched reply. So no run of a script that passes
verification has a defect (`NpcScript.Machine.runs_verified`).
-/

namespace NpcScript

/-- The defects among the notes. -/
def Journal.defects (journal : Journal) : List MachineNote :=
  journal.notes.toList.filter fun note =>
    match note with
    | .defect _ _ _ => true
    | .debug _ => false

/-- No defect has been reported since. -/
structure Journal.Quiet (before after : Journal) : Prop where
  reported : after.reported = before.reported
  defects : after.defects = before.defects

namespace Journal.Quiet

variable {first second third : Journal}

/-- A journal is quiet about itself. -/
theorem refl (journal : Journal) : journal.Quiet journal := ⟨rfl, rfl⟩

/-- A journal that is quiet twice is quiet. -/
theorem trans (left : first.Quiet second) (right : second.Quiet third) : first.Quiet third :=
  ⟨right.reported.trans left.reported, right.defects.trans left.defects⟩

private theorem dispatched (journal : Journal) (recordsCalls : Bool) (record : CallRecord)
    (note : Option DebugNote) : journal.Quiet (journal.dispatched recordsCalls record note) := by
  refine ⟨rfl, ?_⟩
  unfold Journal.dispatched Journal.defects
  cases note with
  | none => rfl
  | some note => simp

end Journal.Quiet

namespace RunState

variable {machine : Machine} {script : Script} {s : RunState} {offset : Nat}

/-- A run of a sound script at a boundary, without a defect since it began. -/
structure Safe (script : Script) (journal : Journal) (s : RunState) : Prop where
  boundary : script.Boundary s.mind.counter
  quiet : journal.Quiet s.journal

private theorem foldTerm_known {op : Operator} {operand : Operand} (known : operand.Known) :
    (s.foldTerm script offset op operand).journal = s.journal := by
  cases operand with
  | constant value => rfl
  | var slot =>
      obtain ⟨v, known⟩ := known
      simp only [foldTerm, known]
      rfl

/-- All terms that are there and known are folded, and nothing is reported. -/
theorem foldTerms_known {count : Nat}
    (present : ∀ i < count, ∃ op operand, script.Has (offset + i) (.term op operand) ∧
      operand.Known) :
    ∃ s', foldTerms script count offset s = (0, offset + count, s') ∧ s'.journal = s.journal := by
  induction count generalizing offset s with
  | zero => exact ⟨s, rfl, rfl⟩
  | succ count ih =>
      obtain ⟨op, operand, ⟨word, fetched, decoded⟩, known⟩ := present 0 (Nat.zero_lt_succ _)
      have behind : ∀ i < count, ∃ op operand,
          script.Has (offset + 1 + i) (.term op operand) ∧ operand.Known := fun i inside => by
        rw [Nat.add_assoc, Nat.add_comm 1]
        exact present (i + 1) (Nat.succ_lt_succ inside)
      obtain ⟨s', folded, same⟩ := ih (s := s.foldTerm script offset op operand) behind
      refine ⟨s', ?_, same.trans (foldTerm_known known)⟩
      rw [Nat.add_zero] at fetched
      rw [foldTerms, fetched, Option.map_some, decoded]
      simp only []
      rw [folded, Nat.add_assoc, Nat.add_comm 1]

/-- A fit assignment stores its value, reports nothing, and goes on behind its terms. -/
theorem assign_fit {slot terms : UInt8} (fit : script.Fit offset (.assign slot terms)) :
    (s.assign script offset slot terms).journal = s.journal ∧
      (s.assign script offset slot terms).mind.counter =
        offset + (Instruction.assign slot terms).width := by
  obtain ⟨⟨v, known, writable⟩, present⟩ := fit
  obtain ⟨s', folded, same⟩ :=
    foldTerms_known (s := { s with mind := { s.mind with working := 0 } }) present
  unfold assign
  simp only [folded, store, known, if_pos writable]
  exact ⟨same, Nat.add_assoc _ _ _⟩

private theorem jump_fit {label : UInt32} {target : Nat}
    (known : script.labelOffset? label = some target) :
    s.jump script offset label = s.goto target := by
  simp only [jump, known]

/-- Whatever an operation replies, the run is still where it called it, and nothing is reported. -/
theorem dispatch_quiet (s : RunState) (machine : Machine) (b : Builtin) :
    (s.dispatch machine b).2.mind.counter = s.mind.counter ∧
      s.journal.Quiet (s.dispatch machine b).2.journal :=
  ⟨congrArg Registers.counter (b.perform_registers s.mind s.world), .dispatched _ _ _ _⟩

/-- What a fit instruction does to a run: nothing is reported, and the run goes on where the
instruction leads, unless it ends there. -/
theorem execute_fit (s : RunState) (machine : Machine) {instruction : Instruction}
    (fit : script.Fit s.mind.counter instruction) :
    let carried := s.execute machine script s.mind.counter instruction
    s.journal.Quiet carried.2.journal ∧
      if carried.1 then carried.2.mind.counter = s.mind.counter
      else script.Leads s.mind.counter instruction carried.2.mind.counter := by
  cases instruction with
  | call index label =>
      obtain ⟨⟨b, known⟩, defined⟩ := fit
      obtain ⟨counter, quiet⟩ := dispatch_quiet s machine b
      simp only [execute, known]
      generalize s.dispatch machine b = reply at counter quiet
      obtain ⟨signal, after⟩ := reply
      unfold follow
      cases signal with
      | proceed => exact ⟨quiet, .next⟩
      | halt => exact ⟨quiet, counter⟩
      | skip =>
          cases label with
          | none => exact ⟨quiet, .next⟩
          | some label =>
              obtain ⟨target, names⟩ := defined label rfl
              simp only [jump_fit names]
              exact ⟨quiet, .skip names⟩
  | jump label =>
      obtain ⟨target, names⟩ := fit
      simp only [execute, jump_fit names]
      exact ⟨.refl s.journal, .jump names⟩
  | assign slot terms =>
      obtain ⟨journal, counter⟩ := assign_fit (s := s) fit
      simp only [execute, journal, counter]
      exact ⟨.refl s.journal, .next⟩
  | term op operand => exact fit.elim

/-- **One step of a sound script.** A fit instruction reports nothing and leads to a boundary. -/
theorem execute_safe (machine : Machine) {journal : Journal} {instruction : Instruction}
    (sound : script.Sound) (safe : s.Safe script journal)
    (head : script.Has s.mind.counter instruction) (fit : script.Fit s.mind.counter instruction) :
    (s.execute machine script s.mind.counter instruction).2.Safe script journal := by
  obtain ⟨quiet, leads⟩ := execute_fit s machine fit
  refine ⟨?_, safe.quiet.trans quiet⟩
  split at leads
  · rw [leads]
    exact safe.boundary
  · exact sound.boundary_of_leads safe.boundary head leads

private theorem step_safe {journal : Journal} (sound : script.Sound) (s : RunState) (word : UInt32)
    (safe : s.Safe script journal) (fetched : script.words[s.mind.counter]? = some word) :
    (s.step machine script word).2.Safe script journal := by
  rcases sound.fit _ safe.boundary with outside | ⟨instruction, head, fit⟩
  · obtain ⟨inside, _⟩ := Array.getElem?_eq_some_iff.mp fetched
    omega
  · have safeAfter := execute_safe machine sound safe head fit
    obtain ⟨same, fetched', decoded⟩ := head
    rw [fetched] at fetched'
    cases fetched'
    rw [step, decoded]
    exact safeAfter

end RunState

namespace Machine

variable {script : Script}

/-- A run of a sound script reports nothing. -/
theorem run_sound (machine : Machine) (sound : script.Sound) (s : RunState) :
    s.journal.Quiet (machine.run script s).2.journal := by
  have safe : (started s).Safe script s.journal := ⟨.first, .refl s.journal⟩
  obtain ⟨last, phase, safeLast, ends⟩ :=
    runFrom_keeps (RunState.step_safe sound) machine.ceiling safe
  rw [run_eq, ends]
  exact safeLast.quiet

/-- **Verified scripts are safe.** Wherever a run of a script that passes verification gets to,
there is an instruction that is fit to be carried out, or the script ends there; and no run
reports a defect, whatever minds, worlds and replies there are. -/
theorem runs_verified (accepted : script.verify = .ok ()) (machine : Machine) :
    (∀ s n s', machine.Reaches script n (started s) s' →
      script.Boundary s'.mind.counter ∧
        (s'.mind.counter = script.words.size ∨
          ∃ instruction, script.Has s'.mind.counter instruction ∧
            script.Fit s'.mind.counter instruction)) ∧
      ∀ (journal : Journal) (states : List (Mind × World)),
        journal.Quiet (machine.runs script journal states) := by
  have sound := Script.sound_of_verify accepted
  refine ⟨?_, ?_⟩
  · intro s n s' reaches
    have safe : (started s).Safe script s.journal := ⟨.first, .refl s.journal⟩
    have boundary := (reaches.keeps (RunState.step_safe sound) safe).boundary
    exact ⟨boundary, sound.fit _ boundary⟩
  · intro journal states
    induction states generalizing journal with
    | nil => exact .refl journal
    | cons state states ih =>
        exact (machine.run_sound sound ⟨journal, state.1, state.2⟩).trans (ih _)

/-- A script whose only call owns a block with an assignment. -/
def guardScript : Script :=
  ⟨"guard", #[0x10001010, 0x30000101, 0x50000005, 0x10000001], #[3], 2, .empty⟩

/-- The guard is accepted, so none of its runs reports a defect. -/
theorem runs_verified_guard :
    guardScript.verify = .ok () ∧
      (∀ s n s', Machine.Reaches ⟨4096, true⟩ guardScript n (started s) s' →
        guardScript.Boundary s'.mind.counter ∧
          (s'.mind.counter = guardScript.words.size ∨
            ∃ instruction, guardScript.Has s'.mind.counter instruction ∧
              guardScript.Fit s'.mind.counter instruction)) ∧
      ∀ (journal : Journal) (states : List (Mind × World)),
        journal.Quiet (Machine.runs ⟨4096, true⟩ guardScript journal states) :=
  have accepted : guardScript.verify = .ok () := rfl
  ⟨accepted, runs_verified accepted ⟨4096, true⟩⟩

end Machine
end NpcScript
