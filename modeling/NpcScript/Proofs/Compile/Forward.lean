import NpcScript.Proofs.Compile.Correctness
import NpcScript.Proofs.Machine.Forward

/-! # Compiled scripts run forward

A block that is laid out in front of an onward offset begins at one: the label
of a call names the end of its block or the beginning of the `Else`, and that of
an `Else` the end of its own block, all of which stand behind them
(`NpcScript.Script.LaysOut.onward`). So a run of a compiled script never goes
back (`NpcScript.Script.run_forward`).
-/

namespace NpcScript.Script

variable {script : Script} {block : Block} {start stop : Nat}

/-- The terms of a block can be read. -/
theorem HasTerms.known {terms : List Term} (fits : ∀ term ∈ terms, term.Fits)
    (present : script.HasTerms start terms) :
    ∀ i < terms.length, ∃ op operand, script.Has (start + i) (.term op operand) ∧
      operand.Known := by
  intro i inside
  exact ⟨_, _, present i inside, (fits _ (List.getElem_mem inside)).operand_known⟩

/-- A call without a label goes on behind itself. -/
theorem Onward.call {b : Builtin} (head : script.Has start (.call b.index none))
    (behind : script.Onward (start + 1)) : script.Onward start := by
  refine .step head ⟨⟨b, b.ofIndex?_index⟩, by simp⟩ ?_ ?_
  · rintro _ ⟨⟩
    exact Nat.lt_succ_self start
  · rintro _ ⟨⟩
    exact behind

/-- A call with a label goes on behind itself or at the label. -/
theorem Onward.guarded {b : Builtin} {label : UInt32} {target : Nat}
    (head : script.Has start (.call b.index (some label)))
    (names : script.labelOffset? label = some target) (later : start < target)
    (body : script.Onward (start + 1)) (behind : script.Onward target) :
    script.Onward start := by
  have defined : ∀ l ∈ some label, ∃ target, script.labelOffset? l = some target := by
    rintro _ ⟨⟩
    exact ⟨target, names⟩
  refine .step head ⟨⟨b, b.ofIndex?_index⟩, defined⟩ ?_ ?_
  · rintro _ (_ | same)
    · exact Nat.lt_succ_self start
    · cases names.symm.trans same
      exact later
  · rintro _ (_ | same)
    · exact body
    · cases names.symm.trans same
      exact behind

/-- A jump goes on at its label. -/
theorem Onward.jump {label : UInt32} {target : Nat} (head : script.Has start (.jump label))
    (names : script.labelOffset? label = some target) (later : start < target)
    (next : script.Onward (start + 1)) (behind : script.Onward target) : script.Onward start := by
  refine .step head ⟨target, names⟩ ?_ ?_
  · rintro _ (_ | _ | same)
    · exact Nat.lt_succ_self start
    · cases names.symm.trans same
      exact later
  · rintro _ (_ | _ | same)
    · exact next
    · cases names.symm.trans same
      exact behind

/-- An assignment goes on behind its terms. -/
theorem Onward.assign {target : Variable} {terms : List Term} (writable : target.isWritable)
    (few : terms.length ≤ Statement.maxTerms) (fits : ∀ term ∈ terms, term.Fits)
    (head : script.Has start (.assign target.slot terms.length.toUInt8))
    (tail : script.HasTerms (start + 1) terms)
    (behind : script.Onward (start + 1 + terms.length)) : script.Onward start := by
  have count : terms.length.toUInt8.toNat = terms.length :=
    UInt8.toNat_ofNat_of_lt' (Nat.lt_succ_of_le few)
  have fit : script.Fit start (.assign target.slot terms.length.toUInt8) := by
    refine ⟨⟨target, target.ofSlot?_slot, writable⟩, ?_⟩
    rw [count]
    exact tail.known fits
  have stop : start + (Instruction.assign target.slot terms.length.toUInt8).width =
      start + 1 + terms.length := by
    rw [Instruction.width, count, Nat.add_assoc]
  refine .step head fit ?_ ?_
  · rintro _ ⟨⟩
    omega
  · rintro _ ⟨⟩
    rw [stop]
    exact behind

/-- **A block that is laid out in front of an onward offset begins at one.** -/
theorem LaysOut.onward (laid : script.LaysOut block start stop) (behind : script.Onward stop) :
    script.Onward start := by
  induction laid with
  | done => exact behind
  | assign writable few fits head tail rest ih =>
      exact .assign writable few fits head tail (ih behind)
  | call head rest ih => exact .call head (ih behind)
  | guarded head below marked rest ihBelow ihRest =>
      have next := ihRest behind
      exact .guarded head marked (Nat.lt_of_succ_le below.le) (ihBelow next) next
  | branch head below leaving marked belowElse markedPast rest ihBelow ihElse ihRest =>
      have next := ihRest behind
      have alternative := ihElse next
      have atJump :=
        Onward.jump leaving markedPast (Nat.lt_of_succ_le belowElse.le) alternative next
      exact .guarded head marked (Nat.lt_succ_of_lt (Nat.lt_of_succ_le below.le))
        (ihBelow atJump) alternative

/-- **A compiled script runs forward.** The offsets of the instructions that a run carries out
increase strictly, so they are no more than the words of the script; no defect is reported; and a
run that may carry out that many instructions ends by itself. -/
theorem run_forward {name source : String} {symbols : SymbolTable}
    (compiled : compileSource name source symbols = .ok script)
    (small : script.words.size < UInt32.size) (machine : Machine) (s : RunState) :
    let offsets := machine.offsets script s
    let ran := machine.run script s
    offsets.Pairwise (· < ·) ∧ offsets.length ≤ script.words.size ∧
      s.journal.Quiet ran.2.journal ∧
      (script.words.size ≤ machine.ceiling → ran.1 ≠ .suspended) := by
  obtain ⟨accepts, rfl⟩ := compileSource_eq_ok compiled
  have laid := laysOut_ofClauses (fun _ => Line.known_of_mem_group) accepts small
  have onward := laid.onward .last
  obtain ⟨increasing, within⟩ :=
    Machine.offsetsFrom_forward (s := Machine.started s) machine machine.ceiling onward
  refine ⟨increasing, ?_, ?_, ?_⟩
  · exact Machine.length_le_of_forward increasing fun offset member => (within offset member).2
  · exact Machine.runFrom_quiet (s := Machine.started s) machine.ceiling onward
  · intro enough
    exact Machine.runFrom_ne_suspended (s := Machine.started s) machine.ceiling onward
      (by simpa [Machine.started] using enough)

/-- A guard with an `Else` in a block that ends with the script, so that three blocks end at one
place. -/
def nestedText : String :=
  "IfSpawned\n  IfKilled\n    tmpx = 1\n  Else\n    IfSpawned\n      tmpx = 2 + tmpx"

/-- A run of the script goes through its blocks forward and is not suspended. -/
theorem run_forward_nested :
    ∃ script, compileSource "nested" nestedText .standard = .ok script ∧
      script.words.size < UInt32.size ∧
      (let s : RunState := ⟨.empty, .spawned ⟨0⟩, .empty⟩
       let offsets := Machine.offsets ⟨9, false⟩ script s
       let ran := Machine.run ⟨9, false⟩ script s
       offsets.Pairwise (· < ·) ∧ offsets.length ≤ script.words.size ∧
         s.journal.Quiet ran.2.journal ∧ (script.words.size ≤ 9 → ran.1 ≠ .suspended)) := by
  have size : (compileSource "nested" nestedText .standard).toOption.map (·.words.size) =
      some 9 := by
    decide +kernel
  cases compiled : compileSource "nested" nestedText .standard with
  | error diagnostics =>
      rw [compiled] at size
      cases size
  | ok script =>
      rw [compiled] at size
      have nine : script.words.size = 9 := Option.some.inj size
      have small : script.words.size < UInt32.size := by rw [nine]; decide
      exact ⟨script, rfl, small, run_forward compiled small ⟨9, false⟩ _⟩

end NpcScript.Script
