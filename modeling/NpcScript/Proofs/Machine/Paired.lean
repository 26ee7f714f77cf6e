import NpcScript.Proofs.Machine.Reach

/-! # Runs side by side

Two runs of a script go the same way, word by word, if some relation between their
states puts them at the same place, lets them read the same values and lets the
operations that they dispatch reply alike, and is kept by all of that
(`NpcScript.Machine.Pairing.run`). Journals are no part of it: what has been
recorded and reported sways no run.
-/

namespace NpcScript.Machine

/-- A relation between the states of two runs of a script which keeps them side by side. -/
structure Pairing (script : Script) where
  rel : RunState → RunState → Prop
  counter {s s' : RunState} : rel s s' → s'.mind.counter = s.mind.counter
  journals {s s' : RunState} (journal journal' : Journal) : rel s s' →
    rel { s with journal := journal } { s' with journal := journal' }
  goto {s s' : RunState} (offset : Nat) : rel s s' → rel (s.goto offset) (s'.goto offset)
  finish {s s' : RunState} (phase : Phase) : rel s s' → rel (s.finish phase) (s'.finish phase)
  /-- An expression begins with zero, whatever was left of the last one. -/
  zero {s s' : RunState} : rel s s' →
    rel { s with mind := { s.mind with working := 0 } }
      { s' with mind := { s'.mind with working := 0 } }
  fold {s s' : RunState} (op : Operator) (value : Int32) : rel s s' →
    rel (s.fold op value) (s'.fold op value)
  write {s s' : RunState} (v : Variable) (value : Int32) : rel s s' →
    rel { s with mind := s.mind.write v value } { s' with mind := s'.mind.write v value }
  reads {s s' : RunState} {word : UInt32} {op : Operator} {slot : UInt8} {v : Variable} :
    rel s s' → word ∈ script.words → Instruction.decode word = .ok (.term op (.var slot)) →
      Variable.ofSlot? slot = some v →
      (s'.mind.read s'.world v).1 = (s.mind.read s.world v).1 ∧
        rel { s with world := (s.mind.read s.world v).2 }
          { s' with world := (s'.mind.read s'.world v).2 }
  calls {s s' : RunState} {word : UInt32} {index : UInt16} {label : Option UInt32} {b : Builtin} :
    rel s s' → word ∈ script.words → Instruction.decode word = .ok (.call index label) →
      Builtin.ofIndex? index = some b →
      (b.perform s'.mind s'.world).signal = (b.perform s.mind s.world).signal ∧
        rel { s with mind := (b.perform s.mind s.world).mind
                     world := (b.perform s.mind s.world).world }
          { s' with mind := (b.perform s'.mind s'.world).mind
                    world := (b.perform s'.mind s'.world).world }

namespace Pairing

variable {script : Script} (pairing : Pairing script) {s s' : RunState}

private theorem report (offset : Nat) (defect : Defect) (paired : pairing.rel s s') :
    pairing.rel (s.report script offset defect) (s'.report script offset defect) :=
  pairing.journals _ _ paired

private theorem jump (offset : Nat) (label : UInt32) (paired : pairing.rel s s') :
    pairing.rel (s.jump script offset label) (s'.jump script offset label) := by
  unfold RunState.jump
  split
  · exact pairing.goto _ paired
  · exact pairing.goto _ (pairing.report offset _ paired)

/-! ### Expressions -/

/-- Two runs side by side in the midst of an expression, which has the same value in both. -/
structure Within (s s' : RunState) : Prop where
  rel : pairing.rel s s'
  working : s'.mind.working = s.mind.working

variable {pairing}

private theorem Within.fold (within : pairing.Within s s') (op : Operator) (value : Int32) :
    pairing.Within (s.fold op value) (s'.fold op value) where
  rel := pairing.fold op value within.rel
  working := congrArg (op.apply · value) within.working

private theorem Within.foldTerm (within : pairing.Within s s') {word : UInt32} {op : Operator}
    {operand : Operand} (inside : word ∈ script.words)
    (decoded : Instruction.decode word = .ok (.term op operand)) (offset : Nat) :
    pairing.Within (s.foldTerm script offset op operand)
      (s'.foldTerm script offset op operand) := by
  cases operand with
  | constant value => exact within.fold op value
  | var slot =>
      cases known : Variable.ofSlot? slot with
      | none =>
          simp only [RunState.foldTerm, known]
          exact Within.fold ⟨pairing.report offset _ within.rel, within.working⟩ _ _
      | some v =>
          obtain ⟨same, after⟩ := pairing.reads within.rel inside decoded known
          simp only [RunState.foldTerm, known, same]
          exact Within.fold ⟨after, within.working⟩ _ _

/-- Both runs find the same terms. -/
theorem Within.foldTerms (within : pairing.Within s s') (missing offset : Nat) :
    (RunState.foldTerms script missing offset s').1 =
        (RunState.foldTerms script missing offset s).1 ∧
      (RunState.foldTerms script missing offset s').2.1 =
        (RunState.foldTerms script missing offset s).2.1 ∧
      pairing.Within (RunState.foldTerms script missing offset s).2.2
        (RunState.foldTerms script missing offset s').2.2 := by
  induction missing generalizing offset s s' with
  | zero => exact ⟨rfl, rfl, within⟩
  | succ missing ih =>
      unfold RunState.foldTerms
      split
      · rename_i op operand found
        obtain ⟨word, fetched, decoded⟩ := Option.map_eq_some_iff.mp found
        exact ih (within.foldTerm (Array.mem_of_getElem? fetched) decoded offset) _
      · exact ⟨rfl, rfl, within⟩

private theorem Within.store (within : pairing.Within s s') (offset : Nat) (slot : UInt8) :
    pairing.rel (s.store script offset slot) (s'.store script offset slot) := by
  unfold RunState.store
  rw [within.working]
  split
  · split
    · exact pairing.write _ _ within.rel
    · exact pairing.report offset _ within.rel
  · exact pairing.report offset _ within.rel

variable (pairing)

private theorem assign (offset : Nat) (slot terms : UInt8) (paired : pairing.rel s s') :
    pairing.rel (s.assign script offset slot terms) (s'.assign script offset slot terms) := by
  have begun : pairing.Within { s with mind := { s.mind with working := 0 } }
      { s' with mind := { s'.mind with working := 0 } } := ⟨pairing.zero paired, rfl⟩
  obtain ⟨missing, next, folded⟩ := begun.foldTerms terms.toNat (offset + 1)
  unfold RunState.assign
  dsimp only
  generalize RunState.foldTerms script terms.toNat (offset + 1) _ = result at missing next folded ⊢
  generalize RunState.foldTerms script terms.toNat (offset + 1) _ = result' at missing next folded ⊢
  obtain ⟨left, behind, t⟩ := result
  obtain ⟨left', behind', t'⟩ := result'
  dsimp only at missing next
  subst missing next
  cases left with
  | zero => exact pairing.goto _ (folded.store offset slot)
  | succ left => exact pairing.goto _ (pairing.report offset _ folded.rel)

/-! ### Instructions -/

private theorem follow (offset : Nat) (label : Option UInt32) (signal : Signal)
    (paired : pairing.rel s s') :
    (s'.follow script offset label signal).1 = (s.follow script offset label signal).1 ∧
      pairing.rel (s.follow script offset label signal).2
        (s'.follow script offset label signal).2 := by
  cases signal with
  | proceed => exact ⟨rfl, pairing.goto _ paired⟩
  | halt => exact ⟨rfl, paired⟩
  | skip =>
      cases label with
      | none => exact ⟨rfl, pairing.goto _ paired⟩
      | some label => exact ⟨rfl, pairing.jump offset label paired⟩

/-- **One word.** The runs stay side by side, and both end or none does. -/
theorem step (machine machine' : Machine) {word : UInt32} (inside : word ∈ script.words)
    (paired : pairing.rel s s') :
    (s'.step machine' script word).1 = (s.step machine script word).1 ∧
      pairing.rel (s.step machine script word).2 (s'.step machine' script word).2 := by
  unfold RunState.step
  rw [pairing.counter paired]
  cases decoded : Instruction.decode word with
  | error cause => exact ⟨rfl, pairing.goto _ (pairing.report _ _ paired)⟩
  | ok instruction =>
      cases instruction with
      | call index label =>
          simp only [RunState.execute]
          cases known : Builtin.ofIndex? index with
          | none => exact ⟨rfl, pairing.goto _ (pairing.report _ _ paired)⟩
          | some b =>
              obtain ⟨signal, after⟩ := pairing.calls paired inside decoded known
              simp only [RunState.dispatch, signal]
              exact pairing.follow _ label _ (pairing.journals _ _ after)
      | jump label => exact ⟨rfl, pairing.jump _ label paired⟩
      | assign slot terms => exact ⟨rfl, pairing.assign _ slot terms paired⟩
      | term op operand => exact ⟨rfl, pairing.goto _ (pairing.report _ _ paired)⟩

/-! ### Runs -/

private theorem runFrom (machine machine' : Machine) (left : Nat) (paired : pairing.rel s s') :
    (machine'.runFrom script left s').1 = (machine.runFrom script left s).1 ∧
      pairing.rel (machine.runFrom script left s).2 (machine'.runFrom script left s').2 := by
  induction left generalizing s s' with
  | zero =>
      rw [Machine.runFrom, Machine.runFrom, pairing.counter paired]
      split <;> exact ⟨rfl, pairing.finish _ paired⟩
  | succ left ih =>
      rw [Machine.runFrom, Machine.runFrom, pairing.counter paired]
      cases fetched : script.words[s.mind.counter]? with
      | none => exact ⟨rfl, pairing.finish _ paired⟩
      | some word =>
          obtain ⟨ended, after⟩ :=
            pairing.step machine machine' (Array.mem_of_getElem? fetched) paired
          dsimp only
          generalize s.step machine script word = carried at ended after ⊢
          generalize s'.step machine' script word = carried' at ended after ⊢
          obtain ⟨_, next⟩ := carried
          obtain ⟨ends, next'⟩ := carried'
          dsimp only at ended
          subst ended
          cases ends with
          | false => exact ih after
          | true => exact ⟨rfl, pairing.finish _ after⟩

/-- **Runs side by side** end in the same way, and their ends are related. -/
theorem run {machine machine' : Machine} (ceiling : machine'.ceiling = machine.ceiling)
    (begun : pairing.rel (started s) (started s')) :
    (machine'.run script s').1 = (machine.run script s).1 ∧
      pairing.rel (machine.run script s).2 (machine'.run script s').2 := by
  rw [run_eq, run_eq, ceiling]
  exact pairing.runFrom machine machine' machine.ceiling begun

end Pairing
end NpcScript.Machine
