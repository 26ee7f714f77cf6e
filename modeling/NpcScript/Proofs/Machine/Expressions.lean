import NpcScript.Machine
import NpcScript.Proofs.Script.Boundary

/-! # Expressions in a run

An assignment folds the operands behind it, one after the other, until it has as
many as it expects or there is a word that is no operand
(`NpcScript.Script.operandsAt`). Whatever the operands are, this moves two
registers and the state of the random numbers and leaves the rest of mind and
world as it is (`NpcScript.RunState.Folded`).
-/

namespace NpcScript

/-- Whether a word is an operand. -/
def Instruction.isOperand (word : UInt32) : Bool :=
  match decode word with
  | .ok (.term _ _) => true
  | _ => false

/-- The number of operands that stand one behind the other from an offset on, out of at most the
given number of words. -/
def Script.operandsAt (script : Script) (offset most : Nat) : Nat :=
  (((script.words.toList.drop offset).take most).takeWhile Instruction.isOperand).length

namespace Script

variable {script : Script} {offset : Nat}

/-- No more operands are counted than are asked for. -/
theorem operandsAt_le (script : Script) (offset most : Nat) :
    script.operandsAt offset most ≤ most :=
  Nat.le_trans (List.takeWhile_prefix _).length_le (List.length_take_le _ _)

/-- An operand counts in front of those behind it. -/
theorem operandsAt_succ_of_has {op : Operator} {operand : Operand} (most : Nat)
    (head : script.Has offset (.term op operand)) :
    script.operandsAt offset (most + 1) = script.operandsAt (offset + 1) most + 1 := by
  obtain ⟨word, fetched, decoded⟩ := head
  have isOperand : Instruction.isOperand word := by simp [Instruction.isOperand, decoded]
  rw [← Array.getElem?_toList] at fetched
  unfold operandsAt
  rw [List.drop_eq_getElem?_toList_append, fetched, Option.toList_some, List.singleton_append,
    List.take_succ_cons, List.takeWhile_cons_of_pos isOperand, List.length_cons]

/-- Where no operand stands none is counted. -/
theorem operandsAt_of_not_has (most : Nat)
    (other : ∀ op operand, ¬script.Has offset (.term op operand)) :
    script.operandsAt offset most = 0 := by
  unfold operandsAt
  rw [List.drop_eq_getElem?_toList_append]
  cases most with
  | zero => rfl
  | succ most =>
      cases fetched : script.words.toList[offset]? with
      | none =>
          have outside := List.getElem?_eq_none_iff.mp fetched
          simp [List.drop_eq_nil_of_le (Nat.le_succ_of_le outside)]
      | some word =>
          have noOperand : ¬Instruction.isOperand word := by
            unfold Instruction.isOperand
            split
            · rename_i op operand decoded
              exact (other op operand ⟨word, by rwa [← Array.getElem?_toList], decoded⟩).elim
            · simp
          rw [Option.toList_some, List.singleton_append, List.take_succ_cons,
            List.takeWhile_cons_of_neg noOperand, List.length_nil]

end Script

namespace RunState

variable {script : Script} {offset : Nat}

/-- An operand is folded in front of those behind it. -/
theorem foldTerms_succ_of_has {op : Operator} {operand : Operand} (missing : Nat) (s : RunState)
    (head : script.Has offset (.term op operand)) :
    foldTerms script (missing + 1) offset s =
      foldTerms script missing (offset + 1) (s.foldTerm script offset op operand) := by
  obtain ⟨word, fetched, decoded⟩ := head
  rw [foldTerms, fetched, Option.map_some, decoded]

/-- Where no operand stands nothing is folded. -/
theorem foldTerms_of_not_has (missing : Nat) (s : RunState)
    (other : ∀ op operand, ¬script.Has offset (.term op operand)) :
    foldTerms script missing offset s = (missing, offset, s) := by
  cases missing with
  | zero => rfl
  | succ missing =>
      unfold foldTerms
      split
      · rename_i op operand found
        exact (other op operand (Option.map_eq_some_iff.mp found)).elim
      · rfl

/-- An assignment finds the operands that stand behind it, and goes on behind them. -/
theorem foldTerms_operands (script : Script) (most offset : Nat) (s : RunState) :
    (foldTerms script most offset s).1 = most - script.operandsAt offset most ∧
      (foldTerms script most offset s).2.1 = offset + script.operandsAt offset most := by
  induction most generalizing offset s with
  | zero => exact ⟨rfl, rfl⟩
  | succ most ih =>
      by_cases term : ∃ op operand, script.Has offset (.term op operand)
      · obtain ⟨op, operand, head⟩ := term
        obtain ⟨missing, next⟩ := ih (offset + 1) (s.foldTerm script offset op operand)
        rw [foldTerms_succ_of_has most s head, script.operandsAt_succ_of_has most head, missing,
          next]
        omega
      · have other := fun op operand head => term ⟨op, operand, head⟩
        rw [foldTerms_of_not_has _ s other, script.operandsAt_of_not_has _ other]
        exact ⟨rfl, rfl⟩

/-- Two states that differ in nothing but what folding an expression moves. -/
structure Folded (s s' : RunState) : Prop where
  mind : ∃ working operand, s'.mind = { s.mind with working := working, operand := operand }
  world : ∃ seed, s'.world = { s.world with seed := seed }
  calls : s'.journal.calls = s.journal.calls

namespace Folded

variable {first second third : RunState}

/-- Nothing has been folded between a state and itself. -/
theorem refl (s : RunState) : Folded s s :=
  ⟨⟨s.mind.working, s.mind.operand, rfl⟩, ⟨s.world.seed, rfl⟩, rfl⟩

/-- Folding twice is folding. -/
theorem trans (left : Folded first second) (right : Folded second third) : Folded first third := by
  obtain ⟨_, _, leftMind⟩ := left.mind
  obtain ⟨working, operand, rightMind⟩ := right.mind
  obtain ⟨_, leftWorld⟩ := left.world
  obtain ⟨seed, rightWorld⟩ := right.world
  refine ⟨⟨working, operand, ?_⟩, ⟨seed, ?_⟩, right.calls.trans left.calls⟩
  · rw [rightMind, leftMind]
  · rw [rightWorld, leftWorld]

/-- An expression begins with zero. -/
theorem zero (s : RunState) : Folded s { s with mind := { s.mind with working := 0 } } :=
  ⟨⟨0, s.mind.operand, rfl⟩, ⟨s.world.seed, rfl⟩, rfl⟩

/-- A report changes nothing but the defects of the journal. -/
theorem report (s : RunState) (script : Script) (offset : Nat) (defect : Defect) :
    Folded s (s.report script offset defect) := by
  refine ⟨⟨s.mind.working, s.mind.operand, rfl⟩, ⟨s.world.seed, rfl⟩, ?_⟩
  unfold RunState.report Journal.report
  dsimp only
  split <;> rfl

private theorem fold (s : RunState) (op : Operator) (value : Int32) : Folded s (s.fold op value) :=
  ⟨⟨op.apply s.mind.working value, value, rfl⟩, ⟨s.world.seed, rfl⟩, rfl⟩

private theorem read (s : RunState) (v : Variable) :
    Folded s { s with world := (s.mind.read s.world v).2 } := by
  refine ⟨⟨s.mind.working, s.mind.operand, rfl⟩, ?_, rfl⟩
  unfold Mind.read
  dsimp only
  split
  · exact ⟨_, rfl⟩
  · exact ⟨s.world.seed, rfl⟩

private theorem foldTerm (s : RunState) (script : Script) (offset : Nat) (op : Operator)
    (operand : Operand) : Folded s (s.foldTerm script offset op operand) := by
  unfold RunState.foldTerm
  split
  · exact fold s _ _
  · split
    · exact (read s _).trans (fold _ _ _)
    · exact (report s script offset _).trans (fold _ _ _)

/-- The operands of an assignment move nothing but what folding moves. -/
theorem foldTerms (script : Script) (missing offset : Nat) (s : RunState) :
    Folded s (RunState.foldTerms script missing offset s).2.2 := by
  induction missing generalizing offset s with
  | zero => exact refl s
  | succ missing ih =>
      unfold RunState.foldTerms
      split
      · exact (foldTerm s script offset _ _).trans (ih _ _)
      · exact refl s

end Folded
end RunState
end NpcScript
