import NpcScript.Proofs.Block.Assigned
import NpcScript.Proofs.Script.Boundary

/-! # What a statement tells about its tokens

The target of an assignment is read only if it is a variable, but an operand is
read from any number that could be a slot. So the variables on a line exist if
those in its terms do (`NpcScript.Statement.known_of_ofLine`).
-/

namespace NpcScript

/-- A token that names no variable is known. -/
theorem Token.Known.of_ne_var {token : Token} (other : ∀ slot, token.kind ≠ .var slot) :
    token.Known := fun slot kind => absurd kind (other slot)

private theorem Variable.toNat_slot_of_ofSlot? {slot : UInt8} {v : Variable}
    (held : Variable.ofSlot? slot = some v) : v.slot.toNat = slot.toNat := by
  have places : ∀ i : Fin Variable.all.length, Variable.all[i].slot.toNat = i := by decide
  obtain ⟨inside, rfl⟩ := List.getElem?_eq_some_iff.mp held
  exact places ⟨slot.toNat, inside⟩

namespace Statement

/-- A number stands for one slot, and it is the number of the slot. -/
theorem toInt_of_slot? {n : Int32} {slot : UInt8} (read : slot? n = some slot) :
    n.toInt = slot.toNat := by
  obtain ⟨i, index, rest⟩ := Option.bind_eq_some_iff.mp read
  unfold index? at index
  split at index
  · cases index
  · rename_i nonneg
    split at rest
    · rename_i small
      cases index
      cases rest
      have least : 0 ≤ n.toInt := by simpa [Int32.lt_iff_toInt_lt] using nonneg
      rw [UInt8.toNat_ofNat_of_lt' small]
      exact (Int.toNat_of_nonneg least).symm
    · cases rest

/-- A number that stands for the slot of a variable names the variable. -/
theorem eq_of_slot? {n : Int32} {slot : UInt8} {v : Variable} (read : slot? n = some slot)
    (held : Variable.ofSlot? slot = some v) : n = v.slot.toUInt32.toInt32 := by
  have number : v.slot.toUInt32.toInt32.toInt = v.slot.toNat := by cases v <;> rfl
  apply Int32.toInt.inj
  rw [toInt_of_slot? read, number, Variable.toNat_slot_of_ofSlot? held]

variable {token : Token} {tokens : List Token} {done read : List Term}
variable {errors : List CompileError}

private theorem known_of_operand {operand : Operand} (ok : Statement.operand token = .ok operand)
    (known : operand.Known) : token.Known := by
  intro slot kind
  simp only [Statement.operand, kind] at ok
  split at ok
  · rename_i place number
    cases ok
    obtain ⟨v, held⟩ := known
    exact ⟨v, eq_of_slot? number held⟩
  · cases ok

/-- Terms that have been read stay. -/
theorem mem_of_mem_done (ok : terms tokens done errors = .ok read) :
    ∀ term ∈ done, term ∈ read := by
  fun_induction terms tokens done errors
  case case1 =>
    cases ok
    simp
  case case5 ih =>
    intro term member
    exact ih ok term (List.mem_cons_of_mem _ member)
  case case9 token done errors rest first operand readOperand _ _ _ isOperand ih =>
    obtain rfl : done = [] := by simpa using first
    simp
  case case6 ih | case10 ih => exact ih ok
  all_goals cases ok

/-- If the variables in the terms exist, so do those among the tokens that they were read from. -/
theorem known_of_terms (ok : terms tokens done errors = .ok read)
    (known : ∀ term ∈ read, term.operand.Known) : ∀ token ∈ tokens, token.Known := by
  fun_induction terms tokens done errors
  case case1 => simp
  case case5 token done errors op next rest isOperator isOperand operand readOperand ih =>
    have kept := mem_of_mem_done ok ⟨op, operand⟩ (by simp)
    refine List.forall_mem_cons.mpr ⟨?_, List.forall_mem_cons.mpr ⟨?_, ih ok⟩⟩
    · exact Token.Known.of_ne_var (by simp [isOperator])
    · exact known_of_operand readOperand (known _ kept)
  case case9 token done errors rest first operand readOperand _ _ _ isOperand ih =>
    have kept := mem_of_mem_done ok ⟨.add, operand⟩ (by simp)
    exact List.forall_mem_cons.mpr ⟨known_of_operand readOperand (known _ kept), ih ok⟩
  case case6 error readOperand ih | case10 error readOperand ih =>
    exact absurd (terms_errors ok) (by simp)
  all_goals cases ok

private theorem known_of_expression {sign : Token} (ok : expression sign tokens = .ok read)
    (known : ∀ term ∈ read, term.operand.Known) : ∀ token ∈ tokens, token.Known := by
  unfold expression at ok
  split at ok
  · cases ok
  · split at ok
    · cases ok
    · rename_i readTerms
      split at ok
      · cases ok
        exact known_of_terms readTerms known
      · cases ok

/-- **The variables on a line** exist if those in its terms do. -/
theorem known_of_ofLine {line : Line} {st : Statement} (reading : ofLine line = .ok st)
    (known : ∀ term ∈ st.assigned, term.operand.Known) : ∀ token ∈ line.tokens, token.Known := by
  obtain ⟨_, ⟨index, kind, asCall⟩ | ⟨slot, kind, asAssignment⟩⟩ := ofLine_eq_ok reading
  · -- a call stands alone
    obtain ⟨b, _, alone, _⟩ := ofCall_eq_ok asCall
    rw [Line.tokens, alone]
    exact List.forall_mem_singleton.mpr (Token.Known.of_ne_var (by simp [kind]))
  · -- the target is read as a variable, and the sign is none
    obtain ⟨target, sign, rest, terms, readTarget, others, isSign, _, readTerms, rfl⟩ :=
      ofAssignment_eq_ok asAssignment
    rw [Line.tokens, others]
    refine List.forall_mem_cons.mpr ⟨?_, List.forall_mem_cons.mpr ⟨?_, ?_⟩⟩
    · obtain ⟨place, number, held⟩ := Option.bind_eq_some_iff.mp readTarget
      intro named same
      cases kind.symm.trans same
      exact ⟨target, eq_of_slot? number held⟩
    · exact Token.Known.of_ne_var (by simp [isSign])
    · exact known_of_expression readTerms known

end Statement
end NpcScript
