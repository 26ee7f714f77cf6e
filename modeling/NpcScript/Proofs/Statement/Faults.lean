import NpcScript.Proofs.Statement.Reading

/-! # Where the faults of a line are

A line that is rejected has a fault, and every fault that is found on it is told
at one of its tokens (`NpcScript.Statement.found_of_ofLine_error`). A token that
can stand in no line is a fault of its own, whatever else is wrong with the line
(`NpcScript.Statement.ofLine_of_faulty`).
-/

namespace NpcScript

/-- One of the tokens of a line stands at a place. -/
def Line.Holds (line : Line) (location : Location) : Prop :=
  ∃ token ∈ line.tokens, token.location = location

/-- A token that can stand in no line: it makes no sense, or is a name without a meaning. -/
def Token.Faulty (token : Token) : Prop :=
  (∃ cause, token.kind = .unknown cause) ∨ token.kind = .name

/-- A line holds the place of its first token. -/
theorem Line.holds_first (line : Line) : line.Holds line.first.location :=
  ⟨line.first, List.mem_cons_self, rfl⟩

/-- A line holds the places of its other tokens. -/
theorem Line.holds_others (line : Line) : ∀ token ∈ line.others, line.Holds token.location :=
  fun token member => ⟨token, List.mem_cons_of_mem _ member, rfl⟩

namespace Statement

/-- A token has no error by itself exactly if it is not faulty. -/
theorem tokenError?_eq_none_iff {token : Token} : tokenError? token = none ↔ ¬token.Faulty := by
  unfold tokenError? Token.Faulty
  cases token.kind <;> simp

private theorem location_of_tokenError? {token : Token} {error : CompileError}
    (faulty : tokenError? token = some error) : error.location = token.location := by
  unfold tokenError? at faulty
  split at faulty <;> cases faulty <;> rfl

private theorem location_of_operand_error {token : Token} {error : CompileError}
    (faulty : operand token = .error error) : error.location = token.location := by
  unfold operand at faulty
  split at faulty
  · split at faulty <;> cases faulty
    rfl
  · split at faulty <;> cases faulty
    rfl

/-- The faults for which something is rejected: there is one, and all are at given places. -/
structure Found (place : Location → Prop) (errors : List CompileError) : Prop where
  nonempty : errors ≠ []
  placed : ∀ error ∈ errors, place error.location

variable {tokens others : List Token} {token sign first : Token} {line : Line}
variable {done : List Term} {errors found : List CompileError} {rejection : Rejection}
variable {place : Location → Prop} {fault : CompileFault} {location : Location}

private theorem found_reverse (here : place location)
    (earlier : ∀ error ∈ errors, place error.location) :
    Found place ((⟨fault, location⟩ : CompileError) :: errors).reverse where
  nonempty := by simp
  placed error member := by
    rcases List.mem_cons.mp (List.mem_reverse.mp member) with rfl | member
    · exact here
    · exact earlier error member

/-- The faults of terms are told at the places of their tokens. -/
theorem found_of_terms_error (rejected : terms tokens done errors = .error found)
    (earlier : ∀ error ∈ errors, place error.location)
    (here : ∀ token ∈ tokens, place token.location) : Found place found := by
  fun_induction terms tokens done errors
  case case1 => cases rejected
  case case2 dirty =>
    cases rejected
    exact ⟨by simpa using dirty, by simpa using earlier⟩
  case case3 | case4 | case8 | case11 =>
    cases rejected
    exact found_reverse (here _ List.mem_cons_self) earlier
  case case7 next rest _ _ =>
    cases rejected
    exact found_reverse (here next (by simp)) earlier
  case case5 ih | case9 ih =>
    exact ih rejected earlier fun token member => here token (by simp [member])
  case case6 next rest _ _ error readOperand ih =>
    have located := location_of_operand_error readOperand
    refine ih rejected (List.forall_mem_cons.mpr ⟨?_, earlier⟩) fun token member =>
      here token (by simp [member])
    exact located ▸ here next (by simp)
  case case10 token _ _ rest _ error readOperand _ _ _ _ ih =>
    have located := location_of_operand_error readOperand
    refine ih rejected (List.forall_mem_cons.mpr ⟨?_, earlier⟩) fun token member =>
      here token (by simp [member])
    exact located ▸ here token (by simp)

/-- The fault of what is rejected as a whole. -/
theorem found_of_reject {α : Type}
    (rejected : (reject fault location : Except Rejection α) = .error rejection)
    (here : place location) : Found place rejection.errors := by
  cases rejected
  exact ⟨by simp, by simpa using here⟩

private theorem found_of_expression_error (rejected : expression sign tokens = .error rejection)
    (atSign : place sign.location) (here : ∀ token ∈ tokens, place token.location) :
    Found place rejection.errors := by
  unfold expression at rejected
  split at rejected
  · exact found_of_reject rejected atSign
  · split at rejected
    · rename_i readTerms
      cases rejected
      exact found_of_terms_error readTerms (by simp) here
    · split at rejected
      · cases rejected
      · exact found_of_reject rejected atSign

private theorem found_of_ofCall_error {index : Int32}
    (rejected : ofCall first index others = .error rejection) (atFirst : place first.location)
    (here : ∀ token ∈ others, place token.location) : Found place rejection.errors := by
  unfold ofCall at rejected
  split at rejected
  · exact found_of_reject rejected atFirst
  · split at rejected
    · cases rejected
      exact ⟨by simp, by simpa using here _ List.mem_cons_self⟩
    · split at rejected <;> cases rejected

/-- The faults of an assignment are at tokens of its line. -/
theorem found_of_ofAssignment_error {slot : Int32}
    (rejected : ofAssignment first slot others = .error rejection) (atFirst : place first.location)
    (here : ∀ token ∈ others, place token.location) : Found place rejection.errors := by
  unfold ofAssignment at rejected
  split at rejected
  · exact found_of_reject rejected atFirst
  · split at rejected
    · rename_i sign rest
      split at rejected
      · exact found_of_reject rejected atFirst
      · split at rejected
        · exact found_of_reject rejected atFirst
        · cases readTerms : expression sign rest with
          | ok terms => simp [readTerms, Except.map] at rejected
          | error rejection =>
              rw [readTerms] at rejected
              cases rejected
              exact found_of_expression_error readTerms (here sign (by simp))
                fun token member => here token (by simp [member])
    · exact found_of_reject rejected atFirst

/-- **The faults of a line** are told at its tokens. -/
theorem found_of_ofLine_error (rejected : ofLine line = .error rejection) :
    Found line.Holds rejection.errors := by
  rw [ofLine] at rejected
  by_cases clean : (line.tokens.filterMap tokenError?).isEmpty
  · rw [if_pos clean] at rejected
    split at rejected
    · exact found_of_ofCall_error rejected line.holds_first line.holds_others
    · exact found_of_ofAssignment_error rejected line.holds_first line.holds_others
    · exact found_of_reject rejected line.holds_first
  · rw [if_neg clean] at rejected
    cases rejected
    refine ⟨by simpa using clean, fun error member => ?_⟩
    obtain ⟨token, onLine, faulty⟩ := List.mem_filterMap.mp member
    exact ⟨token, onLine, (location_of_tokenError? faulty).symm⟩

/-- **A line with a token that can stand in no line** is rejected. -/
theorem ofLine_of_faulty (faulty : ∃ token ∈ line.tokens, token.Faulty) :
    ∃ rejection, ofLine line = .error rejection := by
  obtain ⟨token, member, faulty⟩ := faulty
  have dirty : ¬(line.tokens.filterMap tokenError?).isEmpty := by
    rw [List.isEmpty_iff, List.filterMap_eq_nil_iff]
    exact fun clean => tokenError?_eq_none_iff.mp (clean token member) faulty
  exact ⟨_, by rw [ofLine, if_neg dirty]⟩

end Statement
end NpcScript
