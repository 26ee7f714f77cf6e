import NpcScript.Proofs.Statement.Known

/-! # The grammar of assignments

What stands behind the sign of an assignment is `[op] operand (op operand)*`. The
reader is a loop that goes on behind some faults and stops at others. It makes
terms of the sequences of this form and of no others, and these are the terms
that the grammar gives them (`NpcScript.Statement.expression_eq_ok_iff`). So a
line assigns to a variable exactly if it is written as an assignment
(`NpcScript.Statement.ofAssignment_eq_ok_iff`).
-/

namespace NpcScript

/-- A token stands for an operand: the name of a variable for its slot, and a number for itself if
it has a signed form of 24 bits. -/
inductive Token.StandsFor (token : Token) : Operand → Prop where
  | var (v : Variable) (named : token.kind = .var v.slot.toUInt32.toInt32) :
      token.StandsFor (.var v.slot)
  | number (value : Int32)
      (carried : token.kind ∈ [.constant value, .number value, .idsz value, .reference value])
      (least : -0x800000 ≤ value.toInt) (most : value.toInt ≤ 0x7FFFFF) :
      token.StandsFor (.constant value)

namespace Statement

/-- `(op operand)*`, with the terms that it stands for. -/
inductive Steps : List Token → List Term → Prop where
  | done : Steps [] []
  | step {sign token : Token} {rest : List Token} {op : Operator} {operand : Operand}
      {terms : List Term} (isSign : sign.kind = .operator op) (stands : token.StandsFor operand)
      (more : Steps rest terms) : Steps (sign :: token :: rest) (⟨op, operand⟩ :: terms)

/-- `[op] operand (op operand)*`, with the terms that it stands for. An operand without an operator
is added. -/
inductive Expression : List Token → List Term → Prop where
  | plain {token : Token} {rest : List Token} {operand : Operand} {terms : List Term}
      (stands : token.StandsFor operand) (more : Steps rest terms) :
      Expression (token :: rest) (⟨.add, operand⟩ :: terms)
  | signed {sign token : Token} {rest : List Token} {op : Operator} {operand : Operand}
      {terms : List Term} (isSign : sign.kind = .operator op) (stands : token.StandsFor operand)
      (more : Steps rest terms) : Expression (sign :: token :: rest) (⟨op, operand⟩ :: terms)

end Statement

/-- A line is written as an assignment of terms to a variable: the name of a writable variable, the
sign of assignment, and an expression of at most 255 operands. -/
structure Line.Assigns (line : Line) (target : Variable) (terms : List Term) : Prop where
  named : line.first.kind = .var target.slot.toUInt32.toInt32
  writable : target.isWritable
  written : ∃ sign rest, line.others = sign :: rest ∧ sign.kind = .assign ∧
    Statement.Expression rest terms
  few : terms.length ≤ 255

namespace Statement

variable {token sign first : Token} {tokens : List Token} {done read : List Term}
variable {operand : Operand} {errors : List CompileError}

/-! ## Operands -/

private theorem inRange_iff (value : Int32) :
    Instruction.minConstant ≤ value ∧ value ≤ Instruction.maxConstant ↔
      -0x800000 ≤ value.toInt ∧ value.toInt ≤ 0x7FFFFF :=
  and_congr Int32.le_iff_toInt_le Int32.le_iff_toInt_le

private theorem isOperand_of_standsFor (stands : token.StandsFor operand) :
    token.kind.isOperand := by
  cases stands with
  | var v named => rw [named]; rfl
  | number value carried =>
      simp only [List.mem_cons, List.not_mem_nil, or_false] at carried
      rcases carried with kind | kind | kind | kind <;> rw [kind] <;> rfl

/-- The operand that is read from a token is the one that it stands for. -/
theorem operand_eq_ok_iff (known : token.Known) (isOperand : token.kind.isOperand) :
    Statement.operand token = .ok operand ↔ token.StandsFor operand := by
  constructor
  · intro ok
    unfold Statement.operand at ok
    cases kind : token.kind with
    | var slot =>
        obtain ⟨v, rfl⟩ := known slot kind
        simp only [kind, slot?_slot] at ok
        cases ok
        exact .var v kind
    | constant value | number value | idsz value | reference value =>
        simp only [kind] at ok
        split at ok
        · rename_i fits
          obtain ⟨least, most⟩ := (inRange_iff value).mp fits
          cases ok
          exact .number value (by simp [kind]) least most
        · cases ok
    | function _ | name | assign | operator _ | unknown _ =>
        simp [kind, TokenKind.isOperand] at isOperand
  · intro stands
    unfold Statement.operand
    cases stands with
    | var v named => simp only [named, slot?_slot]
    | number value carried least most =>
        have fits := (inRange_iff value).mpr ⟨least, most⟩
        simp only [List.mem_cons, List.not_mem_nil, or_false] at carried
        rcases carried with kind | kind | kind | kind <;> simp only [kind] <;> exact if_pos fits

/-! ## Sequences of operands -/

/-- Behind the first operand, each one has an operator in front of it. -/
theorem steps_of_terms (known : ∀ token ∈ tokens, token.Known) (going : done ≠ [])
    (ok : terms tokens done errors = .ok read) :
    ∃ more, read = done.reverse ++ more ∧ Steps tokens more := by
  fun_induction terms tokens done errors
  case case1 =>
    cases ok
    exact ⟨[], by simp, .done⟩
  case case5 token done errors op next rest isSign isOperand operand readOperand ih =>
    have stands := (operand_eq_ok_iff (known next (by simp)) isOperand).mp readOperand
    obtain ⟨more, rfl, steps⟩ :=
      ih (fun token member => known token (by simp [member])) (by simp) ok
    exact ⟨⟨op, operand⟩ :: more, by simp, .step isSign stands steps⟩
  case case9 token done errors rest first _ _ _ _ _ _ _ =>
    exact absurd (by simpa using first) going
  case case6 ih | case10 ih => exact absurd (terms_errors ok) (by simp)
  all_goals cases ok

/-- What is read as terms, from the first operand on, is an expression. -/
theorem expression_of_terms (known : ∀ token ∈ tokens, token.Known) (nonempty : tokens ≠ [])
    (fresh : done = []) (ok : terms tokens done errors = .ok read) : Expression tokens read := by
  fun_induction terms tokens done errors
  case case1 => exact absurd rfl nonempty
  case case5 token done errors op next rest isSign isOperand operand readOperand _ =>
    have stands := (operand_eq_ok_iff (known next (by simp)) isOperand).mp readOperand
    obtain ⟨more, rfl, steps⟩ :=
      steps_of_terms (fun token member => known token (by simp [member])) (by simp) ok
    subst fresh
    exact .signed isSign stands steps
  case case9 token done errors rest _ operand readOperand _ _ _ isOperand _ =>
    have stands := (operand_eq_ok_iff (known token (by simp)) isOperand).mp readOperand
    obtain ⟨more, rfl, steps⟩ :=
      steps_of_terms (fun token member => known token (by simp [member])) (by simp) ok
    exact .plain stands steps
  case case6 | case10 => exact absurd (terms_errors ok) (by simp)
  all_goals cases ok

/-- Further operands with their operators are read behind any terms. -/
theorem terms_of_steps (known : ∀ token ∈ tokens, token.Known) {more : List Term}
    (steps : Steps tokens more) (done : List Term) :
    terms tokens done [] = .ok (done.reverse ++ more) := by
  induction steps generalizing done with
  | done => simp [terms]
  | @step sign next rest op operand more isSign stands _ ih =>
      have isOperand := isOperand_of_standsFor stands
      have readOperand := (operand_eq_ok_iff (known next (by simp)) isOperand).mpr stands
      have inRest : ∀ token ∈ rest, token.Known := fun token member =>
        known token (by simp [member])
      rw [terms_sign sign isSign, if_pos isOperand, readOperand]
      simp only [ih inRest, List.reverse_cons, List.append_assoc, List.singleton_append]

/-- An expression is read as its terms. -/
theorem terms_of_expression (known : ∀ token ∈ tokens, token.Known)
    (written : Expression tokens read) : terms tokens [] [] = .ok read := by
  cases written with
  | @plain first rest operand more stands steps =>
      have isOperand := isOperand_of_standsFor stands
      have readOperand := (operand_eq_ok_iff (known first (by simp)) isOperand).mpr stands
      have inRest : ∀ token ∈ rest, token.Known := fun token member =>
        known token (by simp [member])
      have noSign : first.kind.isOperator = false := by
        cases kind : first.kind with
        | assign | operator _ => simp [kind, TokenKind.isOperand] at isOperand
        | _ => rfl
      rw [terms_other first noSign, if_neg (by simp), if_pos isOperand, readOperand]
      simp only [terms_of_steps inRest steps]
      rfl
  | @signed sign first rest op operand more isSign stands steps =>
      exact terms_of_steps known (.step isSign stands steps) []

/-- **Expressions** are read as their terms, of which an assignment has room for 255. -/
theorem expression_eq_ok_iff (known : ∀ token ∈ tokens, token.Known) :
    expression sign tokens = .ok read ↔ Expression tokens read ∧ read.length ≤ 255 := by
  constructor
  · intro ok
    unfold expression at ok
    split at ok
    · cases ok
    · rename_i nonempty
      split at ok
      · cases ok
      · rename_i readTerms
        split at ok
        · rename_i few
          cases ok
          exact ⟨expression_of_terms known (by simpa using nonempty) rfl readTerms, few⟩
        · cases ok
  · rintro ⟨written, few⟩
    have nonempty : tokens.isEmpty = false := by cases written <;> rfl
    rw [expression, nonempty, if_neg Bool.false_ne_true]
    simp only [terms_of_expression known written]
    exact if_pos few

/-- **Assignments.** A line that begins with a variable is read as an assignment if it is written
as one. -/
theorem ofAssignment_eq_ok_iff {line : Line} {slot : Int32} {statement : Statement}
    (known : ∀ token ∈ line.tokens, token.Known) (named : line.first.kind = .var slot) :
    ofAssignment line.first slot line.others = .ok statement ↔
      ∃ target terms, statement = .assign target terms ∧ line.Assigns target terms := by
  have inRest {sign : Token} {rest : List Token} (others : line.others = sign :: rest) :
      ∀ token ∈ rest, token.Known :=
    fun token member => known token (by simp [Line.tokens, others, member])
  constructor
  · intro ok
    obtain ⟨target, sign, rest, terms, readTarget, others, isSign, writable, readTerms, rfl⟩ :=
      ofAssignment_eq_ok ok
    obtain ⟨written, few⟩ := (expression_eq_ok_iff (inRest others)).mp readTerms
    obtain ⟨place, number, held⟩ := Option.bind_eq_some_iff.mp readTarget
    exact ⟨target, terms, rfl, eq_of_slot? number held ▸ named, writable,
      ⟨sign, rest, others, isSign, written⟩, few⟩
  · rintro ⟨target, terms, rfl, assigns⟩
    obtain ⟨sign, rest, others, isSign, written⟩ := assigns.written
    have readTerms : expression sign rest = .ok terms :=
      (expression_eq_ok_iff (inRest others)).mpr ⟨written, assigns.few⟩
    cases named.symm.trans assigns.named
    simp [ofAssignment, slot?_slot, Variable.ofSlot?_slot, others, isSign, assigns.writable,
      readTerms, Except.map]

/-! ## Where expressions end -/

private theorem isOperand_getLast_of_steps {more : List Term} (steps : Steps tokens more) :
    ∀ last ∈ tokens.getLast?, last.kind.isOperand := by
  induction steps with
  | done => simp
  | @step sign token rest op operand terms isSign stands _ ih =>
      cases rest with
      | nil => simpa using isOperand_of_standsFor stands
      | cons next others => simpa using ih

/-- An expression ends with an operand. -/
theorem Expression.isOperand_getLast (written : Expression tokens read) :
    ∀ last ∈ tokens.getLast?, last.kind.isOperand := by
  cases written with
  | @plain token rest operand more stands steps =>
      cases rest with
      | nil => simpa using isOperand_of_standsFor stands
      | cons next others => simpa using isOperand_getLast_of_steps steps
  | signed isSign stands steps => exact isOperand_getLast_of_steps (.step isSign stands steps)

end Statement
end NpcScript
