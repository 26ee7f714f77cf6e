import NpcScript.Proofs.Instruction.RoundTrip
import NpcScript.Proofs.Source.Meaning
import NpcScript.Proofs.Token.Known

/-! # What an accepted line looks like

A line that makes a statement is the call of a built-in with nothing behind it,
or an assignment of at least one term to a writable variable. The terms of an
assignment fold to the same value as the tokens that they were read from
(`NpcScript.Statement.foldTokens_of_terms`), and each fits its word. A line that
makes no statement always shows a fault.
-/

namespace NpcScript

private theorem Builtin.kind_eq_flow (b : Builtin) : b.kind = .flow ↔ b = .elseBlock := by
  cases b <;> decide

/-- A built-in is found by its index. -/
theorem Builtin.ofIndex?_index (b : Builtin) : Builtin.ofIndex? b.index = some b := by
  cases b <;> rfl

/-- A variable is found by its slot. -/
theorem Variable.ofSlot?_slot (v : Variable) : Variable.ofSlot? v.slot = some v := by
  cases v <;> rfl

/-- A term that fits its word and whose variable exists. -/
structure Term.Fits (term : Term) : Prop where
  word : (Instruction.term term.operator term.operand).Fits
  known : ∀ slot, term.operand = .var slot → ∃ v, Variable.ofSlot? slot = some v

/-- Folds a term into the working value. -/
def Scene.foldTerm (scene : Scene) (term : Term) : Scene :=
  match term.operand with
  | .constant value => scene.fold term.operator value
  | .var slot =>
      match Variable.ofSlot? slot with
      | some v =>
          let (value, world) := scene.mind.read scene.world v
          { scene with world := world }.fold term.operator value
      | none => scene

namespace Statement

/-- The slot of a variable is read from the number that a token carries. -/
theorem slot?_slot (v : Variable) : slot? v.slot.toUInt32.toInt32 = some v.slot := by
  cases v <;> rfl

/-- The operand read from a token has the value of the token, and fits its word. -/
theorem operand_eq_ok {token : Token} {operand : Operand} (known : token.Known)
    (isOperand : token.kind.isOperand) (read : Statement.operand token = .ok operand)
    (op : Operator) :
    (Term.mk op operand).Fits ∧ ∀ scene : Scene,
      (let (value, world) := scene.read token.kind
       { scene with world := world }.fold op value) = scene.foldTerm ⟨op, operand⟩ := by
  have constant {value : Int32} (fits : Instruction.minConstant ≤ value ∧
      value ≤ Instruction.maxConstant) : (Term.mk op (.constant value)).Fits :=
    ⟨fits, fun _ impossible => by cases impossible⟩
  unfold Statement.operand at read
  cases kind : token.kind with
  | var slot =>
      obtain ⟨v, rfl⟩ := known slot kind
      simp only [kind, slot?_slot] at read
      cases read
      refine ⟨⟨trivial, ?_⟩, ?_⟩
      · intro slot same
        cases same
        exact ⟨v, v.ofSlot?_slot⟩
      · intro scene
        simp [Scene.read, Scene.foldTerm, slot?_slot, Variable.ofSlot?_slot]
  | constant value | number value | idsz value | reference value =>
      simp only [kind] at read
      split at read
      · rename_i fits
        cases read
        exact ⟨constant fits, fun scene => rfl⟩
      · cases read
  | function _ | name | assign | operator _ | unknown _ =>
      simp [kind, TokenKind.isOperand] at isOperand

/-! ## How terms are read, token by token -/

section Equations

variable {rest : List Token} {done : List Term} {errors : List CompileError} {op : Operator}

/-- A sign of assignment inside of an expression is an error. -/
theorem terms_assign (token : Token) (isAssign : token.kind = .assign) :
    terms (token :: rest) done errors =
      .error (⟨.malformedExpression .innerAssign, token.location⟩ :: errors).reverse := by
  obtain ⟨kind, location, indent, lexeme⟩ := token
  cases isAssign
  rfl

/-- A sign at the end of an expression is an error. -/
theorem terms_sign_nil (sign : Token) (isSign : sign.kind = .operator op) :
    terms [sign] done errors =
      .error (⟨.malformedExpression (.missingOperand op), sign.location⟩ :: errors).reverse := by
  obtain ⟨kind, location, indent, lexeme⟩ := sign
  cases isSign
  rfl

/-- A sign is read with the operand behind it. -/
theorem terms_sign (sign : Token) {next : Token} (isSign : sign.kind = .operator op) :
    terms (sign :: next :: rest) done errors =
      if next.kind.isOperand then
        match operand next with
        | .ok operand => terms rest (⟨op, operand⟩ :: done) errors
        | .error error => terms rest done (error :: errors)
      else .error
        (⟨.malformedExpression (.notAnOperand next.lexeme), next.location⟩ :: errors).reverse := by
  obtain ⟨kind, location, indent, lexeme⟩ := sign
  cases isSign
  rfl

/-- An operand without a sign is read at the beginning of an expression only. -/
theorem terms_other (token : Token) (noSign : token.kind.isOperator = false) :
    terms (token :: rest) done errors =
      if !done.isEmpty then .error
        (⟨.malformedExpression (.missingOperator token.lexeme), token.location⟩ :: errors).reverse
      else if token.kind.isOperand then
        match operand token with
        | .ok operand => terms rest [⟨.add, operand⟩] errors
        | .error error => terms rest done (error :: errors)
      else .error
        (⟨.malformedExpression (.notAnOperand token.lexeme), token.location⟩ ::
          errors).reverse := by
  obtain ⟨kind, location, indent, lexeme⟩ := token
  cases kind with
  | assign | operator _ => cases noSign
  | _ => rfl

/-- A token is no operator if none of the cases for operators is its case. -/
theorem isOperator_eq_false {token : Token} (noAssign : token.kind = .assign → False)
    (notLast : ∀ op, token.kind = .operator op → rest = [] → False)
    (notInside : ∀ op next others, token.kind = .operator op → rest = next :: others → False) :
    token.kind.isOperator = false := by
  cases kind : token.kind with
  | assign => exact (noAssign kind).elim
  | operator op =>
      cases rest with
      | nil => exact (notLast op kind rfl).elim
      | cons next others => exact (notInside op next others kind rfl).elim
  | _ => rfl

end Equations

/-! ## What is read -/

/-- Terms are read only if no error was found before. -/
theorem terms_errors {tokens : List Token} {done read : List Term} {errors : List CompileError}
    (ok : terms tokens done errors = .ok read) : errors = [] := by
  fun_induction terms tokens done errors
  case case1 errors clean => exact List.isEmpty_iff.mp clean
  case case5 operand readOperand ih | case9 operand readOperand ih => exact ih ok
  case case6 error readOperand ih | case10 error readOperand ih => exact absurd (ih ok) (by simp)
  all_goals cases ok

/-- The value of a sequence of tokens that begins with an operand. -/
theorem foldTokens_operand {token : Token} (isOperand : token.kind.isOperand) (op : Operator)
    (rest : List Token) (scene : Scene) :
    Scene.foldTokens op (token :: rest) scene =
      (let (value, world) := scene.read token.kind
       Scene.foldTokens .add rest ({ scene with world := world }.fold op value)) := by
  cases kind : token.kind with
  | operator op => simp [kind, TokenKind.isOperand] at isOperand
  | _ => simp [Scene.foldTokens, kind]

/-- The terms read from tokens fold like the tokens, and fit their words. -/
theorem foldTokens_of_terms {tokens : List Token} {done read : List Term}
    {errors : List CompileError} (known : ∀ token ∈ tokens, token.Known)
    (ok : terms tokens done errors = .ok read) :
    ∃ new, read = done.reverse ++ new ∧ (∀ term ∈ new, term.Fits) ∧
      ∀ scene : Scene, Scene.foldTokens .add tokens scene = new.foldl Scene.foldTerm scene := by
  fun_induction terms tokens done errors
  case case1 =>
    cases ok
    exact ⟨[], by simp, by simp, fun scene => rfl⟩
  case case5 token done errors op next rest isOperator isOperand operand readOperand ih =>
    obtain ⟨fits, same⟩ := operand_eq_ok (known next (by simp)) isOperand readOperand op
    obtain ⟨new, rfl, newFits, folds⟩ := ih (fun token member => known token (by simp [member])) ok
    have allFit := List.forall_mem_cons.mpr ⟨fits, newFits⟩
    refine ⟨⟨op, operand⟩ :: new, by simp, allFit, ?_⟩
    intro scene
    rw [Scene.foldTokens, isOperator]
    simp only []
    rw [foldTokens_operand isOperand, List.foldl_cons, ← same scene]
    exact folds _
  case case9 token done errors rest first operand readOperand _ _ _ isOperand ih =>
    obtain rfl : done = [] := by simpa using first
    obtain ⟨fits, same⟩ := operand_eq_ok (known token (by simp)) isOperand readOperand .add
    obtain ⟨new, rfl, newFits, folds⟩ := ih (fun token member => known token (by simp [member])) ok
    have allFit := List.forall_mem_cons.mpr ⟨fits, newFits⟩
    refine ⟨⟨.add, operand⟩ :: new, by simp, allFit, ?_⟩
    intro scene
    rw [foldTokens_operand isOperand, List.foldl_cons, ← same scene]
    exact folds _
  case case6 error readOperand ih | case10 error readOperand ih =>
    exact absurd (terms_errors ok) (by simp)
  all_goals cases ok

/-- An expression has at most as many terms as fit an assignment. -/
theorem expression_eq_ok {sign : Token} {tokens : List Token} {read : List Term}
    (known : ∀ token ∈ tokens, token.Known) (ok : expression sign tokens = .ok read) :
    read.length ≤ maxTerms ∧ (∀ term ∈ read, term.Fits) ∧
      ∀ scene : Scene, Scene.foldTokens .add tokens scene = read.foldl Scene.foldTerm scene := by
  unfold expression at ok
  split at ok
  · cases ok
  · split at ok
    · cases ok
    · rename_i terms readTerms
      split at ok
      · rename_i fits
        cases ok
        obtain ⟨new, rfl, newFits, folds⟩ := foldTokens_of_terms known readTerms
        exact ⟨fits, newFits, folds⟩
      · cases ok

/-- A line that begins with a built-in calls it, and nothing stands behind it. -/
theorem ofCall_eq_ok {first : Token} {index : Int32} {others : List Token}
    {statement : Statement} (ok : ofCall first index others = .ok statement) :
    ∃ b, builtin? index = some b ∧ others = [] ∧
      statement = if b = .elseBlock then .otherwise else .call b := by
  unfold ofCall at ok
  split at ok
  · cases ok
  · rename_i b readBuiltin
    split at ok
    · cases ok
    · refine ⟨b, readBuiltin, rfl, ?_⟩
      simp only [Builtin.kind_eq_flow] at ok
      split at ok
      · cases ok
        rw [if_pos ‹_›]
      · cases ok
        rw [if_neg ‹_›]

/-- A line that begins with a variable assigns terms to it. -/
theorem ofAssignment_eq_ok {first : Token} {slot : Int32} {others : List Token}
    {statement : Statement} (ok : ofAssignment first slot others = .ok statement) :
    ∃ target sign rest terms, (slot? slot).bind Variable.ofSlot? = some target ∧
      others = sign :: rest ∧ sign.kind = .assign ∧ target.isWritable ∧
      expression sign rest = .ok terms ∧ statement = .assign target terms := by
  unfold ofAssignment at ok
  split at ok
  · cases ok
  · rename_i target readTarget
    split at ok
    · rename_i sign rest
      split at ok
      · cases ok
      · rename_i isSign
        split at ok
        · cases ok
        · rename_i writable
          cases readTerms : expression sign rest with
          | error rejection => simp [readTerms, Except.map] at ok
          | ok terms =>
              rw [readTerms] at ok
              cases ok
              exact ⟨target, sign, rest, terms, readTarget, rfl, Decidable.not_not.mp isSign,
                by simpa using writable, readTerms, rfl⟩
    · cases ok

/-- A line that makes a statement has only tokens that may stand in a line, and it is read as a
call or as an assignment. -/
theorem ofLine_eq_ok {line : Line} {statement : Statement} (ok : ofLine line = .ok statement) :
    (∀ token ∈ line.tokens, tokenError? token = none) ∧
      ((∃ index, line.first.kind = .function index ∧
          ofCall line.first index line.others = .ok statement) ∨
        ∃ slot, line.first.kind = .var slot ∧
          ofAssignment line.first slot line.others = .ok statement) := by
  unfold ofLine at ok
  dsimp only at ok
  split at ok
  · rename_i clean
    refine ⟨List.filterMap_eq_nil_iff.mp (List.isEmpty_iff.mp clean), ?_⟩
    split at ok
    · rename_i index kind
      exact .inl ⟨index, kind, ok⟩
    · rename_i slot kind
      exact .inr ⟨slot, kind, ok⟩
    · cases ok
  · cases ok

end Statement

/-- What an accepted line does, as its forest does it. -/
inductive Line.Says (line : Line) : Statement → Prop where
  | call (index : Int32) (b : Builtin) (kind : line.first.kind = .function index)
      (known : Statement.builtin? index = some b) (notElse : b ≠ .elseBlock) : line.Says (.call b)
  | otherwise (index : Int32) (kind : line.first.kind = .function index)
      (known : Statement.builtin? index = some .elseBlock) : line.Says .otherwise
  | assign (slot : Int32) (target : Variable) (terms : List Term)
      (kind : line.first.kind = .var slot)
      (known : (Statement.slot? slot).bind Variable.ofSlot? = some target)
      (writable : target.isWritable) (few : terms.length ≤ Statement.maxTerms)
      (fits : ∀ term ∈ terms, term.Fits)
      (folds : ∀ scene : Scene,
        Scene.foldTokens .add line.others.tail scene = terms.foldl Scene.foldTerm scene) :
      line.Says (.assign target terms)

/-- A line says what it is read as. -/
theorem Line.said_of_ofLine {line : Line} {statement : Statement}
    (known : ∀ token ∈ line.tokens, token.Known) (ok : Statement.ofLine line = .ok statement) :
    line.Says statement := by
  obtain ⟨_, ⟨index, kind, asCall⟩ | ⟨slot, kind, asAssignment⟩⟩ := Statement.ofLine_eq_ok ok
  · obtain ⟨b, builtin, _, rfl⟩ := Statement.ofCall_eq_ok asCall
    split
    · subst_vars
      exact .otherwise index kind builtin
    · exact .call index b kind builtin ‹_›
  · obtain ⟨target, sign, rest, terms, readTarget, others, _, writable, readTerms, rfl⟩ :=
      Statement.ofAssignment_eq_ok asAssignment
    have restKnown : ∀ token ∈ rest, token.Known :=
      fun token member => known token (by simp [Line.tokens, others, member])
    obtain ⟨few, fits, folds⟩ := Statement.expression_eq_ok restKnown readTerms
    exact .assign slot target terms kind readTarget writable few fits
      (by simpa [others] using folds)

/-- A line that calls a built-in, or is an `Else`, says nothing else. -/
theorem Line.Says.unique {line : Line} {st other : Statement} (said : line.Says st)
    (calls : ∀ target terms, st ≠ .assign target terms) (saidOther : line.Says other) :
    other = st := by
  cases said with
  | assign _ target terms => exact absurd rfl (calls target terms)
  | call index b kind known notElse =>
      cases saidOther with
      | call _ _ kindOther knownOther =>
          cases kind.symm.trans kindOther
          cases known.symm.trans knownOther
          rfl
      | otherwise _ kindOther knownOther =>
          cases kind.symm.trans kindOther
          cases known.symm.trans knownOther
          exact absurd rfl notElse
      | assign _ _ _ kindOther => cases kind.symm.trans kindOther
  | otherwise index kind known =>
      cases saidOther with
      | otherwise => rfl
      | call _ _ kindOther knownOther notElse =>
          cases kind.symm.trans kindOther
          cases known.symm.trans knownOther
          exact absurd rfl notElse
      | assign _ _ _ kindOther => cases kind.symm.trans kindOther

end NpcScript
