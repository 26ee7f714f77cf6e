import NpcScript.Proofs.Compile.Correctness

/-! # Places do not matter

Where a token stands is told in the faults of a script and nowhere else. So a
reader that is given tokens at other places finds the same faults at the other
places, and makes the same statements (`NpcScript.Statement.ofLine_move`). A
script whose lines are those of an accepted one, up to their places, is compiled
to the same words (`NpcScript.Script.compile_of_move_eq`).
-/

namespace NpcScript

variable (f : Location → Location)

/-- The token at another place. -/
def Token.move (token : Token) : Token :=
  { token with location := f token.location }

/-- The line with its tokens at other places. -/
def Line.move (line : Line) : Line :=
  ⟨line.first.move f, line.others.map (Token.move f)⟩

/-- The fault at another place. -/
def CompileError.move (error : CompileError) : CompileError :=
  { error with location := f error.location }

/-- The rejection with its faults at other places. -/
def Rejection.move (rejection : Rejection) : Rejection :=
  { rejection with errors := rejection.errors.map (CompileError.move f) }

@[simp]
theorem Token.kind_move (token : Token) : (token.move f).kind = token.kind := rfl

@[simp]
theorem Token.location_move (token : Token) : (token.move f).location = f token.location := rfl

@[simp]
theorem Token.lexeme_move (token : Token) : (token.move f).lexeme = token.lexeme := rfl

private theorem Line.tokens_move (line : Line) :
    (line.move f).tokens = line.tokens.map (Token.move f) := rfl

@[simp]
theorem Line.indent_move (line : Line) : (line.move f).indent = line.indent := rfl

/-- Tokens at other places make the same line, moved. -/
theorem Line.ofTokens?_map (tokens : List Token) :
    Line.ofTokens? (tokens.map (Token.move f)) = (Line.ofTokens? tokens).map (Line.move f) := by
  cases tokens <;> rfl

namespace Statement

private theorem tokenError?_move (token : Token) :
    tokenError? (token.move f) = (tokenError? token).map (CompileError.move f) := by
  unfold tokenError?
  rw [Token.kind_move]
  cases token.kind <;> rfl

private theorem operand_move (token : Token) :
    operand (token.move f) = (operand token).mapError (CompileError.move f) := by
  unfold operand
  rw [Token.kind_move]
  split
  · split <;> rfl
  · split <;> rfl

private theorem reject_move {α : Type} (fault : CompileFault) (location : Location) :
    (reject fault (f location) : Except Rejection α) =
      (reject fault location).mapError (Rejection.move f) := rfl

private theorem terms_move (tokens : List Token) (done : List Term) (errors : List CompileError) :
    terms (tokens.map (Token.move f)) done (errors.map (CompileError.move f)) =
      (terms tokens done errors).mapError (List.map (CompileError.move f)) := by
  fun_induction terms tokens done errors with
  | case1 done errors clean => simp [terms, clean, Except.mapError]
  | case2 done errors dirty => simp [terms, dirty, Except.mapError]
  | case3 token rest done errors fail isAssign =>
      simp [terms_assign (token.move f) isAssign, fail, Except.mapError, CompileError.move]
  | case4 token done errors fail op isSign =>
      simp [terms_sign_nil (token.move f) isSign, fail, Except.mapError, CompileError.move]
  | case5 token done errors op next rest isSign isOperand operand readOperand ih =>
      simp [terms_sign (token.move f) isSign, operand_move, isOperand, readOperand, ih,
        Except.mapError]
  | case6 token done errors op next rest isSign isOperand error readOperand ih =>
      rw [List.map_cons] at ih
      simp [terms_sign (token.move f) isSign, operand_move, isOperand, readOperand, ih,
        Except.mapError]
  | case7 token done errors fail op next rest isSign noOperand =>
      simp [terms_sign (token.move f) isSign, noOperand, fail, Except.mapError, CompileError.move]
  | case8 token done errors fail rest going noAssign notLast notInside =>
      have noSign := isOperator_eq_false noAssign notLast notInside
      rw [List.map_cons, terms_other (token.move f) noSign, if_pos going]
      simp [fail, Except.mapError, CompileError.move]
  | case9 token done errors rest first operand readOperand noAssign notLast notInside isOperand
      ih =>
      have noSign := isOperator_eq_false noAssign notLast notInside
      rw [List.map_cons, terms_other (token.move f) noSign, if_neg first]
      simp [operand_move, isOperand, readOperand, ih, Except.mapError]
  | case10 token done errors rest first error readOperand noAssign notLast notInside isOperand
      ih =>
      have noSign := isOperator_eq_false noAssign notLast notInside
      rw [List.map_cons] at ih
      rw [List.map_cons, terms_other (token.move f) noSign, if_neg first]
      simp [operand_move, isOperand, readOperand, ih, Except.mapError]
  | case11 token done errors fail rest first noAssign notLast notInside noOperand =>
      have noSign := isOperator_eq_false noAssign notLast notInside
      rw [List.map_cons, terms_other (token.move f) noSign, if_neg first]
      simp [noOperand, fail, Except.mapError, CompileError.move]

private theorem expression_move (assign : Token) (tokens : List Token) :
    expression (assign.move f) (tokens.map (Token.move f)) =
      (expression assign tokens).mapError (Rejection.move f) := by
  have same := terms_move f tokens [] []
  unfold expression
  rw [List.isEmpty_map]
  split
  · rfl
  · rw [List.map_nil] at same
    rw [same]
    cases terms tokens [] [] with
    | error errors => rfl
    | ok read =>
        simp only [Except.mapError]
        split <;> rfl

private theorem ofCall_move (first : Token) (index : Int32) (others : List Token) :
    ofCall (first.move f) index (others.map (Token.move f)) =
      (ofCall first index others).mapError (Rejection.move f) := by
  unfold ofCall
  cases builtin? index with
  | none => rfl
  | some b =>
      cases others with
      | nil =>
          simp only [List.map_nil]
          split <;> rfl
      | cons extra others => simp [Except.mapError, Rejection.move, CompileError.move]

private theorem ofAssignment_move (first : Token) (slot : Int32) (others : List Token) :
    ofAssignment (first.move f) slot (others.map (Token.move f)) =
      (ofAssignment first slot others).mapError (Rejection.move f) := by
  unfold ofAssignment
  cases (slot? slot).bind Variable.ofSlot? with
  | none => rfl
  | some target =>
      cases others with
      | nil => rfl
      | cons sign rest =>
          simp only [List.map_cons, Token.kind_move]
          by_cases isSign : sign.kind = .assign
          · by_cases writable : target.isWritable
            · simp only [isSign, writable, expression_move]
              cases expression sign rest <;> rfl
            · simp [isSign, writable, reject_move]
          · simp [isSign, reject_move]

/-- **A line at another place** makes the same statement, or has the same faults at the other
place. -/
theorem ofLine_move (line : Line) :
    ofLine (line.move f) = (ofLine line).mapError (Rejection.move f) := by
  have errors : (line.move f).tokens.filterMap tokenError? =
      (line.tokens.filterMap tokenError?).map (CompileError.move f) := by
    rw [Line.tokens_move, List.filterMap_map, List.map_filterMap]
    congr 1
    funext token
    exact tokenError?_move f token
  have kind : (line.move f).first.kind = line.first.kind := rfl
  unfold ofLine
  rw [errors, kind]
  dsimp only
  rw [List.isEmpty_map]
  split
  · split
    · exact ofCall_move f line.first _ line.others
    · exact ofAssignment_move f line.first _ line.others
    · rfl
  · rfl

end Statement

/-! ## Outlines -/

/-- The opener at another place. -/
def Opener.move (opener : Opener) : Opener :=
  { opener with location := f opener.location }

namespace Outline

/-- The outline of lines at other places. -/
def move (o : Outline) : Outline :=
  { o with opener := o.opener.map (Opener.move f), errors := o.errors.map (CompileError.move f) }

variable (o : Outline)

@[simp]
theorem depth_move : (o.move f).depth = o.depth := rfl

@[simp]
theorem labels_move : (o.move f).labels = o.labels := rfl

@[simp]
theorem opener_move : (o.move f).opener = o.opener.map (Opener.move f) := rfl

private theorem reserveLabel_move (location : Location) :
    (o.move f).reserveLabel (f location) = (o.reserveLabel location).move f := by
  unfold reserveLabel
  rw [labels_move]
  by_cases full : o.labels = maxLabels
  · rw [if_pos full, if_pos full]
    rfl
  · rw [if_neg full, if_neg full]
    rfl

private theorem openBlock_move (opener : Opener) :
    (o.move f).openBlock (opener.move f) = (o.openBlock opener).move f := by
  have reserved := reserveLabel_move f o opener.location
  have role : (opener.move f).role = opener.role := rfl
  have place : (opener.move f).location = f opener.location := rfl
  unfold openBlock
  rw [role, place]
  split
  · rfl
  · rw [reserved]
    rfl

private theorem settle_move (indent : Nat) :
    (o.move f).settle indent = (o.settle indent).move f := by
  obtain ⟨blocks, opener, labels, errors⟩ := o
  unfold settle
  cases opener with
  | none => rfl
  | some opener =>
      have opened := openBlock_move f ⟨blocks, none, labels, errors⟩ opener
      simp only [opener_move, Option.map_some]
      change (if indent = Opener.ownedLevel opener.indent then _
        else if opener.requiresBlock then _ else _) = _
      split
      · exact opened
      · split <;> rfl

private theorem otherwise_move (line : Line) (closed : Option BlockRole) :
    (o.move f).otherwise (line.move f) closed = (o.otherwise line closed).move f := by
  have reserved := reserveLabel_move f o line.first.location
  unfold otherwise
  cases closed with
  | none => rfl
  | some role =>
      cases role with
      | alternative => rfl
      | main =>
          change ((o.move f).reserveLabel (f line.first.location)).await _ _ _ = _
          rw [reserved]
          rfl

private theorem statement_move (line : Line) (closed : Option BlockRole) :
    (o.move f).statement (line.move f) closed = (o.statement line closed).move f := by
  unfold statement
  rw [Statement.ofLine_move]
  cases Statement.ofLine line with
  | ok st =>
      cases st with
      | call _ | assign _ _ => rfl
      | otherwise => exact otherwise_move f o line closed
  | error rejection =>
      have errors : (rejection.errors.map (CompileError.move f)).reverse ++
          o.errors.map (CompileError.move f) =
            (rejection.errors.reverse ++ o.errors).map (CompileError.move f) := by simp
      simp only [Except.mapError, Rejection.move]
      split
      · simp only [move, await, errors]
        rfl
      · simp only [move, errors]

/-- Lines at other places are read alike, with their faults at the other places. -/
theorem line_move (l : Line) : (o.move f).line (l.move f) = (o.line l).move f := by
  unfold line
  rw [Line.indent_move, settle_move]
  dsimp only
  rw [depth_move]
  by_cases deep : l.indent > (o.settle l.indent).depth
  · rw [if_pos deep, if_pos deep]
    rfl
  · rw [if_neg deep, if_neg deep]
    exact statement_move f ((o.settle l.indent).close l.indent) l _

private theorem finish_move : (o.move f).finish = o.finish.move f := by
  obtain ⟨blocks, opener, labels, errors⟩ := o
  unfold finish
  cases opener with
  | none => rfl
  | some opener =>
      simp only [opener_move, Option.map_some]
      change (if opener.requiresBlock then _ else _) = _
      split <;> rfl

private theorem foldl_line_move (lines : List Line) :
    (lines.map (Line.move f)).foldl line (o.move f) = (lines.foldl line o).move f := by
  induction lines generalizing o with
  | nil => rfl
  | cons l lines ih => rw [List.map_cons, List.foldl_cons, line_move, ih, List.foldl_cons]

/-- A walk without faults is one at other places too. -/
theorem accepts_move_iff (lines : List Line) :
    (o.move f).Accepts (lines.map (Line.move f)) ↔ o.Accepts lines := by
  rw [Accepts, foldl_line_move, finish_move]
  exact List.map_eq_nil_iff

end Outline

/-- A line at another place has the clause that it has. -/
theorem Clause.ofLine?_move (line : Line) : Clause.ofLine? (line.move f) = Clause.ofLine? line := by
  unfold Clause.ofLine?
  rw [Statement.ofLine_move]
  cases Statement.ofLine line <;> rfl

/-- Lines at other places have the clauses that they have. -/
theorem Clause.filterMap_ofLine?_move (lines : List Line) :
    (lines.map (Line.move f)).filterMap Clause.ofLine? = lines.filterMap Clause.ofLine? := by
  rw [List.filterMap_map]
  congr 1
  funext line
  exact ofLine?_move f line

/-- **Scripts whose lines are those of an accepted one**, up to their places, are compiled to the
same words. -/
theorem Script.compile_of_move_eq {name : String} {tokens others : List Token} {script : Script}
    (same : (Line.group others).map (Line.move f) = (Line.group tokens).map (Line.move f))
    (compiled : compile name tokens = .ok script) : compile name others = .ok script := by
  obtain ⟨accepts, rfl⟩ := compile_eq_ok compiled
  have clauses := congrArg (List.filterMap Clause.ofLine?) same
  simp only [Clause.filterMap_ofLine?_move] at clauses
  rw [← Outline.accepts_move_iff f, ← same, Outline.accepts_move_iff] at accepts
  rw [← clauses]
  exact compile_of_accepts accepts

end NpcScript
