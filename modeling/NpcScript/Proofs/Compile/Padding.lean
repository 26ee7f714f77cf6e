import NpcScript.Proofs.Outline.Moved
import NpcScript.Proofs.Source.Rows
import NpcScript.Proofs.Statement.Grammar
import NpcScript.Proofs.Token.Joined
import NpcScript.Proofs.Token.Padding

/-! # Layout does not matter

Lines of blanks and comments may be put in between the lines of an accepted text,
and blanks and comments behind them, wherever one likes: between a predicate and
its block, say, or in front of an `Else`. The lines with tokens on them stay as
they are but for their places, so the text is accepted as before, and the same
script comes of it (`NpcScript.Script.compileSource_padded`). In an accepted text
no line ends with an open tag or with a sign, which a comment behind it could
change.
-/

namespace NpcScript

/-- The lines of a text with blanks and comments: there may be more lines with nothing else on
them, and the lines of the text may have some behind them. -/
inductive Padded : List (List Char) → List (List Char) → Prop where
  | nil : Padded [] []
  | between {lines padded : List (List Char)} {extra : List Char} (trivia : Lexer.Trivia extra)
      (others : Padded lines padded) : Padded lines (extra :: padded)
  | behind {lines padded : List (List Char)} {extra : List Char} (line : List Char)
      (trivia : Lexer.Trivia extra) (others : Padded lines padded) :
      Padded (line :: lines) ((line ++ extra) :: padded)

/-- One place for all tokens. -/
def Location.nowhere : Location → Location := fun _ => ⟨0, 0⟩

variable {symbols : SymbolTable}

/-! ## Lines without places -/

/-- The line that a text makes, if it has tokens on it, without their places. -/
def Line.unplaced (symbols : SymbolTable) (text : List Char) : Option Line :=
  (ofTokens? (Lexer.lineTokens symbols 0 text)).map (move Location.nowhere)

/-- The number of a line tells of the places of its tokens only. -/
theorem Line.map_move_ofTokens? (symbols : SymbolTable) (text : List Char) (number : Nat) :
    (ofTokens? (Lexer.lineTokens symbols number text)).map (move Location.nowhere) =
      unplaced symbols text := by
  have lowered : Lexer.lineTokens symbols (0 + number) text =
      (Lexer.lineTokens symbols 0 text).map (Token.lower number) := Lexer.lineTokens_lower 0 text
  rw [Nat.zero_add] at lowered
  rw [unplaced, ← ofTokens?_map, ← ofTokens?_map, lowered, List.map_map]
  rfl

private theorem Line.map_move_group (symbols : SymbolTable) (source : String) :
    (group (Lexer.tokens symbols source)).map (move Location.nowhere) =
      (Lexer.lines source.toList).filterMap (unplaced symbols) := by
  rw [Lexer.tokens_eq_tokensFrom, Source.group_tokensFrom, List.map_filterMap]
  simp only [map_move_ofTokens?]
  rw [← List.zipIdx_map_fst 1 (Lexer.lines source.toList), List.filterMap_map,
    List.zipIdx_map_fst]
  rfl

/-- Lines stay as they are, but for their places, with blanks and comments between and behind
them. -/
theorem Padded.filterMap_unplaced {lines padded : List (List Char)} (layout : Padded lines padded)
    (closed : ∀ text ∈ lines, ∃ number, Lexer.Closed (Lexer.lineTokens symbols number text)) :
    padded.filterMap (Line.unplaced symbols) = lines.filterMap (Line.unplaced symbols) := by
  induction layout with
  | nil => rfl
  | @between _ _ extra trivia _ ih =>
      have nothing : Line.unplaced symbols extra = none := by
        rw [Line.unplaced, Lexer.lineTokens_trivia trivia]
        rfl
      rw [List.filterMap_cons_none nothing, ih closed]
  | behind line trivia _ ih =>
      obtain ⟨⟨number, closedHere⟩, closedThere⟩ := List.forall_mem_cons.mp closed
      rw [List.filterMap_cons, List.filterMap_cons, ih closedThere,
        ← Line.map_move_ofTokens? symbols _ number, Lexer.lineTokens_append trivia closedHere,
        Line.map_move_ofTokens?]

/-! ## The ends of lines -/

/-- A line that makes a statement has no open tag on it, and it ends with a call or an operand. -/
theorem Statement.closed_of_ofLine {line : Line} {st : Statement}
    (known : ∀ token ∈ line.tokens, token.Known) (reading : ofLine line = .ok st) :
    Lexer.Closed line.tokens where
  closed token member unterminated := by
    have noError := (ofLine_eq_ok reading).1 token member
    simp [tokenError?, unterminated] at noError
  noSlash := by
    intro last isLast
    obtain ⟨_, ⟨index, kind, asCall⟩ | ⟨slot, kind, asAssignment⟩⟩ := ofLine_eq_ok reading
    · obtain ⟨_, _, alone, _⟩ := ofCall_eq_ok asCall
      rw [Line.tokens, alone, List.getLast?_singleton] at isLast
      cases isLast
      simp [kind]
    · obtain ⟨_, _, _, assigns⟩ := (ofAssignment_eq_ok_iff known kind).mp asAssignment
      obtain ⟨sign, rest, others, _, written⟩ := assigns.written
      have inRest : last ∈ rest.getLast? := by
        rw [Line.tokens, others, List.getLast?_cons_cons] at isLast
        cases written <;> simpa using isLast
      intro slash
      have isOperand := written.isOperand_getLast last inRest
      rw [slash] at isOperand
      cases isOperand

/-- In an accepted text no line has an open tag on it or ends with a sign. -/
theorem Outline.Accepts.closed {source : String}
    (accepts : empty.Accepts (Line.group (Lexer.tokens symbols source))) :
    ∀ text ∈ Lexer.lines source.toList, ∃ number,
      Lexer.Closed (Lexer.lineTokens symbols number text) := by
  intro text member
  rw [← List.zipIdx_map_fst 1 (Lexer.lines source.toList)] at member
  obtain ⟨⟨text, number⟩, numbered, rfl⟩ := List.mem_map.mp member
  refine ⟨number, ?_⟩
  cases read : Lexer.lineTokens symbols number text with
  | nil => exact Lexer.closed_nil
  | cons first others =>
      have grouped : (⟨first, others⟩ : Line) ∈ Line.group (Lexer.tokens symbols source) := by
        rw [Lexer.tokens_eq_tokensFrom, Source.group_tokensFrom]
        exact List.mem_filterMap.mpr ⟨_, numbered, congrArg Line.ofTokens? read⟩
      obtain ⟨st, reading⟩ := accepts.readable _ grouped
      exact Statement.closed_of_ofLine (Line.known_of_mem_group grouped) reading

/-- **Layout does not matter.** An accepted text is accepted with blanks and comments between and
behind its lines, and the same script comes of it. -/
theorem Script.compileSource_padded {name source padded : String} {script : Script}
    (compiled : compileSource name source symbols = .ok script)
    (layout : Padded (Lexer.lines source.toList) (Lexer.lines padded.toList)) :
    compileSource name padded symbols = .ok script := by
  have accepts := (compileSource_eq_ok compiled).1
  refine compile_of_move_eq Location.nowhere ?_ compiled
  rw [Line.map_move_group, Line.map_move_group, layout.filterMap_unplaced accepts.closed]

/-- A guard and an `Else`. -/
def plainText : String := "IfSpawned\n  tmpx = 1\nElse\n  tmpx = 2"

/-- The same with comments in front of the guard, of its block and of the `Else`, with empty lines,
and with blanks and comments behind lines. -/
def paddedText : String :=
  "// spawned\nIfSpawned//once\n      // [deep\n  tmpx = 1 \t~\n\n" ++
    "~// or\r\nElse\r\n  tmpx = 2 // tmpx /\n"

/-- The padded text compiles to the same script. -/
theorem Script.compileSource_padded_plain :
    ∃ script, compileSource "plain" plainText .standard = .ok script ∧
      Padded (Lexer.lines plainText.toList) (Lexer.lines paddedText.toList) ∧
      compileSource "plain" paddedText .standard = .ok script := by
  have accepted : (compileSource "plain" plainText .standard).toOption.map (·.labels.size) =
      some 2 := by
    decide +kernel
  obtain ⟨script, compiled, _⟩ := exists_ok_of_toOption accepted
  have plain : Lexer.lines plainText.toList = ["IfSpawned".toList, "  tmpx = 1".toList,
      "Else".toList, "  tmpx = 2".toList] := by
    decide +kernel
  have padded : Lexer.lines paddedText.toList = ["// spawned".toList,
      "IfSpawned".toList ++ "//once".toList, "      // [deep".toList,
      "  tmpx = 1".toList ++ " \t~".toList, "".toList, "~// or\r".toList,
      "Else".toList ++ "\r".toList, "  tmpx = 2".toList ++ " // tmpx /".toList, "".toList] := by
    decide +kernel
  have layout : Padded (Lexer.lines plainText.toList) (Lexer.lines paddedText.toList) := by
    rw [plain, padded]
    refine .between ?_ (.behind _ ?_ (.between ?_ (.behind _ ?_ (.between ?_ (.between ?_
      (.behind _ ?_ (.behind _ ?_ (.between ?_ .nil)))))))) <;> decide +kernel
  exact ⟨script, compiled, layout, compileSource_padded compiled layout⟩

end NpcScript
