import NpcScript.Proofs.Token.OnePass

/-! # Texts joined by a newline

A cursor that comes to a newline keeps nothing of the line behind it: no comment,
no open tag, no half of a numeral or of a doubled sign, no level. A line is
therefore read without regard to the lines around it, of which only its number
tells. So two texts with a newline between them have the tokens of both, those
of the second one further down (`NpcScript.Lexer.tokens_newline`), however the
first one breaks off.
-/

namespace NpcScript

/-- The same token, a number of lines further down. -/
def Token.lower (count : Nat) (token : Token) : Token :=
  { token with location := { token.location with line := token.location.line + count } }

namespace Lexer

variable {symbols : SymbolTable} {line indent column count : Nat}

/-- Nothing but the place of a token depends on the number of its line. -/
theorem scan_lower (text : List Char) :
    scan symbols (line + count) indent column text [] =
      (scan symbols line indent column text []).map (Token.lower count) := by
  induction text using line_induction symbols generalizing column with
  | nil => simp [scan]
  | blank c rest blank ih => rw [scan_blank blank, scan_blank blank, ih]
  | comment rest => rw [scan_comment, scan_comment]; rfl
  | lexeme c taken behind begins takes ih =>
      rw [scan_lexeme begins takes, scan_lexeme begins takes, ih, List.map_cons]
      rfl

/-- The tokens of a line with a later number are further down. -/
theorem lineTokens_lower (number : Nat) (text : List Char) :
    lineTokens symbols (number + count) text =
      (lineTokens symbols number text).map (Token.lower count) :=
  scan_lower text

/-- Lines that are numbered from a later number on have their tokens further down. -/
theorem tokensFrom_lower (text : List Char) (start : Nat) :
    tokensFrom symbols (start + count) text =
      (tokensFrom symbols start text).map (Token.lower count) := by
  induction text using text_induction generalizing start with
  | last text oneLine =>
      rw [tokensFrom_of_oneLine oneLine, tokensFrom_of_oneLine oneLine, lineTokens_lower]
  | line text rest oneLine ih =>
      rw [tokensFrom_append_cons oneLine, tokensFrom_append_cons oneLine, List.map_append,
        lineTokens_lower, Nat.add_right_comm, ih]

/-- Behind a newline, the lines of a text are numbered on. -/
theorem tokensFrom_newline (s t : List Char) (start : Nat) :
    tokensFrom symbols start (s ++ '\n' :: t) =
      tokensFrom symbols start s ++ tokensFrom symbols (start + (1 + s.count '\n')) t := by
  induction s using text_induction generalizing start with
  | last s oneLine =>
      rw [tokensFrom_append_cons oneLine, tokensFrom_of_oneLine oneLine,
        List.count_eq_zero_of_not_mem oneLine]
  | line line rest oneLine ih =>
      have count : (line ++ '\n' :: rest).count '\n' = rest.count '\n' + 1 := by
        simp [List.count_eq_zero_of_not_mem oneLine]
      have further : start + 1 + (1 + rest.count '\n') = start + (1 + (rest.count '\n' + 1)) := by
        omega
      rw [List.append_assoc, List.cons_append, tokensFrom_append_cons oneLine,
        tokensFrom_append_cons oneLine, ih, List.append_assoc, count, further]

/-- **What stands on one line is read apart from the other lines.** A cursor that reads a script in
one pass yields the tokens of the script. Behind a newline it yields what it yields for the text
there alone, further down by the lines in front of it. -/
theorem tokens_newline (symbols : SymbolTable) (s t : String) :
    (∀ source : String, (Cursor.start source.toList).tokens symbols = tokens symbols source) ∧
      (Cursor.start (s ++ "\n" ++ t).toList).tokens symbols =
        (Cursor.start s.toList).tokens symbols ++
          ((Cursor.start t.toList).tokens symbols).map
            (Token.lower (1 + s.toList.count '\n')) := by
  refine ⟨Cursor.tokens_start symbols, ?_⟩
  have between : (s ++ "\n" ++ t).toList = s.toList ++ '\n' :: t.toList := by simp
  have read (text : List Char) :
      (Cursor.start text).tokens symbols = tokensFrom symbols 1 text :=
    Cursor.tokens_eq_tokensFrom symbols text 1 0
  rw [between, read, read, read, tokensFrom_newline, tokensFrom_lower]

end Lexer
end NpcScript
