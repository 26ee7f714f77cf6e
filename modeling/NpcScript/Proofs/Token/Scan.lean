import NpcScript.Proofs.Token.Name
import NpcScript.Proofs.Token.Reading

/-! # How a line is read

What stands on a line is a blank, a comment or a lexeme with the rest of the line
behind it. Facts about all lines follow from these cases
(`NpcScript.Lexer.line_induction`), for each of which one equation says what is
read there.
-/

namespace NpcScript.Lexer

variable {symbols : SymbolTable} {line indent column : Nat} {c : Char}
  {rest taken behind text : List Char} {done : List Token}

/-- A lexeme begins with a character: it is no blank, and no comment begins with it. -/
structure Begins (c : Char) (rest : List Char) : Prop where
  visible : isBlank c = false
  noComment : ¬(c = '/' ∧ rest.head? = some '/')

/-- A lexeme that stands apart still begins there. -/
theorem Begins.apart {after : List Char} (begins : Begins c (taken ++ behind))
    (apart : Apart after) : Begins c (taken ++ after) where
  visible := begins.visible
  noComment := by
    rintro ⟨rfl, head⟩
    cases taken with
    | nil => exact absurd (apart '/' head) (by decide)
    | cons d taken => exact begins.noComment ⟨rfl, head⟩

/-- The cases that a line is read by. -/
@[elab_as_elim]
theorem line_induction (symbols : SymbolTable) {motive : List Char → Prop} (nil : motive [])
    (blank : ∀ c rest, isBlank c → motive rest → motive (c :: rest))
    (comment : ∀ rest, motive ('/' :: '/' :: rest))
    (lexeme : ∀ c taken behind, Begins c (taken ++ behind) →
      Takes (read symbols c) taken behind → motive behind → motive (c :: (taken ++ behind)))
    (text : List Char) : motive text :=
  match text with
  | [] => nil
  | c :: rest => by
      by_cases blankHere : isBlank c
      · exact blank c rest blankHere (line_induction symbols nil blank comment lexeme rest)
      · by_cases commentHere : c = '/' ∧ rest.head? = some '/'
        · obtain ⟨rfl, head⟩ := commentHere
          obtain ⟨rest, rfl⟩ := List.head?_eq_some_iff.mp head
          exact comment rest
        · obtain ⟨taken, behind, split, takes⟩ := exists_takes_read symbols
            (Bool.eq_false_iff.mpr blankHere) rest
          have shorter : behind.length < rest.length + 1 := by
            rw [split, List.length_append]
            omega
          subst split
          exact lexeme c taken behind ⟨Bool.eq_false_iff.mpr blankHere, commentHere⟩ takes
            (line_induction symbols nil blank comment lexeme behind)
termination_by text.length

/-- A blank only moves the column. -/
theorem scan_blank (blank : isBlank c) :
    scan symbols line indent column (c :: rest) done =
      scan symbols line indent (column + 1) rest done := by
  rw [scan, if_pos blank]

/-- Nothing is read behind the beginning of a comment. -/
theorem scan_comment :
    scan symbols line indent column ('/' :: '/' :: rest) done = done.reverse := by
  rw [scan, if_neg (by decide), if_pos (by simp)]

private theorem scan_onto (begins : Begins c (taken ++ behind))
    (takes : Takes (read symbols c) taken behind) :
    scan symbols line indent column (c :: (taken ++ behind)) done =
      scan symbols line indent (column + 1 + taken.length) behind
        (⟨(read symbols c (taken ++ behind)).kind, ⟨line, column⟩, indent,
          String.ofList (c :: taken)⟩ :: done) := by
  rw [scan, begins.visible, if_neg (by simp), if_neg (by simpa using begins.noComment)]
  simp only [takes.extra, List.take_left, List.drop_left]

/-- The tokens already read stay in front of the others. -/
theorem scan_done (text : List Char) (column : Nat) (done : List Token) :
    scan symbols line indent column text done =
      done.reverse ++ scan symbols line indent column text [] := by
  induction text using line_induction symbols generalizing column done with
  | nil => simp [scan]
  | blank c rest blank ih => rw [scan_blank blank, scan_blank blank, ih]
  | comment rest => rw [scan_comment, scan_comment, List.reverse_nil, List.append_nil]
  | lexeme c taken behind begins takes ih =>
      rw [scan_onto begins takes, scan_onto begins takes, ih, ih _ [_], List.reverse_cons,
        List.append_assoc]
      rfl

/-- A lexeme makes the first token of what is left of its line. -/
theorem scan_lexeme (begins : Begins c (taken ++ behind))
    (takes : Takes (read symbols c) taken behind) :
    scan symbols line indent column (c :: (taken ++ behind)) [] =
      ⟨(read symbols c (taken ++ behind)).kind, ⟨line, column⟩, indent,
          String.ofList (c :: taken)⟩ ::
        scan symbols line indent (column + 1 + taken.length) behind [] := by
  rw [scan_onto begins takes, scan_done]
  rfl

/-! ## Texts line by line -/

/-- A text is its last line, or a line with a newline and further lines behind it. -/
@[elab_as_elim]
theorem text_induction {motive : List Char → Prop}
    (last : ∀ text, '\n' ∉ text → motive text)
    (line : ∀ text rest, '\n' ∉ text → motive rest → motive (text ++ '\n' :: rest))
    (text : List Char) : motive text := by
  by_cases newline : '\n' ∈ text
  · obtain ⟨first, rest, split, inside⟩ := List.eq_append_cons_of_mem newline
    have shorter : rest.length < text.length := by
      rw [split, List.length_append, List.length_cons]
      omega
    subst split
    exact line first rest inside (text_induction last line rest)
  · exact last text newline
termination_by text.length

/-- The tokens of a text whose lines are numbered from a number on. -/
def tokensFrom (symbols : SymbolTable) (start : Nat) (text : List Char) : List Token :=
  ((lines text).zipIdx start).flatMap fun (line, number) => lineTokens symbols number line

/-- The lines of a script are numbered from one on. -/
theorem tokens_eq_tokensFrom (source : String) :
    tokens symbols source = tokensFrom symbols 1 source.toList :=
  rfl

/-- The part of a text in front of its first newline. -/
def firstLine (text : List Char) : List Char :=
  text.takeWhile (· ≠ '\n')

/-- What stands in front of a newline belongs to the line. -/
theorem firstLine_append_of_oneLine (oneLine : '\n' ∉ text) (rest : List Char) :
    firstLine (text ++ rest) = text ++ firstLine rest := by
  refine List.takeWhile_append_of_pos fun c member => ?_
  simpa using ne_of_mem_of_not_mem member oneLine

/-- A line ends where the text behind it is empty or begins with a newline. -/
theorem firstLine_append (oneLine : '\n' ∉ text) (ended : firstLine behind = []) :
    firstLine (text ++ behind) = text := by
  rw [firstLine_append_of_oneLine oneLine, ended, List.append_nil]

/-- Only a newline stands behind a line. -/
theorem head?_of_firstLine (ended : firstLine behind = []) : ∀ c ∈ behind.head?, c = '\n' := by
  intro c member
  obtain ⟨rest, rfl⟩ := List.head?_eq_some_iff.mp member
  by_contra other
  rw [firstLine, List.takeWhile_cons_of_pos (by simpa using other)] at ended
  cases ended

/-- A lexeme that begins on a line still begins there with the lines behind it. -/
theorem Begins.append (begins : Begins c rest) (ended : firstLine behind = []) :
    Begins c (rest ++ behind) where
  visible := begins.visible
  noComment := by
    rintro ⟨rfl, head⟩
    cases rest with
    | nil => exact absurd (head?_of_firstLine ended '/' head) (by decide)
    | cons d rest => exact begins.noComment ⟨rfl, head⟩

/-- A text without newlines is one line. -/
theorem lines_of_oneLine (oneLine : '\n' ∉ text) : lines text = [text] :=
  List.splitOn_eq_singleton oneLine

/-- A line ends with its newline. -/
theorem lines_append_cons (oneLine : '\n' ∉ text) (rest : List Char) :
    lines (text ++ '\n' :: rest) = text :: lines rest :=
  List.splitOn_append_cons_self_of_not_mem oneLine rest

/-- No line of a text goes on behind a newline. -/
theorem newline_notMem_of_mem_lines {text line : List Char} (member : line ∈ lines text) :
    '\n' ∉ line := by
  induction text using text_induction with
  | last text oneLine =>
      rw [lines_of_oneLine oneLine, List.mem_singleton] at member
      exact member ▸ oneLine
  | line text rest oneLine ih =>
      rw [lines_append_cons oneLine] at member
      rcases List.mem_cons.mp member with rfl | member
      · exact oneLine
      · exact ih member

/-- A text of one line has the tokens of the line. -/
theorem tokensFrom_of_oneLine (oneLine : '\n' ∉ text) (start : Nat) :
    tokensFrom symbols start text = lineTokens symbols start text := by
  simp [tokensFrom, lines_of_oneLine oneLine]

/-- The lines behind a newline are numbered on. -/
theorem tokensFrom_append_cons (oneLine : '\n' ∉ text) (start : Nat) (rest : List Char) :
    tokensFrom symbols start (text ++ '\n' :: rest) =
      lineTokens symbols start text ++ tokensFrom symbols (start + 1) rest := by
  simp [tokensFrom, lines_append_cons oneLine]

/-! ## Texts of one lexeme -/

/-- A character that is visible does not indent. -/
theorem isIndent_of_visible (visible : isBlank c = false) : isIndent c = false := by
  rw [Bool.eq_false_iff] at visible ⊢
  exact fun indents => visible (isBlank_of_isIndent indents)

/-- A line that begins with a lexeme is not indented. -/
theorem indentOf_of_visible (visible : isBlank c = false) : indentOf (c :: rest) = 0 := by
  rw [indentOf, List.takeWhile_cons_of_neg (by simp [isIndent_of_visible visible])]
  rfl

/-- A text that is one lexeme has one token. -/
theorem tokens_lexeme (begins : Begins c taken) (takes : Takes (read symbols c) taken [])
    (oneLine : '\n' ∉ c :: taken) :
    tokens symbols (String.ofList (c :: taken)) =
      [⟨(read symbols c taken).kind, ⟨1, 1⟩, 0, String.ofList (c :: taken)⟩] := by
  have line : scan symbols 1 0 1 (c :: (taken ++ [])) [] = _ :=
    scan_lexeme (by rwa [List.append_nil]) takes
  rw [List.append_nil, scan] at line
  rw [tokens_eq_tokensFrom, String.toList_ofList, tokensFrom_of_oneLine oneLine, lineTokens,
    indentOf_of_visible begins.visible, line]
  rfl

end NpcScript.Lexer
