import Mathlib.Data.List.DropRight
import NpcScript.Proofs.Source.Rows
import NpcScript.Proofs.Token.Scan

/-! # Tokens cover their text

From its first character to its last, a text is taken apart into spaces, comments
and the lexemes of its tokens. What has been passed before a token gives its
place: the newlines in it count the lines, and the characters since the last one
count the columns. The tokens of a script cover its text in this sense
(`NpcScript.Lexer.tokens_cover`).

The lexer numbers lines and columns as it goes. The proof follows it along a
line, where what was passed is some whole lines and a part of this one
(`NpcScript.Lexer.covers_scan`), and from line to line.
-/

namespace NpcScript

/-- The part of a text behind its last newline. -/
def Lexer.lastLine (text : List Char) : List Char :=
  text.rtakeWhile (· ≠ '\n')

/-- The place where a text ends. -/
def Location.behind (text : List Char) : Location :=
  ⟨text.count '\n' + 1, (Lexer.lastLine text).length + 1⟩

/-- Characters that stand between lexemes. -/
def Lexer.spaces : List Char := [' ', '\t', '\r', '~', '\n']

/-- A token is at its place between the text in front of it and the text behind it: neither a space
nor a comment begins there, and its level is that of the blanks in front of its line. -/
structure Token.Stands (token : Token) (before rest : List Char) : Prop where
  nonempty : token.lexeme ≠ ""
  oneLine : '\n' ∉ token.lexeme.toList
  visible : ∀ c ∈ token.lexeme.toList.head?, c ∉ Lexer.spaces
  noComment : ¬['/', '/'] <+: token.lexeme.toList ++ rest
  located : token.location = .behind before
  indented : token.indent = min 255
    (Lexer.columns (Lexer.lastLine before ++ Lexer.firstLine (token.lexeme.toList ++ rest)) / 2)

namespace Lexer

/-- Behind a text, tokens cover another one: it is made of their lexemes, in this order, of spaces,
and of comments that run to the end of their lines. -/
inductive Covers : List Char → List Char → List Token → Prop where
  | finish {before : List Char} : Covers before [] []
  | space {before rest : List Char} {c : Char} {tokens : List Token} (skipped : c ∈ spaces)
      (more : Covers (before ++ [c]) rest tokens) : Covers before (c :: rest) tokens
  | comment {before body rest : List Char} {tokens : List Token} (inside : '\n' ∉ body)
      (ended : ∀ c ∈ rest.head?, c = '\n')
      (more : Covers (before ++ '/' :: '/' :: body) rest tokens) :
      Covers before ('/' :: '/' :: (body ++ rest)) tokens
  | token {before rest : List Char} {token : Token} {tokens : List Token}
      (stands : token.Stands before rest)
      (more : Covers (before ++ token.lexeme.toList) rest tokens) :
      Covers before (token.lexeme.toList ++ rest) (token :: tokens)

/-- The last case for a lexeme that is given by its characters. -/
theorem Covers.lexeme {before lexeme rest : List Char} {token : Token} {tokens : List Token}
    (written : token.lexeme.toList = lexeme) (stands : token.Stands before rest)
    (more : Covers (before ++ lexeme) rest tokens) :
    Covers before (lexeme ++ rest) (token :: tokens) := by
  subst written
  exact .token stands more

variable {before passed left behind : List Char} {later : List Token}

private theorem mem_spaces_iff {c : Char} : c ∈ spaces ↔ isBlank c ∨ c = '\n' := by
  simp [spaces, isBlank, or_assoc]

private theorem lastLine_append (fresh : lastLine before = []) (oneLine : '\n' ∉ passed) :
    lastLine (before ++ passed) = passed := by
  have inside : ∀ c ∈ passed.reverse, decide (c ≠ '\n') = true := fun c member => by
    simpa using ne_of_mem_of_not_mem (List.mem_reverse.mp member) oneLine
  have stop : before.reverse.takeWhile (· ≠ '\n') = [] := List.reverse_eq_nil_iff.mp fresh
  rw [lastLine, List.rtakeWhile, List.reverse_append, takeWhile_run inside stop,
    List.reverse_reverse]

private theorem lastLine_newline (text : List Char) : lastLine (text ++ ['\n']) = [] :=
  List.rtakeWhile_concat_neg _ _ _ (by simp)

private theorem behind_append (fresh : lastLine before = []) (oneLine : '\n' ∉ passed) :
    Location.behind (before ++ passed) = ⟨before.count '\n' + 1, passed.length + 1⟩ := by
  rw [Location.behind, lastLine_append fresh oneLine, List.count_append,
    List.count_eq_zero_of_not_mem oneLine, Nat.add_zero]

/-- A comment that begins on a line begins with characters of the line. -/
theorem begins_append {c : Char} {rest : List Char} (begins : Begins c rest)
    (ended : firstLine behind = []) : ¬['/', '/'] <+: c :: (rest ++ behind) := by
  rw [List.cons_prefix_cons]
  rintro ⟨rfl, body, slash⟩
  refine (begins.append ended).noComment ⟨rfl, ?_⟩
  rw [← slash]
  rfl

/-- A lexeme stands at the column that is counted up to it, with the level of its line. -/
theorem stands_lexeme {c : Char} {taken rest : List Char} {kind : TokenKind}
    (fresh : lastLine before = []) (ended : firstLine behind = [])
    (oneLine : '\n' ∉ passed ++ c :: (taken ++ rest)) (begins : Begins c (taken ++ rest)) :
    Token.Stands ⟨kind, ⟨before.count '\n' + 1, passed.length + 1⟩,
      indentOf (passed ++ c :: (taken ++ rest)), String.ofList (c :: taken)⟩
      (before ++ passed) (rest ++ behind) := by
  have inPassed : '\n' ∉ passed := fun member => oneLine (List.mem_append_left _ member)
  have inRest : '\n' ∉ c :: (taken ++ rest) := fun member =>
    oneLine (List.mem_append_right _ member)
  have whole : c :: taken ++ (rest ++ behind) = c :: (taken ++ rest) ++ behind := by simp
  constructor
  case nonempty => simp
  case oneLine =>
    rw [String.toList_ofList]
    exact fun member => inRest (List.mem_append_left rest member)
  case visible =>
    intro d member
    rw [String.toList_ofList] at member
    cases member
    rw [mem_spaces_iff, begins.visible]
    rintro (blank | rfl)
    · cases blank
    · exact inRest List.mem_cons_self
  case noComment =>
    rw [String.toList_ofList, whole]
    exact begins_append begins ended
  case located => rw [behind_append fresh inPassed]
  case indented =>
    rw [String.toList_ofList, whole, lastLine_append fresh inPassed, firstLine_append inRest ended]
    exact Source.indentOf_eq _

/-- **What is read of a line covers it**, behind what was passed of it. -/
theorem covers_scan (symbols : SymbolTable) (fresh : lastLine before = [])
    (ended : firstLine behind = []) (oneLine : '\n' ∉ passed ++ left)
    (more : Covers (before ++ (passed ++ left)) behind later) :
    Covers (before ++ passed) (left ++ behind)
      (scan symbols (before.count '\n' + 1) (indentOf (passed ++ left)) (passed.length + 1) left []
        ++ later) := by
  -- What is read moves from `left` to `passed`: the line they make up, and so its level, stays.
  induction left using line_induction symbols generalizing passed with
  | nil => simpa [scan] using more
  | blank c rest blank ih =>
      have split : passed ++ c :: rest = (passed ++ [c]) ++ rest := by simp
      rw [split] at oneLine more ⊢
      rw [scan_blank blank, List.cons_append]
      refine .space (mem_spaces_iff.mpr (.inl blank)) ?_
      simpa using ih oneLine more
  | comment rest =>
      rw [scan_comment]
      refine .comment (fun member => oneLine (by simp [member])) (head?_of_firstLine ended) ?_
      simpa using more
  | lexeme c taken rest begins takes ih =>
      have split : passed ++ c :: (taken ++ rest) = (passed ++ c :: taken) ++ rest := by simp
      have column : passed.length + 1 + 1 + taken.length = (passed ++ c :: taken).length + 1 := by
        rw [List.length_append, List.length_cons]
        omega
      have whole : c :: (taken ++ rest) ++ behind = c :: taken ++ (rest ++ behind) := by simp
      rw [whole, scan_lexeme begins takes, List.cons_append, column]
      refine .lexeme String.toList_ofList (stands_lexeme fresh ended oneLine begins) ?_
      rw [split] at oneLine more ⊢
      rw [List.append_assoc]
      exact ih oneLine more

private theorem covers_line (symbols : SymbolTable) (fresh : lastLine before = [])
    (ended : firstLine behind = []) (oneLine : '\n' ∉ left)
    (more : Covers (before ++ left) behind later) :
    Covers before (left ++ behind)
      (lineTokens symbols (before.count '\n' + 1) left ++ later) := by
  have line : Covers (before ++ []) (left ++ behind)
      (scan symbols (before.count '\n' + 1) (indentOf left) 1 left [] ++ later) :=
    covers_scan symbols fresh ended oneLine more
  rwa [List.append_nil] at line

/-- The lines of a text are covered, behind other lines. -/
theorem covers_tokensFrom (symbols : SymbolTable) (text : List Char)
    (fresh : lastLine before = []) :
    Covers before text (tokensFrom symbols (before.count '\n' + 1) text) := by
  induction text using text_induction generalizing before with
  | last text oneLine =>
      have line := covers_line symbols fresh rfl oneLine .finish
      rwa [List.append_nil, List.append_nil, ← tokensFrom_of_oneLine oneLine] at line
  | line text rest oneLine ih =>
      have number : (before ++ text ++ ['\n']).count '\n' = before.count '\n' + 1 := by
        simp [List.count_eq_zero_of_not_mem oneLine]
      have further := ih (lastLine_newline (before ++ text))
      rw [number] at further
      rw [tokensFrom_append_cons oneLine]
      exact covers_line symbols fresh rfl oneLine (.space (by decide) further)

/-- **The tokens of a script cover its text.** -/
theorem tokens_cover (symbols : SymbolTable) (source : String) :
    Covers [] source.toList (tokens symbols source) :=
  covers_tokensFrom symbols source.toList rfl

end Lexer
end NpcScript
