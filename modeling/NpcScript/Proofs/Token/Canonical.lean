import NpcScript.Proofs.Source.Rows
import NpcScript.Proofs.Token.Scan

/-! # Lexemes are read again as they were

The lexeme of a token, read alone, makes the same token, and so do the lexemes
of a line with single spaces between them. Hence the lines of a script may be
set anew, two spaces for each level and no comments, without a change to what is
read of them (`NpcScript.Lexer.tokens_canonical`).

Of a tag that is not closed it matters that no token stands behind it on its
line: then nothing is put behind it either.
-/

namespace NpcScript

/-- What a token says, apart from where it stands. -/
def Token.content (token : Token) : TokenKind × Nat × String :=
  (token.kind, token.indent, token.lexeme)

namespace Lexer

/-- The tokens of each line that has any. -/
def byLine (tokens : List Token) : List (List Token) :=
  tokens.splitBy fun a b => a.location.line == b.location.line

/-- The canonical form of a line: two spaces for each level, and single spaces between the
lexemes. -/
def canonicalLine : List Token → String
  | [] => ""
  | first :: others =>
      String.ofList (List.replicate (2 * first.indent) ' ') ++
        " ".intercalate ((first :: others).map (·.lexeme))

/-- The canonical form of a script with given tokens. -/
def canonical (tokens : List Token) : String :=
  "\n".intercalate ((byLine tokens).map canonicalLine)

variable {symbols : SymbolTable} {line indent column : Nat} {text : List Char} {token first : Token}
  {others : List Token}

/-! ## Lexemes alone -/

/-- Every token of a line is made of a lexeme that stands there. -/
theorem exists_lexeme_of_mem_scan (member : token ∈ scan symbols line indent column text []) :
    ∃ c taken behind, Begins c (taken ++ behind) ∧ Takes (read symbols c) taken behind ∧
      c :: (taken ++ behind) <:+ text ∧ token.kind = (read symbols c (taken ++ behind)).kind ∧
        token.lexeme = String.ofList (c :: taken) := by
  induction text using line_induction symbols generalizing column with
  | nil => simp [scan] at member
  | blank c rest blank ih =>
      rw [scan_blank blank] at member
      obtain ⟨d, taken, behind, begins, takes, suffix, written⟩ := ih member
      exact ⟨d, taken, behind, begins, takes, suffix.trans (List.suffix_cons c rest), written⟩
  | comment rest => simp [scan_comment] at member
  | lexeme c taken behind begins takes ih =>
      rw [scan_lexeme begins takes] at member
      rcases List.mem_cons.mp member with rfl | member
      · exact ⟨c, taken, behind, begins, takes, List.suffix_rfl, rfl, rfl⟩
      · obtain ⟨d, taken', behind', begins', takes', suffix, written⟩ := ih member
        refine ⟨d, taken', behind', begins', takes', suffix.trans ?_, written⟩
        exact (List.suffix_append taken behind).trans (List.suffix_cons c _)

private theorem newline_notMem_lexeme (oneLine : '\n' ∉ text)
    (member : token ∈ scan symbols line indent column text []) : '\n' ∉ token.lexeme.toList := by
  obtain ⟨c, taken, behind, _, _, suffix, _, lexeme⟩ := exists_lexeme_of_mem_scan member
  rw [lexeme, String.toList_ofList]
  exact fun newline => oneLine (suffix.subset (List.mem_append_left behind newline))

/-- A lexeme alone makes the token that it makes on its line. -/
theorem tokens_of_mem_scan (oneLine : '\n' ∉ text)
    (member : token ∈ scan symbols line indent column text []) :
    tokens symbols token.lexeme = [{ token with location := ⟨1, 1⟩, indent := 0 }] := by
  have inside := newline_notMem_lexeme oneLine member
  obtain ⟨c, taken, behind, begins, takes, _, kind, lexeme⟩ := exists_lexeme_of_mem_scan member
  rw [lexeme, String.toList_ofList] at inside
  have alone : tokens symbols (String.ofList (c :: taken)) = _ :=
    tokens_lexeme (by simpa using begins.apart apart_nil)
      (takes.stops apart_nil.stops fun _ => rfl) inside
  have same := takes.again apart_nil.stops fun _ => rfl
  rw [List.append_nil] at same
  rw [lexeme, alone, same, kind]

/-! ## Lexemes with single spaces -/

/-- The lexemes of tokens, with a space in front of each. -/
def spaced (tokens : List Token) : List Char :=
  tokens.flatMap fun token => ' ' :: token.lexeme.toList

private theorem apart_spaced (tokens : List Token) : Apart (spaced tokens) := by
  cases tokens with
  | nil => exact apart_nil
  | cons token tokens => exact apart_cons rfl

private theorem intercalate_lexemes (first : Token) (others : List Token) :
    [' '].intercalate ((first :: others).map (·.lexeme.toList)) =
      first.lexeme.toList ++ spaced others := by
  induction others generalizing first with
  | nil => simp [spaced]
  | cons second others ih =>
      have further := ih second
      rw [List.map_cons] at further
      rw [List.map_cons, List.map_cons, List.intercalate_cons_cons, further]
      simp [spaced]

/-- What is read of a line is read again of its lexemes with spaces. -/
theorem scan_spaced (symbols : SymbolTable) (indent : Nat) (text : List Char)
    (line column line' column' : Nat) :
    (scan symbols line' indent column' (spaced (scan symbols line indent column text []))
        []).map Token.content =
      (scan symbols line indent column text []).map Token.content := by
  induction text using line_induction symbols generalizing column column' with
  | nil => simp [scan, spaced]
  | blank c rest blank ih => rw [scan_blank blank, ih]
  | comment rest => simp [scan_comment, scan, spaced]
  | lexeme c taken behind begins takes ih =>
      rw [scan_lexeme begins takes]
      generalize later : scan symbols line indent (column + 1 + taken.length) behind [] = tokens
      have apart := apart_spaced tokens
      -- An open tag took the rest of its line, so there are no tokens to put behind it.
      have closed : (read symbols c (taken ++ behind)).kind = .unknown .unterminatedIdsz →
          spaced tokens = [] := by
        intro unterminated
        rw [takes.last unterminated, scan] at later
        rw [← later]
        rfl
      have text (token : Token) (lexeme : token.lexeme = String.ofList (c :: taken)) :
          spaced (token :: tokens) = ' ' :: c :: (taken ++ spaced tokens) := by
        simp only [spaced, List.flatMap_cons, lexeme, String.toList_ofList, List.cons_append]
      rw [text _ rfl, scan_blank rfl,
        scan_lexeme (begins.apart apart) (takes.stops apart.stops closed),
        takes.again apart.stops closed, List.map_cons, List.map_cons, ← later, ih]
      rfl

/-! ## Lines and texts -/

private theorem toList_canonicalLine (first : Token) (others : List Token) :
    (canonicalLine (first :: others)).toList =
      List.replicate (2 * first.indent) ' ' ++ (first.lexeme.toList ++ spaced others) := by
  rw [canonicalLine, String.toList_append, String.toList_ofList, String.toList_intercalate,
    List.map_map, ← intercalate_lexemes]
  rfl

/-- The tokens of a line of text, of which there is at least one. -/
def IsLine (symbols : SymbolTable) (tokens : List Token) : Prop :=
  tokens ≠ [] ∧ ∃ number text, '\n' ∉ text ∧ lineTokens symbols number text = tokens

private theorem IsLine.newline_notMem {tokens : List Token} (isLine : IsLine symbols tokens) :
    '\n' ∉ (canonicalLine tokens).toList := by
  obtain ⟨nonempty, number, text, oneLine, read⟩ := isLine
  have inside : ∀ token ∈ tokens, '\n' ∉ token.lexeme.toList := fun token member =>
    newline_notMem_lexeme oneLine (read ▸ member : token ∈ lineTokens symbols number text)
  obtain ⟨first, others, rfl⟩ := List.exists_cons_of_ne_nil nonempty
  rw [toList_canonicalLine, List.mem_append, List.mem_append]
  rintro (blank | lexeme | lexeme)
  · exact absurd (List.eq_of_mem_replicate blank) (by decide)
  · exact inside first List.mem_cons_self lexeme
  · obtain ⟨token, member, newline⟩ := List.mem_flatMap.mp lexeme
    rcases List.mem_cons.mp newline with blank | newline
    · exact absurd blank (by decide)
    · exact inside token (List.mem_cons_of_mem first member) newline

/-- A line in canonical form has the level that it had. -/
theorem indentOf_canonicalLine (read : lineTokens symbols line text = first :: others) :
    indentOf (canonicalLine (first :: others)).toList = first.indent := by
  have member : first ∈ lineTokens symbols line text := read ▸ List.mem_cons_self
  have bounded : first.indent ≤ maxIndent := by
    rw [(mem_lineTokens member).2.2]
    exact Nat.min_le_left _ _
  obtain ⟨c, taken, behind, begins, _, _, _, lexeme⟩ := exists_lexeme_of_mem_scan member
  have columns : columns (canonicalLine (first :: others)).toList = 2 * first.indent := by
    rw [toList_canonicalLine, lexeme, String.toList_ofList, List.cons_append,
      Source.columns_replicate _ rfl (isIndent_of_visible begins.visible)]
    exact Nat.mul_one _
  rw [Source.indentOf_eq, columns, Nat.mul_div_cancel_left _ (by decide),
    Nat.min_eq_right bounded]

/-- What is read of a line is read again of its canonical form. -/
theorem IsLine.content_canonicalLine {tokens : List Token} (isLine : IsLine symbols tokens)
    (number : Nat) :
    (lineTokens symbols number (canonicalLine tokens).toList).map Token.content =
      tokens.map Token.content := by
  obtain ⟨nonempty, line, text, oneLine, read⟩ := isLine
  obtain ⟨first, others, rfl⟩ := List.exists_cons_of_ne_nil nonempty
  have indent : first.indent = indentOf text :=
    (mem_lineTokens (read ▸ List.mem_cons_self : first ∈ lineTokens symbols line text)).2.2
  have blanks : ∀ c ∈ List.replicate (2 * first.indent) ' ', isBlank c := fun c member => by
    rw [List.eq_of_mem_replicate member]
    rfl
  rw [lineTokens, indentOf_canonicalLine read, toList_canonicalLine, scan_blanks blanks, indent]
  -- With the column in front of the first lexeme, a space stands in front of every lexeme.
  have spaces : ' ' :: (first.lexeme.toList ++ spaced others) = spaced (first :: others) := rfl
  rw [Nat.add_comm 1, ← scan_blank (c := ' ') rfl, spaces, ← read]
  exact scan_spaced symbols (indentOf text) text line 1 number _

private theorem byLine_tokens (symbols : SymbolTable) (source : String) :
    byLine (tokens symbols source) =
      (Source.tokenLines symbols ((lines source.toList).zipIdx 1)).filter (!·.isEmpty) :=
  Source.splitBy_tokenLines (Source.pairwise_zipIdx _ _)

private theorem isLine_of_mem_byLine {source : String} {tokens' : List Token}
    (member : tokens' ∈ byLine (tokens symbols source)) : IsLine symbols tokens' := by
  rw [byLine_tokens] at member
  obtain ⟨member, nonempty⟩ := List.mem_filter.mp member
  obtain ⟨⟨text, number⟩, line, read⟩ := List.mem_map.mp member
  refine ⟨by simpa using nonempty, number, text, ?_, read⟩
  exact newline_notMem_of_mem_lines (List.fst_mem_of_mem_zipIdx line)

/-- The lines of a script in canonical form, numbered anew, are read as before. -/
theorem content_canonicalLines {groups : List (List Token)}
    (areLines : ∀ tokens ∈ groups, IsLine symbols tokens) (start : Nat) :
    (Source.tokenLines symbols
        ((groups.map fun tokens => (canonicalLine tokens).toList).zipIdx start)).map
          (·.map Token.content) =
      groups.map (·.map Token.content) := by
  induction groups generalizing start with
  | nil => rfl
  | cons tokens groups ih =>
      have first := (areLines tokens List.mem_cons_self).content_canonicalLine start
      have further := ih (fun tokens member => areLines tokens (List.mem_cons_of_mem _ member))
        (start + 1)
      simp only [Source.tokenLines] at further ⊢
      simp only [List.map_cons, List.zipIdx_cons, first, further]

/-- The lines of a script in canonical form are the canonical forms of its lines. -/
theorem lines_canonical {source : List Token} (nonempty : byLine source ≠ [])
    (areLines : ∀ tokens ∈ byLine source, IsLine symbols tokens) :
    lines (canonical source).toList =
      (byLine source).map fun tokens => (canonicalLine tokens).toList := by
  have text : (canonical source).toList =
      ['\n'].intercalate ((byLine source).map fun tokens => (canonicalLine tokens).toList) := by
    rw [canonical, String.toList_intercalate, List.map_map]
    rfl
  rw [lines, text]
  refine List.splitOn_intercalate '\n' ?_ (by simpa using nonempty)
  intro line member
  obtain ⟨tokens, grouped, rfl⟩ := List.mem_map.mp member
  exact (areLines tokens grouped).newline_notMem

/-- What is read of a script is read again of its canonical form, line by line. -/
theorem content_canonical {source : List Token}
    (areLines : ∀ tokens ∈ byLine source, IsLine symbols tokens) :
    (byLine (tokens symbols (canonical source))).map (·.map Token.content) =
      (byLine source).map (·.map Token.content) := by
  by_cases none : byLine source = []
  · rw [canonical, none, List.map_nil, List.map_nil]
    simp [byLine_tokens, Source.tokenLines, lines, lineTokens, scan]
  · have same := content_canonicalLines areLines 1
    rw [byLine_tokens, lines_canonical none areLines, List.filter_eq_self.mpr ?_, same]
    intro read member
    have content := List.mem_map_of_mem (f := List.map Token.content) member
    obtain ⟨tokens, grouped, content⟩ := List.mem_map.mp (same ▸ content)
    cases read with
    | nil => exact absurd (List.map_eq_nil_iff.mp content) (areLines tokens grouped).1
    | cons first others => rfl

/-- **Lexemes are read again as they were.** A lexeme alone makes one token, of the same kind, value
and error. The canonical form of a script has the lines of the script that have tokens, and on each
of them the same tokens but for their places. -/
theorem tokens_canonical (symbols : SymbolTable) (source : String) :
    (∀ token ∈ tokens symbols source,
      tokens symbols token.lexeme = [{ token with location := ⟨1, 1⟩, indent := 0 }]) ∧
      (byLine (tokens symbols (canonical (tokens symbols source)))).map (·.map Token.content) =
        (byLine (tokens symbols source)).map (·.map Token.content) := by
  refine ⟨fun token member => ?_, content_canonical fun _ => isLine_of_mem_byLine⟩
  obtain ⟨⟨text, number⟩, line, member⟩ := List.mem_flatMap.mp member
  exact tokens_of_mem_scan (newline_notMem_of_mem_lines (List.fst_mem_of_mem_zipIdx line)) member

/-- A tag that is not closed is read again with the spaces and slashes that it takes up. -/
theorem tokens_canonical_unclosed :
    ⟨.unknown .unterminatedIdsz, ⟨1, 7⟩, 2, "[a // b"⟩ ∈ tokens .standard "\t\t<<< [a // b" ∧
      tokens .standard "[a // b" = [⟨.unknown .unterminatedIdsz, ⟨1, 1⟩, 0, "[a // b"⟩] := by
  have read : tokens .standard "\t\t<<< [a // b" =
      [⟨.operator .shiftLeft, ⟨1, 3⟩, 2, "<<"⟩, ⟨.operator .shiftLeft, ⟨1, 5⟩, 2, "<"⟩,
        ⟨.unknown .unterminatedIdsz, ⟨1, 7⟩, 2, "[a // b"⟩] := by decide +kernel
  have member : ⟨.unknown .unterminatedIdsz, ⟨1, 7⟩, 2, "[a // b"⟩ ∈
      tokens .standard "\t\t<<< [a // b" := by
    rw [read]
    exact List.mem_cons_of_mem _ (List.mem_cons_of_mem _ List.mem_cons_self)
  exact ⟨member, (tokens_canonical .standard "\t\t<<< [a // b").1 _ member⟩

end Lexer
end NpcScript
