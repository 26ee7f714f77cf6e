import NpcScript.Proofs.Token.Scan

/-! # Blanks and comments

A text of blanks and a comment has no tokens, and behind a line it leaves the
tokens of the line as they are (`NpcScript.Lexer.lineTokens_append`), unless it
is put into an open tag or makes a comment of the sign that the line ends with.
-/

namespace NpcScript.Lexer

/-- Blanks, and behind them a comment or nothing. -/
structure Trivia (text : List Char) : Prop where
  oneLine : '\n' ∉ text
  shape : ∃ blanks comment, text = blanks ++ comment ∧ (∀ c ∈ blanks, isBlank c) ∧
    (comment = [] ∨ ∃ rest, comment = '/' :: '/' :: rest)

/-- Blanks and a comment may stand behind the tokens of a line: no tag is open, and the last token
is no sign of division. -/
structure Closed (tokens : List Token) : Prop where
  closed : ∀ token ∈ tokens, token.kind ≠ .unknown .unterminatedIdsz
  noSlash : ∀ last ∈ tokens.getLast?, last.kind ≠ .operator .div

variable {symbols : SymbolTable} {line number indent column : Nat} {text extra : List Char}
  {tokens : List Token} {token : Token}

/-- Blanks and a comment may stand on a line without tokens. -/
theorem closed_nil : Closed [] := ⟨by simp, by simp⟩

private theorem Closed.tail (closed : Closed (token :: tokens)) : Closed tokens where
  closed other member := closed.closed other (List.mem_cons_of_mem _ member)
  noSlash := by
    intro last member
    cases tokens with
    | nil => cases member
    | cons next others => exact closed.noSlash last (by rwa [List.getLast?_cons_cons])

private theorem trivia_iff : Trivia text ↔ '\n' ∉ text ∧
    (text.dropWhile isBlank = [] ∨ ['/', '/'] <+: text.dropWhile isBlank) := by
  constructor
  · rintro ⟨oneLine, blanks, comment, rfl, blank, ends⟩
    refine ⟨oneLine, ?_⟩
    rw [List.dropWhile_append_of_pos blank]
    rcases ends with rfl | ⟨rest, rfl⟩
    · exact .inl rfl
    · exact .inr ⟨rest, rfl⟩
  · rintro ⟨oneLine, ends⟩
    refine ⟨oneLine, _, _, List.takeWhile_append_dropWhile.symm,
      fun c member => List.mem_takeWhile_imp member, ends.imp_right ?_⟩
    rintro ⟨rest, comment⟩
    exact ⟨rest, comment.symm⟩

instance : Decidable (Trivia text) := decidable_of_iff _ trivia_iff.symm

private theorem Trivia.stops (trivia : Trivia extra) : Stops extra := by
  obtain ⟨blanks, comment, rfl, blank, ends⟩ := trivia.shape
  cases blanks with
  | cons c blanks =>
      intro d member
      cases member
      exact .inl (blank c List.mem_cons_self)
  | nil =>
      rcases ends with rfl | ⟨rest, rfl⟩
      · exact apart_nil.stops
      · intro d member
        cases member
        exact .inr rfl

private theorem scan_trivia (trivia : Trivia extra) :
    scan symbols line indent column extra [] = [] := by
  obtain ⟨blanks, comment, rfl, blank, ends⟩ := trivia.shape
  rw [scan_blanks blank]
  rcases ends with rfl | ⟨rest, rfl⟩
  · rw [scan]
    rfl
  · exact scan_comment

/-- Only a sign of division with a slash behind it begins no lexeme any more. -/
theorem Begins.extend {c : Char} {taken behind : List Char} (begins : Begins c (taken ++ behind))
    (notSlash : c = '/' → taken ++ behind = [] → False) :
    Begins c (taken ++ (behind ++ extra)) where
  visible := begins.visible
  noComment := by
    rintro ⟨slash, head⟩
    rw [← List.append_assoc] at head
    cases here : taken ++ behind with
    | nil => exact notSlash slash here
    | cons d rest =>
        rw [here] at head
        exact begins.noComment ⟨slash, by rw [here]; exact head⟩

/-- Behind a line, blanks and a comment leave its tokens as they are. -/
theorem scan_append (trivia : Trivia extra) (text : List Char) (column : Nat)
    (closed : Closed (scan symbols line indent column text [])) :
    scan symbols line indent column (text ++ extra) [] =
      scan symbols line indent column text [] := by
  induction text using line_induction symbols generalizing column with
  | nil => rw [List.nil_append, scan_trivia trivia, scan]; rfl
  | blank c rest blank ih =>
      rw [scan_blank blank] at closed
      rw [List.cons_append, scan_blank blank, scan_blank blank, ih _ closed]
  | comment rest => rw [List.cons_append, List.cons_append, scan_comment, scan_comment]
  | lexeme c taken behind begins takes ih =>
      rw [scan_lexeme begins takes] at closed
      have noTag := closed.closed _ List.mem_cons_self
      have openTag : (read symbols c (taken ++ behind)).kind = .unknown .unterminatedIdsz →
          extra = [] := fun unterminated => absurd unterminated noTag
      have notSlash : c = '/' → taken ++ behind = [] → False := by
        intro slash nothing
        obtain ⟨rfl, rfl⟩ := List.append_eq_nil_iff.mp nothing
        subst slash
        exact closed.noSlash _ (by rw [scan]; rfl) rfl
      have same := takes.further trivia.stops openTag
      rw [List.cons_append, List.append_assoc, scan_lexeme begins takes,
        scan_lexeme (begins.extend notSlash) (takes.extend trivia.stops openTag), same,
        ih _ closed.tail]

/-- A line of blanks and a comment has no tokens. -/
theorem lineTokens_trivia (trivia : Trivia extra) : lineTokens symbols number extra = [] :=
  scan_trivia trivia

/-- A line with more than blanks on it has the level that it begins with. -/
theorem indentOf_append (visible : ¬∀ c ∈ text, isIndent c) :
    indentOf (text ++ extra) = indentOf text := by
  have stops : (text.takeWhile isIndent).length ≠ text.length := fun all =>
    visible (List.takeWhile_eq_self_iff.mp ((List.takeWhile_prefix isIndent).eq_of_length all))
  rw [indentOf, List.takeWhile_append, if_neg stops, indentOf]

/-- **What stands on a line** is read alike with blanks and a comment behind it. -/
theorem lineTokens_append (trivia : Trivia extra)
    (closed : Closed (lineTokens symbols number text)) :
    lineTokens symbols number (text ++ extra) = lineTokens symbols number text := by
  by_cases indents : ∀ c ∈ text, isIndent c
  · -- Blanks behind blanks make another level, but no token has it.
    have blank : ∀ c ∈ text, isBlank c := fun c member => isBlank_of_isIndent (indents c member)
    have nothing (indent : Nat) : scan symbols number indent 1 text [] = [] := by
      rw [← List.append_nil text, scan_blanks blank, scan]
      rfl
    rw [lineTokens, lineTokens, scan_blanks blank, scan_trivia trivia, nothing]
  · rw [lineTokens, indentOf_append indents]
    exact scan_append trivia text 1 closed

end NpcScript.Lexer
